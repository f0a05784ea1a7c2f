import Mathlib

/-! Length-prefixed framing over an arbitrary alphabet. The header codec is a
parameter with its laws, so one development serves every width and byte order.
The reader stops at the first frame it refuses; what it leaves is the tail. -/
namespace Probectl.Framing

open List

variable {α : Type u}

/-- A fixed-width length header. Encoding keeps only the length's residue, as a
conversion to a machine word does; every word of the right width is a length. -/
structure Header (α : Type u) where
  width : Nat
  modulus : Nat
  put : Nat → List α
  get : List α → Nat
  width_pos : 0 < width
  put_length : ∀ n, (put n).length = width
  get_put : ∀ n, get (put n) = n % modulus
  put_get : ∀ h, h.length = width → put (get h) = h

variable (H : Header α) (cap : Nat)

def frame (p : List α) : List α := H.put p.length ++ p

def encode : List (List α) → List α
  | [] => []
  | p :: ps => frame H p ++ encode ps

def readFrame (xs : List α) : Option (List α × List α) :=
  if xs.length < H.width then none
  else
    let n := H.get (xs.take H.width)
    let body := xs.drop H.width
    if cap < n then none
    else if body.length < n then none
    else some (body.take n, body.drop n)

/-- The frames the reader returns and the tail it never reads. -/
def scan : Nat → List α → List (List α) × List α
  | 0, xs => ([], xs)
  | fuel + 1, xs =>
    match readFrame H cap xs with
    | none => ([], xs)
    | some (p, rest) => (p :: (scan fuel rest).1, (scan fuel rest).2)

def readAll (xs : List α) : List (List α) := (scan H cap xs.length xs).1
def tail (xs : List α) : List α := (scan H cap xs.length xs).2

@[simp] theorem frame_length (p : List α) : (frame H p).length = H.width + p.length := by
  simp [frame, H.put_length]

@[simp] theorem encode_append (ps qs : List (List α)) :
    encode H (ps ++ qs) = encode H ps ++ encode H qs := by
  induction ps with
  | nil => rfl
  | cons p ps ih => simp [encode, ih]

theorem encode_singleton (p : List α) : encode H [p] = frame H p := by simp [encode]

theorem readFrame_frame (fits : cap < H.modulus) (p t : List α) (small : p.length ≤ cap) :
    readFrame H cap (frame H p ++ t) = some (p, t) := by
  have width := H.put_length p.length
  have header : (frame H p ++ t).take H.width = H.put p.length := by
    rw [frame, append_assoc, ← width, take_left]
  have body : (frame H p ++ t).drop H.width = p ++ t := by
    rw [frame, append_assoc, ← width, drop_left]
  have length : H.get (H.put p.length) = p.length := by
    rw [H.get_put]
    exact Nat.mod_eq_of_lt (Nat.lt_of_le_of_lt small fits)
  have long : ¬ (frame H p ++ t).length < H.width := by simp; omega
  have enough : ¬ (p ++ t).length < p.length := by simp
  simp only [readFrame, if_neg long, header, body, length, if_neg (Nat.not_lt.mpr small),
    if_neg enough, take_left, drop_left]

variable {xs p t : List α}

theorem readFrame_some (ok : readFrame H cap xs = some (p, t)) : xs = frame H p ++ t ∧ p.length ≤ cap := by
  unfold readFrame at ok
  split at ok
  · contradiction
  dsimp only at ok
  split at ok
  · contradiction
  split at ok
  · contradiction
  obtain ⟨rfl, rfl⟩ := Prod.mk.inj (Option.some.inj ok)
  have header : (xs.take H.width).length = H.width := by
    rw [length_take]; omega
  have length : ((xs.drop H.width).take (H.get (xs.take H.width))).length =
      H.get (xs.take H.width) := by
    rw [length_take]; omega
  refine ⟨?_, by omega⟩
  rw [frame, length, H.put_get _ header, append_assoc, take_append_drop,
    take_append_drop]

theorem readFrame_shorter (ok : readFrame H cap xs = some (p, t)) : t.length < xs.length := by
  have h := congrArg length (readFrame_some H cap ok).1
  have positive := H.width_pos
  simp only [length_append, frame_length] at h
  omega

theorem scan_fuel (xs : List α) (fuel : Nat) (enough : xs.length ≤ fuel) :
    scan H cap fuel xs = scan H cap xs.length xs := by
  suffices same : ∀ n xs a b, xs.length ≤ n → xs.length ≤ a → xs.length ≤ b →
      scan H cap a xs = scan H cap b xs from same _ xs _ _ Nat.le.refl enough Nat.le.refl
  intro n
  induction n with
  | zero =>
    intro xs a b short _ _
    have empty : xs = [] := eq_nil_of_length_eq_zero (Nat.le_zero.mp short)
    subst xs
    have refused : readFrame H cap ([]) = none := by
      simp [readFrame, H.width_pos]
    cases a <;> cases b <;> simp [scan, refused]
  | succ n ih =>
    intro xs a b short ha hb
    cases h : readFrame H cap xs with
    | none => cases a <;> cases b <;> simp [scan, h]
    | some r =>
      obtain ⟨p, t⟩ := r
      have less := readFrame_shorter H cap h
      cases a with
      | zero => omega
      | succ a =>
        cases b with
        | zero => omega
        | succ b =>
          have rest := ih t a b (by omega) (by omega) (by omega)
          simp only [scan, h, rest]

theorem scan_none (refused : readFrame H cap xs = none) : readAll H cap xs = [] ∧ tail H cap xs = xs := by
  unfold readAll tail
  cases xs.length <;> simp [scan, refused]

theorem scan_some (ok : readFrame H cap xs = some (p, t)) :
    readAll H cap xs = p :: readAll H cap t ∧ tail H cap xs = tail H cap t := by
  have less := readFrame_shorter H cap ok
  obtain ⟨n, hn⟩ : ∃ n, xs.length = n + 1 := ⟨xs.length - 1, by omega⟩
  have rest := scan_fuel H cap t n (by omega)
  simp only [readAll, tail, hn, scan, ok, rest, and_self]

theorem scan_spec (xs : List α) :
    xs = encode H (readAll H cap xs) ++ tail H cap xs ∧
    readFrame H cap (tail H cap xs) = none ∧
    ∀ p ∈ readAll H cap xs, p.length ≤ cap := by
  induction h : xs.length using Nat.strongRecOn generalizing xs with
  | _ n ih =>
    cases ok : readFrame H cap xs with
    | none =>
      have s := scan_none H cap ok
      rw [s.1, s.2]
      exact ⟨rfl, ok, by simp⟩
    | some r =>
      obtain ⟨p, t⟩ := r
      have s := scan_some H cap ok
      have f := readFrame_some H cap ok
      have rest := ih t.length (h ▸ readFrame_shorter H cap ok) t rfl
      rw [s.1, s.2]
      refine ⟨?_, rest.2.1, ?_⟩
      · rw [encode, append_assoc, ← rest.1]
        exact f.1
      intro q hq
      rcases mem_cons.mp hq with hq | hq
      · exact hq ▸ f.2
      · exact rest.2.2 q hq

theorem readAll_nil : readAll H cap ([] : List α) = [] := rfl

section
variable (fits : cap < H.modulus)
include fits

theorem readAll_encode (ps : List (List α)) (t : List α) (small : ∀ p ∈ ps, p.length ≤ cap) :
    readAll H cap (encode H ps ++ t) = ps ++ readAll H cap t ∧
    tail H cap (encode H ps ++ t) = tail H cap t := by
  induction ps with
  | nil => exact ⟨rfl, rfl⟩
  | cons p ps ih =>
    have rest := ih (fun q hq => small q (mem_cons_of_mem p hq))
    have ok := readFrame_frame H cap fits p (encode H ps ++ t) (small p mem_cons_self)
    rw [encode, append_assoc]
    have s := scan_some H cap ok
    rw [s.1, s.2, rest.1, rest.2]
    exact ⟨rfl, rfl⟩

theorem readAll_encode_nil (ps : List (List α))
    (small : ∀ p ∈ ps, p.length ≤ cap) : readAll H cap (encode H ps) = ps := by
  have h := (readAll_encode H cap fits ps [] small).1
  simpa [readAll_nil] using h

theorem readAll_append (xs ys : List α) :
    readAll H cap (xs ++ ys) = readAll H cap xs ++ readAll H cap (tail H cap xs ++ ys) := by
  have s := scan_spec H cap xs
  have h := (readAll_encode H cap fits (readAll H cap xs) (tail H cap xs ++ ys) s.2.2).1
  rw [← append_assoc, ← s.1] at h
  exact h

/-- A frame that still reads back behind refused bytes stands in front of them
too, and they are too short to hold it. -/
theorem front_of_read (small : q.length ≤ cap)
    (refused : readAll H cap x = []) (read : readAll H cap (x ++ frame H q) = [q]) :
    x.length < (frame H q).length ∧ frame H q <+: x ++ frame H q := by
  cases h : readFrame H cap (x ++ frame H q) with
  | none =>
    rw [(scan_none H cap h).1] at read
    contradiction
  | some r =>
    obtain ⟨p, t⟩ := r
    rw [(scan_some H cap h).1] at read
    obtain ⟨rfl, -⟩ := cons.inj read
    have same := (readFrame_some H cap h).1
    refine ⟨Nat.lt_of_not_le fun long => ?_, t, same.symm⟩
    have inside : frame H p <+: x :=
      prefix_of_prefix_length_le ⟨t, same.symm⟩ (prefix_append x _) long
    obtain ⟨rest, rfl⟩ := inside
    rw [(scan_some H cap (readFrame_frame H cap fits p rest small)).1] at refused
    contradiction

end

end Probectl.Framing
