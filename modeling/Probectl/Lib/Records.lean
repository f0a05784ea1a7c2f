import Probectl.Lib.Loop

/-! Records read one after the other until none can be read. -/
namespace Probectl

open List

/-- Reads the record that a text begins with, and leaves what follows it. -/
structure Reader (B : Type u) (A : Type v) where
  read : List B → Option (A × List B)
  shrinks : ∀ raw x rest, read raw = some (x, rest) → rest.length < raw.length

namespace Reader

variable {B : Type u} {A : Type v} (r : Reader B A)

@[ext] theorem ext (same : ∀ raw, r.read raw = s.read raw) : r = s := by
  cases r
  congr
  exact funext same

def loop : Loop (List A × List B) (List A) where
  body := fun (out, raw) =>
    match r.read raw with
    | none => .inr out
    | some (x, rest) => .inl (out ++ [x], rest)
  size := fun (_, raw) => raw.length
  shrinks := by
    rintro ⟨out, raw⟩ t next
    dsimp only at next
    split at next
    · cases next
    · rename_i x rest found
      cases next
      exact r.shrinks raw x rest found

def all (raw : List B) : List A := r.loop.run ([], raw)

variable {r} {raw : List B}

theorem loop_end (none : r.read raw = none) (out : List A) : r.loop.run (out, raw) = out :=
  Loop.run_exit (by simp [loop, none])

theorem loop_next (found : r.read raw = some (x, rest)) (out : List A) :
    r.loop.run (out, raw) = r.loop.run (out ++ [x], rest) :=
  Loop.run_next (by simp [loop, found])

theorem loop_out (out : List A) (raw : List B) : r.loop.run (out, raw) = out ++ r.all raw := by
  induction size : raw.length using Nat.strongRecOn generalizing out raw with
  | ind n ih =>
    cases found : r.read raw with
    | none => rw [all, loop_end found, loop_end found, append_nil]
    | some first =>
      obtain ⟨x, rest⟩ := first
      have shorter := size ▸ r.shrinks raw x rest found
      rw [all, loop_next found, loop_next found, ih _ shorter _ rest rfl, ih _ shorter _ rest rfl, nil_append,
        append_assoc]

theorem all_end (none : r.read raw = none) : r.all raw = [] := loop_end none []

theorem all_next (found : r.read raw = some (x, rest)) : r.all raw = x :: r.all rest := by
  rw [all, loop_next found, loop_out]
  rfl

/-- The reader that stops at the first record that is not `ok`. -/
def only (r : Reader B A) (ok : A → Bool) : Reader B A where
  read := fun raw => (r.read raw).filter (fun found => ok found.1)
  shrinks := by
    intro raw x rest found
    exact r.shrinks raw x rest (Option.filter_eq_some_iff.mp found).1

theorem loop_only (ok : A → Bool) (out : List A) (raw : List B) :
    ∃ more, r.loop.run (out, raw) = out ++ more ∧ (r.only ok).loop.run (out, raw) = out ++ more.takeWhile ok := by
  induction state : (out, raw) using r.loop.induct generalizing out raw with
  | round s ih =>
    subst state
    cases found : r.read raw with
    | none =>
      have stops : (r.only ok).read raw = none := by simp [only, found]
      exact ⟨[], by simp [loop_end found], by simp [loop_end stops]⟩
    | some first =>
      obtain ⟨x, rest⟩ := first
      have next : r.loop.body (out, raw) = .inl (out ++ [x], rest) := by simp [loop, found]
      obtain ⟨more, whole, front⟩ := ih _ next (out ++ [x]) rest rfl
      refine ⟨x :: more, by rw [loop_next found, whole]; simp, ?_⟩
      cases keep : ok x with
      | true =>
        have goes : (r.only ok).read raw = some (x, rest) := by simp [only, found, keep]
        rw [loop_next goes, front, takeWhile_cons_of_pos keep]
        simp
      | false =>
        have stops : (r.only ok).read raw = none := by simp [only, found, keep]
        rw [loop_end stops, takeWhile_cons_of_neg (by simp [keep]), append_nil]

theorem all_only (r : Reader B A) (ok : A → Bool) (raw : List B) : (r.only ok).all raw = (r.all raw).takeWhile ok := by
  obtain ⟨more, whole, front⟩ := loop_only (r := r) ok [] raw
  rw [all, all, whole, front, nil_append, nil_append]

end Reader

end Probectl
