import Probectl.Lib.Loop
import Probectl.Lib.Octets

/-! Programs over byte strings that stop where they leave the bounds of one, and loops
that stop where they run out of fuel. -/
namespace Probectl

open Octets

inductive Stop where
  | outOfRange | outOfFuel
  deriving DecidableEq

abbrev Checked := Except Stop

namespace Checked

/-- `b[lo:hi]`, never beyond the length. -/
def cut (b : Bytes) (lo hi : Nat) : Checked Bytes :=
  if lo ≤ hi ∧ hi ≤ b.length then .ok (slice b lo hi) else .error .outOfRange

def octet (b : Bytes) (i : Nat) : Checked Nat :=
  match b[i]? with
  | some x => .ok x.toNat
  | none => .error .outOfRange

def uint (width : Nat) (b : Bytes) : Checked Nat := if width ≤ b.length then .ok (big (b.take width)) else .error .outOfRange

def uintAt (width : Nat) (b : Bytes) (lo : Nat) : Checked Nat := cut b lo (lo + width) >>= uint width

theorem step {x : Checked α} (ran : x = .ok a) : (x >>= f) = f a := by
  rw [ran]
  rfl

/-- The program ends within the bounds. -/
def Returns {α : Type} (x : Checked α) : Prop := ∃ a, x = .ok a

namespace Returns

variable {α β : Type}

theorem pure (a : α) : Returns (Pure.pure a) := ⟨a, rfl⟩

theorem bind (first : Returns x) (rest : ∀ a, Returns (f a)) : Returns (x >>= f) := by
  obtain ⟨a, ran⟩ := first
  rw [step ran]
  exact rest a

theorem map (ran : Returns x) (f : α → β) : Returns (f <$> x) := by
  obtain ⟨a, rfl⟩ := ran
  exact ⟨f a, rfl⟩

end Returns

variable {b : Bytes} {lo : Nat}

theorem cut_ok (le : lo ≤ hi) (bound : hi ≤ b.length) : cut b lo hi = .ok (slice b lo hi) :=
  if_pos ⟨le, bound⟩

theorem returns_cut (le : lo ≤ hi) (bound : hi ≤ b.length) : Returns (cut b lo hi) := ⟨_, cut_ok le bound⟩

theorem returns_octet (bound : i < b.length) : Returns (octet b i) := by
  unfold octet
  rw [List.getElem?_eq_getElem bound]
  exact ⟨_, rfl⟩

variable {width : Nat}

theorem uint_ok (bound : width ≤ b.length) : uint width b = .ok (big (b.take width)) := if_pos bound

theorem uintAt_ok (bound : lo + width ≤ b.length) : uintAt width b lo = .ok (big (slice b lo (lo + width))) := by
  have whole : (slice b lo (lo + width)).length = width := by
    rw [slice_length]
    omega
  unfold uintAt
  rw [cut_ok (Nat.le_add_right _ _) bound]
  change uint width _ = _
  rw [uint_ok (Nat.le_of_eq whole.symm), List.take_of_length_le (Nat.le_of_eq whole)]

theorem returns_uintAt (bound : lo + width ≤ b.length) : Returns (uintAt width b lo) := ⟨_, uintAt_ok bound⟩

variable {S : Type u} {R : Type v}

def forever (body : S → Checked (S ⊕ R)) : Nat → S → Checked R
  | 0, _ => .error .outOfFuel
  | fuel + 1, s =>
    match body s with
    | .ok (.inl t) => forever body fuel t
    | .ok (.inr r) => .ok r
    | .error stop => .error stop

variable {body : S → Checked (S ⊕ R)} {s : S}

theorem forever_next (next : body s = .ok (.inl t)) (fuel : Nat) :
    forever body (fuel + 1) s = forever body fuel t := by
  rw [forever, next]

theorem forever_exit (exit : body s = .ok (.inr r)) (fuel : Nat) : forever body (fuel + 1) s = .ok r := by
  rw [forever, exit]

/-- A loop that does what another one does, round by round, ends where that one ends. -/
theorem forever_simulates (l : Loop A B) (rel : S → A → Prop)
    (post : R → B → Prop) (round : ∀ s a, rel s a → ∃ x, body s = .ok x ∧ Sum.LiftRel rel post x (l.body a)) (start : rel s a) (enough : l.size a < fuel) :
    ∃ r, forever body fuel s = .ok r ∧ post r (l.run a) := by
  induction fuel generalizing s a with
  | zero => cases enough
  | succ fuel ih =>
    obtain ⟨x, here, lifted⟩ := round s a start
    generalize there : l.body a = y at lifted
    cases lifted with
    | inl related =>
      have smaller := l.shrinks a _ there
      rw [forever_next here, Loop.run_next there]
      exact ih related (by omega)
    | inr ends =>
      rw [forever_exit here, Loop.run_exit there]
      exact ⟨_, rfl, ends⟩

end Checked

end Probectl
