import Mathlib

/-! Loops that end. A body takes the state of the loop to the next state or
leaves the loop with a result; every further round makes the state smaller. -/
namespace Probectl

structure Loop (S : Type u) (R : Type v) where
  body : S → S ⊕ R
  size : S → Nat
  shrinks : ∀ s t, body s = .inl t → size t < size s

namespace Loop

variable {S : Type u} {R : Type v}

def rounds (body : S → S ⊕ R) : Nat → S → Option R
  | 0, _ => none
  | n + 1, s =>
    match body s with
    | .inl t => rounds body n t
    | .inr r => some r

variable {s : S} {n : Nat}

variable (l : Loop S R)

theorem rounds_isSome (enough : l.size s < n) : (rounds l.body n s).isSome := by
  induction n generalizing s with
  | zero => cases enough
  | succ n ih =>
    unfold rounds
    split
    · rename_i t next
      have smaller := l.shrinks s t next
      exact ih (by omega)
    · rfl

def run (l : Loop S R) (s : S) : R := (rounds l.body (l.size s + 1) s).get (l.rounds_isSome (Nat.lt_succ_self _))

/-- More rounds than the state is large change nothing. -/
theorem rounds_eq (enough : l.size s < n) : rounds l.body n s = some (l.run s) := by
  have fewer : ∀ {k n : Nat} {s : S} {r : R}, k ≤ n → rounds l.body k s = some r → rounds l.body n s = some r := by
    intro k
    induction k with
    | zero => intro _ _ _ _ none; cases none
    | succ k ih =>
      rintro (_ | n) s r le some
      · cases le
      unfold rounds at some ⊢
      split at some
      · exact ih (Nat.le_of_succ_le_succ le) some
      · exact some
  exact fewer enough (Option.some_get _).symm

theorem run_next {l : Loop S R} (next : l.body s = .inl t) : l.run s = l.run t := by
  have step : rounds l.body (l.size s + 1) s = rounds l.body (l.size s) t := by
    rw [rounds, next]
  rw [l.rounds_eq (Nat.lt_succ_self _), l.rounds_eq (l.shrinks s t next)] at step
  exact Option.some.inj step

theorem run_exit {l : Loop S R} (exit : l.body s = .inr r) : l.run s = r := by
  have step : rounds l.body (l.size s + 1) s = some r := by
    rw [rounds, exit]
  rw [l.rounds_eq (Nat.lt_succ_self _)] at step
  exact Option.some.inj step

/-- Induction over the rounds that are still to come. -/
theorem induct {motive : S → Prop} (round : ∀ s, (∀ t, l.body s = .inl t → motive t) → motive s) (s : S) :
    motive s := by
  induction size : l.size s using Nat.strongRecOn generalizing s with
  | ind n ih =>
    apply round
    intro t next
    exact ih (l.size t) (size ▸ l.shrinks s t next) t rfl

/-- The rule of a loop invariant. -/
theorem run_invariant (inv : S → Prop) (post : R → Prop)
    (keeps : ∀ s t, inv s → l.body s = .inl t → inv t) (leaves : ∀ s r, inv s → l.body s = .inr r → post r)
    (start : inv s) : post (l.run s) := by
  induction s using l.induct with
  | round s ih =>
    cases body : l.body s with
    | inl t => exact run_next body ▸ ih t body (keeps s t start body)
    | inr r => exact run_exit body ▸ leaves s r start body

end Loop

end Probectl
