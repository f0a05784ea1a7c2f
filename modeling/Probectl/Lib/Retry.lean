import Mathlib
/-! A call that is repeated a bounded number of times. -/
namespace Probectl.Retry

variable {ε : Type}

/-- Attempt `n` with `left` retries behind it. The loop ends with an answer that
is no error, with the last attempt, and with an error that `stop` does not let
repeat; it returns the number of that attempt and its answer. -/
def loop (answer : Nat → Option ε) (stop : Nat → ε → Bool) : (left n : Nat) → Nat × Option ε
  | 0, n => (n, answer n)
  | left + 1, n =>
    match answer n with
    | none => (n, none)
    | some e => if stop n e then (n, some e) else loop answer stop left (n + 1)

theorem loop_answer (answer : Nat → Option ε) (stop : Nat → ε → Bool) (left n : Nat) :
    (loop answer stop left n).2 = answer (loop answer stop left n).1 := by
  induction left generalizing n with
  | zero => rfl
  | succ left ih =>
    unfold loop
    cases answered : answer n with
    | none => exact answered.symm
    | some e =>
      dsimp only
      split
      · exact answered.symm
      · exact ih (n + 1)

end Probectl.Retry
