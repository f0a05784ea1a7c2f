import Mathlib

/-! The latest value that a log writes to each key. -/
namespace Probectl.Latest

variable {A : Type u} {K : Type v} {V : Type w} [DecidableEq K] (write : A → Option (K × V))

def put (k : K) (last : Option V) (x : A) : Option V :=
  match write x with
  | some (k', v) => if k' = k then some v else last
  | none => last

def latest (log : List A) (k : K) : Option V := log.foldl (put write k) none

theorem latest_snoc (log : List A) (x : A) (k : K) : latest write (log ++ [x]) k = put write k (latest write log k) x := by
  rw [latest, List.foldl_append]
  rfl

variable {write} {x : A}

theorem latest_silent (silent : write x = none) (log : List A) (k : K) :
    latest write (log ++ [x]) k = latest write log k := by
  rw [latest_snoc, put, silent]

theorem latest_written (written : write x = some (k, v)) (log : List A) :
    latest write (log ++ [x]) k = some v := by
  rw [latest_snoc, put, written]
  exact if_pos rfl

theorem latest_other (written : write x = some (k', v)) (other : k' ≠ k) (log : List A) :
    latest write (log ++ [x]) k = latest write log k := by
  rw [latest_snoc, put, written]
  exact if_neg other

end Probectl.Latest
