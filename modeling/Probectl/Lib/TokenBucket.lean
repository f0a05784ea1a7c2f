import Mathlib

/-! A token bucket: a balance that grows at a fixed rate up to a capacity. The
balance may be negative, and may stand above the capacity until the next refill. -/
namespace Probectl.TokenBucket

variable {K : Type u} [Field K] [LinearOrder K] [IsStrictOrderedRing K]

def refill (capacity rate tokens d : K) : K := min capacity (tokens + rate * d)

variable {capacity rate tokens d : K}

theorem refill_refill (nonneg : 0 ≤ rate) (later : 0 ≤ e) :
    refill capacity rate (refill capacity rate tokens d) e = refill capacity rate tokens (d + e) := by
  have grows : 0 ≤ rate * e := mul_nonneg nonneg later
  unfold refill
  rcases le_total capacity (tokens + rate * d) with full | short
  · have still : capacity ≤ tokens + rate * (d + e) := by
      linarith
    rw [min_eq_left full, min_eq_left still, min_eq_left (by linarith)]
  · rw [min_eq_right short, mul_add, add_assoc]

theorem refill_full (enough : capacity - tokens ≤ rate * d) : refill capacity rate tokens d = capacity :=
  min_eq_left (by linarith)

theorem gap_refill (nonneg : 0 ≤ bound) (grows : 0 ≤ rate * d)
    (gap : capacity - tokens ≤ bound) : capacity - refill capacity rate tokens d ≤ bound := by
  unfold refill
  rcases le_total capacity (tokens + rate * d) with full | short
  · rw [min_eq_left full, sub_self]
    exact nonneg
  · rw [min_eq_right short]
    linarith

end Probectl.TokenBucket
