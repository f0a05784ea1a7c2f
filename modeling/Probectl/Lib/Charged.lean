import Mathlib

/-! Maps whose entries are charged for: what their entries cost together, and how
that changes with an entry. -/
namespace Probectl.Charged

open List AList

variable {K : Type u} {V : Type v} [DecidableEq K] (charge : V → Int)

def cost (l : List (Sigma fun _ : K => V)) : Int := (l.map fun entry => charge entry.2).sum

def total (s : AList fun _ : K => V) : Int := cost charge s.entries

variable {k : K} {v : V}

theorem cost_kerase (held : l.dlookup k = some v) :
    cost charge (l.kerase k) = cost charge l - charge v := by
  induction l with
  | nil => cases held
  | cons entry rest ih =>
    obtain ⟨k', v'⟩ := entry
    by_cases same : k = k'
    · subst same
      rw [dlookup_cons_eq] at held
      cases held
      simp [cost]
    · rw [dlookup_cons_ne _ _ same] at held
      have rest := ih held
      rw [kerase_cons_ne same]
      simp only [cost, map_cons, sum_cons] at rest ⊢
      omega

variable {s : AList fun _ : K => V}

theorem total_erase (held : s.lookup k = some v) : total charge (s.erase k) = total charge s - charge v :=
  cost_kerase charge held

theorem total_insert (s : AList fun _ : K => V) (k : K) (v : V) :
    total charge (s.insert k v) = total charge (s.erase k) + charge v := by
  simp [total, cost, erase, add_comm]

theorem total_insert_new (v : V) (new : s.lookup k = none) :
    total charge (s.insert k v) = total charge s + charge v := by
  rw [total, entries_insert_of_notMem (lookup_eq_none.mp new)]
  simp [total, cost, add_comm]

theorem charge_le_total (nonneg : ∀ v, 0 ≤ charge v) (held : s.lookup k = some v) : charge v ≤ total charge s := by
  have left : 0 ≤ total charge (s.erase k) := by
    apply sum_nonneg
    simp only [mem_map]
    rintro _ ⟨entry, -, rfl⟩
    exact nonneg _
  rw [total_erase charge held] at left
  omega

end Probectl.Charged
