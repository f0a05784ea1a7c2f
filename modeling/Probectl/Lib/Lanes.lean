import Mathlib

/-! Logs of numbered messages in lanes. A lane is ordered if its messages carry
1, 2, 3 and so on, and if only closing messages follow a closing one. -/
namespace Probectl.Lanes

open List

variable {M : Type u} {L : Type v} [DecidableEq L] (lane : M → L) (number : M → Nat) (closes : M → Bool)

def of (log : List M) (l : L) : List M := log.filter (fun m => lane m = l)

structure Ordered (log : List M) : Prop where
  numbered : ∀ l, (of lane log l).map number = range' 1 (of lane log l).length
  closed : ∀ l, (of lane log l).Pairwise (fun earlier later => closes earlier = true → closes later = true)

variable {lane number closes}

variable (log : List M)

theorem of_snoc_same (m : M) : of lane (log ++ [m]) (lane m) = of lane log (lane m) ++ [m] := by
  simp [of]

variable {m : M} {l : L}

theorem length_snoc (mine : lane m = l) : (of lane (log ++ [m]) l).length = (of lane log l).length + 1 := by
  simp [of, mine]

theorem mem_snoc {log : List M} (mem : other ∈ of lane (log ++ [m]) l) :
    other ∈ of lane log l ∨ other = m := by
  simp only [of, mem_filter, mem_append, mem_singleton] at mem ⊢
  tauto

theorem of_snoc_other (other : lane m ≠ l) : of lane (log ++ [m]) l = of lane log l := by
  simp [of, other]

theorem ordered_nil : Ordered lane number closes [] := ⟨fun _ => rfl, fun _ => .nil⟩

theorem Ordered.snoc {log : List M} (ordered : Ordered lane number closes log)
    (next : number m = (of lane log (lane m)).length + 1)
    (open_ : closes m = true ∨ ∀ earlier ∈ of lane log (lane m), closes earlier = false) :
    Ordered lane number closes (log ++ [m]) := by
  constructor
  · intro l
    by_cases mine : lane m = l
    · subst mine
      rw [of_snoc_same, map_append, ordered.numbered, length_append, map_singleton, length_singleton,
        range'_1_concat, next, Nat.add_comm]
    · rw [of_snoc_other log mine]
      exact ordered.numbered l
  · intro l
    by_cases mine : lane m = l
    · subst mine
      rw [of_snoc_same, pairwise_append]
      refine ⟨ordered.closed _, pairwise_singleton _ _, fun earlier mem later one => ?_⟩
      obtain rfl := mem_singleton.mp one
      intro closed
      rcases open_ with closes | none
      · exact closes
      · simp [none earlier mem] at closed
    · rw [of_snoc_other log mine]
      exact ordered.closed l

end Probectl.Lanes
