import Mathlib

/-! A population of numbered members, kept as a list: what replacing one member
does to a total over all of them and to a look-up by number. -/
namespace Probectl.Population

open List Nat

variable {α : Type u}

def total (weight : α → Nat) (l : List α) : Nat := (l.map weight).sum

variable (weight : α → Nat) (b : α) (keep : α → Bool)

@[simp] theorem total_nil : total weight [] = 0 := rfl

@[simp] theorem total_append_singleton (l : List α) (a : α) :
    total weight (l ++ [a]) = total weight l + weight a := by
  simp [total]

variable {l : List α} {i : Nat} {a : α}

theorem total_eraseIdx (at_i : l[i]? = some a) : total weight (l.eraseIdx i) + weight a = total weight l := by
  obtain ⟨bound, rfl⟩ := List.getElem?_eq_some_iff.mp at_i
  rw [total, total, ← ((getElem_cons_eraseIdx_perm bound).map weight).sum_eq, map_cons, sum_cons, add_comm]

theorem total_set (at_i : l[i]? = some a) : total weight (l.set i b) + weight a = total weight l + weight b := by
  have bound := (List.getElem?_eq_some_iff.mp at_i).1
  have placed : total weight (l.set i b) = weight b + total weight (l.eraseIdx i) :=
    ((set_perm_cons_eraseIdx bound b).map weight).sum_eq
  rw [← total_eraseIdx weight at_i]
  omega

theorem le_total (mem : a ∈ l) : weight a ≤ total weight l := le_sum_of_mem (mem_map_of_mem mem)

theorem total_eq_zero (l : List α) : total weight l = 0 ↔ ∀ a ∈ l, weight a = 0 := by
  rw [total, sum_eq_zero_iff, forall_mem_map]

theorem total_congr {weight other : α → Nat} (same : ∀ a ∈ l, weight a = other a) :
    total weight l = total other l := by
  rw [total, total, map_congr_left same]

theorem total_add (f g : α → Nat) (l : List α) : total (fun a => f a + g a) l = total f l + total g l := sum_map_add

theorem getD_set (at_i : l[i]? = some a) (j : Nat) (d : α) :
    (l.set i b).getD j d = if j = i then b else l.getD j d := by
  have bound : i < l.length := (List.getElem?_eq_some_iff.mp at_i).1
  by_cases same : j = i
  · subst same
    simp [bound]
  · simp [same, getElem?_set_ne (Ne.symm same)]

theorem getD_at (at_i : l[i]? = some a) (d : α) : l.getD i d = a := by
  simp [at_i]

theorem getD_set_same (f : α → β) (b : α) (at_i : l[i]? = some a)
    (same : f b = f a) (j : Nat) (d : α) : f ((l.set i b).getD j d) = f (l.getD j d) := by
  rw [getD_set b at_i]
  by_cases here : j = i
  · rw [if_pos here, here, getD_at at_i, same]
  · rw [if_neg here]

theorem forall_set {good : α → Prop} (all : ∀ a ∈ l, good a) (i : Nat) {b : α} (new : good b) :
    ∀ a ∈ l.set i b, good a := by
  intro a mem
  rcases mem_or_eq_of_mem_set mem with old | rfl
  · exact all a old
  · exact new

theorem getD_append_singleton (l : List α) (a : α) (j : Nat) (d : α) :
    (l ++ [a]).getD j d = if j = l.length then a else l.getD j d := by
  rcases lt_trichotomy j l.length with before | rfl | behind
  · simp [getElem?_append_left before, Nat.ne_of_lt before]
  · simp
  · have short : (l ++ [a]).length ≤ j := by simp; omega
    simp [getElem?_eq_none short, getElem?_eq_none (le_of_lt behind),
      ne_of_gt behind]

theorem total_filter (l : List α) :
    total weight (l.filter keep) = total (fun a => if keep a then weight a else 0) l := by
  induction l with
  | nil => rfl
  | cons x rest ih =>
    simp only [total] at ih
    cases kept : keep x <;> simp [total, kept, ih]

theorem range_getD (l : List α) (d : α) : (range l.length).map (fun i => l.getD i d) = l := by
  apply ext_getElem
  · simp
  · intro i _ bound
    simp [getElem?_eq_getElem bound]

theorem total_numbers
    (nodup : ids.Nodup) (named : ∀ i, i ∈ ids ↔ keep (l.getD i d) = true) (void : keep d = false) :
    total (fun i => weight (l.getD i d)) ids = total (fun a => if keep a then weight a else 0) l := by
  have perm : ids.Perm ((range l.length).filter fun i => keep (l.getD i d)) := by
    refine (perm_ext_iff_of_nodup nodup (nodup_range.filter _)).mpr fun i => ?_
    rw [named, mem_filter, mem_range]
    refine ⟨fun kept => ⟨?_, kept⟩, fun both => both.2⟩
    by_contra outside
    simp [getElem?_eq_none (Nat.le_of_not_lt outside), void] at kept
  calc total (fun i => weight (l.getD i d)) ids
      = total (fun i => weight (l.getD i d)) ((range l.length).filter fun i => keep (l.getD i d)) :=
        (perm.map _).sum_eq
    _ = total weight (((range l.length).map fun i => l.getD i d).filter keep) := by
        simp only [total, filter_map, map_map, Function.comp_def]
    _ = total (fun a => if keep a then weight a else 0) l := by rw [range_getD, total_filter]

end Probectl.Population
