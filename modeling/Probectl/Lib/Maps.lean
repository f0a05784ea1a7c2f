import Mathlib

/-! Finite maps: their sizes, and loops over the entries of a map that the loop
itself changes. -/
namespace Probectl.Maps

open List

variable {K : Type u} {V : Type v} [DecidableEq K]

theorem kreplace_cons_eq (k : K) (v old : V) (rest : List (Sigma fun _ : K => V)) :
    kreplace k v (⟨k, old⟩ :: rest) = ⟨k, v⟩ :: rest :=
  lookmap_cons_some _ _ (if_pos rfl)

variable {k : K}

variable (v : V)

theorem kreplace_cons_ne (held : V) (rest : List (Sigma fun _ : K => V)) (other : k ≠ first) :
    kreplace k v (⟨first, held⟩ :: rest) = ⟨first, held⟩ :: kreplace k v rest :=
  lookmap_cons_none _ _ (if_neg other)

variable {s : AList fun _ : K => V}

theorem lookup_replace_ne (other : k' ≠ k) : (s.replace k v).lookup k' = s.lookup k' := by
  have entries (l : List (Sigma fun _ => V)) : (kreplace k v l).dlookup k' = l.dlookup k' := by
    induction l with
    | nil => rfl
    | cons entry rest ih =>
      obtain ⟨first, held⟩ := entry
      by_cases here : k = first
      · subst here
        rw [kreplace_cons_eq, dlookup_cons_ne _ _ other, dlookup_cons_ne _ _ other]
      rw [kreplace_cons_ne v held rest here]
      by_cases found : k' = first
      · subst found
        rw [dlookup_cons_eq, dlookup_cons_eq]
      · rw [dlookup_cons_ne _ _ found, dlookup_cons_ne _ _ found, ih]
  exact entries s.entries

theorem lookup_replace (held : s.lookup k = some old) : (s.replace k v).lookup k = some v := by
  have entries (l : List (Sigma fun _ => V)) (held : l.dlookup k = some old) : (kreplace k v l).dlookup k = some v := by
    induction l with
    | nil => cases held
    | cons entry rest ih =>
      obtain ⟨first, value⟩ := entry
      by_cases here : k = first
      · subst here
        rw [kreplace_cons_eq, dlookup_cons_eq]
      · rw [dlookup_cons_ne _ _ here] at held
        rw [kreplace_cons_ne v value rest here, dlookup_cons_ne _ _ here]
        exact ih held
  exact entries s.entries held

theorem lookup_of_entries {t : AList fun _ : K => V} {p : K → Prop} {ks ls : List K}
    (left : ∀ k, k ∈ ks ↔ p k ∧ s.lookup k ≠ none) (right : ∀ k, k ∈ ls ↔ p k ∧ t.lookup k ≠ none)
    (same : (ks.map fun k => (k, (s.lookup k).getD d)) = ls.map fun k => (k, (t.lookup k).getD d)) (here : p k) :
    s.lookup k = t.lookup k := by
  have keys : ks = ls := by simpa [Function.comp_def] using congrArg (map Prod.fst) same
  subst keys
  by_cases mem : k ∈ ks
  · obtain ⟨v, found⟩ := Option.ne_none_iff_exists'.mp ((left k).mp mem).2
    obtain ⟨v', found'⟩ := Option.ne_none_iff_exists'.mp ((right k).mp mem).2
    have values := map_inj_left.mp same k mem
    rw [found, found'] at values ⊢
    exact congrArg some (Prod.mk.inj values).2
  · rw [not_not.mp fun held => mem ((left k).mpr ⟨here, held⟩), not_not.mp fun held => mem ((right k).mpr ⟨here, held⟩)]

theorem keys_length_le {u : AList fun _ : K => V} (sub : ∀ k, u.lookup k ≠ none → s.lookup k ≠ none) :
    u.keys.length ≤ s.keys.length := by
  apply Subperm.length_le
  apply subperm_of_subset u.keys_nodup
  intro k mem
  by_contra missing
  exact sub k (fun none => AList.lookup_eq_none.mp none mem) (AList.lookup_eq_none.mpr missing)

theorem size_le {u : AList fun _ : K => V} (sub : ∀ k, u.lookup k ≠ none → s.lookup k ≠ none) :
    u.entries.length ≤ s.entries.length := by
  simpa [AList.keys, keys] using keys_length_le sub

theorem size_insert_le (s : AList fun _ : K => V) (k : K) (v : V) :
    (s.insert k v).entries.length ≤ s.entries.length + 1 := by
  exact Nat.succ_le_succ (kerase_sublist k s.entries).length_le

theorem size_insert_held (held : s.lookup k ≠ none) : (s.insert k v).entries.length ≤ s.entries.length := by
  apply size_le
  intro k' found
  by_cases same : k' = k
  · rwa [same]
  · rwa [AList.lookup_insert_ne same] at found

/-- A loop over the entries of a map in which each round changes no other entry:
every round finds its entry as it was at the start. -/
theorem foldl_entries (map : S → AList fun _ : K => V) (step : S → Sigma (fun _ : K => V) → S)
    (inv : S → Prop) (local_ : ∀ s entry k, k ≠ entry.1 → (map (step s entry)).lookup k = (map s).lookup k)
    (keeps : ∀ s entry, inv s → (map s).lookup entry.1 = some entry.2 → inv (step s entry)) {s : S} (start : inv s) :
    inv ((map s).entries.foldl step s) := by
  have rounds (entries : List (Sigma fun _ => V)) (nodup : entries.NodupKeys) s (here : inv s)
      (current : ∀ entry ∈ entries, (map s).lookup entry.1 = some entry.2) : inv (entries.foldl step s) := by
    induction entries generalizing s with
    | nil => exact here
    | cons entry rest ih =>
      rw [nodupKeys_cons] at nodup
      apply ih nodup.2 _ (keeps s entry here (current entry mem_cons_self))
      intro later mem
      have different : later.1 ≠ entry.1 := fun same => nodup.1 (same ▸ mem_keys_of_mem mem)
      rw [local_ s entry later.1 different]
      exact current later (mem_cons_of_mem entry mem)
  exact rounds (map s).entries (map s).nodupKeys s start fun entry mem => AList.mem_lookup_iff.mpr mem

end Probectl.Maps
