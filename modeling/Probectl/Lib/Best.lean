import Mathlib

/-! A table that keeps the best value it was shown for each key. -/
namespace Probectl.Best

open List Function

section

variable {K V : Type} [DecidableEq K]

def improve (better : V → V → Bool) (m : K → Option V) (k : K) (v : V) : K → Option V :=
  match m k with
  | none => update m k (some v)
  | some cur => if better v cur then update m k (some v) else m

def collect (better : V → V → Bool) (m : K → Option V) (entries : List (K × V)) : K → Option V :=
  entries.foldl (fun m e => improve better m e.1 e.2) m

end

variable {K V : Type}

/-- The table holds one of the entries of each key, and none is better. -/
structure IsBest (better : V → V → Bool) (m : K → Option V) (entries : List (K × V)) : Prop where
  taken : ∀ k v, m k = some v → (k, v) ∈ entries
  best : ∀ k v, (k, v) ∈ entries → ∃ b, m k = some b ∧ better v b = false

structure Strict (better : V → V → Bool) : Prop where
  irrefl : ∀ v, better v v = false
  trans : ∀ u v w, better u v = true → better v w = true → better u w = true

variable {better : V → V → Bool} {m : K → Option V} {entries : List (K × V)}

theorem isBest_empty : IsBest better (fun _ : K => none) [] := ⟨nofun, nofun⟩

variable [DecidableEq K]

theorem improve_other (v : V) (other : j ≠ k) : improve better m k v j = m j := by
  unfold improve
  cases m k with
  | none => exact update_of_ne other _ _
  | some cur =>
    dsimp only
    split
    · exact update_of_ne other _ _
    · rfl

theorem improve_self (strict : Strict better) (k : K) (v : V) :
    ∃ w, improve better m k v k = some w ∧ (w = v ∨ m k = some w) ∧ better v w = false ∧
      ∀ cur, m k = some cur → w = cur ∨ better w cur = true := by
  unfold improve
  cases held : m k with
  | none => exact ⟨v, update_self k _ _, .inl rfl, strict.irrefl v, nofun⟩
  | some cur =>
    dsimp only
    split
    · rename_i improved
      refine ⟨v, update_self k _ _, .inl rfl, strict.irrefl v, ?_⟩
      rintro _ ⟨⟩
      exact .inr improved
    · rename_i kept
      refine ⟨cur, held, .inr rfl, by simpa using kept, ?_⟩
      rintro _ ⟨⟩
      exact .inl rfl

theorem IsBest.improve (strict : Strict better) (is : IsBest better m entries) (k : K) (v : V) :
    IsBest better (improve better m k v) (entries ++ [(k, v)]) := by
  obtain ⟨w, after, origin, noWorse, improves⟩ := improve_self strict k v
  constructor
  · intro j u held
    by_cases same : j = k
    · subst same
      cases held.symm.trans after
      rcases origin with rfl | before
      · exact mem_append_right _ mem_cons_self
      · exact mem_append_left _ (is.taken j _ before)
    · rw [improve_other v same] at held
      exact mem_append_left _ (is.taken j u held)
  · intro j u mem
    by_cases same : j = k
    · subst same
      refine ⟨w, after, ?_⟩
      rcases mem_append.mp mem with old | new
      · obtain ⟨cur, before, worse⟩ := is.best j u old
        rcases improves cur before with rfl | improved
        · exact worse
        -- otherwise `u` would be better than the value that `w` replaces
        · cases again : better u w with
          | false => rfl
          | true => exact absurd (strict.trans u w cur again improved) (by simp [worse])
      · cases mem_singleton.mp new
        exact noWorse
    · rw [improve_other v same]
      rcases mem_append.mp mem with old | new
      · exact is.best j u old
      · cases mem_singleton.mp new
        exact absurd rfl same

theorem IsBest.collect (strict : Strict better) (is : IsBest better m entries) (more : List (K × V)) :
    IsBest better (collect better m more) (entries ++ more) := by
  induction more generalizing m entries with
  | nil =>
    rw [append_nil]
    exact is
  | cons e rest ih =>
    have next := ih (is.improve strict e.1 e.2)
    rwa [append_assoc, singleton_append] at next

end Probectl.Best
