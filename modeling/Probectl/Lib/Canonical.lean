import Probectl.Lib.Padded

/-! The order of texts is linear, so that a sorted list depends on what it holds and not on
the order it was given in. -/
namespace Probectl.Strings

def NotAfter (a b : Bytes) : Prop := less b a = false

instance : DecidableRel NotAfter := fun a b => inferInstanceAs (Decidable (less b a = false))

variable {x y : Bytes}

theorem less_cons : less (a :: x) (b :: y) = true ↔ a < b ∨ a = b ∧ less x y = true := by
  simp [less]

theorem less_total (before : less x y = false) (after : less y x = false) : x = y := by
  induction x generalizing y with
  | nil =>
    cases y with
    | nil => rfl
    | cons b y => cases before
  | cons a x ih =>
    cases y with
    | nil => cases after
    | cons b y =>
      simp only [less, Bool.or_eq_false_iff, decide_eq_false_iff_not, Bool.and_eq_false_iff] at before after
      obtain rfl : a = b := UInt8.le_antisymm (UInt8.not_lt.mp after.1) (UInt8.not_lt.mp before.1)
      rw [ih (before.2.resolve_left (by simp)) (after.2.resolve_left (by simp))]

theorem less_trans (first : less x y = true) (second : less y z = true) : less x z = true := by
  induction x generalizing y z with
  | nil =>
    cases z with
    | nil => cases y <;> cases second
    | cons c z => rfl
  | cons a x ih =>
    cases y with
    | nil => cases first
    | cons b y =>
      cases z with
      | nil => cases second
      | cons c z =>
        rw [less_cons] at first second ⊢
        rcases first with lt | ⟨rfl, later⟩
        · rcases second with lt' | ⟨rfl, -⟩
          · exact .inl (UInt8.lt_trans lt lt')
          · exact .inl lt
        · rcases second with lt' | ⟨rfl, later'⟩
          · exact .inl lt'
          · exact .inr ⟨rfl, ih later later'⟩

instance : Std.Antisymm NotAfter := ⟨fun _ _ below above => less_total above below⟩

instance : Std.Total NotAfter := ⟨fun x y => by
  cases before : less y x with
  | false => exact .inl before
  | true => exact .inr (Text.less_asymm before)⟩

instance : IsTrans Bytes NotAfter := ⟨fun x y z first second => by
  by_contra later
  have after : less z x = true := by simpa [NotAfter] using later
  -- what is not before `y` and not equal to it is behind it
  cases here : less x y with
  | true =>
    have back := less_trans after here
    rw [second] at back
    cases back
  | false =>
    rw [less_total here first, second] at after
    cases after⟩

theorem sort_sorted (texts : List Bytes) : (sort texts).Pairwise NotAfter :=
  List.pairwise_insertionSort NotAfter texts

theorem sort_perm (perm : texts.Perm others) : sort texts = sort others := by
  apply List.Perm.eq_of_pairwise' (sort_sorted texts) (sort_sorted others)
  exact ((List.perm_insertionSort _ texts).trans perm).trans (List.perm_insertionSort _ others).symm

end Probectl.Strings
