import Mathlib

/-! A loop that ranges over a list and appends what it keeps to the front of that
same list. -/
namespace Probectl.InPlace

open List Nat

variable {S : Type u} {A : Type v}

/-- `kept` of the `slots` have been appended so far. -/
structure Slots (S : Type u) (A : Type v) where
  state : S
  slots : List A
  kept : Nat

def round (step : S → A → S × Option A) (w : Slots S A) (i : Nat) : Slots S A :=
  match w.slots[i]? with
  | none => w
  | some x =>
    match step w.state x with
    | (s, none) => { w with state := s }
    | (s, some y) => ⟨s, w.slots.set w.kept y, w.kept + 1⟩

def run (step : S → A → S × Option A) (s : S) (xs : List A) : Slots S A :=
  (range xs.length).foldl (round step) ⟨s, xs, 0⟩

def Slots.result (w : Slots S A) : S × List A :=
  (w.state, w.slots.take w.kept)

/-- The same round with a list of its own for what it keeps. -/
def pass (step : S → A → S × Option A) (out : S × List A) (x : A) : S × List A :=
  ((step out.1 x).1, out.2 ++ (step out.1 x).2.toList)

theorem round_keeps_unread
    (front : w.slots.drop i = x :: unread) (behind : w.kept ≤ i) :
    (round step w i).slots.drop (i + 1) = unread ∧ (round step w i).kept ≤ i + 1 ∧
      (round step w i).result = pass step w.result x := by
  have here : w.slots[i]? = some x := by
    have first := congrArg head? front
    rwa [head?_drop] at first
  have rest : w.slots.drop (i + 1) = unread := by
    rw [← tail_drop, front, tail_cons]
  have inside : w.kept < w.slots.length :=
    Nat.lt_of_le_of_lt behind (List.getElem?_eq_some_iff.mp here).1
  obtain ⟨next, kept, taken⟩ : ∃ next kept, step w.state x = (next, kept) := ⟨_, _, rfl⟩
  simp only [round, here, taken]
  cases kept with
  | none =>
    refine ⟨rest, le_succ_of_le behind, ?_⟩
    simp only [Slots.result, pass, taken, Option.toList_none, append_nil]
  | some y =>
    -- the slot written is behind the one just read
    have unchanged : (w.slots.set w.kept y).drop (i + 1) = w.slots.drop (i + 1) :=
      drop_set_of_lt (lt_succ_of_le behind)
    have written : (w.slots.set w.kept y).take (w.kept + 1) = w.slots.take w.kept ++ [y] := by
      rw [take_add_one, take_set_of_le le.refl, getElem?_set_self inside]
      rfl
    refine ⟨unchanged.trans rest, succ_le_succ behind, ?_⟩
    simp only [Slots.result, pass, taken, Option.toList_some, written]

variable (step : S → A → S × Option A)

theorem rounds_result (unread : List A) (w : Slots S A) (i : Nat)
    (front : w.slots.drop i = unread) (behind : w.kept ≤ i) :
    ((range' i unread.length).foldl (round step) w).result = unread.foldl (pass step) w.result := by
  induction unread generalizing w i with
  | nil => rfl
  | cons x unread ih =>
    obtain ⟨rest, within, result⟩ := round_keeps_unread front behind
    rw [length_cons, range'_succ, foldl_cons, foldl_cons, ← result]
    exact ih (round step w i) (i + 1) rest within

theorem run_result (s : S) (xs : List A) : (run step s xs).result = xs.foldl (pass step) (s, []) := by
  rw [run, range_eq_range']
  exact rounds_result step xs ⟨s, xs, 0⟩ 0 rfl (Nat.le_refl 0)

end Probectl.InPlace
