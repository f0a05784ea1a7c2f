import Mathlib

/-! Breadth-first search from one node of a finite graph, given by the
successors of each node. The search keeps the node each one was found from. -/
namespace Probectl.Reach

open List

variable {α : Type}

def seen (parent : List (α × α)) : List α := parent.map Prod.fst

theorem seen_enter (parent : List (α × α)) (fresh : List α) (cur : α) :
    seen (parent ++ fresh.map fun n => (n, cur)) = seen parent ++ fresh := by
  simp [seen, Function.comp_def]

def Reaches (next : α → List α) : α → α → Prop := Relation.ReflTransGen fun a b => b ∈ next a

/-- Everything seen was reached, and what it leads to was seen unless it is
still queued. -/
structure Frontier (next : α → List α) (start : α) (parent : List (α × α)) (queue : List α) : Prop where
  nodup : (seen parent).Nodup
  begun : start ∈ seen parent
  reached : ∀ a ∈ seen parent, Reaches next start a
  queued : ∀ a ∈ queue, a ∈ seen parent
  expanded : ∀ a ∈ seen parent, a ∈ queue ∨ ∀ b ∈ next a, b ∈ seen parent

variable {next : α → List α} {start : α} {parent : List (α × α)} {queue : List α}

theorem Frontier.seen_iff (inv : Frontier next start parent []) (a : α) :
    a ∈ seen parent ↔ Reaches next start a := by
  constructor
  · exact inv.reached a
  intro reaches
  induction reaches with
  | refl => exact inv.begun
  | tail _ leads ih =>
    rcases inv.expanded _ ih with waiting | done
    · cases waiting
    · exact done _ leads

variable [DecidableEq α]

/-- The loop of the search: take the first node of the queue, enter its
successors that were not seen yet. -/
def search (next : α → List α) : (fuel : Nat) → (parent : List (α × α)) → (queue : List α) → List (α × α)
  | 0, parent, _ => parent
  | _ + 1, parent, [] => parent
  | fuel + 1, parent, cur :: queue =>
    let fresh := (next cur).filter (· ∉ seen parent)
    search next fuel (parent ++ fresh.map fun n => (n, cur)) (queue ++ fresh)

/-- The start is its own parent. -/
def parents (next : α → List α) (fuel : Nat) (start : α) : List (α × α) := search next fuel [(start, start)] [start]

theorem Frontier.step (distinct : ∀ a, (next a).Nodup) (inv : Frontier next start parent (cur :: queue)) :
    Frontier next start (parent ++ ((next cur).filter (· ∉ seen parent)).map fun n => (n, cur))
      (queue ++ (next cur).filter (· ∉ seen parent)) := by
  have found := inv.queued cur mem_cons_self
  have fresh : ∀ b, b ∈ (next cur).filter (· ∉ seen parent) ↔ b ∈ next cur ∧ b ∉ seen parent := by
    simp
  constructor
  · rw [seen_enter, nodup_append]
    refine ⟨inv.nodup, (distinct cur).filter _, ?_⟩
    rintro a old b new rfl
    exact ((fresh a).mp new).2 old
  · rw [seen_enter]
    exact mem_append_left _ inv.begun
  · intro a mem
    rw [seen_enter] at mem
    rcases mem_append.mp mem with old | new
    · exact inv.reached a old
    · exact (inv.reached cur found).tail ((fresh a).mp new).1
  · intro a mem
    rw [seen_enter]
    rcases mem_append.mp mem with old | new
    · exact mem_append_left _ (inv.queued a (mem_cons_of_mem cur old))
    · exact mem_append_right _ new
  · intro a mem
    rw [seen_enter] at mem
    simp only [seen_enter, mem_append]
    rcases mem_append.mp mem with old | new
    · rcases inv.expanded a old with waiting | done
      · rcases mem_cons.mp waiting with rfl | later
        · -- the node just taken: each successor was seen before or is fresh
          right
          intro b leads
          by_cases known : b ∈ seen parent
          · exact .inl known
          · exact .inr ((fresh b).mpr ⟨leads, known⟩)
        · exact .inl (.inl later)
      · exact .inr fun b leads => .inl (done b leads)
    · exact .inl (.inr new)

theorem Frontier.search (distinct : ∀ a, (next a).Nodup) {nodes : List α}
    (within : ∀ a, Reaches next start a → a ∈ nodes) (fuel : Nat) (inv : Frontier next start parent queue)
    (room : queue.length + nodes.length ≤ fuel + (seen parent).length) :
    Frontier next start (search next fuel parent queue) [] := by
  induction fuel generalizing parent queue with
  | zero =>
    have inside : (seen parent).length ≤ nodes.length := by
      apply (subperm_of_subset inv.nodup _).length_le
      intro a mem
      exact within a (inv.reached a mem)
    have drained : queue = [] := eq_nil_of_length_eq_zero (by omega)
    exact drained ▸ inv
  | succ fuel ih =>
    cases queue with
    | nil => exact inv
    | cons cur queue =>
      apply ih (inv.step distinct)
      rw [seen_enter]
      simp only [length_append, length_cons] at room ⊢
      omega

theorem parents_frontier (distinct : ∀ a, (next a).Nodup) {nodes : List α}
    (within : ∀ a b, b ∈ next a → b ∈ nodes) (room : nodes.length + 1 ≤ fuel) (start : α) :
    Frontier next start (parents next fuel start) [] := by
  have initial : Frontier next start [(start, start)] [start] :=
    ⟨nodup_singleton start, mem_singleton_self start,
      fun a mem => mem_singleton.mp mem ▸ .refl, fun a mem => mem, fun a mem => .inl mem⟩
  have bounded : ∀ a, Reaches next start a → a ∈ start :: nodes := by
    intro a reaches
    cases reaches with
    | refl => exact mem_cons_self
    | tail _ leads => exact mem_cons_of_mem start (within _ _ leads)
  apply initial.search distinct bounded
  simp only [length_cons, seen, map_cons, map_nil]
  omega

end Probectl.Reach
