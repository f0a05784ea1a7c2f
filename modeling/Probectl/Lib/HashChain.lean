import Mathlib

/-! Hash chains: rows in sequence, each naming the hash of the row before it
and carrying a hash bound to its own content. A chain is committed to by its last
hash alone. -/
namespace Probectl.HashChain

open List

variable {R H : Type} {xs ys : List R}

theorem exists_of_forall₂ (related : Forall₂ S xs ys) (mem : y ∈ ys) :
    ∃ x ∈ xs, S x y := by
  induction related with
  | nil => cases mem
  | cons head tail ih =>
    rcases mem_cons.mp mem with rfl | later
    · exact ⟨_, mem_cons_self, head⟩
    · obtain ⟨x, inside, same⟩ := ih later
      exact ⟨x, mem_cons_of_mem _ inside, same⟩

/-- What a chain reads of its rows. `Bound` says that the stored hash is the hash
of the row's content. -/
structure Links (R H : Type) where
  seq : R → Int
  prev : R → H
  hash : R → H
  Bound : R → Prop

namespace Links

variable (l : Links R H)

def Chain : Int → H → List R → Prop
  | _, _, [] => True
  | want, start, r :: rest => l.seq r = want ∧ l.prev r = start ∧ l.Bound r ∧ Chain (want + 1) (l.hash r) rest

def tail : H → List R → H
  | start, [] => start
  | _, r :: rest => tail (l.hash r) rest

variable {l}

theorem tail_append (start : H) (xs ys : List R) : l.tail start (xs ++ ys) = l.tail (l.tail start xs) ys := by
  induction xs generalizing start with
  | nil => rfl
  | cons x xs ih => exact ih (l.hash x)

theorem tail_concat (start : H) (xs : List R) (r : R) : l.tail start (xs ++ [r]) = l.hash r := by
  rw [tail_append]
  rfl

variable {want : Int} {start : H}

theorem chain_append : l.Chain want start (xs ++ ys) ↔
      l.Chain want start xs ∧ l.Chain (want + xs.length) (l.tail start xs) ys := by
  induction xs generalizing want start with
  | nil => simp [Chain, tail]
  | cons x xs ih =>
    have shift : want + 1 + xs.length = want + ((x :: xs).length : Int) := by
      rw [length_cons]
      omega
    rw [cons_append]
    simp only [Chain, tail]
    rw [ih, shift]
    simp only [and_assoc]

theorem chain_concat : l.Chain want start (xs ++ [r]) ↔
      l.Chain want start xs ∧ l.seq r = want + xs.length ∧ l.prev r = l.tail start xs ∧ l.Bound r := by
  rw [chain_append]
  simp [Chain]

theorem chain_bound (chain : l.Chain want start xs) :
    ∀ r ∈ xs, l.Bound r ∧ want ≤ l.seq r ∧ l.seq r < want + xs.length := by
  induction xs generalizing want start with
  | nil =>
    intro r mem
    cases mem
  | cons x xs ih =>
    obtain ⟨seq, -, bound, rest⟩ := chain
    rw [forall_mem_cons, length_cons]
    refine ⟨⟨bound, by omega, by omega⟩, ?_⟩
    intro r mem
    obtain ⟨inner, above, below⟩ := ih rest r mem
    exact ⟨inner, by omega, by omega⟩

theorem chain_seq (chain : l.Chain want start xs) (inside : i < xs.length) :
    ∃ r ∈ xs, l.seq r = want + i := by
  induction xs generalizing want start i with
  | nil => cases inside
  | cons x xs ih =>
    obtain ⟨seq, -, -, rest⟩ := chain
    cases i with
    | zero => exact ⟨x, mem_cons_self, by rw [seq]; simp⟩
    | succ i =>
      obtain ⟨r, mem, here⟩ := ih rest (Nat.lt_of_succ_lt_succ inside)
      exact ⟨r, mem_cons_of_mem _ mem, by rw [here]; push_cast; omega⟩

theorem chain_seqs (chain : l.Chain want start xs) :
    xs.map l.seq = (range xs.length).map fun i => want + (i : Int) := by
  induction xs using reverseRecOn with
  | nil => rfl
  | append_singleton xs r ih =>
    obtain ⟨front, seq, -⟩ := chain_concat.mp chain
    simp [range_succ, ih front, seq]

/-- The last hash commits to the rows: of two chains that end together, the shorter
one is the back of the longer, row by row, and its start is what the longer one has
there. -/
theorem committed
    (commits : ∀ a b, l.Bound a → l.Bound b → l.hash a = l.hash b → l.prev a = l.prev b ∧ Same a b) (longer : want ≤ want')
    (chain : l.Chain want start xs) (chain' : l.Chain want' start' ys)
    (together : want + xs.length = want' + ys.length) (ends : l.tail start xs = l.tail start' ys) :
    ∃ front back, xs = front ++ back ∧ l.tail start front = start' ∧ Forall₂ Same back ys := by
  -- backwards along the shorter chain: equal hashes give equal rows and equal previous hashes
  induction ys using reverseRecOn generalizing xs with
  | nil => exact ⟨xs, [], by simp, ends, .nil⟩
  | append_singleton ys b ih =>
    rw [length_append, length_singleton] at together
    obtain rfl | ⟨xs, a, rfl⟩ := xs.eq_nil_or_concat'
    · rw [length_nil] at together
      omega
    rw [length_append, length_singleton] at together
    rw [tail_concat, tail_concat] at ends
    obtain ⟨chain, -, prev, bound⟩ := chain_concat.mp chain
    obtain ⟨chain', -, prev', bound'⟩ := chain_concat.mp chain'
    obtain ⟨prevs, same⟩ := commits a b bound bound' ends
    obtain ⟨front, back, rfl, start'', rows⟩ := ih chain chain' (by omega) (by rw [← prev, ← prev', prevs])
    exact ⟨front, back ++ [a], by simp, start'', rel_append rows (.cons same .nil)⟩

end Links

end Probectl.HashChain
