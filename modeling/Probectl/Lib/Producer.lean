import Probectl.Lib.Population

/-! An asynchronous producer: a record handed over is pending until its promise
is called, once, with success or with an error. -/
namespace Probectl.Producer

open Population

variable {ρ : Type u} {σ : Type v}

structure Client (ρ : Type u) where
  pending : List ρ
  acked : List ρ
  failed : List ρ
  deriving DecidableEq, Repr

def tally (q : ρ → Bool) (l : List ρ) : Nat := total (fun r => (q r).toNat) l

theorem tally_append_singleton (q : ρ → Bool) (l : List ρ) (r : ρ) :
    tally q (l ++ [r]) = tally q l + (q r).toNat := total_append_singleton _ l r

theorem tally_pos : 0 < tally q l ↔ ∃ r ∈ l, q r = true := by
  constructor
  · intro positive
    by_contra none
    have zero : tally q l = 0 := by
      refine (total_eq_zero _ l).mpr fun r mem => ?_
      cases kind : q r with
      | false => rfl
      | true => exact absurd ⟨r, mem, kind⟩ none
    omega
  · rintro ⟨r, mem, kind⟩
    have below := le_total (fun r => (q r).toNat) mem
    simp only [kind] at below
    exact below

namespace Client

def submit (c : Client ρ) (r : ρ) : Client ρ := { c with pending := c.pending ++ [r] }

def refuse (c : Client ρ) (r : ρ) : Client ρ := { c with failed := c.failed ++ [r] }

def complete (c : Client ρ) (i : Nat) (ok : Bool) : Option (Client ρ) :=
  (c.pending[i]?).map fun r =>
    { pending := c.pending.eraseIdx i
      acked := if ok then c.acked ++ [r] else c.acked
      failed := if ok then c.failed else c.failed ++ [r] }

def map (f : ρ → σ) (c : Client ρ) : Client σ := ⟨c.pending.map f, c.acked.map f, c.failed.map f⟩

def count (c : Client ρ) (q : ρ → Bool) : Nat := tally q c.pending + tally q c.acked + tally q c.failed

variable (c : Client ρ) (r : ρ)

theorem count_submit (q : ρ → Bool) : (c.submit r).count q = c.count q + (q r).toNat := by
  simp only [count, submit, tally_append_singleton]
  omega

theorem count_refuse (q : ρ → Bool) : (c.refuse r).count q = c.count q + (q r).toNat := by
  simp only [count, refuse, tally_append_singleton]
  omega

theorem complete_count {c d : Client ρ} (done : c.complete i ok = some d)
    (q : ρ → Bool) : d.count q = c.count q ∧ tally q d.pending ≤ tally q c.pending := by
  obtain ⟨r, at_i, rfl⟩ := Option.map_eq_some_iff.mp done
  have moved : tally q (c.pending.eraseIdx i) + (q r).toNat = tally q c.pending := total_eraseIdx _ at_i
  cases ok with
  | true =>
    simp only [count, if_true, tally_append_singleton]
    omega
  | false =>
    simp only [count, Bool.false_eq_true, if_false, tally_append_singleton]
    omega

theorem count_map (f : ρ → σ) (c : Client ρ) (q : σ → Bool) (none : ∀ r, q (f r) = false) :
    (c.map f).count q = 0 := by
  have zero : ∀ l : List ρ, tally q (l.map f) = 0 := by
    intro l
    refine (total_eq_zero _ _).mpr fun r mem => ?_
    obtain ⟨s, _, rfl⟩ := List.mem_map.mp mem
    simp [none]
  simp only [count, map, zero]

theorem settled {c : Client ρ} (drained : tally q c.pending = 0) (sent : 0 < c.count q) :
    (∃ r ∈ c.acked, q r = true) ∨ ∃ r ∈ c.failed, q r = true := by
  rw [← tally_pos, ← tally_pos]
  simp only [count] at sent
  omega

end Client
end Probectl.Producer
