import Probectl.Bus.MemoryEffect

/-! What `Flush` of the in-process bus is worth under every interleaving: a
barrier but for the records that a leaving subscriber drains. -/
namespace Probectl.Bus

open Population List Run

namespace Memory

structure FlushSound (m : Memory) : Prop where
  counted : m.handlerLost = m.outcomes.lost.length
  ended : ∀ F ∈ m.flushes, F.state = .returned true → ∀ p ∈ F.before, ∀ c ∈ (m.pubAt p).chans,
    (p, c) ∈ m.outcomes.handled ∨ (p, c) ∈ m.outcomes.lost

def NoneDiscarded (m : Memory) : Prop :=
  ∀ F ∈ m.flushes, F.state = .returned true → ∀ p ∈ F.before, ∀ c ∈ (m.pubAt p).chans,
    (p, c) ∉ m.outcomes.discarded

variable {m : Memory}

theorem ended_once (inv : m.Inv) (p c : Nat) : m.outcomes.count p c ≤ 1 := by
  have all := inv.tally p c
  have once : (m.pubAt p).chans.count c ≤ 1 := by
    cases at_p : m.pubs[p]? with
    | none => simp [pubAt, at_p, Pub.void]
    | some P =>
      rw [pubAt, getD_at at_p]
      exact nodup_iff_count_le_one.mp (inv.pubs P (mem_of_getElem? at_p)).nodup c
  simp only [tally] at all
  omega

theorem flushSound_iff (inv : m.Inv) : m.FlushSound ↔ m.NoneDiscarded := by
  constructor
  · intro sound F mem returned p hp c hc discarded
    have once := ended_once inv p c
    have thrown := count_pos_iff.mpr discarded
    rcases sound.ended F mem returned p hp c hc with handled | lost
    · have := count_pos_iff.mpr handled
      simp only [Outcomes.count] at once
      omega
    · have := count_pos_iff.mpr lost
      simp only [Outcomes.count] at once
      omega
  · refine fun none => ⟨inv.lost, fun F mem returned p hp c hc => ?_⟩
    have ended := (inv.flushes F mem).ended returned p hp c hc
    have kept := count_eq_zero.mpr (none F mem returned p hp c hc)
    simp only [Outcomes.count] at ended
    rw [← count_pos_iff, ← count_pos_iff]
    omega

def NeverPops (_ : Memory) (a : Label) : Prop := ∀ c, a ≠ .pop c

theorem discarded_visits
    (along : Along step NeverPops (newMemory opts) labels) :
    Visits step (fun m => m.outcomes.discarded = []) (newMemory opts) labels :=
  visits_of_along (fun _ _ _ none quiet stepped => ((step_effect stepped).2 quiet).trans none) rfl along

/-- `Flush` is a sound barrier exactly as long as no drain loop has thrown away
a record it waited for; a run in which no drain loop takes a record is safe. -/
theorem flush_barrier_iff (opts : List MemoryOption) (labels : List Label) :
    (Visits step FlushSound (newMemory opts) labels ↔
      Visits step NoneDiscarded (newMemory opts) labels) ∧
    (Along step NeverPops (newMemory opts) labels →
      Visits step FlushSound (newMemory opts) labels) := by
  have inv := reachable_inv opts labels
  constructor
  · exact visits_congr inv fun m => flushSound_iff
  intro along pre post split m ran
  refine (flushSound_iff (inv pre post split m ran)).mpr fun F mem returned p hp c hc => ?_
  rw [discarded_visits along pre post split m ran]
  exact not_mem_nil

def backlog : List Label :=
  [.subscribe [1] [2], .publish ⟨[1], [], [7]⟩ [0], .offer 0, .send 0, .finishPublish 0,
    .cancel 0, .exit 0, .leave 0, .pop 0, .discard 0, .drained 0, .flush, .check 0]

/-- `Publish` and `Flush` both return nil and no handler ever saw the record. -/
theorem flush_passes_discarded :
    ∃ m, run step (newMemory []) backlog = some m ∧ m.accepted 0 = true ∧
      m.flushes = [⟨[0], .returned true⟩] ∧ m.outcomes.handled = [] ∧ m.handlerLost = 0 ∧
      ¬ m.FlushSound := by
  refine ⟨_, rfl, by decide, by decide, by decide, by decide, fun sound => ?_⟩
  have ended := sound.ended ⟨[0], .returned true⟩ (by decide) rfl 0 (by decide) 0 (by decide)
  exact absurd ended (by decide)

end Memory
end Probectl.Bus
