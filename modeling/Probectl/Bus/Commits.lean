import Probectl.Bus.Kafka

/-! The committed positions of a subscription never pass a failed record, and
nothing that could be committed is held back. -/
namespace Probectl.Bus

open Run Best List

def InOrder (recs : List Record) : Prop := recs.Pairwise fun r q => r.tp = q.tp → r.offset < q.offset

def failures (outcomes : List RecordOutcome) : List (TopicPartition × Int) :=
  (outcomes.filter fun o => !o.ok).map fun o => (o.record.tp, o.record.offset)

variable {outcomes : List RecordOutcome} {tp : TopicPartition}

theorem mem_failures :
    (tp, f) ∈ failures outcomes ↔ ∃ o ∈ outcomes, o.ok = false ∧ o.record.tp = tp ∧ o.record.offset = f := by
  simp [failures, and_assoc]

theorem strict_lt : Strict fun a b : Int => decide (a < b) :=
  ⟨by simp, by simp only [decide_eq_true_eq]; exact fun _ _ _ => lt_trans⟩

theorem strict_gt : Strict fun a b : Int => decide (a > b) :=
  ⟨by simp, by simp only [decide_eq_true_eq]; exact fun _ _ _ => gt_trans⟩

theorem markable_ceiling (firstFail : Offsets) (outcomes : List RecordOutcome) :
    (markable firstFail outcomes).1 = collect (fun a b => decide (a < b)) firstFail (failures outcomes) := by
  unfold markable
  induction outcomes generalizing firstFail with
  | nil => rfl
  | cons o rest ih =>
    cases ok : o.ok with
    | true => simpa [failures, ok] using ih firstFail
    | false => simpa [failures, collect, ok] using ih (improve _ firstFail o.record.tp o.record.offset)

variable {r : Record}

theorem mem_marks : r ∈ (markable firstFail outcomes).2 ↔
      ⟨r, true⟩ ∈ outcomes ∧ ∀ f, (markable firstFail outcomes).1 r.tp = some f → r.offset < f := by
  unfold markable
  dsimp only
  generalize outcomes.foldl (fun firstFail o => if o.ok then firstFail else
    Best.improve _ firstFail o.record.tp o.record.offset) firstFail = firstFail'
  rw [mem_filterMap]
  constructor
  · rintro ⟨⟨q, ok⟩, mem, kept⟩
    cases ok with
    | false => cases kept
    | true =>
      simp only [Bool.not_true, Bool.false_eq_true, if_false] at kept
      split at kept
      · rename_i f held
        obtain ⟨below, kept⟩ := guard_some kept
        cases kept
        refine ⟨mem, fun f' again => ?_⟩
        cases held.symm.trans again
        omega
      · rename_i free
        cases kept
        exact ⟨mem, fun f' held => by cases free.symm.trans held⟩
  · rintro ⟨mem, below⟩
    refine ⟨⟨r, true⟩, mem, ?_⟩
    simp only [Bool.not_true, Bool.false_eq_true, if_false]
    split
    · rename_i f held
      have here := below f held
      rw [if_neg (by omega)]
    · rfl

structure Batch.Inv (b : Batch) : Prop where
  sized : b.outcomes.length = b.recs.length
  queued : ∀ i : Nat, b.outcomes[i]? = some none → ∃ k : Nat, ∃ shard, b.shards[k]? = some shard ∧ i ∈ shard

variable {i : Nat} {recs : List Record}

theorem shards_cover (workers : Int) (bound : i < recs.length) :
    ∃ k : Nat, ∃ shard, (shards workers recs)[k]? = some shard ∧ i ∈ shard := by
  unfold shards
  split
  · exact ⟨0, _, rfl, mem_range.mpr bound⟩
  have positive : 0 < workers.toNat := by omega
  let k := shardKey (recs[i]).key % workers.toNat
  have inside : k < workers.toNat := Nat.mod_lt _ positive
  refine ⟨k, _, by rw [getElem?_map, getElem?_range inside]; rfl, ?_⟩
  rw [mem_filterMap]
  exact ⟨(recs[i], i), mk_mem_zipIdx_iff_getElem?.mpr (getElem?_eq_getElem bound), if_pos rfl⟩

theorem newBatch_inv (workers : Int) (recs : List Record) : (newBatch workers recs).Inv where
  sized := by simp [newBatch]
  queued := by
    intro i unset
    have bound : i < recs.length := by
      simpa [newBatch] using (List.getElem?_eq_some_iff.mp unset).1
    exact shards_cover workers bound

variable {b : Batch} {worker : Nat} {rest : List Nat}

theorem Batch.Inv.handle (inv : b.Inv) (next : b.shards[worker]? = some (i :: rest)) (ok : Bool) :
    Batch.Inv { b with shards := b.shards.set worker rest, outcomes := b.outcomes.set i (some ok) } where
  sized := by simpa using inv.sized
  queued := by
    intro j unset
    have other : i ≠ j := by
      rintro rfl
      simp [getElem?_set] at unset
    simp only [getElem?_set_ne other] at unset
    obtain ⟨k, shard, found, mem⟩ := inv.queued j unset
    by_cases own : worker = k
    · subst own
      cases next.symm.trans found
      refine ⟨worker, rest, ?_, (mem_cons.mp mem).resolve_left (Ne.symm other)⟩
      have bound := (List.getElem?_eq_some_iff.mp found).1
      simp [getElem?_set_self bound]
    · exact ⟨k, shard, by simpa [getElem?_set_ne own] using found, mem⟩

theorem Batch.Inv.complete (inv : b.Inv) (through : b.shards.all isEmpty = true) :
    b.recordOutcomes.map RecordOutcome.record = b.recs := by
  have set : ∀ i : Nat, b.outcomes[i]? ≠ some none := by
    intro i unset
    obtain ⟨k, shard, found, mem⟩ := inv.queued i unset
    have empty := all_eq_true.mp through shard (mem_of_getElem? found)
    rw [List.isEmpty_iff.mp empty] at mem
    cases mem
  have all : ∀ o ∈ b.outcomes, o ≠ none := by
    rintro o mem rfl
    obtain ⟨i, at_⟩ := mem_iff_getElem?.mp mem
    exact set i at_
  unfold Batch.recordOutcomes
  have sized := inv.sized
  revert sized all
  generalize b.outcomes = outcomes
  generalize b.recs = recs
  induction recs generalizing outcomes with
  | nil => simp
  | cons r recs ih =>
    intro all sized
    cases outcomes with
    | nil => cases sized
    | cons o outcomes =>
      cases o with
      | none => exact absurd rfl (all none mem_cons_self)
      | some ok =>
        have later := ih outcomes (fun o mem => all o (mem_cons_of_mem _ mem)) (Nat.succ.inj sized)
        simpa using later

variable {o : RecordOutcome}

theorem recordOutcomes_mem (mem : o ∈ b.recordOutcomes) : o.record ∈ b.recs := by
  obtain ⟨⟨r, outcome⟩, zipped, made⟩ := mem_filterMap.mp mem
  obtain ⟨ok, -, rfl⟩ := Option.map_eq_some_iff.mp made
  exact (of_mem_zip zipped).1

namespace Subscription

structure Inv (s : Subscription) : Prop where
  inOrder : InOrder s.delivered
  ceiling : IsBest (fun a b => decide (a < b)) s.firstFail (failures s.history)
  heads : IsBest (fun a b => decide (a > b)) s.committed (s.marked.map fun r => (r.tp, r.offset + 1))
  succeeded : ∀ r ∈ s.marked, ⟨r, true⟩ ∈ s.history
  below : ∀ r ∈ s.marked, ∀ o ∈ s.history, o.ok = false → o.record.tp = r.tp → r.offset < o.record.offset
  marks : ∀ r, ⟨r, true⟩ ∈ s.history →
    (∀ o ∈ s.history, o.ok = false → o.record.tp = r.tp → r.offset < o.record.offset) → r ∈ s.marked
  batch : ∀ b, s.batch = some b → b.Inv

theorem inv_initial : Inv {} where
  inOrder := List.Pairwise.nil
  ceiling := isBest_empty
  heads := isBest_empty
  succeeded := by simp
  below := by simp
  marks := by simp
  batch := nofun

def Ordered (s : Subscription) : Consume → Prop
  | .poll recs => InOrder (s.delivered ++ recs)
  | _ => True

variable {s t : Subscription} {workers : Int}

theorem Inv.newer (inv : s.Inv) (under : s.batch = some b) (old : o ∈ s.history)
    (new : r ∈ b.recs) (same : o.record.tp = r.tp) : o.record.offset < r.offset := by
  have split := inv.inOrder
  rw [delivered, under] at split
  exact (pairwise_append.mp split).2.2 o.record (mem_map_of_mem old) r new same

theorem Inv.poll (inv : s.Inv) (inOrder : InOrder (s.delivered ++ recs))
    (idle : s.batch = none) : Inv { s with batch := some (newBatch workers recs) } :=
  { inv with
    inOrder := by
      rw [delivered, idle] at inOrder
      simpa [delivered, newBatch] using inOrder
    batch := by
      intro b under
      cases under
      exact newBatch_inv workers recs }

theorem Inv.handle (inv : s.Inv) (under : s.batch = some b)
    (next : b.shards[worker]? = some (i :: rest)) (ok : Bool) :
    Inv { s with batch := some { b with
      shards := b.shards.set worker rest
      outcomes := b.outcomes.set i (some ok) } } :=
  { inv with
    inOrder := by
      have before := inv.inOrder
      rwa [delivered, under] at before
    batch := by
      intro b' again
      cases again
      exact (inv.batch b under).handle next ok }

theorem failures_append (xs ys : List RecordOutcome) : failures (xs ++ ys) = failures xs ++ failures ys := by
  simp [failures]

theorem Inv.mark (inv : s.Inv) (under : s.batch = some b) (through : b.shards.all isEmpty = true) : Inv {
      firstFail := (markable s.firstFail b.recordOutcomes).1
      committed := markCommitRecords s.committed (markable s.firstFail b.recordOutcomes).2
      batch := none
      history := s.history ++ b.recordOutcomes
      marked := s.marked ++ (markable s.firstFail b.recordOutcomes).2 } := by
  have records := (inv.batch b under).complete through
  have ceiling : IsBest (fun a b => decide (a < b)) (markable s.firstFail b.recordOutcomes).1
      (failures (s.history ++ b.recordOutcomes)) := by
    rw [markable_ceiling, failures_append]
    exact inv.ceiling.collect strict_lt _
  have newer : ∀ o ∈ s.history, ∀ q ∈ b.recordOutcomes, o.record.tp = q.record.tp →
      o.record.offset < q.record.offset :=
    fun o old q new => inv.newer under old (recordOutcomes_mem new)
  constructor
  case inOrder =>
    have before := inv.inOrder
    rw [delivered, under] at before
    simpa [delivered, records] using before
  case ceiling => exact ceiling
  case heads =>
    rw [map_append]
    exact inv.heads.collect strict_gt _
  case succeeded =>
    intro r mem
    rcases mem_append.mp mem with old | new
    · exact mem_append_left _ (inv.succeeded r old)
    · exact mem_append_right _ (mem_marks.mp new).1
  case below =>
    intro r mem o failed bad same
    rcases mem_append.mp mem with old | new
    · rcases mem_append.mp failed with before | now
      · exact inv.below r old o before bad same
      · exact newer ⟨r, true⟩ (inv.succeeded r old) o now same.symm
    · -- a record of this batch is marked below the ceiling, which counts this batch's failures
      obtain ⟨f, held, least⟩ := ceiling.best o.record.tp o.record.offset (mem_failures.mpr ⟨o, failed, bad, rfl, rfl⟩)
      have under := (mem_marks.mp new).2 f (same ▸ held)
      simp only [decide_eq_false_iff_not] at least
      omega
  case marks =>
    intro r ok before
    rcases mem_append.mp ok with old | new
    · apply mem_append_left
      exact inv.marks r old fun o failed => before o (mem_append_left _ failed)
    apply mem_append_right
    refine mem_marks.mpr ⟨new, fun f held => ?_⟩
    obtain ⟨o, failed, bad, same, rfl⟩ := mem_failures.mp (ceiling.taken r.tp f held)
    exact before o failed bad same
  case batch => nofun

theorem Inv.step (inv : s.Inv) (ordered : s.Ordered a) (stepped : s.step workers a = some t) : t.Inv := by
  cases a with
  | poll recs =>
    simp only [Subscription.step] at stepped
    split at stepped
    · cases stepped
    rename_i idle
    cases stepped
    split
    · exact inv
    · exact inv.poll ordered idle
  | handle worker ok =>
    simp only [Subscription.step] at stepped
    split at stepped
    · cases stepped
    rename_i b under
    split at stepped
    · rename_i i rest next
      cases stepped
      exact inv.handle under next ok
    · cases stepped
  | mark =>
    simp only [Subscription.step] at stepped
    split at stepped
    · cases stepped
    rename_i b under
    split at stepped
    · rename_i through
      cases stepped
      exact inv.mark under through
    · cases stepped

/-- The committed position of a partition is below every failure, everything
delivered below it succeeded, and a success of a finished batch that no failure
precedes is marked and committed. -/
structure Safe (s : Subscription) : Prop where
  below_failures : ∀ tp c, s.committed tp = some c →
    ∀ o ∈ s.outcomes, o.ok = false → o.record.tp = tp → c ≤ o.record.offset
  succeeded : ∀ tp c, s.committed tp = some c →
    ∀ r ∈ s.delivered, r.tp = tp → r.offset < c → ⟨r, true⟩ ∈ s.outcomes
  marks : ∀ r, ⟨r, true⟩ ∈ s.history →
    (∀ o ∈ s.outcomes, o.ok = false → o.record.tp = r.tp → r.offset < o.record.offset) →
      r ∈ s.marked ∧ ∃ c, s.committed r.tp = some c ∧ r.offset < c

theorem Inv.position (inv : s.Inv) (held : s.committed tp = some c) :
    ∃ r ∈ s.marked, r.tp = tp ∧ r.offset + 1 = c := by
  obtain ⟨r, marked, same⟩ := mem_map.mp (inv.heads.taken tp c held)
  exact ⟨r, marked, congrArg Prod.fst same, congrArg Prod.snd same⟩

theorem mem_outcomes (mem : o ∈ s.outcomes) : o ∈ s.history ∨ ∃ b, s.batch = some b ∧ o ∈ b.recordOutcomes := by
  rcases mem_append.mp mem with old | new
  · exact .inl old
  · cases under : s.batch with
    | none => simp [under] at new
    | some b => exact .inr ⟨b, rfl, by simpa [under] using new⟩

theorem mem_delivered (mem : r ∈ s.delivered) :
    (∃ o ∈ s.history, o.record = r) ∨ ∃ b, s.batch = some b ∧ r ∈ b.recs := by
  rcases mem_append.mp mem with old | new
  · exact .inl (mem_map.mp old)
  · cases under : s.batch with
    | none => simp [under] at new
    | some b => exact .inr ⟨b, rfl, by simpa [under] using new⟩

theorem Inv.below_failures (inv : s.Inv) (marked : r ∈ s.marked) (mem : o ∈ s.outcomes)
    (bad : o.ok = false) (same : o.record.tp = r.tp) : r.offset < o.record.offset := by
  rcases mem_outcomes mem with old | ⟨b, under, new⟩
  · exact inv.below r marked o old bad same
  · exact inv.newer under (inv.succeeded r marked) (recordOutcomes_mem new) same.symm

theorem Inv.safe (inv : s.Inv) : s.Safe := by
  constructor
  · intro tp c held o mem bad same
    obtain ⟨r, marked, rfl, rfl⟩ := inv.position held
    exact inv.below_failures marked mem bad same
  · rintro tp c held r mem rfl less
    obtain ⟨q, marked, same, rfl⟩ := inv.position held
    rcases mem_delivered mem with ⟨⟨r', ok⟩, old, rfl⟩ | ⟨b, under, new⟩
    · cases ok with
      | true => exact mem_append_left _ old
      | false =>
        have after := inv.below q marked ⟨r', false⟩ old rfl same.symm
        omega
    · have after := inv.newer under (inv.succeeded q marked) new same
      dsimp only at after
      omega
  · intro r ok before
    have marked := inv.marks r ok fun o old => before o (mem_append_left _ old)
    obtain ⟨c, held, greatest⟩ := inv.heads.best r.tp (r.offset + 1) (mem_map_of_mem marked)
    refine ⟨marked, c, held, ?_⟩
    simp only [decide_eq_false_iff_not] at greatest
    omega

end Subscription

open Subscription

/-- Whatever the handlers return and however the workers interleave, the commits
of a subscription never pass a failure. -/
theorem commits_never_pass_failure (workers : Int) (as : List Consume)
    (ordered : Along (Subscription.step workers) Ordered {} as) : Visits (Subscription.step workers) Safe {} as := by
  have invs : Visits (step workers) Subscription.Inv {} as :=
    visits_of_along (fun s a t inv here stepped => inv.step here stepped) inv_initial ordered
  intro pre post split t ran
  exact (invs pre post split t ran).safe

def twoKeys : List Consume :=
  [.poll [⟨[], 0, 7, [0], []⟩, ⟨[], 0, 8, [1], []⟩, ⟨[], 1, 3, [1], []⟩], .handle 0 false, .handle 1 true,
    .handle 0 true, .mark]

theorem commits_never_pass_failure_twoKeys :
    (∃ s, run (Subscription.step 2) {} twoKeys = some s ∧ s.committed ⟨[], 0⟩ = some 8 ∧ s.committed ⟨[], 1⟩ = some 4) ∧
      Visits (Subscription.step 2) Safe {} twoKeys := by
  constructor
  · exact ⟨_, rfl, by decide +kernel, by decide +kernel⟩
  apply commits_never_pass_failure
  have inOrder : InOrder [⟨[], 0, 7, [0], []⟩, ⟨[], 0, 8, [1], []⟩, ⟨[], 1, 3, [1], []⟩] := by
    unfold InOrder
    decide
  exact fun _ _ => ⟨inOrder, fun _ _ => ⟨trivial, fun _ _ => ⟨trivial, fun _ _ => ⟨trivial, fun _ _ => ⟨trivial, trivial⟩⟩⟩⟩⟩

end Probectl.Bus
