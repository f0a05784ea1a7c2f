import Probectl.Flow.Collector

/-! Where the records and the decode errors of the collector are counted. -/
namespace Probectl.Flow

open Population List Run DecodeResult Phase Nat

/-! What each loop holds. -/

def one (i id : Nat) : Nat := if i = id then 1 else 0

def flagged (flag : Bool) (i id : Nat) : Nat := if flag then one i id else 0

def below (n id : Nat) : Nat := if id < n then 1 else 0

theorem below_succ (n id : Nat) : below (n + 1) id = below n id + one n id := by
  unfold below one
  rcases lt_trichotomy id n with before | rfl | behind
  · simp [before, lt_succ_of_lt before, ne_of_gt]
  · simp
  · simp [Nat.not_lt_of_gt behind, Nat.not_lt_of_ge behind, Nat.ne_of_lt behind]

def Phase.held : Phase → Nat
  | .reporting _ out => out.recs.length
  | .sending recs => recs.length
  | _ => 0

def Phase.decodes (id : Nat) : Phase → Nat
  | .decoding i => one i id
  | _ => 0

def Phase.owes (id : Nat) : Phase → Nat
  | .reporting i out => flagged out.fault.isSome i id
  | _ => 0

def Flusher.held : Flusher → Nat
  | .waiting batch => batch.length
  | .emitting batch _ _ => batch.length
  | _ => 0

def DecodeResult.blame (r : DecodeResult) (i id : Nat) : Nat :=
  flagged r.isPanic i id + flagged r.failed i id

namespace Collector

def decoded (c : Collector) : Nat := total (fun r => r.2.recovered.recs.length) c.results

def settled (c : Collector) : Nat := c.stats.records + c.stats.queueDrops + c.stats.droppedRecords

def seen (c : Collector) (id : Nat) : Nat := total (fun r => one r.1 id) c.results

def owed (c : Collector) (id : Nat) : Nat := total (fun r => r.2.blame r.1 id) c.results

def arrived (c : Collector) (id : Nat) : Nat := below c.stats.packets id

/-- Every decoded record is counted or held, every failed datagram counted or reported
next, and every datagram is decoded once. -/
structure Accounted (c : Collector) : Prop where
  records : c.decoded = c.settled + c.queue.length + c.flusher.held + total (fun worker => worker.phase.held) c.workers
  errors : c.stats.decodeErrors = c.blamed.length
  blamed : ∀ id, c.blamed.count (some id) + total (fun worker => worker.phase.owes id) c.workers = c.owed id
  once : ∀ id, c.seen id + total (fun worker => worker.phase.decodes id) c.workers ≤ c.arrived id

variable {c : Collector} {c' : Collector}

theorem Accounted.settle (before : Accounted c) (workers : c'.workers = c.workers)
    (results : c'.results = c.results) (blamed : c'.blamed = c.blamed) (errors : c'.stats.decodeErrors = c.stats.decodeErrors)
    (packets : c'.stats.packets = c.stats.packets)
    (flow : c'.settled + c'.queue.length + c'.flusher.held = c.settled + c.queue.length + c.flusher.held) : Accounted c' where
  records := by
    have records := before.records
    rw [decoded, results, workers]
    rw [decoded] at records
    omega
  errors := by rw [errors, blamed, before.errors]
  blamed id := by
    rw [blamed, workers, owed, results]
    exact before.blamed id
  once id := by
    rw [seen, results, workers, arrived, packets]
    exact before.once id

variable {w : Nat} {worker : Worker}

theorem Accounted.advance (before : Accounted c)
    (found : c.workers[w]? = some worker) (workers : c'.workers = c.workers.set w { worker with phase := phase })
    (flusher : c'.flusher = c.flusher) (errors : c'.stats.decodeErrors = c'.blamed.length)
    (flow : c'.decoded + (c.settled + c.queue.length + worker.phase.held) =
      c.decoded + (c'.settled + c'.queue.length + phase.held))
    (blamed : ∀ id, c'.blamed.count (some id) + phase.owes id + c.owed id =
      c.blamed.count (some id) + worker.phase.owes id + c'.owed id)
    (once : ∀ id, c'.seen id + phase.decodes id + c.arrived id ≤ c.seen id + worker.phase.decodes id + c'.arrived id) :
    Accounted c' where
  records := by
    have moved := total_set (fun worker => worker.phase.held) { worker with phase := phase } found
    have records := before.records
    rw [workers, flusher]
    dsimp only at moved
    omega
  errors := errors
  blamed id := by
    have moved := total_set (fun worker => worker.phase.owes id) { worker with phase := phase } found
    have earlier := before.blamed id
    have balance := blamed id
    rw [workers]
    dsimp only at moved
    omega
  once id := by
    have moved := total_set (fun worker => worker.phase.decodes id) { worker with phase := phase } found
    have earlier := before.once id
    have balance := once id
    rw [workers]
    dsimp only at moved
    omega

theorem set_same {l : List Worker} (found : l[w]? = some worker) : l = l.set w worker := by
  obtain ⟨bound, here⟩ := List.getElem?_eq_some_iff.mp found
  subst here
  exact (set_getElem_self bound).symm

theorem decodeSafely_blamed (c : Collector) (id i : Nat) (result : DecodeResult) :
    (c.decodeSafely id result).1.blamed.count (some i) =
      c.blamed.count (some i) + flagged result.isPanic id i := by
  unfold decodeSafely decodeError
  cases result.isPanic with
  | true => simp [count_singleton, flagged, one]
  | false => simp [flagged]

variable {result : DecodeResult}

section Steps
variable {cfg : CollectorConfig} {c c' : Collector} {w : Nat} {worker : Worker}

section
variable (before : Accounted c)
include before

section
variable (found : c.workers[w]? = some worker)
include found

theorem accounted_fail
    (stepped : c.readLoop cfg w worker (.fail closed) = some c') : Accounted c' := by
  obtain ⟨listener, phase⟩ := worker
  obtain ⟨ready, stepped⟩ := guard_some stepped
  obtain rfl : phase = .reading := by
    by_contra other
    exact ready (.inl other)
  split at stepped
  · cases stepped
    exact before.advance found rfl rfl before.errors rfl (fun _ => rfl) fun _ => le_rfl
  cases stepped
  refine before.advance found (set_same found) rfl ?_ rfl ?_ fun _ => le_rfl
  · simp [decodeError, before.errors]
  · simp [decodeError, owed]

theorem accounted_receive
    (stepped : c.readLoop cfg w worker (.receive addr) = some c') : Accounted c' := by
  obtain ⟨listener, phase⟩ := worker
  obtain ⟨ready, stepped⟩ := guard_some stepped
  obtain rfl : phase = .reading := by
    by_contra other
    exact ready (.inl other)
  split at stepped
  · cases stepped
    refine before.advance found rfl rfl before.errors rfl (fun _ => rfl) fun id => ?_
    -- the new number is the first one that had not arrived
    simp only [become, seen, arrived, decodes, below_succ]
    omega
  · cases stepped
    refine before.advance found (set_same found) rfl before.errors rfl (fun _ => rfl) fun id => ?_
    simp only [seen, arrived, below_succ]
    omega

theorem accounted_decode (stepped : c.readLoop cfg w worker (.decode result) = some c') : Accounted c' := by
  obtain ⟨listener, phase⟩ := worker
  dsimp only [readLoop] at stepped
  split at stepped
  · rename_i id
    cases stepped
    have noted : (c.decodeSafely id result).1.results = c.results ++ [(id, result)] := by
      unfold decodeSafely
      split <;> rfl
    have stats : (c.decodeSafely id result).1.settled = c.settled ∧ (c.decodeSafely id result).1.queue = c.queue ∧
        (c.decodeSafely id result).1.flusher = c.flusher ∧ (c.decodeSafely id result).1.workers = c.workers ∧
        (c.decodeSafely id result).1.stats.packets = c.stats.packets := by
      unfold decodeSafely
      split <;> exact ⟨rfl, rfl, rfl, rfl, rfl⟩
    obtain ⟨settled, queue, flusher, workers, packets⟩ := stats
    refine before.advance found (congrArg (set · w _) workers) flusher ?_ ?_ ?_ ?_
    · simp only [become, decodeSafely]
      split
      · simp [decodeError, before.errors]
      · exact before.errors
    · change Collector.decoded (c.decodeSafely id result).1 + _ = _ + (Collector.settled (c.decodeSafely id result).1 +
        (c.decodeSafely id result).1.queue.length + _)
      rw [settled, queue, decoded, noted, total_append_singleton]
      simp only [decoded, held, decodeSafely]
      omega
    · intro i
      change (c.decodeSafely id result).1.blamed.count (some i) + _ + _ = _ + owed (c.decodeSafely id result).1 i
      rw [owed, owed, noted, total_append_singleton]
      rw [decodeSafely_blamed]
      simp only [blame, failed, owes, decodeSafely]
      omega
    · intro i
      change seen (c.decodeSafely id result).1 i + _ + _ ≤ _ + arrived (c.decodeSafely id result).1 i
      rw [seen, noted, total_append_singleton, arrived, arrived, packets]
      simp only [seen, decodes]
      omega
  · cases stepped

theorem accounted_report (stepped : c.readLoop cfg w worker .report = some c') : Accounted c' := by
  obtain ⟨listener, phase⟩ := worker
  dsimp only [readLoop] at stepped
  split at stepped
  · rename_i id out
    cases stepped
    by_cases faulty : out.fault.isSome = true
    · have reported : c.report id out =
          { c with stats := { c.stats with templateMisses := c.stats.templateMisses + out.misses } }.decodeError (some id) := if_pos faulty
      rw [reported]
      refine before.advance found rfl rfl ?_ ?_ ?_ fun _ => le_rfl
      · simp [become, decodeError, before.errors]
      · simp [become, decodeError, held, decoded, settled]
      · simp only [become, decodeError, owes, owed, faulty, count_append, count_singleton, flagged, one]
        simp
    · have reported : c.report id out =
          { c with stats := { c.stats with templateMisses := c.stats.templateMisses + out.misses } } := if_neg faulty
      rw [reported]
      refine before.advance found rfl rfl before.errors ?_ ?_ fun _ => le_rfl
      · simp [become, held, decoded, settled]
      · simp [become, owes, owed, flagged, faulty]
  · cases stepped

theorem accounted_send (stepped : c.readLoop cfg w worker .send = some c') : Accounted c' := by
  obtain ⟨listener, phase⟩ := worker
  dsimp only [readLoop] at stepped
  split at stepped
  · cases stepped
    exact before.advance found rfl rfl before.errors rfl (fun _ => rfl) fun _ => le_rfl
  · cases stepped
    unfold enqueue
    split
    · refine before.advance found rfl rfl before.errors ?_ (fun _ => rfl) fun _ => le_rfl
      simp only [become, held, decoded, settled, length_append, length_cons, length_nil]
      omega
    · refine before.advance found rfl rfl before.errors ?_ (fun _ => rfl) fun _ => le_rfl
      simp only [become, held, decoded, settled, length_cons]
      omega
  · cases stepped

theorem accounted_readLoop (stepped : c.readLoop cfg w worker act = some c') : Accounted c' := by
  cases act with
  | fail closed => exact accounted_fail before found stepped
  | receive addr => exact accounted_receive before found stepped
  | decode result => exact accounted_decode before found stepped
  | report => exact accounted_report before found stepped
  | send => exact accounted_send before found stepped

end

end

theorem resumed_held (leaving : Bool) : (resumed leaving).held = 0 := by
  cases leaving with
  | true => rfl
  | false => rfl

theorem flush_held (batch : List Stamped) (leaving : Bool) : (flush batch leaving).held = batch.length := by
  unfold flush
  split
  · rename_i empty
    rw [resumed_held, empty]
    rfl
  · rfl

variable {batch : List Stamped}

section
variable (before : Accounted c)
include before

theorem accounted_flush (waiting : c.flusher = .waiting batch) (leaving : Bool) :
    Accounted { c with flusher := flush batch leaving } := by
  refine before.settle rfl rfl rfl rfl rfl ?_
  dsimp only [settled]
  rw [waiting, flush_held, Flusher.held]

theorem accounted_flushed (emitting : c.flusher = .emitting batch attempt leaving) :
    Accounted { c.flushed cfg batch with flusher := resumed leaving } := by
  have offered : (c.flushed cfg batch).workers = c.workers ∧ (c.flushed cfg batch).results = c.results ∧
      (c.flushed cfg batch).blamed = c.blamed ∧ (c.flushed cfg batch).stats.decodeErrors = c.stats.decodeErrors ∧
      (c.flushed cfg batch).stats.packets = c.stats.packets ∧ (c.flushed cfg batch).queue = c.queue ∧
      (c.flushed cfg batch).settled = c.stats.records + batch.length + c.stats.queueDrops + c.stats.droppedRecords := by
    unfold flushed offerEvidence
    split
    · split
      all_goals exact ⟨rfl, rfl, rfl, rfl, rfl, rfl, rfl⟩
    · exact ⟨rfl, rfl, rfl, rfl, rfl, rfl, rfl⟩
  obtain ⟨workers, results, blamed, errors, packets, queue, settled⟩ := offered
  refine before.settle workers results blamed errors packets ?_
  change (c.flushed cfg batch).settled + (c.flushed cfg batch).queue.length + (resumed leaving).held = _
  rw [settled, queue, resumed_held, emitting, Collector.settled, Flusher.held]
  omega

theorem accounted_flushLoop (stepped : c.flushLoop cfg act = some c') : Accounted c' := by
  cases act with
  | ctxDone | done =>
    dsimp only [flushLoop] at stepped
    split at stepped
    · rename_i batch waiting
      split at stepped
      · cases stepped
        exact accounted_flush before waiting _
      · cases stepped
    · cases stepped
  | take =>
    dsimp only [flushLoop] at stepped
    split at stepped
    · rename_i batch rec' rest waiting queued
      cases stepped
      have held : (if batch.length + 1 ≥ cfg.batchSize then flush (batch ++ [rec']) false
          else Flusher.waiting (batch ++ [rec'])).held = batch.length + 1 := by
        split
        · rw [flush_held, length_append, length_singleton]
        · rw [Flusher.held, length_append, length_singleton]
      refine before.settle rfl rfl rfl rfl rfl ?_
      dsimp only [settled]
      rw [waiting, queued, Flusher.held, length_cons]
      omega
    · cases stepped
  | tick =>
    dsimp only [flushLoop] at stepped
    split at stepped
    · rename_i batch waiting
      cases stepped
      exact accounted_flush before waiting _
    · cases stepped
  | emit ok =>
    dsimp only [flushLoop] at stepped
    split at stepped
    · rename_i batch attempt leaving emitting
      split at stepped
      · cases stepped
        exact accounted_flushed before emitting
      split at stepped
      · cases stepped
        refine before.settle rfl rfl rfl rfl rfl ?_
        dsimp only [settled, dropped]
        rw [emitting, resumed_held, Flusher.held]
        omega
      · cases stepped
        refine before.settle rfl rfl rfl rfl rfl ?_
        dsimp only [settled]
        rw [emitting, Flusher.held, Flusher.held]
    · cases stepped

theorem accounted_listen
    (unstarted : c.flusher = .unstarted (l :: rest)) (n : Nat) :
    Accounted { c with workers := c.workers ++ replicate n ⟨l, .reading⟩, flusher := .unstarted rest } := by
  have joined weight (idle : weight ⟨l, .reading⟩ = 0) :
      total weight (c.workers ++ replicate n ⟨l, .reading⟩) = total weight c.workers := by
    simp [total, idle]
  refine ⟨?_, before.errors, ?_, ?_⟩
  · have records := before.records
    rw [unstarted] at records
    rw [joined _ rfl]
    exact records
  · intro id
    rw [joined _ rfl]
    exact before.blamed id
  · intro id
    rw [joined _ rfl]
    exact before.once id

theorem accounted_step (stepped : c.step cfg act = some c') : Accounted c' := by
  cases act with
  | listen bound =>
    dsimp only [step] at stepped
    split at stepped
    · rename_i l rest unstarted
      split at stepped
      · cases stepped
        exact accounted_listen before unstarted _
      cases stepped
      refine before.settle rfl rfl rfl rfl rfl ?_
      rw [unstarted]
      rfl
    · cases stepped
  | launch =>
    dsimp only [step] at stepped
    split at stepped
    · rename_i unstarted
      cases stepped
      refine before.settle rfl rfl rfl rfl rfl ?_
      rw [unstarted]
      rfl
    · cases stepped
  | read w act =>
    obtain ⟨worker, found, stepped⟩ := Option.bind_eq_some_iff.mp stepped
    exact accounted_readLoop before found stepped
  | flush act => exact accounted_flushLoop before stepped
  | evidence | closeDone =>
    dsimp only [step] at stepped
    split at stepped
    · cases stepped
      exact before.settle rfl rfl rfl rfl rfl rfl
    · cases stepped
  | cancel | closeConns =>
    cases stepped
    exact before.settle rfl rfl rfl rfl rfl rfl

end

end Steps

theorem accounted_start (cfg : CollectorConfig) : Accounted (start cfg) :=
  ⟨rfl, rfl, fun _ => rfl, fun _ => zero_le _⟩

theorem accounted_run
    (ran : run (step cfg) (start cfg) acts = some c) : Accounted c :=
  run_kept Accounted (fun _ _ _ before stepped => accounted_step before stepped) (accounted_start cfg) ran

theorem owed_of_mem (accounted : Accounted c) {id : Nat}
    (mem : (id, result) ∈ c.results) : c.owed id = result.blame id id := by
  have once : c.seen id ≤ 1 := by
    have bound := accounted.once id
    have arrived : c.arrived id ≤ 1 := by
      unfold arrived below
      split
      · exact le_rfl
      · exact zero_le _
    omega
  obtain ⟨front, back, split⟩ := append_of_mem mem
  have parts weight :
      total weight c.results = total weight front + weight (id, result) + total weight back := by
    rw [split]
    simp only [total, map_append, map_cons, sum_append_nat, sum_cons]
    omega
  have alone : one id id = 1 := if_pos rfl
  rw [seen, parts, alone] at once
  have others {l : List (Nat × DecodeResult)} (none : total (fun r => one r.1 id) l = 0) :
      total (fun r => r.2.blame r.1 id) l = 0 := by
    rw [total_eq_zero] at none ⊢
    intro r inside
    simp [blame, flagged, none r inside]
  rw [owed, parts, others (by omega), others (by omega), zero_add, add_zero]

theorem total_returned (finished : c.finished = true) (weight : Worker → Nat)
    (idle : ∀ l, weight ⟨l, .returned⟩ = 0) : total weight c.workers = 0 := by
  rw [total_eq_zero]
  intro worker mem
  simp only [Collector.finished, Bool.and_eq_true, all_eq_true, decide_eq_true_eq] at finished
  have returned := finished.1 worker mem
  obtain ⟨listener, phase⟩ := worker
  subst returned
  exact idle listener

/-- Once all loops have returned the decoded records are the counted ones and those left in
the queue, so that the counters are complete exactly if nothing is left there; a failed
datagram is counted once exactly if the decoder did not panic on it, and what else is
counted are failed reads. -/
theorem records_accounted {cfg : CollectorConfig} {acts : List CollectorAct} {c : Collector}
    (ran : run (step cfg) (start cfg) acts = some c) (finished : c.finished = true) :
    c.decoded = c.stats.records + c.stats.queueDrops + c.stats.droppedRecords + c.queue.length ∧
      (c.decoded = c.stats.records + c.stats.queueDrops + c.stats.droppedRecords ↔ c.queue = []) ∧
      c.stats.decodeErrors = c.blamed.length ∧
      ∀ id result, (id, result) ∈ c.results →
        (result.failed = true → (c.blamed.count (some id) = 1 ↔ result.isPanic = false)) ∧
        (result.failed = false → c.blamed.count (some id) = 0) := by
  have accounted := accounted_run ran
  have flusher : c.flusher = .returned := by
    simp only [Collector.finished, Bool.and_eq_true, decide_eq_true_eq] at finished
    exact finished.2
  have records : c.decoded = c.stats.records + c.stats.queueDrops + c.stats.droppedRecords + c.queue.length := by
    have records := accounted.records
    rw [total_returned finished _ fun _ => rfl, flusher] at records
    exact records
  refine ⟨records, ?_, accounted.errors, ?_⟩
  · rw [← length_eq_zero_iff]
    omega
  intro id result mem
  have counted := accounted.blamed id
  rw [total_returned finished _ fun _ => rfl, owed_of_mem accounted mem, add_zero] at counted
  rw [counted]
  have alone : one id id = 1 := if_pos rfl
  refine ⟨?_, ?_⟩
  · intro failed
    cases panic : result.isPanic with
    | true | false => simp [blame, flagged, failed, panic, alone]
  · intro fine
    have calm : result.isPanic = false := by
      cases result with
      | returned out => rfl
      | panicked value => cases fine
    simp [blame, flagged, fine, calm]

end Collector

/-! One NetFlow worker, for concrete runs. -/

def narrow : CollectorConfig where
  tenantID := []
  agentID := []
  listeners := [.netflow]
  workers := 1
  batchSize := 2
  queueSize := 1
  sourceAllowed := fun _ _ => true
  evidence := false
  batchSize_pos := by decide
  queueSize_pos := by decide

def plain : Record := { exporter := [], observationDomain := 0, protocol := .netflow5, observedAt := 0, samplingRate := 1 }

namespace Collector

def ingest (n : Nat) (fault : Option FlowFault) : List CollectorAct :=
  [.read 0 (.receive []), .read 0 (.decode (.returned ⟨replicate n plain, 0, fault⟩)), .read 0 .report] ++
    replicate (n + 1) (.read 0 .send)

def started : List CollectorAct := [.listen true, .launch]

def closed : List CollectorAct := [.closeConns, .closeDone, .read 0 (.fail true)]

def ended (acts : List CollectorAct) : Collector := (run (step narrow) (start narrow) acts).getD (start narrow)

def drained : List CollectorAct :=
  started ++ ingest 2 (some .recordBound) ++ [.flush .take, .cancel, .flush .ctxDone, .flush (.emit true)] ++ closed

theorem records_accounted_drained :
    (ended drained).decoded = 2 ∧ (ended drained).stats.records + (ended drained).stats.queueDrops +
      (ended drained).stats.droppedRecords = 2 ∧ (ended drained).stats.decodeErrors = 1 := by
  have ran : run (step narrow) (start narrow) drained = some (ended drained) := by decide +kernel
  obtain ⟨-, complete, errors, -⟩ := records_accounted ran (by decide +kernel)
  have decoded : (ended drained).decoded = 2 := by decide +kernel
  refine ⟨decoded, ?_, ?_⟩
  · rw [← decoded]
    exact (complete.mpr (by decide +kernel)).symm
  · rw [errors]
    decide +kernel

def abandoned : List CollectorAct := started ++ ingest 1 none ++ [.cancel, .flush .ctxDone] ++ closed

def panicking : List CollectorAct :=
  started ++ [.read 0 (.receive []), .read 0 (.decode (.panicked "")), .read 0 .report, .read 0 .send, .cancel, .flush .ctxDone] ++
    closed

/-- A record is in no counter, and one failed datagram is counted twice. -/
theorem record_abandoned :
    (run (step narrow) (start narrow) abandoned).isSome = true ∧ (ended abandoned).finished = true ∧
      (ended abandoned).decoded = 1 ∧
      (ended abandoned).stats.records + (ended abandoned).stats.queueDrops + (ended abandoned).stats.droppedRecords = 0 ∧
      (run (step narrow) (start narrow) panicking).isSome = true ∧ (ended panicking).finished = true ∧
      (ended panicking).stats.packets = 1 ∧ (ended panicking).stats.decodeErrors = 2 := by
  decide +kernel

end Collector

end Probectl.Flow
