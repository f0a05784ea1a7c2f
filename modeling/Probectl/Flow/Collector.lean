import Probectl.Flow.Decode
import Probectl.Lib.Population

/-! The collector between its sockets and the emitter: `readLoop`, `decodeSafely`,
`flushLoop`, `flushBatch` and `emitWithRetry` of `collector.go`, with the workers and the
flush loop interleaved at every access to the queue and the counters. -/
namespace Probectl.Flow

open Population

inductive Listener where
  | netflow | ipfix | sflow
  deriving DecidableEq

structure CollectorConfig where
  tenantID : Bytes
  agentID : Bytes
  listeners : List Listener
  workers : Int
  batchSize : Nat
  queueSize : Nat
  sourceAllowed : Listener → Bytes → Bool
  evidence : Bool
  batchSize_pos : 0 < batchSize
  queueSize_pos : 0 < queueSize

structure Stamped where
  tenantID : Bytes
  agentID : Bytes
  record : Record
  deriving DecidableEq

variable (cfg : CollectorConfig)

def CollectorConfig.stamp (r : Record) : Stamped := ⟨cfg.tenantID, cfg.agentID, r⟩

structure Stats where
  packets : Nat := 0
  records : Nat := 0
  decodeErrors : Nat := 0
  templateMisses : Nat := 0
  queueDrops : Nat := 0
  emitErrors : Nat := 0
  sourceDrops : Nat := 0
  droppedRecords : Nat := 0
  evidenceQueueDrops : Nat := 0
  deriving DecidableEq

inductive DecodeResult where
  | returned (out : Decoded)
  | panicked (value : String)
  deriving DecidableEq

namespace DecodeResult

def recovered : DecodeResult → Decoded
  | .returned out => out
  | .panicked value => ⟨[], 0, some (.other ("flow: decoder panicked: " ++ value))⟩

def isPanic : DecodeResult → Bool
  | .returned _ => false
  | .panicked _ => true

def failed (r : DecodeResult) : Bool := r.recovered.fault.isSome

end DecodeResult

/-- Where a read worker stands. A datagram is known by the number of packets before it. -/
inductive Phase where
  | reading
  | decoding (id : Nat)
  | reporting (id : Nat) (out : Decoded)
  | sending (recs : List Stamped)
  | returned
  deriving DecidableEq

structure Worker where
  listener : Listener
  phase : Phase
  deriving DecidableEq

/-- Where `Start` and the flush loop stand. `leaving` is a flush on the way out. -/
inductive Flusher where
  | unstarted (rest : List Listener)
  | waiting (batch : List Stamped)
  | emitting (batch : List Stamped) (attempt : Nat) (leaving : Bool)
  | returned
  deriving DecidableEq

/-- `results` and `blamed` are what an observer notes: how each datagram was decoded, and
for each addition to the decode errors the datagram it was for, none for a failed read. -/
structure Collector where
  stats : Stats := {}
  queue : List Stamped := []
  workers : List Worker := []
  flusher : Flusher
  ctxDone : Bool := false
  connsClosed : Bool := false
  done : Bool := false
  evidenceQueue : Option (List Stamped) := none
  results : List (Nat × DecodeResult) := []
  blamed : List (Option Nat) := []
  deriving DecidableEq

def emitMaxRetries : Nat := 2

inductive ReadAct where
  /-- `ReadFrom` fails; `closed` is `net.ErrClosed`. -/
  | fail (closed : Bool)
  | receive (addr : Bytes)
  | decode (result : DecodeResult)
  | report
  | send
  deriving DecidableEq

inductive FlushAct where
  | ctxDone | done | take | tick
  | emit (ok : Bool)
  deriving DecidableEq

inductive CollectorAct where
  | listen (bound : Bool)
  | launch
  | read (worker : Nat) (act : ReadAct)
  | flush (act : FlushAct)
  | evidence
  | cancel
  /-- The two halves of `Close`. -/
  | closeConns
  | closeDone
  deriving DecidableEq

variable (c : Collector) (batch : List Stamped)

namespace Collector

def start : Collector := { flusher := .unstarted cfg.listeners }

def become (w : Nat) (worker : Worker) (phase : Phase) : Collector :=
  { c with workers := c.workers.set w { worker with phase := phase } }

def decodeError (id : Option Nat) : Collector :=
  { c with stats := { c.stats with decodeErrors := c.stats.decodeErrors + 1 }, blamed := c.blamed ++ [id] }

/-- The panic is counted here, in the recovery. -/
def decodeSafely (id : Nat) (result : DecodeResult) : Collector × Decoded :=
  let c := { c with results := c.results ++ [(id, result)] }
  (if result.isPanic then c.decodeError (some id) else c, result.recovered)

/-- The report of one datagram: its error is counted here, a panic's as well. -/
def report (id : Nat) (out : Decoded) : Collector :=
  let c := { c with stats := { c.stats with templateMisses := c.stats.templateMisses + out.misses } }
  if out.fault.isSome then c.decodeError (some id) else c

def enqueue (rec' : Stamped) : Collector :=
  if c.queue.length < cfg.queueSize then { c with queue := c.queue ++ [rec'] }
  else { c with stats := { c.stats with queueDrops := c.stats.queueDrops + 1 } }

def readLoop (w : Nat) (worker : Worker) : ReadAct → Option Collector
  | .fail closed =>
    if worker.phase ≠ .reading ∨ (closed = true ∧ c.connsClosed = false) then none
    else if c.ctxDone ∨ c.done ∨ closed then some (c.become w worker .returned)
    else some (c.decodeError none)
  | .receive addr =>
    if worker.phase ≠ .reading ∨ c.connsClosed = true then none
    else
      let c' := { c with stats := { c.stats with packets := c.stats.packets + 1 } }
      if cfg.sourceAllowed worker.listener addr then some (c'.become w worker (.decoding c.stats.packets))
      else some { c' with stats := { c'.stats with sourceDrops := c'.stats.sourceDrops + 1 } }
  | .decode result =>
    match worker.phase with
    | .decoding id => some ((c.decodeSafely id result).1.become w worker (.reporting id (c.decodeSafely id result).2))
    | _ => none
  | .report =>
    match worker.phase with
    | .reporting id out => some ((c.report id out).become w worker (.sending (out.recs.map cfg.stamp)))
    | _ => none
  | .send =>
    match worker.phase with
    | .sending [] => some (c.become w worker .reading)
    | .sending (rec' :: rest) => some ((c.enqueue cfg rec').become w worker (.sending rest))
    | _ => none

def resumed (leaving : Bool) : Flusher := if leaving then .returned else .waiting []

def flush (leaving : Bool) : Flusher :=
  if batch = [] then resumed leaving else .emitting batch 0 leaving

/-- The evidence queue is one batch deep. -/
def offerEvidence : Collector :=
  if cfg.evidence then
    match c.evidenceQueue with
    | none => { c with evidenceQueue := some batch }
    | some _ => { c with stats := { c.stats with evidenceQueueDrops := c.stats.evidenceQueueDrops + 1 } }
  else c

def flushed : Collector :=
  offerEvidence cfg { c with stats := { c.stats with records := c.stats.records + batch.length } } batch

def dropped : Collector :=
  { c with stats := { c.stats with
      emitErrors := c.stats.emitErrors + 1, droppedRecords := c.stats.droppedRecords + batch.length } }

def flushLoop : FlushAct → Option Collector
  | .ctxDone =>
    match c.flusher with
    | .waiting batch => if c.ctxDone then some { c with flusher := flush batch true } else none
    | _ => none
  | .done =>
    match c.flusher with
    | .waiting batch => if c.done then some { c with flusher := flush batch true } else none
    | _ => none
  | .take =>
    match c.flusher, c.queue with
    | .waiting batch, rec' :: rest =>
      some { c with
        queue := rest
        flusher := if batch.length + 1 ≥ cfg.batchSize then flush (batch ++ [rec']) false else .waiting (batch ++ [rec']) }
    | _, _ => none
  | .tick =>
    match c.flusher with
    | .waiting batch => some { c with flusher := flush batch false }
    | _ => none
  | .emit ok =>
    match c.flusher with
    | .emitting batch attempt leaving =>
      if ok then some { c.flushed cfg batch with flusher := resumed leaving }
      else if attempt ≥ emitMaxRetries ∨ c.ctxDone then some { c.dropped batch with flusher := resumed leaving }
      else some { c with flusher := .emitting batch (attempt + 1) leaving }
    | _ => none

def step : CollectorAct → Option Collector
  | .listen bound =>
    match c.flusher with
    | .unstarted (l :: rest) =>
      if bound then
        some { c with
          workers := c.workers ++ List.replicate (max cfg.workers 1).toNat ⟨l, .reading⟩, flusher := .unstarted rest }
      else some { c with flusher := .returned }
    | _ => none
  | .launch =>
    match c.flusher with
    | .unstarted [] => some { c with flusher := .waiting [] }
    | _ => none
  | .read w act => c.workers[w]?.bind fun worker => c.readLoop cfg w worker act
  | .flush act => c.flushLoop cfg act
  | .evidence => if c.evidenceQueue.isSome then some { c with evidenceQueue := none } else none
  | .cancel => some { c with ctxDone := true }
  | .closeConns => some { c with connsClosed := true }
  | .closeDone => if c.connsClosed then some { c with done := true } else none

def finished :
    Bool := c.workers.all (fun worker => worker.phase = .returned) && c.flusher = .returned

end Collector

end Probectl.Flow
