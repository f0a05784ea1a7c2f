import Probectl.Lib.Retry
import Probectl.Pipeline.Cardinality
import Probectl.Pipeline.Tenants

/-! What the telemetry consumers share: the counters they keep, the lane gate,
the retried store write and the dead-letter publish behind it. -/
namespace Probectl.Pipeline

open Bus

/-- A store error, by what `errors.Is` finds in it: `tsdb.ErrPermanentReject`,
a cancellation or an expired deadline, `tenancy.ErrTenantQuarantined`. -/
structure WriteError where
  permanentReject : Bool := false
  canceled : Bool := false
  tenantQuarantined : Bool := false
  deriving DecidableEq

inductive HandlerError where
  | laneQuarantined
  | write (e : WriteError)
  | ctx
  | capture
  deriving DecidableEq

inductive Meter where
  | results | bytes | flowEvents | deviceMetrics | otlpSeries
  deriving DecidableEq

/-- The answers one call of a handler gets from outside: the payload codec, the
tenancy service, the fairness gate (when one is installed), the clock, the store
on its `n`th attempt, the context behind that attempt and at the end, and the bus. -/
structure World (μ : Type) where
  unmarshal : Bytes → Option μ
  tenancy : Tenancy
  gate : Option (Bytes → Meter → Nat → Bool)
  hash : Bytes → Bytes
  now : Int
  store : Nat → Option WriteError
  ctxErr : Nat → Bool
  ctxErrAfter : Bool
  publish : Bool

structure IntegrityLedger where
  received : Nat := 0
  stored : Nat := 0
  malformed : Nat := 0
  tenantRejected : Nat := 0
  fairnessShed : Nat := 0
  cardinalityDropped : Nat := 0
  labelTruncated : Nat := 0
  deadLettered : Nat := 0
  dropped : Nat := 0
  deriving DecidableEq

/-- A consumer's ledger, counters and limiter, the versions it has reported to
the registry, and the two process-wide counters of refused records. -/
structure State where
  ledger : IntegrityLedger := {}
  rejected : Nat := 0
  overwritten : Nat := 0
  shed : Nat := 0
  consumed : Nat := 0
  retried : Nat := 0
  deadLettered : Nat := 0
  terminallyRejected : Nat := 0
  dropped : Nat := 0
  writeQueueSaturated : Nat := 0
  card : Option CardinalityLimiter := none
  versions : List Identity := []
  tenantRejections : Nat := 0
  quarantineDropped : Nat := 0

namespace State

def receive (s : State) : State := { s with ledger.received := s.ledger.received + 1 }
def malform (s : State) : State := { s with ledger.malformed := s.ledger.malformed + 1 }
def shedOne (s : State) : State := { s with ledger.fairnessShed := s.ledger.fairnessShed + 1 }
def store (s : State) : State := { s with ledger.stored := s.ledger.stored + 1 }

def refuse (s : State) : State :=
  { s with rejected := s.rejected + 1, ledger.tenantRejected := s.ledger.tenantRejected + 1 }

def reject (s : State) : State := { s.refuse with tenantRejections := s.tenantRejections + 1 }

def drop (s : State) : State :=
  { s with dropped := s.dropped + 1, ledger.dropped := s.ledger.dropped + 1 }

def deadLetter (s : State) : State :=
  { s with deadLettered := s.deadLettered + 1, ledger.deadLettered := s.ledger.deadLettered + 1 }

def limit (s : State) (card : Option CardinalityLimiter) (stats : CardinalityFilterStats) : State :=
  { s with
    card := card
    ledger.labelTruncated := s.ledger.labelTruncated + stats.labelTruncated
    ledger.cardinalityDropped := s.ledger.cardinalityDropped + stats.dropped }

end State

/-- A dead-letter publish: the tenant it is logged under, the message handed to
`Publish`, and whether the bus took it. -/
structure DeadLetter where
  tenant : Bytes
  msg : Message
  ok : Bool
  deriving DecidableEq

structure Usage where
  tenant : Bytes
  meter : Meter
  amount : Nat
  deriving DecidableEq

/-- What a call did outside: the batches it handed to the store, one for each
attempt, what it published and metered, and the error that keeps the offset. -/
structure Report (ρ : Type) where
  err : Option HandlerError := none
  writes : List (List ρ) := []
  published : List DeadLetter := []
  usage : List Usage := []

inductive Prepared (ι : Type) where
  | done (s : State) (err : Option HandlerError)
  | write (s : State) (item : ι)

variable {μ ρ : Type}

/-- `Gate.AdmitN`: a message without a tenant is never shed. -/
def admits (w : World μ) (tenant : Bytes) (meter : Meter) (n : Nat) : Bool :=
  match w.gate with
  | none => true
  | some admitN => tenant == [] || admitN tenant meter n

/-- The lane gate with what it counts, `refused` being the consumer's own count of
a refusal; the record goes on only on `none`. -/
def laneGate (w : World μ) (msg : Message) (laneTenant : Bytes) (refused : State → State) (s : State) :
    Option (State × Option HandlerError) :=
  match refuseSharedOrQuarantined w.tenancy msg laneTenant with
  | .pass => none
  | .held => some (s, some .laneQuarantined)
  | .quarantineDrop => some ({ refused s with quarantineDropped := s.quarantineDropped + 1 }, none)
  | .misrouted => some ({ refused s with tenantRejections := s.tenantRejections + 1 }, none)

def maxRetries : Nat := 3

/-- The result and device pipelines do not repeat a write the store never takes. -/
def writeWithRetry (w : World μ) : Nat × Option WriteError :=
  Retry.loop w.store (fun n e => w.ctxErr n || e.permanentReject) maxRetries 0

/-- The flow and OTLP pipelines repeat every error. -/
def insertWithRetry (w : World μ) : Nat × Option WriteError :=
  Retry.loop w.store (fun n _ => w.ctxErr n) maxRetries 0

def unknownWriteOutcome (w : World μ) (e : WriteError) : Bool := w.ctxErrAfter || e.canceled

def publishDeadLetter (w : World μ) (topic : Except TopicError Bytes) (tenant : Bytes) (msg : Message) (s : State) :
    State × List DeadLetter :=
  match topic with
  | .error _ => (s.drop, [])
  | .ok dlqTopic =>
    (if w.publish then s.deadLetter else s.drop, [⟨tenant, ⟨dlqTopic, msg.key, msg.value⟩, w.publish⟩])

/-- A dead-letter topic that keeps a record in its lane: it is the lane's own and
replay puts the record back on the lane. -/
def LaneBound (lane dlq : Bytes) : Prop :=
  deadLetterTopicFor lane = .ok dlq ∧ sourceTopicForDeadLetter dlq = some lane

theorem laneBound_of_topic (found : deadLetterTopicFor lane = .ok dlq) : LaneBound lane dlq :=
  ⟨found, (deadLetter_inverse lane dlq).mp found⟩

theorem publishDeadLetter_laneBound (w : World μ) (lane tenant : Bytes) (msg : Message) (s : State)
    (mem : d ∈ (publishDeadLetter w (deadLetterTopicFor lane) tenant msg s).2) : LaneBound lane d.msg.topic := by
  unfold publishDeadLetter at mem
  split at mem
  case h_1 => cases mem
  case h_2 dlq found =>
    obtain rfl := List.mem_singleton.mp mem
    exact laneBound_of_topic found

end Probectl.Pipeline
