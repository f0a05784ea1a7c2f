import Probectl.Lib.Producer
import Probectl.Bus.Topics

/-! The two networked buses, `internal/bus/kafka.go` and `internal/bus/nats.go`.
`Publish` hands a record to a client library and returns; the outcome comes
later. The libraries are the asynchronous producers they document. -/
namespace Probectl.Bus

open Producer

def defaultMaxBuffered : Nat := 65536
inductive PublishError where
  | context | shed | ensureStream | client
  deriving DecidableEq, Repr

structure ProduceFailure where
  topic : Bytes
  err : Bytes
  deriving DecidableEq, Repr

structure Kafka (ρ : Type u) where
  maxBuffered : Nat
  producer : Client ρ
  produced : Nat
  failed : Nat
  shed : Nat
  lastFailure : Option ProduceFailure

structure NATS (ρ : Type u) where
  maxPending : Nat
  js : Client ρ
  inflight : Nat
  produced : Nat
  failed : Nat
  shed : Nat
  lastFailure : Option ProduceFailure
  outcomes : List (Option ProduceFailure)

variable {ρ : Type u} {σ : Type v}

def newKafka (maxBuffered : Int) : Kafka ρ :=
  ⟨if maxBuffered ≤ 0 then defaultMaxBuffered else maxBuffered.toNat, ⟨[], [], []⟩, 0, 0, 0, none⟩

namespace Kafka

def publishCheck (k : Kafka ρ) (ctxErr : Bool) : Kafka ρ × Option PublishError :=
  if ctxErr then (k, some .context)
  else if k.maxBuffered ≤ k.producer.pending.length then ({ k with shed := k.shed + 1 }, some .shed)
  else (k, none)

/-- `TryProduce`: other publishers may have taken the last slot meanwhile, and
then the promise is called with `ErrMaxBuffered`. -/
def tryProduce (k : Kafka ρ) (r : ρ) : Kafka ρ :=
  if k.maxBuffered ≤ k.producer.pending.length then
    { k with producer := k.producer.refuse r, shed := k.shed + 1 }
  else { k with producer := k.producer.submit r }

def promise (k : Kafka ρ) (i : Nat) (err : Option ProduceFailure) : Option (Kafka ρ) :=
  (k.producer.complete i err.isNone).map fun producer =>
    match err with
    | none => { k with producer := producer, produced := k.produced + 1 }
    | some f => { k with producer := producer, failed := k.failed + 1, lastFailure := some f }

/-- `Flush` is back with nil once nothing is buffered. -/
def flushed (k : Kafka ρ) : Bool := k.producer.pending.isEmpty

end Kafka

inductive AsyncAnswer where
  | future | tooManyStalled | maxPayload | refused (f : ProduceFailure)
  deriving DecidableEq, Repr

namespace NATS

def publishCheck (n : NATS ρ) (ctxErr : Bool) (ensure : Option ProduceFailure) : NATS ρ × Option PublishError :=
  if ctxErr then (n, some .context)
  else
    match ensure with
    | some f => ({ n with failed := n.failed + 1, lastFailure := some f }, some .ensureStream)
    | none =>
      if n.maxPending ≤ n.inflight then ({ n with shed := n.shed + 1 }, some .shed) else (n, none)

def publishMsgAsync (n : NATS ρ) (r : ρ) : AsyncAnswer → NATS ρ × Option PublishError
  | .future => ({ n with js := n.js.submit r, inflight := n.inflight + 1 }, none)
  | .tooManyStalled => ({ n with shed := n.shed + 1 }, some .shed)
  | .maxPayload => ({ n with shed := n.shed + 1 }, some .shed)
  | .refused f => ({ n with failed := n.failed + 1, lastFailure := some f }, some .client)

def resolve (n : NATS ρ) (i : Nat) (err : Option ProduceFailure) : Option (NATS ρ) :=
  (n.js.complete i err.isNone).map fun js => { n with js := js, outcomes := n.outcomes ++ [err] }

def account (n : NATS ρ) (i : Nat) : Option (NATS ρ) :=
  (n.outcomes[i]?).map fun err =>
    let n := { n with outcomes := n.outcomes.eraseIdx i, inflight := n.inflight - 1 }
    match err with
    | none => { n with produced := n.produced + 1 }
    | some f => { n with failed := n.failed + 1, lastFailure := some f }

def complete (n : NATS ρ) : Bool := n.js.pending.isEmpty

end NATS

inductive ResultBus (ρ : Type u) where
  | none
  | kafka (k : Kafka ρ)
  | nats (n : NATS ρ)

namespace ResultBus

def map (f : ρ → σ) : ResultBus ρ → ResultBus σ
  | .none => .none
  | .kafka k => .kafka ⟨k.maxBuffered, k.producer.map f, k.produced, k.failed, k.shed, k.lastFailure⟩
  | .nats n =>
    .nats ⟨n.maxPending, n.js.map f, n.inflight, n.produced, n.failed, n.shed, n.lastFailure, n.outcomes⟩

def client : ResultBus ρ → Client ρ
  | .none => ⟨[], [], []⟩
  | .kafka k => k.producer
  | .nats n => n.js

def wired : ResultBus ρ → Bool
  | .none => false
  | _ => true

end ResultBus
end Probectl.Bus
