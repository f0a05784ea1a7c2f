import Probectl.Agent.Buffer
import Probectl.Bus.Brokers

/-! One drain of the agent's buffer against the control plane: `drainOnce` of
`internal/agent/agent.go`, `StreamResults` of `internal/agenttransport/service.go`
and the bus between the service and the broker. Steps of the agent, the service,
the client library, the broker and everybody else who uses the buffer or the bus
interleave freely. -/
namespace Probectl.Transport

open Bus Producer Strings Agent

inductive FrameError where
  | unsupportedVersion | malformed
  deriving DecidableEq, Repr

/-- The two codecs the code calls. `frameToRequest` is the JSON envelope turned
into a request payload; `decode` is the service's parse of a payload, giving the
record it publishes under the certificate's identity. -/
structure Wire where
  frameToRequest : Bytes → Except FrameError Bytes
  decode : Bytes → Option Bytes

structure Identity where
  tenantID : Bytes
  agentID : Bytes
  deriving DecidableEq, Repr

structure Record where
  origin : Option Nat
  msg : Message
  deriving DecidableEq, Repr

inductive StreamError where
  | recv | ingest | flush
  deriving DecidableEq, Repr

inductive Server where
  | closed | receiving | publishing (msg : Message) | flushing | settling
  | answered (accepted : Nat) | failed (e : StreamError)
  deriving DecidableEq, Repr

inductive Drain where
  | idle | streaming | finished
  deriving DecidableEq, Repr

structure Session where
  store : Agent.Store
  bus : ResultBus Record
  drain : Drain
  server : Server
  batch : List Bytes
  requests : List Bytes
  accepted : Nat
  removed : Option (List Bytes)
  quarantined : Option Bytes

def frameRequestsPrefix (w : Wire) : List Bytes → List Bytes × Option FrameError
  | [] => ([], none)
  | fr :: rest =>
    match w.frameToRequest fr with
    | .error e => ([], some e)
    | .ok req =>
      let (requests, bad) := frameRequestsPrefix w rest
      (req :: requests, bad)

def defaultDrainMaxRecords : Int := 500
def defaultDrainMaxBytes : Int := 8 * 2 ^ 20

def drainSettings (maxRecords maxBytes : Int) : Int × Int :=
  (if maxRecords ≤ 0 then defaultDrainMaxRecords else maxRecords,
    if maxBytes ≤ 0 then defaultDrainMaxBytes else maxBytes)

inductive Label where
  | enqueue (p : Bytes) (faults : Agent.Faults)
  | foreign (msg : Message) (answer : AsyncAnswer)
  | complete (i : Nat) (err : Option ProduceFailure)
  | account (i : Nat)
  | begin (maxRecords maxBytes : Int) (peek quarantine : Agent.Faults) (refused : Bool)
  | recv (fenceErr : Bool) (route : Option Bytes) (ctxErr : Bool) (ensure : Option ProduceFailure)
  | produce (answer : AsyncAnswer)
  | eof | flushed | settled | flushErr | broken
  | remove (faults : Agent.Faults) | abandon

def start (store : Agent.Store) (bus : ResultBus Message) : Session :=
  { store := store, bus := bus.map (fun msg => ⟨none, msg⟩), drain := .idle, server := .closed
    batch := [], requests := [], accepted := 0, removed := none, quarantined := none }

/-- `drainOnce` up to the open stream: peek, convert, quarantine a poison head. -/
def begin (w : Wire) (s : Session) (maxRecords maxBytes : Int) (peek quarantine : Agent.Faults)
    (refused : Bool) : Session :=
  let bounds := drainSettings maxRecords maxBytes
  let finished := { s with drain := .finished }
  match peekBatch s.store bounds.1 bounds.2 peek with
  | .error _ => finished
  | .ok [] => finished
  | .ok (head :: rest) =>
    let (requests, bad) := frameRequestsPrefix w (head :: rest)
    if requests = [] ∧ bad = some .malformed then
      match quarantineHead s.store quarantine with
      | (store, .error _) => { finished with store := store }
      | (store, .ok _) =>
        { finished with store := store, quarantined := (frames s.store.disk.log).head? }
    else if requests = [] ∨ refused then finished
    else { s with drain := .streaming, server := .receiving, batch := head :: rest, requests := requests }

def publishCheck (bus : ResultBus Record) (ctxErr : Bool) (ensure : Option ProduceFailure) :
    ResultBus Record × Option PublishError :=
  match bus with
  | .none => (.none, none)
  | .kafka k => let (k, e) := k.publishCheck ctxErr; (.kafka k, e)
  | .nats n => let (n, e) := n.publishCheck ctxErr ensure; (.nats n, e)

def produce (bus : ResultBus Record) (r : Record) (answer : AsyncAnswer) :
    ResultBus Record × Option PublishError :=
  match bus with
  | .none => (.none, none)
  | .kafka k => (.kafka (k.tryProduce r), none)
  | .nats n => let (n, e) := n.publishMsgAsync r answer; (.nats n, e)

/-- `Recv` gives the next request: `ingest` up to the client, or its early ends. -/
def recv (w : Wire) (id : Identity) (s : Session) (fenceErr : Bool) (route : Option Bytes) (ctxErr : Bool)
    (ensure : Option ProduceFailure) : Option Session :=
  if s.server = .receiving then
    (s.requests[s.accepted]?).map fun payload =>
      let refused := { s with server := .failed .ingest }
      match w.decode payload with
      | none => { s with accepted := s.accepted + 1 }
      | some value =>
        if fenceErr then refused
        else if s.bus.wired = false then { s with accepted := s.accepted + 1 }
        else
          match route with
          | none => refused
          | some ns =>
            match topicFor ns networkResultsTopic with
            | .error _ => refused
            | .ok topic =>
              match publishCheck s.bus ctxErr ensure with
              | (bus, some _) => { refused with bus := bus }
              | (bus, none) =>
                { s with bus := bus, server := .publishing ⟨topic, tenantKey id.tenantID id.agentID, value⟩ }
  else none

def produceOwn (s : Session) (answer : AsyncAnswer) : Option Session :=
  match s.server with
  | .publishing msg =>
    match produce s.bus ⟨some s.accepted, msg⟩ answer with
    | (bus, some _) => some { s with bus := bus, server := .failed .ingest }
    | (bus, none) => some { s with bus := bus, server := .receiving, accepted := s.accepted + 1 }
  | _ => none

/-- `io.EOF` behind the last request: straight to the answer, or to `Flush`. -/
def eof (s : Session) : Option Session :=
  if s.server = .receiving ∧ s.accepted = s.requests.length then
    if s.bus.wired ∧ 0 < s.accepted then some { s with server := .flushing }
    else some { s with server := .answered s.accepted }
  else none

/-- `Flush` is back with nil, the NATS one only after its second wait. -/
def flushed (s : Session) : Option Session :=
  match s.server, s.bus with
  | .flushing, .kafka k => if k.flushed then some { s with server := .answered s.accepted } else none
  | .flushing, .nats n => if n.complete then some { s with server := .settling } else none
  | _, _ => none

def settled (s : Session) : Option Session :=
  match s.server, s.bus with
  | .settling, .nats n => if n.inflight = 0 then some { s with server := .answered s.accepted } else none
  | _, _ => none

def flushErr (s : Session) : Option Session :=
  if s.server = .flushing ∨ s.server = .settling then some { s with server := .failed .flush } else none

def broken (s : Session) : Option Session :=
  if s.server = .receiving then some { s with server := .failed .recv } else none

def complete (s : Session) (i : Nat) (err : Option ProduceFailure) : Option Session :=
  match s.bus with
  | .none => none
  | .kafka k => (k.promise i err).map fun k => { s with bus := .kafka k }
  | .nats n => (n.resolve i err).map fun n => { s with bus := .nats n }

def account (s : Session) (i : Nat) : Option Session :=
  match s.bus with
  | .nats n => (n.account i).map fun n => { s with bus := .nats n }
  | _ => none

/-- The ack arrives: `Remove` of at most what was sent. -/
def remove (s : Session) (faults : Agent.Faults) : Option Session :=
  match s.drain, s.server with
  | .streaming, .answered n =>
    let acked := min n s.requests.length
    match Agent.remove s.store acked faults with
    | (store, .returned none) =>
      some { s with store := store, drain := .finished
                    removed := some ((Agent.frames s.store.disk.log).take acked) }
    | (store, _) => some { s with store := store, drain := .finished }
  | _, _ => none

def step (w : Wire) (id : Identity) (s : Session) : Label → Option Session
  | .enqueue p faults => some { s with store := (enqueue s.store p faults).1 }
  | .foreign msg answer => some { s with bus := (produce s.bus ⟨none, msg⟩ answer).1 }
  | .complete i err => complete s i err
  | .account i => account s i
  | .begin maxRecords maxBytes peek quarantine refused =>
    if s.drain = .idle then some (begin w s maxRecords maxBytes peek quarantine refused) else none
  | .recv fenceErr route ctxErr ensure => recv w id s fenceErr route ctxErr ensure
  | .produce answer => produceOwn s answer
  | .eof => eof s
  | .flushed => flushed s
  | .settled => settled s
  | .flushErr => flushErr s
  | .broken => broken s
  | .remove faults => remove s faults
  | .abandon => if s.drain = .streaming then some { s with drain := .finished } else none

end Probectl.Transport
