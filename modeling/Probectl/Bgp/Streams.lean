import Probectl.Bgp.Families

/-! The worker that submits routing evidence: `bmp_routing_book.go`,
`bmp_routing_cohorts.go` and `bmp_routing_stream.go`. Its sessions, the receipts
of the stager and the failures of the writer are the environment's. -/
namespace Probectl.Bgp

def maxInt64 : Nat := 2 ^ 63 - 1

/-- The cohort is the family mask of an authenticated receipt, or zero. -/
structure RoutingSelector where
  cohort : UInt8
  distinguisher : Bytes
  identifier : Bytes
  deriving DecidableEq

/-- A source of evidence. `hasLoss` says that it carries the loss flag of a live
session. -/
structure PeerEvidence where
  selector : RoutingSelector
  hasLoss : Bool
  session : Nat
  tenantID : Bytes
  routerAgentID : Bytes
  routerSerial : Bytes
  observedAt : Int
  deriving DecidableEq

structure RoutingMessage where
  heartbeat : Bool
  sourceReset : Bool
  message : Bytes
  observedUnixNanos : Int
  configuredRef : Bytes
  originSerial : Bytes
  generation : Bytes
  sequence : Nat
  deriving DecidableEq

structure StreamState where
  familyMask : UInt8
  source : PeerEvidence
  generation : Bytes
  previous : Bytes
  sequence : Nat
  previousSequence : Nat
  failed : Bool
  deriving DecidableEq

def bmpRoutingStateCharge (state : StreamState) : Int :=
  1024 + state.source.tenantID.length + state.source.routerAgentID.length + state.source.routerSerial.length +
    state.generation.length + state.previous.length

/-! The book. -/

abbrev StreamKey := Nat × RoutingSelector

structure RoutingStreams where
  sessions : AList (fun _ : StreamKey => StreamState)
  used : Int
  limit : Int

def newBMPRoutingStreams (limit : Int) : RoutingStreams := ⟨∅, 0, limit⟩

def PeerEvidence.key (peer : PeerEvidence) : StreamKey := (peer.session, peer.selector)

def PeerEvidence.withCohort (peer : PeerEvidence) (cohort : UInt8) : PeerEvidence :=
  { peer with selector.cohort := cohort }

namespace RoutingStreams

def peers (streams : RoutingStreams) (peer : PeerEvidence) : List PeerEvidence :=
  ([0, 1, 2, 3].map peer.withCohort).filter (fun selected => (streams.sessions.lookup selected.key).isSome)

def resolve (streams : RoutingStreams) (peer : PeerEvidence) : PeerEvidence × Option StreamState :=
  match streams.sessions.lookup peer.key with
  | some state => (peer, some state)
  | none =>
    if peer.selector.cohort ≠ 0 then (peer, none)
    else
      match streams.peers peer with
      | [selected] => (selected, streams.sessions.lookup selected.key)
      | _ => (peer, none)

def get (streams : RoutingStreams) (peer : PeerEvidence) : Option StreamState := (streams.resolve peer).2

def admission (streams : RoutingStreams) (peer : PeerEvidence) (state : StreamState) : Option Int :=
  let oldBytes := ((streams.sessions.lookup peer.key).map bmpRoutingStateCharge).getD 0
  let nextBytes := bmpRoutingStateCharge state
  if nextBytes > streams.limit ∨ streams.used - oldBytes > streams.limit - nextBytes then none
  else some (nextBytes - oldBytes)

def put (streams : RoutingStreams) (peer : PeerEvidence) (state : StreamState) : Option RoutingStreams :=
  (streams.admission peer state).map fun delta =>
    { streams with sessions := streams.sessions.insert peer.key state, used := streams.used + delta }

def tryPut (streams : RoutingStreams) (peer : PeerEvidence) (state : StreamState) : RoutingStreams :=
  (streams.put peer state).getD streams

def remove (streams : RoutingStreams) (peer : PeerEvidence) : RoutingStreams :=
  match streams.resolve peer with
  | (selected, some state) =>
    { streams with
      sessions := streams.sessions.erase selected.key
      used := streams.used - bmpRoutingStateCharge state }
  | (_, none) => streams

end RoutingStreams

/-! Receipts. -/

inductive StagingStatus where
  | staged | replayed | other
  deriving DecidableEq

structure StagingView where
  generation : Bytes
  afi : Nat
  safi : Nat
  deriving DecidableEq

structure StagingReceipt where
  status : StagingStatus
  views : List (Option StagingView)
  deriving DecidableEq

def receiptView (generation : Bytes) (mask : UInt8) : Option StagingView → Option UInt8
  | none => none
  | some view =>
    if view.generation ≠ generation ∨ view.afi < 1 ∨ view.afi > 2 ∨ view.safi ≠ 1 then none
    else
      let bit := UInt8.ofNat (2 ^ (view.afi - 1))
      if mask &&& bit ≠ 0 then none else some (mask ||| bit)

def routingReceiptFamilyMask (receipt : Option StagingReceipt) (generation : Bytes) : Option UInt8 :=
  match receipt with
  | none => none
  | some receipt =>
    if receipt.status = .other ∨ receipt.views = [] ∨ receipt.views.length > 2 then none
    else receipt.views.foldlM (receiptView generation) 0

/-! The worker. -/

structure Worker where
  streams : RoutingStreams
  log : List RoutingMessage

def resetGeneration (peer : PeerEvidence) (log : List RoutingMessage) (generation : Bytes) (sequence : Nat) :
    List RoutingMessage × Nat :=
  if generation = [] ∨ sequence = maxInt64 then (log, sequence)
  else
    (log ++ [{ heartbeat := false, sourceReset := true, message := [], observedUnixNanos := peer.observedAt,
               configuredRef := peer.routerAgentID, originSerial := peer.routerSerial, generation := generation,
               sequence := sequence + 1 }], sequence + 1)

def retireRoutingStream (peer : PeerEvidence) (log : List RoutingMessage) (state : StreamState) :
    List RoutingMessage × StreamState :=
  let first :=
    if state.previous ≠ state.generation then resetGeneration peer log state.previous state.previousSequence
    else (log, state.previousSequence)
  let second := resetGeneration peer first.1 state.generation state.sequence
  (second.1, { state with previousSequence := first.2, sequence := second.2, failed := true })

def routingCohortSource (peer : PeerEvidence) : PeerEvidence := { peer with observedAt := 0 }

def stagingAttempt (selected : PeerEvidence) (generation : Bytes) : Option StreamState → StreamState
  | some old => ⟨old.familyMask, routingCohortSource selected, generation, old.generation, 0, old.sequence, false⟩
  | none => ⟨0, routingCohortSource selected, generation, [], 0, 0, false⟩

namespace Worker

def retire (w : Worker) (peer : PeerEvidence) (state : StreamState) : Worker :=
  let retired := retireRoutingStream peer w.log state
  ⟨w.streams.tryPut peer retired.2, retired.1⟩

def retireMatchingCohort (mask : UInt8) (remove : Bool) (w : Worker) (selected : PeerEvidence) : Worker :=
  match w.streams.get selected with
  | none => w
  | some state =>
    if mask ≠ 0 ∧ state.familyMask ≠ 0 ∧ mask &&& state.familyMask = 0 then w
    else
      let retired := if state.failed then (w.log, state) else retireRoutingStream selected w.log state
      if remove then ⟨w.streams.remove selected, retired.1⟩ else ⟨w.streams.tryPut selected retired.2, retired.1⟩

def retireMatchingCohorts (w : Worker) (peer : PeerEvidence) (mask : UInt8) (remove : Bool) : Worker :=
  (w.streams.peers peer).foldl (retireMatchingCohort mask remove) w

structure StagingReply where
  receipt : Option StagingReceipt
  failed : Bool

def finishStaging (w : Worker) (peer selected : PeerEvidence) (previous : Option StreamState) (attempt : StreamState)
    (reply : StagingReply) : Worker :=
  match (if reply.failed then none else routingReceiptFamilyMask reply.receipt attempt.generation) with
  | none =>
    match previous with
    | some _ => w.retire selected attempt
    | none =>
      let w := w.retireMatchingCohorts peer 0 false
      { w with log := (retireRoutingStream selected w.log attempt).1 }
  | some mask =>
    if previous.any (fun old => (reply.receipt.any (·.status = .replayed)) ∧ old.generation = attempt.generation ∧
        old.familyMask = mask) then w
    else
      let w := w.retireMatchingCohorts peer mask true
      let peer := peer.withCohort mask
      let current : StreamState := ⟨mask, routingCohortSource peer, attempt.generation, [], 0, 0, false⟩
      match w.streams.put peer current with
      | some streams => { w with streams := streams }
      | none => { w with log := (retireRoutingStream peer w.log current).1 }

/-- `lost` is the loss flag as it is read; `generation` the nonce of the message. -/
def stageRoutingCohort (stager : Bool) (w : Worker) (peer : PeerEvidence) (lost : Bool) (generation : Bytes)
    (reply : StagingReply) : Worker :=
  if lost ∨ ¬ stager then w.retireMatchingCohorts peer 0 false
  else
    let (selected, previous) := w.streams.resolve peer
    let attempt := stagingAttempt selected generation previous
    match w.streams.admission selected attempt with
    | none => w.retireMatchingCohorts peer 0 false
    | some _ => w.finishStaging peer selected previous attempt reply

/-- `fails n` says that the writer refuses the message number `n`. -/
def sendRoutingCohortMessage (fails : Nat → Bool) (w : Worker) (peer : PeerEvidence) (message : RoutingMessage)
    (state : StreamState) : Worker :=
  if state.generation = [] then w
  else if state.sequence ≥ maxInt64 - 1 then w.retire peer state
  else
    let state := { state with sequence := state.sequence + 1 }
    let sent := { message with
      configuredRef := peer.routerAgentID, originSerial := peer.routerSerial, generation := state.generation,
      sequence := state.sequence }
    let log := w.log ++ [sent]
    if fails w.log.length then retire ⟨w.streams, log⟩ peer state
    else if message.sourceReset then ⟨w.streams.remove peer, log⟩
    else ⟨w.streams.tryPut peer state, log⟩

def takes (mask : UInt8) (state : StreamState) : Bool :=
  ¬ (mask ≠ 0 ∧ state.familyMask ≠ 0 ∧ mask &&& state.familyMask ≠ mask)

def dispatchCohort (fails : Nat → Bool) (message : RoutingMessage) (mask : UInt8) (turn : Worker × Bool)
    (selected : PeerEvidence) : Worker × Bool :=
  match turn.1.streams.get selected with
  | none => turn
  | some state =>
    if ¬ takes mask state then turn
    else if state.failed then (turn.1, true)
    else (turn.1.sendRoutingCohortMessage fails selected message state, true)

def dispatchRoutingCohorts (fails : Nat → Bool) (w : Worker) (peer : PeerEvidence) (lost : Bool)
    (message : RoutingMessage) : Worker :=
  let peers := w.streams.peers peer
  if peers = [] then w
  else if lost then w.retireMatchingCohorts peer 0 false
  else
    let mask : Except Fault UInt8 :=
      if peers.length > 1 ∧ ¬ message.heartbeat ∧ ¬ message.sourceReset then
        parseRoutingMessageFamilyMask message.message dispatchBudget
      else .ok 0
    match mask with
    | .error _ => w.retireMatchingCohorts peer 0 false
    | .ok mask =>
      let (w, covered) := peers.foldl (dispatchCohort fails message mask) (w, false)
      if covered then w else w.retireMatchingCohorts peer 0 false

/-- The keys of a map in the order in which they are visited: those that `order`
names first. -/
def visited (order keys : List StreamKey) : List StreamKey :=
  order.dedup.filter (· ∈ keys) ++ keys.filter (· ∉ order)

def retireLostRoutingStream (lost : StreamKey → Bool) (now : Int) (w : Worker) (key : StreamKey) : Worker :=
  match w.streams.sessions.lookup key with
  | none => w
  | some state =>
    if state.failed ∨ ¬ state.source.hasLoss ∨ ¬ lost key then w
    else w.retire { state.source with observedAt := now } state

def retireLostRoutingStreams (w : Worker) (order : List StreamKey) (lost : StreamKey → Bool) (now : Int) : Worker :=
  (visited order w.streams.sessions.keys).foldl (retireLostRoutingStream lost now) w

def endRoutingStream (peer : PeerEvidence) (w : Worker) (key : StreamKey) : Worker :=
  match w.streams.sessions.lookup key with
  | none => w
  | some state =>
    let peer := { peer with selector := key.2 }
    ⟨w.streams.remove peer, (retireRoutingStream peer w.log state).1⟩

def endRoutingStreams (w : Worker) (peer : PeerEvidence) (order : List StreamKey) : Worker :=
  (visited order (w.streams.sessions.keys.filter (·.1 = peer.session))).foldl (endRoutingStream peer) w

end Worker

structure StreamConfig where
  laneTenant : Bytes
  routingStateBytes : Int
  positive : 0 < routingStateBytes
  stager : Bool
  fails : Nat → Bool

inductive StreamEvent where
  | peerUp (peer : PeerEvidence) (lost : Bool) (generation : Bytes) (reply : Worker.StagingReply)
  | message (peer : PeerEvidence) (lost : Bool) (message : RoutingMessage)
  | sessionEnd (peer : PeerEvidence) (order : List StreamKey)
  | lossWake (order : List StreamKey) (lost : StreamKey → Bool) (now : Int)

def Worker.step (cfg : StreamConfig) (w : Worker) : StreamEvent → Worker
  | .peerUp peer lost generation reply =>
    if peer.tenantID ≠ cfg.laneTenant then w else w.stageRoutingCohort cfg.stager peer lost generation reply
  | .message peer lost message =>
    if peer.tenantID ≠ cfg.laneTenant then w else w.dispatchRoutingCohorts cfg.fails peer lost message
  | .sessionEnd peer order => if peer.tenantID ≠ cfg.laneTenant then w else w.endRoutingStreams peer order
  | .lossWake order lost now => w.retireLostRoutingStreams order lost now

def Worker.start (cfg : StreamConfig) : Worker := ⟨newBMPRoutingStreams cfg.routingStateBytes, []⟩

def Worker.runs (cfg : StreamConfig) (events : List StreamEvent) : Worker := events.foldl (step cfg) (start cfg)

end Probectl.Bgp
