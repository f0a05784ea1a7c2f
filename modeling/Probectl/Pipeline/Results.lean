import Probectl.Pipeline.Store

/-! The result consumer, `internal/pipeline/consumer.go` and `convert.go`. -/
namespace Probectl.Pipeline

open Bus Strings

def attrTenantID : Bytes := lit "probectl.tenant.id"
def attrAgentID : Bytes := lit "probectl.agent.id"
def attrCanaryType : Bytes := lit "probectl.canary.type"
def attrTestID : Bytes := lit "probectl.test.id"
def attrServerAddress : Bytes := lit "server.address"
def attrServerPort : Bytes := lit "server.port"
def attrNetworkTransport : Bytes := lit "network.transport"
def attrNetworkProtocol : Bytes := lit "network.protocol.name"

def identityAttrs : List Bytes := [attrTenantID, attrAgentID, attrCanaryType]

/-- A decoded result without the values of its metrics; `metrics` are their
names in the order the map is walked. -/
structure Result where
  tenantID : Bytes
  agentID : Bytes
  agentVersion : Bytes
  canaryType : Bytes
  serverAddress : Bytes
  serverPort : Nat
  networkTransport : Bytes
  networkProtocolName : Bytes
  attributes : Labels
  metrics : List Bytes
  deriving DecidableEq

def putNonempty (k v : Bytes) (attrs : Labels) : Labels := if v = [] then attrs else attrs.insert k v

/-- `otel.ResultAttributes`: the identity fields go in last and the free
attributes cannot name them. -/
def resultAttributes (r : Result) : Labels :=
  let attrs := putNonempty attrServerAddress r.serverAddress ∅
  let attrs := if r.serverPort = 0 then attrs else attrs.insert attrServerPort (lit (toString r.serverPort))
  let attrs := putNonempty attrNetworkTransport r.networkTransport attrs
  let attrs := putNonempty attrNetworkProtocol r.networkProtocolName attrs
  let attrs := r.attributes.entries.foldl (fun attrs kv =>
    if kv.1 ∈ identityAttrs then attrs else attrs.insert kv.1 kv.2) attrs
  let attrs := attrs.insert attrTenantID r.tenantID
  let attrs := attrs.insert attrAgentID r.agentID
  attrs.insert attrCanaryType r.canaryType

def labelNames : List (Bytes × Bytes) :=
  [(attrTenantID, lit "tenant_id"), (attrAgentID, lit "agent_id"), (attrCanaryType, lit "canary_type"),
    (attrServerAddress, lit "server_address"), (attrTestID, lit "test_id")]

def promoteOne (attrs labels : Labels) (name : Bytes × Bytes) : Labels :=
  match attrs.lookup name.1 with
  | some v => labels.insert name.2 v
  | none => labels

def promote (names : List (Bytes × Bytes)) (attrs : Labels) : Labels := names.foldl (promoteOne attrs) ∅

/-- Every rune outside the metric alphabet becomes one underscore; `skip` are the
bytes left of the rune that was just replaced. -/
def sanitizeFrom : (skip : Nat) → Bytes → Bytes
  | _, [] => []
  | skip + 1, _ :: rest => sanitizeFrom skip rest
  | 0, b :: rest =>
    if isLower b || isUpper b || isDigit b || b == 95 then b :: sanitizeFrom 0 rest
    else 95 :: sanitizeFrom (runeWidth (b :: rest) - 1) rest

def sanitize (s : Bytes) : Bytes := sanitizeFrom 0 s

def metricPrefix : Bytes := lit "probectl_probe_"

def resultToSeries (r : Result) : List Series :=
  let labels := promote labelNames (resultAttributes r)
  ⟨metricPrefix ++ lit "success", labels, 0⟩ :: ⟨metricPrefix ++ lit "duration_seconds", labels, 0⟩ ::
    r.metrics.map fun name => ⟨metricPrefix ++ sanitize name, labels, 0⟩

structure TopicGroup where
  topic : Bytes
  group : Bytes
  verify : Bool
  laneTenant : Bytes
  deriving DecidableEq

structure Consumer where
  group : Bytes
  namespaces : List Bytes
  nsTenants : Bytes → Bytes
  binding : Option TenantBinding
  strictLane : Bool

namespace Consumer

def baseTopics (c : Consumer) : List TopicGroup :=
  [⟨networkResultsTopic, c.group, false, []⟩, ⟨endpointResultsTopic, c.group ++ lit "-endpoint", true, []⟩,
    ⟨rumEventsTopic, c.group ++ lit "-rum", false, []⟩]

def resultTopics (c : Consumer) : List TopicGroup :=
  c.baseTopics ++ c.namespaces.flatMap fun ns =>
    if !validNamespace ns || ns == [] then []
    else c.baseTopics.filterMap fun b =>
      match topicFor ns b.topic with
      | .error _ => none
      | .ok t => some ⟨t, b.group ++ lit "-" ++ ns, b.verify, c.nsTenants ns⟩

inductive RunError where
  | refusingWithoutBinding (topic : Bytes)
  deriving DecidableEq

/-- The lanes `Run` subscribes, or its refusal to open a verifying lane without
a registry. -/
def run (c : Consumer) : Except RunError (List TopicGroup) :=
  match c.binding, c.resultTopics.find? (·.verify) with
  | none, some s => .error (.refusingWithoutBinding s.topic)
  | _, _ => .ok c.resultTopics

end Consumer

/-- `tenantFromKey` of the pipeline package: everything in front of the first bar. -/
def tenantFromKey (key : Bytes) : Bytes := key.takeWhile (· != 124)

def preAdmit (w : World Result) (msg : Message) (lane : TopicGroup) : Bool :=
  let tenant := if lane.laneTenant = [] then tenantFromKey msg.key else lane.laneTenant
  admits w tenant .bytes msg.value.length

structure WriteItem where
  series : List Series
  msg : Message
  r : Result
  sourceTopic : Bytes
  bytes : Nat

/-- How the record reaches the write stage: in the handler itself, or over the
bounded queue, which may be full, may not take it before the context ends, and
may not answer before the context ends. -/
inductive Stage where
  | direct
  | queued (full enqueued awaited : Bool)

namespace Consumer

/-- The tenant the record is stored under; `none` rejects it. -/
def authorize (c : Consumer) (lane : TopicGroup) (msg : Message) (r : Result) : Option Verified :=
  if lane.verify || lane.laneTenant != [] then
    let binding := if lane.verify then c.binding else none
    (verifyBatchTenantStrict binding lane.laneTenant c.strictLane [⟨r.tenantID, r.agentID, r.agentVersion⟩]).toOption
  else
    let keyTenant := Bus.tenantFromKey msg.key
    if keyTenant = [] ∨ r.tenantID ≠ keyTenant then none else some ⟨keyTenant, false, none⟩

def prepare (c : Consumer) (w : World Result) (lane : TopicGroup) (msg : Message) (s : State) :
    Prepared WriteItem :=
  let s := s.receive
  match laneGate w msg lane.laneTenant State.refuse s with
  | some (s, err) => .done s err
  | none =>
    if !preAdmit w msg lane then .done s.shedOne none
    else
      match w.unmarshal msg.value with
      | none => .done s.malform none
      | some r =>
        match c.authorize lane msg r with
        | none => .done s.reject none
        | some v =>
          let s := { s with versions := s.versions ++ v.recorded.toList }
          let r := { r with tenantID := v.tenant }
          if !admits w r.tenantID .results 1 then .done s.shedOne none
          else
            let (card, series, stats) := filterDetailed s.card w.hash w.now r.tenantID r.agentID (resultToSeries r)
            let s := s.limit card stats
            if series = [] then .done s none
            else .write s ⟨series, msg, r, lane.topic, msg.value.length⟩

end Consumer

namespace WriteItem

def deadLetter (it : WriteItem) (w : World Result) (s : State) : State × List DeadLetter :=
  publishDeadLetter w (deadLetterTopicFor it.sourceTopic) it.r.tenantID it.msg s

def meterStored (it : WriteItem) : List Usage :=
  [⟨it.r.tenantID, .results, 1⟩, ⟨it.r.tenantID, .bytes, it.bytes⟩]

def writeOne (it : WriteItem) (w : World Result) (s : State) : State × Report Series :=
  let (last, answer) := writeWithRetry w
  let s := { s with retried := s.retried + last }
  let writes := List.replicate (last + 1) it.series
  match answer with
  | none => (s.store, { writes := writes, usage := it.meterStored })
  | some e =>
    if unknownWriteOutcome w e then (s, { err := some (.write e), writes := writes })
    else if e.permanentReject then
      ({ s with terminallyRejected := s.terminallyRejected + 1 }, { writes := writes })
    else
      let (after, letters) := it.deadLetter w s
      (after, { err := if s.dropped < after.dropped then some (.write e) else none
                writes := writes, published := letters })

theorem writeOne_effects (it : WriteItem) (w : World Result) (s : State) :
    ∃ n t, (it.writeOne w s).2.writes = List.replicate (n + 1) it.series ∧
      (∀ d ∈ (it.writeOne w s).2.published, d ∈ (it.deadLetter w t).2) ∧
      ∀ u ∈ (it.writeOne w s).2.usage, u ∈ it.meterStored := by
  refine ⟨(writeWithRetry w).1, { s with retried := s.retried + (writeWithRetry w).1 }, ?_⟩
  unfold writeOne
  dsimp only
  split
  · exact ⟨rfl, nofun, fun u mem => mem⟩
  split
  · exact ⟨rfl, nofun, nofun⟩
  split
  · exact ⟨rfl, nofun, nofun⟩
  · exact ⟨rfl, fun d mem => mem, nofun⟩

end WriteItem

namespace Consumer

def handleLane (c : Consumer) (w : World Result) (stage : Stage) (lane : TopicGroup) (msg : Message) (s : State) :
    State × Report Series :=
  match c.prepare w lane msg s with
  | .done s err => (s, { err := err })
  | .write s it =>
    match stage with
    | .direct => it.writeOne w s
    | .queued full enqueued awaited =>
      let s := if full then { s with writeQueueSaturated := s.writeQueueSaturated + 1 } else s
      if !enqueued then (s, { err := some .ctx })
      else
        let (s, report) := it.writeOne w s
        (s, { report with err := if awaited then report.err else some .ctx })

theorem handleLane_effects (c : Consumer) (w : World Result) (stage : Stage) (lane : TopicGroup) (msg : Message)
    (s : State) :
    ((c.handleLane w stage lane msg s).2.writes = [] ∧ (c.handleLane w stage lane msg s).2.published = [] ∧
      (c.handleLane w stage lane msg s).2.usage = []) ∨
    ∃ t it u, c.prepare w lane msg s = .write t it ∧
      (c.handleLane w stage lane msg s).2.writes = (it.writeOne w u).2.writes ∧
      (c.handleLane w stage lane msg s).2.published = (it.writeOne w u).2.published ∧
      (c.handleLane w stage lane msg s).2.usage = (it.writeOne w u).2.usage := by
  unfold handleLane
  cases prepared : c.prepare w lane msg s with
  | done t err => exact .inl ⟨rfl, rfl, rfl⟩
  | write t it =>
    cases stage with
    | direct => exact .inr ⟨t, it, t, rfl, rfl, rfl, rfl⟩
    | queued full enqueued awaited =>
      cases enqueued with
      | false => exact .inl ⟨rfl, rfl, rfl⟩
      | true => exact .inr ⟨t, it, _, rfl, rfl, rfl, rfl⟩

end Consumer

end Probectl.Pipeline
