import Probectl.Pipeline.Results

/-! The device, flow and OTLP consumers: `device.go`, `flow.go`, `otlp.go`,
`otlpsignals.go`, `otlptenant.go`, `otlpdlq.go` and `lanes.go` of
`internal/pipeline`. -/
namespace Probectl.Pipeline

open Bus Strings List

structure LaneSub where
  topic : Bytes
  group : Bytes
  laneTenant : Bytes
  deriving DecidableEq

/-- The shared topic and one lane for each namespace; a namespace the bus does
not take stops the consumer. -/
def laneSubs (topic group : Bytes) (nsTenants : List (Bytes × Bytes)) : Except TopicError (List LaneSub) := do
  let lanes ← nsTenants.mapM fun (ns, tid) => do
    let t ← topicFor ns topic
    pure ⟨t, group ++ lit "-" ++ ns, tid⟩
  pure (⟨topic, group, []⟩ :: lanes)

/-- The dead-letter publish of the device and flow consumers, which may run
without a bus. -/
def publishLaneLetter {μ : Type} (wired : Bool) (w : World μ) (laneTopic tenant : Bytes) (msg : Message) (s : State) :
    State × List DeadLetter :=
  if !wired then (s.drop, []) else publishDeadLetter w (deadLetterTopicFor laneTopic) tenant msg s

def finishBatch {μ ρ : Type} (wired : Bool) (w : World μ) (retry : Nat × Option WriteError) (laneTopic tenant : Bytes)
    (msg : Message) (rows : List ρ) (usage : List Usage) (s : State) : State × Report ρ :=
  let s := { s with retried := s.retried + retry.1 }
  let writes := replicate (retry.1 + 1) rows
  match retry.2 with
  | none => (s.store, { writes := writes, usage := usage })
  | some e =>
    if unknownWriteOutcome w e then (s, { err := some (.write e), writes := writes })
    else
      let (s, letters) := publishLaneLetter wired w laneTopic tenant msg s
      (s, { writes := writes, published := letters })

structure Batch (ρ : Type) where
  tenant : Bytes
  rows : List ρ

section Device

structure DeviceMetric where
  tenantID : Bytes
  agentID : Bytes
  name : Bytes
  deviceAddress : Bytes
  deviceName : Bytes
  source : Bytes
  ifIndex : Nat
  ifName : Bytes
  deriving DecidableEq

structure DeviceBatch where
  agentVersion : Bytes
  metrics : List DeviceMetric

def attrDeviceAddress : Bytes := lit "probectl.device.address"
def attrDeviceName : Bytes := lit "probectl.device.name"
def attrDeviceSource : Bytes := lit "probectl.device.source"
def attrDeviceIfIndex : Bytes := lit "probectl.device.interface.index"
def attrDeviceIfName : Bytes := lit "probectl.device.interface.name"

def deviceMetricAttributes (m : DeviceMetric) : Labels :=
  let attrs := (∅ : Labels).insert attrTenantID m.tenantID
  let attrs := putNonempty attrAgentID m.agentID attrs
  let attrs := putNonempty attrDeviceAddress m.deviceAddress attrs
  let attrs := putNonempty attrDeviceName m.deviceName attrs
  let attrs := putNonempty attrDeviceSource m.source attrs
  let attrs := if m.ifIndex = 0 then attrs else attrs.insert attrDeviceIfIndex (lit (toString m.ifIndex))
  putNonempty attrDeviceIfName m.ifName attrs

def deviceLabelNames : List (Bytes × Bytes) :=
  [(attrTenantID, lit "tenant_id"), (attrAgentID, lit "agent_id"), (attrDeviceAddress, lit "device"),
    (attrDeviceName, lit "device_name"), (attrDeviceSource, lit "source"), (attrDeviceIfIndex, lit "if_index"),
    (attrDeviceIfName, lit "if_name")]

/-- The namespace is dropped only in front of something. -/
def trimDevicePrefix (name : Bytes) : Bytes :=
  match cutPrefix name (lit "probectl.device.") with
  | some rest => if rest = [] then name else rest
  | none => name

def deviceMetricToSeries (labelsID : Nat) (m : DeviceMetric) : Series :=
  ⟨lit "probectl_device_" ++ sanitize (trimDevicePrefix m.name),
    promote deviceLabelNames (deviceMetricAttributes m), labelsID⟩

structure DeviceConsumer where
  wired : Bool
  group : Bytes
  nsTenants : List (Bytes × Bytes)
  binding : Option TenantBinding
  strictLane : Bool

namespace DeviceConsumer

def lanes (c : DeviceConsumer) : Except TopicError (List LaneSub) :=
  laneSubs deviceMetricsTopic c.group c.nsTenants

def prepare (c : DeviceConsumer) (w : World DeviceBatch) (laneTenant : Bytes) (msg : Message) (s : State) :
    Prepared (Batch Series) :=
  let s := s.receive
  match laneGate w msg laneTenant State.refuse s with
  | some (s, err) => .done s err
  | none =>
    match w.unmarshal msg.value with
    | none => .done s.malform none
    | some batch =>
      match batch.metrics with
      | [] => .done s none
      | first :: _ =>
        let ids := batch.metrics.map fun m => ⟨m.tenantID, m.agentID, batch.agentVersion⟩
        match verifyBatchTenantStrict c.binding laneTenant c.strictLane ids with
        | .error _ => .done s.reject none
        | .ok v =>
          let s := { s with versions := s.versions ++ v.recorded.toList }
          if !admits w v.tenant .deviceMetrics batch.metrics.length then
            .done { s.shedOne with shed := s.shed + 1 } none
          else
            let series := batch.metrics.mapIdx fun i m => deviceMetricToSeries i { m with tenantID := v.tenant }
            let (card, series, stats) := filterDetailed s.card w.hash w.now v.tenant first.agentID series
            let s := s.limit card stats
            if series = [] then .done s none else .write s ⟨v.tenant, series⟩

def handleLane (c : DeviceConsumer) (w : World DeviceBatch) (lane : LaneSub) (msg : Message) (s : State) :
    State × Report Series :=
  match c.prepare w lane.laneTenant msg s with
  | .done s err => (s, { err := err })
  | .write s b => finishBatch c.wired w (writeWithRetry w) lane.topic b.tenant msg b.rows [] s

end DeviceConsumer

end Device

section Flow

structure FlowRecord where
  tenantID : Bytes
  agentID : Bytes
  deriving DecidableEq

structure FlowBatch where
  agentVersion : Bytes
  flows : List FlowRecord

structure FlowConsumer where
  wired : Bool
  topic : Bytes
  group : Bytes
  nsTenants : List (Bytes × Bytes)
  binding : Option TenantBinding
  strictLane : Bool

namespace FlowConsumer

def lanes (c : FlowConsumer) : Except TopicError (List LaneSub) := laneSubs c.topic c.group c.nsTenants

/-- `captured` says that the capture store resolved the batch. -/
def prepare (c : FlowConsumer) (w : World FlowBatch) (captured : Bool) (laneTenant : Bytes) (msg : Message)
    (s : State) : Prepared (Batch FlowRecord) :=
  let s := s.receive
  match laneGate w msg laneTenant State.refuse s with
  | some (s, err) => .done s err
  | none =>
    match w.unmarshal msg.value with
    | none => .done s.malform none
    | some batch =>
      if batch.flows = [] then .done s none
      else
        let ids := batch.flows.map fun f => ⟨f.tenantID, f.agentID, batch.agentVersion⟩
        match verifyBatchTenantStrict c.binding laneTenant c.strictLane ids with
        | .error _ => .done s.reject none
        | .ok v =>
          let s := { s with
            versions := s.versions ++ v.recorded.toList
            overwritten := s.overwritten + v.overwritten.toNat }
          if !admits w v.tenant .flowEvents batch.flows.length then .done s.shedOne none
          else if !captured then .done s (some .capture)
          else .write s ⟨v.tenant, batch.flows.map fun f => { f with tenantID := v.tenant }⟩

def handleLane (c : FlowConsumer) (w : World FlowBatch) (captured : Bool) (lane : LaneSub) (msg : Message)
    (s : State) : State × Report FlowRecord :=
  match c.prepare w captured lane.laneTenant msg s with
  | .done s err => (s, { err := err })
  | .write s b =>
    finishBatch c.wired w (insertWithRetry w) lane.topic b.tenant msg b.rows [⟨b.tenant, .flowEvents, b.rows.length⟩] s

end FlowConsumer

end Flow

section OTLP

inductive Signal where
  | metrics | traces | logs
  deriving DecidableEq

def Signal.topic : Signal → Bytes
  | .metrics => otlpMetricsTopic
  | .traces => otlpTracesTopic
  | .logs => otlpLogsTopic

def Signal.group : Signal → Bytes
  | .metrics => lit "otlp-metrics"
  | .traces => lit "otlp-traces"
  | .logs => lit "otlp-logs"

def Signal.dlqTopic : Signal → Bytes
  | .metrics => deadLetterOTLPMetricsTopic
  | .traces => deadLetterOTLPTracesTopic
  | .logs => deadLetterOTLPLogsTopic

/-- A resource with its attributes, an empty value for one that is no string, and
the number of spans or log records under it. -/
structure OTLPResource where
  attributes : List (Bytes × Bytes)
  items : Nat
  deriving DecidableEq

structure OTLPRequest where
  resources : List OTLPResource

inductive OTLPTenantError where
  | noTenant | resourceTenantMismatch
  deriving DecidableEq

def stampOTLPResourceTenant (res : OTLPResource) (tenant : Bytes) : Except OTLPTenantError OTLPResource :=
  if tenant = [] then .error .noTenant
  else if res.attributes.any fun kv => kv.1 == attrTenantID && kv.2 != [] && kv.2 != tenant then
    .error .resourceTenantMismatch
  else .ok { res with attributes := res.attributes.filter (fun kv => kv.1 != attrTenantID) ++ [(attrTenantID, tenant)] }

/-- `scopeOTLPMetricsToBusTenant`, `scopeOTLPTracesToBusTenant` and
`scopeOTLPLogsToBusTenant`. -/
def scopeToBusTenant (req : OTLPRequest) (tenant : Bytes) : Except OTLPTenantError OTLPRequest := do
  let resources ← req.resources.mapM fun res => stampOTLPResourceTenant res tenant
  pure ⟨resources⟩

def otlpTenantFromLaneOrKey (msg : Message) (laneTenant : Bytes) : Bytes :=
  if laneTenant = [] then tenantFromKey msg.key else laneTenant

/-- The three handlers in front of the store. Only the metrics one bounds the
bytes before it decodes and caps its series. -/
def prepareOTLP {ρ : Type} (w : World OTLPRequest) (preAdmits : Bool) (convert : OTLPRequest → Bytes → List ρ)
    (cap : Bytes → List ρ → State → State × List ρ) (laneTenant : Bytes) (msg : Message) (s : State) :
    Prepared (Batch ρ) :=
  let s := s.receive
  let tenant := otlpTenantFromLaneOrKey msg laneTenant
  if preAdmits && !admits w tenant .bytes msg.value.length then .done { s.shedOne with shed := s.shed + 1 } none
  else
    match w.unmarshal msg.value with
    | none => .done s.malform none
    | some req =>
      match scopeToBusTenant req tenant with
      | .error _ => .done s.reject none
      | .ok req =>
        let rows := convert req tenant
        if rows.isEmpty then .done s none
        else if !admits w tenant .otlpSeries rows.length then
          .done { s.shedOne with shed := s.shed + rows.length } none
        else
          let (s, rows) := cap tenant rows s
          if rows.isEmpty then .done s none else .write s ⟨tenant, rows⟩

/-- `otlpDLQ.process` and what its caller counts behind it. -/
def processOTLP {ρ : Type} (signal : Signal) (w : World OTLPRequest) (msg : Message) (rows : List ρ) (s : State) :
    State × Report ρ :=
  let (last, answer) := insertWithRetry w
  let s := { s with retried := s.retried + last }
  let writes := replicate (last + 1) rows
  match answer with
  | none => ({ s.store with consumed := s.consumed + rows.length }, { writes := writes })
  | some e =>
    if unknownWriteOutcome w e then (s, { err := some (.write e), writes := writes })
    else
      let (s, letters) := publishDeadLetter w (.ok signal.dlqTopic) (tenantFromKey msg.key) msg s
      (s, { writes := writes, published := letters })

structure OTelRow where
  tenantID : Bytes
  deriving DecidableEq

def convertRows (req : OTLPRequest) (tenant : Bytes) : List OTelRow :=
  req.resources.flatMap fun res => replicate res.items ⟨tenant⟩

structure OTLPConsumer where
  nsTenants : List (Bytes × Bytes)

namespace OTLPConsumer

def lanes (c : OTLPConsumer) (signal : Signal) : Except TopicError (List LaneSub) :=
  laneSubs signal.topic signal.group c.nsTenants

/-- What `RunLanes` puts around a handler: the lane gate in front of it, and
behind it the acknowledgement of a quarantine refusal. -/
def runLane {ρ : Type} (w : World OTLPRequest) (lane : LaneSub) (msg : Message)
    (handler : State → State × Report ρ) (s : State) : State × Report ρ :=
  match laneGate w msg lane.laneTenant id s with
  | some (s, err) => (s, { err := err })
  | none =>
    match handler s with
    | (s, report) =>
      match report.err with
      | some (.write e) =>
        if e.tenantQuarantined then
          ({ s with quarantineDropped := s.quarantineDropped + 1 }, { report with err := none })
        else (s, report)
      | _ => (s, report)

def handle {ρ : Type} (signal : Signal) (w : World OTLPRequest) (msg : Message) (prepared : State → Prepared (Batch ρ))
    (s : State) : State × Report ρ :=
  match prepared s with
  | .done s err => (s, { err := err })
  | .write s b => processOTLP signal w msg b.rows s

/-- `convert` flattens the metric points into labelled series. -/
def handleMetrics (w : World OTLPRequest) (convert : OTLPRequest → Bytes → List Series) (lane : LaneSub)
    (msg : Message) (s : State) : State × Report Series :=
  runLane w lane msg (handle .metrics w msg (prepareOTLP w true convert (fun tenant series s =>
    let (card, series, stats) := filterDetailed s.card w.hash w.now tenant [] series
    (s.limit card stats, series)) lane.laneTenant msg)) s

/-- The handlers of spans and of log records, which differ in their topics only. -/
def handleRows (signal : Signal) (w : World OTLPRequest) (lane : LaneSub) (msg : Message) (s : State) :
    State × Report OTelRow :=
  runLane w lane msg (handle signal w msg
    (prepareOTLP w false convertRows (fun _ rows s => (s, rows)) lane.laneTenant msg)) s

def handleTraces := handleRows .traces

def handleLogs := handleRows .logs

end OTLPConsumer

/-! Whose record it is: `tenantFromKey` of both packages. -/

/-- A key that ends in a bucket as `TenantKey` writes it. -/
def Bucketed (key tenant : Bytes) : Prop :=
  ∃ bucket : UInt8, 97 ≤ bucket ∧ bucket < 97 + Bus.tenantBuckets ∧ key = tenant ++ [124, 98, bucket]

/-- The parser of the bus takes nothing off a key, or a bucket. -/
theorem tenantFromKey_cases (key : Bytes) :
    Bus.tenantFromKey key = key ∨ Bucketed key (Bus.tenantFromKey key) := by
  unfold Bus.tenantFromKey
  dsimp only
  split
  · rename_i bar b bucket suffix
    split
    · rename_i exact
      obtain ⟨rfl, rfl, low, high⟩ := exact
      have whole := key.take_append_drop (key.length - 3)
      rw [suffix] at whole
      exact .inr ⟨bucket, low, high, whole.symm⟩
    · exact .inl rfl
  · exact .inl rfl

theorem tenantFromKey_bucketed {key tenant : Bytes} (bucketed : Bucketed key tenant) :
    Bus.tenantFromKey key = tenant := by
  obtain ⟨bucket, low, high, rfl⟩ := bucketed
  simp [Bus.tenantFromKey, low, high]

/-- On a shared lane the gate judges the tenant that the OTLP consumers store a record under, and that
fairness charges for it, exactly if the key has no bar or one alone, in front of its bucket. -/
theorem key_parsers_agree_iff (msg : Message) :
    (tenantFromKey msg.key = Bus.tenantFromKey msg.key ↔
        124 ∉ msg.key ∨ ∃ tenant, 124 ∉ tenant ∧ Bucketed msg.key tenant) ∧
      (otlpTenantFromLaneOrKey msg [] = Bus.tenantFromKey msg.key ↔
        124 ∉ msg.key ∨ ∃ tenant, 124 ∉ tenant ∧ Bucketed msg.key tenant) := by
  suffices agree : tenantFromKey msg.key = Bus.tenantFromKey msg.key ↔
      124 ∉ msg.key ∨ ∃ tenant, 124 ∉ tenant ∧ Bucketed msg.key tenant from ⟨agree, agree⟩
  have kept {tenant : Bytes} (clean : 124 ∉ tenant) : ∀ b ∈ tenant, (b != 124) = true := by
    intro b mem
    exact bne_iff_ne.mpr (ne_of_mem_of_not_mem mem clean)
  constructor
  · intro same
    have clean : 124 ∉ Bus.tenantFromKey msg.key := by
      rw [← same]
      intro bar
      exact absurd (mem_takeWhile_imp bar) (by decide)
    rcases tenantFromKey_cases msg.key with whole | bucketed
    · exact .inl (whole ▸ clean)
    · exact .inr ⟨_, clean, bucketed⟩
  · rintro (clean | ⟨tenant, clean, bucketed⟩)
    · rcases tenantFromKey_cases msg.key with whole | ⟨bucket, _, _, cut⟩
      · rw [whole]
        exact takeWhile_eq_self_iff.mpr (kept clean)
      · exact absurd (cut ▸ mem_append_right _ mem_cons_self) clean
    · rw [tenantFromKey_bucketed bucketed]
      obtain ⟨bucket, _, _, cut⟩ := bucketed
      rw [cut, tenantFromKey, takeWhile_append_of_pos (kept clean)]
      simp

/-- Acme is quarantined, and every payload is one span. -/
def quarantinedAcme : World OTLPRequest where
  unmarshal := fun _ => some ⟨[⟨[], 1⟩]⟩
  tenancy := ⟨fun _ => false, fun tenant => if tenant = lit "acme" then .quarantined else .failed⟩
  gate := none
  hash := id
  now := 0
  store := fun _ => none
  ctxErr := fun _ => false
  ctxErrAfter := false
  publish := true

/-- A bar in the key hides the tenant from the gate, and its span is stored under that tenant. -/
theorem barred_key_passes :
    refuseMisroutedShared quarantinedAcme.tenancy ⟨[], lit "acme", []⟩ = .quarantineDrop ∧
      Bus.tenantFromKey (lit "acme|x") = lit "acme|x" ∧ tenantFromKey (lit "acme|x") = lit "acme" ∧
      (OTLPConsumer.handleTraces quarantinedAcme ⟨[], [], []⟩ ⟨[], lit "acme|x", []⟩ {}).2.writes = [[⟨lit "acme"⟩]] := by
  decide

end OTLP

end Probectl.Pipeline
