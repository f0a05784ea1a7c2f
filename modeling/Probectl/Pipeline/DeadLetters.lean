import Probectl.Pipeline.Planes

/-! Where the telemetry consumers publish a record whose store write is
exhausted. The result, device and flow consumers look the topic up from the lane
the record came on; the OTLP consumers were given one when they were built. -/
namespace Probectl.Pipeline

open Bus Strings OTLPConsumer

variable {μ ρ : Type}

variable {w : World OTLPRequest}

variable {d : DeadLetter}

theorem writeOne_laneBound (it : WriteItem) (w : World Result) (s : State)
    (mem : d ∈ (it.writeOne w s).2.published) : LaneBound it.sourceTopic d.msg.topic := by
  obtain ⟨n, t, _, letters, _⟩ := it.writeOne_effects w s
  exact publishDeadLetter_laneBound w _ _ _ _ (letters d mem)

variable {msg : Message} {s : State}

theorem finishBatch_laneBound {w : World μ}
    (mem : d ∈ (finishBatch wired w retry lane tenant msg rows usage s).2.published) :
    LaneBound lane d.msg.topic := by
  unfold finishBatch at mem
  split at mem
  case h_1 => cases mem
  case h_2 =>
    split at mem
    · cases mem
    unfold publishLaneLetter at mem
    split at mem
    · cases mem
    · exact publishDeadLetter_laneBound w _ _ _ _ mem

variable {signal : Signal}

theorem processOTLP_topic
    (mem : d ∈ (processOTLP signal w msg rows s).2.published) : d.msg.topic = signal.dlqTopic := by
  unfold processOTLP at mem
  dsimp only at mem
  split at mem
  case h_1 => cases mem
  case h_2 =>
    split at mem
    · cases mem
    · obtain rfl := List.mem_singleton.mp mem
      rfl

variable {lane : TopicGroup} {c : Consumer}

theorem prepare_sourceTopic {w : World Result} (prepared : c.prepare w lane msg s = .write t it) : it.sourceTopic = lane.topic := by
  unfold Consumer.prepare at prepared
  dsimp only at prepared
  repeat' split at prepared
  all_goals cases prepared
  rfl

theorem handleLane_laneBound {w : World Result}
    (mem : d ∈ (c.handleLane w stage lane msg s).2.published) :
    LaneBound lane.topic d.msg.topic := by
  rcases c.handleLane_effects w stage lane msg s with ⟨_, none, _⟩ | ⟨t, it, u, prepared, _, same, _⟩
  · rw [none] at mem
    cases mem
  · rw [same] at mem
    exact prepare_sourceTopic prepared ▸ writeOne_laneBound it w u mem

theorem runLane_published (w : World OTLPRequest) (lane : LaneSub) (msg : Message) (handler : State → State × Report ρ)
    (s : State) : (runLane w lane msg handler s).2.published =
      if (laneGate w msg lane.laneTenant id s).isNone then (handler s).2.published else [] := by
  unfold runLane
  cases laneGate w msg lane.laneTenant id s with
  | some refused => rfl
  | none =>
    dsimp only
    split
    · split <;> rfl
    · rfl

theorem runLane_topic {lane : LaneSub}
    (mem : d ∈ (runLane w lane msg (handle signal w msg prepared) s).2.published) :
    d.msg.topic = signal.dlqTopic := by
  rw [runLane_published] at mem
  split at mem
  case isFalse => cases mem
  case isTrue =>
    unfold handle at mem
    split at mem
    · cases mem
    · exact processOTLP_topic mem

theorem dlqTopic_own (signal : Signal) : LaneBound signal.topic signal.dlqTopic := by
  cases signal <;> exact laneBound_of_topic (by decide)

inductive Telemetry where
  | results (c : Consumer)
  | device (c : DeviceConsumer)
  | flow (c : FlowConsumer)
  | otlp (signal : Signal) (c : OTLPConsumer)

namespace Telemetry

def lanes : Telemetry → List LaneSub
  | .results c => (c.run.toOption.getD []).map fun g => ⟨g.topic, g.group, g.laneTenant⟩
  | .device c => c.lanes.toOption.getD []
  | .flow c => c.lanes.toOption.getD []
  | .otlp signal c => (c.lanes signal).toOption.getD []

def Emits : Telemetry → LaneSub → DeadLetter → Prop
  | .results c, lane, d => ∃ w stage verify msg s,
      d ∈ (c.handleLane w stage ⟨lane.topic, lane.group, verify, lane.laneTenant⟩ msg s).2.published
  | .device c, lane, d => ∃ w msg s, d ∈ (c.handleLane w lane msg s).2.published
  | .flow c, lane, d => ∃ w captured msg s, d ∈ (c.handleLane w captured lane msg s).2.published
  | .otlp .metrics _, lane, d => ∃ w convert msg s,
      d ∈ (handleMetrics w convert lane msg s).2.published
  | .otlp .traces _, lane, d => ∃ w msg s, d ∈ (handleTraces w lane msg s).2.published
  | .otlp .logs _, lane, d => ∃ w msg s, d ∈ (handleLogs w lane msg s).2.published

def KeepsLane (t : Telemetry) (lane : LaneSub) : Prop := ∀ d, t.Emits lane d → LaneBound lane.topic d.msg.topic

end Telemetry

def outage : World OTLPRequest where
  unmarshal := fun _ => some ⟨[⟨[], 1⟩]⟩
  tenancy := ⟨fun _ => false, fun _ => .failed⟩
  gate := none
  hash := id
  now := 0
  store := fun _ => some {}
  ctxErr := fun _ => false
  ctxErrAfter := false
  publish := true

def keyed : Message := ⟨[], [116], []⟩

theorem outage_passes (laneTenant : Bytes) (s : State) : laneGate outage keyed laneTenant id s = none := by
  by_cases shared : laneTenant = []
  · subst shared
    rfl
  · simp [laneGate, refuseSharedOrQuarantined, shared, outage]

theorem outage_reaches (preAdmits : Bool) {convert : OTLPRequest → Bytes → List ρ} (laneTenant : Bytes)
    (rows : ∀ tenant, convert ⟨[⟨[(attrTenantID, tenant)], 1⟩]⟩ tenant ≠ [])
    (kept : ∀ tenant rows, (cap tenant rows s.receive).2 = rows) :
    ∃ t b, prepareOTLP outage preAdmits convert cap laneTenant keyed s = .write t b := by
  have named : otlpTenantFromLaneOrKey keyed laneTenant ≠ [] := by
    unfold otlpTenantFromLaneOrKey
    split
    · decide
    · assumption
  generalize tenantIs : otlpTenantFromLaneOrKey keyed laneTenant = tenant at named
  have stamped : scopeToBusTenant ⟨[⟨[], 1⟩]⟩ tenant = .ok ⟨[⟨[(attrTenantID, tenant)], 1⟩]⟩ := by
    simp [scopeToBusTenant, stampOTLPResourceTenant, named]
  have nonempty := rows tenant
  simp [prepareOTLP, tenantIs, outage, admits, stamped, nonempty, kept]

theorem outage_published (signal : Signal) (lane : LaneSub) {prepared : State → Prepared (Batch ρ)}
    (reaches : ∃ t b, prepared {} = .write t b) :
    ⟨[116], ⟨signal.dlqTopic, [116], []⟩, true⟩ ∈
      (runLane outage lane keyed (handle signal outage keyed prepared) {}).2.published := by
  obtain ⟨t, b, prepared⟩ := reaches
  rw [runLane_published, outage_passes]
  simp only [handle, prepared]
  exact List.mem_singleton_self _

theorem outage_emits (signal : Signal) (c : OTLPConsumer) (lane : LaneSub) :
    (Telemetry.otlp signal c).Emits lane ⟨[116], ⟨signal.dlqTopic, [116], []⟩, true⟩ := by
  have spans : ∀ tenant, convertRows ⟨[⟨[(attrTenantID, tenant)], 1⟩]⟩ tenant ≠ [] := by
    simp [convertRows]
  cases signal with
  | metrics =>
    refine ⟨outage, fun _ _ => [⟨[], ∅, 0⟩], keyed, {}, outage_published .metrics lane ?_⟩
    exact outage_reaches true lane.laneTenant (fun _ => List.cons_ne_nil _ _) (fun _ _ => rfl)
  | traces =>
    refine ⟨outage, keyed, {}, outage_published .traces lane ?_⟩
    exact outage_reaches false lane.laneTenant spans (fun _ _ => rfl)
  | logs =>
    refine ⟨outage, keyed, {}, outage_published .logs lane ?_⟩
    exact outage_reaches false lane.laneTenant spans (fun _ _ => rfl)

/-- A consumer keeps its dead letters in the lane unless it is an OTLP one and the
lane is not the shared one. -/
theorem dead_letters_keep_lane_iff (t : Telemetry) (lane : LaneSub) :
    t.KeepsLane lane ↔ ∀ signal c, t = .otlp signal c → lane.topic = signal.topic := by
  constructor
  · rintro keeps signal c rfl
    -- the one dead-letter topic of the signal replays into one lane, the shared one
    have pooled := keeps _ (outage_emits signal c lane)
    exact Option.some.inj (pooled.2.symm.trans (dlqTopic_own signal).2)
  · intro shared d emitted
    cases t with
    | results c =>
      obtain ⟨w, stage, verify, msg, s, mem⟩ := emitted
      exact handleLane_laneBound mem
    | device c =>
      obtain ⟨w, msg, s, mem⟩ := emitted
      unfold DeviceConsumer.handleLane at mem
      split at mem
      · cases mem
      · exact finishBatch_laneBound mem
    | flow c =>
      obtain ⟨w, captured, msg, s, mem⟩ := emitted
      unfold FlowConsumer.handleLane at mem
      split at mem
      · cases mem
      · exact finishBatch_laneBound mem
    | otlp signal c =>
      have topic : d.msg.topic = signal.dlqTopic := by
        cases signal with
        | metrics =>
          obtain ⟨w, convert, msg, s, mem⟩ := emitted
          exact runLane_topic mem
        | traces | logs =>
          obtain ⟨w, msg, s, mem⟩ := emitted
          exact runLane_topic mem
      rw [topic, shared signal c rfl]
      exact dlqTopic_own signal

def siloedOTLP : OTLPConsumer := ⟨[(lit "t-acme", lit "acme")]⟩

def siloedTraces : LaneSub :=
  ⟨lit "probectl.t-acme.otlp.traces", lit "otlp-traces-t-acme", lit "acme"⟩

/-- The silo's spans go to the pooled dead-letter topic and replay into the
shared lane. -/
theorem siloed_traces_leave_lane :
    siloedTraces ∈ (Telemetry.otlp .traces siloedOTLP).lanes ∧
      (∃ d, (Telemetry.otlp .traces siloedOTLP).Emits siloedTraces d ∧
        d.msg.topic = deadLetterOTLPTracesTopic ∧
        deadLetterTopicFor siloedTraces.topic = .ok (lit "probectl.t-acme.deadletter.otlp.traces") ∧
        sourceTopicForDeadLetter d.msg.topic = some otlpTracesTopic) ∧
      ¬ (Telemetry.otlp .traces siloedOTLP).KeepsLane siloedTraces := by
  have emitted := outage_emits .traces siloedOTLP siloedTraces
  refine ⟨by decide, ⟨_, emitted, rfl, by decide, by decide⟩, fun keeps => ?_⟩
  have lane := (keeps _ emitted).2
  revert lane
  decide

end Probectl.Pipeline
