import Probectl.Pipeline.Planes

/-! When a telemetry consumer acknowledges a record: the handler returns no error
and the bus commits the offset. -/
namespace Probectl.Pipeline

open Bus List Retry OTLPConsumer DeviceConsumer State FlowConsumer

variable {μ ρ : Type}

/-- What the store answers, attempt by attempt, what the context says meanwhile,
and what the bus says to the dead letter. -/
structure Outcomes where
  store : Nat → Option WriteError
  ctxErr : Nat → Bool
  ctxErrAfter : Bool
  publish : Bool

def World.outcomes (w : World μ) : Outcomes := ⟨w.store, w.ctxErr, w.ctxErrAfter, w.publish⟩

/-- The write ends in a failure that is no permanent reject and whose outcome is
known. `ends` says that the consumer does not repeat a permanent reject. -/
def Outcomes.exhausted (o : Outcomes) (ends : Bool) : Bool :=
  match (loop o.store (fun n e => o.ctxErr n || (ends && e.permanentReject)) maxRetries 0).2 with
  | none => false
  | some e => !o.ctxErrAfter && !e.canceled && !e.permanentReject

/-- The refusals a consumer counts: malformed, of another tenant, of a tenant in
quarantine, shed by the fairness gate, over the cardinality cap. -/
def State.refusals (s : State) : Nat :=
  s.ledger.malformed + s.ledger.tenantRejected + s.ledger.fairnessShed + s.ledger.cardinalityDropped +
    s.tenantRejections + s.quarantineDropped

/-- Where an acknowledged record went. A record that `holds` nothing needs no place. -/
inductive Settled (w : World μ) (msg : Message) (holds : Prop) (s : State) (out : State × Report ρ) : Prop where
  | empty (nothing : ¬ holds) (unwritten : out.2.writes = [])
  | refused (counted : s.refusals < out.1.refusals) (unwritten : out.2.writes = [])
  | quarantined (n : Nat) (e : WriteError) (answer : w.store n = some e) (refusal : e.tenantQuarantined = true)
      (counted : s.quarantineDropped < out.1.quarantineDropped)
  | stored (n : Nat) (answer : w.store n = none) (attempts : out.2.writes.length = n + 1)
  | rejected (n : Nat) (e : WriteError) (answer : w.store n = some e) (final : e.permanentReject = true)
      (attempts : out.2.writes.length = n + 1)
  | deadLettered (d : DeadLetter) (published : d ∈ out.2.published) (taken : d.ok = true)
      (whole : d.msg.key = msg.key ∧ d.msg.value = msg.value)

def Acknowledges (w : World μ) (msg : Message) (holds : Prop) (s : State) (out : State × Report ρ) : Prop :=
  out.2.err = none → Settled w msg holds s out

variable {msg : Message} {holds : Prop} {s t : State}

theorem Settled.withErr
    (settled : Settled w msg holds s (t, r)) (err : Option HandlerError) :
    Settled w msg holds s (t, { r with err := err }) := by
  cases settled with
  | empty nothing unwritten => exact .empty nothing unwritten
  | refused counted unwritten => exact .refused counted unwritten
  | quarantined n e answer refusal counted => exact .quarantined n e answer refusal counted
  | stored n answer attempts => exact .stored n answer attempts
  | rejected n e answer final attempts => exact .rejected n e answer final attempts
  | deadLettered d published taken whole => exact .deadLettered d published taken whole

theorem writeWithRetry_answer (w : World μ) : w.store (writeWithRetry w).1 = (writeWithRetry w).2 :=
  (loop_answer _ _ _ _).symm

theorem insertWithRetry_answer (w : World μ) : w.store (insertWithRetry w).1 = (insertWithRetry w).2 :=
  (loop_answer _ _ _ _).symm

variable {retry : Nat × Option WriteError}

/-- The store has failed for good, and not with a permanent reject. -/
def Exhausts (w : World μ) (retry : Nat × Option WriteError) : Prop :=
  ∃ e, retry.2 = some e ∧ unknownWriteOutcome w e = false ∧ e.permanentReject = false

/-- The dead letter of a lane is taken. -/
def Taken (wired : Bool) (topic : Bytes) (publish : Bool) : Prop :=
  wired = true ∧ (∃ dlq, deadLetterTopicFor topic = .ok dlq) ∧ publish = true

theorem exhausted_iff {w : World μ}
    (loop : retry = loop w.store (fun n e => w.ctxErr n || (ends && e.permanentReject)) maxRetries 0) :
    w.outcomes.exhausted ends = true ↔ Exhausts w retry := by
  subst loop
  unfold Outcomes.exhausted World.outcomes Exhausts
  split
  · rename_i stored
    simp [stored]
  · rename_i e failed
    simp [failed, unknownWriteOutcome]

theorem exhausted_write (w : World μ) : w.outcomes.exhausted true = true ↔ Exhausts w (writeWithRetry w) :=
  exhausted_iff (by simp [writeWithRetry])

theorem exhausted_insert (w : World μ) : w.outcomes.exhausted false = true ↔ Exhausts w (insertWithRetry w) :=
  exhausted_iff (by simp [insertWithRetry])

variable {topic : Bytes} {tenant : Bytes}

theorem letter_settles (publish : w.publish = true)
    (letters : out.2.published = [⟨tenant, ⟨topic, msg.key, msg.value⟩, w.publish⟩]) : Settled w msg holds s out := by
  apply Settled.deadLettered _ (letters ▸ mem_singleton_self _) publish
  exact ⟨rfl, rfl⟩

theorem writeOne_acknowledges (it : WriteItem) (w : World Result) (holds : Prop) (s t : State) :
    Acknowledges w it.msg holds s (it.writeOne w t) := by
  have last := writeWithRetry_answer w
  unfold Acknowledges WriteItem.writeOne
  dsimp only
  split
  · rename_i stored
    rw [stored] at last
    exact fun _ => .stored _ last length_replicate
  rename_i e failed
  rw [failed] at last
  split
  · nofun
  split
  · rename_i final
    exact fun _ => .rejected _ e last final length_replicate
  unfold WriteItem.deadLetter publishDeadLetter
  split
  · -- the lane has no dead-letter topic, so the record counts as dropped
    simp [State.drop]
  cases publish : w.publish with
  | false => simp [State.drop]
  | true =>
    intro _
    apply letter_settles publish
    rw [publish]

variable {wired : Bool}

theorem finishBatch_acknowledges (answer : w.store retry.1 = retry.2)
    (covered : Exhausts w retry → Taken wired topic w.publish) (tenant : Bytes) (msg : Message) (rows : List ρ) (usage : List Usage) (holds : Prop) (s t : State) :
    Acknowledges w msg holds s (finishBatch wired w retry topic tenant msg rows usage t) := by
  unfold Acknowledges finishBatch
  split
  · rename_i stored
    exact fun _ => .stored _ (answer.trans stored) length_replicate
  rename_i e failed
  split
  · nofun
  rename_i known
  intro _
  by_cases final : e.permanentReject = true
  · exact .rejected _ e (answer.trans failed) final length_replicate
  obtain ⟨rfl, ⟨dlq, found⟩, publish⟩ := covered ⟨e, failed, by simpa using known, by simpa using final⟩
  unfold publishLaneLetter
  rw [found]
  exact letter_settles publish rfl

variable {w : World OTLPRequest} {signal : Signal}

theorem processOTLP_acknowledges
    (covered : w.outcomes.exhausted false = true → w.publish = true) (msg : Message) (rows : List ρ) (holds : Prop)
    (s t : State) : Acknowledges w msg holds s (processOTLP signal w msg rows t) := by
  have last := insertWithRetry_answer w
  unfold Acknowledges processOTLP
  dsimp only
  split
  · rename_i stored
    rw [stored] at last
    exact fun _ => .stored _ last length_replicate
  rename_i e failed
  rw [failed] at last
  split
  · nofun
  rename_i known
  intro _
  by_cases final : e.permanentReject = true
  · exact .rejected _ e last final length_replicate
  · have exhausted : w.outcomes.exhausted false = true :=
      (exhausted_insert w).mpr ⟨e, failed, by simpa using known, by simpa using final⟩
    exact letter_settles (covered exhausted) rfl

theorem State.malform_counts (s : State) : s.refusals < s.malform.refusals := by
  simp only [refusals, malform]
  omega

theorem State.shedOne_counts (s : State) : s.refusals < s.shedOne.refusals := by
  simp only [refusals, shedOne]
  omega

theorem State.reject_counts (s : State) : s.refusals < s.reject.refusals := by
  simp only [refusals, reject, refuse]
  omega

/-- In front of the store an acknowledged record is counted as refused or `holds`
nothing, a record may be refused with an error only if the handler is `failing`,
and what goes on to the store is as `written` says. -/
def Prepared.Accounts {β : Type} (s : State) (holds failing : Prop) (written : State → β → Prop) : Prepared β → Prop
  | .done t none => s.refusals < t.refusals ∨ ¬ holds
  | .done _ (some _) => failing
  | .write t b => written t b

variable {laneTenant : Bytes} {β : Type} {failing : Prop} {written : State → β → Prop}

theorem Prepared.Accounts.done {w : World μ}
    (accounts : (Prepared.done t err).Accounts s holds failing written) :
    Acknowledges w msg holds s (t, ({ err := err } : Report ρ)) := by
  rintro rfl
  rcases accounts with counted | nothing
  · exact .refused counted rfl
  · exact .empty nothing rfl

theorem laneGate_accounts {w : World μ}
    (own : refused = refuse ∨ refused = id) (gate : laneGate w msg laneTenant refused s = some (t, err)) :
    (Prepared.done t err).Accounts s holds True written := by
  unfold laneGate at gate
  split at gate
  · cases gate
  · cases gate
    trivial
  · cases gate
    left
    rcases own with rfl | rfl <;> simp only [refusals, refuse, id_eq] <;> omega
  · cases gate
    left
    rcases own with rfl | rfl <;> simp only [refusals, refuse, id_eq] <;> omega

theorem limit_counts {hash : Bytes → Bytes}
    (some : series ≠ []) (none : (filterDetailed s.card hash now tenant agent series).2.1 = []) :
    s.refusals < (s.limit (filterDetailed s.card hash now tenant agent series).1
      (filterDetailed s.card hash now tenant agent series).2.2).refusals := by
  have counts := filterDetailed_counts s.card hash now tenant agent series
  have size : 0 < series.length := length_pos_iff.mpr some
  rw [none, length_nil] at counts
  simp only [refusals, limit]
  omega

variable {c : Consumer} {lane : TopicGroup}

theorem Consumer.prepare_accounts (c : Consumer) (w : World Result) (lane : TopicGroup) (msg : Message) (s : State) :
    (c.prepare w lane msg s).Accounts s True True fun _ it => it.msg = msg := by
  unfold Consumer.prepare
  dsimp only
  split
  · rename_i gate
    exact laneGate_accounts (s := s.receive) (.inl rfl) gate
  split
  · exact .inl s.receive.shedOne_counts
  split
  · exact .inl s.receive.malform_counts
  split
  · exact .inl s.receive.reject_counts
  split
  · exact .inl s.receive.shedOne_counts
  split
  · rename_i none
    exact .inl (limit_counts (cons_ne_nil _ _) none)
  · rfl

theorem Consumer.acknowledges (c : Consumer) (w : World Result) (stage : Stage) (lane : TopicGroup) (msg : Message)
    (s : State) : Acknowledges w msg True s (c.handleLane w stage lane msg s) := by
  have accounts := c.prepare_accounts w lane msg s
  unfold Consumer.handleLane
  split <;> rename_i front <;> rw [front] at accounts
  · exact accounts.done
  rename_i t it
  have whole : it.msg = msg := accounts
  cases stage with
  | direct => exact whole ▸ writeOne_acknowledges it w True s t
  | queued full enqueued awaited =>
    dsimp only
    split
    · nofun
    cases awaited with
    | false => nofun
    | true =>
      intro acknowledged
      exact (whole ▸ writeOne_acknowledges it w True s _ acknowledged).withErr _

theorem DeviceConsumer.prepare_accounts (c : DeviceConsumer) (w : World DeviceBatch) (laneTenant : Bytes)
    (msg : Message) (s : State) : (c.prepare w laneTenant msg s).Accounts s
      (∀ batch, w.unmarshal msg.value = some batch → batch.metrics ≠ []) True fun _ _ => True := by
  unfold prepare
  dsimp only
  split
  · rename_i gate
    exact laneGate_accounts (s := s.receive) (.inl rfl) gate
  split
  · exact .inl s.receive.malform_counts
  rename_i batch decoded
  split
  · rename_i none
    exact .inr fun holds => holds batch decoded none
  rename_i first rest listed
  split
  · exact .inl s.receive.reject_counts
  split
  · exact .inl s.receive.shedOne_counts
  split
  · rename_i none
    left
    refine limit_counts ?_ none
    simp [listed]
  · trivial

variable {lane : LaneSub}

theorem DeviceConsumer.acknowledges {c : DeviceConsumer} {w : World DeviceBatch}
    (covered : w.outcomes.exhausted true = true → Taken c.wired lane.topic w.publish) (msg : Message) (s : State) :
    Acknowledges w msg (∀ batch, w.unmarshal msg.value = some batch → batch.metrics ≠ []) s
      (c.handleLane w lane msg s) := by
  have accounts := c.prepare_accounts w lane.laneTenant msg s
  unfold handleLane
  split <;> rename_i front <;> rw [front] at accounts
  · exact accounts.done
  apply finishBatch_acknowledges (writeWithRetry_answer w)
  exact fun exhausted => covered ((exhausted_write w).mpr exhausted)

theorem FlowConsumer.prepare_accounts (c : FlowConsumer) (w : World FlowBatch) (captured : Bool) (laneTenant : Bytes)
    (msg : Message) (s : State) : (c.prepare w captured laneTenant msg s).Accounts s
      (∀ batch, w.unmarshal msg.value = some batch → batch.flows ≠ []) True fun _ _ => True := by
  unfold prepare
  dsimp only
  split
  · rename_i gate
    exact laneGate_accounts (s := s.receive) (.inl rfl) gate
  split
  · exact .inl s.receive.malform_counts
  rename_i batch decoded
  split
  · rename_i none
    exact .inr fun holds => holds batch decoded none
  split
  · exact .inl s.receive.reject_counts
  split
  · exact .inl s.receive.shedOne_counts
  split <;> trivial

theorem FlowConsumer.acknowledges {c : FlowConsumer} {w : World FlowBatch}
    (covered : w.outcomes.exhausted false = true → Taken c.wired lane.topic w.publish) (captured : Bool) (msg : Message) (s : State) :
    Acknowledges w msg (∀ batch, w.unmarshal msg.value = some batch → batch.flows ≠ []) s
      (c.handleLane w captured lane msg s) := by
  have accounts := c.prepare_accounts w captured lane.laneTenant msg s
  unfold handleLane
  split <;> rename_i front <;> rw [front] at accounts
  · exact accounts.done
  apply finishBatch_acknowledges (insertWithRetry_answer w)
  exact fun exhausted => covered ((exhausted_insert w).mpr exhausted)

def HoldsRows (w : World OTLPRequest) (convert : OTLPRequest → Bytes → List ρ) (laneTenant : Bytes) (msg : Message) :
    Prop :=
  ∀ req stamped, w.unmarshal msg.value = some req →
    scopeToBusTenant req (otlpTenantFromLaneOrKey msg laneTenant) = .ok stamped →
      convert stamped (otlpTenantFromLaneOrKey msg laneTenant) ≠ []

theorem prepareOTLP_accounts {convert : OTLPRequest → Bytes → List ρ}
    (counts : ∀ tenant rows s, rows ≠ [] → (cap tenant rows s).2 = [] → s.refusals < (cap tenant rows s).1.refusals)
    (same : ∀ tenant rows s, (cap tenant rows s).1.quarantineDropped = s.quarantineDropped) (preAdmits : Bool)
    (s : State) : (prepareOTLP w preAdmits convert cap laneTenant msg s).Accounts s
      (HoldsRows w convert laneTenant msg) False fun t _ => t.quarantineDropped = s.quarantineDropped := by
  unfold prepareOTLP
  dsimp only
  split
  · exact .inl s.receive.shedOne_counts
  split
  · exact .inl s.receive.malform_counts
  rename_i req decoded
  split
  · exact .inl s.receive.reject_counts
  rename_i stamped named
  split
  · rename_i none
    exact .inr fun holds => holds req stamped decoded named (List.isEmpty_iff.mp none)
  rename_i rows
  split
  · exact .inl s.receive.shedOne_counts
  split
  · rename_i none
    have some : convert stamped (otlpTenantFromLaneOrKey msg laneTenant) ≠ [] :=
      fun empty => rows (List.isEmpty_iff.mpr empty)
    exact .inl (counts _ _ s.receive some (List.isEmpty_iff.mp none))
  · exact same _ _ _

theorem processOTLP_quarantine (signal : Signal) (w : World OTLPRequest) (msg : Message) (rows : List ρ) (t : State) :
    (processOTLP signal w msg rows t).1.quarantineDropped = t.quarantineDropped := by
  unfold processOTLP publishDeadLetter
  dsimp only
  split
  · rfl
  split
  · rfl
  · cases w.publish <;> rfl

variable {e : WriteError}

theorem processOTLP_err (failed : (processOTLP signal w msg rows t).2.err = some (.write e)) :
    (insertWithRetry w).2 = some e := by
  unfold processOTLP at failed
  dsimp only at failed
  split at failed
  · cases failed
  rename_i last
  split at failed
  · cases failed
    exact last
  · cases failed

theorem runLane_acknowledges {prepared : State → Prepared (Batch ρ)}
    (covered : w.outcomes.exhausted false = true → w.publish = true)
    (accounts : (prepared s).Accounts s holds False fun t _ => t.quarantineDropped = s.quarantineDropped) :
    Acknowledges w msg holds s (runLane w lane msg (handle signal w msg prepared) s) := by
  unfold runLane handle
  cases gate : laneGate w msg lane.laneTenant id s with
  | some gated =>
    have refused : (Prepared.done gated.1 gated.2).Accounts s holds True fun _ (_ : Batch ρ) => True :=
      laneGate_accounts (.inr rfl) gate
    exact refused.done
  | none =>
    cases front : prepared s with
    | done t err =>
      rw [front] at accounts
      cases err with
      | none => exact accounts.done
      | some e => exact accounts.elim
    | write t b =>
      rw [front] at accounts
      dsimp only
      split
      · rename_i e failed
        split
        · rename_i refusal
          intro _
          have answer := (insertWithRetry_answer w).trans (processOTLP_err failed)
          apply Settled.quarantined _ e answer refusal
          rw [processOTLP_quarantine]
          exact Nat.lt_succ_of_le accounts.ge
        · intro acknowledged
          exact absurd (failed.symm.trans acknowledged) nofun
      · exact processOTLP_acknowledges covered msg b.rows holds s t

theorem OTLPConsumer.metrics_acknowledges
    (covered : w.outcomes.exhausted false = true → w.publish = true) (convert : OTLPRequest → Bytes → List Series)
    (lane : LaneSub) (msg : Message) (s : State) :
    Acknowledges w msg (HoldsRows w convert lane.laneTenant msg) s
      (handleMetrics w convert lane msg s) := by
  apply runLane_acknowledges covered
  refine prepareOTLP_accounts ?_ (fun _ _ _ => rfl) true s
  intro tenant rows s some none
  exact limit_counts some none

theorem OTLPConsumer.rows_acknowledges (signal : Signal)
    (covered : w.outcomes.exhausted false = true → w.publish = true) (lane : LaneSub) (msg : Message) (s : State) :
    Acknowledges w msg (HoldsRows w convertRows lane.laneTenant msg) s
      (handleRows signal w lane msg s) := by
  apply runLane_acknowledges covered
  refine prepareOTLP_accounts ?_ (fun _ _ _ => rfl) false s
  intro tenant rows s some none
  exact absurd none some

theorem lost {w : World μ} {out : State × Report ρ}
    (acknowledged : out.2.err = none) (attempts : out.2.writes.length = n + 1)
    (failed : w.store n = some e) (transient : e.permanentReject = false) (untaken : ∀ d ∈ out.2.published, d.ok = false)
    (same : out.1.quarantineDropped = s.quarantineDropped) : ¬ Acknowledges w msg holds s out := by
  intro safe
  have written : out.2.writes ≠ [] := fun none => by simp [none] at attempts
  have last : ∀ m, out.2.writes.length = m + 1 → m = n := by
    omega
  cases safe acknowledged with
  | empty _ unwritten | refused _ unwritten => exact written unwritten
  | quarantined m e' answer refusal counted => omega
  | stored m answer count =>
    cases last m count
    cases failed.symm.trans answer
  | rejected m e' answer final count =>
    cases last m count
    cases failed.symm.trans answer
    simp [transient] at final
  | deadLettered d published taken whole => simp [untaken d published] at taken

theorem finishBatch_loses {w : World μ} (answer : w.store retry.1 = retry.2)
    (exhausted : Exhausts w retry) (untaken : ¬ Taken wired topic w.publish)
    (tenant : Bytes) (msg : Message) (rows : List ρ) (usage : List Usage) (holds : Prop)
    (same : t.quarantineDropped = s.quarantineDropped) :
    ¬ Acknowledges w msg holds s (finishBatch wired w retry topic tenant msg rows usage t) := by
  obtain ⟨e, failed, known, transient⟩ := exhausted
  have finished : finishBatch wired w retry topic tenant msg rows usage t =
      ((publishLaneLetter wired w topic tenant msg { t with retried := t.retried + retry.1 }).1,
        { writes := replicate (retry.1 + 1) rows
          published := (publishLaneLetter wired w topic tenant msg { t with retried := t.retried + retry.1 }).2 }) := by
    simp [finishBatch, failed, known]
  rw [finished]
  apply lost rfl length_replicate (answer.trans failed) transient
  · intro d mem
    simp only [publishLaneLetter, publishDeadLetter] at mem
    cases wired with
    | false => cases mem
    | true =>
      cases found : deadLetterTopicFor topic with
      | error err => simp [found] at mem
      | ok dlq =>
        cases publish : w.publish with
        | true => exact absurd ⟨rfl, ⟨dlq, found⟩, publish⟩ untaken
        | false =>
          simp only [Bool.not_true, Bool.false_eq_true, if_false, found, mem_singleton] at mem
          rw [mem, publish]
  · simp only [publishLaneLetter, publishDeadLetter]
    repeat' split
    all_goals exact same

theorem processOTLP_untaken (exhausted : w.outcomes.exhausted false = true)
    (untaken : w.publish = false) (msg : Message) (rows : List ρ) (t : State) :
    processOTLP signal w msg rows t = ({ t with retried := t.retried + (insertWithRetry w).1 }.drop,
      { writes := replicate ((insertWithRetry w).1 + 1) rows
        published := [⟨tenantFromKey msg.key, ⟨signal.dlqTopic, msg.key, msg.value⟩, false⟩] }) := by
  obtain ⟨e, failed, known, _⟩ := (exhausted_insert w).mp exhausted
  simp [processOTLP, failed, known, publishDeadLetter, untaken]

theorem runLane_loses (exhausted : w.outcomes.exhausted false = true)
    (untaken : w.publish = false) (passes : laneGate w msg lane.laneTenant id s = none)
    (write : prepared s = .write t b) (same : t.quarantineDropped = s.quarantineDropped) :
    ¬ Acknowledges w msg holds s (runLane w lane msg (handle signal w msg prepared) s) := by
  obtain ⟨e, failed, -, transient⟩ := (exhausted_insert w).mp exhausted
  have finished : runLane w lane msg (handle signal w msg prepared) s =
      processOTLP signal w msg b.rows t := by
    simp only [runLane, passes, handle, write, processOTLP_untaken exhausted untaken]
  rw [finished, processOTLP_untaken exhausted untaken]
  apply lost rfl length_replicate ((insertWithRetry_answer w).trans failed) transient _ same
  intro d mem
  rw [mem_singleton.mp mem]

inductive Plane where
  | results
  | device (wired : Bool)
  | flow (wired : Bool)
  | otlp (signal : Signal)

variable {o : Outcomes} {p : Plane}

namespace Plane

/-- Whatever the record, the lane's other settings, the consumer and its state:
under these outcomes a record that is acknowledged on the lane is settled. -/
def KeepsRecords (topic : Bytes) (o : Outcomes) : Plane → Prop
  | .results => ∀ (c : Consumer) (w : World Result) (stage : Stage) (lane : TopicGroup) (msg : Message) (s : State),
      lane.topic = topic → w.outcomes = o → Acknowledges w msg True s (c.handleLane w stage lane msg s)
  | .device wired => ∀ (c : DeviceConsumer) (w : World DeviceBatch) (lane : LaneSub) (msg : Message) (s : State),
      c.wired = wired → lane.topic = topic → w.outcomes = o →
        Acknowledges w msg (∀ batch, w.unmarshal msg.value = some batch → batch.metrics ≠ []) s
          (c.handleLane w lane msg s)
  | .flow wired => ∀ (c : FlowConsumer) (w : World FlowBatch) (captured : Bool) (lane : LaneSub) (msg : Message)
      (s : State), c.wired = wired → lane.topic = topic → w.outcomes = o →
        Acknowledges w msg (∀ batch, w.unmarshal msg.value = some batch → batch.flows ≠ []) s
          (c.handleLane w captured lane msg s)
  | .otlp .metrics => ∀ (w : World OTLPRequest) (convert : OTLPRequest → Bytes → List Series) (lane : LaneSub)
      (msg : Message) (s : State), lane.topic = topic → w.outcomes = o →
        Acknowledges w msg (HoldsRows w convert lane.laneTenant msg) s (handleMetrics w convert lane msg s)
  | .otlp signal => ∀ (w : World OTLPRequest) (lane : LaneSub) (msg : Message) (s : State),
      lane.topic = topic → w.outcomes = o →
        Acknowledges w msg (HoldsRows w convertRows lane.laneTenant msg) s
          (handleRows signal w lane msg s)

/-- Behind an exhausted write the dead letter is taken. The result consumer does
not need that. -/
def Covered (topic : Bytes) (o : Outcomes) : Plane → Prop
  | .results => True
  | .device wired => o.exhausted true = true →
      wired = true ∧ (∃ dlq, deadLetterTopicFor topic = .ok dlq) ∧ o.publish = true
  | .flow wired => o.exhausted false = true →
      wired = true ∧ (∃ dlq, deadLetterTopicFor topic = .ok dlq) ∧ o.publish = true
  | .otlp _ => o.exhausted false = true → o.publish = true

theorem keepsRecords_of_covered (covered : p.Covered topic o) : p.KeepsRecords topic o := by
  cases p with
  | results => exact fun c w stage lane msg s _ _ => c.acknowledges w stage lane msg s
  | device wired =>
    rintro c w lane msg s rfl rfl rfl
    exact acknowledges covered msg s
  | flow wired =>
    rintro c w captured lane msg s rfl rfl rfl
    exact acknowledges covered captured msg s
  | otlp signal =>
    cases signal with
    | metrics =>
      rintro w convert lane msg s rfl rfl
      exact metrics_acknowledges covered convert lane msg s
    | traces | logs =>
      rintro w lane msg s rfl rfl
      exact rows_acknowledges _ covered lane msg s

end Plane

def Outcomes.world (o : Outcomes) (batch : μ) : World μ where
  unmarshal := fun _ => some batch
  tenancy := ⟨fun _ => false, fun _ => .failed⟩
  gate := none
  hash := id
  now := 0
  store := o.store
  ctxErr := o.ctxErr
  ctxErrAfter := o.ctxErrAfter
  publish := o.publish

namespace Plane

def record : Message := ⟨[], [116], []⟩

theorem covered_of_keepsRecords (keeps : p.KeepsRecords topic o) : p.Covered topic o := by
  let lane : LaneSub := ⟨topic, [], []⟩
  let request : OTLPRequest := ⟨[⟨[], 1⟩]⟩
  cases p with
  | results => trivial
  | device wired =>
    intro exhausted
    by_contra untaken
    let batch : DeviceBatch := ⟨[], [⟨[116], [], [], [], [], [], 0, []⟩]⟩
    have safe := keeps ⟨wired, [], [], none, false⟩ (o.world batch) lane record {} rfl rfl rfl
    apply finishBatch_loses (writeWithRetry_answer _) ((exhausted_write (o.world batch)).mp exhausted) untaken _ _ _ _ _ _ safe
    rfl
  | flow wired =>
    intro exhausted
    by_contra untaken
    let batch : FlowBatch := ⟨[], [⟨[116], []⟩]⟩
    have safe := keeps ⟨wired, topic, [], [], none, false⟩ (o.world batch) true lane record {} rfl rfl rfl
    apply finishBatch_loses (insertWithRetry_answer _) ((exhausted_insert (o.world batch)).mp exhausted) untaken _ _ _ _ _ _ safe
    rfl
  | otlp signal =>
    intro exhausted
    by_contra untaken
    rw [Bool.not_eq_true] at untaken
    cases signal with
    | metrics =>
      have safe := keeps (o.world request) (fun _ _ => [⟨[], ∅, 0⟩]) lane record {} rfl rfl
      apply runLane_loses (w := o.world request) exhausted untaken rfl rfl _ safe
      rfl
    | traces | logs =>
      have safe := keeps (o.world request) lane record {} rfl rfl
      apply runLane_loses (w := o.world request) exhausted untaken rfl rfl _ safe
      rfl

/-- A plane settles every record it acknowledges exactly when it is the result
plane or the dead letter behind an exhausted write is taken. -/
theorem acknowledged_settled_iff (p : Plane) (topic : Bytes) (o : Outcomes) : p.KeepsRecords topic o ↔ p.Covered topic o :=
  ⟨covered_of_keepsRecords, keepsRecords_of_covered⟩

def twoOutages : Outcomes := ⟨fun _ => some {}, fun _ => false, false, false⟩

/-- On its shared lane the device, the flow and each OTLP consumer acknowledges a
record that is neither stored nor published anywhere. -/
theorem two_outages_lose : ¬ (Plane.device true).KeepsRecords deviceMetricsTopic twoOutages ∧
    ¬ (Plane.flow true).KeepsRecords flowEventsTopic twoOutages ∧
    ¬ (Plane.otlp .metrics).KeepsRecords otlpMetricsTopic twoOutages ∧
    ¬ (Plane.otlp .traces).KeepsRecords otlpTracesTopic twoOutages ∧
    ¬ (Plane.otlp .logs).KeepsRecords otlpLogsTopic twoOutages := by
  have repeating : twoOutages.exhausted true = true := by decide
  have repeatingAll : twoOutages.exhausted false = true := by decide
  refine ⟨fun keeps => ?_, fun keeps => ?_, fun keeps => ?_, fun keeps => ?_, fun keeps => ?_⟩
  · exact absurd (covered_of_keepsRecords keeps repeating).2.2 nofun
  · exact absurd (covered_of_keepsRecords keeps repeatingAll).2.2 nofun
  all_goals exact absurd (covered_of_keepsRecords keeps repeatingAll) nofun

end Plane

end Probectl.Pipeline
