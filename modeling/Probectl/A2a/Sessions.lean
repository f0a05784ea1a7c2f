import Probectl.A2a.Broker

/-! What the parties of a brokered session receive, traced back through the calls that
went before. -/
namespace Probectl.A2a

open Strings List Run Broker

abbrev History := List (Call × Answer)

def started : Call × Answer → Option Bytes
  | (.startSession (some id) _ _, .started _) => some id
  | _ => none

def delivered : Call × Answer → Option Task
  | (.pollFor _ _ _, .task t) => t
  | _ => none

def deliveries (h : History) : List Task := h.filterMap delivered

def Task.key (t : Task) : Bytes × Role := (t.sessionID, t.role)

def Reports (tenant agent id : Bytes) : Call × Answer → Prop
  | (.reportEndpoint r _, _) => r.tenantID = tenant ∧ r.agentID = agent ∧ r.sessionID = id ∧ r.blank = false
  | _ => False

def Since (h : History) (id : Bytes) (st : Start) (later : History) : Prop :=
  ∃ before clock, h = before ++ (.startSession (some id) st clock, .started id) :: later

def FirstReport (h : History) (tenant agent id host : Bytes) (port : Nat) : Prop :=
  ∃ before clock behind, h = before ++ (.reportEndpoint ⟨tenant, agent, id, host, port⟩ clock, .reported) :: behind ∧
    ∀ e ∈ before, ¬Reports tenant agent id e

def Owed (h : History) (tenant agent : Bytes) (t : Task) : Prop :=
  ∃ id st later, Since h id st later ∧ st.tenantID = tenant ∧
    ((agent = st.responderAgent ∧ t = responderTask id st) ∨
      (agent = st.initiatorAgent ∧ ∃ host port, FirstReport later tenant st.responderAgent id host port ∧
        t = ⟨id, .initiator, st.mode, st.probes, host, port, st.responderAgent⟩))

def Fresh (h : History) : Call → Prop
  | .startSession (some id) _ _ => ∀ e ∈ h, started e ≠ some id
  | _ => True

instance (h : History) (c : Call) : Decidable (Fresh h c) := by
  unfold Fresh
  split <;> infer_instance

structure Served where
  broker : Broker
  history : History

def serve (s : Served) (c : Call) : Option Served :=
  if Fresh s.history c then some ⟨(answer s.broker c).1, s.history ++ [(c, (answer s.broker c).2)]⟩ else none

/-! Histories grow at the end. -/

variable {tenant agent : Bytes} {t : Task}

section History

variable {h later : History} {id : Bytes} {st : Start}

theorem Since.mem (since : Since h id st later) : ∃ e ∈ h, started e = some id := by
  obtain ⟨before, clock, rfl⟩ := since
  exact ⟨_, mem_append_right _ mem_cons_self, rfl⟩

theorem Since.more (since : Since h id st later) (e : Call × Answer) : Since (h ++ [e]) id st (later ++ [e]) := by
  obtain ⟨before, clock, rfl⟩ := since
  exact ⟨before, clock, by simp⟩

theorem FirstReport.more (first : FirstReport h tenant agent id host port)
    (e : Call × Answer) : FirstReport (h ++ [e]) tenant agent id host port := by
  obtain ⟨before, clock, behind, rfl, none⟩ := first
  exact ⟨before, clock, behind ++ [e], by simp, none⟩

theorem Owed.more (owed : Owed h tenant agent t) (e : Call × Answer) : Owed (h ++ [e]) tenant agent t := by
  obtain ⟨id, st, later, since, tenantOf, part⟩ := owed
  refine ⟨id, st, later ++ [e], since.more e, tenantOf, ?_⟩
  rcases part with responder | ⟨agentOf, host, port, first, task⟩
  · exact .inl responder
  · exact .inr ⟨agentOf, host, port, first.more e, task⟩

theorem Owed.session (owed : Owed h tenant agent t) : ∃ e ∈ h, started e = some t.sessionID := by
  obtain ⟨id, st, later, since, -, part⟩ := owed
  rcases part with ⟨-, rfl⟩ | ⟨-, host, port, -, rfl⟩
  all_goals exact since.mem

def Apart (e e' : Call × Answer) : Prop := ∀ id, started e = some id → started e' ≠ some id

instance : Std.Symm Apart := ⟨fun _ _ apart id here there => apart id there here⟩

theorem Since.unique (apart : h.Pairwise Apart) (since : Since h id st later)
    (since' : Since h id st' later') : st = st' := by
  obtain ⟨before, clock, split⟩ := since
  obtain ⟨before', clock', split'⟩ := since'
  by_contra differ
  have two : (Call.startSession (some id) st clock, Answer.started id) ≠
      (Call.startSession (some id) st' clock', Answer.started id) := by
    intro same
    cases same
    exact differ rfl
  exact apart.forall (by simp [split]) (by simp [split']) two id rfl rfl

end History

/-! The invariant. -/

def Broker.keys (b : Broker) : List (Bytes × Role) := b.pending.map (·.task.key)

structure Session.Of (s : Session) (st : Start) : Prop where
  tenantID : s.tenantID = st.tenantID
  responder : s.responder = st.responderAgent
  initiator : s.initiator = st.initiatorAgent
  mode : s.mode = st.mode
  count : s.count = st.probes

def Recorded (b : Broker) (h : History) (id : Bytes) (s : Session) : Prop :=
  ∃ st later, Since h id st later ∧ s.Of st ∧
    (s.endpointReported = false → (∀ e ∈ later, ¬Reports s.tenantID s.responder id e) ∧
      (id, Role.initiator) ∉ b.keys ++ (deliveries h).map Task.key)

structure Traced (b : Broker) (h : History) : Prop where
  apart : h.Pairwise Apart
  queued : ∀ pt ∈ b.pending, Owed h pt.tenant pt.agent pt.task
  once : (b.keys ++ (deliveries h).map Task.key).Nodup
  known : ∀ key ∈ (deliveries h).map Task.key, ∃ e ∈ h, started e = some key.1
  sessions : ∀ id s, b.sessions id = some s → Recorded b h id s
  owed : ∀ pre post tenant agent now t,
    h = pre ++ (.pollFor tenant agent now, .task (some t)) :: post → Owed pre tenant agent t

variable {r : Report} {s : Session}

theorem accepts_some (accepted : accepts b r = .ok (some s)) :
    b.sessions r.sessionID = some s ∧ s.tenantID = r.tenantID ∧ s.responder = r.agentID ∧ s.endpointReported = false := by
  unfold accepts at accepted
  split at accepted
  · cases accepted
  rename_i s' found
  split_ifs at accepted with party reported <;> cases accepted
  obtain ⟨tenant, agent⟩ := not_or.mp party
  exact ⟨found, not_not.mp tenant, not_not.mp agent, Bool.eq_false_of_not_eq_true reported⟩

variable {c : Call}

section Steps

variable {b : Broker} {h : History}

theorem traced_new : Traced newBroker [] := by
  refine ⟨.nil, nofun, nodup_nil, nofun, nofun, fun pre post tenant agent now t split => ?_⟩
  simp at split

variable {key : Bytes × Role}

theorem Traced.started (traced : Traced b h) (mem : key ∈ b.keys ++ (deliveries h).map Task.key) :
    ∃ e ∈ h, started e = some key.1 := by
  rcases mem_append.mp mem with queued | gone
  · obtain ⟨pt, inside, rfl⟩ := mem_map.mp queued
    exact (traced.queued pt inside).session
  · exact traced.known key gone

theorem traced_gc (traced : Traced b h) (now : Int) : Traced (b.gcLocked now) h := by
  have sub : (b.gcLocked now).pending.Sublist b.pending := filter_sublist
  have keys : ((b.gcLocked now).keys ++ (deliveries h).map Task.key).Sublist (b.keys ++ (deliveries h).map Task.key) :=
    (sub.map _).append_right _
  refine ⟨traced.apart, fun pt mem => traced.queued pt (sub.subset mem), traced.once.sublist keys, traced.known, ?_,
    traced.owed⟩
  intro id s found
  obtain ⟨st, later, since, fields, unreported⟩ := traced.sessions id s (Option.filter_eq_some_iff.mp found).1
  exact ⟨st, later, since, fields, fun open_ =>
    ⟨(unreported open_).1, fun mem => (unreported open_).2 (keys.subset mem)⟩⟩

variable {e : Call × Answer}

theorem owed_more (traced : Traced b h)
    (now : ∀ tenant agent at_ t, e = (.pollFor tenant agent at_, .task (some t)) → Owed h tenant agent t)
    (pre post : History) (tenant agent : Bytes) (at_ : Int) (t : Task)
    (split : h ++ [e] = pre ++ (.pollFor tenant agent at_, .task (some t)) :: post) : Owed pre tenant agent t := by
  rcases eq_nil_or_concat post with rfl | ⟨post, last, rfl⟩
  · obtain ⟨rfl, one⟩ := append_inj' split rfl
    exact now tenant agent at_ t (cons.inj one).1
  · rw [concat_eq_append, ← cons_append, ← append_assoc] at split
    obtain ⟨same, -⟩ := append_inj' split rfl
    exact traced.owed pre post tenant agent at_ t same

variable {id : Bytes}

theorem Recorded.more (recorded : Recorded b h id s) (e : Call × Answer)
    (quiet : s.endpointReported = false → ¬Reports s.tenantID s.responder id e)
    (absent : (id, Role.initiator) ∉ b.keys ++ (deliveries h).map Task.key →
      (id, Role.initiator) ∉ b'.keys ++ (deliveries (h ++ [e])).map Task.key) : Recorded b' (h ++ [e]) id s := by
  obtain ⟨st, later, since, fields, unreported⟩ := recorded
  exact ⟨st, later ++ [e], since.more e, fields, fun open_ =>
    ⟨forall_mem_snoc (unreported open_).1 (quiet open_), absent (unreported open_).2⟩⟩

theorem apart_more (traced : Traced b h) (fresh : ∀ id, started e = some id → ∀ x ∈ h, started x ≠ some id) :
    (h ++ [e]).Pairwise Apart := by
  apply pairwise_append.mpr
  refine ⟨traced.apart, pairwise_singleton _ _, fun x mem y one id here there => ?_⟩
  rw [mem_singleton.mp one] at there
  exact fresh id there x mem here

variable {gone : List (Bytes × Role)}

theorem known_more (known : ∀ key ∈ gone, ∃ x ∈ h, started x = some key.1)
    (e : Call × Answer) : ∀ key ∈ gone, ∃ x ∈ h ++ [e], started x = some key.1 := by
  intro key mem
  obtain ⟨x, inside, start⟩ := known key mem
  exact ⟨x, mem_append_left _ inside, start⟩

theorem traced_note (traced : Traced b h) (starts : started e = none) (delivers : delivered e = none)
    (quiet : ∀ id s, b.sessions id = some s → s.endpointReported = false → ¬Reports s.tenantID s.responder id e) :
    Traced b (h ++ [e]) := by
  have same : deliveries (h ++ [e]) = deliveries h := by simp [deliveries, delivers]
  constructor
  · apply apart_more traced
    intro id start
    rw [starts] at start
    cases start
  · exact fun pt mem => (traced.queued pt mem).more e
  · rw [same]
    exact traced.once
  · rw [same]
    exact known_more traced.known e
  · intro id s found
    apply (traced.sessions id s found).more e (quiet id s found)
    rw [same]
    exact fun absent => absent
  · refine owed_more traced fun tenant agent at_ t eq => ?_
    rw [eq] at delivers
    cases delivers

/-! A new task beside the others. -/

theorem enqueue_keys (b : Broker) (tenant agent : Bytes) (t : Task) (now : Int) :
    (b.enqueueLocked tenant agent t now).keys = b.keys ++ [t.key] := by
  simp [Broker.keys, enqueueLocked]

variable {keys : List (Bytes × Role)}

theorem once_more (once : (keys ++ gone).Nodup) (new : key ∉ keys ++ gone) : (keys ++ [key] ++ gone).Nodup := by
  rw [append_assoc]
  exact nodup_middle.mpr (nodup_cons.mpr ⟨new, once⟩)

theorem absent_more (absent : key ∉ keys ++ gone)
    (other : key ≠ new) : key ∉ keys ++ [new] ++ gone := by
  rw [append_assoc]
  intro mem
  rcases mem_cons.mp (perm_middle.mem_iff.mp mem) with eq | old
  · exact other eq
  · exact absent old

theorem addSession_some
    (found : ((b.addSession id s).enqueueLocked tenant agent t now).sessions id' = some s') :
    (id' = id ∧ s' = s) ∨ (id' ≠ id ∧ b.sessions id' = some s') := by
  by_cases eq : id' = id
  · subst eq
    simp only [enqueueLocked, addSession, Function.update_self, Option.some.injEq] at found
    exact .inl ⟨rfl, found.symm⟩
  · simp only [enqueueLocked, addSession, Function.update_of_ne eq] at found
    exact .inr ⟨eq, found⟩

theorem Traced.adds (traced : Traced b h)
    (fresh : ∀ id, A2a.started e = some id → ∀ x ∈ h, A2a.started x ≠ some id) (delivers : delivered e = none)
    (session : t.sessionID = id) (new : t.key ∉ b.keys ++ (deliveries h).map Task.key) (owed : Owed (h ++ [e]) tenant agent t)
    (recorded : Recorded ((b.addSession id s).enqueueLocked tenant agent t now) (h ++ [e]) id s)
    (others : ∀ tenant agent id', id' ≠ id → ¬Reports tenant agent id' e) :
    Traced ((b.addSession id s).enqueueLocked tenant agent t now) (h ++ [e]) := by
  have same : deliveries (h ++ [e]) = deliveries h := by simp [deliveries, delivers]
  constructor
  · exact apart_more traced fresh
  · exact forall_mem_snoc (fun pt mem => (traced.queued pt mem).more _) owed
  · rw [enqueue_keys, same]
    exact once_more traced.once new
  · rw [same]
    exact known_more traced.known _
  · intro id' s' found
    rcases addSession_some found with ⟨rfl, rfl⟩ | ⟨ne, old⟩
    · exact recorded
    · apply (traced.sessions id' s' old).more e fun _ => others _ _ id' ne
      rw [enqueue_keys, same]
      exact fun absent => absent_more absent fun eq => ne ((congrArg Prod.fst eq).trans session)
  · refine owed_more traced fun tenant agent at_ t eq => ?_
    rw [eq] at delivers
    cases delivers

variable {clock : Clock}

theorem traced_start (traced : Traced b h)
    (fresh : Fresh h (.startSession (some id) st clock)) (created queued : Int) :
    Traced ((b.addSession id (st.session created)).enqueueLocked st.tenantID st.responderAgent (responderTask id st) queued)
      (h ++ [(.startSession (some id) st clock, .started id)]) := by
  have since : Since (h ++ [(.startSession (some id) st clock, .started id)]) id st [] := ⟨h, clock, rfl⟩
  have new : ∀ role, (id, role) ∉ b.keys ++ (deliveries h).map Task.key := by
    intro role mem
    obtain ⟨e, inside, start⟩ := traced.started mem
    exact fresh e inside start
  refine traced.adds ?_ rfl rfl (new _) ⟨id, st, [], since, rfl, .inl ⟨rfl, rfl⟩⟩ ?_ fun _ _ _ _ reports => reports
  · rintro _ ⟨⟩
    exact fresh
  · refine ⟨st, [], since, ⟨rfl, rfl, rfl, rfl, rfl⟩, fun _ => ⟨nofun, ?_⟩⟩
    rw [enqueue_keys, show deliveries (h ++ _) = deliveries h by simp [deliveries, delivered]]
    exact absent_more (new .initiator) (by simp [responderTask, Task.key])

theorem traced_report (traced : Traced b h) (accepted : accepts b r = .ok (some s)) (queued : Int) :
    Traced ((b.addSession r.sessionID { s with endpointReported := true }).enqueueLocked r.tenantID s.initiator
        (initiatorTask r.sessionID s r.host r.port) queued) (h ++ [(.reportEndpoint r clock, .reported)]) := by
  obtain ⟨found, tenant, agent, open_⟩ := accepts_some accepted
  obtain ⟨st, later, since, fields, unreported⟩ := traced.sessions _ s found
  obtain ⟨none, new⟩ := unreported open_
  -- nothing has been reported since the start, so this endpoint is the first
  have first : FirstReport (later ++ [(.reportEndpoint r clock, .reported)]) r.tenantID st.responderAgent r.sessionID
      r.host r.port := by
    rw [← fields.responder, agent]
    rw [tenant, agent] at none
    exact ⟨later, clock, [], rfl, none⟩
  refine traced.adds nofun rfl rfl new ?_ ?_ fun _ _ id' ne reports => ne reports.2.2.1.symm
  · refine ⟨r.sessionID, st, _, since.more _, fields.tenantID.symm.trans tenant, .inr ⟨fields.initiator, r.host, r.port, first, ?_⟩⟩
    rw [initiatorTask, fields.mode, fields.count, fields.responder]
  · exact ⟨st, _, since.more _, { fields with }, nofun⟩

theorem poll_some (polled : (poll b tenant agent).2 = some t) :
    ∃ pt before behind, pt.tenant = tenant ∧ pt.agent = agent ∧ pt.task = t ∧ b.pending = before ++ pt :: behind ∧
      (poll b tenant agent).1.pending = before ++ behind := by
  cases found : b.pending.find? (·.isFor tenant agent) with
  | none => simp [poll, found] at polled
  | some pt =>
    obtain ⟨mine, before, behind, split, none⟩ := find?_eq_some_iff_append.mp found
    have party := mine
    simp only [PendingTask.isFor, Bool.and_eq_true, decide_eq_true_eq] at party
    refine ⟨pt, before, behind, party.1, party.2, ?_, split, ?_⟩
    · simpa [poll, found] using polled
    · simp only [poll, found]
      rw [split, eraseP_append_right _ (by simpa using none), eraseP_cons_of_pos mine]

theorem poll_none (polled : (poll b tenant agent).2 = none) : (poll b tenant agent).1 = b := by
  unfold poll at polled ⊢
  split at polled
  · rfl
  · cases polled

theorem poll_sessions (tenant agent : Bytes) : (poll b tenant agent).1.sessions = b.sessions := by
  unfold poll
  split <;> rfl

theorem traced_poll (traced : Traced b h) (polled : (poll b tenant agent).2 = some t)
    (now : Int) : Traced (poll b tenant agent).1 (h ++ [(.pollFor tenant agent now, .task (some t))]) := by
  obtain ⟨pt, before, behind, rfl, rfl, rfl, split, rest⟩ := poll_some polled
  have mem : pt ∈ b.pending := by simp [split]
  have kept : ∀ other ∈ (poll b pt.tenant pt.agent).1.pending, other ∈ b.pending := by
    intro other inside
    rw [rest] at inside
    rw [split]
    exact perm_middle.mem_iff.mpr (mem_cons_of_mem _ inside)
  -- the key moves from the queue to what has been delivered
  have moved : ((poll b pt.tenant pt.agent).1.keys ++
      (deliveries (h ++ [(.pollFor pt.tenant pt.agent now, .task (some pt.task))])).map Task.key).Perm
        (b.keys ++ (deliveries h).map Task.key) := by
    simp only [Broker.keys, rest, split, deliveries, filterMap_append, delivered, map_append]
    rw [← append_assoc]
    exact (perm_append_singleton _ _).trans (perm_middle.symm.append_right _)
  constructor
  · apply apart_more traced
    rintro _ ⟨⟩
  · exact fun other inside => (traced.queued other (kept other inside)).more _
  · exact moved.nodup_iff.mpr traced.once
  · intro key gone
    obtain ⟨x, inside, start⟩ := traced.started (moved.mem_iff.mp (mem_append_right _ gone))
    exact ⟨x, mem_append_left _ inside, start⟩
  · intro id s found
    rw [poll_sessions] at found
    apply (traced.sessions id s found).more
    · exact fun _ reports => reports
    · exact fun absent there => absent (moved.mem_iff.mp there)
  · apply owed_more traced
    rintro _ _ _ _ ⟨⟩
    exact traced.queued pt mem

theorem traced_refused (traced : Traced b h)
    (refused : ∀ s, accepts b r ≠ .ok (some s)) : Traced b (h ++ [(.reportEndpoint r clock, a)]) := by
  apply traced_note traced rfl rfl
  rintro id s found open_ ⟨tenant, agent, rfl, -⟩
  apply refused s
  simp [accepts, found, tenant, agent, open_]

theorem traced_answer (traced : Traced b h) (fresh : Fresh h c) :
    Traced (answer b c).1 (h ++ [(c, (answer b c).2)]) := by
  cases c with
  | startSession id st clock =>
    have noted : ∀ {b : Broker} refusal, Traced b h → Traced b (h ++ [(.startSession id st clock, .refused refusal)]) :=
      fun refusal kept => traced_note kept (by cases id <;> rfl) rfl fun _ _ _ _ reports => reports
    simp only [answer, startSession]
    split
    · exact noted _ traced
    split
    · exact noted _ traced
    · split
      · exact noted _ (traced_gc traced clock.gc)
      · exact traced_start (traced_gc traced clock.gc) fresh clock.created clock.queued
  | reportEndpoint r clock =>
    simp only [answer, reportEndpoint]
    split
    · rename_i blank
      apply traced_note traced rfl rfl
      rintro id s - - ⟨-, -, -, given⟩
      rw [blank] at given
      cases given
    · have swept := traced_gc traced clock.gc
      split
      · rename_i refusal refused
        exact traced_refused swept fun s accepted => by rw [refused] at accepted; cases accepted
      · rename_i again
        exact traced_refused swept fun s accepted => by rw [again] at accepted; cases accepted
      · rename_i s accepted
        exact traced_report swept accepted clock.queued
  | pollFor tenantID agentID now =>
    have swept := traced_gc traced now
    simp only [answer, pollFor]
    cases polled : (poll (b.gcLocked now) tenantID agentID).2 with
    | none =>
      rw [poll_none polled]
      exact traced_note swept rfl rfl fun _ _ _ _ reports => reports
    | some t => exact traced_poll swept polled now
  | pendingCount tenantID now => exact traced_note (traced_gc traced now) rfl rfl fun _ _ _ _ reports => reports
  | sweepNow now =>
    have reset : Traced { b with lastGC := none } h :=
      { traced with }
    exact traced_note (traced_gc reset now) rfl rfl fun _ _ _ _ reports => reports

end Steps

/-! What the calls of others leave to a session. -/

def Concerns (st : Start) : Call → Prop
  | .reportEndpoint r _ => r.tenantID = st.tenantID ∧ r.agentID = st.responderAgent
  | .pollFor tenant agent _ => tenant = st.tenantID ∧ (agent = st.responderAgent ∨ agent = st.initiatorAgent)
  | _ => False

def Call.gcAt : Call → Int
  | .startSession _ _ clock => clock.gc
  | .reportEndpoint _ clock => clock.gc
  | .pollFor _ _ now => now
  | .pendingCount _ now => now
  | .sweepNow now => now

def Broker.tasksOf (b : Broker) (id : Bytes) : List PendingTask := b.pending.filter fun pt => pt.task.sessionID = id

def Kept (id : Bytes) (limit : Int) (b b' : Broker) : Prop :=
  ∃ dropped : Int → Bool, (∀ made, dropped made = true → made < limit) ∧
    b'.sessions id = ((b.sessions id).filter fun s => !dropped s.createdAt) ∧
    b'.tasksOf id = (b.tasksOf id).filter fun pt => !dropped pt.queuedAt

section Others

variable {b b₁ b₂ : Broker} {h later : History} {id : Bytes} {st : Start} {limit : Int}

theorem kept_refl : Kept id limit b b :=
  ⟨fun _ => false, by simp, by cases b.sessions id <;> rfl, by simp⟩

theorem kept_gc (b : Broker) (now : Int) : Kept id (now - b.ttl) b (b.gcLocked now) := by
  refine ⟨b.stale now, fun made old => ?_, rfl, ?_⟩
  · simp only [stale, Bool.and_eq_true, decide_eq_true_eq] at old
    exact old.2
  · simp only [tasksOf, gcLocked, filter_filter, Bool.and_comm]

theorem Kept.then (kept : Kept id limit b b₁) (sessions : b₂.sessions id = b₁.sessions id)
    (tasks : b₂.tasksOf id = b₁.tasksOf id) : Kept id limit b b₂ := by
  obtain ⟨dropped, old, same, left⟩ := kept
  exact ⟨dropped, old, sessions.trans same, tasks.trans left⟩

theorem Kept.enqueue (kept : Kept id limit b b₁) (ne : id ≠ other) (s : Session) (tenant agent : Bytes)
    (task : t.sessionID = other) (now : Int) :
    Kept id limit b ((b₁.addSession other s).enqueueLocked tenant agent t now) := by
  apply kept.then
  · simp [enqueueLocked, addSession, ne]
  · simp [tasksOf, enqueueLocked, addSession, task, ne.symm]

theorem Owed.party (apart : h.Pairwise Apart) (since : Since h id st later)
    (owed : Owed h tenant agent t) (session : t.sessionID = id) :
    tenant = st.tenantID ∧ (agent = st.responderAgent ∨ agent = st.initiatorAgent) := by
  obtain ⟨id', st', later', since', tenantOf, part⟩ := owed
  have same : id' = id := by
    rcases part with ⟨-, rfl⟩ | ⟨-, host, port, -, rfl⟩
    all_goals exact session
  subst same
  cases since.unique apart since'
  rcases part with ⟨responder, -⟩ | ⟨initiator, -⟩
  · exact ⟨tenantOf.symm, .inl responder⟩
  · exact ⟨tenantOf.symm, .inr initiator⟩

theorem Kept.poll (kept : Kept id limit b b₁) (traced : Traced b₁ h) (since : Since h id st later)
    (other : ¬(tenant = st.tenantID ∧ (agent = st.responderAgent ∨ agent = st.initiatorAgent))) :
    Kept id limit b (poll b₁ tenant agent).1 := by
  cases polled : (A2a.poll b₁ tenant agent).2 with
  | none =>
    rw [poll_none polled]
    exact kept
  | some t =>
    apply kept.then
    · rw [poll_sessions]
    obtain ⟨pt, before, behind, rfl, rfl, -, split, rest⟩ := poll_some polled
    have foreign : pt.task.sessionID ≠ id := fun session =>
      other ((traced.queued pt (by simp [split])).party traced.apart since session)
    simp [tasksOf, rest, split, foreign]

theorem undisturbed (traced : Traced b h) (since : Since h id st later) (fresh : Fresh h c)
    (other : ¬Concerns st c) : Kept id (c.gcAt - b.ttl) b (answer b c).1 := by
  cases c with
  | startSession new st' clock =>
    simp only [answer, startSession]
    split
    · exact kept_refl
    split
    · exact kept_refl
    rename_i new
    split
    · exact kept_gc b clock.gc
    have ne : id ≠ new := by
      rintro rfl
      obtain ⟨e, mem, start⟩ := since.mem
      exact fresh e mem start
    exact (kept_gc b clock.gc).enqueue ne _ _ _ rfl _
  | reportEndpoint r clock =>
    simp only [answer, reportEndpoint]
    split
    · exact kept_refl
    split
    · exact kept_gc b clock.gc
    · exact kept_gc b clock.gc
    rename_i s accepted
    obtain ⟨found, tenant, agent, -⟩ := accepts_some accepted
    have ne : id ≠ r.sessionID := by
      rintro rfl
      -- the table has the session as it was started, with the reporting responder
      obtain ⟨st', later', since', fields, -⟩ := (traced_gc traced clock.gc).sessions _ s found
      cases since.unique traced.apart since'
      exact other ⟨tenant.symm.trans fields.tenantID, agent.symm.trans fields.responder⟩
    exact (kept_gc b clock.gc).enqueue ne _ _ _ rfl _
  | pollFor tenantID agentID now => exact (kept_gc b now).poll (traced_gc traced now) since other
  | pendingCount tenantID now => exact kept_gc b now
  | sweepNow now => exact kept_gc { b with lastGC := none } now

end Others

theorem serve_traced {s : Served} (traced : Traced s.broker s.history) (done : serve s c = some s') :
    Traced s'.broker s'.history := by
  obtain ⟨fresh, ⟨⟩⟩ := Option.ite_none_right_eq_some.mp done
  exact traced_answer traced fresh

theorem traced_run {s : Served} (ran : run serve ⟨newBroker, []⟩ calls = some s) :
    Traced s.broker s.history :=
  run_kept (fun s => Traced s.broker s.history) (fun _ _ _ traced done => serve_traced traced done) traced_new ran

/-- Over every interleaving of calls with fresh session ids: each task of a session is
delivered at most once; whoever gets a task is the session's responder, or its initiator
once the responder has reported an endpoint, and then the task carries the first one;
and a call by another agent or tenant leaves the session's record and queued tasks as
they were, except that the sweep may drop what is older than the TTL. -/
theorem session_brokered {calls : List Call} {s : Served} (ran : run serve ⟨newBroker, []⟩ calls = some s) :
    ((deliveries s.history).map Task.key).Nodup ∧
      (∀ pre post tenant agent now t, s.history = pre ++ (.pollFor tenant agent now, .task (some t)) :: post →
        Owed pre tenant agent t) ∧
      ∀ id st later c s', Since s.history id st later → ¬Concerns st c → serve s c = some s' →
        Kept id (c.gcAt - s.broker.ttl) s.broker s'.broker := by
  have traced := traced_run ran
  refine ⟨(nodup_append.mp traced.once).2.1, traced.owed, fun id st later c s' since other done => ?_⟩
  obtain ⟨fresh, ⟨⟩⟩ := Option.ite_none_right_eq_some.mp done
  exact undisturbed traced since fresh other

def session : List Call :=
  [.startSession (some (lit "s1")) ⟨lit "t", lit "r", lit "i", lit "udp", 0⟩ ⟨0, 0, 0⟩, .pollFor (lit "t") (lit "r") 1,
    .reportEndpoint ⟨lit "t", lit "r", lit "s1", lit "h", 1⟩ ⟨2, 2, 2⟩,
    .reportEndpoint ⟨lit "t", lit "r", lit "s1", lit "g", 2⟩ ⟨3, 3, 3⟩, .pollFor (lit "t") (lit "i") 4]

theorem session_brokered_run :
    ∃ s, run serve ⟨newBroker, []⟩ session = some s ∧
      deliveries s.history =
        [⟨lit "s1", .responder, lit "udp", 5, [], 0, lit "i"⟩, ⟨lit "s1", .initiator, lit "udp", 5, lit "h", 1, lit "r"⟩] ∧
      ((deliveries s.history).map Task.key).Nodup := by
  have seen : (run serve ⟨newBroker, []⟩ session).map (fun s => deliveries s.history) =
      some [⟨lit "s1", .responder, lit "udp", 5, [], 0, lit "i"⟩,
        ⟨lit "s1", .initiator, lit "udp", 5, lit "h", 1, lit "r"⟩] := by decide +kernel
  obtain ⟨s, ran, tasks⟩ := Option.map_eq_some_iff.mp seen
  exact ⟨s, ran, tasks, (session_brokered ran).1⟩

/-- The responder polls 60.3 s after the start. If another tenant has polled at 59.5 s the
sweep is not due and the task is delivered; without that call the sweep drops it. -/
theorem throttle_interferes :
    (run serve ⟨newBroker, []⟩
        [.startSession (some (lit "s1")) ⟨lit "t", lit "r", lit "i", lit "udp", 0⟩ ⟨0, 0, 0⟩,
          .pollFor (lit "t") (lit "r") (603 * 10 ^ 8)]).map (fun s => deliveries s.history) = some [] ∧
      (run serve ⟨newBroker, []⟩
        [.startSession (some (lit "s1")) ⟨lit "t", lit "r", lit "i", lit "udp", 0⟩ ⟨0, 0, 0⟩,
          .pollFor (lit "u") (lit "x") (595 * 10 ^ 8), .pollFor (lit "t") (lit "r") (603 * 10 ^ 8)]).map
        (fun s => deliveries s.history) = some [⟨lit "s1", .responder, lit "udp", 5, [], 0, lit "i"⟩] := by
  decide +kernel

end Probectl.A2a
