import Probectl.Lib.Run
import Probectl.Lib.Text

/-! The agent-to-agent broker of `internal/a2a/broker.go` and the scheduling of meshes in
`internal/a2a/mesh.go`: sessions, the queues of unpolled tasks and their count per tenant.
Times are nanoseconds; a call carries every reading of the clock it makes. -/
namespace Probectl.A2a

open Strings List Function Run Text

inductive Role where
  | responder
  | initiator
  deriving DecidableEq

structure Task where
  sessionID : Bytes
  role : Role
  mode : Bytes
  count : Nat
  responderHost : Bytes
  responderPort : Nat
  peerAgentID : Bytes
  deriving DecidableEq

structure Session where
  tenantID : Bytes
  responder : Bytes
  initiator : Bytes
  mode : Bytes
  count : Nat
  createdAt : Int
  endpointReported : Bool
  deriving DecidableEq

structure PendingTask where
  tenant : Bytes
  agent : Bytes
  task : Task
  queuedAt : Int
  deriving DecidableEq

def gcMinInterval : Int := 10 ^ 9

def maxPendingPerTenant : Nat := 100000

def MaxSessionCount : Nat := 10000

/-- `pending` has the queues of all agents in one list, in the order the tasks were
queued; the queue of one agent is its part of it. -/
structure Broker where
  ttl : Int
  sessions : Bytes → Option Session
  pending : List PendingTask
  pendingByTenant : Bytes → Int
  lastGC : Option Int

def newBroker : Broker := ⟨60 * 10 ^ 9, fun _ => none, [], fun _ => 0, none⟩

inductive Refusal where
  | required
  | mustDiffer
  | unknownMode (mode : Bytes)
  | countTooLarge
  | noID
  | pendingFull
  | endpointRequired
  | unknownSession
  | notResponder
  | meshTenant
  | meshMode (mode : Bytes)
  | meshAgent
  | fewSites
  | manySites (sites : Nat)
  | meshFull (unpolled : Int) (wanted : Nat)
  deriving DecidableEq

/-- `decPendingLocked` on the count of one tenant; no entry counts as zero. -/
def decPending (queued : Int) (n : Nat) : Int :=
  if n ≤ 0 then queued else if queued - n ≤ 0 then 0 else queued - n

namespace Broker

def due (b : Broker) (now : Int) : Bool :=
  match b.lastGC with
  | none => true
  | some last => !decide (now - last < gcMinInterval)

def stale (b : Broker) (now : Int) (since : Int) : Bool := b.due now && decide (since < now - b.ttl)

/-- The sweep takes the queues one by one and lowers the tenant's count by what each
loses; in any order that comes to the tenant's loss as a whole. -/
def gcLocked (b : Broker) (now : Int) : Broker :=
  { b with
    lastGC := if b.due now then some now else b.lastGC
    sessions := fun id => (b.sessions id).filter fun s => !b.stale now s.createdAt
    pending := b.pending.filter fun pt => !b.stale now pt.queuedAt
    pendingByTenant := fun tenant =>
      decPending (b.pendingByTenant tenant)
        (b.pending.countP fun pt => decide (pt.tenant = tenant) && b.stale now pt.queuedAt) }

def enqueueLocked (b : Broker) (tenant agent : Bytes) (t : Task) (now : Int) : Broker :=
  { b with
    pending := b.pending ++ [⟨tenant, agent, t, now⟩]
    pendingByTenant := update b.pendingByTenant tenant (b.pendingByTenant tenant + 1) }

def addSession (b : Broker) (id : Bytes) (s : Session) : Broker :=
  { b with sessions := update b.sessions id (some s) }

end Broker

structure Start where
  tenantID : Bytes
  responderAgent : Bytes
  initiatorAgent : Bytes
  mode : Bytes
  count : Nat
  deriving DecidableEq

structure Clock where
  gc : Int
  created : Int
  queued : Int
  deriving DecidableEq

def Start.probes (st : Start) : Nat := if st.count = 0 then 5 else st.count

def Start.refusal (st : Start) : Option Refusal :=
  if st.tenantID = [] ∨ st.responderAgent = [] ∨ st.initiatorAgent = [] then some .required
  else if st.responderAgent = st.initiatorAgent then some .mustDiffer
  else if st.mode ≠ lit "udp" ∧ st.mode ≠ lit "tcp" then some (.unknownMode st.mode)
  else if MaxSessionCount < st.probes then some .countTooLarge
  else none

def Start.session (st : Start) (now : Int) : Session :=
  ⟨st.tenantID, st.responderAgent, st.initiatorAgent, st.mode, st.probes, now, false⟩

def responderTask (id : Bytes) (st : Start) : Task :=
  ⟨id, .responder, st.mode, st.probes, [], 0, st.initiatorAgent⟩

/-- `id` is what `newID` returns, if it does. -/
def startSession (b : Broker) (id : Option Bytes) (st : Start) (clock : Clock) : Broker × Except Refusal Bytes :=
  match st.refusal with
  | some refusal => (b, .error refusal)
  | none =>
    match id with
    | none => (b, .error .noID)
    | some id =>
      let b := b.gcLocked clock.gc
      if (maxPendingPerTenant : Int) ≤ b.pendingByTenant st.tenantID then (b, .error .pendingFull)
      else
        ((b.addSession id (st.session clock.created)).enqueueLocked st.tenantID st.responderAgent
          (responderTask id st) clock.queued, .ok id)

def sweepNow (b : Broker) (now : Int) : Broker := { b with lastGC := none }.gcLocked now

def pendingCount (b : Broker) (tenantID : Bytes) (now : Int) : Broker × Int :=
  let b := b.gcLocked now
  (b, b.pendingByTenant tenantID)

def PendingTask.isFor (tenant agent : Bytes) (pt : PendingTask) : Bool :=
  decide (pt.tenant = tenant) && decide (pt.agent = agent)

def poll (b : Broker) (tenantID agentID : Bytes) : Broker × Option Task :=
  match b.pending.find? (·.isFor tenantID agentID) with
  | none => (b, none)
  | some pt =>
    ({ b with
      pending := b.pending.eraseP (·.isFor tenantID agentID)
      pendingByTenant :=
        update b.pendingByTenant tenantID (decPending (b.pendingByTenant tenantID) 1) }, some pt.task)

def pollFor (b : Broker) (tenantID agentID : Bytes) (now : Int) : Broker × Option Task :=
  poll (b.gcLocked now) tenantID agentID

structure Report where
  tenantID : Bytes
  agentID : Bytes
  sessionID : Bytes
  host : Bytes
  port : Nat
  deriving DecidableEq

def Report.blank (r : Report) : Bool := decide (r.host = []) || decide (r.port = 0)

def initiatorTask (id : Bytes) (s : Session) (host : Bytes) (port : Nat) : Task :=
  ⟨id, .initiator, s.mode, s.count, host, port, s.responder⟩

/-- The session whose first endpoint the report gives. -/
def accepts (b : Broker) (r : Report) : Except Refusal (Option Session) :=
  match b.sessions r.sessionID with
  | none => .error .unknownSession
  | some s =>
    if s.tenantID ≠ r.tenantID ∨ s.responder ≠ r.agentID then .error .notResponder
    else if s.endpointReported then .ok none
    else .ok (some s)

def reportEndpoint (b : Broker) (r : Report) (clock : Clock) : Broker × Except Refusal Unit :=
  if r.blank then (b, .error .endpointRequired)
  else
    let b := b.gcLocked clock.gc
    match accepts b r with
    | .error refusal => (b, .error refusal)
    | .ok none => (b, .ok ())
    | .ok (some s) =>
      ((b.addSession r.sessionID { s with endpointReported := true }).enqueueLocked r.tenantID s.initiator
        (initiatorTask r.sessionID s r.host r.port) clock.queued, .ok ())

inductive Call where
  | startSession (id : Option Bytes) (st : Start) (clock : Clock)
  | reportEndpoint (r : Report) (clock : Clock)
  | pollFor (tenantID agentID : Bytes) (now : Int)
  | pendingCount (tenantID : Bytes) (now : Int)
  | sweepNow (now : Int)
  deriving DecidableEq

inductive Answer where
  | started (id : Bytes)
  | reported
  | task (t : Option Task)
  | count (n : Int)
  | swept
  | refused (refusal : Refusal)
  deriving DecidableEq

def Answer.ofStart : Except Refusal Bytes → Answer
  | .ok id => .started id
  | .error refusal => .refused refusal

def Answer.ofReport : Except Refusal Unit → Answer
  | .ok () => .reported
  | .error refusal => .refused refusal

def answer (b : Broker) : Call → Broker × Answer
  | .startSession id st clock => ((startSession b id st clock).1, .ofStart (startSession b id st clock).2)
  | .reportEndpoint r clock => ((reportEndpoint b r clock).1, .ofReport (reportEndpoint b r clock).2)
  | .pollFor tenantID agentID now => ((pollFor b tenantID agentID now).1, .task (pollFor b tenantID agentID now).2)
  | .pendingCount tenantID now => ((pendingCount b tenantID now).1, .count (pendingCount b tenantID now).2)
  | .sweepNow now => (sweepNow b now, .swept)

/-! Meshes. -/

structure SiteAgent where
  agentID : Bytes
  site : Bytes
  deriving DecidableEq

def maxMeshSites : Nat := 64

def sitesOf (agents : List SiteAgent) : List Bytes := sort (agents.map (·.site)).dedup

def agentForSite (agents : List SiteAgent) (site : Bytes) : Bytes :=
  (sort ((agents.filter fun a => a.site = site).map (·.agentID))).headD []

def meshStarts (tenantID : Bytes) (agents : List SiteAgent) (mode : Bytes) (count : Nat) : List Start :=
  (sitesOf agents).flatMap fun src =>
    ((sitesOf agents).filter (· ≠ src)).map fun dst =>
      ⟨tenantID, agentForSite agents dst, agentForSite agents src, mode, count⟩

def startAll (b : Broker) : List (Start × Option Bytes × Clock) → Broker × Except Refusal (List Bytes)
  | [] => (b, .ok [])
  | (st, id, clock) :: rest =>
    match startSession b id st clock with
    | (b, .error refusal) => (b, .error refusal)
    | (b, .ok id) => ((startAll b rest).1, (startAll b rest).2.map (id :: ·))

structure Mesh where
  tenantID : Bytes
  agents : List SiteAgent
  mode : Bytes
  count : Nat

def Mesh.effectiveMode (m : Mesh) : Bytes := if m.mode = [] then lit "udp" else m.mode

def Mesh.refusal (m : Mesh) : Option Refusal :=
  if m.tenantID = [] then some .meshTenant
  else if m.effectiveMode ≠ lit "udp" ∧ m.effectiveMode ≠ lit "tcp" then some (.meshMode m.effectiveMode)
  else if m.agents.any fun a => decide (a.agentID = []) || decide (a.site = []) then some .meshAgent
  else if (sitesOf m.agents).length < 2 then some .fewSites
  else if maxMeshSites < (sitesOf m.agents).length then some (.manySites (sitesOf m.agents).length)
  else none

/-- `draws i` is the id and the clock of the mesh's session `i`. -/
def startMesh (b : Broker) (m : Mesh) (now : Int) (draws : Nat → Option Bytes × Clock) :
    Broker × Except Refusal (List Bytes) :=
  match m.refusal with
  | some refusal => (b, .error refusal)
  | none =>
    let wantSessions := (sitesOf m.agents).length * ((sitesOf m.agents).length - 1)
    let counted := pendingCount b m.tenantID now
    if (maxPendingPerTenant : Int) < counted.2 + wantSessions then (counted.1, .error (.meshFull counted.2 wantSessions))
    else
      startAll counted.1
        ((meshStarts m.tenantID m.agents m.effectiveMode m.count).zipIdx.map fun entry => (entry.1, draws entry.2))

/-- A request runs alone; a mesh that others interleave is a sequence of calls. -/
inductive Op where
  | call (c : Call)
  | startMesh (m : Mesh) (now : Int) (draws : Nat → Option Bytes × Clock)

def step (b : Broker) : Op → Option Broker
  | .call c => some (answer b c).1
  | .startMesh m now draws => some (startMesh b m now draws).1

/-! The count of the unpolled tasks. -/

def Broker.queued (b : Broker) (tenant : Bytes) : Nat := b.pending.countP fun pt => pt.tenant = tenant

def Counted (b : Broker) : Prop := ∀ tenant, b.pendingByTenant tenant = b.queued tenant

def Within (b : Broker) : Prop := ∀ tenant, b.queued tenant ≤ maxPendingPerTenant

variable {n : Nat}

theorem decPending_exact : decPending ((n + rest : Nat) : Int) n = rest := by
  unfold decPending
  split
  · omega
  · split <;> omega

theorem gcLocked_queued (b : Broker) (now : Int) (tenant : Bytes) :
    b.queued tenant =
      (b.pending.countP fun pt => decide (pt.tenant = tenant) && b.stale now pt.queuedAt) +
        (b.gcLocked now).queued tenant := by
  unfold Broker.queued Broker.gcLocked
  rw [countP_filter]
  induction b.pending with
  | nil => rfl
  | cons pt rest ih =>
    simp only [countP_cons]
    cases b.stale now pt.queuedAt <;> by_cases mine : pt.tenant = tenant <;> simp <;> omega

variable {b : Broker}

theorem enqueue_queued (b : Broker) (tenant agent : Bytes) (t : Task) (now : Int) (other : Bytes) :
    (b.enqueueLocked tenant agent t now).queued other = b.queued other + if tenant = other then 1 else 0 := by
  simp [Broker.queued, Broker.enqueueLocked]

variable {tenant : Bytes}

theorem poll_queued
    (found : b.pending.find? (·.isFor tenant agent) = some pt) (other : Bytes) :
    b.queued other = (if tenant = other then 1 else 0) + (poll b tenant agent).1.queued other := by
  obtain ⟨mine, before, behind, split, none⟩ := find?_eq_some_iff_append.mp found
  have tenantOf : pt.tenant = tenant := by
    simp only [PendingTask.isFor, Bool.and_eq_true, decide_eq_true_eq] at mine
    exact mine.1
  have erased : b.pending.eraseP (·.isFor tenant agent) = before ++ behind := by
    rw [split, eraseP_append_right _ (by simpa using none), eraseP_cons_of_pos mine]
  unfold poll Broker.queued
  simp only [found, erased]
  rw [split]
  simp only [countP_append, countP_cons, tenantOf, decide_eq_true_eq]
  omega

/-! Every request keeps the count; a report may exceed the cap. -/

def HasRoom (b : Broker) : Op → Prop
  | .call (.reportEndpoint r clock) =>
    ∀ s, r.blank = false → accepts (b.gcLocked clock.gc) r = .ok (some s) →
      (b.gcLocked clock.gc).queued r.tenantID < maxPendingPerTenant
  | _ => True

structure Sound (cap : Prop) (b : Broker) : Prop where
  counted : Counted b
  within : cap → Within b

variable {cap : Prop}

section
variable (sound : Sound cap b)
include sound

theorem gcLocked_sound (now : Int) : Sound cap (b.gcLocked now) := by
  refine ⟨fun tenant => ?_, fun capped tenant => ?_⟩
  · calc (b.gcLocked now).pendingByTenant tenant
        = decPending (b.pendingByTenant tenant)
            (b.pending.countP fun pt => decide (pt.tenant = tenant) && b.stale now pt.queuedAt) := rfl
      _ = (b.gcLocked now).queued tenant := by rw [sound.counted, gcLocked_queued, decPending_exact]
  · have split := gcLocked_queued b now tenant
    have bound := sound.within capped tenant
    omega

theorem enqueue_sound (room : cap → b.queued tenant < maxPendingPerTenant) (agent : Bytes) (t : Task) (now : Int) :
    Sound cap (b.enqueueLocked tenant agent t now) := by
  refine ⟨fun other => ?_, fun capped other => ?_⟩ <;> rw [enqueue_queued] <;> by_cases same : tenant = other
  · subst same
    simp [Broker.enqueueLocked, sound.counted tenant]
  · simp [Broker.enqueueLocked, same, Ne.symm same, sound.counted other]
  · subst same
    simpa using room capped
  · simpa [same] using sound.within capped other

theorem poll_sound (tenant agent : Bytes) : Sound cap (poll b tenant agent).1 := by
  cases found : b.pending.find? (·.isFor tenant agent) with
  | none =>
    unfold poll
    simp only [found]
    exact sound
  | some pt =>
    refine ⟨fun other => ?_, fun capped other => ?_⟩ <;> have less := poll_queued found other
    · have whole := sound.counted other
      by_cases same : other = tenant
      · subst same
        rw [less, if_pos rfl] at whole
        calc (poll b other agent).1.pendingByTenant other = decPending (b.pendingByTenant other) 1 := by simp [poll, found]
          _ = (poll b other agent).1.queued other := by rw [whole, decPending_exact]
      · rw [less, if_neg (Ne.symm same), Nat.zero_add] at whole
        rw [← whole]
        simp [poll, found, same]
    · have bound := sound.within capped other
      omega

theorem start_sound (id : Option Bytes) (st : Start) (clock : Clock) : Sound cap (startSession b id st clock).1 := by
  have swept := gcLocked_sound sound clock.gc
  unfold startSession
  split
  · exact sound
  split
  · exact sound
  dsimp only
  split
  · exact swept
  rename_i room
  -- the check reads the count, which is the number of tasks
  rw [swept.counted] at room
  exact enqueue_sound (b := (b.gcLocked clock.gc).addSession _ _) { swept with } (fun _ => by exact_mod_cast not_le.mp room) _ _ _

theorem report_sound (room : cap → HasRoom b (.call (.reportEndpoint r clock))) :
    Sound cap (reportEndpoint b r clock).1 := by
  have swept := gcLocked_sound sound clock.gc
  unfold reportEndpoint
  split
  · exact sound
  rename_i blank
  dsimp only
  split
  · exact swept
  · exact swept
  · rename_i s accepted
    exact enqueue_sound (b := (b.gcLocked clock.gc).addSession _ _) { swept with }
      (fun capped => room capped s (Bool.eq_false_of_not_eq_true blank) accepted) _ _ _

theorem answer_sound (c : Call) (room : cap → HasRoom b (.call c)) : Sound cap (answer b c).1 := by
  cases c with
  | startSession id st clock => exact start_sound sound id st clock
  | reportEndpoint r clock => exact report_sound sound room
  | pollFor tenantID agentID now => exact poll_sound (gcLocked_sound sound now) tenantID agentID
  | pendingCount tenantID now => exact gcLocked_sound sound now
  | sweepNow now => exact gcLocked_sound (b := { b with lastGC := none }) { sound with } now

theorem startAll_sound (starts : List (Start × Option Bytes × Clock)) : Sound cap (startAll b starts).1 := by
  induction starts generalizing b with
  | nil => exact sound
  | cons first rest ih =>
    obtain ⟨st, id, clock⟩ := first
    have kept := start_sound sound id st clock
    unfold startAll
    split
    · rename_i refused
      rw [refused] at kept
      exact kept
    · rename_i started
      rw [started] at kept
      exact ih kept

theorem startMesh_sound (m : Mesh) (now : Int) (draws : Nat → Option Bytes × Clock) :
    Sound cap (startMesh b m now draws).1 := by
  have swept := gcLocked_sound sound now
  unfold startMesh
  split
  · exact sound
  dsimp only
  split
  · exact swept
  · exact startAll_sound swept _

theorem step_sound (op : Op) (room : cap → HasRoom b op) (done : step b op = some b') : Sound cap b' := by
  cases op with
  | call c =>
    cases done
    exact answer_sound sound c room
  | startMesh m now draws =>
    cases done
    exact startMesh_sound sound m now draws

end

/-- After every sequence of requests the count of a tenant is the number of its queued
tasks, and where every report that queues a task finds room, it is within the cap. -/
theorem pending_accounted {ops : List Op} {b : Broker} (ran : run step newBroker ops = some b) :
    (∀ tenant, b.pendingByTenant tenant = b.queued tenant) ∧
      (Along step HasRoom newBroker ops → ∀ tenant, b.queued tenant ≤ maxPendingPerTenant) := by
  have start cap : Sound cap newBroker := ⟨fun _ => rfl, fun _ _ => Nat.zero_le _⟩
  constructor
  · exact (run_kept (Sound False) (fun _ op _ sound done => step_sound sound op nofun done) (start False) ran).counted
  intro along
  have keeps : ∀ b op b', Sound True b → HasRoom b op → step b op = some b' → Sound True b' :=
    fun _ op _ sound room done => step_sound sound op (fun _ => room) done
  exact (run_invariant keeps (start True) along ran).within trivial

def oneSession : List Op :=
  [.call (.startSession (some (lit "s1")) ⟨lit "t", lit "r", lit "i", lit "udp", 0⟩ ⟨0, 0, 0⟩),
    .call (.reportEndpoint ⟨lit "t", lit "r", lit "s1", lit "h", 1⟩ ⟨1, 1, 1⟩),
    .call (.pollFor (lit "t") (lit "r") 2), .call (.pendingCount (lit "t") 3)]

/-- The report finds one task in the queue, and the poll leaves its own. -/
theorem pending_accounted_session :
    ∃ b, run step newBroker oneSession = some b ∧ b.queued (lit "t") = 1 ∧
      b.pendingByTenant (lit "t") = b.queued (lit "t") ∧ b.queued (lit "t") ≤ maxPendingPerTenant := by
  have along : Along step HasRoom newBroker oneSession := by
    rintro b ⟨⟩
    refine ⟨trivial, ?_⟩
    rintro b ⟨⟩
    refine ⟨fun s _ _ => by decide +kernel, ?_⟩
    rintro b ⟨⟩
    refine ⟨trivial, ?_⟩
    rintro b ⟨⟩
    exact ⟨trivial, trivial⟩
  have ran : run step newBroker oneSession = some _ := rfl
  have held := pending_accounted ran
  exact ⟨_, ran, by decide +kernel, held.1 _, held.2 along _⟩

/-! A tenant whose agents do not poll: its queue is filled by sessions up to the cap, and a
report still adds to it. -/

def flood (i : Nat) : Op :=
  .call (.startSession (some (decimal i)) ⟨lit "t", lit "r", lit "i", lit "udp", 0⟩ ⟨0, 0, 0⟩)

def overflow : List Op :=
  (range' 0 (maxPendingPerTenant - 1)).map flood ++
    [flood (maxPendingPerTenant - 1),
      .call (.reportEndpoint ⟨lit "t", lit "r", decimal (maxPendingPerTenant - 1), lit "h", 1⟩ ⟨0, 0, 0⟩)]

structure Flooded (n : Nat) (b : Broker) : Prop where
  ttl : b.ttl = newBroker.ttl
  now : ∀ pt ∈ b.pending, pt.queuedAt = 0
  queued : b.queued (lit "t") = n
  counted : b.pendingByTenant (lit "t") = n

theorem not_stale (ttl : b.ttl = newBroker.ttl) : b.stale 0 0 = false := by
  simp [Broker.stale, ttl, newBroker]

theorem flooded_gc (flooded : Flooded n b) : Flooded n (b.gcLocked 0) := by
  have fresh := not_stale flooded.ttl
  have kept : (b.gcLocked 0).pending = b.pending :=
    filter_eq_self.mpr fun pt mem => by rw [flooded.now pt mem, fresh]; rfl
  have none : (b.pending.countP fun pt => decide (pt.tenant = lit "t") && b.stale 0 pt.queuedAt) = 0 :=
    countP_eq_zero.mpr fun pt mem => by rw [flooded.now pt mem, fresh]; simp
  constructor
  · exact flooded.ttl
  · rw [kept]
    exact flooded.now
  · rw [Broker.queued, kept]
    exact flooded.queued
  · calc (b.gcLocked 0).pendingByTenant (lit "t") = decPending (b.pendingByTenant (lit "t")) 0 := by
          simp only [Broker.gcLocked, none]
      _ = n := by rw [flooded.counted]; rfl

theorem flooded_enqueue (flooded : Flooded n b) (id agent : Bytes) (s : Session) (t : Task) :
    Flooded (n + 1) ((b.addSession id s).enqueueLocked (lit "t") agent t 0) := by
  constructor
  · exact flooded.ttl
  · exact forall_mem_snoc flooded.now rfl
  · rw [enqueue_queued]
    exact congrArg (· + 1) flooded.queued
  · simp [Broker.enqueueLocked, Broker.addSession, flooded.counted]

theorem flooded_start (flooded : Flooded n b) (room : n < maxPendingPerTenant) (i : Nat) :
    ∃ b', step b (flood i) = some b' ∧ Flooded (n + 1) b' ∧
      b'.sessions (decimal i) = some ⟨lit "t", lit "r", lit "i", lit "udp", 5, 0, false⟩ := by
  have swept := flooded_gc flooded
  have free : ¬maxPendingPerTenant ≤ (b.gcLocked 0).pendingByTenant (lit "t") := by
    rw [swept.counted]
    omega
  have valid : (⟨lit "t", lit "r", lit "i", lit "udp", 0⟩ : Start).refusal = none := by decide +kernel
  refine ⟨_, rfl, ?_⟩
  simp only [answer, startSession, valid, free]
  exact ⟨flooded_enqueue swept _ _ _ _, by simp [Broker.enqueueLocked, Broker.addSession, Start.session, Start.probes]⟩

theorem flooded_run (flooded : Flooded k b) (room : k + n ≤ maxPendingPerTenant) :
    ∃ b', Flooded (k + n) b' ∧
      ∀ rest, run step b ((range' k n).map flood ++ rest) = run step b' rest := by
  induction n generalizing k b with
  | zero => exact ⟨b, flooded, fun _ => rfl⟩
  | succ n ih =>
    obtain ⟨b₁, started, flooded₁, -⟩ := flooded_start flooded (by omega) k
    obtain ⟨b', flooded', runs⟩ := ih flooded₁ (by omega)
    refine ⟨b', by rw [← Nat.add_assoc, Nat.add_right_comm]; exact flooded', fun rest => ?_⟩
    rw [range'_succ, map_cons, cons_append, run, started]
    exact runs rest

theorem flooded_report (flooded : Flooded n b)
    (session : b.sessions (decimal i) = some ⟨lit "t", lit "r", lit "i", lit "udp", 5, 0, false⟩) :
    ∃ b', step b (.call (.reportEndpoint ⟨lit "t", lit "r", decimal i, lit "h", 1⟩ ⟨0, 0, 0⟩)) = some b' ∧
      Flooded (n + 1) b' := by
  have known : (b.gcLocked 0).sessions (decimal i) =
      some ⟨lit "t", lit "r", lit "i", lit "udp", 5, 0, false⟩ := by
    simp [Broker.gcLocked, session, not_stale flooded.ttl]
  have host : lit "h" ≠ [] := by decide +kernel
  refine ⟨_, rfl, ?_⟩
  simp only [answer, reportEndpoint, accepts, known]
  exact flooded_enqueue (flooded_gc flooded) _ _ _ _

theorem overflow_exceeds :
    ∃ b, run step newBroker overflow = some b ∧ b.queued (lit "t") = maxPendingPerTenant + 1 := by
  have empty : Flooded 0 newBroker := ⟨rfl, by simp [newBroker], rfl, rfl⟩
  obtain ⟨b, flooded, runs⟩ := flooded_run (n := maxPendingPerTenant - 1) empty (by decide)
  obtain ⟨b₁, started, flooded₁, session⟩ := flooded_start flooded (by decide) (maxPendingPerTenant - 1)
  obtain ⟨b₂, reported, flooded₂⟩ := flooded_report flooded₁ session
  refine ⟨b₂, ?_, flooded₂.queued⟩
  rw [overflow, runs, run, started, Option.bind_some, run, reported]
  rfl

end Probectl.A2a
