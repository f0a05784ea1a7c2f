import Probectl.Bus.Topics
import Probectl.Lib.TokenBucket

/-! `internal/fairness/fairness.go`: the gate that admits a tenant's ingest and
queries. Times are nanoseconds and token balances are exact rationals. One
transition is one critical section of a shard; a `Clock` carries what the
section's successive readings of the clock return. -/
namespace Probectl.Fairness

open Strings

inductive Meter where
  | results
  | entityEvidence
  | entityEvidenceBytes
  | flowEvents
  | ndrFlowEvents
  | bytes
  | deviceMetrics
  | otlpSeries
  | queries
  | other (name : Bytes)
  deriving DecidableEq

structure Policy where
  resultsPerSec : ℚ := 0
  flowEventsPerSec : ℚ := 0
  ingestBytesPerSec : ℚ := 0
  deviceMetricsPerSec : ℚ := 0
  otlpSeriesPerSec : ℚ := 0
  burstSeconds : ℚ := 0
  queryConcurrency : Int := 0
  queriesPerMin : ℚ := 0
  weight : Int := 0
  deriving DecidableEq

def orDefault {α : Type} [DecidableEq α] [Zero α] (x default : α) : α := if x = 0 then default else x

def Policy.merged (p default : Policy) : Policy where
  resultsPerSec := orDefault p.resultsPerSec default.resultsPerSec
  flowEventsPerSec := orDefault p.flowEventsPerSec default.flowEventsPerSec
  ingestBytesPerSec := orDefault p.ingestBytesPerSec default.ingestBytesPerSec
  deviceMetricsPerSec := orDefault p.deviceMetricsPerSec default.deviceMetricsPerSec
  otlpSeriesPerSec := orDefault p.otlpSeriesPerSec default.otlpSeriesPerSec
  burstSeconds :=
    if orDefault p.burstSeconds default.burstSeconds ≤ 0 then 10 else orDefault p.burstSeconds default.burstSeconds
  queryConcurrency := orDefault p.queryConcurrency default.queryConcurrency
  queriesPerMin := orDefault p.queriesPerMin default.queriesPerMin
  weight := orDefault p.weight default.weight

theorem Policy.merged_burst_pos (p default : Policy) : 0 < (p.merged default).burstSeconds := by
  simp only [merged]
  split
  case isTrue => decide
  case isFalse positive => exact not_le.mp positive

def Policy.rateFor (p : Policy) : Meter → ℚ
  | .results | .entityEvidence => p.resultsPerSec
  | .flowEvents | .ndrFlowEvents => p.flowEventsPerSec
  | .bytes | .entityEvidenceBytes => p.ingestBytesPerSec
  | .deviceMetrics => p.deviceMetricsPerSec
  | .otlpSeries => p.otlpSeriesPerSec
  | .queries => p.queriesPerMin / 60
  | .other _ => 0

def defaultGateIdleTTL : Int := 24 * 3600 * 1000000000
def gateSweepInterval : Int := 60 * 1000000000
def gateShards : Nat := 32

/-- A gate as `NewGate` and its `With` setters leave it. `source` says whether
there is a store of policies. -/
structure Gate where
  defaults : Policy
  source : Bool
  policyTTL : Int
  idleTTL : Int
  burst_pos : 0 < defaults.burstSeconds
  idleTTL_pos : 0 < idleTTL

def newGate (defaults : Policy) (source : Bool) : Gate where
  defaults := defaults.merged {}
  source := source
  policyTTL := 60 * 1000000000
  idleTTL := defaultGateIdleTTL
  burst_pos := defaults.merged_burst_pos {}
  idleTTL_pos := by decide

def Gate.withIdleTTL (g : Gate) (d : Int) : Gate :=
  if positive : 0 < d then { g with idleTTL := d, idleTTL_pos := positive } else g

def shardFor (tenantID : Bytes) : Fin gateShards :=
  ⟨(Bus.fnv1a tenantID).toNat % gateShards, Nat.mod_lt _ (by decide)⟩

structure Counters where
  admittedCalls : Nat := 0
  admittedUnits : Int := 0
  shedCalls : Nat := 0
  shedUnits : Int := 0

structure QueryCounters where
  allowed : Nat := 0
  rejectedConcurrency : Nat := 0
  rejectedBudget : Nat := 0
  inFlight : Int := 0

structure Bucket where
  tokens : ℚ
  last : Int

structure TenantState where
  buckets : Meter → Option Bucket := fun _ => none
  ingest : Meter → Option Counters := fun _ => none
  queries : QueryCounters := {}
  policy : Policy := {}
  policyFetched : Int := 0
  policyKnown : Bool := false
  policyFetching : Bool := false
  policyFetchInvalidated : Bool := false
  lastSeen : Int := 0

structure Clock where
  now : Int
  created : Int
  age : Int
  fetched : Int
  take : Int

def Clock.still (t : Int) : Clock := ⟨t, t, t, t, t⟩

/-- The second component says whether a refresh is started. The policy the
caller gets is the state's in every case. -/
def policyFor (g : Gate) (st : TenantState) (c : Clock) : TenantState × Bool :=
  if st.policyKnown ∧ c.age - st.policyFetched < g.policyTTL then (st, false)
  else
    let st :=
      if st.policyKnown then st
      else { st with policy := g.defaults, policyKnown := true, policyFetched := c.fetched }
    if g.source ∧ ¬ st.policyFetching then ({ st with policyFetching := true }, true)
    else if g.source then (st, false)
    else ({ st with policyFetched := c.fetched }, false)

def seconds (d : Int) : ℚ := (d : ℚ) / 1000000000

def takeWithDeficit (st : TenantState) (meter : Meter) (rate capacity : ℚ) (n : Int) (allowDeficit : Bool)
    (now : Int) : TenantState × Bool :=
  if rate ≤ 0 then (st, true)
  else
    let b := (st.buckets meter).getD ⟨capacity, now⟩
    let refilled := b.tokens + seconds (now - b.last) * rate
    let tokens := if capacity < refilled then capacity else refilled
    if (allowDeficit = false ∧ tokens < n) ∨ (allowDeficit = true ∧ tokens ≤ 0) then
      ({ st with buckets := Function.update st.buckets meter (some ⟨tokens, now⟩) }, false)
    else ({ st with buckets := Function.update st.buckets meter (some ⟨tokens - n, now⟩) }, true)

def take (st : TenantState) (meter : Meter) (rate capacity : ℚ) (n : Int) (now : Int) : TenantState × Bool :=
  takeWithDeficit st meter rate capacity n false now

inductive QueryError where
  | concurrency
  | budget
  deriving DecidableEq

structure Release where
  object : Nat
  done : Bool := false

/-- A refresh under way, with the policy it has read from the store. -/
structure Refresh where
  read : Option Policy := none
  readAt : Nat := 0

structure Install where
  readAt : Nat
  invalidated : Option Nat

/-- Everything that belongs to one tenant ID. `objects` are all the state objects
made for it and `entry` is the shard's map entry: an evicted object stays with
the release functions that close over it. `invalidated`, `installs` and a refresh's `readAt`
are the notes of an observer. -/
structure Tenant where
  objects : List TenantState := []
  entry : Option Nat := none
  releases : List Release := []
  refreshes : List Refresh := []
  invalidated : Option Nat := none
  installs : List Install := []

namespace Tenant

def object (x : Tenant) (p : Nat) : TenantState := x.objects.getD p {}

def put (x : Tenant) (p : Nat) (st : TenantState) : Tenant := { x with objects := x.objects.set p st }

def current (x : Tenant) : Option TenantState := x.entry.map x.object

def outstanding (x : Tenant) : Nat := x.releases.countP fun r => !r.done

def state (x : Tenant) (now : Int) : Tenant × Nat :=
  match x.entry with
  | some p => (x, p)
  | none =>
    ({ x with objects := x.objects ++ [{ lastSeen := now }], entry := some x.objects.length }, x.objects.length)

def sweep (g : Gate) (x : Tenant) (now : Int) : Tenant :=
  match x.current with
  | none => x
  | some st =>
    if st.policyFetching ∨ 0 < st.queries.inFlight then x
    else if st.lastSeen < now - g.idleTTL then { x with entry := none }
    else x

def resolve (g : Gate) (x : Tenant) (c : Clock) (touch : TenantState → TenantState) : Tenant × Nat :=
  let (x, p) := x.state c.created
  let (st, started) := policyFor g (touch (x.object p)) c
  ({ x.put p st with refreshes := if started then x.refreshes ++ [{}] else x.refreshes }, p)

def seen (c : Clock) (st : TenantState) : TenantState := { st with lastSeen := c.now }

def admitN (g : Gate) (x : Tenant) (meter : Meter) (n : Int) (c : Clock) : Tenant × Bool :=
  let (x, p) := x.resolve g c (seen c)
  let st := x.object p
  let rate := st.policy.rateFor meter
  let k := (st.ingest meter).getD {}
  match takeWithDeficit st meter rate (rate * st.policy.burstSeconds) n true c.take with
  | (st, true) =>
    let k := { k with admittedCalls := k.admittedCalls + 1, admittedUnits := k.admittedUnits + n }
    (x.put p { st with ingest := Function.update st.ingest meter (some k) }, true)
  | (st, false) =>
    let k := { k with shedCalls := k.shedCalls + 1, shedUnits := k.shedUnits + n }
    (x.put p { st with ingest := Function.update st.ingest meter (some k) }, false)

/-- What a guarded query was decided on: the counter and the cap that were
compared, the release functions not called yet, and the answer. -/
structure Verdict where
  inFlight : Int := 0
  cap : Int := 0
  outstanding : Nat := 0
  err : Option QueryError := none
  deriving DecidableEq

def beginQuery (g : Gate) (x : Tenant) (c : Clock) : Tenant × Verdict :=
  let (x, p) := x.resolve g c (seen c)
  let st := x.object p
  let cap := st.policy.queryConcurrency
  let verdict := ⟨st.queries.inFlight, cap, x.outstanding, none⟩
  if 0 < cap ∧ cap ≤ st.queries.inFlight then
    let q := { st.queries with rejectedConcurrency := st.queries.rejectedConcurrency + 1 }
    (x.put p { st with queries := q }, { verdict with err := some .concurrency })
  else
    let rate := st.policy.rateFor .queries
    match take st .queries rate (rate * 60) 1 c.take with
    | (st, false) =>
      let q := { st.queries with rejectedBudget := st.queries.rejectedBudget + 1 }
      (x.put p { st with queries := q }, { verdict with err := some .budget })
    | (st, true) =>
      let q := { st.queries with allowed := st.queries.allowed + 1, inFlight := st.queries.inFlight + 1 }
      ({ x.put p { st with queries := q } with releases := x.releases ++ [⟨p, false⟩] }, verdict)

def release (x : Tenant) (i : Nat) : Tenant :=
  match x.releases[i]? with
  | none => x
  | some r =>
    if r.done then x
    else
      let st := x.object r.object
      let q := { st.queries with inFlight := st.queries.inFlight - 1 }
      { x.put r.object { st with queries := q } with releases := x.releases.set i { r with done := true } }

def effectivePolicy (g : Gate) (x : Tenant) (c : Clock) : Tenant := (x.resolve g c id).1

def invalidate (x : Tenant) : Tenant :=
  match x.entry with
  | none => x
  | some p =>
    let st := x.object p
    x.put p { st with
      policyKnown := false
      policyFetchInvalidated := if st.policyFetching then true else st.policyFetchInvalidated }

/-- The store read of a refresh; `stored` is what the source answers, `none`
also when it fails. -/
def read (g : Gate) (x : Tenant) (i : Nat) (stored : Option Policy) : Tenant :=
  match x.refreshes[i]? with
  | some ⟨none, readAt⟩ =>
    let eff := (stored.map fun p => p.merged g.defaults).getD g.defaults
    { x with refreshes := x.refreshes.set i ⟨some eff, readAt⟩ }
  | _ => x

def install (x : Tenant) (i : Nat) (c : Clock) : Tenant :=
  match x.refreshes[i]? with
  | some ⟨some eff, _⟩ =>
    let (x, p) := x.state c.created
    let st := { x.object p with policyFetching := false }
    let x := { x with refreshes := x.refreshes.eraseIdx i }
    if st.policyFetchInvalidated then x.put p { st with policyFetchInvalidated := false, policyKnown := false }
    else x.put p { st with policy := eff, policyKnown := true, policyFetched := c.fetched }
  | _ => x

/-! The notes on a call in step `k`, made from the tenant in front of it. -/

/-- An invalidation that finds the tenant's state. -/
def noteInvalidate (x : Tenant) (k : Nat) : Tenant :=
  { x.invalidate with invalidated := if x.entry.isSome then some k else x.invalidated }

/-- The first read of a refresh. -/
def noteRead (g : Gate) (x : Tenant) (i k : Nat) (stored : Option Policy) : Tenant :=
  let y := x.read g i stored
  if x.refreshes[i]?.any (·.read.isNone) then
    { y with refreshes := y.refreshes.modify i fun r => { r with readAt := k } }
  else y

/-- A refresh that ends with a policy in force. -/
def noteInstall (x : Tenant) (i : Nat) (c : Clock) : Tenant :=
  let y := x.install i c
  match x.refreshes[i]? with
  | some ⟨some _, readAt⟩ =>
    if y.current.any (·.policyKnown) then { y with installs := y.installs ++ [⟨readAt, x.invalidated⟩] } else y
  | _ => y

end Tenant

inductive Decision where
  | ingest (tenant : Bytes) (ok : Bool)
  | query (tenant : Bytes) (verdict : Tenant.Verdict)
  deriving DecidableEq

def Decision.tenant : Decision → Bytes
  | .ingest id _ | .query id _ => id

/-- `store` is the policy store behind the gate; `steps` numbers the
transitions and `decisions` is the gate's answers, oldest first. -/
structure System where
  tenants : Bytes → Tenant
  lastSweep : Fin gateShards → Int
  store : Bytes → Option Policy
  steps : Nat
  decisions : List Decision

open Fairness.System

/-- `zeroTime` is the zero value of `time.Time`. -/
def initial (zeroTime : Int) : System where
  tenants := fun _ => {}
  lastSweep := fun _ => zeroTime
  store := fun _ => none
  steps := 0
  decisions := []

namespace System

def sweepShardLocked (g : Gate) (s : System) (sh : Fin gateShards) (now : Int) : System :=
  if now - s.lastSweep sh < gateSweepInterval then s
  else { s with
    lastSweep := Function.update s.lastSweep sh now
    tenants := fun id => if shardFor id = sh then (s.tenants id).sweep g now else s.tenants id }

def on (s : System) (id : Bytes) (x : Tenant) : System := { s with tenants := Function.update s.tenants id x }

def answer (s : System) (d : Decision) : System := { s with decisions := s.decisions ++ [d] }

def admitN (g : Gate) (s : System) (id : Bytes) (meter : Meter) (n : Int) (c : Clock) : System :=
  if id = [] then s.answer (.ingest id true)
  else
    let s := s.sweepShardLocked g (shardFor id) c.now
    let (x, ok) := (s.tenants id).admitN g meter n c
    (s.on id x).answer (.ingest id ok)

def beginQuery (g : Gate) (s : System) (id : Bytes) (c : Clock) : System :=
  if id = [] then s.answer (.query id {})
  else
    let s := s.sweepShardLocked g (shardFor id) c.now
    let (x, verdict) := (s.tenants id).beginQuery g c
    (s.on id x).answer (.query id verdict)

end System

/-- One critical section, one store read or one store update. A label that names
a release function or a refresh that does not exist does nothing. -/
inductive Action where
  | admitN (tenant : Bytes) (meter : Meter) (n : Int) (clock : Clock)
  | beginQuery (tenant : Bytes) (clock : Clock)
  | release (tenant : Bytes) (i : Nat)
  | effectivePolicy (tenant : Bytes) (clock : Clock)
  | invalidate (tenant : Bytes)
  | update (tenant : Bytes) (policy : Option Policy)
  | read (tenant : Bytes) (i : Nat) (failed : Bool)
  | install (tenant : Bytes) (i : Nat) (clock : Clock)

def Action.tenant : Action → Bytes
  | .admitN id _ _ _ | .beginQuery id _ | .release id _ | .effectivePolicy id _ | .invalidate id | .update id _
  | .read id _ _ | .install id _ _ => id

def perform (g : Gate) (s : System) : Action → System
  | .admitN id meter n c => s.admitN g id meter n c
  | .beginQuery id c => s.beginQuery g id c
  | .release id i => s.on id ((s.tenants id).release i)
  | .effectivePolicy id c => s.on id ((s.tenants id).effectivePolicy g c)
  | .invalidate id => s.on id ((s.tenants id).noteInvalidate s.steps)
  | .update id policy => { s with store := Function.update s.store id policy }
  | .read id i failed => s.on id ((s.tenants id).noteRead g i s.steps (if failed then none else s.store id))
  | .install id i c => s.on id ((s.tenants id).noteInstall i c)

def step (g : Gate) (s : System) (a : Action) : System := { perform g s a with steps := s.steps + 1 }

def run (g : Gate) (s : System) (as : List Action) : System := as.foldl (step g) s

/-! What the parts leave alone. -/

@[simp] theorem policyFor_queries (g : Gate) (st : TenantState) (c : Clock) :
    (policyFor g st c).1.queries = st.queries := by
  unfold policyFor
  dsimp only
  split_ifs <;> rfl

variable {now : Int}

theorem taken_frame (taken : takeWithDeficit st meter rate capacity n allowDeficit now = (st', ok)) :
    st' = { st with buckets := st'.buckets } := by
  unfold takeWithDeficit at taken
  dsimp only at taken
  split_ifs at taken <;> cases taken <;> rfl

variable {x : Tenant}

namespace Tenant

theorem object_put (st : TenantState) (made : p < x.objects.length) : (x.put p st).object p = st := by
  simp [object, put, made]

end Tenant

/-- A property of one tenant, at a given number of steps, that no operation on
the tenant breaks. -/
structure Preserved (g : Gate) (P : Nat → Tenant → Prop) : Prop where
  start : P 0 {}
  tick : ∀ k x, P k x → P (k + 1) x
  sweep : ∀ k x now, P k x → P k (x.sweep g now)
  admitN : ∀ k x meter n c, P k x → P k (x.admitN g meter n c).1
  beginQuery : ∀ k x c, P k x → P k (x.beginQuery g c).1
  release : ∀ k x i, P k x → P k (x.release i)
  effectivePolicy : ∀ k x c, P k x → P k (x.effectivePolicy g c)
  invalidate : ∀ k x, P k x → P (k + 1) (x.noteInvalidate k)
  read : ∀ k x i stored, P k x → P (k + 1) (x.noteRead g i k stored)
  install : ∀ k x i c, P k x → P k (x.noteInstall i c)

variable {s : System} {g : Gate}

namespace System

variable {P : Tenant → Prop}

theorem on_forall {id : Bytes} (here : P x)
    (there : ∀ id, P (s.tenants id)) (id' : Bytes) : P ((s.on id x).tenants id') := by
  by_cases same : id' = id
  · subst same
    simpa [on] using here
  · simpa [on, same] using there id'

theorem sweepShardLocked_forall (sh : Fin gateShards)
    (sweeps : ∀ x, P x → P (x.sweep g now)) (before : ∀ id, P (s.tenants id)) (id : Bytes) :
    P ((s.sweepShardLocked g sh now).tenants id) := by
  unfold sweepShardLocked
  split
  · exact before id
  dsimp only
  split
  · exact sweeps _ (before id)
  · exact before id

@[simp] theorem sweepShardLocked_decisions (g : Gate) (s : System) (sh : Fin gateShards) (now : Int) :
    (s.sweepShardLocked g sh now).decisions = s.decisions := by
  unfold sweepShardLocked
  split <;> rfl

end System

theorem Preserved.step (kept : Preserved g P)
    (before : ∀ id, P s.steps (s.tenants id)) (a : Action) (id : Bytes) :
    P (step g s a).steps ((step g s a).tenants id) := by
  have tick : ∀ id, P (s.steps + 1) (s.tenants id) := fun id => kept.tick _ _ (before id)
  have swept sh now := sweepShardLocked_forall sh
    (fun x here => kept.sweep s.steps x now here) before
  cases a with
  | admitN tenant meter n c =>
    apply kept.tick
    show P s.steps ((s.admitN g tenant meter n c).tenants id)
    unfold System.admitN
    split
    · exact before id
    · exact on_forall (kept.admitN _ _ _ _ _ (swept _ _ tenant)) (swept _ _) id
  | beginQuery tenant c =>
    apply kept.tick
    show P s.steps ((s.beginQuery g tenant c).tenants id)
    unfold System.beginQuery
    split
    · exact before id
    · exact on_forall (kept.beginQuery _ _ _ (swept _ _ tenant)) (swept _ _) id
  | release tenant i => exact on_forall (kept.release _ _ i (tick tenant)) tick id
  | effectivePolicy tenant c => exact on_forall (kept.effectivePolicy _ _ c (tick tenant)) tick id
  | invalidate tenant => exact on_forall (kept.invalidate _ _ (before tenant)) tick id
  | update tenant policy => exact tick id
  | read tenant i failed => exact on_forall (kept.read _ _ i _ (before tenant)) tick id
  | install tenant i c => exact on_forall (kept.install _ _ i c (tick tenant)) tick id

theorem Preserved.run (kept : Preserved g P)
    (before : ∀ id, P s.steps (s.tenants id)) (as : List Action) (id : Bytes) :
    P (run g s as).steps ((run g s as).tenants id) := by
  induction as generalizing s with
  | nil => exact before id
  | cons a rest ih => exact ih (kept.step before a)

end Probectl.Fairness
