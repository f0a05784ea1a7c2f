import Probectl.Fairness.Accounting

/-! What a tenant is owed by a gate without a policy source, as an account: a
balance for each metered meter and the release functions already called. A sweep
does not show in it, and each operation acts on it alone. -/
namespace Probectl.Fairness

open TokenBucket List Function TenantState Release Gate

def Gate.rate (g : Gate) (m : Meter) : ℚ := g.defaults.rateFor m

/-- The capacity of the meter's bucket: a minute of queries, a burst of anything else. -/
def Gate.capacity (g : Gate) (m : Meter) : ℚ := g.rate m * if m = .queries then 60 else g.defaults.burstSeconds

/-- What a bucket holds at `now`; one that was never used, or was swept, is full. -/
def holds (capacity rate : ℚ) (b : Option Bucket) (now : Int) : ℚ :=
  match b with
  | none => capacity
  | some b => refill capacity rate b.tokens (seconds (now - b.last))

def TenantState.fill (st : TenantState) (m : Meter) (tokens : ℚ) (now : Int) : TenantState :=
  { st with buckets := update st.buckets m (some ⟨tokens, now⟩) }

variable {m : Meter} {rate capacity : ℚ} {n : Int} {allowDeficit : Bool} {st : TenantState} {now : Int}

theorem taken_unmetered (free : rate ≤ 0) : takeWithDeficit st m rate capacity n allowDeficit now = (st, true) := by
  simp [takeWithDeficit, free]

theorem taken_holds (metered : 0 < rate) : takeWithDeficit st m rate capacity n allowDeficit now =
      if (allowDeficit = false ∧ holds capacity rate (st.buckets m) now < n) ∨
          (allowDeficit = true ∧ holds capacity rate (st.buckets m) now ≤ 0) then
        (st.fill m (holds capacity rate (st.buckets m) now) now, false)
      else (st.fill m (holds capacity rate (st.buckets m) now - n) now, true) := by
  have capped refilled : (if capacity < refilled then capacity else refilled) = min capacity refilled := by
    rcases lt_or_ge capacity refilled with above | within
    · rw [if_pos above, min_eq_left above.le]
    · rw [if_neg (not_lt.mpr within), min_eq_right within]
  have held : min capacity (((st.buckets m).getD ⟨capacity, now⟩).tokens +
      seconds (now - ((st.buckets m).getD ⟨capacity, now⟩).last) * rate) = holds capacity rate (st.buckets m) now := by
    cases bucket : st.buckets m with
    | none => simp [holds, seconds]
    | some b => simp [holds, refill, mul_comm]
  unfold takeWithDeficit
  rw [if_neg (not_le.mpr metered)]
  simp only [capped, held, fill]

theorem policyFor_noSource (noSource : g.source = false) (c : Clock)
    (known : st.policyKnown = true → st.policy = g.defaults) : ∃ fetched, policyFor g st c =
      ({ st with policy := g.defaults, policyKnown := true, policyFetched := fetched }, false) := by
  unfold policyFor
  rw [noSource]
  by_cases cached : st.policyKnown = true
  · have policy := known cached
    split
    · exact ⟨st.policyFetched, by rw [← policy, ← cached]⟩
    · exact ⟨c.fetched, by simp [← policy, cached]⟩
  · exact ⟨c.fetched, by simp [cached]⟩

variable {d : Int}

theorem seconds_nonneg (later : 0 ≤ d) : 0 ≤ seconds d :=
  div_nonneg (Int.cast_nonneg later) (by decide)

theorem seconds_add (d e : Int) : seconds (d + e) = seconds d + seconds e := by
  simp [seconds, add_div]

theorem seconds_mono (le : d ≤ e) : seconds d ≤ seconds e := by
  have grown := seconds_add d (e - d)
  rw [add_sub_cancel] at grown
  rw [grown]
  exact le_add_of_nonneg_right (seconds_nonneg (sub_nonneg.mpr le))

theorem holds_later (b : Option Bucket) (metered : 0 < rate) (later : now ≤ τ) :
    holds capacity rate b τ = refill capacity rate (holds capacity rate b now) (seconds (τ - now)) := by
  have wait : 0 ≤ seconds (τ - now) := seconds_nonneg (sub_nonneg.mpr later)
  cases b with
  | none =>
    refine (refill_full ?_).symm
    show capacity - capacity ≤ _
    rw [sub_self]
    exact mul_nonneg metered.le wait
  | some b =>
    have split : τ - b.last = (now - b.last) + (τ - now) := by omega
    simp only [holds]
    rw [refill_refill metered.le wait, ← seconds_add, ← split]

structure Account where
  balance : Meter → ℚ
  called : List Bool

namespace Account

def outstanding (a : Account) : Nat := a.called.countP fun done => !done

def wait (g : Gate) (a : Account) (d : Int) : Account where
  balance m := if 0 < g.rate m then refill (g.capacity m) (g.rate m) (a.balance m) (seconds d) else 0
  called := a.called

def spend (g : Gate) (a : Account) (m : Meter) (n : ℚ) : Account :=
  if 0 < g.rate m then { a with balance := update a.balance m (min (g.capacity m) (a.balance m - n)) }
  else a

def admits (g : Gate) (a : Account) (m : Meter) : Bool := g.rate m ≤ 0 ∨ 0 < a.balance m

def admitN (g : Gate) (a : Account) (m : Meter) (n : Int) : Account := if a.admits g m then a.spend g m n else a

def verdict (g : Gate) (a : Account) : Tenant.Verdict where
  inFlight := a.outstanding
  cap := g.defaults.queryConcurrency
  outstanding := a.outstanding
  err :=
    if 0 < g.defaults.queryConcurrency ∧ g.defaults.queryConcurrency ≤ a.outstanding then some .concurrency
    else if 0 < g.rate .queries ∧ a.balance .queries < 1 then some .budget
    else none

def beginQuery (g : Gate) (a : Account) : Account :=
  if (a.verdict g).err = none then { a.spend g .queries 1 with called := a.called ++ [false] } else a

def release (a : Account) (i : Nat) : Account := { a with called := a.called.set i true }

theorem spend_with (g : Gate) (a : Account) (m : Meter) (n : ℚ) (called : List Bool) :
    spend g { a with called := called } m n = { a.spend g m n with called := called } := by
  unfold spend
  split <;> rfl

end Account

/-- A state whose policy is the gate's own and whose buckets are full again by
the time the tenant has been idle for the eviction window. -/
structure Solvent (g : Gate) (now : Int) (st : TenantState) : Prop where
  policy : st.policyKnown = true → st.policy = g.defaults
  idle : st.policyFetching = false
  past : ∀ m b, st.buckets m = some b → b.last ≤ st.lastSeen ∧ b.last ≤ now
  gap : ∀ m b, st.buckets m = some b → 0 < g.rate m → g.capacity m - b.tokens ≤ g.rate m * seconds g.idleTTL

variable {g : Gate} {now τ : Int} {st : TenantState}

theorem Solvent.of_unused (known : st.policyKnown = true → st.policy = g.defaults) (idle : st.policyFetching = false)
    (unused : ∀ m, st.buckets m = none) : Solvent g now st where
  policy := known
  idle := idle
  past m b used := by simp [unused] at used
  gap m b used := by simp [unused] at used

theorem Solvent.later (solvent : Solvent g now st) (later : now ≤ τ) : Solvent g τ st :=
  { solvent with past := fun m b used => ⟨(solvent.past m b used).1, (solvent.past m b used).2.trans later⟩ }

theorem Solvent.full (solvent : Solvent g now st) (idle : st.lastSeen < τ - g.idleTTL)
    (metered : 0 < g.rate m) : holds (g.capacity m) (g.rate m) (st.buckets m) τ = g.capacity m := by
  cases bucket : st.buckets m with
  | none => rfl
  | some b =>
    have last := (solvent.past m b bucket).1
    have waited : seconds g.idleTTL ≤ seconds (τ - b.last) := seconds_mono (by omega)
    have gap := solvent.gap m b bucket metered
    exact refill_full (gap.trans (mul_le_mul_of_nonneg_left waited metered.le))

variable {tokens : ℚ}

theorem bucket_fill (used : (st.fill m tokens τ).buckets m' = some b) :
    (m' = m ∧ b = ⟨tokens, τ⟩) ∨ st.buckets m' = some b := by
  by_cases same : m' = m
  · subst same
    exact .inl ⟨rfl, by simpa [fill, eq_comm] using used⟩
  · exact .inr (by simpa [fill, same] using used)

theorem Solvent.fill (solvent : Solvent g τ st) (seen : st.lastSeen = τ)
    (gap : g.capacity m - tokens ≤ g.rate m * seconds g.idleTTL) : Solvent g τ (st.fill m tokens τ) where
  policy := solvent.policy
  idle := solvent.idle
  past m' b used := by
    rcases bucket_fill used with ⟨rfl, rfl⟩ | before
    · exact ⟨seen.ge, le_refl τ⟩
    · exact solvent.past m' b before
  gap m' b used metered := by
    rcases bucket_fill used with ⟨rfl, rfl⟩ | before
    · exact gap
    · exact solvent.gap m' b before metered

theorem Solvent.holds_gap (solvent : Solvent g τ st) (metered : 0 < g.rate m) :
    g.capacity m - holds (g.capacity m) (g.rate m) (st.buckets m) τ ≤ g.rate m * seconds g.idleTTL := by
  have window : 0 ≤ g.rate m * seconds g.idleTTL :=
    mul_nonneg metered.le (seconds_nonneg g.idleTTL_pos.le)
  cases bucket : st.buckets m with
  | none =>
    show g.capacity m - g.capacity m ≤ _
    rwa [sub_self]
  | some b =>
    have last := (solvent.past m b bucket).2
    have grows : 0 ≤ g.rate m * seconds (τ - b.last) :=
      mul_nonneg metered.le (seconds_nonneg (sub_nonneg.mpr last))
    exact gap_refill window grows (solvent.gap m b bucket metered)

def TenantState.balance (g : Gate) (now : Int) (st : TenantState) (m : Meter) : ℚ :=
  if 0 < g.rate m then holds (g.capacity m) (g.rate m) (st.buckets m) now else 0

theorem balance_fill (metered : 0 < g.rate m) :
    (st.fill m tokens τ).balance g τ = update (st.balance g τ) m (min (g.capacity m) tokens) := by
  funext m'
  by_cases same : m' = m
  · subst same
    simp [balance, fill, metered, holds, refill, seconds]
  · simp [balance, fill, same]

theorem balance_le (metered : 0 < g.rate m) : st.balance g τ m ≤ g.capacity m := by
  rw [balance, if_pos metered]
  cases st.buckets m with
  | none => exact le_refl _
  | some b => exact min_le_left _ _

theorem balance_refused (metered : 0 < g.rate m) : (st.fill m (st.balance g τ m) τ).balance g τ = st.balance g τ := by
  rw [balance_fill metered, min_eq_right (balance_le metered), update_eq_self]

def Affords (g : Gate) (m : Meter) (n : Int) (allowDeficit : Bool) (held : ℚ) : Prop :=
  g.rate m ≤ 0 ∨ if allowDeficit then 0 < held else n ≤ held

instance (g : Gate) (m : Meter) (n : Int) (allowDeficit : Bool) (held : ℚ) :
    Decidable (Affords g m n allowDeficit held) :=
  inferInstanceAs (Decidable (_ ∨ _))

theorem Solvent.taken (solvent : Solvent g τ st) (seen : st.lastSeen = τ)
    (gap : 0 < g.rate m → Affords g m n allowDeficit (st.balance g τ m) →
      g.capacity m - (st.balance g τ m - n) ≤ g.rate m * seconds g.idleTTL) :
    ∃ st', takeWithDeficit st m (g.rate m) (g.capacity m) n allowDeficit τ =
        (st', decide (Affords g m n allowDeficit (st.balance g τ m))) ∧ Solvent g τ st' ∧
      ∀ called, Account.mk (st'.balance g τ) called =
        if Affords g m n allowDeficit (st.balance g τ m) then Account.spend g ⟨st.balance g τ, called⟩ m n
        else ⟨st.balance g τ, called⟩ := by
  rcases le_or_gt (g.rate m) 0 with free | metered
  · have affords : Affords g m n allowDeficit (st.balance g τ m) := .inl free
    refine ⟨st, by rw [taken_unmetered free, decide_eq_true affords], solvent, fun called => ?_⟩
    rw [if_pos affords, Account.spend, if_neg (not_lt.mpr free)]
  have held : holds (g.capacity m) (g.rate m) (st.buckets m) τ = st.balance g τ m := by
    rw [balance, if_pos metered]
  have refuses : (allowDeficit = false ∧ st.balance g τ m < n) ∨ (allowDeficit = true ∧ st.balance g τ m ≤ 0) ↔
      ¬ Affords g m n allowDeficit (st.balance g τ m) := by
    cases allowDeficit <;> simp [Affords, metered]
  rw [taken_holds metered, held]
  by_cases affords : Affords g m n allowDeficit (st.balance g τ m)
  · refine ⟨_, by rw [if_neg (fun no => refuses.mp no affords), decide_eq_true affords],
      solvent.fill seen (gap metered affords), fun called => ?_⟩
    rw [if_pos affords, Account.spend, if_pos metered, balance_fill metered]
  · refine ⟨_, by rw [if_pos (refuses.mpr affords), decide_eq_false affords],
      solvent.fill seen (held ▸ solvent.holds_gap metered), fun called => ?_⟩
    rw [if_neg affords, balance_refused metered]

namespace Tenant

variable {x : Tenant}

def view (x : Tenant) : TenantState := x.current.getD {}

structure Kept (g : Gate) (now : Int) (x : Tenant) : Prop where
  acc : Accounted x
  refreshes : x.refreshes = []
  solvent : Solvent g now x.view

def account (g : Gate) (now : Int) (x : Tenant) : Account where
  balance := x.view.balance g now
  called := x.releases.map done

@[simp] theorem account_outstanding : (x.account g now).outstanding = x.outstanding := by
  simp [account, Account.outstanding, outstanding, comp_def]

theorem Kept.later (kept : Kept g now x) (later : now ≤ τ) : Kept g τ x :=
  { kept with solvent := kept.solvent.later later }

theorem account_later (later : now ≤ τ) : x.account g τ = (x.account g now).wait g (τ - now) := by
  have balance m : (x.account g τ).balance m = ((x.account g now).wait g (τ - now)).balance m := by
    simp only [account, Account.wait, balance]
    split
    case isTrue metered => exact holds_later _ metered later
    case isFalse => rfl
  exact congrArg (Account.mk · (x.releases.map done)) (funext balance)

theorem sweep_cases (g : Gate) (x : Tenant) (now : Int) : x.sweep g now = x ∨
    ∃ st, x.current = some st ∧ st.lastSeen < now - g.idleTTL ∧ x.sweep g now = { x with entry := none } := by
  unfold sweep
  split
  case h_1 => exact .inl rfl
  case h_2 st found =>
    split_ifs with busy old
    · exact .inl rfl
    · exact .inr ⟨st, found, old, rfl⟩
    · exact .inl rfl

theorem Kept.sweep (kept : Kept g τ x) : Kept g τ (x.sweep g τ) ∧ (x.sweep g τ).account g τ = x.account g τ := by
  have acc := kept.acc.sweep g τ
  rcases sweep_cases g x τ with same | ⟨st, found, old, swept⟩
  · rw [same]
    exact ⟨kept, rfl⟩
  have view : x.view = st := by simp [view, found]
  rw [swept] at acc ⊢
  refine ⟨⟨acc, kept.refreshes, Solvent.of_unused nofun rfl (fun _ => rfl)⟩, ?_⟩
  have balance m : (account g τ { x with entry := none }).balance m = (x.account g τ).balance m := by
    simp only [account, view, balance]
    split
    case isTrue metered => exact ((view ▸ kept.solvent).full old metered).symm
    case isFalse => rfl
  exact congrArg (Account.mk · (x.releases.map done)) (funext balance)

def begun (x : Tenant) (now : Int) : TenantState := x.current.getD { lastSeen := now }

theorem begun_eq (x : Tenant) (now : Int) : x.begun now = { x.view with lastSeen := (x.begun now).lastSeen } := by
  cases found : x.current <;> simp [begun, view, found]

theorem state_object (x : Tenant) (now : Int) : (x.state now).1.object (x.state now).2 = x.begun now := by
  unfold state begun
  split
  case h_1 p here => simp [current, here]
  case h_2 gone => simp [current, gone, object]

variable {p : Nat}

theorem view_put (acc : Accounted x) (here : x.entry = some p) (st : TenantState) : (x.put p st).view = st := by
  show ((x.entry.map (x.put p st).object).getD {}) = st
  rw [here, Option.map_some, Option.getD_some, object_put st (acc.made p here)]

theorem kept_view (acc : Accounted x) (quiet : x.refreshes = []) (view : x.view = st) (solvent : Solvent g τ st) :
    Kept g τ x ∧ x.account g τ = ⟨st.balance g τ, x.releases.map done⟩ :=
  ⟨⟨acc, quiet, view ▸ solvent⟩, by rw [account, view]⟩

structure Resolved (g : Gate) (x y : Tenant) (p : Nat) : Prop where
  acc : Accounted y
  here : y.entry = some p
  releases : y.releases = x.releases
  refreshes : y.refreshes = []
  policy : (y.object p).policy = g.defaults
  idle : (y.object p).policyFetching = false
  buckets : (y.object p).buckets = x.view.buckets

theorem state_refreshes (x : Tenant) (now : Int) : (x.state now).1.refreshes = x.refreshes := by
  unfold state
  split <;> rfl

theorem Kept.resolve (noSource : g.source = false) (kept : Kept g now x) (c : Clock)
    (touch : TenantState → TenantState) (frame : ∀ st, touch st = { st with lastSeen := (touch st).lastSeen }) :
    Resolved g x (x.resolve g c touch).1 (x.resolve g c touch).2 ∧
      ((x.resolve g c touch).1.object (x.resolve g c touch).2).lastSeen = (touch (x.begun c.created)).lastSeen := by
  have made := kept.acc.state c.created
  have here := state_entry x c.created
  have acc := kept.acc.resolve g c touch (fun st => by rw [frame])
  have touched : touch (x.begun c.created) = { x.view with lastSeen := (touch (x.begun c.created)).lastSeen } := by
    rw [frame, begun_eq]
  have known : (touch (x.begun c.created)).policyKnown = true → (touch (x.begun c.created)).policy = g.defaults := by
    rw [touched]
    exact kept.solvent.policy
  obtain ⟨fetched, resolved⟩ := policyFor_noSource noSource c known
  have eq : x.resolve g c touch = ((x.state c.created).1.put (x.state c.created).2
      { x.view with
        lastSeen := (touch (x.begun c.created)).lastSeen
        policy := g.defaults, policyKnown := true, policyFetched := fetched }, (x.state c.created).2) := by
    unfold Tenant.resolve
    dsimp only
    rw [state_object, resolved, touched]
    rfl
  rw [eq] at acc ⊢
  have quiet := (state_refreshes x c.created).trans kept.refreshes
  refine ⟨⟨acc, here, state_releases x c.created, quiet, ?_, ?_, ?_⟩, ?_⟩ <;> rw [object_put _ (made.made _ here)]
  exact kept.solvent.idle

variable {y : Tenant}

theorem Resolved.solvent (resolved : Resolved g x y p) (kept : Kept g τ x)
    (seen : ∀ m b, x.view.buckets m = some b → b.last ≤ (y.object p).lastSeen) : Solvent g τ (y.object p) where
  policy _ := resolved.policy
  idle := resolved.idle
  past m b used := by
    rw [resolved.buckets] at used
    exact ⟨seen m b used, (kept.solvent.past m b used).2⟩
  gap m b used := by
    rw [resolved.buckets] at used
    exact kept.solvent.gap m b used

theorem Resolved.account (resolved : Resolved g x y p) :
    x.account g τ = ⟨(y.object p).balance g τ, x.releases.map done⟩ := by
  have balance : (y.object p).balance g τ = x.view.balance g τ := by
    funext m
    rw [balance, resolved.buckets, balance]
  rw [balance]
  rfl

theorem Resolved.settle (resolved : Resolved g x y p) (solvent : Solvent g τ st)
    (ingest : Meter → Option Counters) (queries : QueryCounters)
    (same : queries.inFlight = (y.object p).queries.inFlight) :
    Kept g τ (y.put p { st with ingest := ingest, queries := queries }) ∧
      (y.put p { st with ingest := ingest, queries := queries }).account g τ =
        ⟨st.balance g τ, x.releases.map done⟩ := by
  have view := view_put resolved.acc resolved.here { st with ingest := ingest, queries := queries }
  have settled := kept_view (resolved.acc.put resolved.here _ same) resolved.refreshes view
    { solvent with }
  exact resolved.releases ▸ settled

variable {held : ℚ}

theorem gap_of_batch (ingest : m ≠ .queries) (positive : 0 < held)
    (small : n ≤ g.rate m * (seconds g.idleTTL - g.defaults.burstSeconds)) :
    g.capacity m - (held - n) ≤ g.rate m * seconds g.idleTTL := by
  have capacity : g.capacity m = g.rate m * g.defaults.burstSeconds := by rw [capacity, if_neg ingest]
  linarith

variable {c : Clock}

theorem Kept.admitN (noSource : g.source = false) (kept : Kept g τ x) (now : c.now = τ) (once : c.take = τ)
    (ingest : m ≠ .queries)
    (small : g.rate m ≤ 0 ∨ n ≤ g.rate m * (seconds g.idleTTL - g.defaults.burstSeconds)) :
    (x.admitN g m n c).2 = (x.account g τ).admits g m ∧ Kept g τ (x.admitN g m n c).1 ∧
      (x.admitN g m n c).1.account g τ = (x.account g τ).admitN g m n := by
  obtain ⟨resolved, seen⟩ := kept.resolve noSource c (Tenant.seen c) (fun _ => rfl)
  have solvent := resolved.solvent kept (fun m b used => seen.trans now ▸ (kept.solvent.past m b used).2)
  rw [resolved.account]
  unfold Tenant.admitN
  dsimp only
  generalize (x.resolve g c (Tenant.seen c)).1 = y at *
  generalize (x.resolve g c (Tenant.seen c)).2 = p at *
  have rate : (y.object p).policy.rateFor m = g.rate m := by rw [resolved.policy, rate]
  have capacity : g.rate m * (y.object p).policy.burstSeconds = g.capacity m := by
    rw [resolved.policy, capacity, if_neg ingest]
  have gap metered (affords : Affords g m n true ((y.object p).balance g τ m)) :=
    gap_of_batch ingest (affords.resolve_left (not_le.mpr metered)) (small.resolve_left (not_le.mpr metered))
  obtain ⟨st, taken, solvent', balance⟩ := solvent.taken (seen.trans now) gap
  have frame := congrArg queries (taken_frame taken)
  have settled ingest :=
    resolved.settle solvent' ingest st.queries (by rw [frame])
  simp only [balance] at settled
  have admits : Account.admits g ⟨(y.object p).balance g τ, x.releases.map done⟩ m =
      decide (Affords g m n true ((y.object p).balance g τ m)) := rfl
  rw [rate, capacity, once, taken, Account.admitN, admits]
  by_cases affords : Affords g m n true ((y.object p).balance g τ m)
  · simp only [affords, decide_true] at settled ⊢
    exact ⟨trivial, settled _⟩
  · simp only [affords, decide_false] at settled ⊢
    exact ⟨trivial, settled _⟩

theorem Resolved.settleQuery (resolved : Resolved g x y p) (solvent : Solvent g τ st)
    (queries : QueryCounters) (more : queries.inFlight = (y.object p).queries.inFlight + 1) :
    let z := { y.put p { st with queries := queries } with releases := y.releases ++ [⟨p, false⟩] }
    Kept g τ z ∧ z.account g τ = ⟨st.balance g τ, x.releases.map done ++ [false]⟩ := by
  have view := view_put resolved.acc resolved.here { st with queries := queries }
  obtain ⟨kept, account⟩ := kept_view (resolved.acc.query resolved.here more) resolved.refreshes view
    { solvent with }
  refine ⟨kept, account.trans ?_⟩
  rw [map_append, resolved.releases]
  rfl

theorem gap_of_query (metered : 0 < g.rate .queries) (enough : 1 ≤ held) (window : 60 ≤ seconds g.idleTTL) :
    g.capacity .queries - (held - (1 : Int)) ≤ g.rate .queries * seconds g.idleTTL := by
  have capacity : g.capacity .queries = g.rate .queries * 60 := by rw [capacity, if_pos rfl]
  have minute : g.rate .queries * 60 ≤ g.rate .queries * seconds g.idleTTL :=
    mul_le_mul_of_nonneg_left window metered.le
  push_cast
  linarith

theorem Kept.beginQuery (noSource : g.source = false) (kept : Kept g τ x) (now : c.now = τ)
    (once : c.take = τ) (window : g.rate .queries ≤ 0 ∨ 60 ≤ seconds g.idleTTL) :
    (x.beginQuery g c).2 = (x.account g τ).verdict g ∧ Kept g τ (x.beginQuery g c).1 ∧
      (x.beginQuery g c).1.account g τ = (x.account g τ).beginQuery g := by
  obtain ⟨resolved, seen⟩ := kept.resolve noSource c (Tenant.seen c) (fun _ => rfl)
  have solvent := resolved.solvent kept (fun m b used => seen.trans now ▸ (kept.solvent.past m b used).2)
  have counted := resolved.acc.counted _ resolved.here
  have outstanding : (x.resolve g c (Tenant.seen c)).1.outstanding = (x.account g τ).outstanding := by
    rw [account_outstanding, Tenant.outstanding, resolved.releases, Tenant.outstanding]
  unfold Tenant.beginQuery
  dsimp only
  rw [counted, outstanding]
  generalize (x.resolve g c (Tenant.seen c)).1 = y at *
  generalize (x.resolve g c (Tenant.seen c)).2 = p at *
  have rate : (y.object p).policy.rateFor .queries = g.rate .queries := by rw [resolved.policy, rate]
  have capacity : g.rate .queries * 60 = g.capacity .queries := by rw [capacity, if_pos rfl]
  have cap : (y.object p).policy.queryConcurrency = g.defaults.queryConcurrency := by rw [resolved.policy]
  have gap metered (affords : Affords g .queries 1 false ((y.object p).balance g τ .queries)) :=
    gap_of_query metered (affords.resolve_left (not_le.mpr metered)) (window.resolve_left (not_le.mpr metered))
  obtain ⟨st, taken, solvent', balance⟩ := solvent.taken (seen.trans now) gap
  have frame := congrArg queries (taken_frame taken)
  have budget : 0 < g.rate .queries ∧ (x.account g τ).balance .queries < 1 ↔
      ¬ Affords g .queries 1 false ((y.object p).balance g τ .queries) := by
    rw [resolved.account]
    simp [Affords]
  rw [outstanding] at counted
  rw [rate, capacity, once, cap, take, taken, Account.beginQuery, Account.verdict]
  by_cases capped : 0 < g.defaults.queryConcurrency ∧ g.defaults.queryConcurrency ≤ (x.account g τ).outstanding
  · have settled queries (same : queries.inFlight = (y.object p).queries.inFlight) :=
      resolved.settle solvent (y.object p).ingest queries same
    rw [← resolved.account] at settled
    simp only [if_pos capped]
    exact ⟨trivial, settled _ counted.symm⟩
  by_cases affords : Affords g .queries 1 false ((y.object p).balance g τ .queries)
  · have settled := resolved.settleQuery solvent' { st.queries with
      allowed := st.queries.allowed + 1, inFlight := st.queries.inFlight + 1 } (by rw [frame])
    have spent := (x.account g τ).spend_with g .queries 1 ((x.account g τ).called ++ [false])
    simp only [balance, affords, if_true] at settled
    simp only [if_neg capped, affords, decide_true, if_neg (fun short => budget.mp short affords), if_true, ← spent]
    refine ⟨trivial, settled.1, settled.2.trans ?_⟩
    rw [resolved.account, Int.cast_one]
  · have settled queries (same : queries.inFlight = (y.object p).queries.inFlight) :=
      resolved.settle solvent' st.ingest queries same
    simp only [balance, affords] at settled
    rw [← resolved.account] at settled
    simp only [if_neg capped, affords, decide_false, if_pos (budget.mpr affords)]
    exact ⟨trivial, settled _ (by rw [frame])⟩

theorem Kept.release (kept : Kept g τ x) (i : Nat) :
    Kept g τ (x.release i) ∧ (x.release i).account g τ = (x.account g τ).release i := by
  have acc := kept.acc.release i
  cases at_i : x.releases[i]? with
  | none =>
    have out : x.releases.length ≤ i := List.getElem?_eq_none_iff.mp at_i
    have same : x.release i = x := by simp [Tenant.release, at_i]
    rw [same]
    refine ⟨kept, ?_⟩
    simp [account, Account.release, set_eq_of_length_le, out]
  | some r =>
    obtain ⟨within, at_r⟩ := List.getElem?_eq_some_iff.mp at_i
    cases done : r.done with
    | true =>
      have same : x.release i = x := by simp [Tenant.release, at_i, done]
      have called : (x.releases.map Release.done).set i true = x.releases.map Release.done := by
        rw [← done, ← at_r, ← getElem_map Release.done, set_getElem_self]
        simpa using within
      rw [same]
      exact ⟨kept, congrArg (Account.mk (x.view.balance g τ)) called.symm⟩
    | false =>
      have here : x.entry = some r.object := kept.acc.held r (mem_of_getElem? at_i) done
      have view : x.view = x.object r.object := by simp [view, current, here]
      have solvent := view ▸ kept.solvent
      simp only [Tenant.release, at_i, done, Bool.false_eq_true, if_false] at acc ⊢
      obtain ⟨kept', account⟩ := kept_view acc kept.refreshes (view_put kept.acc here _)
        { solvent with }
      refine ⟨kept', account.trans ?_⟩
      rw [map_set, Tenant.account, view]
      rfl

theorem Kept.effectivePolicy (noSource : g.source = false) (kept : Kept g τ x) (c : Clock) :
    Kept g τ (x.effectivePolicy g c) ∧ (x.effectivePolicy g c).account g τ = x.account g τ := by
  obtain ⟨resolved, seen⟩ := kept.resolve noSource c id (fun _ => rfl)
  have view : (x.effectivePolicy g c).view = (x.resolve g c id).1.object (x.resolve g c id).2 := by
    simp [Tenant.view, current, Tenant.effectivePolicy, resolved.here]
  have solvent := resolved.solvent kept (by
    intro m b used
    rw [seen]
    cases found : x.current with
    | none => simp [Tenant.view, found] at used
    | some st => simpa [Tenant.view, begun, found] using (kept.solvent.past m b used).1)
  have effective := kept_view resolved.acc resolved.refreshes view solvent
  rw [resolved.releases, ← resolved.account] at effective
  exact effective

theorem Kept.invalidate (kept : Kept g τ x) (k : Nat) :
    Kept g τ (x.noteInvalidate k) ∧ (x.noteInvalidate k).account g τ = x.account g τ := by
  suffices plain : Kept g τ x.invalidate ∧ x.invalidate.account g τ = x.account g τ from
    ⟨⟨plain.1.acc.of_same rfl rfl rfl, plain.1.refreshes, plain.1.solvent⟩, plain.2⟩
  have acc := kept.acc.invalidate
  cases here : x.entry with
  | none =>
    have same : x.invalidate = x := by simp [Tenant.invalidate, here]
    rw [same]
    exact ⟨kept, rfl⟩
  | some p =>
    have view : x.view = x.object p := by simp [view, current, here]
    have solvent := view ▸ kept.solvent
    simp only [Tenant.invalidate, here] at acc ⊢
    obtain ⟨kept', account⟩ := kept_view acc kept.refreshes (view_put kept.acc here _)
      { solvent with policy := fun own => by cases own }
    refine ⟨kept', account.trans ?_⟩
    rw [Tenant.account, view]
    rfl

theorem Kept.read (kept : Kept g τ x) (i k : Nat) (stored : Option Policy) : x.noteRead g i k stored = x := by
  simp [Tenant.noteRead, Tenant.read, kept.refreshes]

theorem Kept.install (kept : Kept g τ x) (i : Nat) (c : Clock) : x.noteInstall i c = x := by
  simp [Tenant.noteInstall, Tenant.install, kept.refreshes]

end Tenant

end Probectl.Fairness
