import Probectl.Lib.Run
import Probectl.Fairness.Gate

/-! The query guard's accounting: the in-flight counter of a tenant is the number
of its release functions that have not been called. -/
namespace Probectl.Fairness

open List Fairness.System

namespace Tenant

def inFlight (x : Tenant) : Int := (x.current.map fun st => st.queries.inFlight).getD 0

/-- Every release function not called yet closes over the state the shard maps
the tenant to, and that state counts them. -/
structure Accounted (x : Tenant) : Prop where
  made : ∀ p, x.entry = some p → p < x.objects.length
  held : ∀ r ∈ x.releases, r.done = false → x.entry = some r.object
  counted : ∀ p, x.entry = some p → (x.object p).queries.inFlight = x.outstanding

variable {x : Tenant}

theorem Accounted.none_outstanding (acc : Accounted x) (gone : x.entry = none) : x.outstanding = 0 := by
  apply countP_eq_zero.mpr
  intro r mem undone
  simpa [gone] using acc.held r mem (by simpa using undone)

theorem Accounted.inFlight_eq (acc : Accounted x) : x.inFlight = x.outstanding := by
  cases entry : x.entry with
  | none => simp [inFlight, current, entry, acc.none_outstanding]
  | some p => simp [inFlight, current, entry, acc.counted]

variable {p : Nat}

theorem Accounted.put (acc : Accounted x) (here : x.entry = some p) (st : TenantState)
    (same : st.queries.inFlight = (x.object p).queries.inFlight) : Accounted (x.put p st) where
  made q at_q := by simpa [Tenant.put] using acc.made q at_q
  held := acc.held
  counted q at_q := by
    obtain rfl : p = q := Option.some.inj (here.symm.trans at_q)
    rw [object_put st (acc.made p here), same]
    exact acc.counted p here

theorem Accounted.of_same (acc : Accounted x) (objects : y.objects = x.objects)
    (entry : y.entry = x.entry) (releases : y.releases = x.releases) : Accounted y where
  made := by
    rw [entry, objects]
    exact acc.made
  held := by
    rw [entry, releases]
    exact acc.held
  counted := by
    simp only [entry, object, objects, outstanding, releases]
    exact acc.counted

theorem state_entry (x : Tenant) (now : Int) : (x.state now).1.entry = some (x.state now).2 := by
  unfold state
  split <;> simp_all

theorem Accounted.state (acc : Accounted x) (now : Int) : Accounted (x.state now).1 := by
  unfold Tenant.state
  split
  case h_1 => exact acc
  case h_2 gone =>
    have none_held : x.outstanding = 0 := acc.none_outstanding gone
    refine ⟨?_, ?_, ?_⟩
    · intro p at_p
      cases at_p
      simp
    · intro r mem undone
      simpa [gone] using acc.held r mem undone
    · intro p at_p
      cases at_p
      have fresh : (0 : Int) = x.outstanding := by rw [none_held, Nat.cast_zero]
      simpa [object, outstanding] using fresh

theorem resolve_entry (g : Gate) (x : Tenant) (c : Clock) (touch : TenantState → TenantState) :
    (x.resolve g c touch).1.entry = some (x.resolve g c touch).2 :=
  state_entry x c.created

section
variable (acc : Accounted x)
include acc

theorem Accounted.resolve (g : Gate) (c : Clock) (touch : TenantState → TenantState)
    (same : ∀ st, (touch st).queries = st.queries) : Accounted (x.resolve g c touch).1 := by
  have put := (acc.state c.created).put (state_entry x c.created)
    (policyFor g (touch ((x.state c.created).1.object (x.state c.created).2)) c).1 (by simp [same])
  exact put.of_same rfl rfl rfl

theorem Accounted.sweep (g : Gate) (now : Int) : Accounted (x.sweep g now) := by
  unfold Tenant.sweep
  split
  case h_1 => exact acc
  case h_2 st found =>
    split_ifs with busy old
    · exact acc
    · have idle : x.inFlight = st.queries.inFlight := by simp [inFlight, found]
      have none_held : x.outstanding = 0 := by
        have := acc.inFlight_eq
        omega
      refine ⟨nofun, ?_, nofun⟩
      intro r mem undone
      exact absurd (by simp [undone]) (countP_eq_zero.mp none_held r mem)
    · exact acc

theorem Accounted.admitN (g : Gate) (meter : Meter) (n : Int) (c : Clock) : Accounted (x.admitN g meter n c).1 := by
  have resolved := acc.resolve g c (seen c) (fun _ => rfl)
  have here := resolve_entry g x c (seen c)
  unfold Tenant.admitN
  dsimp only
  split
  case h_1 st taken =>
    apply resolved.put here
    rw [taken_frame taken]
  case h_2 st taken =>
    apply resolved.put here
    rw [taken_frame taken]

theorem Accounted.query (here : x.entry = some p)
    (more : st.queries.inFlight = (x.object p).queries.inFlight + 1) :
    Accounted { x.put p st with releases := x.releases ++ [⟨p, false⟩] } where
  made q at_q := by simpa [Tenant.put] using acc.made q at_q
  held := forall_mem_snoc acc.held fun _ => here
  counted q at_q := by
    obtain rfl : p = q := Option.some.inj (here.symm.trans at_q)
    have before := acc.counted p here
    have put := object_put st (acc.made p here)
    simp only [object, outstanding] at before put more ⊢
    rw [put, more, before]
    simp

theorem Accounted.beginQuery (g : Gate) (c : Clock) : Accounted (x.beginQuery g c).1 := by
  have resolved := acc.resolve g c (seen c) (fun _ => rfl)
  have here := resolve_entry g x c (seen c)
  unfold Tenant.beginQuery
  dsimp only
  split
  · exact resolved.put here _ rfl
  split
  case h_1 st taken =>
    apply resolved.put here
    rw [taken_frame taken]
  case h_2 st taken =>
    apply resolved.query here
    rw [taken_frame taken]

theorem Accounted.release (i : Nat) : Accounted (x.release i) := by
  unfold Tenant.release
  split
  case h_1 => exact acc
  case h_2 r at_i =>
    split
    case isTrue => exact acc
    case isFalse undone =>
      have undone : r.done = false := by simpa using undone
      have here : x.entry = some r.object := acc.held r (mem_of_getElem? at_i) undone
      have before := acc.counted r.object here
      obtain ⟨within, at_i⟩ := List.getElem?_eq_some_iff.mp at_i
      refine ⟨?_, ?_, ?_⟩
      · intro q at_q
        simpa [Tenant.put] using acc.made q at_q
      · intro r' mem undone'
        rcases mem_or_eq_of_mem_set mem with old | rfl
        · exact acc.held r' old undone'
        · cases undone'
      · intro q at_q
        obtain rfl : r.object = q := Option.some.inj (here.symm.trans at_q)
        have put := object_put { x.object r.object with
          queries := { (x.object r.object).queries with inFlight := (x.object r.object).queries.inFlight - 1 } }
          (acc.made r.object here)
        have counts : 0 < x.outstanding := countP_pos_iff.mpr ⟨r, at_i ▸ getElem_mem within, by simp [undone]⟩
        simp only [object, outstanding] at before put counts ⊢
        rw [put, before, countP_set within]
        simp [at_i, undone]
        omega

theorem Accounted.install (i : Nat) (c : Clock) : Accounted (x.install i c) := by
  have made := acc.state c.created
  have here := state_entry x c.created
  unfold Tenant.install
  split
  case h_2 => exact acc
  case h_1 =>
    dsimp only
    split <;> exact (made.put here _ (by rfl)).of_same rfl rfl rfl

theorem Accounted.noteInstall (i : Nat) (c : Clock) : Accounted (x.noteInstall i c) := by
  have installed := acc.install i c
  unfold Tenant.noteInstall
  dsimp only
  split
  · split
    · exact installed.of_same rfl rfl rfl
    · exact installed
  · exact installed

theorem Accounted.invalidate : Accounted x.invalidate := by
  unfold Tenant.invalidate
  split
  case h_1 => exact acc
  case h_2 p here => exact acc.put here _ (by rfl)

theorem Accounted.noteRead (g : Gate) (i k : Nat) (stored : Option Policy) : Accounted (x.noteRead g i k stored) := by
  have read : Accounted (x.read g i stored) := by
    unfold Tenant.read
    split
    · exact acc.of_same rfl rfl rfl
    · exact acc
  unfold Tenant.noteRead
  dsimp only
  split
  · exact read.of_same rfl rfl rfl
  · exact read

end

end Tenant

theorem accounted_preserved (g : Gate) : Preserved g fun _ x => x.Accounted where
  start := ⟨nofun, by simp, nofun⟩
  tick _ _ acc := acc
  sweep _ _ now acc := acc.sweep g now
  admitN _ _ meter n c acc := acc.admitN g meter n c
  beginQuery _ _ c acc := acc.beginQuery g c
  release _ _ i acc := acc.release i
  effectivePolicy _ _ c acc := acc.resolve g c id (fun _ => rfl)
  invalidate _ _ acc := acc.invalidate.of_same rfl rfl rfl
  read k _ i stored acc := acc.noteRead g i k stored
  install _ _ i c acc := acc.noteInstall i c

/-! The guard seen from outside: which queries it has let through, by its answers, and the
release functions of which of them were called. -/

def Decision.allows (t : Bytes) : Decision → Bool
  | .query id v => id = t ∧ v.err = none
  | .ingest .. => false

def System.allowed (s : System) (t : Bytes) : Nat := s.decisions.countP (Decision.allows t)

/-- The query whose release function is called; there is one for each that was let through. -/
def System.calls (s : System) (t : Bytes) : Action → List Nat
  | .release id i => if id = t ∧ i < s.allowed t then [i] else []
  | _ => []

def called (g : Gate) (t : Bytes) : System → List Action → List Nat
  | _, [] => []
  | s, a :: rest => s.calls t a ++ called g t (step g s a) rest

/-- The policy that holds for a tenant: the defaults until one is known. -/
def Tenant.effective (g : Gate) (x : Tenant) : Policy :=
  match x.current with
  | some st => if st.policyKnown then st.policy else g.defaults
  | none => g.defaults

variable {g : Gate} {s : System} {t : Bytes} {x : Tenant}

namespace Tenant

variable (g x) (c : Clock) (i k : Nat)

theorem state_releases (now : Int) : (x.state now).1.releases = x.releases := by
  unfold state
  split <;> rfl

theorem resolve_releases (touch : TenantState → TenantState) : (x.resolve g c touch).1.releases = x.releases :=
  state_releases x c.created

theorem sweep_releases (now : Int) : (x.sweep g now).releases = x.releases := by
  unfold sweep
  split
  · rfl
  · split_ifs <;> rfl

theorem admitN_releases (meter : Meter) (n : Int) : (x.admitN g meter n c).1.releases = x.releases := by
  have resolved := resolve_releases g x c (seen c)
  unfold admitN
  dsimp only
  split <;> exact resolved

theorem noteInvalidate_releases : (x.noteInvalidate k).releases = x.releases := by
  unfold noteInvalidate invalidate
  dsimp only
  split <;> rfl

theorem noteRead_releases (stored : Option Policy) : (x.noteRead g i k stored).releases = x.releases := by
  have read : (x.read g i stored).releases = x.releases := by
    unfold Tenant.read
    split <;> rfl
  unfold noteRead
  dsimp only
  split <;> exact read

theorem noteInstall_releases : (x.noteInstall i c).releases = x.releases := by
  have installed : (x.install i c).releases = x.releases := by
    unfold install
    split
    · dsimp only
      split <;> exact state_releases x c.created
    · rfl
  unfold noteInstall
  dsimp only
  split
  · split
    all_goals exact installed
  · exact installed

/-- A query that is let through is given a release function, and no other is. -/
theorem beginQuery_releases :
    ((x.beginQuery g c).2.err = none ∧ ∃ p, (x.beginQuery g c).1.releases = x.releases ++ [⟨p, false⟩]) ∨
      ((x.beginQuery g c).2.err ≠ none ∧ (x.beginQuery g c).1.releases = x.releases) := by
  have resolved := resolve_releases g x c (seen c)
  unfold beginQuery
  dsimp only
  split
  · exact .inr ⟨nofun, resolved⟩
  split
  · exact .inr ⟨nofun, resolved⟩
  · exact .inl ⟨rfl, _, by rw [resolved]⟩

theorem release_done : (x.release i).releases.map Release.done = (x.releases.map Release.done).set i true ∧
    (x.release i).releases.map Release.object = x.releases.map Release.object := by
  unfold release
  split
  case h_1 missing =>
    rw [set_eq_of_length_le (by simpa using missing)]
    exact ⟨rfl, rfl⟩
  case h_2 r at_i =>
    obtain ⟨within, rfl⟩ := List.getElem?_eq_some_iff.mp at_i
    split
    case isTrue done =>
      refine ⟨ext_getElem (by simp) fun j _ _ => ?_, rfl⟩
      by_cases own : i = j
      · subst own
        simp [done]
      · simp [own]
    case isFalse =>
      dsimp only
      rw [map_set, map_set]
      refine ⟨rfl, ?_⟩
      apply ext_getElem (by simp)
      intro j _ _
      by_cases own : i = j <;> simp [own]

variable {c x g}

theorem policyFor_policy (st : TenantState) :
    (policyFor g st c).1.policy = if st.policyKnown then st.policy else g.defaults := by
  unfold policyFor
  dsimp only
  split_ifs <;> simp_all

/-- A query at the cap of the effective policy is turned away. -/
theorem Accounted.capped (acc : Accounted x) (positive : 0 < (x.effective g).queryConcurrency)
    (reached : (x.effective g).queryConcurrency ≤ x.inFlight) : (x.beginQuery g c).2.err = some .concurrency := by
  have resolved := acc.resolve g c (seen c) (fun _ => rfl)
  have counted := resolved.counted _ (resolve_entry g x c (seen c))
  rw [outstanding, resolve_releases, ← outstanding, ← acc.inFlight_eq] at counted
  have policy : ((x.resolve g c (seen c)).1.object (x.resolve g c (seen c)).2).policy = x.effective g := by
    have put := object_put (policyFor g (seen c ((x.state c.created).1.object (x.state c.created).2)) c).1
      ((acc.state c.created).made _ (state_entry x c.created))
    refine (congrArg TenantState.policy put).trans ?_
    rw [policyFor_policy]
    unfold effective current Tenant.state
    cases entry : x.entry with
    | none => simp [object, seen]
    | some p => rfl
  unfold Tenant.beginQuery
  dsimp only
  rw [policy, counted, if_pos ⟨positive, reached⟩]

end Tenant

namespace System

theorem on_releases {id : Bytes} (same : x.releases = (s.tenants id).releases) (t : Bytes) :
    ((s.on id x).tenants t).releases = (s.tenants t).releases := by
  by_cases own : t = id
  · subst own
    simpa [on] using same
  · simp [on, own]

theorem swept_releases (sh : Fin gateShards) (now : Int) (t : Bytes) :
    ((s.sweepShardLocked g sh now).tenants t).releases = (s.tenants t).releases := by
  unfold sweepShardLocked
  split
  · rfl
  dsimp only
  split
  · exact Tenant.sweep_releases g _ now
  · rfl

end System

/-- What one step does to a tenant's release functions and to what is seen of them. -/
theorem step_releases (named : t ≠ []) (a : Action) :
    (((step g s a).tenants t).releases = (s.tenants t).releases ∧ (step g s a).allowed t = s.allowed t ∧ s.calls t a = []) ∨
      (∃ p, ((step g s a).tenants t).releases = (s.tenants t).releases ++ [⟨p, false⟩] ∧
        (step g s a).allowed t = s.allowed t + 1 ∧ s.calls t a = []) ∨
      ∃ i, a = .release t i ∧ (step g s a).tenants t = (s.tenants t).release i ∧ (step g s a).allowed t = s.allowed t := by
  cases a with
  | admitN id meter n c =>
    refine .inl ⟨?_, ?_, rfl⟩
    all_goals
      simp only [step, perform, admitN, System.allowed]
      split
    · rfl
    · exact (on_releases (Tenant.admitN_releases g _ c meter n) t).trans (swept_releases _ _ t)
    · simp [answer, Decision.allows]
    · simp [answer, on, Decision.allows]
  | beginQuery id c =>
    simp only [step, perform, beginQuery, System.allowed, System.calls, and_true]
    split
    · rename_i nobody
      exact .inl ⟨rfl, by simp [answer, Decision.allows, nobody, Ne.symm named]⟩
    by_cases own : id = t
    · subst own
      have swept := @swept_releases g s (shardFor id) c.now id
      rcases Tenant.beginQuery_releases g ((s.sweepShardLocked g (shardFor id) c.now).tenants id) c with
        ⟨let_, p, more⟩ | ⟨refused, same⟩
      · refine .inr (.inl ⟨p, ?_, ?_⟩)
        · simpa [answer, on, swept] using more
        · simp [answer, on, Decision.allows, let_]
      · refine .inl ⟨?_, ?_⟩
        · simpa [answer, on, swept] using same
        · simp [answer, on, Decision.allows, refused]
    · refine .inl ⟨?_, ?_⟩
      · simpa [answer, on, Ne.symm own] using swept_releases (shardFor id) c.now t
      · simp [answer, on, Decision.allows, own]
  | release id i =>
    by_cases own : id = t
    · subst own
      exact .inr (.inr ⟨i, rfl, by simp [step, perform, on], rfl⟩)
    · refine .inl ⟨?_, rfl, by simp [System.calls, own]⟩
      simp [step, perform, on, Ne.symm own]
  | effectivePolicy id c => exact .inl ⟨on_releases (Tenant.resolve_releases g _ c _) t, rfl, rfl⟩
  | invalidate id => exact .inl ⟨on_releases (Tenant.noteInvalidate_releases _ _) t, rfl, rfl⟩
  | update id policy => exact .inl ⟨rfl, rfl, rfl⟩
  | read id i failed => exact .inl ⟨on_releases (Tenant.noteRead_releases g _ i _ _) t, rfl, rfl⟩
  | install id i c => exact .inl ⟨on_releases (Tenant.noteInstall_releases _ c i) t, rfl, rfl⟩

/-- The release functions are those of the queries let through, done where they were called. -/
structure Follows (s : System) (t : Bytes) (calls : List Nat) : Prop where
  done : (s.tenants t).releases.map Release.done = (range (s.allowed t)).map (decide <| · ∈ calls)
  given : ∀ i ∈ calls, i < s.allowed t

theorem Follows.length {calls : List Nat} (follows : Follows s t calls) :
    (s.tenants t).releases.length = s.allowed t := by
  simpa using congrArg List.length follows.done

theorem Follows.step {calls : List Nat} (named : t ≠ []) (follows : Follows s t calls) (a : Action) :
    Follows (step g s a) t (calls ++ s.calls t a) := by
  obtain ⟨done, given⟩ := follows
  obtain ⟨same, count, none⟩ | ⟨p, more, count, none⟩ | ⟨i, rfl, released, count⟩ := @step_releases g s t named a
  · rw [none, append_nil]
    exact ⟨by rw [same, count, done], by rwa [count]⟩
  · rw [none, append_nil]
    refine ⟨?_, fun i mem => by rw [count]; exact Nat.lt_succ_of_lt (given i mem)⟩
    have new : s.allowed t ∉ calls := fun mem => lt_irrefl _ (given _ mem)
    rw [more, count, map_append, done, range_succ, map_append]
    simp [new]
  · rw [System.calls]
    constructor
    · rw [released, count, (Tenant.release_done _ i).1, done]
      split
      case isTrue here =>
        apply ext_getElem (by simp)
        intro j _ _
        by_cases own : i = j
        · simp [own]
        · simp [own, Ne.symm own]
      case isFalse beyond =>
        rw [set_eq_of_length_le (by simpa using beyond), append_nil]
    · rw [count]
      intro j mem
      split at mem
      case isTrue here =>
        rcases mem_append.mp mem with before | now
        · exact given j before
        · exact mem_singleton.mp now ▸ here.2
      case isFalse => exact given j (by simpa using mem)

theorem called_append (as more : List Action) :
    called g t s (as ++ more) = called g t s as ++ called g t (run g s as) more := by
  induction as generalizing s with
  | nil => rfl
  | cons a rest ih =>
    rw [cons_append, called, called, ih, append_assoc]
    rfl

theorem Follows.run {calls : List Nat} (named : t ≠ []) (follows : Follows s t calls) (as : List Action) :
    Follows (run g s as) t (calls ++ called g t s as) := by
  induction as generalizing s calls with
  | nil =>
    rw [called, append_nil]
    exact follows
  | cons a rest ih =>
    rw [called, ← append_assoc]
    exact ih (follows.step named a)

theorem run_objects (named : t ≠ []) (as : List Action) :
    (s.tenants t).releases.map Release.object <+: ((run g s as).tenants t).releases.map Release.object := by
  induction as generalizing s with
  | nil => exact prefix_rfl
  | cons a rest ih =>
    refine .trans ?_ ih
    obtain ⟨same, -⟩ | ⟨p, more, -⟩ | ⟨i, -, released, -⟩ := @step_releases g s t named a
    · rw [same]
    · rw [more, map_append]
      exact prefix_append _ _
    · rw [released, (Tenant.release_done _ i).2]

/-- A query let through whose release was not called, and the state that counts it. -/
theorem Follows.held {calls : List Nat} {i : Nat} (follows : Follows s t calls) (acc : (s.tenants t).Accounted)
    (given : i < s.allowed t) (uncalled : i ∉ calls) :
    ∃ p, ((s.tenants t).releases.map Release.object)[i]? = some p ∧ (s.tenants t).entry = some p := by
  have flag := congrArg (·[i]?) follows.done
  simp only [getElem?_map, getElem?_range given, Option.map_some, uncalled, decide_false] at flag
  obtain ⟨r, at_i, undone⟩ := Option.map_eq_some_iff.mp flag
  exact ⟨r.object, by rw [getElem?_map, at_i, Option.map_some], acc.held r (mem_of_getElem? at_i) undone⟩

section Reachable
variable (acc : ∀ id, (s.tenants id).Accounted)
include acc

theorem Follows.counted {calls : List Nat} (follows : Follows s t calls) :
    (s.tenants t).inFlight = (range (s.allowed t)).countP (· ∉ calls) := by
  have flags := congrArg (countP (!·)) follows.done
  rw [countP_map, countP_map] at flags
  rw [(acc t).inFlight_eq]
  exact congrArg Nat.cast (flags.trans (countP_congr fun i _ => by simp))

theorem beginQuery_capped (named : t ≠ []) (c : Clock)
    (positive : 0 < (((s.sweepShardLocked g (shardFor t) c.now).tenants t).effective g).queryConcurrency)
    (reached : (((s.sweepShardLocked g (shardFor t) c.now).tenants t).effective g).queryConcurrency ≤
      (s.tenants t).inFlight) :
    ∃ v, (step g s (.beginQuery t c)).decisions = s.decisions ++ [.query t v] ∧ v.err = some .concurrency := by
  have swept := sweepShardLocked_forall (shardFor t) (fun x here => here.sweep g c.now) acc t
  have same : ((s.sweepShardLocked g (shardFor t) c.now).tenants t).inFlight = (s.tenants t).inFlight := by
    rw [swept.inFlight_eq, (acc t).inFlight_eq, Tenant.outstanding, swept_releases]
    rfl
  refine ⟨_, ?_, swept.capped (c := c) positive (same ▸ reached)⟩
  simp [step, perform, System.beginQuery, named, answer, on]

theorem outstanding_stays {calls : List Nat} {i : Nat} (follows : Follows s t calls) (named : t ≠ [])
    (given : i < s.allowed t) (more : List Action) (uncalled : i ∉ calls ++ called g t s more) :
    ∃ p, (s.tenants t).entry = some p ∧ ((run g s more).tenants t).entry = some p := by
  have later := follows.run (g := g) named more
  obtain ⟨rest, grown⟩ := @run_objects g s t named more
  have here : i < ((s.tenants t).releases.map Release.object).length := by
    rw [length_map, follows.length]
    exact given
  have there : i < (run g s more).allowed t := by
    have lengths := congrArg List.length grown
    rw [length_append, length_map, length_map, follows.length, later.length] at lengths
    omega
  obtain ⟨p, object, entry⟩ := follows.held (acc t) given (uncalled <| mem_append_left _ ·)
  obtain ⟨q, object', entry'⟩ := later.held ((accounted_preserved g).run acc more t) there uncalled
  rw [← grown, getElem?_append_left here] at object'
  obtain rfl : p = q := Option.some.inj (object.symm.trans object')
  exact ⟨p, entry, entry'⟩

end Reachable

/-- The query guard is exact after every run. A tenant's in-flight counter is the number of its
queries that were let through and whose release function was not called. A query that finds it
at the cap of the effective policy is turned away. While a release is outstanding, the state
that counts it stays in the shard's map. -/
theorem query_accounting_exact (g : Gate) (zeroTime : Int) (t : Bytes) (named : t ≠ []) (as : List Action) :
    let s := run g (initial zeroTime) as
    (s.tenants t).inFlight = (range (s.allowed t)).countP (· ∉ called g t (initial zeroTime) as) ∧
    0 ≤ (s.tenants t).inFlight ∧
    (∀ c : Clock, let cap := (((s.sweepShardLocked g (shardFor t) c.now).tenants t).effective g).queryConcurrency
      0 < cap → cap ≤ (s.tenants t).inFlight →
        ∃ v, (step g s (.beginQuery t c)).decisions = s.decisions ++ [.query t v] ∧ v.err = some .concurrency) ∧
    ∀ (i : Nat) (more : List Action), i < s.allowed t → i ∉ called g t (initial zeroTime) (as ++ more) →
      ∃ p, (s.tenants t).entry = some p ∧ ((run g s more).tenants t).entry = some p := by
  have acc := (accounted_preserved g).run (s := initial zeroTime) (fun _ => (accounted_preserved g).start) as
  have none : Follows (initial zeroTime) t [] := ⟨rfl, by simp⟩
  have follows : Follows (run g (initial zeroTime) as) t (called g t (initial zeroTime) as) := none.run named as
  have count := follows.counted acc
  refine ⟨count, by omega, fun c => beginQuery_capped acc named c, fun i more given uncalled => ?_⟩
  rw [called_append] at uncalled
  exact outstanding_stays acc follows named given more uncalled

namespace Accounting

/-- One query at a time. -/
def single : Gate := newGate { queryConcurrency := 1 } false

def repeated : List Action :=
  [.beginQuery [97] (.still 1), .beginQuery [97] (.still 2), .release [97] 0, .release [97] 0, .beginQuery [97] (.still 3)]

/-- The second query is turned away, and a release called twice counts once. -/
theorem query_accounting_exact_repeated :
    (run single (initial 0) repeated).allowed [97] = 2 ∧ called single [97] (initial 0) repeated = [0, 0] ∧
      ((run single (initial 0) repeated).tenants [97]).inFlight = 1 := by
  have counted := (query_accounting_exact single 0 [97] (by decide) repeated).1
  have allowed : (run single (initial 0) repeated).allowed [97] = 2 := by decide +kernel
  have twice : called single [97] (initial 0) repeated = [0, 0] := by decide +kernel
  refine ⟨allowed, twice, ?_⟩
  rw [counted, allowed, twice]
  rfl

end Accounting

end Probectl.Fairness
