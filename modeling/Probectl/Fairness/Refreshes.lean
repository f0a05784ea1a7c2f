import Probectl.Fairness.Accounting

/-! The asynchronous policy fetches: a tenant has one at a time, and a fetch that
an invalidation overtook is thrown away. -/
namespace Probectl.Fairness

open List Bool

variable {g : Gate} {st : TenantState} {c : Clock}

theorem policyFor_started (started : (policyFor g st c).2 = true) :
    st.policyFetching = false ∧ (policyFor g st c).1.policyFetching = true := by
  unfold policyFor at started ⊢
  dsimp only at started ⊢
  split_ifs at started ⊢
  all_goals
    rename_i down
    exact ⟨by simpa using down.2, rfl⟩

theorem policyFor_not_started (idle : (policyFor g st c).2 = false) :
    (policyFor g st c).1.policyFetching = st.policyFetching := by
  unfold policyFor at idle ⊢
  dsimp only at idle ⊢
  split_ifs at idle ⊢ <;> rfl

theorem policyFor_invalidated (g : Gate) (st : TenantState) (c : Clock) :
    (policyFor g st c).1.policyFetchInvalidated = st.policyFetchInvalidated := by
  unfold policyFor
  dsimp only
  split_ifs <;> rfl

namespace Tenant

def fetching (x : Tenant) : Bool := x.current.any fun st => st.policyFetching

def overtaken (x : Tenant) : Bool := x.current.any fun st => st.policyFetchInvalidated

/-- At step `k`: the fetching flag is up exactly while a refresh runs, a read of
a refresh that was not overtaken came after the latest invalidation, and so did
the read of every refresh that installed. -/
structure Fetched (k : Nat) (x : Tenant) : Prop where
  one : x.refreshes.length = x.fetching.toNat
  early : ∀ j, x.invalidated = some j → j < k
  fresh : x.overtaken = false → ∀ r ∈ x.refreshes, r.read ≠ none → ∀ j, x.invalidated = some j → j < r.readAt
  installed : ∀ y ∈ x.installs, ∀ j, y.invalidated = some j → j < y.readAt

variable {x y : Tenant} {k : Nat}

structure SameFetch (x y : Tenant) : Prop where
  fetching : y.fetching = x.fetching
  overtaken : y.overtaken = x.overtaken
  refreshes : y.refreshes = x.refreshes
  invalidated : y.invalidated = x.invalidated
  installs : y.installs = x.installs

theorem Fetched.of_same (fetched : Fetched k x) (same : SameFetch x y) : Fetched k y := by
  obtain ⟨fetching, overtaken, refreshes, invalidated, installs⟩ := same
  refine ⟨?_, ?_, ?_, ?_⟩
  · rw [refreshes, fetching]
    exact fetched.one
  · rw [invalidated]
    exact fetched.early
  · rw [overtaken, refreshes, invalidated]
    exact fetched.fresh
  · rw [installs]
    exact fetched.installed

variable {p : Nat}

theorem current_put (acc : Accounted x) (here : x.entry = some p) (st : TenantState) :
    (x.put p st).current = some st := by
  show x.entry.map (x.put p st).object = some st
  rw [here, Option.map_some, object_put st (acc.made p here)]

theorem current_eq (here : x.entry = some p) : x.current = some (x.object p) := by
  rw [current, here, Option.map_some]

theorem SameFetch.put (acc : Accounted x) (here : x.entry = some p) (st : TenantState)
    (fetching : st.policyFetching = (x.object p).policyFetching)
    (invalidated : st.policyFetchInvalidated = (x.object p).policyFetchInvalidated) : SameFetch x (x.put p st) where
  fetching := by simp [Tenant.fetching, current_put acc here, current_eq here, fetching]
  overtaken := by simp [Tenant.overtaken, current_put acc here, current_eq here, invalidated]
  refreshes := rfl
  invalidated := rfl
  installs := rfl

theorem SameFetch.withReleases (same : SameFetch x y) (releases : List Release) :
    SameFetch x { y with releases := releases } :=
  { same with }

theorem SameFetch.state (x : Tenant) (now : Int) : SameFetch x (x.state now).1 := by
  unfold Tenant.state
  split
  case h_1 => exact ⟨rfl, rfl, rfl, rfl, rfl⟩
  case h_2 gone =>
    refine ⟨?_, ?_, rfl, rfl, rfl⟩
    · simp [Tenant.fetching, current, gone, object]
    · simp [Tenant.overtaken, current, gone, object]

theorem Fetched.resolve (acc : Accounted x) (fetched : Fetched k x) (g : Gate) (c : Clock)
    (touch : TenantState → TenantState) (fetching : ∀ st, (touch st).policyFetching = st.policyFetching)
    (invalidated : ∀ st, (touch st).policyFetchInvalidated = st.policyFetchInvalidated) :
    Fetched k (x.resolve g c touch).1 := by
  have made := acc.state c.created
  have here := state_entry x c.created
  have before : Fetched k (x.state c.created).1 := fetched.of_same (SameFetch.state x c.created)
  have flag := current_eq here
  unfold Tenant.resolve
  dsimp only
  split
  case isTrue started =>
    obtain ⟨down, up⟩ := policyFor_started started
    rw [fetching] at down
    have none_running : (x.state c.created).1.refreshes = [] := by
      have length := before.one
      simpa [Tenant.fetching, flag, down] using length
    refine ⟨?_, before.early, ?_, before.installed⟩
    · show ((x.state c.created).1.refreshes ++ [({} : Refresh)]).length =
        toNat (Tenant.fetching ((x.state c.created).1.put _ _))
      simp [Tenant.fetching, current_put made here, none_running, up]
    · intro _ r mem read
      simp only [none_running, nil_append, mem_singleton] at mem
      cases mem
      exact absurd rfl read
  case isFalse idle =>
    have idle := policyFor_not_started (by simpa using idle)
    refine before.of_same (SameFetch.put made here _ ?_ ?_)
    · rw [idle, fetching]
    · rw [policyFor_invalidated, invalidated]

theorem Fetched.admitN (acc : Accounted x) (fetched : Fetched k x) (g : Gate) (meter : Meter) (n : Int) (c : Clock) :
    Fetched k (x.admitN g meter n c).1 := by
  have made := acc.resolve g c (seen c) (fun _ => rfl)
  have here := resolve_entry g x c (seen c)
  have before := Fetched.resolve acc fetched g c (seen c) (fun _ => rfl) (fun _ => rfl)
  unfold Tenant.admitN
  dsimp only
  split
  all_goals
    rename_i st taken
    apply before.of_same (SameFetch.put made here _ _ _) <;> rw [taken_frame taken]

theorem Fetched.beginQuery (acc : Accounted x) (fetched : Fetched k x) (g : Gate) (c : Clock) :
    Fetched k (x.beginQuery g c).1 := by
  have made := acc.resolve g c (seen c) (fun _ => rfl)
  have here := resolve_entry g x c (seen c)
  have before := Fetched.resolve acc fetched g c (seen c) (fun _ => rfl) (fun _ => rfl)
  unfold Tenant.beginQuery
  dsimp only
  split
  · exact before.of_same (SameFetch.put made here _ rfl rfl)
  split
  case h_1 st taken =>
    apply before.of_same (SameFetch.put made here _ _ _)
    all_goals rw [taken_frame taken]
  case h_2 st taken =>
    apply before.of_same ((SameFetch.put made here _ _ _).withReleases _)
    all_goals rw [taken_frame taken]

theorem Fetched.release (acc : Accounted x) (fetched : Fetched k x) (i : Nat) : Fetched k (x.release i) := by
  unfold Tenant.release
  split
  case h_1 => exact fetched
  case h_2 r at_i =>
    split
    case isTrue => exact fetched
    case isFalse undone =>
      have here : x.entry = some r.object := acc.held r (mem_of_getElem? at_i) (by simpa using undone)
      exact fetched.of_same ((SameFetch.put acc here _ (by rfl) (by rfl)).withReleases _)

theorem Fetched.sweep (fetched : Fetched k x) (g : Gate) (now : Int) : Fetched k (x.sweep g now) := by
  unfold Tenant.sweep
  split
  case h_1 => exact fetched
  case h_2 st found =>
    split_ifs with busy old
    · exact fetched
    · have idle : x.fetching = false := by
        have := not_or.mp busy
        simpa [fetching, found] using this.1
      have none_running : x.refreshes = [] := by
        have length := fetched.one
        simpa [idle] using length
      refine { fetched with one := ?_, fresh := ?_ }
      · simp [fetching, current, none_running]
      · simp [none_running]
    · exact fetched

theorem Fetched.invalidate (acc : Accounted x) (fetched : Fetched k x) : Fetched (k + 1) (x.noteInvalidate k) := by
  have early : ∀ j, x.invalidated = some j → j < k + 1 := fun j at_j => Nat.lt_succ_of_lt (fetched.early j at_j)
  unfold Tenant.noteInvalidate Tenant.invalidate
  split
  case h_1 gone =>
    rw [gone]
    exact { fetched with early := early }
  case h_2 p here =>
    rw [here]
    refine ⟨?_, ?_, ?_, fetched.installed⟩
    · have one := fetched.one
      show x.refreshes.length = toNat (fetching (x.put p _))
      simpa [fetching, current_put acc here, current_eq here] using one
    · intro j at_j
      cases at_j
      exact Nat.lt_succ_self k
    · intro kept
      have kept : overtaken (x.put p _) = false := kept
      simp only [overtaken, current_put acc here] at kept
      have none_running : x.refreshes = [] := by
        have length := fetched.one
        cases up : (x.object p).policyFetching with
        | true => simp [up] at kept
        | false => simpa [fetching, current_eq here, up] using length
      simp [put, none_running]

theorem Fetched.read (fetched : Fetched k x) (g : Gate) (i : Nat) (stored : Option Policy) :
    Fetched (k + 1) (x.noteRead g i k stored) := by
  have early : ∀ j, x.invalidated = some j → j < k + 1 := fun j at_j => Nat.lt_succ_of_lt (fetched.early j at_j)
  unfold Tenant.noteRead Tenant.read
  rcases at_i : x.refreshes[i]? with _ | ⟨_ | eff, readAt⟩
  · exact { fetched with early := early }
  · have within := (List.getElem?_eq_some_iff.mp at_i).1
    have noted (eff : Policy) : (x.refreshes.set i ⟨some eff, readAt⟩).modify i (fun r => { r with readAt := k }) =
        x.refreshes.set i ⟨some eff, k⟩ := by
      rw [modify_eq_set_getElem?, getElem?_set_self within]
      exact set_set ..
    simp only [Option.any_some, Option.isNone_none, if_true, noted]
    refine ⟨?_, early, ?_, fetched.installed⟩
    · rw [length_set]
      exact fetched.one
    intro kept r mem read
    rcases mem_or_eq_of_mem_set mem with old | rfl
    · exact fetched.fresh kept r old read
    · exact fetched.early
  · exact { fetched with early := early }

theorem Fetched.install (acc : Accounted x) (fetched : Fetched k x) (i : Nat) (c : Clock) :
    Fetched k (x.noteInstall i c) := by
  have made := acc.state c.created
  have here := state_entry x c.created
  have same := SameFetch.state x c.created
  have before : Fetched k (x.state c.created).1 := fetched.of_same same
  unfold Tenant.noteInstall Tenant.install
  rcases at_i : x.refreshes[i]? with _ | ⟨_ | eff, readAt⟩
  · exact fetched
  · exact fetched
  dsimp only
  have running : ⟨some eff, readAt⟩ ∈ (x.state c.created).1.refreshes := by
    rw [same.refreshes]
    exact mem_of_getElem? at_i
  have none_left : (x.state c.created).1.refreshes.eraseIdx i = [] := by
    have length := before.one
    have within := (List.getElem?_eq_some_iff.mp at_i).1
    have at_most : (fetching (x.state c.created).1).toNat ≤ 1 := toNat_le _
    rw [same.refreshes] at length ⊢
    apply eq_nil_of_length_eq_zero
    rw [length_eraseIdx_of_lt within]
    omega
  have one st (down : st.policyFetching = false) :
      ((x.state c.created).1.refreshes.eraseIdx i).length =
        toNat (fetching ((x.state c.created).1.put (x.state c.created).2 st)) := by
    simp [fetching, current_put made here, none_left, down]
  have known st (rest : List Refresh) :
      (Tenant.put { (x.state c.created).1 with refreshes := rest } (x.state c.created).2 st).current.any (·.policyKnown) =
        st.policyKnown := by
    show ((x.state c.created).1.put (x.state c.created).2 st).current.any _ = _
    rw [current_put made here, Option.any_some]
  cases overtook : ((x.state c.created).1.object (x.state c.created).2).policyFetchInvalidated with
  | true =>
    -- the policy is thrown away and none is in force
    simp only [if_true, known, Bool.false_eq_true, if_false]
    exact ⟨one _ rfl, before.early, by simp [put, none_left], before.installed⟩
  | false =>
    have current : (x.state c.created).1.overtaken = false := by
      rw [overtaken, current_eq here, Option.any_some, overtook]
    simp only [Bool.false_eq_true, if_false, known, if_true]
    refine ⟨one _ rfl, before.early, by simp [put, none_left], forall_mem_snoc before.installed ?_⟩
    rw [← same.invalidated]
    exact before.fresh current _ running (Option.some_ne_none eff)

end Tenant

theorem fetched_preserved (g : Gate) : Preserved g fun k x => x.Accounted ∧ x.Fetched k where
  start := ⟨(accounted_preserved g).start, rfl, nofun, by simp, by simp⟩
  tick _ _ here :=
    have early j at_j := Nat.lt_succ_of_lt (here.2.early j at_j)
    ⟨here.1, here.2.one, early, here.2.fresh, here.2.installed⟩
  sweep _ _ now here := ⟨here.1.sweep g now, here.2.sweep g now⟩
  admitN _ _ meter n c here := ⟨here.1.admitN g meter n c, here.2.admitN here.1 g meter n c⟩
  beginQuery _ _ c here := ⟨here.1.beginQuery g c, here.2.beginQuery here.1 g c⟩
  release _ _ i here := ⟨here.1.release i, here.2.release here.1 i⟩
  effectivePolicy _ _ c here :=
    ⟨here.1.resolve g c id (fun _ => rfl), here.2.resolve here.1 g c id (fun _ => rfl) (fun _ => rfl)⟩
  invalidate k _ here := ⟨(accounted_preserved g).invalidate k _ here.1, here.2.invalidate here.1⟩
  read k _ i stored here := ⟨here.1.noteRead g i k stored, here.2.read g i stored⟩
  install _ _ i c here := ⟨here.1.noteInstall i c, here.2.install here.1 i c⟩

/-- After every run, the store read behind every installed policy is later than
the latest invalidation at the time of the install that had found the tenant's
state, and no tenant has two refreshes under way. -/
theorem installs_after_invalidation (g : Gate) (zeroTime : Int) (as : List Action) (id : Bytes) :
    let x := (run g (initial zeroTime) as).tenants id
    (∀ y ∈ x.installs, ∀ j, y.invalidated = some j → j < y.readAt) ∧ x.refreshes.length ≤ 1 := by
  have start : ∀ id, ((initial zeroTime).tenants id).Accounted ∧ ((initial zeroTime).tenants id).Fetched 0 :=
    fun _ => (fetched_preserved g).start
  obtain ⟨_, fetched⟩ := (fetched_preserved g).run start as id
  refine ⟨fetched.installed, ?_⟩
  rw [fetched.one]
  exact toNat_le _

end Probectl.Fairness
