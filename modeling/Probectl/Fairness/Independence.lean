import Probectl.Fairness.Account
import Probectl.Lib.Run

/-! A tenant's decisions do not depend on the other tenants: the run of all the
calls and the run of the tenant's own calls keep the tenant's account equal,
whatever the sweeps of the two runs drop. -/
namespace Probectl.Fairness

open List Fairness.System

def Action.time : Action → Option Int
  | .admitN _ _ _ c | .beginQuery _ c => some c.now
  | _ => none

/-- A call that happens at one time and leaves its bucket no emptier than the
eviction window refills. Ingest is not charged to the query budget. -/
def Action.Modest (g : Gate) : Action → Prop
  | .admitN _ m n c => c.take = c.now ∧ m ≠ .queries ∧
      (g.rate m ≤ 0 ∨ n ≤ g.rate m * (seconds g.idleTTL - g.defaults.burstSeconds))
  | .beginQuery _ c => c.take = c.now ∧ (g.rate .queries ≤ 0 ∨ 60 ≤ seconds g.idleTTL)
  | _ => True

instance (g : Gate) (a : Action) : Decidable (a.Modest g) :=
  match a with
  | .admitN _ m n c => inferInstanceAs (Decidable (c.take = c.now ∧ m ≠ .queries ∧
      (g.rate m ≤ 0 ∨ n ≤ g.rate m * (seconds g.idleTTL - g.defaults.burstSeconds))))
  | .beginQuery _ c => inferInstanceAs (Decidable (c.take = c.now ∧ (g.rate .queries ≤ 0 ∨ 60 ≤ seconds g.idleTTL)))
  | .release _ _ | .effectivePolicy _ _ | .invalidate _ | .update _ _ | .read _ _ _ | .install _ _ _ =>
    inferInstanceAs (Decidable True)

def System.decisionsFor (s : System) (t : Bytes) : List Decision := s.decisions.filter fun d => d.tenant = t

/-- The clock never goes back, and stands at `now`. -/
structure Clocked (now : Int) (as : List Action) : Prop where
  after : ∀ τ ∈ as.filterMap Action.time, now ≤ τ
  sorted : (as.filterMap Action.time).Pairwise (· ≤ ·)

variable {a : Action} {rest : List Action} {now : Int}

theorem Clocked.timed (clocked : Clocked now (a :: rest))
    (timed : a.time = some τ) : now ≤ τ ∧ Clocked τ rest := by
  obtain ⟨after, sorted⟩ := clocked
  rw [filterMap_cons_some timed] at after sorted
  obtain ⟨later, sorted⟩ := pairwise_cons.mp sorted
  exact ⟨after τ mem_cons_self, later, sorted⟩

theorem Clocked.untimed (clocked : Clocked now (a :: rest)) (untimed : a.time = none) : Clocked now rest := by
  obtain ⟨after, sorted⟩ := clocked
  rw [filterMap_cons_none untimed] at after sorted
  exact ⟨after, sorted⟩

variable {g : Gate} {now τ : Int} {t : Bytes}

structure Alike (g : Gate) (now : Int) (x y : Tenant) : Prop where
  left : x.Kept g now
  right : y.Kept g now
  account : x.account g now = y.account g now

variable {x y : Tenant}

theorem Alike.later (alike : Alike g now x y) (later : now ≤ τ) : Alike g τ x y where
  left := alike.left.later later
  right := alike.right.later later
  account := by rw [Tenant.account_later later, alike.account, ← Tenant.account_later later]

theorem Alike.symm (alike : Alike g now x y) : Alike g now y x :=
  ⟨alike.right, alike.left, alike.account.symm⟩

theorem Alike.sweep (alike : Alike g τ x y) : Alike g τ (x.sweep g τ) y := by
  obtain ⟨kept, account⟩ := alike.left.sweep
  exact ⟨kept, alike.right, account.trans alike.account⟩

theorem Alike.act (alike : Alike g now x y) (act : Account → Account)
    (left : x'.Kept g now ∧ x'.account g now = act (x.account g now))
    (right : y'.Kept g now ∧ y'.account g now = act (y.account g now)) : Alike g now x' y' :=
  ⟨left.1, right.1, by rw [left.2, alike.account, ← right.2]⟩

theorem Alike.on (alike : Alike g now x y) (s u : System) :
    Alike g now ((s.on t x).tenants t) ((u.on t y).tenants t) := by
  simpa [System.on] using alike

theorem System.sweepShardLocked_tenant (g : Gate) (s : System) (sh : Fin gateShards) (τ : Int) (t : Bytes) :
    (s.sweepShardLocked g sh τ).tenants t = s.tenants t ∨
      (s.sweepShardLocked g sh τ).tenants t = (s.tenants t).sweep g τ := by
  unfold sweepShardLocked
  split
  · exact .inl rfl
  dsimp only
  split
  · exact .inr rfl
  · exact .inl rfl

variable {s : System}

theorem Alike.sweepShardLocked (alike : Alike g τ (s.tenants t) y) (sh : Fin gateShards) :
    Alike g τ ((s.sweepShardLocked g sh τ).tenants t) y := by
  rcases s.sweepShardLocked_tenant g sh τ t with same | swept
  · rw [same]
    exact alike
  · rw [swept]
    exact alike.sweep

structure Agree (g : Gate) (t : Bytes) (rest : List Action) (s u : System) (now : Int) : Prop where
  clocked : Clocked now rest
  modest : ∀ a ∈ rest, a.tenant = t → a.Modest g
  alike : Alike g now (s.tenants t) (u.tenants t)
  decisions : s.decisionsFor t = u.decisionsFor t

theorem System.on_other {id : Bytes} (other : id ≠ t) (s : System) (x : Tenant) :
    (s.on id x).tenants t = s.tenants t := by
  simp [on, Ne.symm other]

theorem others_tenant (other : a.tenant ≠ t) (s : System) : (step g s a).tenants t = s.tenants t ∨
    ∃ τ, a.time = some τ ∧ (step g s a).tenants t = (s.sweepShardLocked g (shardFor a.tenant) τ).tenants t := by
  cases a with
  | admitN id m n c =>
    show (s.admitN g id m n c).tenants t = _ ∨ ∃ τ, some c.now = some τ ∧ (s.admitN g id m n c).tenants t = _
    unfold admitN
    split
    · exact .inl rfl
    · exact .inr ⟨c.now, rfl, on_other other (s.sweepShardLocked g (shardFor id) c.now) _⟩
  | beginQuery id c =>
    show (s.beginQuery g id c).tenants t = _ ∨ ∃ τ, some c.now = some τ ∧ (s.beginQuery g id c).tenants t = _
    unfold beginQuery
    split
    · exact .inl rfl
    · exact .inr ⟨c.now, rfl, on_other other (s.sweepShardLocked g (shardFor id) c.now) _⟩
  | release id i | effectivePolicy id c | invalidate id | read id i failed | install id i c =>
    exact .inl (on_other other s _)
  | update id policy => exact .inl rfl

theorem System.decisionsFor_answer (s : System) (d : Decision) (t : Bytes) :
    (s.answer d).decisionsFor t = s.decisionsFor t ++ if d.tenant = t then [d] else [] := by
  simp [decisionsFor, answer, filter_singleton]

theorem System.decisionsFor_on (s : System) (id : Bytes) (x : Tenant) (t : Bytes) :
    (s.on id x).decisionsFor t = s.decisionsFor t := rfl

theorem System.decisionsFor_sweepShardLocked (s : System) (sh : Fin gateShards) (τ : Int) (t : Bytes) :
    (s.sweepShardLocked g sh τ).decisionsFor t = s.decisionsFor t := by
  rw [decisionsFor, sweepShardLocked_decisions, decisionsFor]

theorem others_decisions (other : a.tenant ≠ t) (s : System) : (step g s a).decisionsFor t = s.decisionsFor t := by
  cases a with
  | admitN id m n c =>
    have answered (s : System) ok : (s.answer (.ingest id ok)).decisionsFor t = s.decisionsFor t := by
      rw [decisionsFor_answer, if_neg (by exact other), append_nil]
    show (s.admitN g id m n c).decisionsFor t = _
    unfold admitN
    split
    · exact answered s true
    · rw [answered, decisionsFor_on, decisionsFor_sweepShardLocked]
  | beginQuery id c =>
    have answered (s : System) v : (s.answer (.query id v)).decisionsFor t = s.decisionsFor t := by
      rw [decisionsFor_answer, if_neg (by exact other), append_nil]
    show (s.beginQuery g id c).decisionsFor t = _
    unfold beginQuery
    split
    · exact answered s {}
    · rw [answered, decisionsFor_on, decisionsFor_sweepShardLocked]
  | _ => rfl

theorem Agree.others (other : a.tenant ≠ t)
    (agree : Agree g t (a :: rest) s u now) : ∃ τ, Agree g t rest (step g s a) u τ := by
  have modest : ∀ b ∈ rest, b.tenant = t → b.Modest g := fun b mem => agree.modest b (mem_cons_of_mem a mem)
  have decisions := (others_decisions (g := g) other s).trans agree.decisions
  cases timed : a.time with
  | none =>
    refine ⟨now, agree.clocked.untimed timed, modest, ?_, decisions⟩
    rcases others_tenant other s with same | ⟨τ, at_τ, swept⟩
    · rw [same]
      exact agree.alike
    · rw [timed] at at_τ
      cases at_τ
  | some τ =>
    obtain ⟨later, clocked⟩ := agree.clocked.timed timed
    refine ⟨τ, clocked, modest, ?_, decisions⟩
    rcases others_tenant other s with same | ⟨τ', at_τ, swept⟩
    · rw [same]
      exact agree.alike.later later
    · obtain rfl : τ = τ' := Option.some.inj (timed.symm.trans at_τ)
      rw [swept]
      exact (agree.alike.later later).sweepShardLocked _

section Own

variable {s u : System} (noSource : g.source = false)
include noSource

variable {c : Clock}

theorem own_admitN (alike : Alike g now (s.tenants t) (u.tenants t)) (decisions : s.decisionsFor t = u.decisionsFor t) (later : now ≤ c.now) (modest : (Action.admitN t m n c).Modest g) :
    Alike g c.now ((s.admitN g t m n c).tenants t) ((u.admitN g t m n c).tenants t) ∧
      (s.admitN g t m n c).decisionsFor t = (u.admitN g t m n c).decisionsFor t := by
  obtain ⟨once, ingest, small⟩ := modest
  have alike := alike.later later
  unfold admitN
  split
  · refine ⟨alike, ?_⟩
    rw [decisionsFor_answer, decisionsFor_answer, decisions]
  have swept := ((alike.sweepShardLocked (shardFor t)).symm.sweepShardLocked (shardFor t)).symm
  have left := swept.left.admitN noSource rfl once ingest small
  have right := swept.right.admitN noSource rfl once ingest small
  have acted := swept.act (fun a => a.admitN g m n) left.2 right.2
  refine ⟨acted.on (s.sweepShardLocked g (shardFor t) c.now) (u.sweepShardLocked g (shardFor t) c.now), ?_⟩
  simp only [decisionsFor_answer, left.1, right.1, swept.account, decisionsFor_on,
    decisionsFor_sweepShardLocked, decisions]

theorem own_beginQuery (alike : Alike g now (s.tenants t) (u.tenants t))
    (decisions : s.decisionsFor t = u.decisionsFor t) (later : now ≤ c.now)
    (modest : (Action.beginQuery t c).Modest g) :
    Alike g c.now ((s.beginQuery g t c).tenants t) ((u.beginQuery g t c).tenants t) ∧
      (s.beginQuery g t c).decisionsFor t = (u.beginQuery g t c).decisionsFor t := by
  obtain ⟨once, window⟩ := modest
  have alike := alike.later later
  unfold beginQuery
  split
  · refine ⟨alike, ?_⟩
    rw [decisionsFor_answer, decisionsFor_answer, decisions]
  have swept := ((alike.sweepShardLocked (shardFor t)).symm.sweepShardLocked (shardFor t)).symm
  have left := swept.left.beginQuery noSource rfl once window
  have right := swept.right.beginQuery noSource rfl once window
  have acted := swept.act (fun a => a.beginQuery g) left.2 right.2
  refine ⟨acted.on (s.sweepShardLocked g (shardFor t) c.now) (u.sweepShardLocked g (shardFor t) c.now), ?_⟩
  simp only [decisionsFor_answer, left.1, right.1, swept.account, decisionsFor_on,
    decisionsFor_sweepShardLocked, decisions]

theorem Agree.own (mine : a.tenant = t) (agree : Agree g t (a :: rest) s u now) :
    ∃ τ, Agree g t rest (step g s a) (step g u a) τ := by
  have modest : ∀ b ∈ rest, b.tenant = t → b.Modest g := fun b mem => agree.modest b (mem_cons_of_mem a mem)
  have here := agree.modest a mem_cons_self mine
  subst mine
  cases a with
  | admitN id m n c =>
    obtain ⟨later, clocked⟩ := agree.clocked.timed rfl
    obtain ⟨alike, decisions⟩ := own_admitN noSource agree.alike agree.decisions later here
    exact ⟨c.now, clocked, modest, alike, decisions⟩
  | beginQuery id c =>
    obtain ⟨later, clocked⟩ := agree.clocked.timed rfl
    obtain ⟨alike, decisions⟩ := own_beginQuery noSource agree.alike agree.decisions later here
    exact ⟨c.now, clocked, modest, alike, decisions⟩
  | release id i =>
    have acted := agree.alike.act (fun a => a.release i) (agree.alike.left.release i) (agree.alike.right.release i)
    exact ⟨now, agree.clocked.untimed rfl, modest, acted.on s u, agree.decisions⟩
  | effectivePolicy tenant c =>
    have left := agree.alike.left.effectivePolicy noSource c
    have right := agree.alike.right.effectivePolicy noSource c
    exact ⟨now, agree.clocked.untimed rfl, modest, (agree.alike.act id left right).on s u, agree.decisions⟩
  | invalidate tenant =>
    have left := agree.alike.left.invalidate s.steps
    have right := agree.alike.right.invalidate u.steps
    exact ⟨now, agree.clocked.untimed rfl, modest, (agree.alike.act id left right).on s u, agree.decisions⟩
  | update id policy => exact ⟨now, agree.clocked.untimed rfl, modest, agree.alike, agree.decisions⟩
  | read id i failed =>
    refine ⟨now, agree.clocked.untimed rfl, modest, ?_, agree.decisions⟩
    have alike : Alike g now (s.tenants id) (u.tenants id) := agree.alike
    simp only [step, perform, alike.left.read, alike.right.read]
    exact alike.on s u
  | install id i c =>
    refine ⟨now, agree.clocked.untimed rfl, modest, ?_, agree.decisions⟩
    have alike : Alike g now (s.tenants id) (u.tenants id) := agree.alike
    simp only [step, perform, alike.left.install, alike.right.install]
    exact alike.on s u

end Own

theorem kept_start (g : Gate) (now : Int) : Tenant.Kept g now {} where
  acc := (accounted_preserved g).start
  refreshes := rfl
  solvent := Solvent.of_unused nofun rfl (fun _ => rfl)

theorem clocked_head (sorted : (as.filterMap Action.time).Pairwise (· ≤ ·)) :
    ∃ now, Clocked now as := by
  refine ⟨(as.filterMap Action.time).head?.getD 0, ?_, sorted⟩
  cases times : as.filterMap Action.time with
  | nil => simp
  | cons τ rest =>
    rw [times] at sorted
    intro τ' mem
    rcases mem_cons.mp mem with rfl | later
    · exact le_refl _
    · exact (pairwise_cons.mp sorted).1 τ' later

/-- The decisions for a tenant are those of its own calls alone. -/
theorem decisions_independent (g : Gate) (noSource : g.source = false) (zeroTime : Int) (t : Bytes)
    (as : List Action) (clock : (as.filterMap Action.time).Pairwise (· ≤ ·))
    (modest : ∀ a ∈ as, a.tenant = t → a.Modest g) :
    (run g (initial zeroTime) as).decisionsFor t =
      (run g (initial zeroTime) (as.filter fun a => a.tenant = t)).decisionsFor t := by
  obtain ⟨now, clocked⟩ := clocked_head clock
  have start : Agree g t as (initial zeroTime) (initial zeroTime) now :=
    ⟨clocked, modest, ⟨kept_start g now, kept_start g now, rfl⟩, rfl⟩
  obtain ⟨_, agree⟩ := Run.foldl_unwinding (fun a => a.tenant = t) (fun rest s u => ∃ now, Agree g t rest s u now)
    (fun a rest s u other ⟨_, agree⟩ => agree.others (by simpa using other))
    (fun a rest s u mine ⟨_, agree⟩ => agree.own noSource (by simpa using mine)) ⟨now, start⟩
  exact agree.decisions

open Strings

/-- Two tenants of one shard, and a gate that evicts after two minutes: the
neighbour's call sweeps the tenant's state away between the tenant's calls. -/
def sweptBetween : List Action :=
  [.admitN (lit "a") .results 50 (.still 0),
   .admitN (lit "A") .results 1 (.still (200 * 1000000000)),
   .admitN (lit "a") .results 5 (.still (201 * 1000000000)),
   .beginQuery (lit "a") (.still (201 * 1000000000))]

def steadyGate : Gate := (newGate { resultsPerSec := 1, queriesPerMin := 1 } false).withIdleTTL (120 * 1000000000)

theorem decisions_independent_sweptBetween :
    (run steadyGate (initial 0) sweptBetween).decisionsFor (lit "a") =
      (run steadyGate (initial 0) (sweptBetween.filter fun a => a.tenant = lit "a")).decisionsFor (lit "a") :=
  decisions_independent steadyGate rfl 0 (lit "a") sweptBetween (by decide +kernel) (by decide +kernel)

/-- A gate that evicts after ten seconds drops a query budget that takes a minute
to refill. -/
def hastyGate : Gate := (newGate { queriesPerMin := 1 } false).withIdleTTL (10 * 1000000000)

def budgetSwept : List Action :=
  [.beginQuery (lit "A") (.still 0),
   .beginQuery (lit "a") (.still (50 * 1000000000)),
   .release (lit "a") 0,
   .beginQuery (lit "A") (.still (61 * 1000000000)),
   .beginQuery (lit "a") (.still (62 * 1000000000))]

/-- The neighbour's call at 61 s lets the tenant's query at 62 s through; on its
own the tenant is over its budget. -/
theorem neighbour_refills_budget :
    hastyGate.source = false ∧ (budgetSwept.filterMap Action.time).Pairwise (· ≤ ·) ∧
    shardFor (lit "a") = shardFor (lit "A") ∧
    (run hastyGate (initial (-1000000000000)) budgetSwept).decisionsFor (lit "a") =
      [.query (lit "a") ⟨0, 0, 0, none⟩, .query (lit "a") ⟨0, 0, 0, none⟩] ∧
    (run hastyGate (initial (-1000000000000)) (budgetSwept.filter fun a => a.tenant = lit "a")).decisionsFor (lit "a") =
      [.query (lit "a") ⟨0, 0, 0, none⟩, .query (lit "a") ⟨0, 0, 0, some .budget⟩] := by
  decide +kernel

end Probectl.Fairness
