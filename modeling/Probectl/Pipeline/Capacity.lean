import Probectl.Lib.Run
import Probectl.Lib.InPlace
import Probectl.Pipeline.Sweep

/-! The caps of the cardinality limiter over whole runs of `FilterDetailed`. -/
namespace Probectl.Pipeline

open Strings List Maps AList Option CardinalityLimiter InPlace TenantSeries Nat

def CardinalityLimiter.withIdleTTL (l : CardinalityLimiter) (ttl : Int) : CardinalityLimiter :=
  if 0 < ttl then { l with idleTTL := ttl } else l

structure Call where
  now : Int
  tenant : Bytes
  agent : Bytes
  series : List Series

def CardinalityLimiter.call (hash : Bytes → Bytes) (l : CardinalityLimiter) (c : Call) : CardinalityLimiter :=
  (filterDetailed (some l) hash c.now c.tenant c.agent c.series).1.getD l

def CardinalityLimiter.run (hash : Bytes → Bytes) (l : CardinalityLimiter) (calls : List Call) : CardinalityLimiter :=
  calls.foldl (call hash) l

/-! The loop over the series of a call. -/

variable {l : CardinalityLimiter} {hash : Bytes → Bytes} {f : Filtering} {s : Series} {c : Call}

variable (now : Int) (tenant agent : Bytes)

section Calls

variable {known : Bytes → Bytes → Bytes → Prop}

def CardinalityLimiter.opening (l : CardinalityLimiter) (now : Int) (tenant agent : Bytes) : TenantSeries × Filtering :=
  let ts := ((sweepLocked l (l.shards (shardFor tenant)) now).1.tenants.lookup tenant).getD {}
  (ts, { ag := (ts.byAgent.lookup agent).getD ∅, all := ts.all })

structure Filtering.Within (l : CardinalityLimiter) (mine : Bytes → Prop) (ag all : Times) (f : Filtering) : Prop where
  agent : f.ag.entries.length ≤ l.perAgent
  tenant : f.all.entries.length ≤ l.perTenant
  covered : ∀ id t, f.ag.lookup id = some t → f.all.lookup id = some t
  moves : Moves mine ag all f.ag f.all

variable {mine : Bytes → Prop} {ag all : Times}

theorem filterOne_within (within : f.Within l mine ag all) (own : mine (identity hash s)) :
    (filterOne l hash now f s).Within l mine ag all := by
  rcases filterOne_cases l hash now f s with drops | ⟨admits, why⟩
  · exact {
      agent := drops.ag ▸ within.agent
      tenant := drops.all ▸ within.tenant
      covered := drops.ag ▸ drops.all ▸ within.covered
      moves := drops.ag ▸ drops.all ▸ within.moves }
  have sizes : (f.ag.insert (identity hash s) now).entries.length ≤ l.perAgent ∧
      (f.all.insert (identity hash s) now).entries.length ≤ l.perTenant := by
    rcases why with known | ⟨agentRoom, tenantRoom⟩
    · have held : f.ag.lookup (identity hash s) ≠ none := fun none => lookup_eq_none.mp none known
      obtain ⟨t, found⟩ := ne_none_iff_exists'.mp held
      have listed : f.all.lookup (identity hash s) ≠ none := by
        rw [within.covered _ t found]
        exact some_ne_none t
      exact ⟨le_trans (size_insert_held now held) within.agent,
        le_trans (size_insert_held now listed) within.tenant⟩
    · exact ⟨le_trans (size_insert_le f.ag _ now) agentRoom,
        le_trans (size_insert_le f.all _ now) tenantRoom⟩
  have covered id t (found : (f.ag.insert (identity hash s) now).lookup id = some t) :
      (f.all.insert (identity hash s) now).lookup id = some t := by
    by_cases same : id = identity hash s
    · rwa [same, lookup_insert] at found ⊢
    · rw [lookup_insert_ne same] at found ⊢
      exact within.covered id t found
  exact {
    agent := admits.ag ▸ sizes.1
    tenant := admits.all ▸ sizes.2
    covered := admits.ag ▸ admits.all ▸ covered
    moves := admits.ag ▸ admits.all ▸ within.moves.trans (Moves.insert f.ag f.all now own) }

theorem foldl_within
    (series : List Series) (own : ∀ s ∈ series, mine (identity hash s)) (within : f.Within l mine ag all) :
    (series.foldl (filterOne l hash now) f).Within l mine ag all := by
  induction series generalizing f with
  | nil => exact within
  | cons s rest ih =>
    have here := filterOne_within now within (own s mem_cons_self)
    exact ih (fun later mem => own later (mem_cons_of_mem s mem)) here

def CardinalityLimiter.Accounted (known : Bytes → Bytes → Bytes → Prop) (l : CardinalityLimiter) : Prop :=
  ∀ i, (l.shards i).Accounted l.perAgent l.perTenant known

theorem CardinalityLimiter.opening_accounted
    (accounted : l.Accounted known) (apart : ∀ tenant, Apart (known tenant)) :
    (l.opening now tenant agent).1.Accounted l.perAgent l.perTenant (known tenant) := by
  have swept := (sweepLocked_accounted l now (accounted (shardFor tenant)) apart).1
  unfold opening
  cases held : (sweepLocked l (l.shards (shardFor tenant)) now).1.tenants.lookup tenant with
  | none => exact accounted_empty
  | some ts => exact swept tenant ts held

theorem CardinalityLimiter.opening_seen (l : CardinalityLimiter) (now : Int) (tenant agent id : Bytes) :
    (l.opening now tenant agent).1.seen agent id = (l.opening now tenant agent).2.ag.lookup id := by
  unfold opening seen
  dsimp only
  cases (((sweepLocked l (l.shards (shardFor tenant)) now).1.tenants.lookup tenant).getD {}).byAgent.lookup agent <;> rfl

theorem CardinalityLimiter.opening_within (accounted : l.Accounted known) (apart : ∀ tenant, Apart (known tenant)) :
    (l.opening now tenant agent).2.Within l (known tenant agent) (l.opening now tenant agent).2.ag
      (l.opening now tenant agent).1.all := by
  have tenantAccounted := opening_accounted now tenant agent accounted apart
  refine ⟨?_, tenantAccounted.tenant, ?_, Moves.refl _ _ _⟩
  · have agents := tenantAccounted.agents agent
    unfold opening
    dsimp only
    cases held : (((sweepLocked l (l.shards (shardFor tenant)) now).1.tenants.lookup tenant).getD {}).byAgent.lookup agent with
    | none => exact zero_le _
    | some ids => exact agents ids held
  · intro id t found
    exact (tenantAccounted.union id t).mpr ⟨agent, (l.opening_seen now tenant agent id).trans found⟩

theorem CardinalityLimiter.call_accounted (accounted : l.Accounted known) (apart : ∀ tenant, Apart (known tenant))
    (own : ∀ s ∈ c.series, known c.tenant c.agent (identity hash s)) : (l.call hash c).Accounted known := by
  have swept := (sweepLocked_accounted l c.now (accounted (shardFor c.tenant)) apart).1
  have tenantAccounted := opening_accounted c.now c.tenant c.agent accounted apart
  have within := foldl_within c.now c.series own (opening_within c.now c.tenant c.agent accounted apart)
  intro i tenant ts found
  by_cases here : i = shardFor c.tenant
  · subst here
    simp only [call, filterDetailed, getD_some, Function.update_self] at found
    by_cases mine : tenant = c.tenant
    · rw [mine, lookup_insert] at found
      cases found
      rw [mine]
      apply tenantAccounted.exchange (apart c.tenant) (l.opening_seen c.now c.tenant c.agent) _ _ _ within.tenant within.moves
      · intro id
        simp only [seen, lookup_insert]
        rfl
      · intro other different
        exact lookup_insert_ne different
      · intro ids stored
        rw [lookup_insert] at stored
        cases stored
        exact within.agent
    · rw [lookup_insert_ne mine] at found
      exact swept tenant ts found
  · simp only [call, filterDetailed, getD_some, Function.update_of_ne here] at found
    exact accounted i tenant ts found

theorem CardinalityLimiter.call_caps (hash : Bytes → Bytes) (l : CardinalityLimiter) (c : Call) :
    (l.call hash c).perAgent = l.perAgent ∧ (l.call hash c).perTenant = l.perTenant :=
  ⟨rfl, rfl⟩

theorem CardinalityLimiter.run_accounted (calls : List Call) (apart : ∀ tenant, Apart (known tenant))
    (own : ∀ c ∈ calls, ∀ s ∈ c.series, known c.tenant c.agent (identity hash s)) (accounted : l.Accounted known) :
    (l.run hash calls).Accounted known ∧
      (l.run hash calls).perAgent = l.perAgent ∧ (l.run hash calls).perTenant = l.perTenant := by
  induction calls generalizing l with
  | nil => exact ⟨accounted, rfl, rfl⟩
  | cons c rest ih =>
    have here := call_accounted accounted apart (own c mem_cons_self)
    obtain ⟨agent, tenant⟩ := l.call_caps hash c
    obtain ⟨later, agentCap, tenantCap⟩ := ih (fun d mem => own d (mem_cons_of_mem c mem)) here
    exact ⟨later, agentCap.trans agent, tenantCap.trans tenant⟩

end Calls

/-! Which series a call lets through. -/

def Filtering.Remembers (f : Filtering) : Prop :=
  ∀ x ∈ f.admitted, seriesIdentity x ∈ f.ag

theorem filterOne_grows (l : CardinalityLimiter) (hash : Bytes → Bytes) (now : Int) (f : Filtering) (s : Series) :
    (∀ id ∈ f.ag, id ∈ (filterOne l hash now f s).ag) ∧ f.admitted <+: (filterOne l hash now f s).admitted ∧
      (f.Remembers → (filterOne l hash now f s).Remembers) := by
  unfold Filtering.Remembers
  rcases filterOne_cases l hash now f s with drops | ⟨admits, _⟩
  · rw [drops.ag, drops.admitted]
    exact ⟨fun _ mem => mem, prefix_refl _, fun remembers => remembers⟩
  rw [admits.ag, admits.admitted]
  refine ⟨fun id mem => (mem_insert _).mpr (.inr mem), prefix_append _ _, ?_⟩
  intro remembers
  exact forall_mem_snoc (fun x mem => (mem_insert _).mpr (.inr (remembers x mem))) ((mem_insert _).mpr (.inl rfl))

theorem foldl_grows (l : CardinalityLimiter) (hash : Bytes → Bytes) (now : Int) (series : List Series) (f : Filtering) :
    (∀ id ∈ f.ag, id ∈ (series.foldl (filterOne l hash now) f).ag) ∧
      f.admitted <+: (series.foldl (filterOne l hash now) f).admitted ∧
      (f.Remembers → (series.foldl (filterOne l hash now) f).Remembers) := by
  induction series generalizing f with
  | nil => exact ⟨fun _ mem => mem, prefix_refl _, fun remembers => remembers⟩
  | cons s rest ih =>
    obtain ⟨ids, admitted, remembers⟩ := filterOne_grows l hash now f s
    obtain ⟨idsLater, admittedLater, remembersLater⟩ := ih (filterOne l hash now f s)
    exact ⟨fun id mem => idsLater id (ids id mem), admitted.trans admittedLater, fun start => remembersLater (remembers start)⟩

variable {before : List Series}

theorem foldl_known (after : List Series) (narrow : s.labels.entries.length ≤ maxLabelsPerSeries)
    (known : identity hash s ∈ (before.foldl (filterOne l hash now) f).ag) :
    ∃ rest, ((before ++ s :: after).foldl (filterOne l hash now) f).admitted =
      (before.foldl (filterOne l hash now) f).admitted ++ s.bounded hash :: rest := by
  have admits := filterOne_known (l := l) now narrow known
  obtain ⟨rest, later⟩ := (foldl_grows l hash now after (filterOne l hash now (before.foldl (filterOne l hash now) f) s)).2.1
  refine ⟨rest, ?_⟩
  rw [foldl_append, foldl_cons, ← later, admits.admitted, append_assoc]
  rfl

def filterStep (l : CardinalityLimiter) (hash : Bytes → Bytes) (now : Int) (f : Filtering) (s : Series) : Filtering × Option Series :=
  let g := filterOne l hash now { f with admitted := [] } s
  ({ g with admitted := [] }, g.admitted.head?)

/-- `admitted := series[:0]`: the call appends to the slice it ranges over. -/
def CardinalityLimiter.admittedInPlace (hash : Bytes → Bytes) (l : CardinalityLimiter) (c : Call) : List Series :=
  (InPlace.run (filterStep l hash c.now) (l.opening c.now c.tenant c.agent).2 c.series).result.2

theorem filterStep_pass (l : CardinalityLimiter) (hash : Bytes → Bytes) (now : Int) (f : Filtering) (s : Series) :
    pass (filterStep l hash now) ({ f with admitted := [] }, f.admitted) s =
      ({ filterOne l hash now f s with admitted := [] }, (filterOne l hash now f s).admitted) := by
  unfold InPlace.pass filterStep filterOne
  by_cases wide : maxLabelsPerSeries < s.labels.entries.length
  · simp [wide]
  by_cases known : seriesIdentity { s with labels := boundLabels hash s.labels } ∈ f.ag
  · simp [wide, known]
  by_cases full : l.perAgent ≤ f.ag.entries.length ∨ l.perTenant ≤ f.all.entries.length
  · simp [wide, known, full]
  · simp [wide, full]

theorem foldl_filterStep (l : CardinalityLimiter) (hash : Bytes → Bytes) (now : Int) (series : List Series) (f : Filtering) :
    (series.foldl (pass (filterStep l hash now)) ({ f with admitted := [] }, f.admitted)).2 =
      (series.foldl (filterOne l hash now) f).admitted := by
  induction series generalizing f with
  | nil => rfl
  | cons s rest ih =>
    rw [foldl_cons, filterStep_pass]
    exact ih (filterOne l hash now f s)

theorem CardinalityLimiter.admittedInPlace_eq (hash : Bytes → Bytes) (l : CardinalityLimiter) (c : Call) :
    l.admittedInPlace hash c = (filterDetailed (some l) hash c.now c.tenant c.agent c.series).2.1 := by
  rw [admittedInPlace, run_result]
  exact foldl_filterStep l hash c.now c.series (l.opening c.now c.tenant c.agent).2

/-! Whole runs. -/

def Sent (hash : Bytes → Bytes) (calls : List Call) (tenant agent id : Bytes) : Prop :=
  ∃ c ∈ calls, c.tenant = tenant ∧ c.agent = agent ∧ ∃ s ∈ c.series, identity hash s = id

/-- Series that distinct agents of a tenant send have distinct identities. -/
def DistinctIdentities (hash : Bytes → Bytes) (calls : List Call) : Prop :=
  ∀ c ∈ calls, ∀ d ∈ calls, c.tenant = d.tenant →
    ∀ s ∈ c.series, ∀ u ∈ d.series, identity hash s = identity hash u → c.agent = d.agent

theorem DistinctIdentities.apart {calls : List Call} (distinct : DistinctIdentities hash calls)
    (tenant : Bytes) : Apart (Sent hash calls tenant) := by
  rintro a b id ⟨c, first, ct, ca, s, fromC, sid⟩ ⟨d, second, dt, da, u, fromD, uid⟩
  rw [← ca, ← da]
  exact distinct c first d second (ct.trans dt.symm) s fromC u fromD (sid.trans uid.symm)

/-- The identity is in the tenant's map when a call reaches it: it was there
before the call and outlives the sweep, or came in with a series just before. -/
def Present (hash : Bytes → Bytes) (l : CardinalityLimiter) (c : Call) (before : List Series) (id : Bytes) : Prop :=
  (∃ ts t, (l.shards (shardFor c.tenant)).tenants.lookup c.tenant = some ts ∧ ts.all.lookup id = some t ∧
    (c.now - (l.shards (shardFor c.tenant)).lastSweep < sweepInterval ∨ c.now - l.idleTTL ≤ t)) ∨
  ∃ x ∈ (filterDetailed (some l) hash c.now c.tenant c.agent before).2.1, seriesIdentity x = id

theorem Present.known {id : Bytes}
    {known : Bytes → Bytes → Bytes → Prop} (present : Present hash l c before id) (accounted : l.Accounted known)
    (apart : ∀ tenant, Apart (known tenant)) (own : known c.tenant c.agent id) :
    id ∈ (before.foldl (filterOne l hash c.now) (l.opening c.now c.tenant c.agent).2).ag := by
  obtain ⟨ids, _, remembers⟩ := foldl_grows l hash c.now before (l.opening c.now c.tenant c.agent).2
  rcases present with ⟨ts, t, held, listed, live⟩ | ⟨x, admitted, same⟩
  · have tenantAccounted := accounted (shardFor c.tenant) c.tenant ts held
    obtain ⟨agent, seen⟩ := (tenantAccounted.union id t).mp listed
    have here : agent = c.agent := apart c.tenant agent c.agent id (tenantAccounted.known agent id t seen) own
    have before : (l.shards (shardFor c.tenant)).seen c.tenant c.agent id = some t := by
      rw [Shard.seen, held, bind_some, ← here, seen]
    have after := (sweepLocked_accounted l c.now (accounted (shardFor c.tenant)) apart).2 c.tenant c.agent id t before live
    have opened : (l.opening c.now c.tenant c.agent).2.ag.lookup id = some t := by
      rw [← l.opening_seen]
      obtain ⟨swept, stored, found⟩ := bind_eq_some_iff.mp after
      simp only [opening, stored]
      exact found
    apply ids
    by_contra missing
    rw [lookup_eq_none.mpr missing] at opened
    cases opened
  · rw [← same]
    exact remembers (fun _ none => by cases none) x admitted

structure Limited (hash : Bytes → Bytes) (start : CardinalityLimiter) (calls : List Call) (c : Call) : Prop where
  capped : ∀ i tenant ts, ((start.run hash (calls ++ [c])).shards i).tenants.lookup tenant = some ts →
    ts.Capped start.perAgent start.perTenant
  counted : ((start.run hash calls).admittedInPlace hash c).length +
    (filterDetailed (some (start.run hash calls)) hash c.now c.tenant c.agent c.series).2.2.dropped = c.series.length
  present : ∀ before s after, c.series = before ++ s :: after → s.labels.entries.length ≤ maxLabelsPerSeries →
    Present hash (start.run hash calls) c before (identity hash s) →
    ∃ rest, (start.run hash calls).admittedInPlace hash c =
      (filterDetailed (some (start.run hash calls)) hash c.now c.tenant c.agent before).2.1 ++ s.bounded hash :: rest

/-- Over every run of the limiter the caps hold, the maps agree, every series of a
call is let through or counted, and one with at most `maxLabelsPerSeries` labels
whose identity the sweep has left in the map is let through. -/
theorem CardinalityLimiter.caps_hold (hash : Bytes → Bytes) (perAgent perTenant zeroTime ttl : Int) (calls : List Call)
    (c : Call) (distinct : DistinctIdentities hash (calls ++ [c])) :
    Limited hash ((newCardinalityLimiter perAgent perTenant zeroTime).withIdleTTL ttl) calls c := by
  generalize begin : (newCardinalityLimiter perAgent perTenant zeroTime).withIdleTTL ttl = start
  have fresh : start.Accounted (Sent hash (calls ++ [c])) := by
    intro i tenant ts found
    rw [← begin] at found
    unfold withIdleTTL newCardinalityLimiter at found
    split at found <;> cases found
  have own (d : Call) mem s sent :
      Sent hash (calls ++ [c]) d.tenant d.agent (identity hash s) :=
    ⟨d, mem, rfl, rfl, s, sent, rfl⟩
  have apart := distinct.apart
  refine ⟨?_, ?_, ?_⟩
  · intro i tenant ts found
    obtain ⟨accounted, agentCap, tenantCap⟩ := run_accounted (calls ++ [c]) apart own fresh
    have capped := (accounted i tenant ts found).capped (apart tenant)
    rwa [agentCap, tenantCap] at capped
  · rw [admittedInPlace_eq]
    exact filterDetailed_counts _ hash c.now c.tenant c.agent c.series
  · intro before s after split narrow present
    have accounted := (run_accounted calls apart (fun d mem => own d (mem_append_left _ mem)) fresh).1
    have sent := own c (mem_append_right _ mem_cons_self) s (by simp [split])
    rw [admittedInPlace_eq, split]
    exact foldl_known c.now after narrow (present.known accounted apart sent)

def probeSeries (metric value : Bytes) : Series :=
  ⟨metric, insert [1] value ∅, 0⟩

def probeLimiter : CardinalityLimiter :=
  (newCardinalityLimiter 1 2 (-86400000000000)).withIdleTTL 0

/-- Two agents of a tenant at their caps; the second call's series is known. -/
theorem CardinalityLimiter.caps_hold_steady :
    DistinctIdentities id ([⟨0, [1], [2], [probeSeries [3] [2]]⟩, ⟨1, [1], [4], [probeSeries [3] [4]]⟩] ++
        [⟨2, [1], [2], [probeSeries [5] [2], probeSeries [3] [2]]⟩]) ∧
      Limited id probeLimiter [⟨0, [1], [2], [probeSeries [3] [2]]⟩, ⟨1, [1], [4], [probeSeries [3] [4]]⟩]
        ⟨2, [1], [2], [probeSeries [5] [2], probeSeries [3] [2]]⟩ := by
  have distinct : DistinctIdentities id ([⟨0, [1], [2], [probeSeries [3] [2]]⟩, ⟨1, [1], [4], [probeSeries [3] [4]]⟩] ++
      [⟨2, [1], [2], [probeSeries [5] [2], probeSeries [3] [2]]⟩]) := by
    unfold DistinctIdentities
    decide +kernel
  exact ⟨distinct, caps_hold id 1 2 (-86400000000000) 0 _ _ distinct⟩

def manyLabels (n : Nat) : Series :=
  ⟨[3], (range n).foldl (fun labels i => labels.insert [UInt8.ofNat (i + 1)] []) ∅, 0⟩

def spelledLabels (n : Nat) : Series :=
  probeSeries [3] ((range (n - 1)).flatMap fun i => [0, UInt8.ofNat (i + 2), 61])

/-- An identity in its agent's map is not always let through. After two idle hours
the sweep frees it and a new one takes its place; and a series of too many labels
is refused before its identity is looked up. -/
theorem CardinalityLimiter.known_identities_dropped :
    (let calls : List Call := [⟨0, [1], [2], [probeSeries [3] []]⟩]
     let c : Call := ⟨7200000000000, [1], [2], [probeSeries [5] [], probeSeries [3] []]⟩
     DistinctIdentities id (calls ++ [c]) ∧
      ((probeLimiter.run id calls).shards (shardFor [1])).seen [1] [2] (identity id (probeSeries [3] [])) = some 0 ∧
      ((probeLimiter.run id calls).admittedInPlace id c).map Series.metric = [[5]]) ∧
    (let calls : List Call := [⟨0, [1], [2], [spelledLabels 33]⟩]
     let c : Call := ⟨1, [1], [2], [manyLabels 33]⟩
     DistinctIdentities id (calls ++ [c]) ∧
      ((probeLimiter.run id calls).shards (shardFor [1])).seen [1] [2] (identity id (manyLabels 33)) = some 0 ∧
      (probeLimiter.run id calls).admittedInPlace id c = []) := by
  unfold DistinctIdentities
  decide +kernel

end Probectl.Pipeline
