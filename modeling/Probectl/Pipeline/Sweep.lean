import Probectl.Lib.Maps
import Probectl.Pipeline.Cardinality

/-! The maps of one tenant of the cardinality limiter, and the idle sweep over
them: its own map and its agents' maps stay within their caps and agree. -/
namespace Probectl.Pipeline

open Strings Maps AList Option TenantSeries

def TenantSeries.seen (ts : TenantSeries) (agent id : Bytes) : Option Int :=
  (ts.byAgent.lookup agent).bind fun ids => ids.lookup id

structure TenantSeries.Capped (perAgent perTenant : Nat) (ts : TenantSeries) : Prop where
  tenant : ts.all.entries.length ≤ perTenant
  agents : ∀ agent ids, ts.byAgent.lookup agent = some ids → ids.entries.length ≤ perAgent
  union : ∀ id t, ts.all.lookup id = some t ↔ ∃ agent, ts.seen agent id = some t
  disjoint : ∀ a b id t u, ts.seen a id = some t → ts.seen b id = some u → a = b

/-! A tenant's maps change together. -/

variable {ts : TenantSeries} {mine : Bytes → Prop} {id agent : Bytes} {all all' : Times} {ts' : TenantSeries}

section Agent

variable {perAgent perTenant : Nat} {known : Bytes → Bytes → Prop}

structure TenantSeries.Accounted (perAgent perTenant : Nat) (known : Bytes → Bytes → Prop) (ts : TenantSeries) : Prop where
  tenant : ts.all.entries.length ≤ perTenant
  agents : ∀ agent ids, ts.byAgent.lookup agent = some ids → ids.entries.length ≤ perAgent
  union : ∀ id t, ts.all.lookup id = some t ↔ ∃ agent, ts.seen agent id = some t
  known : ∀ agent id t, ts.seen agent id = some t → known agent id

def Apart (known : Bytes → Bytes → Prop) : Prop :=
  ∀ a b id, known a id → known b id → a = b

theorem TenantSeries.Accounted.capped (accounted : ts.Accounted perAgent perTenant known)
    (apart : Apart known) : ts.Capped perAgent perTenant where
  tenant := accounted.tenant
  agents := accounted.agents
  union := accounted.union
  disjoint a b id t u first second := apart a b id (accounted.known a id t first) (accounted.known b id u second)

theorem TenantSeries.accounted_empty : TenantSeries.Accounted perAgent perTenant known {} where
  tenant := Nat.zero_le _
  agents _ _ found := nomatch found
  union id t := by
    constructor
    · intro found
      cases found
    · rintro ⟨agent, found⟩
      cases found
  known _ _ _ found := nomatch found

/-- How one agent's map and the tenant's map may change: an identity keeps its
entries in both, or it is the agent's own and they end up the same. -/
def Moves (mine : Bytes → Prop) (ag all ag' all' : Times) : Prop :=
  ∀ id, (ag'.lookup id = ag.lookup id ∧ all'.lookup id = all.lookup id) ∨ (mine id ∧ ag'.lookup id = all'.lookup id)

theorem Moves.refl (mine : Bytes → Prop) (ag all : Times) : Moves mine ag all ag all :=
  fun _ => .inl ⟨rfl, rfl⟩

variable {ag ag' : Times}

theorem Moves.trans (first : Moves mine ag all ag' all')
    (second : Moves mine ag' all' ag'' all'') : Moves mine ag all ag'' all'' := by
  intro id
  rcases second id with ⟨agKept, allKept⟩ | moved
  · rw [agKept, allKept]
    exact first id
  · exact .inr moved

theorem Moves.insert (ag all : Times) (now : Int) (own : mine id) :
    Moves mine ag all (ag.insert id now) (all.insert id now) := by
  intro id'
  by_cases same : id' = id
  · rw [same, lookup_insert, lookup_insert]
    exact .inr ⟨own, rfl⟩
  · rw [lookup_insert_ne same, lookup_insert_ne same]
    exact .inl ⟨rfl, rfl⟩

theorem Moves.erase (ag all : Times) (own : mine id) : Moves mine ag all (ag.erase id) (all.erase id) := by
  intro id'
  by_cases same : id' = id
  · rw [same, lookup_erase, lookup_erase]
    exact .inr ⟨own, rfl⟩
  · rw [lookup_erase_ne same, lookup_erase_ne same]
    exact .inl ⟨rfl, rfl⟩

theorem TenantSeries.Accounted.exchange (accounted : ts.Accounted perAgent perTenant known) (apart : Apart known)
    (before : ∀ id, ts.seen agent id = ag.lookup id) (after : ∀ id, ts'.seen agent id = ag'.lookup id)
    (others : ∀ other ≠ agent, ts'.byAgent.lookup other = ts.byAgent.lookup other)
    (mine : ∀ ids, ts'.byAgent.lookup agent = some ids → ids.entries.length ≤ perAgent)
    (tenant : ts'.all.entries.length ≤ perTenant) (moves : Moves (known agent) ag ts.all ag' ts'.all) :
    ts'.Accounted perAgent perTenant known := by
  have elsewhere other (different : other ≠ agent) id : ts'.seen other id = ts.seen other id := by
    rw [seen, seen, others other different]
  refine ⟨tenant, ?_, ?_, ?_⟩
  · intro a ids held
    by_cases here : a = agent
    · exact mine ids (here ▸ held)
    · exact accounted.agents a ids (others a here ▸ held)
  · intro id t
    rcases moves id with ⟨agKept, allKept⟩ | ⟨belongs, same⟩
    · have unchanged a : ts'.seen a id = ts.seen a id := by
        by_cases here : a = agent
        · rw [here, after, before, agKept]
        · exact elsewhere a here id
      rw [allKept, accounted.union]
      simp only [unchanged]
    · rw [← same]
      constructor
      · exact fun found => ⟨agent, (after id).trans found⟩
      rintro ⟨a, found⟩
      by_cases here : a = agent
      · rwa [here, after id] at found
      · rw [elsewhere a here id] at found
        exact absurd (apart a agent id (accounted.known a id t found) belongs) here
  · intro a id t found
    by_cases here : a = agent
    · rw [here] at found ⊢
      rcases moves id with ⟨agKept, _⟩ | ⟨belongs, _⟩
      · rw [after, agKept, ← before] at found
        exact accounted.known agent id t found
      · exact belongs
    · exact accounted.known a id t ((elsewhere a here id).symm.trans found)

end Agent

/-! The idle sweep. -/

def Swept (cutoff : Int) (old new : Option Int) : Prop :=
  new = old ∨ new = none ∧ ∃ t, old = some t ∧ t < cutoff

variable {cutoff : Int}

theorem Swept.trans (first : Swept cutoff a b) (second : Swept cutoff b c) :
    Swept cutoff a c := by
  rcases second with same | ⟨gone, t, held, idle⟩
  · exact same ▸ first
  rcases first with same | ⟨none, _⟩
  · exact .inr ⟨gone, t, same ▸ held, idle⟩
  · rw [none] at held
    cases held

variable {t : Int} {old new : Option Int}

theorem Swept.kept (swept : Swept cutoff old new) (held : old = some t) (live : cutoff ≤ t) : new = some t := by
  rcases swept with same | ⟨_, u, idle, before⟩
  · exact same.trans held
  · rw [held] at idle
    cases idle
    omega

theorem Swept.found (swept : Swept cutoff old new) (found : new = some t) : old = some t := by
  rcases swept with same | ⟨gone, _⟩
  · exact same ▸ found
  · rw [gone] at found
    cases found

structure IdsSwept (cutoff : Int) (mine : Bytes → Prop) (ids all ids' all' : Times) : Prop where
  moves : Moves mine ids all ids' all'
  swept : ∀ id, Swept cutoff (ids.lookup id) (ids'.lookup id)
  smaller : all'.entries.length ≤ all.entries.length

variable {ids : Times}

theorem IdsSwept.erase
    (here : IdsSwept cutoff mine ids all ids' all') (own : ∀ id t, ids.lookup id = some t → mine id)
    (current : ids'.lookup id = some t) (idle : t < cutoff) :
    IdsSwept cutoff mine ids all (ids'.erase id) (all'.erase id) := by
  have old := (here.swept id).found current
  refine ⟨here.moves.trans (Moves.erase ids' all' (own id t old)), ?_, ?_⟩
  · intro id'
    by_cases same : id' = id
    · rw [same]
      exact .inr ⟨lookup_erase _ _, t, old, idle⟩
    · rw [lookup_erase_ne same]
      exact here.swept id'
  · exact Nat.le_trans (List.kerase_sublist id all'.entries).length_le here.smaller

def sweepId (cutoff : Int) (w : Times × Times × Nat) (entry : Sigma fun _ : Bytes => Int) : Times × Times × Nat :=
  if entry.2 < cutoff then (w.1.erase entry.1, w.2.1.erase entry.1, w.2.2 + 1) else w

theorem sweepId_elsewhere (cutoff : Int) (w : Times × Times × Nat) (entry : Sigma fun _ : Bytes => Int) (id : Bytes)
    (other : id ≠ entry.1) : (sweepId cutoff w entry).1.lookup id = w.1.lookup id := by
  unfold sweepId
  split
  · exact lookup_erase_ne other
  · rfl

theorem sweepIds_swept (cutoff : Int) (ids all : Times) (own : ∀ id t, ids.lookup id = some t → mine id) :
    IdsSwept cutoff mine ids all (sweepIds cutoff ids all).1 (sweepIds cutoff ids all).2.1 := by
  have keeps w (entry : Sigma fun _ => Int) (here : IdsSwept cutoff mine ids all w.1 w.2.1)
      (current : w.1.lookup entry.1 = some entry.2) :
      IdsSwept cutoff mine ids all (sweepId cutoff w entry).1 (sweepId cutoff w entry).2.1 := by
    unfold sweepId
    split
    · rename_i idle
      exact here.erase own current idle
    · exact here
  exact foldl_entries (fun w : Times × Times × Nat => w.1) (sweepId cutoff)
    (fun w => IdsSwept cutoff mine ids all w.1 w.2.1) (sweepId_elsewhere cutoff) keeps
    ⟨Moves.refl mine ids all, fun _ => .inl rfl, le_rfl⟩

def sweepAgent (cutoff : Int) (ts : TenantSeries) (agent : Bytes) (ids : Times) : TenantSeries :=
  { ts with
    all := (sweepIds cutoff ids ts.all).2.1
    byAgent :=
      if (sweepIds cutoff ids ts.all).1.entries = [] then ts.byAgent.erase agent
      else ts.byAgent.replace agent (sweepIds cutoff ids ts.all).1 }

theorem lookup_empty (empty : ids.entries = []) (id : Bytes) : ids.lookup id = none := by
  rw [lookup, empty, List.dlookup_nil]

variable {other : Bytes}

section Sweep

variable {perAgent perTenant : Nat} {known : Bytes → Bytes → Prop}

theorem sweepAgent_elsewhere (cutoff : Int) (ts : TenantSeries) (ids : Times) (different : other ≠ agent) :
    (sweepAgent cutoff ts agent ids).byAgent.lookup other = ts.byAgent.lookup other := by
  unfold sweepAgent
  split
  · exact lookup_erase_ne different
  · exact lookup_replace_ne _ different

theorem sweepAgent_seen (held : ts.byAgent.lookup agent = some ids) (id : Bytes) :
    (sweepAgent cutoff ts agent ids).seen agent id = (sweepIds cutoff ids ts.all).1.lookup id := by
  unfold sweepAgent seen
  split
  · rename_i empty
    rw [lookup_erase, lookup_empty empty]
    rfl
  · rw [lookup_replace _ held]
    rfl

structure TenantSeries.SweptTo (perAgent perTenant : Nat) (known : Bytes → Bytes → Prop) (cutoff : Int)
    (ts ts' : TenantSeries) : Prop where
  accounted : ts'.Accounted perAgent perTenant known
  swept : ∀ agent id, Swept cutoff (ts.seen agent id) (ts'.seen agent id)

theorem TenantSeries.SweptTo.trans
    (first : ts.SweptTo perAgent perTenant known cutoff ts') (second : ts'.SweptTo perAgent perTenant known cutoff ts'') :
    ts.SweptTo perAgent perTenant known cutoff ts'' :=
  ⟨second.accounted, fun agent id => (first.swept agent id).trans (second.swept agent id)⟩

theorem sweepAgent_swept (cutoff : Int)
    (accounted : ts.Accounted perAgent perTenant known) (apart : Apart known) (held : ts.byAgent.lookup agent = some ids) :
    ts.SweptTo perAgent perTenant known cutoff (sweepAgent cutoff ts agent ids) := by
  have before id : ts.seen agent id = ids.lookup id := by
    rw [seen, held, bind_some]
  have inner := sweepIds_swept cutoff ids ts.all fun id t found =>
    accounted.known agent id t ((before id).trans found)
  have shrinks : (sweepIds cutoff ids ts.all).1.entries.length ≤ perAgent := by
    apply Nat.le_trans (size_le _) (accounted.agents agent ids held)
    intro id present none
    obtain ⟨t, found⟩ := ne_none_iff_exists'.mp present
    rw [(inner.swept id).found found] at none
    cases none
  constructor
  · apply accounted.exchange apart before (sweepAgent_seen held) _ _ (Nat.le_trans inner.smaller accounted.tenant) inner.moves
    · intro other different
      exact sweepAgent_elsewhere cutoff ts ids different
    intro kept found
    unfold sweepAgent at found
    split at found
    · rw [lookup_erase] at found
      cases found
    · rw [lookup_replace _ held] at found
      cases found
      exact shrinks
  · intro a id
    by_cases here : a = agent
    · rw [here, sweepAgent_seen held, before]
      exact inner.swept id
    · rw [seen, seen, sweepAgent_elsewhere cutoff ts ids here]
      exact .inl rfl

theorem sweepTenant_swept (cutoff : Int) (accounted : ts.Accounted perAgent perTenant known)
    (apart : Apart known) : ts.SweptTo perAgent perTenant known cutoff (sweepTenant cutoff ts).1 := by
  have keeps (w : TenantSeries × Nat) (entry : Sigma fun _ => Times)
      (here : ts.SweptTo perAgent perTenant known cutoff w.1) (current : w.1.byAgent.lookup entry.1 = some entry.2) :
      ts.SweptTo perAgent perTenant known cutoff (sweepAgent cutoff w.1 entry.1 entry.2) :=
    here.trans (sweepAgent_swept cutoff here.accounted apart current)
  exact foldl_entries (fun w => w.1.byAgent)
    (fun w entry => (sweepAgent cutoff w.1 entry.1 entry.2, w.2 + (sweepIds cutoff entry.2 w.1.all).2.2))
    (fun w => ts.SweptTo perAgent perTenant known cutoff w.1)
    (fun w entry other different => sweepAgent_elsewhere cutoff w.1 entry.2 different) keeps
    ⟨accounted, fun _ _ => .inl rfl⟩

end Sweep

/-! One shard. -/

def Shard.seen (sh : Shard) (tenant agent id : Bytes) : Option Int :=
  (sh.tenants.lookup tenant).bind fun ts => ts.seen agent id

section Shards

variable {perAgent perTenant : Nat} {known : Bytes → Bytes → Bytes → Prop}

def Shard.Accounted (perAgent perTenant : Nat) (known : Bytes → Bytes → Bytes → Prop) (sh : Shard) : Prop :=
  ∀ tenant ts, sh.tenants.lookup tenant = some ts → ts.Accounted perAgent perTenant (known tenant)

def sweepOne (cutoff : Int) (sh : Shard) (tenant : Bytes) (ts : TenantSeries) : Shard :=
  { sh with
    tenants :=
      if (sweepTenant cutoff ts).1.all.entries = [] ∧ (sweepTenant cutoff ts).1.dropped = 0 ∧ (sweepTenant cutoff ts).1.truncated = 0 then
        sh.tenants.erase tenant
      else sh.tenants.replace tenant (sweepTenant cutoff ts).1 }

variable {tenant : Bytes}

theorem sweepOne_elsewhere (cutoff : Int) (sh : Shard) (ts : TenantSeries) (different : other ≠ tenant) :
    (sweepOne cutoff sh tenant ts).tenants.lookup other = sh.tenants.lookup other := by
  unfold sweepOne
  split
  · exact lookup_erase_ne different
  · exact lookup_replace_ne _ different

structure Shard.SweptTo (perAgent perTenant : Nat) (known : Bytes → Bytes → Bytes → Prop) (cutoff : Int)
    (sh sh' : Shard) : Prop where
  accounted : sh'.Accounted perAgent perTenant known
  swept : ∀ tenant agent id, Swept cutoff (sh.seen tenant agent id) (sh'.seen tenant agent id)

variable {sh : Shard}

theorem Shard.SweptTo.trans (first : sh.SweptTo perAgent perTenant known cutoff sh')
    (second : sh'.SweptTo perAgent perTenant known cutoff sh'') : sh.SweptTo perAgent perTenant known cutoff sh'' :=
  ⟨second.accounted, fun tenant agent id => (first.swept tenant agent id).trans (second.swept tenant agent id)⟩

theorem sweepOne_seen (held : sh.tenants.lookup tenant = some ts)
    (next : (sweepTenant cutoff ts).1.Accounted perAgent perTenant (known tenant)) (agent id : Bytes) :
    (sweepOne cutoff sh tenant ts).seen tenant agent id = (sweepTenant cutoff ts).1.seen agent id := by
  unfold sweepOne Shard.seen
  split
  · rename_i empty
    rw [lookup_erase]
    symm
    by_contra present
    obtain ⟨t, found⟩ := ne_none_iff_exists'.mp present
    have listed := (next.union id t).mpr ⟨agent, found⟩
    rw [lookup_empty empty.1] at listed
    cases listed
  · rw [lookup_replace _ held, bind_some]

theorem sweepOne_swept (cutoff : Int)
    (accounted : sh.Accounted perAgent perTenant known) (apart : ∀ tenant, Apart (known tenant))
    (held : sh.tenants.lookup tenant = some ts) :
    sh.SweptTo perAgent perTenant known cutoff (sweepOne cutoff sh tenant ts) := by
  have inner := sweepTenant_swept cutoff (accounted tenant ts held) (apart tenant)
  constructor
  · intro t kept found
    by_cases here : t = tenant
    · subst here
      unfold sweepOne at found
      split at found
      · rw [lookup_erase] at found
        cases found
      · rw [lookup_replace _ held] at found
        cases found
        exact inner.accounted
    · rw [sweepOne_elsewhere cutoff sh ts here] at found
      exact accounted t kept found
  · intro t agent id
    by_cases here : t = tenant
    · subst here
      rw [sweepOne_seen held inner.accounted, Shard.seen, held]
      exact inner.swept agent id
    · rw [Shard.seen, Shard.seen, sweepOne_elsewhere cutoff sh ts here]
      exact .inl rfl

theorem sweepLocked_accounted (l : CardinalityLimiter) (now : Int)
    (accounted : sh.Accounted perAgent perTenant known) (apart : ∀ tenant, Apart (known tenant)) :
    (sweepLocked l sh now).1.Accounted perAgent perTenant known ∧
      ∀ tenant agent id t, sh.seen tenant agent id = some t →
        (now - sh.lastSweep < sweepInterval ∨ now - l.idleTTL ≤ t) →
        (sweepLocked l sh now).1.seen tenant agent id = some t := by
  unfold sweepLocked
  split
  · exact ⟨accounted, fun _ _ _ _ held _ => held⟩
  rename_i due
  have keeps (w : Shard × Nat) (entry : Sigma fun _ => TenantSeries)
      (here : sh.SweptTo perAgent perTenant known (now - l.idleTTL) w.1)
      (current : w.1.tenants.lookup entry.1 = some entry.2) :
      sh.SweptTo perAgent perTenant known (now - l.idleTTL) (sweepOne (now - l.idleTTL) w.1 entry.1 entry.2) :=
    here.trans (sweepOne_swept (now - l.idleTTL) here.accounted apart current)
  have done := foldl_entries (fun w => w.1.tenants)
    (fun w entry => (sweepOne (now - l.idleTTL) w.1 entry.1 entry.2, w.2 + (sweepTenant (now - l.idleTTL) entry.2).2))
    (fun w => sh.SweptTo perAgent perTenant known (now - l.idleTTL) w.1)
    (fun w entry other different => sweepOne_elsewhere (now - l.idleTTL) w.1 entry.2 different) keeps
    (s := (⟨sh.tenants, now⟩, 0)) ⟨accounted, fun _ _ _ => .inl rfl⟩
  refine ⟨done.accounted, ?_⟩
  intro tenant agent id t held live
  exact (done.swept tenant agent id).kept held (live.resolve_left due)

end Shards

end Probectl.Pipeline
