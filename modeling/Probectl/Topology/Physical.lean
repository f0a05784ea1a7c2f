import Probectl.Topology.Indexed

/-! Complete snapshots of physical adjacencies: who owns an edge, and what `Latest` shows. -/
namespace Probectl.Topology

open Strings List Function Topology.Graph Prod

structure Delivery where
  snapshot : PhysicalAdjacencySnapshot
  time : Int
  ranging : Ranging

namespace Delivery

def ids (d : Delivery) : List Bytes := d.snapshot.desired.map (·.2.2.id)

def Taken (d : Delivery) : Prop := ¬ (d.snapshot.sourceAgent = [] ∨ d.snapshot.localAddress = [] ∨ d.time = 0)

instance (d : Delivery) : Decidable d.Taken := inferInstanceAs (Decidable (¬ _))

end Delivery

def Graph.deliver (b : Bounds) (g : Graph) (d : Delivery) : Graph :=
  (replacePhysicalAdjacencies d.ranging d.snapshot d.time).foldl (step b d.ranging d.time) g

def lastOf (ds : List Delivery) (source : PhysicalSource) : Option Delivery :=
  ds.reverse.find? fun d => d.Taken ∧ d.snapshot.source = source

def held (ds : List Delivery) (source : PhysicalSource) : List Bytes := ((lastOf ds source).map Delivery.ids).getD []

structure Tidy (all : List Bytes) (g : Graph) : Prop where
  ids : (g.edges.map Edge.id).Nodup
  known : g.edges.map Edge.id ⊆ all
  kinds : ∀ e ∈ g.edges, e.kind = .physical
  shown : ∀ id, id ∈ g.edges.map Edge.id ∧ id ∉ g.physicalRetired.map fst ↔ id ∈ g.physicalOwners.map fst

variable {b : Bounds} {r : Ranging} {t : Int} {g : Graph} {e : Edge} {all : List Bytes} {source : PhysicalSource}
  {localNode remoteNode : Node}

def Below (b : Bounds) (all : List Bytes) : Prop := b.maxEdges ≤ 0 ∨ (all.dedup.length : Int) ≤ b.maxEdges

theorem Tidy.room (tidy : Tidy all g) (below : Below b all) (mem : e.id ∈ all) (absent : (g.edge? e.id).isNone = true) :
    e.id ∉ g.edges.map Edge.id ∧ ¬ (0 < b.maxEdges ∧ b.maxEdges ≤ g.edges.length) := by
  have fresh : e.id ∉ g.edges.map Edge.id := by
    intro there
    obtain ⟨cur, mem, same⟩ := mem_map.mp there
    exact find?_eq_none.mp (Option.isNone_iff_eq_none.mp absent) cur mem (beq_iff_eq.mpr same)
  have sub : e.id :: g.edges.map Edge.id ⊆ all.dedup := by
    intro id here
    rw [mem_dedup]
    exact (mem_cons.mp here).elim (· ▸ mem) fun old => tidy.known old
  have fits := (subperm_of_subset (nodup_cons.mpr ⟨fresh, tidy.ids⟩) sub).length_le
  rw [length_cons, length_map] at fits
  refine ⟨fresh, fun full => ?_⟩
  rcases below with none | below <;> omega

theorem Tidy.round (tidy : Tidy all g) (source : PhysicalSource) (below : Below b all) (mem : e.id ∈ all) (kind : e.kind = .physical)
    (named : e.named = e) : Tidy all (g.step b r t (.adjacency source localNode remoteNode e)) ∧
      (g.step b r t (.adjacency source localNode remoteNode e)).physicalOwners = (e.id, source) :: g.physicalOwners ∧
      (g.step b r t (.adjacency source localNode remoteNode e)).physicalSources = g.physicalSources := by
  obtain ⟨nodes, remoteOnly, after⟩ := adjacency_eq b r t g source localNode remoteNode e
  rw [after]
  unfold upsertEdge own
  rw [named]
  dsimp only
  split
  · rename_i absent
    obtain ⟨fresh, room⟩ := tidy.room below mem absent
    rw [if_neg room]
    have ids : (g.edges ++ [{ e with firstSeen := t, lastSeen := t }]).map Edge.id = g.edges.map Edge.id ++ [e.id] := by simp
    refine ⟨⟨?_, ?_, ?_, fun id => ?_⟩, rfl, rfl⟩
    · rw [ids, nodup_middle, append_nil]
      exact nodup_cons.mpr ⟨fresh, tidy.ids⟩
    · rw [ids, append_subset]
      exact ⟨tidy.known, cons_subset.mpr ⟨mem, nil_subset _⟩⟩
    · rw [forall_mem_append]
      exact ⟨tidy.kinds, forall_mem_singleton.mpr kind⟩
    have shown := tidy.shown id
    by_cases here : id = e.id
    · simp [here]
    · simp_all
  · rename_i present
    have there : e.id ∈ g.edges.map Edge.id := by
      obtain ⟨cur, found⟩ := Option.ne_none_iff_exists'.mp (mt Option.isNone_iff_eq_none.mpr present)
      exact mem_map.mpr ⟨cur, mem_of_find?_eq_some found, by simpa using find?_some found⟩
    have ids : (g.edges.map (e.refresh t)).map Edge.id = g.edges.map Edge.id := by
      simpa [Edge.entry] using fun cur _ => congrArg snd (Edge.refresh_entry e t cur)
    refine ⟨⟨ids ▸ tidy.ids, ids ▸ tidy.known, ?_, fun id => ?_⟩, rfl, rfl⟩
    · rw [forall_mem_map]
      intro cur mem
      rw [← tidy.kinds cur mem, Edge.refresh]
      split <;> rfl
    · rw [ids]
      have shown := tidy.shown id
      by_cases here : id = e.id <;> simp_all

theorem lastByKey_subset (key : β → Bytes) (entries : List β) : lastByKey key entries ⊆ entries := by
  induction entries using reverseRecOn with
  | nil => exact nil_subset _
  | append_singleton entries e ih =>
    rw [lastByKey, foldl_append]
    exact append_subset.mpr ⟨fun x mem => mem_append_left _ (ih (mem_filter.mp mem).1), subset_append_right _ _⟩

theorem desired_named (s : PhysicalAdjacencySnapshot) : ∀ el ∈ s.desired, el.2.2.kind = .physical ∧ el.2.2.named = el.2.2 := by
  intro el mem
  obtain ⟨a, -, made⟩ := mem_filterMap.mp (lastByKey_subset _ _ mem)
  unfold physicalAdjacencyElements at made
  split at made
  · cases made
  · cases made
    exact ⟨rfl, if_neg (by simp [edgeID, show lit "|" ≠ [] by decide])⟩

theorem Tidy.rounds {els : List (Node × Node × Edge)} (tidy : Tidy all g) (source : PhysicalSource) (below : Below b all)
    (known : els.map (·.2.2.id) ⊆ all) (elements : ∀ el ∈ els, el.2.2.kind = .physical ∧ el.2.2.named = el.2.2) :
    ∃ after, (els.map fun el => .adjacency source el.1 el.2.1 el.2.2).foldl (step b r t) g = after ∧ Tidy all after ∧
      (∀ id s, (id, s) ∈ after.physicalOwners ↔ s = source ∧ id ∈ els.map (·.2.2.id) ∨ (id, s) ∈ g.physicalOwners) ∧
      after.physicalSources = g.physicalSources := by
  induction els generalizing g with
  | nil => exact ⟨g, rfl, tidy, by simp, rfl⟩
  | cons el rest ih =>
    obtain ⟨kind, named⟩ := elements el mem_cons_self
    obtain ⟨tidy, owners, sources⟩ := tidy.round source below (known mem_cons_self) kind named
    obtain ⟨after, run, tidy, more, still⟩ :=
      ih tidy (fun _ mem => known (mem_cons_of_mem _ mem)) fun _ mem => elements _ (mem_cons_of_mem _ mem)
    refine ⟨after, run, tidy, fun id s => ?_, still.trans sources⟩
    rw [more, owners, mem_cons, map_cons, mem_cons, Prod.mk.injEq]
    tauto

theorem mem_retired (retired : List Bytes) (t : Int) (old : List (Bytes × Int)) (id : Bytes) :
    id ∈ (retired.map (·, t) ++ old.filter (·.1 ∉ retired)).map fst ↔ id ∈ retired ∨ id ∈ old.map fst := by
  by_cases mem : id ∈ retired <;> simp [mem]

theorem Tidy.retire (tidy : Tidy all g) (ids : List Bytes) : Tidy all (g.step b r t (.retire source ids)) := by
  refine { tidy with shown := fun id => ?_ }
  dsimp only [step]
  rw [mem_retired, mem_filter, decide_eq_true_eq, not_or, and_comm (b := id ∉ _), ← and_assoc, tidy.shown]
  generalize (g.physicalSources.filter fun p => p.1 = source ∧ p.2 ∉ ids).map snd = dropped
  constructor
  · rintro ⟨owned, kept⟩
    by_contra gone
    obtain ⟨p, mem, rfl⟩ := mem_map.mp owned
    by_cases drop : p.1 ∈ dropped
    · exact kept ⟨drop, gone⟩
    · exact gone (mem_map_of_mem (mem_filter.mpr ⟨mem, by simp [drop]⟩))
  · intro owned
    exact ⟨(filter_sublist.map _).subset owned, fun dropped => dropped.2 owned⟩

structure Holds (listed : PhysicalSource → List Bytes) (g : Graph) : Prop where
  owners : ∀ id s, (id, s) ∈ g.physicalOwners ↔ id ∈ listed s
  sources : ∀ id s, (s, id) ∈ g.physicalSources ↔ id ∈ listed s

variable {ds : List Delivery} {d : Delivery}

theorem Holds.deliver (holds : Holds listed g) (tidy : Tidy all g)
    (below : Below b all) (known : d.ids ⊆ all) (taken : d.Taken) :
    Tidy all (g.deliver b d) ∧ Holds (update listed d.snapshot.source d.ids) (g.deliver b d) := by
  have perm : ((d.ranging.order d.snapshot.desired).map (·.2.2.id)).Perm d.ids := (d.ranging.perm _).map _
  have elements el mem := desired_named d.snapshot el ((d.ranging.perm _).subset mem)
  obtain ⟨after, run, tidy, owners, sources⟩ :=
    tidy.rounds d.snapshot.source below (fun _ mem => known (perm.subset mem)) elements
  have dropped id : id ∈ (after.physicalSources.filter fun p => p.1 = d.snapshot.source ∧ p.2 ∉ d.ids).map Prod.snd ↔
      id ∈ listed d.snapshot.source ∧ id ∉ d.ids := by
    simp only [sources, mem_map, mem_filter, decide_eq_true_eq, Prod.exists, holds.sources, exists_eq_right]
    exact ⟨fun ⟨_, mem, same, gone⟩ => ⟨same ▸ mem, gone⟩, fun ⟨mem, gone⟩ => ⟨_, mem, rfl, gone⟩⟩
  rw [Graph.deliver, replacePhysicalAdjacencies, if_neg taken, foldl_append, run, foldl_cons]
  refine ⟨tidy.retire d.ids, fun id s => ?_, fun id s => ?_⟩
  · refine mem_filter.trans ?_
    rw [decide_eq_true_eq, owners, holds.owners, perm.mem_iff]
    refine (and_congr_right' (not_congr (and_congr_right' (dropped id)))).trans ?_
    by_cases same : s = d.snapshot.source
    · rw [same, update_self]
      tauto
    · rw [update_of_ne same]
      tauto
  · refine mem_append.trans ?_
    rw [sources, mem_filter, holds.sources]
    by_cases same : s = d.snapshot.source
    · simp [same, Delivery.ids]
    · simp [same, Ne.symm same]

theorem held_append (ds : List Delivery) (taken : d.Taken) :
    held (ds ++ [d]) = update (held ds) d.snapshot.source d.ids := by
  funext s
  by_cases same : d.snapshot.source = s
  · simp [held, lastOf, taken, same]
  · simp [held, lastOf, same, update_of_ne (Ne.symm same)]

theorem holds_held (ds : List Delivery) (below : Below b all) (known : ds.flatMap Delivery.ids ⊆ all) :
    Tidy all (ds.foldl (deliver b) {}) ∧ Holds (held ds) (ds.foldl (deliver b) {}) := by
  induction ds using reverseRecOn with
  | nil => exact ⟨⟨nodup_nil, nil_subset _, by simp, by simp⟩, by simp [held, lastOf], by simp [held, lastOf]⟩
  | append_singleton ds d ih =>
    rw [flatMap_append, append_subset] at known
    obtain ⟨tidy, holds⟩ := ih known.1
    rw [foldl_append, foldl_cons]
    by_cases taken : d.Taken
    · rw [held_append ds taken]
      exact holds.deliver tidy below (by simpa using known.2) taken
    have ignored : held (ds ++ [d]) = held ds := by
      funext s
      simp [held, lastOf, taken]
    rw [ignored, deliver, replacePhysicalAdjacencies, if_pos (not_not.mp taken)]
    exact ⟨tidy, holds⟩

def Newest (ds : List Delivery) (d : Delivery) : Prop :=
  d ∈ ds ∧ d.Taken ∧ ∀ other ∈ ds, other.Taken → other.snapshot.source = d.snapshot.source → other.time ≤ d.time

/-- The last snapshot to arrive from a source is its newest one, or repeats it. -/
def InOrder (ds : List Delivery) : Prop :=
  ∀ source d, lastOf ds source = some d → ∀ other ∈ ds, other.Taken → other.snapshot.source = source →
    other.time < d.time ∨ other.time = d.time ∧ other.ids = d.ids

theorem held_newest (inOrder : InOrder ds) (source : PhysicalSource) (id : Bytes) :
    id ∈ held ds source ↔ ∃ d, Newest ds d ∧ d.snapshot.source = source ∧ id ∈ d.ids := by
  unfold held
  constructor
  · intro mem
    cases found : lastOf ds source with
    | none => simp [found] at mem
    | some d =>
      have here : d.Taken ∧ d.snapshot.source = source := by simpa using find?_some found
      have late := inOrder source d found
      refine ⟨d, ⟨mem_reverse.mp (mem_of_find?_eq_some found), here.1, fun other mem taken same => ?_⟩, here.2, ?_⟩
      · have := late other mem taken (same.trans here.2)
        omega
      · simpa [found] using mem
  · rintro ⟨d, ⟨mem, taken, newest⟩, same, listed⟩
    cases found : lastOf ds source with
    | none =>
      have left := find?_eq_none.mp found d (mem_reverse.mpr mem)
      simp [taken, same] at left
    | some last =>
      have here : last.Taken ∧ last.snapshot.source = source := by simpa using find?_some found
      have bound := newest last (mem_reverse.mp (mem_of_find?_eq_some found)) here.1 (here.2.trans same.symm)
      rcases inOrder source last found d mem taken same with early | ⟨-, ids⟩
      · omega
      · simpa [ids] using listed

def shownPhysical (b : Bounds) (g : Graph) (now : Int) : List Bytes :=
  ((g.latest b now).edges.filter (·.kind = .physical)).map Edge.id

/-- Sources whose snapshots arrive in order: what is shown, and who owns it. -/
theorem physical_follows_newest (b : Bounds) (ds : List Delivery) (below : Below b (ds.flatMap Delivery.ids))
    (horizon : b.staleness ≤ 0) (inOrder : InOrder ds) (now : Int) :
    (∀ id, id ∈ shownPhysical b (ds.foldl (Graph.deliver b) {}) now ↔ ∃ d, Newest ds d ∧ id ∈ d.ids) ∧
      ∀ id source, (id, source) ∈ (ds.foldl (Graph.deliver b) {}).physicalOwners ↔
        ∃ d, Newest ds d ∧ d.snapshot.source = source ∧ id ∈ d.ids := by
  obtain ⟨tidy, holds⟩ := holds_held ds below (Subset.refl _)
  refine ⟨fun id => ?_, fun id source => (holds.owners id source).trans (held_newest inOrder source id)⟩
  have newest : id ∈ (ds.foldl (deliver b) {}).physicalOwners.map Prod.fst ↔ ∃ d, Newest ds d ∧ id ∈ d.ids := by
    simp only [mem_map, Prod.exists, exists_and_right, exists_eq_right, holds.owners, held_newest inOrder]
    exact ⟨fun ⟨_, d, newest, _, mem⟩ => ⟨d, newest, mem⟩, fun ⟨d, newest, mem⟩ => ⟨_, d, newest, rfl, mem⟩⟩
  have cutoff : (ds.foldl (deliver b) {}).stalenessCutoff b now = 0 := if_pos horizon
  rw [← newest, ← tidy.shown]
  simp only [shownPhysical, latest, sortSnapshot, cutoff, mem_map (l := filter _ _), mem_filter,
    mem_insertionSort, true_or, and_true, decide_eq_true_eq, not_and]
  constructor
  · rintro ⟨e, ⟨⟨mem, alive⟩, kind⟩, rfl⟩
    exact ⟨mem_map_of_mem mem, alive kind⟩
  · rintro ⟨there, alive⟩
    obtain ⟨e, mem, rfl⟩ := mem_map.mp there
    exact ⟨e, ⟨⟨mem, fun _ => alive⟩, tidy.kinds e mem⟩, rfl⟩

def report (remotes : List String) (t : Int) : Delivery where
  snapshot := ⟨lit "g", lit "a", remotes.map fun r => ⟨[], lit r, [], lit "lldp"⟩⟩
  time := t
  ranging := inTurn

def link (remote : String) : Bytes := lit "device:a|physical|device:" ++ lit remote

def shownAfter (ds : List Delivery) : List Bytes := shownPhysical unbounded (ds.foldl (deliver unbounded) {}) 0

theorem physical_follows_newest_two : shownAfter [report ["b", "c"] 1, report ["c"] 2] = [link "c"] ∧
    ∃ d, Newest [report ["b", "c"] 1, report ["c"] 2] d ∧ link "c" ∈ d.ids := by
  have shown : shownAfter [report ["b", "c"] 1, report ["c"] 2] = [link "c"] := by decide +kernel
  have inOrder : InOrder [report ["b", "c"] 1, report ["c"] 2] := by
    rintro source d found other mem - rfl
    rw [mem_pair] at mem
    have last : lastOf [report ["b", "c"] 1, report ["c"] 2] other.snapshot.source = some (report ["c"] 2) := by
      rcases mem with rfl | rfl <;> rfl
    cases last.symm.trans found
    rcases mem with rfl | rfl <;> simp [report]
  exact ⟨shown, ((physical_follows_newest unbounded _ (.inl (by decide)) (by decide) inOrder 0).1 _).mp
    (show _ ∈ shownAfter _ from shown ▸ mem_cons_self)⟩

/-- A snapshot of time 1 that arrives behind the one of time 2 is taken for the newer one. -/
theorem late_snapshot_shown : shownAfter [report ["c"] 2, report ["b"] 1] = [link "b"] ∧
    ([report ["c"] 2, report ["b"] 1].foldl (Graph.deliver unbounded) {}).physicalOwners = [(link "b", ⟨lit "g", lit "a"⟩)] ∧
    Newest [report ["c"] 2, report ["b"] 1] (report ["c"] 2) ∧ (report ["c"] 2).ids = [link "c"] := by
  refine ⟨by decide +kernel, by decide +kernel, ⟨mem_cons_self, by decide, ?_⟩, by decide +kernel⟩
  simp [report]

end Probectl.Topology
