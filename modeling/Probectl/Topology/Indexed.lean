import Probectl.Lib.Canonical
import Probectl.Topology.Graph

/-! Two stores of one graph: `Neighbors` and `Traverse` of `graph.go` go over all edges,
those of `indexed.go` over an index from the ends of an edge to its id. -/
namespace Probectl.Topology

open Strings List Function Edge List.Sublist

abbrev Entry := (Bytes × Bytes) × Bytes

def Edge.entry (e : Edge) : Entry := ((e.fromID, e.toID), e.id)

def Event.edge? : Event → Option Edge
  | .edge e | .adjacency _ _ _ e => some e.named
  | _ => none

/-- A builder's events, whatever they are; `claims` are the identity claims that a prune
deletes with the elements of the graph. -/
inductive Op where
  | observe (events : List Event) (t : Int) (r : Ranging)
  | prune (cutoff : Int) (claims : Nat) (r : Ranging)

def Op.edges : Op → List Edge
  | .observe events _ _ => events.filterMap Event.edge?
  | .prune .. => []

namespace Graph

def apply (b : Bounds) (g : Graph) : Op → Graph
  | .observe events t r => events.foldl (step b r t) g
  | .prune cutoff _ _ => (g.pruneBefore cutoff).1

def validEdges (g : Graph) (t : Int) : List Edge := g.edges.filter fun e => validAt e.firstSeen e.lastSeen t

def neighbors (g : Graph) (id : Bytes) (t : Int) : List Bytes :=
  sort ((g.validEdges t).filterMap fun e =>
    if e.fromID = id then some e.toID else if e.toID = id then some e.fromID else none).dedup

/-- The source stops the search at the goal; nothing that is entered later changes a parent. -/
def traverse (g : Graph) (start goal : Bytes) (t : Int) : Option (List Bytes) :=
  if start = goal then some [start] else bfsRoute ((g.validEdges t).map (·.entry.1)) start goal

def edgeValidAt (g : Graph) (id : Bytes) (t : Int) : Bool :=
  (g.edge? id).any fun e => validAt e.firstSeen e.lastSeen t

def recent (b : Bounds) (r : Ranging) (t : Int) : Graph → List Event → List Edge
  | _, [] => []
  | g, ev :: rest => (ev.edge?.filter fun e => (g.edge? e.id).isNone).toList ++ recent b r t (g.step b r t ev) rest

end Graph

/-- `fwd[from][to]` and `rev[to][from]` are always written together: one map is both. -/
structure IndexedGraph where
  inner : Graph := {}
  index : List Entry := []

namespace IndexedGraph

def put (index : List Entry) (e : Edge) : List Entry :=
  e.entry :: index.filter (·.1 ≠ e.entry.1)

def apply (b : Bounds) (ig : IndexedGraph) : Op → IndexedGraph
  | .observe events t r => ⟨events.foldl (Graph.step b r t) ig.inner, (ig.inner.recent b r t events).foldl put ig.index⟩
  | .prune cutoff claims r =>
    let pruned := ig.inner.pruneBefore cutoff
    ⟨pruned.1, if claims + pruned.2 = 0 then ig.index else (r.order pruned.1.edges).foldl put []⟩

def valid (ig : IndexedGraph) (t : Int) : List Entry :=
  ig.index.filter fun p => ig.inner.edgeValidAt p.2 t

def neighbors (ig : IndexedGraph) (id : Bytes) (t : Int) : List Bytes :=
  let pairs := (ig.valid t).map Prod.fst
  sort ((pairs.filter (·.1 = id)).map Prod.snd ++ (pairs.filter (·.2 = id)).map Prod.fst).dedup

def traverse (ig : IndexedGraph) (start goal : Bytes) (t : Int) : Option (List Bytes) :=
  if start = goal then some [start] else bfsRoute ((ig.valid t).map Prod.fst) start goal

end IndexedGraph

open IndexedGraph

def Plain (entries : List Entry) : Prop :=
  ∀ p ∈ entries, ∀ q ∈ entries, p.1 = q.1 ↔ p.2 = q.2

/-- The index lists the edges, and nothing but entries that were observed. -/
structure Filed (entries : List Entry) (edges : List Edge) (index : List Entry) : Prop where
  ids : (edges.map Edge.id).Nodup
  listed : edges.map entry ⊆ index
  known : index ⊆ entries
  keys : (index.map Prod.fst).Nodup

variable {entries index : List Entry} {edges fewer l : List Edge} {b : Bounds} {r : Ranging} {t : Int} {g : Graph} {e : Edge}

theorem Filed.sublist (filed : Filed entries edges index) (sub : fewer.Sublist edges) : Filed entries fewer index where
  ids := filed.ids.sublist (sub.map Edge.id)
  listed := fun _ mem => filed.listed ((sub.map entry).subset mem)
  known := filed.known
  keys := filed.keys

theorem mem_puts (plain : Plain entries) (more : l.map entry ⊆ entries) (known : index ⊆ entries)
    (keys : (index.map Prod.fst).Nodup) :
    (∀ p, p ∈ l.foldl put index ↔ p ∈ l.map entry ∨ p ∈ index) ∧ ((l.foldl put index).map Prod.fst).Nodup := by
  induction l generalizing index with
  | nil => exact ⟨by simp, keys⟩
  | cons e rest ih =>
    have here : e.entry ∈ entries := more mem_cons_self
    have mem_put (p) : p ∈ put index e ↔ p = e.entry ∨ p ∈ index := by
      simp only [put, mem_cons, mem_filter, decide_eq_true_eq]
      refine or_congr_right' fun other => and_iff_left_of_imp fun mem same => other ?_
      exact Prod.ext same ((plain p (known mem) _ here).mp same)
    obtain ⟨members, nodup⟩ := ih (fun p mem => more (mem_cons_of_mem _ mem))
      (fun p mem => ((mem_put p).mp mem).elim (fun same => same ▸ here) fun old => known old)
      (nodup_cons.mpr ⟨by simp, keys.sublist (filter_sublist.map Prod.fst)⟩)
    refine ⟨fun p => ?_, nodup⟩
    rw [foldl_cons, members, mem_put, map_cons, mem_cons, or_left_comm, or_assoc]

theorem Filed.puts (filed : Filed entries edges index) (plain : Plain entries) (more : l.map entry ⊆ entries) :
    Filed entries edges (l.foldl put index) := by
  obtain ⟨members, keys⟩ := mem_puts plain more filed.known filed.keys
  refine ⟨filed.ids, fun p mem => (members p).mpr (.inr (filed.listed mem)), fun p mem => ?_, keys⟩
  exact ((members p).mp mem).elim (fun new => more new) fun old => filed.known old

theorem edges_upsertEdge (b : Bounds) (r : Ranging) (t : Int) (g : Graph) (e : Edge) :
    ((g.edge? e.named.id).isNone = true ∧ ∃ fewer, fewer.Sublist g.edges ∧
      (g.upsertEdge b r t e).edges = fewer ++ [{ e.named with firstSeen := t, lastSeen := t }]) ∨
    (g.edge? e.named.id).isNone = false ∧ (g.upsertEdge b r t e).edges = g.edges.map (e.named.refresh t) := by
  unfold Graph.upsertEdge Graph.evictOldestEdge
  dsimp only
  split
  · rename_i absent
    refine .inl ⟨absent, _, ?_, rfl⟩
    split
    · split
      · exact refl _
      · exact filter_sublist
    · exact refl _
  · rename_i present
    exact .inr ⟨Bool.not_eq_true _ ▸ present, rfl⟩

theorem Edge.refresh_entry (e : Edge) (t : Int) (cur : Edge) : (e.refresh t cur).entry = cur.entry := by
  unfold refresh
  split <;> rfl

theorem Filed.upsertEdge (filed : Filed entries g.edges index) (plain : Plain entries) (known : e.named.entry ∈ entries) :
    Filed entries (g.upsertEdge b r t e).edges
      (((some e.named).filter fun e => (g.edge? e.id).isNone).toList.foldl put index) := by
  rcases edges_upsertEdge b r t g e with ⟨absent, fewer, sub, after⟩ | ⟨present, after⟩
  · have one : ([e.named]).map entry ⊆ entries := by simpa using known
    obtain ⟨ids, listed, known, keys⟩ := (filed.sublist sub).puts plain one
    have fresh : e.named.id ∉ fewer.map Edge.id := by
      intro mem
      obtain ⟨cur, there, same⟩ := mem_map.mp mem
      have none := find?_eq_none.mp (Option.isNone_iff_eq_none.mp absent) cur (sub.subset there)
      simp [same] at none
    rw [after, Option.filter_some, if_pos absent]
    refine ⟨?_, ?_, known, keys⟩
    · rw [map_append, map_singleton, nodup_middle, append_nil]
      exact nodup_cons.mpr ⟨fresh, ids⟩
    · rw [map_append, append_subset]
      exact ⟨listed, cons_subset.mpr ⟨mem_cons_self, nil_subset _⟩⟩
  · have entry : (g.edges.map (e.named.refresh t)).map entry = g.edges.map entry := by
      simp only [map_map, comp_def, refresh_entry]
    have ids : (g.edges.map (e.named.refresh t)).map Edge.id = g.edges.map Edge.id := by
      simpa [Edge.entry] using congrArg (List.map Prod.snd) entry
    rw [after, Option.filter_some, if_neg (ne_true_of_eq_false present)]
    exact ⟨ids ▸ filed.ids, entry ▸ filed.listed, filed.known, filed.keys⟩

theorem upsertNodeLocked_eq (b : Bounds) (r : Ranging) (t : Int) (g : Graph) (n : Node) :
    ∃ nodes remoteOnly, g.upsertNodeLocked b r t n = { g with nodes := nodes, physicalRemoteOnly := remoteOnly } := by
  unfold Graph.upsertNodeLocked Graph.evictOldestNode
  split
  · split
    · split <;> exact ⟨_, _, rfl⟩
    · exact ⟨_, _, rfl⟩
  · exact ⟨_, _, rfl⟩

theorem adjacency_eq (b : Bounds) (r : Ranging) (t : Int) (g : Graph) (source : PhysicalSource)
    (localNode remoteNode : Node) (e : Edge) : ∃ nodes remoteOnly, g.step b r t (.adjacency source localNode remoteNode e) =
      (Graph.upsertEdge b r t { g with nodes := nodes, physicalRemoteOnly := remoteOnly } e).own e.id source := by
  obtain ⟨_, _, first⟩ := upsertNodeLocked_eq b r t g localNode
  obtain ⟨_, _, second⟩ := upsertNodeLocked_eq b r t (g.upsertNode b r t localNode) remoteNode
  dsimp only [Graph.step]
  rw [second, Graph.upsertNode, first]
  exact ⟨_, _, rfl⟩

theorem Filed.step (filed : Filed entries g.edges index) (plain : Plain entries)
    (known : ∀ e ∈ ev.edge?, e.entry ∈ entries) :
    Filed entries (g.step b r t ev).edges ((ev.edge?.filter fun e => (g.edge? e.id).isNone).toList.foldl put index) := by
  cases ev with
  | node n =>
    obtain ⟨_, _, after⟩ := upsertNodeLocked_eq b r t g n
    rw [Graph.step, Graph.upsertNode, after]
    exact filed
  | edge e => exact filed.upsertEdge plain (known _ rfl)
  | adjacency source localNode remoteNode e =>
    obtain ⟨nodes, remoteOnly, after⟩ := adjacency_eq b r t g source localNode remoteNode e
    rw [after]
    exact .upsertEdge filed plain (known _ rfl)
  | retire source desired => exact filed

theorem edges_deleteEdges (gone : List Edge) : (g.deleteEdges gone).edges.Sublist g.edges := by
  induction gone generalizing g with
  | nil => exact refl _
  | cons e rest ih => exact ih.trans filter_sublist

theorem edges_pruneBefore (g : Graph) (cutoff : Int) : (g.pruneBefore cutoff).1.edges.Sublist g.edges := by
  unfold Graph.pruneBefore
  split
  · exact refl _
  · exact (edges_deleteEdges _).trans (edges_deleteEdges _)

variable {ig : IndexedGraph}

theorem Filed.apply (filed : Filed entries ig.inner.edges ig.index) (plain : Plain entries)
    (known : op.edges.map entry ⊆ entries) : Filed entries (ig.apply b op).inner.edges (ig.apply b op).index := by
  cases op with
  | observe events t r =>
    obtain ⟨g, index⟩ := ig
    dsimp only [apply, Op.edges] at *
    induction events generalizing g index with
    | nil => exact filed
    | cons ev rest ih =>
      rw [Graph.recent, foldl_append]
      rw [filterMap_cons] at known
      refine ih (fun p mem => known ?_) _ _ (filed.step plain fun e mem => known ?_)
      · cases ev.edge? with
        | none => exact mem
        | some e => exact mem_cons_of_mem _ mem
      · rw [Option.mem_def.mp mem]
        exact mem_cons_self
  | prune cutoff claims r =>
    have fewer := filed.sublist (edges_pruneBefore ig.inner cutoff)
    dsimp only [IndexedGraph.apply]
    split
    · exact fewer
    obtain ⟨ids, listed, known, -⟩ := fewer
    have perm := (r.perm (ig.inner.pruneBefore cutoff).1.edges).map entry
    have all : _ ⊆ entries := fun p mem => known (listed (perm.subset mem))
    obtain ⟨members, keys⟩ := mem_puts plain all (nil_subset _) nodup_nil
    exact ⟨ids, fun p mem => (members p).mpr (.inl (perm.symm.subset mem)),
      fun p mem => all (((members p).mp mem).resolve_right not_mem_nil), keys⟩

theorem Filed.valid (filed : Filed entries ig.inner.edges ig.index) (plain : Plain entries) (t : Int) :
    (ig.valid t).Perm ((ig.inner.validEdges t).map entry) := by
  have sub : ((ig.inner.validEdges t).map Edge.id).Sublist (ig.inner.edges.map Edge.id) := filter_sublist.map _
  have nodup : ((ig.inner.validEdges t).map entry).Nodup := by
    refine List.Nodup.of_map Prod.snd ?_
    simpa [comp_def, entry] using filed.ids.sublist sub
  refine (perm_ext_iff_of_nodup ((filed.keys.of_map _).filter _) nodup).mpr fun p => ?_
  rw [mem_filter, mem_map]
  constructor
  · rintro ⟨mem, valid⟩
    obtain ⟨e, found, valid⟩ := (Option.any_eq_true _ _).mp valid
    have there := mem_of_find?_eq_some found
    have same : e.id = p.2 := by simpa using find?_some found
    have ends := (plain _ (filed.known (filed.listed (mem_map_of_mem there))) p (filed.known mem)).mpr same
    exact ⟨e, mem_filter.mpr ⟨there, valid⟩, Prod.ext ends same⟩
  · rintro ⟨e, mem, rfl⟩
    obtain ⟨there, valid⟩ := mem_filter.mp mem
    refine ⟨filed.listed (mem_map_of_mem there), (Option.any_eq_true _ _).mpr ⟨e, ?_, valid⟩⟩
    cases found : ig.inner.edge? e.id with
    | none => exact absurd (beq_self_eq_true e.id) (find?_eq_none.mp found e there)
    | some o =>
      have same : o.id = e.id := by simpa using find?_some found
      exact found.trans (congrArg some (inj_on_of_nodup_map filed.ids (mem_of_find?_eq_some found) there same))

theorem bfsRoute_perm (perm : adj.Perm other) (start goal : Bytes) :
    bfsRoute adj start goal = bfsRoute other start goal := by
  have next : (fun a => sort (neighbors adj a)) = fun a => sort (neighbors other a) :=
    funext fun _ => sort_perm ((perm.filter _).map _)
  have parents : bfsParents adj start = bfsParents other start := by
    rw [bfsParents, bfsParents, next, perm.length_eq]
  rw [bfsRoute, bfsRoute, parents]

theorem sort_dedup {texts others : List Bytes} (same : ∀ x, x ∈ texts ↔ x ∈ others) :
    sort texts.dedup = sort others.dedup := by
  refine sort_perm ((perm_ext_iff_of_nodup texts.nodup_dedup others.nodup_dedup).mpr fun x => ?_)
  rw [mem_dedup, mem_dedup, same]

theorem filed_run (ig : IndexedGraph) {ops : List Op} (plain : Plain entries)
    (known : (ops.flatMap Op.edges).map entry ⊆ entries) (filed : Filed entries ig.inner.edges ig.index) :
    (ops.foldl (apply b) ig).inner = ops.foldl (Graph.apply b) ig.inner ∧
      Filed entries (ops.foldl (apply b) ig).inner.edges (ops.foldl (apply b) ig).index := by
  induction ops generalizing ig with
  | nil => exact ⟨rfl, filed⟩
  | cons op rest ih =>
    rw [flatMap_cons, map_append, append_subset] at known
    have inner : (ig.apply b op).inner = ig.inner.apply b op := by cases op <;> rfl
    rw [foldl_cons, foldl_cons, ← inner]
    exact ih _ known.2 (filed.apply plain known.1)

/-- Both stores answer alike after every sequence of observations and prunes, evictions
included, in which an id and the two ends of an edge determine each other. -/
theorem indexed_refines (b : Bounds) (ops : List Op) (plain : Plain ((ops.flatMap Op.edges).map Edge.entry)) :
    (∀ id t, (ops.foldl (IndexedGraph.apply b) {}).neighbors id t = (ops.foldl (Graph.apply b) {}).neighbors id t) ∧
      ∀ start goal t, (ops.foldl (IndexedGraph.apply b) {}).traverse start goal t =
        (ops.foldl (Graph.apply b) {}).traverse start goal t := by
  have empty : Filed ((ops.flatMap Op.edges).map entry) [] [] :=
    ⟨nodup_nil, nil_subset _, nil_subset _, nodup_nil⟩
  obtain ⟨inner, filed⟩ := filed_run {} plain (fun _ => id) empty
  rw [← inner]
  generalize ops.foldl (apply b) {} = ig at *
  have pairs t : ((ig.valid t).map Prod.fst).Perm ((ig.inner.validEdges t).map (·.entry.1)) := by
    simpa only [map_map, comp_def] using (filed.valid plain t).map Prod.fst
  constructor
  · intro id t
    refine sort_dedup fun x => ?_
    have members {p : Bytes × Bytes} := (pairs t).mem_iff (a := p)
    simp only [mem_append, mem_map, mem_filter, mem_filterMap, decide_eq_true_eq] at members ⊢
    constructor
    · rintro (⟨p, ⟨mem, rfl⟩, rfl⟩ | ⟨p, ⟨mem, rfl⟩, rfl⟩) <;>
        obtain ⟨e, valid, rfl⟩ := members.mp mem <;> refine ⟨e, valid, ?_⟩
      · exact if_pos rfl
      · by_cases loop : e.fromID = e.toID <;> simp [entry, loop]
    · rintro ⟨e, valid, found⟩
      have mem := members.mpr ⟨e, valid, rfl⟩
      split at found
      · exact .inl ⟨_, ⟨mem, ‹_›⟩, Option.some.inj found⟩
      · split at found
        · exact .inr ⟨_, ⟨mem, ‹_›⟩, Option.some.inj found⟩
        · cases found
  · intro start goal t
    unfold IndexedGraph.traverse Graph.traverse
    rw [bfsRoute_perm (pairs t)]

def inTurn : Ranging := ⟨id, fun _ => .refl _⟩

/-- An edge and its two nodes, as the builder observes them. -/
def upsert (ends : NodeKind) (fromID toID : String) (kind : EdgeKind) (t : Int) : Op :=
  .observe [.node ⟨lit fromID, ends, 0, 0⟩, .node ⟨lit toID, ends, 0, 0⟩,
    .edge ⟨[], lit fromID, lit toID, kind, 0, 0⟩] t inTurn

def unbounded : Bounds := ⟨0, 0, 0⟩

def touching : List Op :=
  [upsert .hop "a" "b" .path 1, upsert .hop "b" "c" .path 1, upsert .hop "a" "b" .path 5, .prune 3 0 inTurn]

theorem indexed_refines_touching :
    Plain ((touching.flatMap Op.edges).map Edge.entry) ∧
      (touching.foldl (IndexedGraph.apply unbounded) {}).neighbors (lit "b") 4 =
        (touching.foldl (Graph.apply unbounded) {}).neighbors (lit "b") 4 :=
  have plain : Plain ((touching.flatMap Op.edges).map entry) := by
    unfold Plain
    decide +kernel
  ⟨plain, (indexed_refines unbounded touching plain).1 (lit "b") 4⟩

def parallel : List Op := [upsert .hop "a" "b" .path 1, upsert .hop "a" "b" .device 5]

/-- The first edge is evicted for the second; the third has the id of the first, and other ends. -/
def respelled : List Op :=
  [upsert .service "service:a" "service:a|flow|service:b" .flow 1, upsert .service "service:c" "service:d" .flow 2,
    upsert .service "service:a|flow|service:a" "service:b" .flow 3]

def oneEdge : Bounds := ⟨0, 1, 0⟩

theorem index_answers_apart :
    (parallel.foldl (Graph.apply unbounded) {}).neighbors (lit "a") 1 = [lit "b"] ∧
      (parallel.foldl (IndexedGraph.apply unbounded) {}).neighbors (lit "a") 1 = [] ∧
      (parallel.foldl (Graph.apply unbounded) {}).traverse (lit "a") (lit "b") 1 = some [lit "a", lit "b"] ∧
      (parallel.foldl (IndexedGraph.apply unbounded) {}).traverse (lit "a") (lit "b") 1 = none ∧
      (respelled.foldl (Graph.apply oneEdge) {}).neighbors (lit "service:a") 3 = [] ∧
      (respelled.foldl (IndexedGraph.apply oneEdge) {}).neighbors (lit "service:a") 3 =
        [lit "service:a|flow|service:b"] := by
  decide +kernel

end Probectl.Topology
