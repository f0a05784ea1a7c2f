import Probectl.Topology.WhatIf

/-! The temporal graph of a tenant (`graph.go`) under what builders observe, and the replaced
adjacencies of `physical_snapshot.go`. Times are nanoseconds since the zero time. -/
namespace Probectl.Topology

open Strings

/-- How a range over a map arranges its entries. -/
structure Ranging where
  order {β : Type} : List β → List β
  perm {β : Type} (entries : List β) : (order entries).Perm entries

structure Bounds where
  maxNodes : Int
  maxEdges : Int
  staleness : Int

structure PhysicalSource where
  agent : Bytes
  localAddress : Bytes
  deriving DecidableEq

/-- Two of the maps are kept as their pairs: a source or an edge without members is as
good as an absent one. -/
structure Graph where
  nodes : List Node := []
  edges : List Edge := []
  physicalSources : List (PhysicalSource × Bytes) := []
  physicalOwners : List (Bytes × PhysicalSource) := []
  physicalRetired : List (Bytes × Int) := []
  physicalRemoteOnly : List Bytes := []

def Node.refresh (n : Node) (t : Int) (cur : Node) : Node :=
  if cur.id = n.id then { cur with kind := n.kind, firstSeen := min cur.firstSeen t, lastSeen := max cur.lastSeen t }
  else cur

def Edge.refresh (e : Edge) (t : Int) (cur : Edge) : Edge :=
  if cur.id = e.id then { cur with firstSeen := min cur.firstSeen t, lastSeen := max cur.lastSeen t } else cur

def Edge.named (e : Edge) : Edge := if e.id = [] then { e with id := edgeID e.fromID e.kind e.toID } else e

namespace Graph

def node? (g : Graph) (id : Bytes) : Option Node := g.nodes.find? (·.id == id)

def edge? (g : Graph) (id : Bytes) : Option Edge := g.edges.find? (·.id == id)

def deleteEdge (g : Graph) (id : Bytes) : Graph :=
  { g with
    edges := g.edges.filter (·.id ≠ id)
    physicalRetired := g.physicalRetired.filter (·.1 ≠ id)
    physicalOwners := g.physicalOwners.filter (·.1 ≠ id)
    physicalSources := g.physicalSources.filter (·.2 ≠ id) }

/-- The first one met of those seen least recently; no id is empty. -/
def evictOldestNode (r : Ranging) (g : Graph) : Graph :=
  match (r.order g.nodes).minOn? Node.lastSeen with
  | none => g
  | some n =>
    { g with
      nodes := g.nodes.filter (·.id ≠ n.id)
      physicalRemoteOnly := g.physicalRemoteOnly.filter (· ≠ n.id) }

def evictOldestEdge (r : Ranging) (g : Graph) : Graph :=
  match (r.order g.edges).minOn? Edge.lastSeen with
  | none => g
  | some e => g.deleteEdge e.id

section Upserts

variable (b : Bounds) (r : Ranging) (t : Int) (g : Graph)

def upsertNodeLocked (n : Node) : Graph :=
  if (g.node? n.id).isNone then
    let g := if 0 < b.maxNodes ∧ b.maxNodes ≤ g.nodes.length then g.evictOldestNode r else g
    { g with nodes := g.nodes ++ [{ n with firstSeen := t, lastSeen := t }] }
  else { g with nodes := g.nodes.map (n.refresh t) }

def upsertNode (n : Node) : Graph :=
  let g := g.upsertNodeLocked b r t n
  { g with physicalRemoteOnly := g.physicalRemoteOnly.filter (· ≠ n.id) }

def upsertEdge (e : Edge) : Graph :=
  let e := e.named
  if (g.edge? e.id).isNone then
    let g := if 0 < b.maxEdges ∧ b.maxEdges ≤ g.edges.length then g.evictOldestEdge r else g
    { g with
      edges := g.edges ++ [{ e with firstSeen := t, lastSeen := t }]
      physicalRetired := if e.kind = .physical then g.physicalRetired.filter (·.1 ≠ e.id) else g.physicalRetired }
  else
    { g with
      edges := g.edges.map (e.refresh t)
      physicalRetired :=
        if e.kind = .physical then g.physicalRetired.filter fun p => p.1 ≠ e.id ∨ t < p.2 else g.physicalRetired }

end Upserts

def markRemote (g : Graph) (id : Bytes) (remoteOnly : Bool) : Graph :=
  { g with physicalRemoteOnly := if remoteOnly then id :: g.physicalRemoteOnly else g.physicalRemoteOnly }

def own (g : Graph) (id : Bytes) (source : PhysicalSource) : Graph :=
  { g with
    physicalOwners := (id, source) :: g.physicalOwners
    physicalRetired := g.physicalRetired.filter (·.1 ≠ id) }

def validAt (first last t : Int) : Bool := first ≤ t ∧ t ≤ last

def sortSnapshot (s : Snapshot) : Snapshot :=
  ⟨s.nodes.insertionSort fun a b => less b.id a.id = false, s.edges.insertionSort fun a b => less b.id a.id = false⟩

def leadingEdge (g : Graph) : Int :=
  (g.edges.map Edge.lastSeen).foldl max ((g.nodes.map Node.lastSeen).foldl max 0)

/-- `now` is the clock, which is read where nothing was observed. -/
def stalenessCutoff (b : Bounds) (g : Graph) (now : Int) : Int :=
  if b.staleness ≤ 0 then 0 else (if g.leadingEdge = 0 then now else g.leadingEdge) - b.staleness

def latest (b : Bounds) (g : Graph) (now : Int) : Snapshot :=
  let cutoff := g.stalenessCutoff b now
  let fresh (lastSeen : Int) : Prop := cutoff = 0 ∨ cutoff ≤ lastSeen
  let edges := g.edges.filter fun e =>
    ¬ (e.kind = .physical ∧ e.id ∈ g.physicalRetired.map Prod.fst) ∧ fresh e.lastSeen
  let named := edges.flatMap fun e => [e.fromID, e.toID]
  sortSnapshot ⟨g.nodes.filter fun n => fresh n.lastSeen ∧ (n.id ∈ g.physicalRemoteOnly → n.id ∈ named), edges⟩

def deleteEdges (g : Graph) (gone : List Edge) : Graph := gone.foldl (fun g e => g.deleteEdge e.id) g

def pruneBefore (g : Graph) (cutoff : Int) : Graph × Nat :=
  if cutoff = 0 then (g, 0)
  else
    let old := g.edges.filter (·.lastSeen < cutoff)
    let gone := g.nodes.filter (·.lastSeen < cutoff)
    let g := g.deleteEdges old
    let g := { g with
      nodes := g.nodes.filter (cutoff ≤ ·.lastSeen)
      physicalRemoteOnly := g.physicalRemoteOnly.filter (· ∉ gone.map Node.id) }
    let dangling := g.edges.filter fun e => (g.node? e.fromID).isNone ∨ (g.node? e.toID).isNone
    (g.deleteEdges dangling, old.length + gone.length + dangling.length)

end Graph

/-- What a builder does to the graph. `adjacency` is a round over the desired elements of
a snapshot, `retire` what comes behind them. -/
inductive Event where
  | node (n : Node)
  | edge (e : Edge)
  | adjacency (source : PhysicalSource) (localNode remoteNode : Node) (e : Edge)
  | retire (source : PhysicalSource) (desired : List Bytes)

def Graph.step (b : Bounds) (r : Ranging) (t : Int) (g : Graph) : Event → Graph
  | .node n => g.upsertNode b r t n
  | .edge e => g.upsertEdge b r t e
  | .adjacency source localNode remoteNode e =>
    let remoteOnly : Bool := (g.node? remoteNode.id).isNone ∨ remoteNode.id ∈ g.physicalRemoteOnly
    let g := (g.upsertNode b r t localNode).upsertNodeLocked b r t remoteNode
    ((g.markRemote remoteNode.id remoteOnly).upsertEdge b r t e).own e.id source
  | .retire source desired =>
    -- `previous.edgeIDs` is the map itself, so what the rounds have evicted is gone from it
    let dropped := (g.physicalSources.filter fun p => p.1 = source ∧ p.2 ∉ desired).map Prod.snd
    let owners := g.physicalOwners.filter fun p => ¬ (p.2 = source ∧ p.1 ∈ dropped)
    let retired := dropped.filter (· ∉ owners.map Prod.fst)
    { g with
      physicalOwners := owners
      physicalRetired := retired.map (·, t) ++ g.physicalRetired.filter (·.1 ∉ retired)
      physicalSources := desired.map (source, ·) ++ g.physicalSources.filter (·.1 ≠ source) }

def deviceID (addr : Bytes) : Bytes := lit "device:" ++ addr

structure PhysicalAdjacencyInput where
  localAddress : Bytes
  remoteAddress : Bytes
  remoteIdentity : Bytes
  protocol : Bytes

structure PhysicalAdjacencySnapshot where
  sourceAgent : Bytes
  localAddress : Bytes
  adjacencies : List PhysicalAdjacencyInput

def physicalAdjacencyElements (p : PhysicalAdjacencyInput) : Option (Node × Node × Edge) :=
  if p.localAddress = [] ∨ (p.remoteAddress = [] ∧ p.remoteIdentity = []) then none
  else
    let here := deviceID p.localAddress
    let there :=
      deviceID (if p.remoteAddress = [] then p.protocol ++ lit ":" ++ p.remoteIdentity else p.remoteAddress)
    some ({ id := here, kind := .device }, { id := there, kind := .device },
      { id := edgeID here .physical there, fromID := here, toID := there, kind := .physical })

def PhysicalAdjacencySnapshot.source (s : PhysicalAdjacencySnapshot) : PhysicalSource := ⟨s.sourceAgent, s.localAddress⟩

def PhysicalAdjacencySnapshot.desired (s : PhysicalAdjacencySnapshot) : List (Node × Node × Edge) :=
  lastByKey (·.2.2.id)
    (s.adjacencies.filterMap fun a => physicalAdjacencyElements { a with localAddress := s.localAddress })

def replacePhysicalAdjacencies (r : Ranging) (s : PhysicalAdjacencySnapshot) (t : Int) : List Event :=
  if s.sourceAgent = [] ∨ s.localAddress = [] ∨ t = 0 then []
  else
    (r.order s.desired).map (fun el => .adjacency s.source el.1 el.2.1 el.2.2) ++
      [.retire s.source (s.desired.map fun el => el.2.2.id)]

end Probectl.Topology
