import Probectl.Lib.Reach
import Probectl.Lib.Strings

/-! The what-if simulation of a failed node or edge: `whatif.go` of
`internal/topology`, on a snapshot of the graph of `model.go`. -/
namespace Probectl.Topology

open Strings Reach

inductive NodeKind where
  | agent | hop | host | service | pfx | autonomousSystem | device
  deriving DecidableEq

inductive EdgeKind where
  | path | flow | routing | device | physical
  deriving DecidableEq

def EdgeKind.name : EdgeKind → Bytes
  | .path => lit "path"
  | .flow => lit "flow"
  | .routing => lit "routing"
  | .device => lit "device"
  | .physical => lit "physical"

structure Node where
  id : Bytes
  kind : NodeKind
  firstSeen : Int := 0
  lastSeen : Int := 0
  deriving DecidableEq

structure Edge where
  id : Bytes
  fromID : Bytes
  toID : Bytes
  kind : EdgeKind
  firstSeen : Int := 0
  lastSeen : Int := 0
  deriving DecidableEq

structure Snapshot where
  nodes : List Node
  edges : List Edge
  deriving DecidableEq

def edgeID (fromID : Bytes) (kind : EdgeKind) (toID : Bytes) : Bytes :=
  fromID ++ lit "|" ++ kind.name ++ lit "|" ++ toID

section Graph

/-- A map filled from a list: the last entry of a key stays. -/
def lastByKey {β : Type} (key : β → Bytes) (entries : List β) : List β :=
  entries.foldl (fun kept e => kept.filter (fun k => key k ≠ key e) ++ [e]) []

structure SimGraph where
  nodes : List Node
  edges : List Edge

def newSimGraph (s : Snapshot) : SimGraph := ⟨lastByKey Node.id s.nodes, lastByKey Edge.id s.edges⟩

abbrev Adjacency := List (Bytes × Bytes)

namespace SimGraph

def node? (g : SimGraph) (id : Bytes) : Option Node := g.nodes.find? (·.id == id)

def edge? (g : SimGraph) (id : Bytes) : Option Edge := g.edges.find? (·.id == id)

def nodesOfKind (g : SimGraph) (k : NodeKind) : List Node :=
  (g.nodes.filter (·.kind == k)).insertionSort fun a b => less b.id a.id = false

/-- `none` takes the edges of every kind. -/
def adjacency (g : SimGraph) (kind : Option EdgeKind) (rev : Bool) (failed : Bytes) : Adjacency :=
  let kept := g.edges.filter fun e =>
    kind.all (· == e.kind) && !(e.id == failed || e.fromID == failed || e.toID == failed)
  (kept.map fun e => if rev then (e.toID, e.fromID) else (e.fromID, e.toID)).dedup

end SimGraph

def neighbors (adj : Adjacency) (a : Bytes) : List Bytes := (adj.filter (·.1 == a)).map Prod.snd

def undirect (adj : Adjacency) : Adjacency := (adj.flatMap fun p => [p, (p.2, p.1)]).dedup

def size (adj : Adjacency) : Nat := (adj.map Prod.fst).dedup.length

def reachableFrom (adj : Adjacency) (start : Bytes) : List Bytes :=
  seen (parents (neighbors adj) (adj.length + 1) start)

def bfsParents (adj : Adjacency) (start : Bytes) : List (Bytes × Bytes) :=
  parents (fun a => sort (neighbors adj a)) (adj.length + 1) start

/-- From the goal back to the start; each step finds a node that was entered earlier. -/
def climb (parent : List (Bytes × Bytes)) (start : Bytes) : (fuel : Nat) → Bytes → List Bytes
  | 0, cur => [cur]
  | fuel + 1, cur =>
    if cur = start then [cur] else cur :: climb parent start fuel ((parent.lookup cur).getD [])

def rebuild (parent : List (Bytes × Bytes)) (start goal : Bytes) : List Bytes :=
  (climb parent start parent.length goal).reverse

def routesFrom (adj : Adjacency) (start : Bytes) (g : SimGraph) (want : NodeKind) : List (Bytes × List Bytes) :=
  let parent := bfsParents adj start
  (seen parent).filterMap fun id =>
    match g.node? id with
    | some n => if n.kind = want ∧ id ≠ start then some (id, rebuild parent start id) else none
    | none => none

def bfsRoute (adj : Adjacency) (start goal : Bytes) : Option (List Bytes) :=
  let parent := bfsParents adj start
  if goal ∈ seen parent then some (rebuild parent start goal) else none

def routeUses (failed : Bytes) : List Bytes → Bool
  | [] => false
  | [n] => n == failed
  | n :: m :: rest => n == failed || edgeID n .path m == failed || routeUses failed (m :: rest)

end Graph

section Metering

structure Budget where
  maxAgents : Int
  maxVisits : Int
  deadline : Int
  deriving DecidableEq

/-- Two thousand agents, two million visits, five seconds in nanoseconds. -/
def defaultBudget : Budget := ⟨2000, 2000000, 5000000000⟩

def Budget.normalized (b : Budget) : Budget :=
  { b with
    maxAgents := if b.maxAgents ≤ 0 then defaultBudget.maxAgents else b.maxAgents
    maxVisits := if b.maxVisits ≤ 0 then defaultBudget.maxVisits else b.maxVisits }

inductive Bound where
  | agents | visits | wallClock
  deriving DecidableEq

/-- `readings` counts the looks at the clock. -/
structure SimMeter where
  visits : Int := 0
  readings : Nat := 0
  exhausted : Option Bound := none
  deriving DecidableEq

namespace SimMeter

def ok (m : SimMeter) : Bool := m.exhausted.isNone

/-- `elapsed` is the time since the start at each look at the clock. The source's
method also returns whether the meter it leaves is `ok`. -/
def spend (b : Budget) (elapsed : Nat → Int) (n : Nat) (m : SimMeter) : SimMeter :=
  if !m.ok then m
  else
    let m := { m with visits := m.visits + n }
    if m.visits > b.maxVisits then { m with exhausted := some .visits }
    else if b.deadline > 0 ∧ elapsed m.readings > b.deadline then
      { m with readings := m.readings + 1, exhausted := some .wallClock }
    else { m with readings := m.readings + 1 }

end SimMeter

end Metering

inductive PathStatus where
  | broken | rerouted
  deriving DecidableEq

structure PathImpact where
  fromID : Bytes
  toID : Bytes
  status : PathStatus
  route : List Bytes
  altRoute : List Bytes := []
  deriving DecidableEq

structure TestImpact where
  agentID : Bytes
  target : Bytes
  status : PathStatus
  deriving DecidableEq

/-- `targetKind` is `none` for an edge. -/
structure Impact where
  target : Bytes
  targetKind : Option NodeKind
  brokenPaths : List PathImpact
  reroutedPaths : List PathImpact
  impactedTests : List TestImpact
  impactedServices : List Bytes
  impactedPrefixes : List Bytes
  disconnected : List Bytes
  exhausted : Option Bound
  deriving DecidableEq

def Impact.isPartial (imp : Impact) : Bool := imp.exhausted.isSome

inductive SimError where
  | noGraph
  | unknownTarget (target : Bytes)
  deriving DecidableEq

def sortPathImpacts (ps : List PathImpact) : List PathImpact :=
  ps.insertionSort fun a b =>
    (if a.fromID ≠ b.fromID then less b.fromID a.fromID else less b.toID a.toID) = false

section Simulate

variable (g : SimGraph) (target : Bytes) (b : Budget) (elapsed : Nat → Int)

def agentPaths (before after : Adjacency) (agent : Bytes) : List PathImpact :=
  if agent = target then
    (routesFrom before agent g .host).map fun r => ⟨agent, r.1, .broken, r.2, []⟩
  else
    (routesFrom before agent g .host).filterMap fun r =>
      if !routeUses target r.2 then none
      else
        match bfsRoute after agent r.1 with
        | some alt => some ⟨agent, r.1, .rerouted, r.2, alt⟩
        | none => some ⟨agent, r.1, .broken, r.2, []⟩

def pathLoop (before after : Adjacency) : List Node → SimMeter → SimMeter × List PathImpact
  | [], m => (m, [])
  | agent :: rest, m =>
    let m := m.spend b elapsed 1
    if !m.ok then (m, [])
    else
      let later := pathLoop before after rest m
      (later.1, agentPaths g target before after agent.id ++ later.2)

def reachLoop (before after : Adjacency) : List Node → SimMeter → SimMeter × List Bytes × List Bytes
  | [], m => (m, [], [])
  | agent :: rest, m =>
    if agent.id = target then reachLoop before after rest m
    else
      let m := m.spend b elapsed (size before)
      if !m.ok then (m, [], [])
      else
        let later := reachLoop before after rest m
        (later.1, reachableFrom before agent.id ++ later.2.1, reachableFrom after agent.id ++ later.2.2)

def impactedServices (kind : Option NodeKind) : List Bytes :=
  if kind = some .service ∨ kind = some .host then
    let callers := (reachableFrom (g.adjacency (some .flow) true []) target).filter (· ≠ target)
    sort (callers ++ if kind = some .service then [target] else [])
  else []

def impactedPrefixes (kind : Option NodeKind) : List Bytes :=
  match kind with
  | some .autonomousSystem => sort (neighbors (g.adjacency (some .routing) false []) target)
  | some .pfx => [target]
  | _ => []

end Simulate

/-- `snap` is `none` when the store has no graph for the tenant. -/
def simulateWithBudget (snap : Option Snapshot) (target : Bytes) (elapsed : Nat → Int) (budget : Budget) :
    Except SimError Impact :=
  let b := budget.normalized
  match snap with
  | none => .error .noGraph
  | some snap =>
    let g := newSimGraph snap
    if (g.node? target).isNone && (g.edge? target).isNone then .error (.unknownTarget target)
    else
      let kind := (g.node? target).map Node.kind
      let agents := g.nodesOfKind .agent
      let tooMany := (agents.length : Int) > b.maxAgents
      let agents := if tooMany then agents.take b.maxAgents.toNat else agents
      let m : SimMeter := if tooMany then { exhausted := some .agents } else {}
      let paths := pathLoop g target b elapsed (g.adjacency (some .path) false [])
        (g.adjacency (some .path) false target) agents m
      let broken := sortPathImpacts (paths.2.filter (·.status == .broken))
      let rerouted := sortPathImpacts (paths.2.filter (·.status == .rerouted))
      let reach := reachLoop target b elapsed (undirect (g.adjacency none false []))
        (undirect (g.adjacency none false target)) agents paths.1
      .ok {
        target := target
        targetKind := kind
        brokenPaths := broken
        reroutedPaths := rerouted
        impactedTests := (broken ++ rerouted).map fun p => ⟨p.fromID, p.toID, p.status⟩
        impactedServices := impactedServices g target kind
        impactedPrefixes := impactedPrefixes g target kind
        disconnected := sort (reach.2.1.dedup.filter fun n => n ∉ reach.2.2 ∧ n ≠ target)
        exhausted := reach.1.exhausted }

def simulate (snap : Option Snapshot) (target : Bytes) (elapsed : Nat → Int) : Except SimError Impact :=
  simulateWithBudget snap target elapsed defaultBudget

end Probectl.Topology
