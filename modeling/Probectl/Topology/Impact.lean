import Probectl.Topology.WhatIf

/-! What a failure does to the graph, and that the simulation finds all of it
when no bound of its budget is reached. -/
namespace Probectl.Topology

open Strings Reach List Relation SimMeter Nat SimGraph

section Adjacency

/-- An edge of the kind that the failure leaves. Adjacencies are built with the
empty id for no failure, so an edge without an id or an end is in none. -/
def Joined (g : SimGraph) (kind : Option EdgeKind) (failed a b : Bytes) : Prop :=
  ∃ e ∈ g.edges, (∀ k, kind = some k → e.kind = k) ∧ e.id ≠ failed ∧ e.fromID = a ∧ a ≠ failed ∧ e.toID = b ∧ b ≠ failed

theorem mem_adjacency (g : SimGraph) (kind : Option EdgeKind) (failed a b : Bytes) :
    (a, b) ∈ g.adjacency kind false failed ↔ Joined g kind failed a b := by
  simp only [adjacency, mem_dedup, mem_map, Joined]
  cases kind with
  | none => simp; grind
  | some k => simp; grind

theorem mem_adjacency_rev (g : SimGraph) (kind : Option EdgeKind) (failed a b : Bytes) :
    (a, b) ∈ g.adjacency kind true failed ↔ Joined g kind failed b a := by
  rw [← mem_adjacency]
  simp only [adjacency, mem_dedup, mem_map]
  simp [and_comm]

theorem mem_undirect (adj : Adjacency) (a b : Bytes) : (a, b) ∈ undirect adj ↔ (a, b) ∈ adj ∨ (b, a) ∈ adj := by
  simp only [undirect, mem_dedup, mem_flatMap, mem_cons, not_mem_nil, or_false, Prod.mk.injEq]
  constructor
  · rintro ⟨p, mem, rfl | ⟨rfl, rfl⟩⟩
    · exact .inl mem
    · exact .inr mem
  · rintro (mem | mem)
    · exact ⟨_, mem, .inl rfl⟩
    · exact ⟨_, mem, .inr ⟨rfl, rfl⟩⟩

theorem mem_neighbors (adj : Adjacency) (a b : Bytes) : b ∈ neighbors adj a ↔ (a, b) ∈ adj := by
  simp [neighbors]

variable {adj : Adjacency}

theorem neighbors_nodup (distinct : adj.Nodup) (a : Bytes) : (neighbors adj a).Nodup := by
  apply (distinct.filter _).map_on
  intro p first q second same
  have from_p := (mem_filter.mp first).2
  have from_q := (mem_filter.mp second).2
  simp only [beq_iff_eq] at from_p from_q
  exact Prod.ext (from_p.trans from_q.symm) same

theorem adjacency_nodup (g : SimGraph) (kind : Option EdgeKind) (rev : Bool) (failed : Bytes) :
    (g.adjacency kind rev failed).Nodup := nodup_dedup _

theorem undirect_nodup (adj : Adjacency) : (undirect adj).Nodup := nodup_dedup _

theorem reachableFrom_frontier (distinct : adj.Nodup) (start : Bytes) :
    Frontier (neighbors adj) start (parents (neighbors adj) (adj.length + 1) start) [] := by
  have within : ∀ a b, b ∈ neighbors adj a → b ∈ adj.map Prod.snd := by
    intro a b mem
    exact mem_map.mpr ⟨_, (mem_neighbors adj a b).mp mem, rfl⟩
  apply parents_frontier (neighbors_nodup distinct) within
  rw [length_map]

theorem mem_reachableFrom (distinct : adj.Nodup)
    (lists : ∀ a b, (a, b) ∈ adj ↔ related a b) (start a : Bytes) :
    a ∈ reachableFrom adj start ↔ ReflTransGen related start a := by
  have same : (fun a b => b ∈ neighbors adj a) = related := by
    funext a b
    rw [mem_neighbors, lists]
  rw [reachableFrom, (reachableFrom_frontier distinct start).seen_iff a, Reaches, same]

theorem reachableFrom_nodup (distinct : adj.Nodup) (start : Bytes) :
    (reachableFrom adj start).Nodup := (reachableFrom_frontier distinct start).nodup

end Adjacency

variable (n cost k : Nat) (l : List Node)

section Metering

variable {b : Budget} {elapsed : Nat → Int} {m : SimMeter}

theorem spend_exhausted (spent : m.ok = false) : m.spend b elapsed n = m := by
  simp [spend, spent]

def Timely (b : Budget) (elapsed : Nat → Int) (reading : Nat) : Prop := b.deadline > 0 → elapsed reading ≤ b.deadline

theorem spend_ok (m : SimMeter) : (m.spend b elapsed n).ok = true ↔
    m.ok = true ∧ m.visits + n ≤ b.maxVisits ∧ Timely b elapsed m.readings := by
  unfold spend Timely
  dsimp only
  split
  · simp_all
  rename_i live
  split
  · simp only [ok, Option.isNone_some, Bool.false_eq_true, false_iff]
    omega
  split
  · simp only [ok, Option.isNone_some, Bool.false_eq_true, false_iff]
    omega
  simp only [ok] at live ⊢
  simp only [Bool.not_eq_true'] at live
  simp only [live, true_and, true_iff]
  omega

theorem spend_counts {n : Nat} (live : (m.spend b elapsed n).ok = true) :
    (m.spend b elapsed n).visits = m.visits + n ∧ (m.spend b elapsed n).readings = m.readings + 1 := by
  obtain ⟨before, room, timely⟩ := (spend_ok n m).mp live
  unfold Timely at timely
  simp only [spend, before, Bool.not_true, Bool.false_eq_true, if_false]
  rw [if_neg (by omega), if_neg (by omega)]
  exact ⟨rfl, rfl⟩

def charge (b : Budget) (elapsed : Nat → Int) (cost : Nat) : Nat → SimMeter → SimMeter
  | 0, m => m
  | k + 1, m => charge b elapsed cost k (m.spend b elapsed cost)

theorem charge_exhausted (spent : m.ok = false) : charge b elapsed cost k m = m := by
  induction k with
  | zero => rfl
  | succ k ih => rw [charge, spend_exhausted cost spent, ih]

theorem charge_ok (room : m.visits ≤ b.maxVisits) :
    (charge b elapsed cost k m).ok = true ↔ m.ok = true ∧ m.visits + (k * cost : Nat) ≤ b.maxVisits ∧
      ∀ i < k, Timely b elapsed (m.readings + i) := by
  induction k generalizing m with
  | zero => simp [charge, room]
  | succ k ih =>
    rw [charge, succ_mul]
    by_cases live : (m.spend b elapsed cost).ok = true
    · obtain ⟨before, visits, timely⟩ := (spend_ok cost m).mp live
      obtain ⟨counted, looked⟩ := spend_counts live
      rw [ih (counted ▸ visits), counted, looked]
      have clock : (∀ i < k + 1, Timely b elapsed (m.readings + i)) ↔
          ∀ i < k, Timely b elapsed (m.readings + 1 + i) := by
        constructor
        · intro all i below
          have later := all (i + 1) (by omega)
          rwa [add_comm i, ← add_assoc] at later
        · intro all i below
          cases i with
          | zero => exact timely
          | succ i =>
            have later := all i (by omega)
            rwa [add_assoc, add_comm 1] at later
      rw [clock]
      simp only [live, before]
      push_cast
      rw [add_assoc, add_comm (cost : Int)]
    · have spent : (m.spend b elapsed cost).ok = false := by simpa using live
      rw [charge_exhausted cost k spent]
      simp only [spent, Bool.false_eq_true, false_iff]
      rintro ⟨before, visits, timely⟩
      apply live
      rw [spend_ok]
      exact ⟨before, by omega, timely 0 (by omega)⟩

theorem charge_counts (live : (charge b elapsed cost k m).ok = true) :
    (charge b elapsed cost k m).visits = m.visits + (k * cost : Nat) ∧
      (charge b elapsed cost k m).readings = m.readings + k := by
  induction k generalizing m with
  | zero => simp [charge]
  | succ k ih =>
    rw [charge] at live ⊢
    have first : (m.spend b elapsed cost).ok = true := by
      by_contra spent
      rw [charge_exhausted cost k (by simpa using spent)] at live
      exact spent live
    obtain ⟨visits, readings⟩ := ih live
    obtain ⟨counted, looked⟩ := spend_counts first
    rw [readings, succ_mul]
    constructor <;> omega

end Metering

section Loops

variable {g : SimGraph} {target : Bytes} {b : Budget} {elapsed : Nat → Int} {before after : Adjacency}

theorem pathLoop_meter (agents : List Node) (m : SimMeter) :
    (pathLoop g target b elapsed before after agents m).1 = charge b elapsed 1 agents.length m := by
  induction agents generalizing m with
  | nil => rfl
  | cons agent rest ih =>
    simp only [pathLoop, length_cons, charge]
    split
    · rename_i stopped
      rw [charge_exhausted 1 rest.length (by simpa using stopped)]
    · exact ih _

def survivors (target : Bytes) (agents : List Node) : List Node := agents.filter (·.id ≠ target)

theorem reachLoop_meter (agents : List Node) (m : SimMeter) :
    (reachLoop target b elapsed before after agents m).1 =
      charge b elapsed (size before) (survivors target agents).length m := by
  induction agents generalizing m with
  | nil => rfl
  | cons agent rest ih =>
    unfold reachLoop
    by_cases failed : agent.id = target
    · rw [if_pos failed, ih]
      simp [survivors, failed]
    rw [if_neg failed]
    have kept : survivors target (agent :: rest) = agent :: survivors target rest := by simp [survivors, failed]
    rw [kept]
    simp only [length_cons, charge]
    split
    · rename_i stopped
      rw [charge_exhausted _ _ (by simpa using stopped)]
    · exact ih _

def paid (b : Budget) (elapsed : Nat → Int) (cost : Nat) : List Node → SimMeter → List Node
  | [], _ => []
  | agent :: rest, m =>
    let m := m.spend b elapsed cost
    if !m.ok then [] else agent :: paid b elapsed cost rest m

variable {m : SimMeter}

theorem paid_take {cost k : Nat} {l : List Node} (live : (charge b elapsed cost k m).ok = true) :
    l.take k ⊆ paid b elapsed cost l m := by
  induction l generalizing k m with
  | nil => simp
  | cons agent rest ih =>
    cases k with
    | zero => simp
    | succ k =>
      have going : (m.spend b elapsed cost).ok = true := by
        by_contra stopped
        rw [charge, charge_exhausted cost k (by simpa using stopped)] at live
        exact stopped live
      rw [paid, going]
      exact cons_subset_cons _ (ih live)

theorem mem_paid {cost : Nat} {l : List Node} (agent : Node) : agent ∈ paid b elapsed cost l m ↔
    ∃ i, l[i]? = some agent ∧ (charge b elapsed cost (i + 1) m).ok = true := by
  induction l generalizing m with
  | nil => simp [paid]
  | cons first rest ih =>
    rw [paid]
    by_cases going : (m.spend b elapsed cost).ok = true
    · simp only [going, Bool.not_true, Bool.false_eq_true, if_false, mem_cons, ih]
      constructor
      · rintro (rfl | ⟨i, listed, live⟩)
        · exact ⟨0, rfl, going⟩
        · exact ⟨i + 1, listed, live⟩
      · rintro ⟨i, listed, live⟩
        cases i with
        | zero => exact .inl (Option.some.inj listed).symm
        | succ i => exact .inr ⟨i, listed, live⟩
    · have stopped : (m.spend b elapsed cost).ok = false := by simpa using going
      simp [stopped, charge, charge_exhausted]

theorem paid_subset (m : SimMeter) : paid b elapsed cost l m ⊆ l := by
  induction l generalizing m with
  | nil => exact nil_subset _
  | cons agent rest ih =>
    rw [paid]
    split
    · exact nil_subset _
    · exact cons_subset_cons _ (ih _)

theorem paid_exhausted (spent : m.ok = false) : paid b elapsed cost l m = [] := by
  cases l with
  | nil => rfl
  | cons agent rest => simp [paid, spend_exhausted, spent]

theorem pathLoop_lists (agents : List Node) (m : SimMeter) :
    (pathLoop g target b elapsed before after agents m).2 =
      (paid b elapsed 1 agents m).flatMap fun agent => agentPaths g target before after agent.id := by
  induction agents generalizing m with
  | nil => rfl
  | cons agent rest ih =>
    rw [pathLoop, paid]
    split
    · rfl
    · rw [flatMap_cons, ← ih]

theorem reachLoop_lists (agents : List Node) (m : SimMeter) :
    (reachLoop target b elapsed before after agents m).2 =
      ((paid b elapsed (size before) (survivors target agents) m).flatMap fun agent => reachableFrom before agent.id,
        (paid b elapsed (size before) (survivors target agents) m).flatMap fun agent => reachableFrom after agent.id) := by
  induction agents generalizing m with
  | nil => rfl
  | cons agent rest ih =>
    unfold reachLoop
    by_cases failed : agent.id = target
    · rw [if_pos failed, ih]
      simp [survivors, failed]
    have kept : survivors target (agent :: rest) = agent :: survivors target rest := by simp [survivors, failed]
    rw [if_neg failed, kept, paid]
    dsimp only
    split
    · rfl
    · rw [flatMap_cons, flatMap_cons, ih]

end Loops

section Specification

variable (g : SimGraph) (target : Bytes)

def targetKind : Option NodeKind := (g.node? target).map Node.kind

/-- A service that calls the failed service or host, directly or over others, or
the failed service itself. -/
def ServiceLost (n : Bytes) : Prop :=
  (targetKind g target = some .service ∨ targetKind g target = some .host) ∧
    (n ≠ target ∧ ReflTransGen (Joined g (some .flow) []) n target ∨
      targetKind g target = some .service ∧ n = target)

/-- A prefix that the failed AS originates, or the failed prefix itself. -/
def PrefixLost (n : Bytes) : Prop :=
  targetKind g target = some .autonomousSystem ∧ Joined g (some .routing) [] target n ∨
    targetKind g target = some .pfx ∧ n = target

def Linked (failed a b : Bytes) : Prop := Joined g none failed a b ∨ Joined g none failed b a

/-- The agent is connected to the node over the edges that the failure leaves. -/
def Sees (failed : Bytes) (agent : Node) (n : Bytes) : Prop := ReflTransGen (Linked g failed) agent.id n

def Agent (agent : Node) : Prop := agent ∈ g.nodes ∧ agent.kind = .agent ∧ agent.id ≠ target

/-- Some surviving agent saw the node before the failure and none sees it after. -/
def Disconnected (n : Bytes) : Prop :=
  n ≠ target ∧ (∃ agent, Agent g target agent ∧ Sees g [] agent n) ∧
    ∀ agent, Agent g target agent → ¬ Sees g target agent n

noncomputable def radius : Nat :=
  {n | ServiceLost g target n}.ncard + {n | PrefixLost g target n}.ncard + {n | Disconnected g target n}.ncard

def agents : List Node := g.nodesOfKind .agent

/-- No bound of the budget stops the simulation: neither the number of agents,
nor the visits that two rounds over them cost, nor the clock at any look. -/
structure WithinBudget (b : Budget) (elapsed : Nat → Int) : Prop where
  fleet : ((agents g).length : Int) ≤ b.maxAgents
  visits : (((agents g).length + (survivors target (agents g)).length *
    size (undirect (g.adjacency none false [])) : Nat) : Int) ≤ b.maxVisits
  clock : ∀ i < (agents g).length + (survivors target (agents g)).length, Timely b elapsed i

variable {g target}

theorem mem_survivors (agent : Node) : agent ∈ survivors target (agents g) ↔ Agent g target agent := by
  simp [survivors, agents, nodesOfKind, Agent, and_assoc]

variable {found : List Bytes}

theorem ncard_listed {P : Bytes → Prop} (nodup : found.Nodup) (exactly : ∀ n, n ∈ found ↔ P n) :
    {n | P n}.ncard = found.length := by
  have listed : {n | P n} = found.toFinset := by
    simp [exactly]
  rw [listed, Set.ncard_coe_finset, toFinset_card_of_nodup nodup]

theorem mem_sort (l : List Bytes) (n : Bytes) : n ∈ sort l ↔ n ∈ l := mem_insertionSort _

theorem nodup_sort (l : List Bytes) : (sort l).Nodup ↔ l.Nodup := (perm_insertionSort _ l).nodup_iff

theorem impactedServices_spec : (impactedServices g target (targetKind g target)).Nodup ∧
    ∀ n, n ∈ impactedServices g target (targetKind g target) ↔ ServiceLost g target n := by
  have distinct := adjacency_nodup g (some .flow) true []
  have callers : ∀ n, n ∈ (reachableFrom (g.adjacency (some .flow) true []) target).filter (· ≠ target) ↔
      n ≠ target ∧ ReflTransGen (Joined g (some .flow) []) n target := by
    intro n
    rw [mem_filter, mem_reachableFrom distinct (mem_adjacency_rev g (some .flow) []),
      ← reflTransGen_swap]
    simp [and_comm]
  unfold impactedServices
  split
  case isTrue served =>
    constructor
    · rw [nodup_sort, nodup_append]
      refine ⟨(reachableFrom_nodup distinct target).filter _, by split <;> simp, ?_⟩
      intro n caller m own same
      have other := ((callers n).mp caller).1
      split at own
      · exact other (same.trans (mem_singleton.mp own))
      · cases own
    · intro n
      rw [mem_sort, mem_append, callers, ServiceLost]
      simp only [served]
      by_cases service : targetKind g target = some .service <;> simp
  case isFalse unserved =>
    simp [ServiceLost, unserved]

theorem impactedPrefixes_spec : (impactedPrefixes g target (targetKind g target)).Nodup ∧
    ∀ n, n ∈ impactedPrefixes g target (targetKind g target) ↔ PrefixLost g target n := by
  unfold impactedPrefixes PrefixLost
  split
  case h_1 origin =>
    rw [nodup_sort]
    refine ⟨neighbors_nodup (adjacency_nodup _ _ _ _) target, fun n => ?_⟩
    rw [mem_sort, mem_neighbors, mem_adjacency]
    simp [origin]
  case h_2 own => simp [own]
  case h_3 => simp_all

def Lost (g : SimGraph) (target : Bytes) (expanded : List Node) (n : Bytes) : Prop :=
  n ≠ target ∧ (∃ agent ∈ expanded, Sees g [] agent n) ∧ ∀ agent ∈ expanded, ¬ Sees g target agent n

theorem disconnected_spec (expanded : List Node) (listed : found = sort ((expanded.flatMap fun agent =>
        reachableFrom (undirect (g.adjacency none false [])) agent.id).dedup.filter fun n =>
      n ∉ (expanded.flatMap fun agent =>
        reachableFrom (undirect (g.adjacency none false target)) agent.id) ∧ n ≠ target)) :
    found.Nodup ∧ ∀ n, n ∈ found ↔ Lost g target expanded n := by
  have links : ∀ failed a c, (a, c) ∈ undirect (g.adjacency none false failed) ↔ Linked g failed a c := by
    intro failed a c
    rw [mem_undirect, mem_adjacency, mem_adjacency, Linked]
  have sees : ∀ failed n, n ∈ (expanded.flatMap fun agent =>
      reachableFrom (undirect (g.adjacency none false failed)) agent.id) ↔ ∃ agent ∈ expanded, Sees g failed agent n := by
    intro failed n
    simp only [mem_flatMap, mem_reachableFrom (undirect_nodup _) (links failed), Sees]
  rw [listed]
  constructor
  · rw [nodup_sort]
    exact (nodup_dedup _).filter _
  intro n
  rw [mem_sort, mem_filter, mem_dedup, decide_eq_true_eq]
  simp only [sees, not_exists, not_and]
  constructor
  · rintro ⟨seen, unseen, other⟩
    exact ⟨other, seen, unseen⟩
  · rintro ⟨other, seen, unseen⟩
    exact ⟨seen, unseen, other⟩

end Specification

section Simulation

variable {snap : Option Snapshot} {target : Bytes} {elapsed : Nat → Int} {budget : Budget} {imp : Impact} {b : Budget}

theorem rounds_ok (room : 0 ≤ b.maxVisits) (k l cost : Nat) :
    (charge b elapsed cost l (charge b elapsed 1 k {})).ok = true ↔
      ((k + l * cost : Nat) : Int) ≤ b.maxVisits ∧ ∀ i < k + l, Timely b elapsed i := by
  by_cases first : (charge b elapsed 1 k {}).ok = true
  · obtain ⟨visits, readings⟩ := charge_counts 1 k first
    obtain ⟨_, spent, timely⟩ := (charge_ok 1 k room).mp first
    simp only [mul_one, zero_add] at visits readings spent timely
    rw [charge_ok cost l (by omega), visits, readings]
    simp only [first, true_and]
    apply and_congr_right
    intro _
    constructor
    · intro later i below
      by_cases early : i < k
      · exact timely i early
      · have look := later (i - k) (by omega)
        rwa [Nat.add_sub_cancel' (by omega)] at look
    · intro all i below
      exact all (k + i) (by omega)
  · have stopped : (charge b elapsed 1 k {}).ok = false := by simpa using first
    rw [charge_exhausted cost l stopped]
    simp only [stopped, Bool.false_eq_true, false_iff]
    rintro ⟨visits, timely⟩
    apply first
    rw [charge_ok 1 k room]
    refine ⟨rfl, ?_, fun i below => ?_⟩
    · simp only [mul_one]
      omega
    · rw [zero_add]
      exact timely i (by omega)

theorem normalized_visits (b : Budget) : 0 ≤ b.normalized.maxVisits := by
  unfold Budget.normalized
  dsimp only
  split
  · decide
  · omega

def started (g : SimGraph) (b : Budget) : SimMeter :=
  if ((agents g).length : Int) > b.maxAgents then { exhausted := some .agents } else {}

def walked (g : SimGraph) (b : Budget) (elapsed : Nat → Int) : List Node := paid b elapsed 1 (agents g) (started g b)

def walkedPaths (g : SimGraph) (target : Bytes) (b : Budget) (elapsed : Nat → Int) : List PathImpact :=
  (walked g b elapsed).flatMap fun agent =>
    agentPaths g target (g.adjacency (some .path) false []) (g.adjacency (some .path) false target) agent.id

def reached (g : SimGraph) (target : Bytes) (b : Budget) (elapsed : Nat → Int) : List Node :=
  paid b elapsed (size (undirect (g.adjacency none false []))) (survivors target (agents g))
    (charge b elapsed 1 (agents g).length (started g b))

theorem simulate_inversion (ok : simulateWithBudget snap target elapsed budget = .ok imp) :
    ∃ s, snap = some s ∧
      imp.impactedServices = impactedServices (newSimGraph s) target (targetKind (newSimGraph s) target) ∧
      imp.impactedPrefixes = impactedPrefixes (newSimGraph s) target (targetKind (newSimGraph s) target) ∧
      (imp.isPartial = false ↔ WithinBudget (newSimGraph s) target budget.normalized elapsed) ∧
      (imp.disconnected.Nodup ∧ ∀ n, n ∈ imp.disconnected ↔
        Lost (newSimGraph s) target (reached (newSimGraph s) target budget.normalized elapsed) n) ∧
      imp.brokenPaths = sortPathImpacts
        ((walkedPaths (newSimGraph s) target budget.normalized elapsed).filter (·.status == .broken)) ∧
      imp.reroutedPaths = sortPathImpacts
        ((walkedPaths (newSimGraph s) target budget.normalized elapsed).filter (·.status == .rerouted)) := by
  unfold simulateWithBudget at ok
  cases snap with
  | none => cases ok
  | some s =>
    dsimp only at ok
    split at ok
    · cases ok
    cases ok
    refine ⟨s, rfl, rfl, rfl, ?_⟩
    have final : ∀ m : SimMeter, Option.isSome m.exhausted = false ↔ m.ok = true := by
      simp [ok]
    simp only [Impact.isPartial, final, reachLoop_lists, reachLoop_meter, pathLoop_lists, pathLoop_meter]
    unfold walkedPaths walked reached started agents
    by_cases tooMany : ((newSimGraph s).nodesOfKind .agent).length > budget.normalized.maxAgents
    · -- the meter is spent before the first agent
      have stopped : ok { exhausted := some .agents } = false := rfl
      simp only [tooMany, if_true, charge_exhausted _ _ stopped, paid_exhausted _ _ stopped]
      refine ⟨⟨nofun, fun within => ?_⟩, disconnected_spec [] rfl, trivial, trivial⟩
      exact absurd within.fleet (by simpa [agents] using tooMany)
    · simp only [tooMany, if_false]
      refine ⟨?_, disconnected_spec _ rfl, trivial, trivial⟩
      rw [rounds_ok (normalized_visits budget)]
      constructor
      · rintro ⟨visits, clock⟩
        exact ⟨by simpa [agents] using tooMany, visits, clock⟩
      · intro within
        exact ⟨within.visits, within.clock⟩

variable {g : SimGraph}

theorem WithinBudget.live (within : WithinBudget g target b elapsed) (room : 0 ≤ b.maxVisits) :
    started g b = {} ∧ agents g ⊆ walked g b elapsed ∧
      ∀ agent, agent ∈ reached g target b elapsed ↔ Agent g target agent := by
  have fresh : started g b = {} := if_neg (not_lt.mpr within.fleet)
  have live := (rounds_ok room _ _ _).mpr ⟨within.visits, within.clock⟩
  have first : (charge b elapsed 1 (agents g).length {}).ok = true := by
    by_contra stopped
    rw [charge_exhausted _ _ (by simpa using stopped)] at live
    exact stopped live
  have all := paid_take (l := agents g) first
  have each := paid_take (l := survivors target (agents g)) live
  rw [take_length] at all each
  refine ⟨fresh, by rwa [walked, fresh], fun agent => ?_⟩
  rw [← mem_survivors, reached, fresh]
  exact ⟨fun mem => paid_subset _ _ _ mem, fun mem => each mem⟩

theorem whole_disconnected (within : WithinBudget g target b elapsed) (room : 0 ≤ b.maxVisits) (n : Bytes) :
    Lost g target (reached g target b elapsed) n ↔ Disconnected g target n := by
  simp only [Lost, Disconnected, (within.live room).2.2]

theorem simulate_radius (ok : simulateWithBudget snap target elapsed budget = .ok imp) (whole : imp.isPartial = false) :
    ∃ s, snap = some s ∧ imp.impactedServices.length + imp.impactedPrefixes.length + imp.disconnected.length =
      radius (newSimGraph s) target := by
  obtain ⟨s, found, services, prefixes, within, ⟨nodup, lost⟩, -⟩ := simulate_inversion ok
  have exactly n := (lost n).trans (whole_disconnected (within.mp whole) (normalized_visits budget) n)
  refine ⟨s, found, ?_⟩
  rw [services, prefixes, radius, ncard_listed impactedServices_spec.1 impactedServices_spec.2,
    ncard_listed impactedPrefixes_spec.1 impactedPrefixes_spec.2, ncard_listed nodup exactly]

end Simulation

end Probectl.Topology
