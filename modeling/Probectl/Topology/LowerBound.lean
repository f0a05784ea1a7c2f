import Probectl.Topology.Impact

/-! What an analysis that ran into a bound still says. The paths grow agent by agent; what
is disconnected is a difference, which one more agent can make smaller. -/
namespace Probectl.Topology

open Strings List

/-- The agents that the search for what is disconnected starts from: the budget takes the
whole fleet, one visit for each of it and a map for each survivor up to this one, and the
clock is read in time as often. -/
def Expanded (g : SimGraph) (target : Bytes) (b : Budget) (elapsed : Nat → Int) (agent : Node) : Prop :=
  ((agents g).length : Int) ≤ b.maxAgents ∧ ∃ i, (survivors target (agents g))[i]? = some agent ∧
    (((agents g).length + (i + 1) * size (undirect (g.adjacency none false [])) : Nat) : Int) ≤ b.maxVisits ∧
    ∀ look < (agents g).length + (i + 1), Timely b elapsed look

/-- Of what the expanded agents saw before the failure, some expanded one still sees
whatever any agent does. -/
def Covers (g : SimGraph) (target : Bytes) (expanded : Node → Prop) : Prop :=
  ∀ n, n ≠ target → (∃ agent, expanded agent ∧ Sees g [] agent n) →
    (∃ agent, Agent g target agent ∧ Sees g target agent n) → ∃ agent, expanded agent ∧ Sees g target agent n

variable {g : SimGraph} {target : Bytes} {elapsed later : Nat → Int} {b : Budget}

theorem mem_reached (room : 0 ≤ b.maxVisits) (agent : Node) :
    agent ∈ reached g target b elapsed ↔ Expanded g target b elapsed agent := by
  rw [reached, mem_paid, Expanded]
  by_cases few : ((agents g).length : Int) ≤ b.maxAgents
  · have fresh : started g b = {} := if_neg (not_lt.mpr few)
    simp only [fresh, rounds_ok room, few, true_and]
  have stopped : (started g b).ok = false := by
    rw [started, if_pos (not_le.mp few)]
    rfl
  simp [charge_exhausted _ _ stopped, stopped, few]

theorem lost_lower {expanded : List Node} (all : ∀ agent ∈ expanded, Agent g target agent) :
    (∀ n, Lost g target expanded n → Disconnected g target n) ↔ Covers g target (· ∈ expanded) := by
  constructor
  · rintro lower n other saw ⟨agent, survivor, sees⟩
    by_contra unseen
    refine (lower n ⟨other, saw, fun e mem still => unseen ⟨e, mem, still⟩⟩).2.2 agent survivor sees
  · rintro covers n ⟨other, saw, unseen⟩
    have ⟨agent, mem, before⟩ := saw
    refine ⟨other, ⟨agent, all agent mem, before⟩, fun e survivor sees => ?_⟩
    obtain ⟨e, mem, still⟩ := covers n other saw ⟨e, survivor, sees⟩
    exact unseen e mem still

theorem mem_sortPathImpacts (p : PathImpact) (ps : List PathImpact) : p ∈ sortPathImpacts ps ↔ p ∈ ps :=
  mem_insertionSort _

variable {snap : Option Snapshot} {budget more : Budget} {imp full : Impact}

/-- Against an analysis that no bound stops. Within the agent budget an agent is expanded as
long as the visits and the clock last; beyond it none is. -/
theorem simulate_lower_bound (ok : simulateWithBudget snap target elapsed budget = .ok imp)
    (unlimited : simulateWithBudget snap target later more = .ok full) (whole : full.isPartial = false) :
    ∃ s, snap = some s ∧ imp.brokenPaths ⊆ full.brokenPaths ∧ imp.reroutedPaths ⊆ full.reroutedPaths ∧
      (imp.disconnected ⊆ full.disconnected ↔
        Covers (newSimGraph s) target (Expanded (newSimGraph s) target budget.normalized elapsed)) ∧
      (budget.normalized.maxAgents < (agents (newSimGraph s)).length →
        imp.brokenPaths = [] ∧ imp.reroutedPaths = [] ∧ imp.disconnected = []) ∧
      (((agents (newSimGraph s)).length : Int) ≤ budget.normalized.maxAgents →
        ∀ (i : Nat) agent, (agents (newSimGraph s))[i]? = some agent → ((i + 1 : Nat) : Int) ≤ budget.normalized.maxVisits →
          (∀ j ≤ i, Timely budget.normalized elapsed j) →
          agentPaths (newSimGraph s) target ((newSimGraph s).adjacency (some .path) false [])
            ((newSimGraph s).adjacency (some .path) false target) agent.id ⊆ imp.brokenPaths ++ imp.reroutedPaths) := by
  obtain ⟨s, found, -, -, -, ⟨-, lost⟩, broken, rerouted⟩ := simulate_inversion ok
  obtain ⟨s', found', -, -, within, ⟨-, lost'⟩, broken', rerouted'⟩ := simulate_inversion unlimited
  obtain rfl : s = s' := Option.some.inj (found.symm.trans found')
  have within := within.mp whole
  obtain ⟨-, all, -⟩ := within.live (normalized_visits more)
  have paths {p} (mem : p ∈ walkedPaths (newSimGraph s) target budget.normalized elapsed) :
      p ∈ walkedPaths (newSimGraph s) target more.normalized later := by
    obtain ⟨agent, walked, here⟩ := mem_flatMap.mp mem
    exact mem_flatMap.mpr ⟨agent, all (paid_subset _ _ _ walked), here⟩
  have expanded : (· ∈ reached (newSimGraph s) target budget.normalized elapsed) =
      Expanded (newSimGraph s) target budget.normalized elapsed :=
    funext fun agent => propext (mem_reached (normalized_visits budget) agent)
  refine ⟨s, found, fun p mem => ?_, fun p mem => ?_, ?_, fun many => ?_, fun few i agent listed visits clock p here => ?_⟩
  · rw [broken, mem_sortPathImpacts, mem_filter] at mem
    rw [broken', mem_sortPathImpacts, mem_filter]
    exact mem.imp_left paths
  · rw [rerouted, mem_sortPathImpacts, mem_filter] at mem
    rw [rerouted', mem_sortPathImpacts, mem_filter]
    exact mem.imp_left paths
  · rw [← expanded]
    refine Iff.trans (forall_congr' fun n => ?_)
      (lost_lower fun agent mem => (mem_survivors agent).mp (paid_subset _ _ _ mem))
    rw [lost, lost', whole_disconnected within (normalized_visits more)]
  · -- The meter is spent before the first agent.
    have stopped : (started (newSimGraph s) budget.normalized).ok = false := by
      rw [started, if_pos many]
      rfl
    have none : walkedPaths (newSimGraph s) target budget.normalized elapsed = [] := by
      rw [walkedPaths, walked, paid_exhausted _ _ stopped]
      rfl
    rw [broken, rerouted, none]
    refine ⟨rfl, rfl, eq_nil_iff_forall_not_mem.mpr fun n mem => ?_⟩
    obtain ⟨-, ⟨agent, reached, -⟩, -⟩ := (lost n).mp mem
    exact absurd ((mem_reached (normalized_visits budget) agent).mp reached).1 (not_le.mpr many)
  · have fresh : started (newSimGraph s) budget.normalized = {} := if_neg (not_lt.mpr few)
    have live : (charge budget.normalized elapsed 1 (i + 1) {}).ok = true :=
      (charge_ok 1 (i + 1) (normalized_visits budget)).mpr
        ⟨rfl, by simpa using visits, fun j below => by simpa using clock j (Nat.le_of_lt_succ below)⟩
    have walked : agent ∈ walked (newSimGraph s) budget.normalized elapsed := by
      rw [walked, fresh]
      exact (mem_paid agent).mpr ⟨i, listed, live⟩
    have mem : p ∈ walkedPaths (newSimGraph s) target budget.normalized elapsed := mem_flatMap.mpr ⟨agent, walked, here⟩
    rw [broken, rerouted, mem_append, mem_sortPathImpacts, mem_sortPathImpacts, mem_filter, mem_filter]
    cases status : p.status <;> simp [mem]

def forked : Snapshot where
  nodes := [⟨lit "a", .agent, 0, 0⟩, ⟨lit "b", .agent, 0, 0⟩, ⟨lit "h", .hop, 0, 0⟩, ⟨lit "x", .host, 0, 0⟩]
  edges := [("a", "h"), ("b", "h"), ("h", "x")].map fun e => ⟨edgeID (lit e.1) .path (lit e.2), lit e.1, lit e.2, .path, 0, 0⟩

def simulated (target : String) (budget : Budget) : Impact :=
  (simulateWithBudget (some forked) (lit target) (fun _ => 0) budget).toOption.getD
    ⟨[], none, [], [], [], [], [], [], none⟩

/-- One visit pays for the first agent's paths; a budget of one agent for nothing. -/
theorem simulate_lower_bound_cut : (simulated "x" ⟨2, 1, 0⟩).exhausted = some .visits ∧
    (simulated "x" ⟨2, 1, 0⟩).brokenPaths.map PathImpact.fromID = [lit "a"] ∧
    (simulated "x" ⟨2, 1, 0⟩).brokenPaths ⊆ (simulated "x" ⟨2, 99, 0⟩).brokenPaths ∧
    (simulated "x" ⟨1, 99, 0⟩).disconnected = [] := by
  have against (budget : Budget) (imp : Impact)
      (ok : simulateWithBudget (some forked) (lit "x") (fun _ => 0) budget = .ok imp) :=
    @simulate_lower_bound (lit "x") (fun _ => 0) (fun _ => 0) (some forked) budget ⟨2, 99, 0⟩ imp _ ok rfl (by decide +kernel)
  obtain ⟨_, _, broken, _⟩ := against ⟨2, 1, 0⟩ _ rfl
  obtain ⟨_, ⟨⟩, _, _, _, many, _⟩ := against ⟨1, 99, 0⟩ _ rfl
  exact ⟨by decide +kernel, by decide +kernel, broken, (many (by decide +kernel)).2.2⟩

/-- A budget of one agent expands none, and an agent that no visits were left for still sees
what the first one lost. -/
theorem cut_not_lower :
    ((simulated "x" ⟨1, 99, 0⟩).exhausted = some .agents ∧ (simulated "x" ⟨1, 99, 0⟩).brokenPaths = [] ∧
      (simulated "x" ⟨2, 99, 0⟩).brokenPaths.map PathImpact.fromID = [lit "a", lit "b"]) ∧
    (simulated "a|path|h" ⟨2, 6, 0⟩).exhausted = some .visits ∧
      (simulated "a|path|h" ⟨2, 6, 0⟩).disconnected = [lit "b", lit "h", lit "x"] ∧
      (simulated "a|path|h" ⟨2, 99, 0⟩).exhausted = none ∧ (simulated "a|path|h" ⟨2, 99, 0⟩).disconnected = [] := by
  decide +kernel

/-- What a whole analysis lists is what the failure takes. -/
theorem simulate_exact (ok : simulateWithBudget snap target elapsed budget = .ok imp) (whole : imp.isPartial = false) :
    ∃ s, snap = some s ∧ ∀ n, (n ∈ imp.impactedServices ↔ ServiceLost (newSimGraph s) target n) ∧
      (n ∈ imp.impactedPrefixes ↔ PrefixLost (newSimGraph s) target n) ∧
      (n ∈ imp.disconnected ↔ Disconnected (newSimGraph s) target n) := by
  obtain ⟨s, found, services, prefixes, within, ⟨-, lost⟩, -⟩ := simulate_inversion ok
  refine ⟨s, found, fun n => ?_⟩
  rw [services, prefixes, lost, whole_disconnected (within.mp whole) (normalized_visits budget)]
  exact ⟨impactedServices_spec.2 n, impactedPrefixes_spec.2 n, Iff.rfl⟩

theorem simulate_exact_hop : Disconnected (newSimGraph forked) (lit "h") (lit "x") := by
  obtain ⟨_, ⟨⟩, exactly⟩ := @simulate_exact (lit "h") (fun _ => 0) (some forked) ⟨2, 99, 0⟩ _ rfl (by decide +kernel)
  exact (exactly _).2.2.mp (by decide +kernel)

end Probectl.Topology
