import Probectl.Lib.Run
import Probectl.Remediation.Service
import Probectl.Topology.Impact

/-! Approved proposals in every interleaving of proposals and decisions: who
approved them, the audit trail beside them, and what their blast radius counts. -/
namespace Probectl.Remediation

open Strings Probectl.Topology Run List Store Service

structure Cleared (s : Service) (p : Proposal) (approver : Bytes) : Prop where
  enabled : s.approvalsEnabled = true
  fourEyes : approver ≠ p.proposedBy
  simulated : 0 ≤ p.dryRun.blastRadius
  noted : p.dryRun.note ≠ noteUnknown
  limited : p.dryRun.blastRadius ≤ s.maxBlastRadius

def AuditEntry.isDecision (e : AuditEntry) : Bool :=
  match e.data with
  | .decided .. => true
  | _ => false

def decisions (audit : List AuditEntry) (id : Bytes) : List AuditEntry :=
  audit.filter fun e => e.isDecision && e.target == id

def Row.entry (r : Row) (txn : Nat) : AuditEntry :=
  ⟨r.proposal.tenantID, r.proposal.decidedBy, r.proposal.id,
    .decided r.proposal.state r.proposal.decision r.proposal.dryRun.blastRadius, txn⟩

def Trail (audit : List AuditEntry) (r : Row) : Prop :=
  r.proposal.state = .proposed ∧ r.decidedIn = none ∧ decisions audit r.proposal.id = [] ∨
    ∃ txn, r.proposal.state ≠ .proposed ∧ r.decidedIn = some txn ∧ decisions audit r.proposal.id = [r.entry txn]

def Backed (s : Service) (rows : List Row) (d : Pending) : Prop :=
  d.refusal = none → d.state ≠ .proposed ∧
    (d.state = .approved → ∃ r ∈ rows, r.proposal.id = d.id ∧ Cleared s r.proposal d.actor)

structure Inv (s : Service) (st : Store) : Prop where
  ids : (st.rows.map (·.proposal.id)).Nodup
  filed : ∀ r ∈ st.rows, r.proposal.dryRun = s.dryRun r.world r.proposal.kind r.proposal.target
  trail : ∀ r ∈ st.rows, Trail st.audit r
  known : ∀ e ∈ st.audit, e.isDecision = true → e.target ∈ st.rows.map (·.proposal.id)
  cleared : ∀ r ∈ st.rows, r.proposal.state = .approved → Cleared s r.proposal r.proposal.decidedBy
  backed : ∀ d ∈ st.pending, Backed s st.rows d

variable {s : Service} {st : Store} {r : Row}

theorem Inv.unique (inv : Inv s st) (first : r ∈ st.rows) (second : q ∈ st.rows)
    (same : r.proposal.id = q.proposal.id) : r = q :=
  inj_on_of_nodup_map inv.ids first second same

theorem decisions_append (audit : List AuditEntry) (e : AuditEntry) (id : Bytes) :
    decisions (audit ++ [e]) id = decisions audit id ++ if e.isDecision && e.target == id then [e] else [] := by
  simp only [decisions, filter_append, filter_cons, filter_nil]

variable {audit : List AuditEntry} {e : AuditEntry}

theorem Trail.append (trail : Trail audit r)
    (other : e.isDecision = false ∨ e.target ≠ r.proposal.id) : Trail (audit ++ [e]) r := by
  have same : decisions (audit ++ [e]) r.proposal.id = decisions audit r.proposal.id := by
    rcases other with plain | elsewhere
    · simp [decisions_append, plain]
    · simp [decisions_append, elsewhere]
  simpa only [Trail, same] using trail

variable {tenant id : Bytes} {bound : Option Bytes}

theorem get_ok (found : st.get tenant bound id = .ok r) : r ∈ st.rows ∧ r.proposal.id = id := by
  obtain ⟨-, found⟩ := guard_ok found
  obtain ⟨-, found⟩ := guard_ok found
  split at found
  · rename_i q first
    cases found
    have here := find?_some first
    simp only [Bool.and_eq_true, beq_iff_eq] at here
    exact ⟨mem_of_find?_eq_some first, here.1⟩
  · cases found

variable {approver : Bytes} {d : Pending} {note : Bytes}

theorem approve_backed (ok : s.approve st tenant bound approver id note = .ok d) : Backed s st.rows d := by
  obtain ⟨enabled, ok⟩ := guard_ok ok
  split at ok
  · cases ok
  rename_i p w txn found
  obtain ⟨mem, named⟩ := get_ok found
  obtain ⟨-, ok⟩ := guard_ok ok
  split at ok
  · cases ok
    nofun
  rename_i other
  split at ok
  · cases ok
    nofun
  rename_i measured
  split at ok
  · cases ok
    nofun
  rename_i limited
  cases ok
  intro _
  simp only [not_or, Int.not_lt] at measured
  refine ⟨by simp, fun _ => ⟨_, mem, named, ?_⟩⟩
  exact ⟨by simpa using enabled, other, measured.1, measured.2, by simpa using limited⟩

theorem reject_backed
    (ok : reject st tenant bound decider id note = .ok d) : Backed s st.rows d := by
  unfold reject at ok
  split at ok
  · cases ok
  obtain ⟨-, ok⟩ := guard_ok ok
  cases ok
  intro _
  exact ⟨by simp, fun approved => by cases approved⟩

variable {rows : List Row}

theorem Backed.mono (backed : Backed s rows d) (kept : ∀ r ∈ rows, r ∈ more) : Backed s more d := by
  intro deciding
  obtain ⟨decided, cleared⟩ := backed deciding
  refine ⟨decided, fun approved => ?_⟩
  obtain ⟨r, mem, named, guards⟩ := cleared approved
  exact ⟨r, kept r mem, named, guards⟩

theorem inv_begin (inv : Inv s st) (backs : ∀ d, call = .ok d → Backed s st.rows d) :
    Inv s (st.begin call) := by
  cases call with
  | error e => exact inv
  | ok d =>
    exact { inv with backed := forall_mem_snoc inv.backed (backs d rfl) }

theorem inv_erase (inv : Inv s st) (i : Nat) : Inv s { st with pending := st.pending.eraseIdx i } :=
  { inv with backed := fun d mem => inv.backed d (mem_of_mem_eraseIdx mem) }

theorem inv_append (inv : Inv s st) (other : e.isDecision = false) :
    Inv s { st with audit := st.audit ++ [e], txns := st.txns + 1 } := by
  refine { inv with trail := ?_, known := ?_ }
  · intro r mem
    exact (inv.trail r mem).append (.inl other)
  · refine forall_mem_snoc inv.known fun decides => ?_
    rw [other] at decides
    cases decides

theorem inv_record (inv : Inv s st) (sink : AuditSink) (d : Pending) (reason : Blocked) (commits : Bool) :
    Inv s (st.record sink d reason commits) := by
  unfold record
  split
  · exact inv_append inv rfl
  · exact inv

variable {w : World} {p : Proposal}

theorem propose_ok {now : Int}
    (ok : s.propose tenant proposedBy input w id now = .ok p) :
    p.state = .proposed ∧ p.dryRun = s.dryRun w p.kind p.target := by
  unfold propose at ok
  split at ok
  · cases ok
  obtain ⟨-, ok⟩ := guard_ok ok
  cases ok
  exact ⟨rfl, rfl⟩

theorem inv_insert (inv : Inv s st) (sink : AuditSink) (bound : Option Bytes) (commits : Bool)
    (fresh : p.state = .proposed) (filed : p.dryRun = s.dryRun w p.kind p.target) :
    Inv s (st.insertAudited sink bound p w commits) := by
  unfold insertAudited
  split
  case isFalse => exact inv
  case isTrue written =>
    obtain ⟨_, _, _, unused⟩ := written
    have inv := inv_append inv (e := ⟨p.tenantID, p.proposedBy, p.id, .proposed p.kind p.target p.dryRun.blastRadius,
      st.txns⟩) rfl
    refine ⟨?_, ?_, ?_, ?_, ?_, ?_⟩
    · rw [map_append, nodup_append]
      refine ⟨inv.ids, nodup_singleton _, ?_⟩
      rintro id old _ new rfl
      have same : id = p.id := mem_singleton.mp new
      exact unused (same ▸ old)
    · exact forall_mem_snoc inv.filed filed
    · -- a decision on the new id would have had a row
      refine forall_mem_snoc inv.trail (.inl ⟨fresh, rfl, filter_eq_nil_iff.mpr ?_⟩)
      intro e written decides
      simp only [Bool.and_eq_true, beq_iff_eq] at decides
      exact unused (decides.2 ▸ inv.known e written decides.1)
    · intro e mem decides
      rw [map_append]
      exact mem_append_left _ (inv.known e mem decides)
    · refine forall_mem_snoc inv.cleared fun approved => ?_
      rw [fresh] at approved
      cases approved
    · intro d mem
      exact (inv.backed d mem).mono fun r old => mem_append_left _ old

section Decide

variable (txn : Nat) (d : Pending) (now : Int) (r : Row)

theorem decideRow_filed : (decideRow txn d now r).proposal.id = r.proposal.id ∧
    (decideRow txn d now r).proposal.kind = r.proposal.kind ∧
    (decideRow txn d now r).proposal.target = r.proposal.target ∧
    (decideRow txn d now r).proposal.dryRun = r.proposal.dryRun ∧
    (decideRow txn d now r).proposal.proposedBy = r.proposal.proposedBy ∧
    (decideRow txn d now r).world = r.world := by
  unfold decideRow
  split <;> exact ⟨rfl, rfl, rfl, rfl, rfl, rfl⟩

theorem decideRow_cleared (cleared : Cleared s r.proposal actor)
    (same : p.dryRun = r.proposal.dryRun) (proposer : p.proposedBy = r.proposal.proposedBy) : Cleared s p actor := by
  refine ⟨cleared.enabled, ?_, ?_, ?_, ?_⟩
  · exact proposer ▸ cleared.fourEyes
  · exact same ▸ cleared.simulated
  · exact same ▸ cleared.noted
  · exact same ▸ cleared.limited

theorem decideRow_other {r : Row} (other : r.proposal.id ≠ d.id) : decideRow txn d now r = r := by
  unfold decideRow
  simp [undecided, other]

theorem undecided_spec {r : Row} (awaits : undecided tenant id r = true) :
    r.proposal.id = id ∧ r.proposal.tenantID = tenant ∧ r.proposal.state = .proposed := by
  simpa only [undecided, Bool.and_eq_true, beq_iff_eq, and_assoc] using awaits

theorem decideRow_own {r : Row} (awaits : undecided d.tenant d.id r = true) :
    (decideRow txn d now r).proposal.state = d.state ∧
      (decideRow txn d now r).proposal.decidedBy = d.actor ∧
      (decideRow txn d now r).decidedIn = some txn ∧
      (decideRow txn d now r).entry txn =
        ⟨d.tenant, d.actor, d.id, .decided d.state d.note r.proposal.dryRun.blastRadius, txn⟩ := by
  unfold decideRow
  rw [if_pos awaits]
  obtain ⟨named, tenant, -⟩ := undecided_spec awaits
  exact ⟨rfl, rfl, rfl, by simp [Row.entry, named, tenant]⟩

theorem decideRow_ids (rows : List Row) :
    (rows.map (decideRow txn d now)).map (·.proposal.id) = rows.map (·.proposal.id) := by
  rw [map_map]
  apply map_congr_left
  intro r _
  exact (decideRow_filed txn d now r).1

theorem Trail.decide {r : Row} (trail : Trail audit r)
    (awaits : undecided d.tenant d.id r = true) (final : d.state ≠ .proposed) :
    Trail (audit ++ [⟨d.tenant, d.actor, d.id, .decided d.state d.note r.proposal.dryRun.blastRadius, txn⟩])
      (decideRow txn d now r) := by
  obtain ⟨named, -, proposed⟩ := undecided_spec awaits
  obtain ⟨state, -, written, entry⟩ := decideRow_own txn d now awaits
  rcases trail with ⟨-, -, none⟩ | ⟨-, decided, -⟩
  · refine .inr ⟨txn, state ▸ final, written, ?_⟩
    rw [(decideRow_filed txn d now r).1, decisions_append, none, entry]
    simp [AuditEntry.isDecision, named]
  · exact absurd proposed decided

end Decide

theorem backed_decide {e : Pending} (txn : Nat) (now : Int) (backed : Backed s rows e) :
    Backed s (rows.map (decideRow txn d now)) e := by
  intro deciding
  obtain ⟨final, cleared⟩ := backed deciding
  refine ⟨final, fun approved => ?_⟩
  obtain ⟨r, mem, named, guards⟩ := cleared approved
  obtain ⟨id, _, _, same, proposer, _⟩ := decideRow_filed txn d now r
  exact ⟨_, mem_map_of_mem mem, id.trans named, decideRow_cleared r guards same proposer⟩

theorem inv_decide (inv : Inv s st) (sink : AuditSink) (now : Int) (commits : Bool)
    (deciding : d.refusal = none) (backed : Backed s st.rows d) : Inv s (st.decideAudited sink d now commits) := by
  obtain ⟨final, approval⟩ := backed deciding
  unfold decideAudited
  split
  case h_1 => exact inv
  case h_2 q found =>
    split
    case isFalse => exact inv
    case isTrue =>
      have mem_q := mem_of_find?_eq_some found
      have awaits := find?_some found
      have named : q.proposal.id = d.id := (undecided_spec awaits).1
      -- ids are unique, so the update finds this row and no other
      have split_rows : ∀ r ∈ st.rows, r = q ∨ r.proposal.id ≠ d.id := by
        intro r mem
        by_cases same : r.proposal.id = d.id
        · exact .inl (inv.unique mem mem_q (same.trans named.symm))
        · exact .inr same
      constructor
      · rw [decideRow_ids]
        exact inv.ids
      · intro r mem
        obtain ⟨r, old, rfl⟩ := mem_map.mp mem
        obtain ⟨_, kind, target, same, _, world⟩ := decideRow_filed st.txns d now r
        rw [same, world, kind, target]
        exact inv.filed r old
      · intro r mem
        obtain ⟨r, old, rfl⟩ := mem_map.mp mem
        rcases split_rows r old with rfl | other
        · exact (inv.trail r old).decide st.txns d now awaits final
        · rw [decideRow_other st.txns d now other]
          exact (inv.trail r old).append (.inr other.symm)
      · rw [decideRow_ids]
        exact forall_mem_snoc inv.known fun _ => mem_map.mpr ⟨q, mem_q, named⟩
      · intro r mem approved
        obtain ⟨r, old, rfl⟩ := mem_map.mp mem
        rcases split_rows r old with rfl | other
        · obtain ⟨state, actor, -, -⟩ := decideRow_own st.txns d now awaits
          obtain ⟨c, mem_c, same, guards⟩ := approval (state.symm.trans approved)
          obtain rfl := inv.unique mem_c old (same.trans named.symm)
          obtain ⟨_, _, _, dry, proposer, _⟩ := decideRow_filed st.txns d now c
          rw [actor]
          exact decideRow_cleared c guards dry proposer
        · rw [decideRow_other st.txns d now other] at approved ⊢
          exact inv.cleared r old approved
      · intro e mem
        exact backed_decide st.txns now (inv.backed e mem)

theorem inv_step (inv : Inv s st) (stepped : s.step st a = some t) : Inv s t := by
  cases a with
  | propose tenant bound proposedBy input w id now commits =>
    unfold step at stepped
    dsimp only at stepped
    split at stepped
    · cases stepped
      exact inv
    rename_i p ok
    cases stepped
    obtain ⟨fresh, filed⟩ := propose_ok ok
    exact inv_insert inv s.audit bound commits fresh filed
  | approve tenant bound approver id note =>
    cases stepped
    exact inv_begin inv fun d ok => approve_backed ok
  | reject tenant bound decider id note =>
    cases stepped
    exact inv_begin inv fun d ok => reject_backed ok
  | finish i now commits =>
    unfold step at stepped
    dsimp only at stepped
    split at stepped
    · cases stepped
    rename_i d at_i
    have backed := inv.backed d (mem_of_getElem? at_i)
    split at stepped
    · cases stepped
      exact inv_record (inv_erase inv i) s.audit d _ commits
    · rename_i deciding
      cases stepped
      exact inv_decide (inv_erase inv i) s.audit now commits deciding backed

theorem inv_initial : Inv s {} := by
  constructor
  · exact nodup_nil
  · intro r mem
    cases mem
  · intro r mem
    cases mem
  · intro e mem
    cases mem
  · intro r mem
    cases mem
  · intro d mem
    cases mem

/-- The blast radius is that of the whole what-if impact of the target, or the
kind needs no target and the proposal names none. -/
def Sized (s : Service) (r : Row) : Prop :=
  r.proposal.target = [] ∧ kindRequiresTarget r.proposal.kind = false ∨
    r.proposal.target ≠ [] ∧ s.estimator = .topology ∧ ∃ snap imp, r.world.graph = some snap ∧
      simulate (some snap) r.proposal.target r.world.elapsed = .ok imp ∧ imp.isPartial = false ∧
      r.proposal.dryRun.blastRadius = radius (newSimGraph snap) r.proposal.target ∧
      r.proposal.dryRun.blastRadius ≤ s.maxBlastRadius

structure WellApproved (s : Service) (st : Store) (r : Row) : Prop where
  enabled : s.approvalsEnabled = true
  fourEyes : r.proposal.decidedBy ≠ r.proposal.proposedBy
  decidedOnce : ∃ txn, r.decidedIn = some txn ∧ decisions st.audit r.proposal.id = [r.entry txn]
  sized : Sized s r

/-- The proposal names no target, or it was filed with an estimator whose
simulation stayed within its budget. A target that the graph does not have, like
an estimator without a store, makes the radius unknown. -/
def Complete (s : Service) (r : Row) : Prop :=
  r.proposal.target ≠ [] → s.estimator ≠ .missing ∧ (s.estimator = .topology → ∀ snap, r.world.graph = some snap →
    (((newSimGraph snap).node? r.proposal.target).isSome ∨ ((newSimGraph snap).edge? r.proposal.target).isSome) →
    WithinBudget (newSimGraph snap) r.proposal.target defaultBudget r.world.elapsed)

variable {target : Bytes}

theorem simulate_known
    (ok : simulate (some snap) target elapsed = .ok imp) :
    ((newSimGraph snap).node? target).isSome ∨ ((newSimGraph snap).edge? target).isSome := by
  unfold simulate simulateWithBudget at ok
  obtain ⟨found, ok⟩ := guard_ok ok
  by_contra unknown
  apply found
  simpa using unknown

theorem not_cleared_unknown (cleared : Cleared s p approver) : p.dryRun ≠ unknownDryRun := by
  intro unknown
  exact cleared.noted (congrArg DryRun.note unknown)

theorem topologyEstimate_known (known : topologyEstimate w target ≠ unknownDryRun) :
    ∃ snap imp, w.graph = some snap ∧ simulate (some snap) target w.elapsed = .ok imp ∧
      (topologyEstimate w target).blastRadius =
        ((imp.impactedServices.length + imp.impactedPrefixes.length + imp.disconnected.length : Nat) : Int) := by
  unfold topologyEstimate at known ⊢
  cases ok : simulate w.graph target w.elapsed with
  | error e =>
    rw [ok] at known
    exact absurd rfl known
  | ok imp =>
    cases graph : w.graph with
    | none =>
      rw [graph] at ok
      cases ok
    | some snap => exact ⟨snap, imp, rfl, graph ▸ ok, by push_cast; rfl⟩

theorem sized_iff (cleared : Cleared s r.proposal approver)
    (filed : r.proposal.dryRun = s.dryRun r.world r.proposal.kind r.proposal.target) :
    Sized s r ↔ Complete s r := by
  have known := not_cleared_unknown cleared
  rw [filed, dryRun] at known
  by_cases untargeted : r.proposal.target = []
  · rw [if_neg (by simp [untargeted])] at known
    have benign : kindRequiresTarget r.proposal.kind = false := by
      by_contra requires
      exact known (if_pos (by simpa using requires))
    simp [Sized, Complete, untargeted, benign]
  · rw [if_pos untargeted] at known
    simp only [Sized, Complete, untargeted, false_and, ne_eq, false_or]
    rw [dryRun, if_pos untargeted] at filed
    cases wired : s.estimator with
    | missing => simp
    | storeless =>
      rw [wired] at known
      exact absurd rfl known
    | topology =>
      rw [wired] at known filed
      obtain ⟨snap, imp, graph, ok, counts⟩ := topologyEstimate_known known
      obtain ⟨snap', found, -, -, budget, -⟩ := simulate_inversion ok
      cases found
      simp only [reduceCtorEq, not_false_eq_true, true_and, forall_const, graph, Option.some.injEq, forall_eq']
      constructor
      · rintro ⟨_, imp', rfl, ok', whole, -⟩ -
        cases ok.symm.trans ok'
        exact budget.mp whole
      · intro complete
        have whole : imp.isPartial = false := budget.mpr (complete (simulate_known ok))
        obtain ⟨snap', found, counted⟩ := simulate_radius ok whole
        cases found
        have size : r.proposal.dryRun.blastRadius = radius (newSimGraph snap) r.proposal.target := by
          rw [filed, counts, counted]
        exact ⟨snap, imp, rfl, ok, whole, size, cleared.limited⟩

theorem wellApproved_iff (inv : Inv s st) (mem : r ∈ st.rows) (approved : r.proposal.state = .approved) :
    WellApproved s st r ↔ Complete s r := by
  have cleared := inv.cleared r mem approved
  rw [← sized_iff cleared (inv.filed r mem)]
  constructor
  · exact WellApproved.sized
  intro sized
  rcases inv.trail r mem with ⟨proposed, _⟩ | ⟨txn, _, written, once⟩
  · cases proposed.symm.trans approved
  · exact ⟨cleared.enabled, cleared.fourEyes, ⟨txn, written, once⟩, sized⟩

/-- In every interleaving, all approved proposals are approved as the guards
promise if and only if all of them were filed completely simulated. -/
theorem approved_guarded_iff (s : Service) (as : List Action) :
    Visits s.step (fun st => ∀ r ∈ st.rows, r.proposal.state = .approved → WellApproved s st r) {} as ↔
      Visits s.step (fun st => ∀ r ∈ st.rows, r.proposal.state = .approved → Complete s r) {} as := by
  apply visits_congr (visits_invariant (fun st a t inv stepped => inv_step inv stepped) inv_initial as)
  intro st inv
  apply forall_congr'
  intro r
  apply forall_congr'
  intro mem
  apply forall_congr'
  intro approved
  exact wellApproved_iff inv mem approved

section Unsimulated

def smallGraph : Snapshot :=
  ⟨[⟨lit "agent:a", .agent, 0, 0⟩, ⟨lit "hop:h", .hop, 0, 0⟩, ⟨lit "host:x", .host, 0, 0⟩],
    [⟨edgeID (lit "agent:a") .path (lit "hop:h"), lit "agent:a", lit "hop:h", .path, 0, 0⟩,
      ⟨edgeID (lit "hop:h") .path (lit "host:x"), lit "hop:h", lit "host:x", .path, 0, 0⟩]⟩

def lateWorld : World := ⟨some smallGraph, fun _ => 6000000000⟩

def openService (e : Estimator) : Service := newService e .transactional true 0

def rerouteApproved : List Action :=
  [.propose (lit "acme") none (lit "ai:propose_remediation")
      ⟨some .rerouteSuggestion, lit "reroute", [], lit "hop:h", []⟩ lateWorld (lit "rem-1") 0 true,
    .approve (lit "acme") none (lit "bob") (lit "rem-1") (lit "ok"),
    .finish 0 1 true]

def summary (st : Store) : List (ProposalState × Bytes × Option Snapshot × Int) :=
  st.rows.map fun r => (r.proposal.state, r.proposal.target, r.world.graph, r.proposal.dryRun.blastRadius)

theorem small_radius : radius (newSimGraph smallGraph) (lit "hop:h") = 1 := by
  have answer : (simulate (some smallGraph) (lit "hop:h") (fun _ => 0)).toOption.map (fun imp =>
      (imp.isPartial, imp.impactedServices.length + imp.impactedPrefixes.length + imp.disconnected.length)) =
      some (false, 1) := by decide +kernel
  cases ok : simulate (some smallGraph) (lit "hop:h") (fun _ => 0) with
  | error e => simp [ok, Except.toOption] at answer
  | ok imp =>
    simp only [ok, Except.toOption, Option.map_some, Option.some.injEq, Prod.mk.injEq] at answer
    obtain ⟨snap, found, counted⟩ := simulate_radius ok answer.1
    cases found
    exact counted.symm.trans answer.2

def Guarded (e : Estimator) : Prop :=
  Visits (openService e).step
    (fun st => ∀ r ∈ st.rows, r.proposal.state = .approved → WellApproved (openService e) st r) {} rerouteApproved

theorem zero_radius_unguarded {e : Estimator} (reached : (run (openService e).step {} rerouteApproved).map summary =
    some [(.approved, lit "hop:h", some smallGraph, 0)]) : ¬ Guarded e := by
  intro visits
  obtain ⟨st, ran, rows⟩ := Option.map_eq_some_iff.mp reached
  obtain ⟨r, alone, row⟩ := map_eq_singleton_iff.mp rows
  simp only [Prod.mk.injEq] at row
  obtain ⟨approved, target, graph, zero⟩ := row
  have well := visits rerouteApproved [] rfl st ran r (by simp [alone]) approved
  rcases well.sized with ⟨untargeted, _⟩ | ⟨_, _, snap, imp, same, _, _, counted, _⟩
  · rw [target] at untargeted
    revert untargeted
    decide
  · cases graph.symm.trans same
    rw [zero, target, small_radius] at counted
    cases counted

/-- The simulation stops before the first agent, and with no estimator there is
none; both times the radius is filed as zero where the failure costs a host, and
the approval passes. -/
theorem unsimulated_approved : ¬ Guarded .topology ∧ ¬ Guarded .missing := by
  constructor <;> exact zero_radius_unguarded (by decide +kernel)

end Unsimulated

end Probectl.Remediation
