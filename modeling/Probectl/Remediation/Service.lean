import Probectl.Topology.WhatIf

/-! Guarded remediation: the workflow of `ee/remediation/remediation.go` with its
topology estimator and the Postgres store, over the types of
`internal/remediation`. -/
namespace Probectl.Remediation

open Strings Probectl.Topology

inductive Kind where
  | rerouteSuggestion | trafficShiftSuggestion | openTicket | certRenewal
  deriving DecidableEq

def kindRequiresTarget : Kind → Bool
  | .rerouteSuggestion => true
  | .trafficShiftSuggestion => true
  | _ => false

inductive ProposalState where
  | proposed | approved | rejected | applied
  deriving DecidableEq

structure DryRun where
  blastRadius : Int := 0
  impactedServices : List Bytes := []
  impactedPrefixes : List Bytes := []
  disconnected : List Bytes := []
  note : Bytes := []
  deriving DecidableEq

structure Proposal where
  id : Bytes
  tenantID : Bytes
  kind : Kind
  title : Bytes
  rationale : Bytes
  target : Bytes
  incidentID : Bytes
  dryRun : DryRun
  state : ProposalState
  proposedBy : Bytes
  decidedBy : Bytes := []
  decision : Bytes := []
  createdAt : Int
  decidedAt : Option Int := none
  deriving DecidableEq

/-- `kind` is `none` for a text that names no kind. -/
structure ProposeInput where
  kind : Option Kind
  title : Bytes
  rationale : Bytes
  target : Bytes
  incidentID : Bytes

inductive RemError where
  | unknownKind | titleRequired
  | approvalsDisabled | blastRadiusExceeded | notProposed | unknownBlastRadius | selfApproval
  | notFound | noTenant | tenantMismatch | auditUnavailable
  deriving DecidableEq

def noteUnknown : Bytes := lit "topology unavailable — blast radius unknown"

def unknownDryRun : DryRun := { blastRadius := -1, note := noteUnknown }

structure World where
  graph : Option Snapshot
  elapsed : Nat → Int

/-- The service's estimator: none at all, one without a topology store, or one
with it. -/
inductive Estimator where
  | missing | storeless | topology
  deriving DecidableEq

def topologyEstimate (w : World) (target : Bytes) : DryRun :=
  match simulate w.graph target w.elapsed with
  | .error _ => unknownDryRun
  | .ok impact => {
      blastRadius := impact.impactedServices.length + impact.impactedPrefixes.length + impact.disconnected.length
      impactedServices := impact.impactedServices
      impactedPrefixes := impact.impactedPrefixes
      disconnected := impact.disconnected }

/-- The audit sink, by whether it can append inside a store transaction. -/
inductive AuditSink where
  | absent | detached | transactional
  deriving DecidableEq

structure Service where
  estimator : Estimator
  audit : AuditSink
  approvalsEnabled : Bool
  maxBlastRadius : Int
  deriving DecidableEq

def newService (estimator : Estimator) (audit : AuditSink) (approvalsEnabled : Bool) (maxBlastRadius : Int) : Service :=
  ⟨estimator, audit, approvalsEnabled, if maxBlastRadius ≤ 0 then 50 else maxBlastRadius⟩

inductive Blocked where
  | selfApproval (proposedBy : Bytes)
  | blastRadiusUnknown
  | blastRadiusExceeded (blastRadius limit : Int)
  deriving DecidableEq

inductive AuditData where
  | proposed (kind : Kind) (target : Bytes) (blastRadius : Int)
  | decided (state : ProposalState) (note : Bytes) (blastRadius : Int)
  | approveBlocked (reason : Blocked)
  deriving DecidableEq

/-- `txn` numbers the transaction that wrote the entry. -/
structure AuditEntry where
  tenant : Bytes
  actor : Bytes
  target : Bytes
  data : AuditData
  txn : Nat
  deriving DecidableEq

/-- A stored proposal. The source stores `proposal` only; what its estimate read
and the transaction that decided it are kept for the statements. -/
structure Row where
  proposal : Proposal
  world : World
  decidedIn : Option Nat := none

structure Pending where
  tenant : Bytes
  bound : Option Bytes
  actor : Bytes
  id : Bytes
  refusal : Option Blocked := none
  state : ProposalState
  note : Bytes

structure Store where
  rows : List Row := []
  audit : List AuditEntry := []
  txns : Nat := 0
  pending : List Pending := []

/-- `remediationTenantContext`: a tenant there is, and the one the request is
bound to when it is bound to one. -/
def tenantContext (tenant : Bytes) (bound : Option Bytes) : Bool := tenant != [] && bound.all (· == tenant)

namespace Store

/-- Row-level security leaves the tenant's rows. -/
def get (st : Store) (tenant : Bytes) (bound : Option Bytes) (id : Bytes) : Except RemError Row :=
  if tenant = [] then .error .noTenant
  else if !tenantContext tenant bound then .error .tenantMismatch
  else
    match st.rows.find? (fun r => r.proposal.id == id && r.proposal.tenantID == tenant) with
    | some r => .ok r
    | none => .error .notFound

/-- `InsertAudited`, which commits the row with its entry or nothing. -/
def insertAudited (st : Store) (sink : AuditSink) (bound : Option Bytes) (p : Proposal) (w : World)
    (commits : Bool) : Store :=
  if sink = .transactional ∧ tenantContext p.tenantID bound ∧ commits ∧ p.id ∉ st.rows.map (·.proposal.id) then
    { st with
      rows := st.rows ++ [⟨p, w, none⟩]
      audit := st.audit ++ [⟨p.tenantID, p.proposedBy, p.id, .proposed p.kind p.target p.dryRun.blastRadius, st.txns⟩]
      txns := st.txns + 1 }
  else st

def undecided (tenant id : Bytes) (r : Row) : Bool :=
  r.proposal.id == id && r.proposal.tenantID == tenant && r.proposal.state == .proposed

def decideRow (txn : Nat) (d : Pending) (now : Int) (r : Row) : Row :=
  if undecided d.tenant d.id r then
    { r with
      proposal := { r.proposal with
        state := d.state, decidedBy := d.actor, decision := d.note, decidedAt := some now }
      decidedIn := some txn }
  else r

/-- `DecideAudited`: the conditional update and its entry in one transaction. -/
def decideAudited (st : Store) (sink : AuditSink) (d : Pending) (now : Int) (commits : Bool) : Store :=
  match st.rows.find? (undecided d.tenant d.id) with
  | none => st
  | some r =>
    if sink = .transactional ∧ tenantContext d.tenant d.bound ∧ commits then
      { st with
        rows := st.rows.map (decideRow st.txns d now)
        audit := st.audit ++ [⟨d.tenant, d.actor, d.id, .decided d.state d.note r.proposal.dryRun.blastRadius, st.txns⟩]
        txns := st.txns + 1 }
    else st

/-- `record`: a refused approval has a transaction of its own. -/
def record (st : Store) (sink : AuditSink) (d : Pending) (reason : Blocked) (commits : Bool) : Store :=
  if sink ≠ .absent ∧ tenantContext d.tenant d.bound ∧ commits then
    { st with audit := st.audit ++ [⟨d.tenant, d.actor, d.id, .approveBlocked reason, st.txns⟩], txns := st.txns + 1 }
  else st

end Store

namespace Service

def dryRun (s : Service) (w : World) (kind : Kind) (target : Bytes) : DryRun :=
  if target ≠ [] then
    match s.estimator with
    | .missing => { note := lit "no target to simulate" }
    | .storeless => unknownDryRun
    | .topology => topologyEstimate w target
  else if kindRequiresTarget kind then unknownDryRun
  else { note := lit "no target to simulate" }

def propose (s : Service) (tenant proposedBy : Bytes) (input : ProposeInput) (w : World) (id : Bytes) (now : Int) :
    Except RemError Proposal :=
  let title := trimSpace input.title
  match input.kind with
  | none => .error .unknownKind
  | some kind =>
    if title = [] then .error .titleRequired
    else .ok {
      id := id, tenantID := tenant, kind := kind, title := title, rationale := input.rationale,
      target := input.target, incidentID := input.incidentID, dryRun := s.dryRun w kind input.target,
      state := .proposed, proposedBy := proposedBy, createdAt := now }

/-- `Approve` up to its second transaction: the read and the guards on it. -/
def approve (s : Service) (st : Store) (tenant : Bytes) (bound : Option Bytes) (approver id note : Bytes) :
    Except RemError Pending :=
  let d : Pending := { tenant := tenant, bound := bound, actor := approver, id := id, state := .approved, note := note }
  if !s.approvalsEnabled then .error .approvalsDisabled
  else
    match st.get tenant bound id with
    | .error e => .error e
    | .ok ⟨p, _, _⟩ =>
      if p.state ≠ .proposed then .error .notProposed
      else if approver = p.proposedBy then .ok { d with refusal := some (.selfApproval p.proposedBy) }
      else if p.dryRun.blastRadius < 0 ∨ p.dryRun.note = noteUnknown then
        .ok { d with refusal := some .blastRadiusUnknown }
      else if p.dryRun.blastRadius > s.maxBlastRadius then
        .ok { d with refusal := some (.blastRadiusExceeded p.dryRun.blastRadius s.maxBlastRadius) }
      else .ok d

def reject (st : Store) (tenant : Bytes) (bound : Option Bytes) (decider id note : Bytes) : Except RemError Pending :=
  match st.get tenant bound id with
  | .error e => .error e
  | .ok r =>
    if r.proposal.state ≠ .proposed then .error .notProposed
    else .ok { tenant := tenant, bound := bound, actor := decider, id := id, state := .rejected, note := note }

end Service

/-- One transaction of a call. A decision's call reads first; `finish` is its
second transaction, at any later time. `commits` is false when the audit append
or the commit fails. -/
inductive Action where
  | propose (tenant : Bytes) (bound : Option Bytes) (proposedBy : Bytes) (input : ProposeInput) (w : World)
      (id : Bytes) (now : Int) (commits : Bool)
  | approve (tenant : Bytes) (bound : Option Bytes) (approver id note : Bytes)
  | reject (tenant : Bytes) (bound : Option Bytes) (decider id note : Bytes)
  | finish (i : Nat) (now : Int) (commits : Bool)

def Store.begin (st : Store) : Except RemError Pending → Store
  | .error _ => st
  | .ok d => { st with pending := st.pending ++ [d] }

def Service.step (s : Service) (st : Store) : Action → Option Store
  | .propose tenant bound proposedBy input w id now commits =>
    match s.propose tenant proposedBy input w id now with
    | .error _ => some st
    | .ok p => some (st.insertAudited s.audit bound p w commits)
  | .approve tenant bound approver id note => some (st.begin (s.approve st tenant bound approver id note))
  | .reject tenant bound decider id note => some (st.begin (Service.reject st tenant bound decider id note))
  | .finish i now commits =>
    match st.pending[i]? with
    | none => none
    | some d =>
      let st := { st with pending := st.pending.eraseIdx i }
      match d.refusal with
      | some reason => some (st.record s.audit d reason commits)
      | none => some (st.decideAudited s.audit d now commits)

end Probectl.Remediation
