import Probectl.Bus.Topics

/-! Whose record it is: `internal/pipeline/tenantverify.go` and `misrouted.go`. -/
namespace Probectl.Pipeline

open Bus

structure Identity where
  tenant : Bytes
  agent : Bytes
  version : Bytes
  deriving DecidableEq

inductive BindingError where
  | noTenant | tenantNotBound | bindingUnavailable | tenantOffboarded
  deriving DecidableEq

/-- The agents registry as the consumers see it: `verify tenant agent` is `none`
when the pair is bound. `records` says that it also keeps agent versions. -/
structure TenantBinding where
  verify : Bytes → Bytes → Option BindingError
  records : Bool

inductive TenantError where
  | noTenant | mixedBatch | sharedLaneForbidden
  | binding (e : BindingError)
  deriving DecidableEq

/-- The tenant a batch is stored under, whether the payload named another one,
and what `recordVersion` forwarded to the registry. -/
structure Verified where
  tenant : Bytes
  overwritten : Bool
  recorded : Option Identity
  deriving DecidableEq

def recordVersion (binding : Option TenantBinding) (tenant agent version : Bytes) : Option Identity :=
  if version = [] then none
  else
    match binding with
    | none => none
    | some b => if b.records then some ⟨tenant, agent, version⟩ else none

def verifyBinding (binding : Option TenantBinding) (tenant agent : Bytes) : Option BindingError :=
  match binding with
  | none => none
  | some b => b.verify tenant agent

def verifyBatchTenantStrict (binding : Option TenantBinding) (laneTenant : Bytes) (strict : Bool) :
    List Identity → Except TenantError Verified
  | [] => .error .noTenant
  | first :: rest =>
    if rest.any (fun id => id != first) then .error .mixedBatch
    else if first.tenant = [] then .error .noTenant
    else if laneTenant ≠ [] then
      match verifyBinding binding laneTenant first.agent with
      | some e => .error (.binding e)
      | none => .ok ⟨laneTenant, first.tenant != laneTenant,
          recordVersion binding laneTenant first.agent first.version⟩
    else if strict then .error .sharedLaneForbidden
    else
      match verifyBinding binding first.tenant first.agent with
      | some e => .error (.binding e)
      | none => .ok ⟨first.tenant, false, recordVersion binding first.tenant first.agent first.version⟩

inductive Route where
  | quarantined | failed
  | targets (busNamespace : Bytes)
  deriving DecidableEq

structure Tenancy where
  checkQuarantine : Bytes → Bool
  targetsFor : Bytes → Route

/-- The per-record gate in front of every consumer. `held` leaves the record on
the bus; the two refusals acknowledge it and differ in the counter they move. -/
inductive LaneVerdict where
  | pass | held | quarantineDrop | misrouted
  deriving DecidableEq

def refuseMisroutedShared (t : Tenancy) (msg : Message) : LaneVerdict :=
  let tenant := Bus.tenantFromKey msg.key
  if tenant = [] then .pass
  else
    match t.targetsFor tenant with
    | .quarantined => .quarantineDrop
    | .failed => .pass
    | .targets busNamespace => if busNamespace = [] then .pass else .misrouted

def refuseSharedOrQuarantined (t : Tenancy) (msg : Message) (laneTenant : Bytes) : LaneVerdict :=
  if laneTenant ≠ [] then
    if t.checkQuarantine laneTenant then .held else .pass
  else refuseMisroutedShared t msg

theorem verifyBatchTenantStrict_ok
    (ok : verifyBatchTenantStrict binding laneTenant strict (first :: rest) = .ok v) :
    (∀ id ∈ rest, id = first) ∧ first.tenant ≠ [] ∧ verifyBinding binding v.tenant first.agent = none ∧
      (laneTenant ≠ [] → v.tenant = laneTenant) ∧
      (laneTenant = [] → v.tenant = first.tenant ∧ strict = false) := by
  simp only [verifyBatchTenantStrict] at ok
  split at ok
  · cases ok
  rename_i same
  split at ok
  · cases ok
  rename_i named
  have homogeneous : ∀ id ∈ rest, id = first := by simpa using same
  split at ok
  case isTrue bound =>
    split at ok
    · cases ok
    · rename_i verified
      cases ok
      exact ⟨homogeneous, named, verified, fun _ => rfl, fun shared => absurd shared bound⟩
  case isFalse shared =>
    split at ok
    · cases ok
    rename_i lenient
    split at ok
    · cases ok
    · rename_i verified
      cases ok
      exact ⟨homogeneous, named, verified, fun bound => absurd bound shared, fun _ => ⟨rfl, by simpa using lenient⟩⟩

end Probectl.Pipeline
