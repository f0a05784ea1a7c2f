import Probectl.Lib.Strings

/-! Attribute policies over roles (`abac.go`), with the grants of `auth.go` that they narrow. -/
namespace Probectl.Auth.Abac

open Strings List

inductive PolicyEffect where
  | allow | deny
  deriving DecidableEq

/-- Attributes are maps: only the first entry of a name is read. -/
abbrev Attributes := List (Bytes × Bytes)

structure Policy where
  effect : PolicyEffect
  permission : Bytes
  subject : Attributes
  resource : Attributes
  priority : Int
  enabled : Bool

/-- An absent attribute reads as the empty text. -/
def attrsSubset (required actual : Attributes) : Bool :=
  required.all fun e => (actual.lookup e.1).getD [] == e.2

def Policy.applies (permission : Bytes) (subject resource : Attributes) (p : Policy) : Bool :=
  p.enabled && (p.permission == lit "*" || p.permission == permission) &&
    (attrsSubset p.subject subject && attrsSubset p.resource resource)

/-- One turn of the loop; `none` is the empty decision. -/
def Policy.weigh (s : Option PolicyEffect × Int) (p : Policy) : Option PolicyEffect × Int :=
  if s.1 = none ∨ s.2 < p.priority then (some p.effect, p.priority)
  else if p.priority = s.2 ∧ p.effect = .deny then (some .deny, s.2)
  else s

def evaluate (policies : List Policy) (permission : Bytes) (subject resource : Attributes) : Option PolicyEffect :=
  ((policies.filter (Policy.applies permission subject resource)).foldl Policy.weigh (none, 0)).1

inductive ScopeType where
  | tenant | organization | team | project | unknown
  deriving DecidableEq

structure PermissionGrant where
  permission : Bytes
  scopeType : ScopeType
  scopeID : Bytes

def validPermissionGrant (g : PermissionGrant) : Bool :=
  g.permission ≠ [] && match g.scopeType with
    | .tenant => g.scopeID = []
    | .organization | .team | .project => g.scopeID ≠ []
    | .unknown => false

structure Principal where
  tenantID : Bytes
  permissions : List (Bytes × Bool)
  permissionGrants : List PermissionGrant
  attributes : Attributes

def Principal.has (p : Principal) (key : Bytes) : Bool :=
  (p.permissions.lookup key).getD false ||
    p.permissionGrants.any fun g => g.permission == key && validPermissionGrant g && g.scopeType == .tenant

def Principal.hasAny (p : Principal) (key : Bytes) : Bool :=
  p.has key || p.permissionGrants.any fun g => g.permission == key && validPermissionGrant g

inductive RBACCheck where
  | global | anyScope | preverified

inductive DecisionReason where
  | allowed | unauthenticated | tenantBoundary | rbac | policyDeny
  deriving DecidableEq

def resourceTenantKey : Bytes := lit "tenant"

def RBACCheck.passes (p : Principal) (permission : Bytes) : RBACCheck → Bool
  | .global => p.has permission
  | .anyScope => p.hasAny permission
  | .preverified => true

def decide (principal : Option Principal) (permission : Bytes) (mode : RBACCheck) (policies : List Policy)
    (resource : Attributes) : DecisionReason :=
  match principal with
  | none => .unauthenticated
  | some p =>
    if ∃ tenant ∈ resource.lookup resourceTenantKey, tenant ≠ [] ∧ tenant ≠ p.tenantID then .tenantBoundary
    else if !mode.passes p permission then .rbac
    else if evaluate policies permission p.attributes resource = some .deny then .policyDeny
    else .allowed

/-- What the loop knows of the policies it has weighed. -/
def Weighed (ps : List Policy) : Option PolicyEffect × Int → Prop
  | (none, _) => ps = []
  | (some effect, best) => (∃ p ∈ ps, p.priority = best ∧ p.effect = effect) ∧
      ∀ p ∈ ps, p.priority ≤ best ∧ (p.priority = best → p.effect = .deny → effect = .deny)

theorem Weighed.weigh (weighed : Weighed ps s) (p : Policy) : Weighed (ps ++ [p]) (Policy.weigh s p) := by
  obtain ⟨decided, best⟩ := s
  unfold Policy.weigh
  cases decided with
  | none =>
    obtain rfl := weighed
    simp [Weighed]
  | some effect =>
    obtain ⟨⟨q, mem, rfl, rfl⟩, all⟩ := weighed
    simp only [reduceCtorEq, false_or]
    split
    · -- a higher priority starts over
      rename_i higher
      refine ⟨⟨p, by simp, rfl, rfl⟩, forall_mem_append.mpr ⟨fun r old => ?_, by simp⟩⟩
      have below := (all r old).1
      exact ⟨by omega, by omega⟩
    rename_i notHigher
    split
    · rename_i tie
      refine ⟨⟨p, by simp, tie.1, tie.2⟩, forall_mem_append.mpr ⟨fun r old => ?_, by simp [tie.1]⟩⟩
      exact ⟨(all r old).1, fun _ _ => rfl⟩
    · rename_i noTie
      refine ⟨⟨q, by simp [mem], rfl, rfl⟩, forall_mem_append.mpr ⟨all, forall_mem_singleton.mpr ?_⟩⟩
      exact ⟨by omega, fun same deny => absurd ⟨same, deny⟩ noTie⟩

theorem foldl_weighed (ps : List Policy) : Weighed ps (ps.foldl Policy.weigh (none, 0)) := by
  induction ps using reverseRecOn with
  | nil => rfl
  | append_singleton ps p ih =>
    rw [foldl_append]
    exact ih.weigh p

theorem weighed_deny (weighed : Weighed ps s) :
    s.1 = some .deny ↔ ∃ p ∈ ps, p.effect = .deny ∧ ∀ q ∈ ps, q.priority ≤ p.priority := by
  obtain ⟨_ | effect, best⟩ := s
  · obtain rfl := weighed
    simp
  obtain ⟨⟨p, mem, rfl, rfl⟩, all⟩ := weighed
  constructor
  · intro deny
    exact ⟨p, mem, Option.some.inj deny, fun q old => (all q old).1⟩
  rintro ⟨q, old, deny, highest⟩
  have level := highest p mem
  have below := all q old
  exact congrArg some (below.2 (by omega) deny)

theorem foldl_weigh_perm {ps qs : List Policy} (perm : ps.Perm qs) :
    (ps.foldl Policy.weigh (none, 0)).1 = (qs.foldl Policy.weigh (none, 0)).1 := by
  have weighed := foldl_weighed ps
  have weighed' := foldl_weighed qs
  have deny := (weighed_deny weighed).trans (by simpa only [perm.mem_iff] using (weighed_deny weighed').symm)
  generalize ps.foldl Policy.weigh (none, 0) = s at *
  generalize qs.foldl Policy.weigh (none, 0) = t at *
  obtain ⟨_ | _ | _, _⟩ := s <;> obtain ⟨_ | _ | _, _⟩ := t <;> simp_all [Weighed]

theorem policies_narrow (ps : List Policy) (permission : Bytes) (subject resource : Attributes)
    (principal : Option Principal) (mode : RBACCheck) :
    (∀ qs, ps.Perm qs → evaluate ps permission subject resource = evaluate qs permission subject resource) ∧
      (evaluate ps permission subject resource = some .deny ↔
        ∃ p ∈ ps, p.applies permission subject resource ∧ p.effect = .deny ∧
          ∀ q ∈ ps, q.applies permission subject resource → q.priority ≤ p.priority) ∧
      (∀ p tenant, principal = some p → resource.lookup resourceTenantKey = some tenant → tenant ≠ [] →
        tenant ≠ p.tenantID → decide principal permission mode ps resource ≠ .allowed) ∧
      (decide principal permission mode ps resource = .allowed →
        decide principal permission mode [] resource = .allowed) := by
  refine ⟨fun qs perm => foldl_weigh_perm (perm.filter _), ?_, ?_, ?_⟩
  · refine (weighed_deny (foldl_weighed _)).trans ?_
    simp [and_assoc]
  · rintro p tenant rfl held filled foreign allowed
    rw [decide, if_pos ⟨tenant, held, filled, foreign⟩] at allowed
    cases allowed
  · intro allowed
    cases principal with
    | none => cases allowed
    | some p =>
      unfold decide at allowed ⊢
      dsimp only at allowed ⊢
      split at allowed
      · cases allowed
      rename_i inside
      split at allowed
      · cases allowed
      rename_i passed
      rw [if_neg inside, if_neg passed]
      rfl

end Probectl.Auth.Abac
