import Probectl.Lib.RowPolicy
import Probectl.Lib.Strings

/-! The reader scope of the per-tenant databases: `siloscope.go` of
`internal/store/chclient`, with the policy statements of `rowpolicy.go`. -/
namespace Probectl.Chclient

open Strings RowPolicy Run List

def siloReaderPolicy : Bytes := lit "probectl_reader_scope"

def identStart (b : UInt8) : Bool := isLower b || isUpper b || b == 95
def identRest (b : UInt8) : Bool := identStart b || isDigit b

def siloIdent (s : Bytes) : Bool := headTail identStart identRest 0 (some 190) s
def siloUser (s : Bytes) : Bool := headTail identStart identRest 0 (some 62) s

structure SiloTable where
  name : Bytes
  engine : Bytes
  tenantColumn : Bool
  deriving DecidableEq

def SiloTable.holdsRows (t : SiloTable) : Bool := !(lit "View").isSuffixOf t.engine

inductive SiloError where
  | scopeUnbound
  | malformedDatabase (database : Bytes)
  | listTables
  | listTenantColumns
  | unnamableTable (database table : Bytes)
  | noTenantColumn (database table : Bytes)
  | malformedReaderUser (user : Bytes)
  | malformedTenantSetting (setting : Bytes)
  deriving DecidableEq

def siloDataTables (database : Bytes) (tables : List SiloTable) : Except SiloError (List SiloTable) :=
  if !siloIdent database then .error (.malformedDatabase database)
  else (tables.filter SiloTable.holdsRows).mapM fun t =>
    if !siloIdent t.name then .error (.unnamableTable database t.name)
    else if !t.tenantColumn then .error (.noTenantColumn database t.name)
    else .ok t

/-- The reader user and the table a statement names; the database, the policy's
name and the tenant setting are the same in every statement of a run. -/
abbrev Ddl := Statement Bytes Bytes

def quotePolicyUser (user : Bytes) : Bytes :=
  lit "`" ++ user.flatMap (fun b => if b = 92 then [92, 92] else if b = 96 then [92, 96] else [b]) ++ lit "`"

def policyBody (database setting table user : Bytes) : Bytes :=
  siloReaderPolicy ++ lit " ON " ++ database ++ lit "." ++ table ++
    lit " FOR SELECT USING tenant_id = getSetting('" ++ setting ++ lit "') TO " ++ quotePolicyUser user

def text (database setting : Bytes) : Ddl → Bytes
  | .createPolicy t u => lit "CREATE ROW POLICY IF NOT EXISTS " ++ policyBody database setting t u
  | .alterPolicy t u => lit "ALTER ROW POLICY " ++ policyBody database setting t u
  | .dropPolicy t =>
    lit "DROP ROW POLICY IF EXISTS " ++ siloReaderPolicy ++ lit " ON " ++ database ++ lit "." ++ t
  | .grantSelect t u => lit "GRANT SELECT ON " ++ database ++ lit "." ++ t ++ lit " TO " ++ quotePolicyUser u
  | .revokeSelect u => lit "REVOKE SELECT ON " ++ database ++ lit ".* FROM " ++ quotePolicyUser u

def readerRowPolicyStatements (table user : Bytes) : List Ddl := [.createPolicy table user, .alterPolicy table user]

def scopeTables (user : Bytes) (tables : List Bytes) : List Ddl :=
  tables.flatMap fun t => readerRowPolicyStatements t user ++ [.grantSelect t user]

def unscopeTables (user : Bytes) (tables : List Bytes) : List Ddl :=
  .revokeSelect user :: tables.map .dropPolicy

def siloReaderScopeStatements (database : Bytes) (tables : List SiloTable) (tenantSetting readerUser : Bytes) :
    Except SiloError (List Ddl) :=
  if !siloUser readerUser then .error (.malformedReaderUser readerUser)
  else if !siloIdent tenantSetting then .error (.malformedTenantSetting tenantSetting)
  else (siloDataTables database tables).map fun data => scopeTables readerUser (data.map (·.name))

def siloReaderRevokeStatements (database : Bytes) (tables : List SiloTable) (readerUser : Bytes) :
    Except SiloError (List Ddl) :=
  if !siloUser readerUser then .error (.malformedReaderUser readerUser)
  else (siloDataTables database tables).map fun data => unscopeTables readerUser (data.map (·.name))

/-- The two catalog queries, `none` for one that fails: every table with its
engine, and the tables that have a `tenant_id` column. -/
structure Catalog where
  tables : Option (List (Bytes × Bytes))
  tenantColumns : Option (List Bytes)

def siloCatalog (database : Bytes) (c : Catalog) : Except SiloError (List SiloTable) :=
  if !siloIdent database then .error (.malformedDatabase database)
  else
    match c.tables, c.tenantColumns with
    | none, _ => .error .listTables
    | _, none => .error .listTenantColumns
    | some rows, some columns => .ok (rows.map fun r => ⟨r.1, r.2, columns.contains r.1⟩)

/-- `control` and `reader` say that the two connections are configured. -/
structure SiloScope where
  control : Bool
  reader : Bool
  readerUser : Bytes
  tenantSetting : Bytes

namespace SiloScope

def ensure (s : SiloScope) (database : Bytes) (c : Catalog) : Except SiloError (List Ddl) :=
  if !s.control || !s.reader || trimSpace s.readerUser == [] then .error .scopeUnbound
  else do siloReaderScopeStatements database (← siloCatalog database c) s.tenantSetting s.readerUser

def revoke (s : SiloScope) (database : Bytes) (c : Catalog) : Except SiloError (List Ddl) :=
  if !s.control || trimSpace s.readerUser == [] then .error .scopeUnbound
  else do siloReaderRevokeStatements database (← siloCatalog database c) s.readerUser

end SiloScope

inductive Operation where
  | ensure | revoke
  deriving DecidableEq

/-- One call, which ends behind the first `completed` of its statements: the next
one failed, or there was none. -/
structure Call where
  operation : Operation
  scope : SiloScope
  catalog : Catalog
  completed : Nat

namespace Call

def statements (database : Bytes) (c : Call) : Except SiloError (List Ddl) :=
  match c.operation with
  | .ensure => c.scope.ensure database c.catalog
  | .revoke => c.scope.revoke database c.catalog

def executed (database : Bytes) (c : Call) : List Ddl :=
  match c.statements database with
  | .error _ => []
  | .ok stmts => stmts.take c.completed

def apply (database : Bytes) (s : Access Bytes Bytes) (c : Call) : Option (Access Bytes Bytes) :=
  run step s (c.executed database)

end Call

def rebinds : Ddl → Option Bytes
  | .alterPolicy t _ => some t
  | .dropPolicy t => some t
  | _ => none

def Spares (s : Access Bytes Bytes) (user : Bytes) (stmts : List Ddl) : Prop :=
  ∀ st ∈ stmts, ∀ t, rebinds st = some t → OnlyReader s t user

variable {s : Access Bytes Bytes} {user : Bytes} {rest : List Ddl} {st : Ddl}

theorem spares_cons :
    Spares s user (st :: rest) ↔ (∀ t, rebinds st = some t → OnlyReader s t user) ∧ Spares s user rest :=
  forall_mem_cons

theorem spares_congr (same : ∀ v x, v ≠ user → s.holds v x = t.holds v x)
    (stmts : List Ddl) : Spares s user stmts ↔ Spares t user stmts := by
  have only : ∀ x, OnlyReader s x user ↔ OnlyReader t x user := by
    intro x
    apply forall_congr'
    intro v
    apply imp_congr_right
    intro other
    rw [same v x other]
  simp only [Spares, only]

theorem visits_step (guarded : Guarded s) :
    Visits step Guarded s (st :: rest) ↔ Visits step Guarded (exec s st) rest := by
  simp [visits_cons, guarded, step]

theorem visits_start (visits : Visits step Guarded s rest) : Guarded s :=
  visits [] rest rfl s rfl

theorem created_bound (s : Access Bytes Bytes) (t user : Bytes) :
    (exec s (.createPolicy t user)).bound t ≠ none := by
  dsimp only [exec]
  split
  · exact Option.some_ne_none user
  · rename_i absent
    simpa using absent

theorem altered_bound (user : Bytes) (present : s.bound t ≠ none) :
    (exec s (.alterPolicy t user)).bound t = some user := by
  simp [exec, present]

theorem scopeTable_visits (guarded : Guarded s) (t user : Bytes) (rest : List Ddl) :
    Visits step Guarded s (.createPolicy t user :: .alterPolicy t user :: .grantSelect t user :: rest) ↔
      OnlyReader s t user ∧ Visits step Guarded
        (exec (exec (exec s (.createPolicy t user)) (.alterPolicy t user)) (.grantSelect t user)) rest := by
  have created := guarded_create guarded t user
  have altered := guarded_alter created user (created_bound s t user)
  rw [visits_step guarded, visits_step created]
  constructor
  · intro visits
    have kept := visits_start visits
    exact ⟨altered.mp kept, (visits_step kept).mp visits⟩
  · rintro ⟨only, visits⟩
    exact (visits_step (altered.mpr only)).mpr visits

theorem scopeTables_visits (user : Bytes) (tables : List Bytes) (completed : Nat)
    (guarded : Guarded s) : Visits step Guarded s ((scopeTables user tables).take completed) ↔
      Spares s user ((scopeTables user tables).take completed) := by
  induction tables generalizing completed s with
  | nil => simp [scopeTables, Spares, visits_nil, guarded]
  | cons t rest ih =>
    have created := guarded_create guarded t user
    have shape : scopeTables user (t :: rest) =
      .createPolicy t user :: .alterPolicy t user :: .grantSelect t user :: scopeTables user rest := rfl
    rw [shape]
    -- a run may stop in front of the table, behind either policy statement, or behind the grant
    rcases completed with _ | _ | _ | completed
    · simp [Spares, visits_nil, guarded]
    · simp [visits_step guarded, visits_nil, created, Spares, rebinds]
    · have altered := guarded_alter created user (created_bound s t user)
      simp only [take_succ_cons, take_zero, visits_step guarded, visits_step created, visits_nil]
      rw [altered]
      simp [Spares, rebinds, OnlyReader, exec]
    · simp only [take_succ_cons, scopeTable_visits guarded, spares_cons]
      have others : ∀ v x, v ≠ user → (exec (exec (exec s (.createPolicy t user)) (.alterPolicy t user))
          (.grantSelect t user)).holds v x = s.holds v x := by
        intro v x other
        simp [exec, other]
      have bound := altered_bound user (created_bound s t user)
      constructor
      · rintro ⟨only, visits⟩
        have later := (ih completed (visits_start visits)).mp visits
        exact ⟨by rintro x ⟨⟩, fun x named => Option.some.inj named ▸ only, by rintro x ⟨⟩, (spares_congr others _).mp later⟩
      · rintro ⟨-, only, -, later⟩
        have only := only t rfl
        have kept := (guarded_alter created user (created_bound s t user)).mpr only
        exact ⟨only, (ih completed (guarded_grant kept bound)).mpr ((spares_congr others _).mpr later)⟩

theorem dropTables_visits (tables : List Bytes) (completed : Nat)
    (guarded : Guarded s) (revoked : ∀ x, s.holds user x = false) :
    Visits step Guarded s ((tables.map Statement.dropPolicy).take completed) ↔
      Spares s user ((tables.map Statement.dropPolicy).take completed) := by
  induction tables generalizing completed s with
  | nil => simp [Spares, visits_nil, guarded]
  | cons t rest ih =>
    cases completed with
    | zero => simp [Spares, visits_nil, guarded]
    | succ completed =>
      simp only [map_cons, take_succ_cons, visits_step guarded, spares_cons]
      have unread : OnlyReader s t user ↔ ∀ v, s.holds v t = false := by
        constructor
        · intro only v
          by_cases same : v = user
          · rw [same, revoked]
          · exact only v same
        · intro none v _
          exact none v
      constructor
      · intro visits
        have kept := visits_start visits
        have only := unread.mpr ((guarded_drop guarded t).mp kept)
        exact ⟨fun x named => Option.some.inj named ▸ only, (ih completed kept revoked).mp visits⟩
      · rintro ⟨only, later⟩
        have kept := (guarded_drop guarded t).mpr (unread.mp (only t rfl))
        exact (ih completed kept revoked).mpr later

theorem unscopeTables_visits (user : Bytes) (tables : List Bytes) (completed : Nat)
    (guarded : Guarded s) : Visits step Guarded s ((unscopeTables user tables).take completed) ↔
      Spares s user ((unscopeTables user tables).take completed) := by
  cases completed with
  | zero => simp [Spares, visits_nil, guarded]
  | succ completed =>
    have others : ∀ v x, v ≠ user → (exec s (.revokeSelect user)).holds v x = s.holds v x := by
      intro v x other
      simp [exec, other]
    have revoked : ∀ x, (exec s (.revokeSelect user)).holds user x = false := by simp [exec]
    rw [unscopeTables, take_succ_cons, visits_step guarded, spares_cons,
      dropTables_visits tables completed (guarded_revoke guarded user) revoked, spares_congr others]
    simp [rebinds]

variable (database : Bytes)

namespace Call

theorem statements_ok {database : Bytes} {c : Call} (ok : c.statements database = .ok stmts) :
    ∃ tables, stmts = scopeTables c.scope.readerUser tables ∨ stmts = unscopeTables c.scope.readerUser tables := by
  unfold statements at ok
  split at ok
  case h_1 =>
    unfold SiloScope.ensure siloReaderScopeStatements at ok
    split at ok
    · cases ok
    obtain ⟨tables, _, ok⟩ := bind_ok ok
    split at ok
    · cases ok
    split at ok
    · cases ok
    cases found : siloDataTables database tables with
    | error e => simp [found, Except.map] at ok
    | ok data => exact ⟨_, .inl (by simpa [found, Except.map] using ok.symm)⟩
  case h_2 =>
    unfold SiloScope.revoke siloReaderRevokeStatements at ok
    split at ok
    · cases ok
    obtain ⟨tables, _, ok⟩ := bind_ok ok
    split at ok
    · cases ok
    cases found : siloDataTables database tables with
    | error e => simp [found, Except.map] at ok
    | ok data => exact ⟨_, .inr (by simpa [found, Except.map] using ok.symm)⟩

/-- At the start of the call nobody but its reader user holds SELECT on a table
whose policy the call rebinds or drops. -/
def Undisturbing (database : Bytes) (s : Access Bytes Bytes) (c : Call) : Prop :=
  Spares s c.scope.readerUser (c.executed database)

theorem executed_visits (c : Call) (guarded : Guarded s) :
    Visits step Guarded s (c.executed database) ↔ c.Undisturbing database s := by
  unfold Undisturbing executed
  split
  case h_1 => simp [Spares, visits_nil, guarded]
  case h_2 stmts ok =>
    obtain ⟨tables, rfl | rfl⟩ := statements_ok ok
    · exact scopeTables_visits _ tables c.completed guarded
    · exact unscopeTables_visits _ tables c.completed guarded

end Call

theorem calls_visits (calls : List Call) (guarded : Guarded s) :
    Visits step Guarded s (calls.flatMap (Call.executed database)) ↔
      Along (Call.apply database) (fun s c => c.Undisturbing database s) s calls := by
  induction calls generalizing s with
  | nil => simp [visits_nil, guarded, Along]
  | cons c rest ih =>
    rw [flatMap_cons, visits_append, c.executed_visits database guarded]
    constructor
    · rintro ⟨undisturbed, later⟩ t applied
      have kept := visits_start (later t applied)
      exact ⟨undisturbed, (ih kept).mp (later t applied)⟩
    · intro along
      obtain ⟨undisturbed, later⟩ := along _ (run_step s (c.executed database))
      refine ⟨undisturbed, fun t applied => ?_⟩
      cases (run_step s _).symm.trans applied
      have kept : Guarded ((c.executed database).foldl exec s) :=
        (c.executed_visits database guarded).mpr undisturbed _ [] (append_nil _).symm _ (run_step s _)
      exact (ih kept).mpr later

/-- At no moment of a sequence of calls on a fresh database is a table readable
unfiltered, if and only if no call rebinds or drops the policy of a table on
which a user other than its own reader still holds SELECT. -/
theorem never_unfiltered_iff (database : Bytes) (calls : List Call) :
    Visits step Guarded {} (calls.flatMap (Call.executed database)) ↔
      Along (Call.apply database) (fun s c => c.Undisturbing database s) {} calls :=
  calls_visits database calls guarded_empty

def acmeCatalog : Catalog := ⟨some [(lit "flows", lit "MergeTree")], some [lit "flows"]⟩

def readerScope (user : Bytes) : SiloScope := ⟨true, true, user, lit "probectl_tenant"⟩

def rotation : List Call :=
  [⟨.ensure, readerScope (lit "reader_a"), acmeCatalog, 3⟩, ⟨.ensure, readerScope (lit "reader_b"), acmeCatalog, 3⟩]

example : ((rotation.take 1).flatMap (Call.executed (lit "silo_acme"))).map (text (lit "silo_acme") (lit "probectl_tenant")) =
    [lit "CREATE ROW POLICY IF NOT EXISTS probectl_reader_scope ON silo_acme.flows FOR SELECT USING tenant_id = getSetting('probectl_tenant') TO `reader_a`",
      lit "ALTER ROW POLICY probectl_reader_scope ON silo_acme.flows FOR SELECT USING tenant_id = getSetting('probectl_tenant') TO `reader_a`",
      lit "GRANT SELECT ON silo_acme.flows TO `reader_a`"] := by
  decide +kernel

/-- Rotating the reader login leaves the old one its grant without a policy. -/
theorem rotated_reader_unfiltered :
    (∃ s, run step {} (rotation.flatMap (Call.executed (lit "silo_acme"))) = some s ∧
      s.holds (lit "reader_a") (lit "flows") = true ∧ s.bound (lit "flows") = some (lit "reader_b")) ∧
    ¬ Visits step Guarded {} (rotation.flatMap (Call.executed (lit "silo_acme"))) := by
  generalize reached : rotation.flatMap (Call.executed (lit "silo_acme")) = stmts
  have held : (stmts.foldl exec {}).holds (lit "reader_a") (lit "flows") = true := by
    rw [← reached]
    decide +kernel
  have bound : (stmts.foldl exec {}).bound (lit "flows") = some (lit "reader_b") := by
    rw [← reached]
    decide +kernel
  refine ⟨⟨_, run_step {} stmts, held, bound⟩, fun visits => ?_⟩
  have own := visits stmts [] (append_nil stmts).symm _ (run_step {} stmts) _ _ held
  rw [bound] at own
  revert own
  decide

end Probectl.Chclient
