import Probectl.Lib.Strings

/-! Sessions: `auth.Manager` over the session store of `internal/store/sessions.go`
and the credential locators of migration 0073. -/
namespace Probectl.Auth

open Strings

abbrev Token := Bytes

/-- What a token is stored under: the HMAC with the server's key, or the digest
without one from before keys. The two never collide. -/
inductive Hash where
  | keyed (t : Token)
  | legacy (t : Token)
  deriving DecidableEq

def Hash.token : Hash → Token
  | .keyed t => t
  | .legacy t => t

/-- `none` is the zero time. -/
structure Session where
  tenantID : Bytes
  userID : Bytes
  email : Bytes
  displayName : Bytes
  mfaSatisfied : Bool
  timeZone : Bytes
  locale : Bytes
  tenantTimeZone : Bytes
  tenantLocale : Bytes
  expiresAt : Option Int
  createdAt : Option Int
  authorizationHash : Bytes
  deriving DecidableEq

structure Row where
  hash : Hash
  tenantID : Bytes
  userID : Bytes
  email : Bytes
  displayName : Bytes
  mfaSatisfied : Bool
  timeZone : Bytes
  locale : Bytes
  tenantTimeZone : Bytes
  tenantLocale : Bytes
  expiresAt : Int
  createdAt : Int
  lastActivityAt : Int
  authorizationHash : Bytes
  replaced : Bool
  deriving DecidableEq

structure Locator where
  hash : Hash
  tenantID : Bytes
  revoked : Bool
  replaced : Bool
  deriving DecidableEq

def Locator.active (l : Locator) : Bool := !l.revoked && !l.replaced

structure Db where
  sessions : List Row := []
  locators : List Locator := []
  deriving DecidableEq

structure Manager where
  keyed : Bool
  ttl : Int
  idle : Int
  deriving DecidableEq

def newManager (keyed : Bool) (ttl : Int) : Manager :=
  ⟨keyed, if ttl ≤ 0 then 12 * 3600 * 1000000000 else ttl, 30 * 60 * 1000000000⟩

def coalesce (s fallback : Bytes) : Bytes := if s = [] then fallback else s

namespace Manager

def hashToken (m : Manager) (t : Token) : Hash := if m.keyed then .keyed t else .legacy t

def next (h : Hash) : Option Hash :=
  match h with
  | .keyed t => some (.legacy t)
  | .legacy _ => none

/-- `prepare` and the row that the insert builds. -/
def row (m : Manager) (sess : Session) (hash : Hash) (now : Int) : Row where
  hash := hash
  tenantID := sess.tenantID
  userID := sess.userID
  email := sess.email
  displayName := sess.displayName
  mfaSatisfied := sess.mfaSatisfied
  timeZone := coalesce sess.timeZone (lit "UTC")
  locale := coalesce sess.locale (lit "en")
  tenantTimeZone := coalesce sess.tenantTimeZone (lit "UTC")
  tenantLocale := coalesce sess.tenantLocale (lit "en")
  expiresAt := sess.expiresAt.getD (now + m.ttl)
  createdAt := sess.createdAt.getD now
  lastActivityAt := now
  authorizationHash := sess.authorizationHash
  replaced := false

end Manager

namespace Db

def create (db : Db) (r : Row) : Db :=
  { sessions := db.sessions ++ [r], locators := db.locators ++ [⟨r.hash, r.tenantID, false, false⟩] }

/-- `pretenant_resolve_credential`: the tenant of an active locator. -/
def resolve (db : Db) (h : Hash) : Option Bytes :=
  (db.locators.find? fun l => l.hash == h && l.active).map Locator.tenantID

def lookup (db : Db) (h : Hash) (tenant : Bytes) (idle now : Int) : Option Row :=
  db.sessions.find? fun r =>
    r.hash == h && r.tenantID == tenant && !r.replaced && decide (r.expiresAt > now) &&
      decide (r.lastActivityAt > now - idle)

def touch (db : Db) (h : Hash) (tenant : Bytes) (now : Int) : Db :=
  { db with sessions := db.sessions.map fun r =>
      if r.hash = h ∧ r.tenantID = tenant ∧ r.replaced = false then { r with lastActivityAt := now } else r }

/-- `RotateByHash`; `none` rolls the transaction back. -/
def rotate (db : Db) (old new : Hash) (sess : Session) (now : Int) : Option Db :=
  let own := fun r : Row => r.hash == old && !r.replaced && r.tenantID == sess.tenantID && r.userID == sess.userID
  let live := fun l : Locator => l.hash == old && l.tenantID == sess.tenantID && l.active
  if (db.sessions.filter own).length ≠ 1 then none
  else if !db.locators.any live then none
  else some {
    sessions := db.sessions.map fun r =>
      if own r then { r with hash := new, lastActivityAt := now, authorizationHash := sess.authorizationHash } else r
    locators := db.locators.map fun l => if live l then { l with hash := new } else l }

/-- `ReplaceAuthenticatedByHash` with `pretenant_replace_session_locator`: the
locators of the old token end, whosever they are; its rows are marked in the new
session's tenant only. -/
def replace (db : Db) (old : Hash) (legacyOld : Option Hash) (r : Row) : Option Db :=
  let hit := fun h : Hash => h == old || legacyOld == some h
  if db.locators.any fun l => hit l.hash && !l.active then none
  else some {
    sessions := (db.sessions ++ [r]).map fun q =>
      if q.tenantID == r.tenantID && hit q.hash then { q with replaced := true } else q
    locators := (db.locators.map fun l => if hit l.hash then { l with replaced := true } else l) ++
      [⟨r.hash, r.tenantID, false, false⟩] }

/-- The second transaction of `DeleteByHash`; `none` rolls it back. -/
def delete (db : Db) (h : Hash) (tenant : Bytes) : Option Db :=
  let own := fun l : Locator => l.hash == h && l.tenantID == tenant
  if !db.locators.any own then none
  else some {
    sessions := db.sessions.filter fun r => !(r.hash == h && r.tenantID == tenant && !r.replaced)
    locators := db.locators.map fun l => if own l then { l with revoked := true } else l }

end Db

/-- A call between two of its transactions. `located` is the tenant that the
locator named, once it was asked; `stale` says that the token was already spent
when the call began. -/
inductive Call where
  | rotateLegacy (old new : Token) (sess : Session)
  | resolve (token : Token) (hash : Hash) (located : Option Bytes) (stale : Bool)
  | revoke (token : Token) (hash : Hash) (located : Option Bytes)

structure Identity where
  tenantID : Bytes
  userID : Bytes
  mfaSatisfied : Bool
  expiresAt : Int
  deriving DecidableEq

def Row.identity (r : Row) : Identity := ⟨r.tenantID, r.userID, r.mfaSatisfied, r.expiresAt⟩

structure Resolved where
  token : Token
  stale : Bool
  identity : Identity
  deriving DecidableEq

/-- The database and the calls that are under way, with the history that the
statements speak about: the tokens presented or minted so far, the sessions
created and under which token, who succeeded whom, which tokens are spent, and
what was resolved. -/
structure System where
  db : Db := {}
  calls : List Call := []
  seen : List Token := [[]]
  created : List (Token × Identity) := []
  rotations : List (Token × Token) := []
  replacements : List (Token × Token) := []
  spent : List Token := []
  resolved : List Resolved := []

/-- One transaction of a call, or the begin of a call that has several. `commits`
is false when the database or the tenant scope refuses the transaction; `touches`
is false when `touchCredential` rolls back to its savepoint. -/
inductive Action where
  | issue (sess : Session) (new : Token) (now : Int) (commits : Bool)
  | issueLegacy (sess : Session) (new : Token) (now : Int) (commits : Bool)
  | rotate (old : Token) (sess : Session) (new : Token) (now : Int) (commits : Bool)
  | replaceAuthenticated (old : Token) (sess : Session) (new : Token) (now : Int) (commits : Bool)
  | resolve (token : Token)
  | revoke (token : Token)
  | advance (i : Nat) (now : Int) (commits touches : Bool)

namespace System

def present (s : System) (t : Token) : System := { s with seen := t :: s.seen }

def mint (s : System) (db : Db) (r : Row) : System :=
  { s.present r.hash.token with db := db, created := s.created ++ [(r.hash.token, r.identity)] }

/-- A token is fresh: nobody presented it or got it before it is stored. -/
def issueAs (s : System) (m : Manager) (hash : Hash) (sess : Session) (now : Int) (commits : Bool) : Option System :=
  let r := m.row sess hash now
  if hash.token ∈ s.seen then none
  else some (if commits then s.mint (s.db.create r) r else s)

def rotated (s : System) (db : Db) (old new : Token) : System :=
  { s.present new with db := db, rotations := s.rotations ++ [(old, new)], spent := old :: s.spent }

def beginRotate (s : System) (m : Manager) (old : Token) (sess : Session) (new : Token) (now : Int) (commits : Bool) :
    Option System :=
  if old = [] then some s
  else
    let s := s.present old
    if new ∈ s.seen then none
    else if !commits then some s
    else
      match s.db.rotate (m.hashToken old) (m.hashToken new) sess now with
      | some db => some (s.rotated db old new)
      | none => some (if m.keyed then { s with calls := s.calls ++ [.rotateLegacy old new sess] } else s)

def replaced (s : System) (old new : Token) : System :=
  { s with replacements := s.replacements ++ [(old, new)], spent := old :: s.spent }

def replaceAuthenticated (s : System) (m : Manager) (old : Token) (sess : Session) (new : Token) (now : Int)
    (commits : Bool) : Option System :=
  let s := s.present old
  let r := m.row { sess with createdAt := none, expiresAt := none } (m.hashToken new) now
  if new ∈ s.seen then none
  else if !commits then some s
  else if old = [] then some (s.mint (s.db.create r) r)
  else
    match s.db.replace (m.hashToken old) (if m.keyed then some (.legacy old) else none) r with
    | none => some s
    | some db => some ((s.mint db r).replaced old new)

/-- `RotateByHash` for the legacy hash. -/
def advanceRotate (s : System) (m : Manager) (old new : Token) (sess : Session) (now : Int) : Option System :=
  if new ∈ s.seen then none
  else
    match s.db.rotate (.legacy old) (m.hashToken new) sess now with
    | some db => some (s.rotated db old new)
    | none => some s

def enqueue (s : System) (c : Call) : System := { s with calls := s.calls ++ [c] }

/-- `LookupByHash` for the token's hash and then, where there is one, its legacy hash. -/
def advanceResolve (s : System) (m : Manager) (token : Token) (hash : Hash) (located : Option Bytes)
    (stale : Bool) (now : Int) (touches : Bool) : System :=
  let again :=
    match Manager.next hash with
    | some h => s.enqueue (.resolve token h none stale)
    | none => s
  match located with
  | none =>
    match s.db.resolve hash with
    | some tenant => s.enqueue (.resolve token hash (some tenant) stale)
    | none => again
  | some tenant =>
    match s.db.lookup hash tenant m.idle now with
    | some r =>
      { s with
        db := if touches then s.db.touch hash tenant now else s.db
        resolved := s.resolved ++ [⟨token, stale, r.identity⟩] }
    | none => again

/-- `DeleteByHash` is done with one hash; behind the last one the token is revoked. -/
def deleted (s : System) (token : Token) (hash : Hash) : System :=
  match Manager.next hash with
  | some h => s.enqueue (.revoke token h none)
  | none => { s with spent := token :: s.spent }

def advanceRevoke (s : System) (token : Token) (hash : Hash) (located : Option Bytes) : System :=
  match located with
  | none =>
    match s.db.resolve hash with
    | some tenant => s.enqueue (.revoke token hash (some tenant))
    | none => s.deleted token hash
  | some tenant =>
    match s.db.delete hash tenant with
    | some db => { s with db := db }.deleted token hash
    | none => s.deleted token hash

end System

def Manager.step (m : Manager) (s : System) : Action → Option System
  | .issue sess new now commits => s.issueAs m (m.hashToken new) sess now commits
  | .issueLegacy sess new now commits => s.issueAs m (.legacy new) sess now commits
  | .rotate old sess new now commits => s.beginRotate m old sess new now commits
  | .replaceAuthenticated old sess new now commits => s.replaceAuthenticated m old sess new now commits
  | .resolve token =>
    if token = [] then some s
    else some ((s.present token).enqueue (.resolve token (m.hashToken token) none (decide (token ∈ s.spent))))
  | .revoke token =>
    if token = [] then some s else some ((s.present token).enqueue (.revoke token (m.hashToken token) none))
  | .advance i now commits touches =>
    match s.calls[i]? with
    | none => none
    | some c =>
      let s := { s with calls := s.calls.eraseIdx i }
      if !commits then some s
      else
        match c with
        | .rotateLegacy old new sess => s.advanceRotate m old new sess now
        | .resolve token hash located stale => some (s.advanceResolve m token hash located stale now touches)
        | .revoke token hash located => some (s.advanceRevoke token hash located)

end Probectl.Auth
