import Probectl.Cluster.LeaseRow

/-! The singleton lease of `internal/cluster/pglease/pglease.go`: handles (`Lease`) on any
number of replicas, the PostgreSQL sessions they borrow, the session advisory lock and
the lease row. A call of a handle is cut at each answer of the server, so that other
handles, transactions and lost sessions fall between any two of its statements. -/
namespace Probectl.Lease

open Run List Ledger Option
open Function (update update_self update_of_ne)

inductive Stmt where
  | tryLock
  | write (w : Write)
  | unlock
  deriving DecidableEq

inductive Reply where
  | locked (won : Bool)
  | epoch (e : Int)
  | affected (found : Bool)
  | unlocked (held : Bool)
  | failed
  deriving DecidableEq

/-- A connection and the server's session behind it. The server may still run the
statement of a connection that the client has closed. -/
structure Session where
  alive : Bool
  pooled : Bool
  closed : Bool
  stmt : Option Stmt
  reply : Option Reply

namespace Session

def fresh : Session := ⟨true, true, false, none, none⟩

def send (x : Session) (stmt : Stmt) : Session := { x with pooled := false, stmt := some stmt, reply := none }

def replied (x : Session) (r : Reply) : Session := { x with stmt := none, reply := some r }

def read (x : Session) : Session := { x with reply := none }

/-- `conn.Release`. -/
def toPool (x : Session) : Session := { x with pooled := true, reply := none }

/-- `conn.CloseTainted`, and what the driver does to a connection whose call timed out. -/
def close (x : Session) : Session := { x with closed := true }

end Session

/-- Where a handle is in `Acquire`, `Renew` or `Release`; `held` is between the calls. -/
inductive Phase where
  | idle
  | asking (c : Nat)
  | winning (c : Nat)
  | held (c : Nat) (token : Token)
  | renewing (c : Nat) (token : Token)
  | marking (c : Nat)
  | unlocking (c : Nat)
  deriving DecidableEq

variable {c : Nat}

namespace Phase

def conn : Phase → Option Nat
  | .idle => none
  | .asking c => some c
  | .winning c => some c
  | .held c _ => some c
  | .renewing c _ => some c
  | .marking c => some c
  | .unlocking c => some c

def term : Phase → Option Nat
  | .winning c => some c
  | .held c _ => some c
  | .renewing c _ => some c
  | .marking c => some c
  | _ => none

theorem term_conn {p : Phase} (term : p.term = some c) : p.conn = some c := by
  cases p with
  | idle | asking c | unlocking c => cases term
  | _ => exact term

/-- `Acquire`, `Renew`, `Release` and `discardLockedConn` on an answer of the server. -/
def answered (holderID : Bytes) (x : Session) : Phase → Reply → Option (Phase × Session)
  | .asking c, .locked true => some (.winning c, x.send (.write (.acquire holderID)))
  | .asking _, .locked false => some (.idle, x.toPool)
  | .asking _, .failed => some (.idle, x.toPool)
  | .winning c, .epoch e => some (.held c ⟨holderID, e⟩, x.read)
  | .winning c, .failed => some (.unlocking c, x.send .unlock)
  | .renewing c token, _ => some (.held c token, x.read)
  | .marking c, _ => some (.unlocking c, x.send .unlock)
  | .unlocking _, .unlocked true => some (.idle, x.toPool)
  | .unlocking _, _ => some (.idle, x.close)
  | _, _ => none

/-- A call whose context ended, or that lost its connection, before the answer. -/
def gaveUp (x : Session) : Phase → Option (Phase × Session)
  | .asking _ => some (.idle, x.close)
  | .winning _ => some (.idle, x.close)
  | .renewing c token => some (.held c token, x.close)
  | .marking _ => some (.idle, x.close)
  | .unlocking _ => some (.idle, x.close)
  | _ => none

def renew (x : Session) : Phase → Option (Phase × Session)
  | .held c token =>
    if x.closed then some (.held c token, x) else some (.renewing c token, x.send (.write (.renew token)))
  | _ => none

/-- `Release` with the current token. -/
def release (x : Session) : Phase → Option (Phase × Session)
  | .held c token => if x.closed then some (.idle, x) else some (.marking c, x.send (.write (.release token)))
  | _ => none

end Phase

structure System where
  ledger : Ledger
  advisory : Option Nat
  session : Nat → Session
  handle : Nat → Phase
  handed : List Int

def initial : System := ⟨.empty, none, fun _ => .fresh, fun _ => .idle, []⟩

namespace System

def client (s : System) (h c : Nat) (next : Phase × Session) : System :=
  { s with session := update s.session c next.2, handle := update s.handle h next.1 }

def reply (s : System) (c : Nat) (r : Reply) : System :=
  { s with session := update s.session c ((s.session c).replied r) }

/-- The server runs the statement of session `c`. A statement that finds the row holds it
until `commit`. -/
def serve (s : System) (c : Nat) : Option System :=
  match (s.session c).stmt with
  | none => none
  | some .tryLock =>
    if s.advisory = none ∨ s.advisory = some c then some { s.reply c (.locked true) with advisory := some c }
    else some (s.reply c (.locked false))
  | some .unlock =>
    if s.advisory = some c then some { s.reply c (.unlocked true) with advisory := none }
    else some (s.reply c (.unlocked false))
  | some (.write w) =>
    if w.finds s.ledger.row then
      (s.ledger.hold c w).map fun g =>
        { s with ledger := g, session := update s.session c { s.session c with stmt := none } }
    else some (s.reply c (.affected false))

def outcome (row : Option Row) : Write → Reply
  | .acquire _ => .epoch (nextEpoch row)
  | _ => .affected true

def commit (s : System) (c : Nat) : Option System :=
  match s.ledger.writing with
  | none => none
  | some (holder, w) =>
    if holder = c then some { s.reply c (outcome s.ledger.row w) with ledger := s.ledger.commit w } else none

def fail (s : System) (c : Nat) : System := { s.reply c .failed with ledger := s.ledger.drop c }

def lose (s : System) (c : Nat) : System :=
  { s with
    ledger := s.ledger.drop c, advisory := s.advisory.filter (· ≠ c),
    session := update s.session c { s.session c with alive := false, stmt := none } }

end System

inductive Label where
  | acquire (h c : Nat)
  | answer (h : Nat)
  | giveUp (h : Nat)
  | renew (h : Nat)
  | release (h : Nat)
  | serve (c : Nat)
  | commit (c : Nat)
  | fail (c : Nat)
  | lose (c : Nat)
  | beginTx (token : Token)
  | guard (i : Nat)
  | commitTx (i : Nat)
  | abortTx (i : Nat)

def proceed (s : System) (h : Nat) (move : Session → Phase → Option (Phase × Session)) : Option System :=
  match (s.handle h).conn with
  | none => none
  | some c => (move (s.session c) (s.handle h)).map (s.client h c)

def returns (s : System) (h : Nat) : List Int :=
  match s.handle h with
  | .winning c =>
    match (s.session c).reply with
    | some (.epoch e) => [e]
    | _ => []
  | _ => []

def answer (holderID : Nat → Bytes) (s : System) (h : Nat) : Option System :=
  (proceed s h fun x p => x.reply.bind (p.answered (holderID h) x)).map fun t =>
    { t with handed := s.handed ++ returns s h }

def step (holderID : Nat → Bytes) (s : System) : Label → Option System
  | .acquire h c =>
    if s.handle h = .idle ∧ (s.session c).pooled then some (s.client h c (.asking c, (s.session c).send .tryLock))
    else none
  | .answer h => answer holderID s h
  | .giveUp h => proceed s h Phase.gaveUp
  | .renew h => proceed s h Phase.renew
  | .release h => proceed s h Phase.release
  | .serve c => if (s.session c).alive then s.serve c else none
  | .commit c => if (s.session c).alive then s.commit c else none
  | .fail c => if (s.session c).alive then some (s.fail c) else none
  | .lose c => some (s.lose c)
  | .beginTx token => some { s with ledger := s.ledger.beginTx token }
  | .guard i => (s.ledger.guard i).map fun g => { s with ledger := g }
  | .commitTx i => (s.ledger.commitTx i).map fun g => { s with ledger := g }
  | .abortTx i => some { s with ledger := s.ledger.abortTx i }

/-! Who holds the advisory lock. -/

def Fits (mine : Prop) (x : Session) : Phase → Prop
  | .idle => True
  | .asking _ =>
    x.pooled = false ∧ x.stmt ≠ some .unlock ∧ (x.reply = some (.locked true) → x.alive = true → mine)
  | .unlocking _ => x.pooled = false
  | _ => x.pooled = false ∧ x.stmt ≠ some .unlock ∧ (x.alive = true → mine)

variable {r : Reply} {x' : Session} {next : Phase × Session}

section Local

variable {mine : Prop} {x : Session} {p : Phase}

theorem Fits.borrowed (fits : Fits mine x p) (conn : p.conn = some c) : x.pooled = false := by
  cases p with
  | idle => cases conn
  | unlocking c => exact fits
  | _ => exact fits.1

theorem Fits.leads (fits : Fits mine x p) (term : p.term = some c) : x.alive = true → mine := by
  cases p with
  | idle | asking c | unlocking c => cases term
  | _ => exact fits.2.2

variable {mine' : Prop}

section
variable (fits : Fits mine x p)
include fits

theorem Fits.map (pooled : x'.pooled = x.pooled) (stmt : x.stmt ≠ some .unlock → x'.stmt ≠ some .unlock)
    (won : (x.reply = some (.locked true) → x.alive = true → mine) →
      x'.reply = some (.locked true) → x'.alive = true → mine')
    (leads : (x.alive = true → mine) → x'.alive = true → mine') : Fits mine' x' p := by
  cases p with
  | idle => trivial
  | unlocking c => exact pooled.trans fits
  | asking c => exact ⟨pooled.trans fits.1, stmt fits.2.1, won fits.2.2⟩
  | _ => exact ⟨pooled.trans fits.1, stmt fits.2.1, leads fits.2.2⟩

theorem Fits.mono (still : mine → mine') : Fits mine' x p :=
  fits.map rfl id (fun held won alive => still (held won alive)) fun held alive => still (held alive)

theorem Fits.told (other : r ≠ .locked true) : Fits mine (x.replied r) p :=
  fits.map rfl (fun _ => nofun) (fun _ won => absurd (some.inj won) other) id

theorem Fits.taken : Fits mine { x with stmt := none } p :=
  fits.map rfl (fun _ => nofun) id id

theorem Fits.locked (now : mine') : Fits mine' (x.replied (.locked true)) p :=
  fits.map rfl (fun _ => nofun) (fun _ _ _ => now) fun _ _ => now

theorem Fits.unlocked (stmt : x.stmt = some .unlock) (r : Reply) : Fits mine' (x.replied r) p := by
  cases p with
  | idle => trivial
  | unlocking c => exact fits
  | _ => exact absurd stmt fits.2.1

theorem Fits.lost : Fits mine' { x with alive := false, stmt := none } p :=
  fits.map rfl (fun _ => nofun) (fun _ _ => nofun) fun _ => nofun

end

/-- What a call comes to that was in phase `p` on the session `x` behind `c`. -/
structure Turn (mine : Prop) (c : Nat) (x : Session) (p : Phase) (next : Phase × Session) : Prop where
  fits : Fits mine next.2 next.1
  conn : next.1.conn = none ∨ next.1.conn = some c
  reply : next.2.reply = none ∨ next.2.reply = x.reply ∧ ∀ c', next.1 ≠ .asking c'
  stmt : next.2.reply ≠ none ∨ next.2.pooled = true → next.2.stmt = x.stmt
  pooled : next.2.pooled = true →
    x.reply = some (.locked false) ∨ x.reply = some (.unlocked true) ∨ x.reply = some .failed ∧ p = .asking c
  placed : next.2.pooled = true ∨ next.2.closed = true ∨ next.1.conn = some c

theorem turn_send (fits : Fits mine (x.send stmt) q) (conn : q.conn = some c) :
    Turn mine c x p (q, x.send stmt) :=
  ⟨fits, .inr conn, .inl rfl, by simp [Session.send], by simp [Session.send], .inr (.inr conn)⟩

theorem turn_pool (told : x.reply = some (.locked false) ∨ x.reply = some (.unlocked true) ∨
      x.reply = some .failed ∧ p = .asking c) : Turn mine c x p (.idle, x.toPool) :=
  ⟨trivial, .inl rfl, .inl rfl, fun _ => rfl, fun _ => told, .inl rfl⟩

section
variable (fits : Fits mine x p) (conn : p.conn = some c)
include fits conn

theorem turn_read (term : p.term = some c) : Turn mine c x p (.held c token, x.read) := by
  have borrowed := fits.borrowed conn
  refine ⟨⟨borrowed, ?_, fits.leads term⟩, .inr rfl, .inl rfl, ?_, ?_, .inr (.inr rfl)⟩
  · cases p with
    | idle | asking c | unlocking c => cases term
    | _ => exact fits.2.1
  · simp [Session.read]
  · simp [Session.read, borrowed]

theorem turn_closed (fits' : Fits mine { x with closed } q)
    (on : q = .idle ∧ closed = true ∨ q.conn = some c ∧ ∀ c', q ≠ .asking c') :
    Turn mine c x p (q, { x with closed }) := by
  have unpooled : x.pooled ≠ true := by simp [fits.borrowed conn]
  rcases on with ⟨rfl, left⟩ | ⟨here, called⟩
  · exact ⟨fits', .inl rfl, .inr ⟨rfl, nofun⟩, fun _ => rfl, fun pooled => absurd pooled unpooled, .inr (.inl left)⟩
  · exact ⟨fits', .inr here, .inr ⟨rfl, called⟩, fun _ => rfl, fun pooled => absurd pooled unpooled, .inr (.inr here)⟩

theorem turn_close : Turn mine c x p (.idle, x.close) :=
  turn_closed fits conn trivial (.inl ⟨rfl, rfl⟩)

theorem answered_turn (reply : x.reply = some r) (moved : p.answered holderID x r = some next) :
    Turn mine c x p next := by
  cases p with
  | idle => cases conn
  | held c token => simp [Phase.answered] at moved
  | asking c =>
    cases conn
    cases r with
    | locked won =>
      cases won with
      | true =>
        cases moved
        exact turn_send ⟨rfl, nofun, fits.2.2 reply⟩ rfl
      | false =>
        cases moved
        exact turn_pool (.inl reply)
    | failed =>
      cases moved
      exact turn_pool (.inr (.inr ⟨reply, rfl⟩))
    | _ => cases moved
  | winning c =>
    cases conn
    cases r with
    | epoch e =>
      cases moved
      exact turn_read fits rfl rfl
    | failed =>
      cases moved
      exact turn_send rfl rfl
    | _ => cases moved
  | renewing c token =>
    cases conn
    cases moved
    exact turn_read fits rfl rfl
  | marking c =>
    cases moved
    exact turn_send rfl conn
  | unlocking c =>
    cases r with
    | unlocked held =>
      cases held with
      | true =>
        cases moved
        exact turn_pool (.inr (.inl reply))
      | false =>
        cases moved
        exact turn_close fits conn
    | _ =>
      cases moved
      exact turn_close fits conn

theorem gaveUp_turn (moved : p.gaveUp x = some next) : Turn mine c x p next := by
  cases p with
  | idle | held c token => cases moved
  | renewing c token =>
    cases moved
    exact turn_closed fits conn fits (.inr ⟨conn, nofun⟩)
  | _ =>
    cases moved
    exact turn_close fits conn

theorem renew_turn (moved : p.renew x = some next) : Turn mine c x p next := by
  cases p with
  | held c token =>
    dsimp only [Phase.renew] at moved
    split at moved
    · cases moved
      exact turn_closed fits conn fits (.inr ⟨conn, nofun⟩)
    · cases moved
      exact turn_send ⟨rfl, nofun, fits.2.2⟩ conn
  | _ => cases moved

theorem release_turn (moved : p.release x = some next) : Turn mine c x p next := by
  cases p with
  | held c token =>
    dsimp only [Phase.release] at moved
    split at moved
    · rename_i closed
      cases moved
      exact turn_closed fits conn trivial (.inl ⟨rfl, closed⟩)
    · cases moved
      exact turn_send ⟨rfl, nofun, fits.2.2⟩ conn
  | _ => cases moved

end

end Local

def Label.calls : Label → Bool
  | .acquire _ _ | .answer _ | .giveUp _ | .renew _ | .release _ => true
  | _ => false

structure Owned (advisory : Option Nat) (session : Nat → Session) (handle : Nat → Phase) : Prop where
  fits : ∀ h c, (handle h).conn = some c → Fits (advisory = some c) (session c) (handle h)
  distinct : ∀ h h' c, (handle h).conn = some c → (handle h').conn = some c → h = h'

variable {h : Nat}

section Global

variable {advisory : Option Nat} {session : Nat → Session} {handle : Nat → Phase}

theorem Owned.server (own : Owned advisory session handle)
    (same : ∀ p, Fits (advisory = some c) (session c) p → Fits (advisory' = some c) x' p)
    (others : ∀ c', c' ≠ c → advisory = some c' → advisory' = some c') :
    Owned advisory' (update session c x') handle := by
  refine ⟨fun h c' conn => ?_, own.distinct⟩
  have fits := own.fits h c' conn
  by_cases eq : c' = c
  · subst eq
    rw [update_self]
    exact same _ fits
  · rw [update_of_ne eq]
    exact fits.mono (others c' eq)

def Private (session : Nat → Session) (handle : Nat → Phase) (h c : Nat) : Prop :=
  (handle h).conn = some c ∨ (session c).pooled = true

theorem Owned.elsewhere (own : Owned advisory session handle) (mine : Private session handle h c)
    (conn : (handle h').conn = some c) : h' = h := by
  rcases mine with here | pooled
  · exact own.distinct h' h c conn here
  · rw [(own.fits h' c conn).borrowed conn] at pooled
    cases pooled

theorem Owned.client (own : Owned advisory session handle) (mine : Private session handle h c)
    (fits : Fits (advisory = some c) next.2 next.1)
    (conn : next.1.conn = none ∨ next.1.conn = some c) :
    Owned advisory (update session c next.2) (update handle h next.1) := by
  -- the moved handle is on `c`, and no other one is
  have only : ∀ h' c', (update handle h next.1 h').conn = some c' →
      (h' = h ∧ c' = c) ∨ (h' ≠ h ∧ c' ≠ c ∧ (handle h').conn = some c') := by
    intro h' c' on
    by_cases eq : h' = h
    · subst eq
      rw [update_self] at on
      rcases conn with idle | here
      · rw [idle] at on
        cases on
      · exact .inl ⟨rfl, some.inj (on.symm.trans here)⟩
    · rw [update_of_ne eq] at on
      refine .inr ⟨eq, ?_, on⟩
      rintro rfl
      exact eq (own.elsewhere mine on)
  constructor
  · intro h' c' on
    rcases only h' c' on with ⟨rfl, rfl⟩ | ⟨away, apart, on'⟩
    · rw [update_self, update_self]
      exact fits
    · rw [update_of_ne away, update_of_ne apart]
      exact own.fits h' c' on'
  · intro h' h'' c' on on'
    rcases only h' c' on with ⟨rfl, rfl⟩ | ⟨-, apart, here⟩
    · rcases only h'' c' on' with ⟨rfl, -⟩ | ⟨-, apart, -⟩
      · rfl
      · exact absurd rfl apart
    · rcases only h'' c' on' with ⟨-, rfl⟩ | ⟨-, -, here'⟩
      · exact absurd rfl apart
      · exact own.distinct h' h'' c' here here'

end Global

/-! The epochs that are handed out. -/

structure Handed (log : List Event) (session : Nat → Session) (handed : List Int) : Prop where
  once : handed.Nodup
  committed : ∀ e ∈ handed, .acquired e ∈ log
  pending : ∀ c e, (session c).reply = some (.epoch e) → .acquired e ∈ log ∧ e ∉ handed
  apart : ∀ c c' e, (session c).reply = some (.epoch e) → (session c').reply = some (.epoch e) → c = c'

section Handed

variable {log : List Event} {session : Nat → Session} {handed : List Int}

theorem Handed.quiet (inv : Handed log session handed)
    (quiet : ∀ e, x'.reply = some (.epoch e) → (session c).reply = some (.epoch e)) :
    Handed log (update session c x') handed := by
  have old : ∀ c' e, (update session c x' c').reply = some (.epoch e) → (session c').reply = some (.epoch e) := by
    intro c' e reply
    by_cases eq : c' = c
    · subst eq
      rw [update_self] at reply
      exact quiet e reply
    · rw [update_of_ne eq] at reply
      exact reply
  exact ⟨inv.once, inv.committed, fun c' e reply => inv.pending c' e (old c' e reply),
    fun c' c'' e reply reply' => inv.apart c' c'' e (old c' e reply) (old c'' e reply')⟩

theorem Handed.grow (inv : Handed log session handed) (more : List Event) : Handed (log ++ more) session handed :=
  ⟨inv.once, fun e mem => mem_append_left _ (inv.committed e mem),
    fun c e reply => ⟨mem_append_left _ (inv.pending c e reply).1, (inv.pending c e reply).2⟩, inv.apart⟩

variable {e : Int}

theorem Handed.acquired (inv : Handed log session handed) (fresh : .acquired e ∉ log) :
    Handed (log ++ [.acquired e]) (update session c ((session c).replied (.epoch e))) handed := by
  have cases : ∀ c' e', (update session c ((session c).replied (.epoch e)) c').reply = some (.epoch e') →
      (c' = c ∧ e' = e) ∨ ((session c').reply = some (.epoch e') ∧ e' ≠ e) := by
    intro c' e' reply
    by_cases eq : c' = c
    · subst eq
      rw [update_self] at reply
      cases reply
      exact .inl ⟨rfl, rfl⟩
    · rw [update_of_ne eq] at reply
      refine .inr ⟨reply, ?_⟩
      rintro rfl
      exact fresh (inv.pending c' e' reply).1
  constructor
  · exact inv.once
  · intro e' mem
    exact mem_append_left _ (inv.committed e' mem)
  · intro c' e' reply
    rcases cases c' e' reply with ⟨-, rfl⟩ | ⟨old, -⟩
    · exact ⟨by simp, fun mem => fresh (inv.committed e' mem)⟩
    · exact ⟨mem_append_left _ (inv.pending c' e' old).1, (inv.pending c' e' old).2⟩
  · intro c' c'' e' reply reply'
    rcases cases c' e' reply with ⟨rfl, rfl⟩ | ⟨old, new⟩
    · rcases cases c'' e' reply' with ⟨rfl, -⟩ | ⟨-, new⟩
      · rfl
      · exact absurd rfl new
    · rcases cases c'' e' reply' with ⟨-, rfl⟩ | ⟨old', -⟩
      · exact absurd rfl new
      · exact inv.apart c' c'' e' old old'

theorem Handed.returned (inv : Handed log session handed) (reply : (session c).reply = some (.epoch e)) :
    Handed log (update session c (session c).read) (handed ++ [e]) := by
  obtain ⟨committed, new⟩ := inv.pending c e reply
  have old : ∀ c' e', (update session c (session c).read c').reply = some (.epoch e') →
      (session c').reply = some (.epoch e') ∧ c' ≠ c := by
    intro c' e' there
    by_cases eq : c' = c
    · subst eq
      rw [update_self] at there
      cases there
    · rw [update_of_ne eq] at there
      exact ⟨there, eq⟩
  constructor
  · exact nodup_append.mpr ⟨inv.once, nodup_singleton e, fun a mem b one eq =>
      new (mem_singleton.mp one ▸ eq ▸ mem)⟩
  · exact forall_mem_snoc inv.committed committed
  · intro c' e' there
    obtain ⟨there', ne⟩ := old c' e' there
    refine ⟨(inv.pending c' e' there').1, fun mem => ?_⟩
    rcases mem_append.mp mem with earlier | now
    · exact (inv.pending c' e' there').2 earlier
    · rw [mem_singleton.mp now] at there'
      exact ne (inv.apart c' c e there' reply)
  · intro c' c'' e' there there'
    exact inv.apart c' c'' e' (old c' e' there).1 (old c'' e' there').1

end Handed

/-! Every step keeps the invariant. -/

structure Inv (s : System) : Prop where
  ledger : s.ledger.Inv
  own : Owned s.advisory s.session s.handle
  handed : Handed s.ledger.log s.session s.handed

variable {holderID : Nat → Bytes} {s t : System}

theorem inv_initial : Inv initial := by
  refine ⟨inv_empty, ⟨fun h c conn => ?_, fun h h' c conn => ?_⟩, ⟨nodup_nil, ?_, ?_, ?_⟩⟩
  · cases conn
  · cases conn
  · intro e mem
    cases mem
  · intro c e reply
    cases reply
  · intro c c' e reply
    cases reply

theorem inv_client (inv : Inv s) (mine : Private s.session s.handle h c)
    (turn : Turn (s.advisory = some c) c (s.session c) (s.handle h) next) : Inv (s.client h c next) := by
  refine ⟨inv.ledger, inv.own.client mine turn.fits turn.conn, inv.handed.quiet fun e reply => ?_⟩
  rcases turn.reply with read | same
  · rw [read] at reply
    cases reply
  · rw [← same.1, reply]

variable {move : Session → Phase → Option (Phase × Session)}

theorem proceed_moves (done : proceed s h move = some t) :
    ∃ c next, (s.handle h).conn = some c ∧ move (s.session c) (s.handle h) = some next ∧ t = s.client h c next := by
  unfold proceed at done
  split at done
  · cases done
  · rename_i c conn
    obtain ⟨next, moved, rfl⟩ := map_eq_some_iff.mp done
    exact ⟨c, next, conn, moved, rfl⟩

section
variable (inv : Inv s)
include inv

theorem client_turn (done : step holderID s label = some t) (calls : label.calls = true) :
    ∃ h c next, Private s.session s.handle h c ∧ (∀ c', (s.handle h).conn = some c' → c' = c) ∧
      Turn (s.advisory = some c) c (s.session c) (s.handle h) next ∧
      t = { s.client h c next with handed := t.handed } ∧ (label = .answer h ∨ t.handed = s.handed) := by
  have only {h c : Nat} (conn : (s.handle h).conn = some c) c' (conn' : (s.handle h).conn = some c') : c' = c :=
    some.inj (conn'.symm.trans conn)
  cases label with
  | acquire h c =>
    obtain ⟨⟨idle, pooled⟩, ⟨⟩⟩ := ite_none_right_eq_some.mp done
    have fits : Fits (s.advisory = some c) ((s.session c).send .tryLock) (.asking c) := ⟨rfl, nofun, nofun⟩
    exact ⟨h, c, _, .inr pooled, by simp [idle, Phase.conn], turn_send fits rfl, rfl, .inr rfl⟩
  | answer h =>
    obtain ⟨t, proceeded, rfl⟩ := map_eq_some_iff.mp done
    obtain ⟨c, next, conn, moved, rfl⟩ := proceed_moves proceeded
    obtain ⟨r, reply, answered⟩ := bind_eq_some_iff.mp moved
    exact ⟨h, c, next, .inl conn, only conn, answered_turn (inv.own.fits h c conn) conn reply answered, rfl, .inl rfl⟩
  | giveUp h =>
    obtain ⟨c, next, conn, moved, rfl⟩ := proceed_moves done
    exact ⟨h, c, next, .inl conn, only conn, gaveUp_turn (inv.own.fits h c conn) conn moved, rfl, .inr rfl⟩
  | renew h =>
    obtain ⟨c, next, conn, moved, rfl⟩ := proceed_moves done
    exact ⟨h, c, next, .inl conn, only conn, renew_turn (inv.own.fits h c conn) conn moved, rfl, .inr rfl⟩
  | release h =>
    obtain ⟨c, next, conn, moved, rfl⟩ := proceed_moves done
    exact ⟨h, c, next, .inl conn, only conn, release_turn (inv.own.fits h c conn) conn moved, rfl, .inr rfl⟩
  | _ => cases calls

theorem inv_answer (done : answer holderID s h = some t) : Inv t := by
  obtain ⟨t, proceeded, rfl⟩ := map_eq_some_iff.mp done
  obtain ⟨c, next, conn, moved, rfl⟩ := proceed_moves proceeded
  obtain ⟨r, reply, answered⟩ := bind_eq_some_iff.mp moved
  have kept := inv_client inv (.inl conn) (answered_turn (inv.own.fits h c conn) conn reply answered)
  refine ⟨kept.ledger, kept.own, ?_⟩
  -- only the answer to the acquiring statement adds to what was handed out
  cases phase : s.handle h with
  | winning c' =>
    rw [phase] at conn
    cases conn
    cases r with
    | epoch e =>
      rw [phase] at answered
      cases answered
      simp only [returns, phase, reply]
      exact inv.handed.returned reply
    | _ =>
      simp only [returns, phase, reply, append_nil]
      exact kept.handed
  | _ =>
    simp only [returns, phase, append_nil]
    exact kept.handed

theorem Inv.reply (c : Nat) (r : Reply) (lock : r ≠ .locked true) (epoch : ∀ e, r ≠ .epoch e) (ledger : g.Inv)
    (log : g.log = s.ledger.log) : Inv { s.reply c r with ledger := g } := by
  refine ⟨ledger, inv.own.server (fun p fits => fits.told lock) fun c' _ held => held, ?_⟩
  rw [log]
  exact inv.handed.quiet fun e reply => absurd (some.inj reply) (epoch e)

theorem inv_serve (done : s.serve c = some t) : Inv t := by
  unfold System.serve at done
  split at done
  · cases done
  · split at done
    · rename_i free
      cases done
      refine ⟨inv.ledger, inv.own.server (fun p fits => fits.locked rfl) fun c' ne held => ?_, ?_⟩
      · -- the lock was free or already this session's
        rcases free with none | mine
        · rw [none] at held
          cases held
        · rw [mine] at held
          exact absurd (some.inj held).symm ne
      · exact inv.handed.quiet fun e reply => by cases reply
    · cases done
      exact inv.reply c (.locked false) nofun nofun inv.ledger rfl
  · rename_i stmt
    split at done
    · rename_i mine
      cases done
      refine ⟨inv.ledger, inv.own.server (fun p fits => fits.unlocked stmt _) fun c' ne held => ?_, ?_⟩
      · rw [mine] at held
        exact absurd (some.inj held).symm ne
      · exact inv.handed.quiet fun e reply => by cases reply
    · cases done
      exact inv.reply c (.unlocked false) nofun nofun inv.ledger rfl
  · split at done
    · obtain ⟨g, began, rfl⟩ := map_eq_some_iff.mp done
      refine ⟨inv_hold inv.ledger began, inv.own.server (fun p fits => fits.taken) fun c' _ held => held, ?_⟩
      rw [hold_log began]
      exact inv.handed.quiet fun e reply => reply
    · cases done
      exact inv.reply c (.affected false) nofun nofun inv.ledger rfl

theorem inv_commit (done : s.commit c = some t) : Inv t := by
  unfold System.commit at done
  split at done
  · cases done
  rename_i holder w writing
  split at done
  · rename_i mine
    subst mine
    cases done
    have ledger := inv_commit inv.ledger writing
    cases w with
    | acquire holderID =>
      refine ⟨ledger, inv.own.server (fun p fits => fits.told (by simp [System.outcome])) fun c' _ held => held, ?_⟩
      apply inv.handed.acquired
      intro mem
      exact absurd (before_next inv.ledger mem) (Int.lt_irrefl _)
    | renew token | release token => exact inv.reply holder (.affected true) nofun nofun ledger rfl
  · cases done

theorem inv_lose (c : Nat) : Inv (s.lose c) := by
  refine ⟨inv_drop inv.ledger c, inv.own.server (fun p fits => fits.lost) fun c' ne held => ?_, ?_⟩
  · simp [System.lose, held, ne]
  · exact inv.handed.quiet fun e reply => reply

theorem Inv.transact (ledger : g.Inv) (log : g.log = s.ledger.log ++ more) :
    Inv { s with ledger := g } := by
  refine ⟨ledger, inv.own, ?_⟩
  rw [log]
  exact inv.handed.grow more

theorem inv_step (label : Label) (done : step holderID s label = some t) : Inv t := by
  cases label with
  | answer h => exact inv_answer inv done
  | acquire h c | giveUp h | renew h | release h =>
    obtain ⟨h, c, next, mine, -, turn, same, _ | handed⟩ := client_turn inv done rfl
    · contradiction
    · rw [same, handed]
      exact inv_client inv mine turn
  | serve c =>
    obtain ⟨-, served⟩ := ite_none_right_eq_some.mp done
    exact inv_serve inv served
  | commit c =>
    obtain ⟨-, committed⟩ := ite_none_right_eq_some.mp done
    exact inv_commit inv committed
  | fail c =>
    obtain ⟨-, ⟨⟩⟩ := ite_none_right_eq_some.mp done
    exact inv.reply c .failed nofun nofun (inv_drop inv.ledger c) rfl
  | lose c =>
    cases done
    exact inv_lose inv c
  | beginTx token =>
    cases done
    exact inv.transact (inv_beginTx inv.ledger token) (append_nil _).symm
  | guard i =>
    obtain ⟨g, guarded, rfl⟩ := map_eq_some_iff.mp done
    have log : g.log = s.ledger.log ++ [] := by rw [guard_log guarded, append_nil]
    exact inv.transact (inv_guard inv.ledger guarded) log
  | commitTx i =>
    obtain ⟨g, committed, rfl⟩ := map_eq_some_iff.mp done
    obtain ⟨more, log⟩ := commitTx_log committed
    exact inv.transact (inv_commitTx inv.ledger committed) log
  | abortTx i =>
    cases done
    exact inv.transact (inv_abortTx inv.ledger i) (append_nil _).symm

end

theorem inv_run (ran : run (step holderID) initial labels = some s) : Inv s :=
  run_kept Inv (fun _ label _ inv done => inv_step inv label done) inv_initial ran

/-- Along every interleaving the committed acquisitions have increasing epochs, each of
which `Acquire` returns at most once; two handles whose terms are not released never
both have a living session; and a transaction guarded with an epoch commits before every
acquisition with a greater one. -/
theorem singleton_fenced {labels : List Label} (ran : run (step holderID) initial labels = some s) :
    (epochs s.ledger.log).Pairwise (· < ·) ∧
      (s.handed.Nodup ∧ ∀ e ∈ s.handed, e ∈ epochs s.ledger.log) ∧
      (∀ h h' c c', (s.handle h).term = some c → (s.handle h').term = some c' →
        (s.session c).alive = true → (s.session c').alive = true → h = h') ∧
      ∀ pre e post, s.ledger.log = pre ++ .wrote e :: post → ∀ a ∈ epochs pre, a ≤ e := by
  have inv := inv_run ran
  refine ⟨epochs_increase inv.ledger.ordered, ⟨inv.handed.once, fun e mem => ?_⟩, ?_, ?_⟩
  · exact mem_filterMap.mpr ⟨.acquired e, inv.handed.committed e mem, rfl⟩
  · intro h h' c c' term term' alive alive'
    have conn := Phase.term_conn term
    have conn' := Phase.term_conn term'
    have holds := (inv.own.fits h c conn).leads term alive
    have holds' := (inv.own.fits h' c' conn').leads term' alive'
    cases some.inj (holds.symm.trans holds')
    exact inv.own.distinct h h' c conn conn'
  · intro pre e post split
    exact wrote_latest inv.ledger.ordered split

/-- Handle 0 leads, loses its session and is paused inside a transaction that it has not
guarded yet; handle 1 takes over, and the guard fences handle 0. -/
def takeover : List Label :=
  [.acquire 0 0, .serve 0, .answer 0, .serve 0, .commit 0, .answer 0, .beginTx ⟨[1], 1⟩, .guard 0, .commitTx 0,
    .beginTx ⟨[1], 1⟩, .lose 0, .acquire 1 1, .serve 1, .answer 1, .serve 1, .commit 1, .answer 1, .guard 0,
    .beginTx ⟨[2], 2⟩, .guard 0, .commitTx 0]

def holders (h : Nat) : Bytes := [UInt8.ofNat (h + 1)]

theorem takeover_runs : (run (step holders) initial takeover).map (fun s => (s.ledger.log, s.handed)) =
    some ([.acquired 1, .wrote 1, .acquired 2, .wrote 2], [1, 2]) := by decide +kernel

theorem singleton_fenced_takeover :
    ∃ s, run (step holders) initial takeover = some s ∧ s.ledger.log = [.acquired 1, .wrote 1, .acquired 2, .wrote 2] ∧
      (epochs s.ledger.log).Pairwise (· < ·) := by
  obtain ⟨s, ran, seen⟩ := map_eq_some_iff.mp takeover_runs
  exact ⟨s, ran, (Prod.ext_iff.mp seen).1, (singleton_fenced ran).1⟩

end Probectl.Lease
