import Probectl.Lib.Run
import Probectl.Lib.Strings

/-! The row of one lease in `cluster_singleton_leases` under PostgreSQL's row locks: the
statements of `internal/cluster/pglease/pglease.go` that write it, each a transaction
of its own, and the transactions that `Guard` runs in. -/
namespace Probectl.Lease

open List

structure Token where
  holderID : Bytes
  epoch : Int
  deriving DecidableEq

structure Row where
  epoch : Int
  holderID : Bytes
  released : Bool
  deriving DecidableEq

def Row.current (r : Row) (token : Token) : Bool :=
  decide (r.epoch = token.epoch) && decide (r.holderID = token.holderID) && !r.released

inductive Write where
  | acquire (holderID : Bytes)
  | renew (token : Token)
  | release (token : Token)
  deriving DecidableEq

def Write.finds : Write → Option Row → Bool
  | .acquire _, _ => true
  | .renew token, row => row.any (·.current token)
  | .release token, row => row.any (·.current token)

def nextEpoch : Option Row → Int
  | none => 1
  | some r => r.epoch + 1

def Write.apply : Write → Option Row → Option Row
  | .acquire holderID, row => some ⟨nextEpoch row, holderID, false⟩
  | .renew _, row => row
  | .release _, row => row.map fun r => { r with released := true }

structure Tx where
  token : Token
  guarded : Bool
  deriving DecidableEq

/-- The zero token locks nothing. -/
def Tx.shares (tx : Tx) : Bool := tx.guarded && decide (tx.token.epoch ≠ 0)

inductive Event where
  | acquired (epoch : Int)
  | wrote (epoch : Int)
  deriving DecidableEq

structure Ledger where
  row : Option Row
  writing : Option (Nat × Write)
  txs : List Tx
  log : List Event
  deriving DecidableEq

namespace Ledger

def empty : Ledger := ⟨none, none, [], []⟩

/-- No other statement writes the row and no transaction shares it. -/
def free (g : Ledger) : Bool := g.writing.isNone && g.txs.all fun tx => !tx.shares

def hold (g : Ledger) (session : Nat) (w : Write) : Option Ledger :=
  if g.free then some { g with writing := some (session, w) } else none

def commit (g : Ledger) (w : Write) : Ledger :=
  { g with
    row := w.apply g.row, writing := none,
    log :=
      match w with
      | .acquire _ => g.log ++ [.acquired (nextEpoch g.row)]
      | _ => g.log }

def drop (g : Ledger) (session : Nat) : Ledger :=
  { g with writing := g.writing.filter fun w => w.1 ≠ session }

def beginTx (g : Ledger) (token : Token) : Ledger := { g with txs := g.txs ++ [⟨token, false⟩] }

/-- `Guard` in a transaction: it waits for a statement that writes the row it wants. A
fenced transaction is rolled back. -/
def guard (g : Ledger) (i : Nat) : Option Ledger :=
  match g.txs[i]? with
  | none => none
  | some tx =>
    if tx.token.epoch = 0 then some { g with txs := g.txs.set i { tx with guarded := true } }
    else if g.row.any (·.current tx.token) then
      if g.writing.isNone then some { g with txs := g.txs.set i { tx with guarded := true } } else none
    else some { g with txs := g.txs.eraseIdx i }

def commitTx (g : Ledger) (i : Nat) : Option Ledger :=
  match g.txs[i]? with
  | none => none
  | some tx =>
    if tx.guarded then
      some { g with
        txs := g.txs.eraseIdx i, log := if tx.token.epoch = 0 then g.log else g.log ++ [.wrote tx.token.epoch] }
    else none

def abortTx (g : Ledger) (i : Nat) : Ledger := { g with txs := g.txs.eraseIdx i }

end Ledger

/-! The order of the commits. -/

def Event.Before : Event → Event → Prop
  | .acquired a, .acquired b => a < b
  | .acquired a, .wrote e => a ≤ e
  | .wrote _, _ => True

structure Ledger.Inv (g : Ledger) : Prop where
  ordered : g.log.Pairwise Event.Before
  latest : ∀ a, .acquired a ∈ g.log → ∃ r, g.row = some r ∧ a ≤ r.epoch
  shared : ∀ tx ∈ g.txs, tx.shares = true → g.writing = none ∧ ∃ r, g.row = some r ∧ r.epoch = tx.token.epoch

namespace Ledger

variable {g : Ledger}

theorem inv_empty : empty.Inv := by
  constructor
  · exact .nil
  · intro a mem
    cases mem
  · intro tx mem
    cases mem

theorem Inv.fewer (inv : g.Inv) {txs : List Tx} (sub : ∀ tx ∈ txs, tx.shares = true → tx ∈ g.txs) :
    Inv { g with txs := txs } :=
  { inv with shared := fun tx mem shares => inv.shared tx (sub tx mem shares) shares }

theorem free_iff : g.free = true ↔ g.writing = none ∧ ∀ tx ∈ g.txs, tx.shares = false := by
  simp [free]

variable {session : Nat} {w : Write} {g' : Ledger}

theorem inv_hold (inv : g.Inv) (began : g.hold session w = some g') : g'.Inv := by
  unfold hold at began
  split at began
  · rename_i free
    cases began
    have unshared := (free_iff.mp free).2
    refine { inv with shared := fun tx mem shares => ?_ }
    rw [unshared tx mem] at shares
    cases shares
  · cases began

theorem hold_log (began : g.hold session w = some g') : g'.log = g.log := by
  unfold hold at began
  split at began
  · cases began
    rfl
  · cases began

theorem Inv.unshared (inv : g.Inv) (writing : g.writing = some (session, w)) : ∀ tx ∈ g.txs, tx.shares = false := by
  intro tx mem
  cases shares : tx.shares with
  | false => rfl
  | true =>
    have none := (inv.shared tx mem shares).1
    rw [writing] at none
    cases none

theorem apply_epoch (row : g.row = some r) : ∃ r', w.apply g.row = some r' ∧ r.epoch ≤ r'.epoch := by
  cases w with
  | acquire holderID =>
    rw [row]
    exact ⟨_, rfl, Int.le_add_one le_rfl⟩
  | renew token => exact ⟨r, row, le_rfl⟩
  | release token =>
    rw [row]
    exact ⟨_, rfl, le_rfl⟩

theorem before_next (inv : g.Inv) (mem : e ∈ g.log) : e.Before (.acquired (nextEpoch g.row)) := by
  cases e with
  | wrote e => trivial
  | acquired a =>
    obtain ⟨r, row, le⟩ := inv.latest a mem
    rw [row]
    exact Int.lt_add_one_of_le le

theorem inv_commit (inv : g.Inv) (writing : g.writing = some (session, w)) : (g.commit w).Inv := by
  have unshared := inv.unshared writing
  constructor
  · cases w with
    | acquire holderID =>
      apply pairwise_append.mpr
      refine ⟨inv.ordered, pairwise_singleton _ _, fun e mem last one => ?_⟩
      rw [mem_singleton.mp one]
      exact before_next inv mem
    | renew token => exact inv.ordered
    | release token => exact inv.ordered
  · intro a mem
    have before : .acquired a ∈ g.log ∨ ∃ r, w.apply g.row = some r ∧ a ≤ r.epoch := by
      cases w with
      | acquire holderID =>
        rcases mem_append.mp mem with earlier | now
        · exact .inl earlier
        · cases mem_singleton.mp now
          exact .inr ⟨_, rfl, le_rfl⟩
      | renew token => exact .inl mem
      | release token => exact .inl mem
    rcases before with earlier | now
    · obtain ⟨r, row, le⟩ := inv.latest a earlier
      obtain ⟨r', applied, grown⟩ := apply_epoch row
      exact ⟨r', applied, le.trans grown⟩
    · exact now
  · intro tx mem shares
    rw [unshared tx mem] at shares
    cases shares

theorem inv_drop (inv : g.Inv) (session : Nat) : (g.drop session).Inv := by
  refine { inv with shared := fun tx mem shares => ?_ }
  obtain ⟨none, row⟩ := inv.shared tx mem shares
  exact ⟨by simp [drop, none], row⟩

theorem inv_beginTx (inv : g.Inv) (token : Token) : (g.beginTx token).Inv := by
  apply inv.fewer
  intro tx mem shares
  rcases mem_append.mp mem with earlier | now
  · exact earlier
  · rw [mem_singleton.mp now] at shares
    cases shares

theorem inv_abortTx (inv : g.Inv) (i : Nat) : (g.abortTx i).Inv := by
  apply inv.fewer
  intro tx mem _
  exact mem_of_mem_eraseIdx mem

theorem current_epoch (found : g.row.any (·.current token) = true) : ∃ r, g.row = some r ∧ r.epoch = token.epoch := by
  cases row : g.row with
  | none => simp [row] at found
  | some r =>
    rw [row] at found
    simp only [Option.any_some, Row.current, Bool.and_eq_true, decide_eq_true_eq] at found
    exact ⟨r, rfl, found.1.1⟩

variable {i : Nat}

theorem inv_guard (inv : g.Inv) (done : g.guard i = some g') : g'.Inv := by
  unfold guard at done
  split at done
  · cases done
  split at done
  · rename_i zero
    cases done
    apply inv.fewer
    intro other mem shares
    rcases mem_or_eq_of_mem_set mem with earlier | rfl
    · exact earlier
    · simp [Tx.shares, zero] at shares
  · split at done
    · rename_i current
      split at done
      · rename_i none
        cases done
        -- the share lock is taken while the row is the token's
        refine { inv with shared := fun other mem shares => ?_ }
        rcases mem_or_eq_of_mem_set mem with earlier | rfl
        · exact inv.shared other earlier shares
        · exact ⟨Option.isNone_iff_eq_none.mp none, current_epoch current⟩
      · cases done
    · cases done
      exact inv_abortTx inv i

theorem guard_log (done : g.guard i = some g') : g'.log = g.log := by
  unfold guard at done
  split at done
  · cases done
  split at done
  · cases done
    rfl
  split at done
  · split at done
    · cases done
      rfl
    · cases done
  · cases done
    rfl

theorem commitTx_log (done : g.commitTx i = some g') : ∃ more, g'.log = g.log ++ more := by
  unfold commitTx at done
  split at done
  · cases done
  split at done
  · cases done
    by_cases zero : (‹Tx›).token.epoch = 0
    · exact ⟨[], by simp [zero]⟩
    · exact ⟨_, if_neg zero⟩
  · cases done

theorem inv_commitTx (inv : g.Inv) (done : g.commitTx i = some g') : g'.Inv := by
  unfold commitTx at done
  split at done
  · cases done
  rename_i tx found
  split at done
  · rename_i guarded
    cases done
    have rest := inv_abortTx inv i
    by_cases zero : tx.token.epoch = 0
    · rw [if_pos zero]
      exact rest
    rw [if_neg zero]
    have shares : tx.shares = true := by simp [Tx.shares, guarded, zero]
    obtain ⟨-, r, row, epoch⟩ := inv.shared tx (mem_of_getElem? found) shares
    refine ⟨?_, ?_, rest.shared⟩
    · apply pairwise_append.mpr
      refine ⟨inv.ordered, pairwise_singleton _ _, fun e mem last one => ?_⟩
      rw [mem_singleton.mp one]
      cases e with
      | wrote e => trivial
      | acquired a =>
        obtain ⟨r', row', le⟩ := inv.latest a mem
        cases row.symm.trans row'
        exact le.trans_eq epoch
    · intro a mem
      exact inv.latest a (by simpa using mem)
  · cases done

end Ledger

def Event.epoch? : Event → Option Int
  | .acquired a => some a
  | .wrote _ => none

def epochs (log : List Event) : List Int := log.filterMap Event.epoch?

variable {log : List Event}

theorem epochs_increase (ordered : log.Pairwise Event.Before) : (epochs log).Pairwise (· < ·) := by
  apply List.Pairwise.filterMap _ _ ordered
  intro e e' before a here a' there
  cases e with
  | wrote _ => cases here
  | acquired _ =>
    cases e' with
    | wrote _ => cases there
    | acquired _ =>
      cases here
      cases there
      exact before

theorem wrote_latest (ordered : log.Pairwise Event.Before)
    (split : log = pre ++ .wrote e :: post) : ∀ a ∈ epochs pre, a ≤ e := by
  intro a mem
  obtain ⟨event, inside, here⟩ := mem_filterMap.mp mem
  rw [split] at ordered
  have before := (pairwise_append.mp ordered).2.2 event inside _ mem_cons_self
  cases event with
  | wrote _ => cases here
  | acquired _ =>
    cases here
    exact before

end Probectl.Lease
