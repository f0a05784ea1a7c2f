import Probectl.Lib.Run

/-! Grants and row policies of a database server. A user who holds SELECT on a
table reads it through the policy bound to them there, and reads every row when
none is. -/
namespace Probectl.RowPolicy

variable {U T : Type}

/-- A table has at most one policy of the modelled name, bound to one user. -/
structure Access (U T : Type) where
  holds : U → T → Bool := fun _ _ => false
  bound : T → Option U := fun _ => none

inductive Statement (U T : Type) where
  | createPolicy (t : T) (u : U)
  | alterPolicy (t : T) (u : U)
  | dropPolicy (t : T)
  | grantSelect (t : T) (u : U)
  | revokeSelect (u : U)
  deriving DecidableEq

/-- Nobody reads unfiltered: a user with SELECT on a table is the one its policy binds. -/
def Guarded (s : Access U T) : Prop := ∀ u t, s.holds u t = true → s.bound t = some u

def OnlyReader (s : Access U T) (t : T) (u : U) : Prop := ∀ v, v ≠ u → s.holds v t = false

theorem guarded_empty : Guarded ({} : Access U T) := nofun

variable [DecidableEq U] [DecidableEq T]

/-- `CREATE … IF NOT EXISTS` leaves an existing policy alone, `ALTER` rebinds an
existing one, and a revocation on the whole database takes every table's grant. -/
def exec (s : Access U T) : Statement U T → Access U T
  | .createPolicy t u => { s with bound := fun x => if x = t ∧ s.bound t = none then some u else s.bound x }
  | .alterPolicy t u => { s with bound := fun x => if x = t ∧ s.bound t ≠ none then some u else s.bound x }
  | .dropPolicy t => { s with bound := fun x => if x = t then none else s.bound x }
  | .grantSelect t u => { s with holds := fun v x => (v = u ∧ x = t) || s.holds v x }
  | .revokeSelect u => { s with holds := fun v x => v ≠ u && s.holds v x }

def step (s : Access U T) (st : Statement U T) : Option (Access U T) := some (exec s st)

theorem run_step (s : Access U T) (stmts : List (Statement U T)) :
    Run.run step s stmts = some (stmts.foldl exec s) := by
  induction stmts generalizing s with
  | nil => rfl
  | cons st rest ih => exact ih (exec s st)

variable {s : Access U T}

section
variable (guarded : Guarded s)
include guarded

theorem guarded_create (t : T) (u : U) : Guarded (exec s (.createPolicy t u)) := by
  intro v x held
  have bound := guarded v x held
  dsimp only [exec]
  split
  case isTrue absent =>
    obtain ⟨rfl, absent⟩ := absent
    rw [absent] at bound
    cases bound
  case isFalse => exact bound

theorem guarded_alter (u : U) (present : s.bound t ≠ none) :
    Guarded (exec s (.alterPolicy t u)) ↔ OnlyReader s t u := by
  constructor
  · intro kept v other
    by_contra held
    have bound := kept v t (by simpa [exec] using held)
    simp only [exec, present, ne_eq] at bound
    exact other (Option.some.inj bound).symm
  · intro only v x held
    dsimp only [exec] at held ⊢
    split
    case isTrue here =>
      obtain ⟨rfl, _⟩ := here
      by_cases same : v = u
      · rw [same]
      · rw [only v same] at held
        cases held
    case isFalse => exact guarded v x held

theorem guarded_drop (t : T) : Guarded (exec s (.dropPolicy t)) ↔ ∀ v, s.holds v t = false := by
  constructor
  · intro kept v
    by_contra held
    have bound := kept v t (by simpa [exec] using held)
    simp [exec] at bound
  · intro unread v x held
    dsimp only [exec] at held ⊢
    split
    case isTrue here =>
      rw [here, unread] at held
      cases held
    case isFalse => exact guarded v x held

theorem guarded_grant (bound : s.bound t = some u) : Guarded (exec s (.grantSelect t u)) := by
  intro v x held
  simp only [exec, Bool.or_eq_true, decide_eq_true_eq] at held
  rcases held with ⟨rfl, rfl⟩ | held
  · exact bound
  · exact guarded v x held

theorem guarded_revoke (u : U) : Guarded (exec s (.revokeSelect u)) := by
  intro v x held
  simp only [exec, Bool.and_eq_true] at held
  exact guarded v x held.2

end

end Probectl.RowPolicy
