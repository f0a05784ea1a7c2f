import Probectl.Auth.SessionsInv

/-! Who succeeds whom: one successor for a token, no answer for a spent one, and
one identity along its rotations. -/
namespace Probectl.Auth

open Run Strings List Prod Manager

namespace System

def successors (s : System) (t : Token) : Nat :=
  (s.rotations.map fst).count t + (s.replacements.map fst).count t

structure Sound (s : System) : Prop where
  one_successor : ∀ t ∈ s.issued, s.successors t ≤ 1
  never_again : ∀ r ∈ s.resolved, r.stale = false
  one_identity : ∀ t f, (t, f) ∈ s.created → ∀ u, s.Descends t u →
    (∀ r ∈ s.db.sessions, r.hash.token = u → r.identity = f) ∧ ∀ r ∈ s.resolved, r.token = u → r.identity = f

/-- No login callback consumed a token that a rotation had moved away. -/
def Apart (s : System) : Prop := ∀ p ∈ s.replacements, p.1 ∉ s.rotations.map fst

/-- A callback that goes through presents no token that was rotated away. -/
def PresentsCurrent (s : System) : Action → Prop
  | .replaceAuthenticated old _ _ _ true => old ∉ s.rotations.map fst
  | _ => True

end System

open Probectl.Auth.System

variable {old : Token} {sess : Session} {now : Int}

namespace Inv

variable {m : Manager} {s : System} {f g : Identity} {t : Token}

theorem created_unique (inv : Inv m s) (left : (t, f) ∈ s.created) (right : (t, g) ∈ s.created) : f = g := by
  have keys : (s.created.map fst).Nodup := (nodup_append.mp inv.issued_nodup).1
  exact congrArg snd (inj_on_of_nodup_map keys left right rfl)

variable {u : Token} {a : Token}

section
variable (inv : Inv m s)
include inv

theorem rotation_unique (left : (a, u) ∈ s.rotations) (right : (b, u) ∈ s.rotations) : a = b := by
  have keys : (s.rotations.map snd).Nodup := (nodup_append.mp inv.issued_nodup).2.1
  exact congrArg fst (inj_on_of_nodup_map keys left right rfl)

theorem created_no_successor (made : (t, f) ∈ s.created) : (a, t) ∉ s.rotations := by
  intro rotated
  have apart := (nodup_append.mp inv.issued_nodup).2.2
  exact apart t (mem_map_of_mem made) t (mem_map_of_mem rotated) rfl

theorem origin_unique (left : (t, f) ∈ s.created)
    (right : (v, g) ∈ s.created) (down : s.Descends t u) (other : s.Descends v u) : t = v := by
  induction down with
  | refl =>
    rcases other.cases_tail with same | ⟨a, -, rotated⟩
    · exact same
    · exact absurd rotated (inv.created_no_successor left)
  | tail line rotated ih =>
    rcases other.cases_tail with same | ⟨a, above, again⟩
    · exact absurd (same ▸ rotated) (inv.created_no_successor right)
    · exact ih (inv.rotation_unique rotated again ▸ above)

theorem one_identity (made : (t, f) ∈ s.created) (down : s.Descends t u)
    (origin : ∃ v, (v, g) ∈ s.created ∧ s.Descends v u) : g = f := by
  obtain ⟨v, other, line⟩ := origin
  cases inv.origin_unique made other down line
  exact inv.created_unique other made

theorem one_successor_iff : (∀ t ∈ s.issued, s.successors t ≤ 1) ↔ s.Apart := by
  constructor
  · intro one p mem rotated
    obtain ⟨q, before, same⟩ := mem_map.mp rotated
    have twice := one p.1 (same ▸ inv.rotated_issued q before)
    have moved : 0 < (s.rotations.map fst).count p.1 := count_pos_iff.mpr rotated
    have consumed : 0 < (s.replacements.map fst).count p.1 := count_pos_iff.mpr (mem_map_of_mem mem)
    unfold successors at twice
    omega
  · intro apart t issued
    unfold successors
    by_cases rotated : t ∈ s.rotations.map fst
    · have unreplaced : t ∉ s.replacements.map fst := by
        intro mem
        obtain ⟨p, before, rfl⟩ := mem_map.mp mem
        exact apart p before rotated
      have moved := nodup_iff_count_le_one.mp inv.rotated_nodup t
      rw [count_eq_zero.mpr unreplaced]
      omega
    · have consumed := inv.replaced_once t issued rotated
      rw [count_eq_zero.mpr rotated]
      omega

theorem sound_iff : s.Sound ↔ s.Apart := by
  constructor
  · intro sound
    exact inv.one_successor_iff.mp sound.one_successor
  intro apart
  constructor
  · exact inv.one_successor_iff.mpr apart
  · exact fun r mem => (inv.answered r mem).1
  intro t f made u down
  constructor
  · rintro r mem rfl
    exact inv.one_identity made down (inv.lineage r mem)
  · rintro r mem rfl
    exact inv.one_identity made down (inv.answered r mem).2

theorem rotated_unreplaced {db : Db} {old : Hash}
    (done : s.db.rotate old new sess now = some db) : old.token ∉ s.replacements.map fst := by
  obtain ⟨o, there, rfl, active, -⟩ := inv.rotate_moves done
  intro mem
  obtain ⟨p, before, same⟩ := mem_map.mp mem
  rcases inv.tombstone p before (same ▸ inv.owned o there) with ⟨l, held, token, replaced⟩ | rotated
  · cases inv.locator_unique held there (token.trans same)
    simp [Locator.active, replaced] at active
  · obtain ⟨q, moved, origin⟩ := mem_map.mp rotated
    exact inv.moved q moved o there (same.symm.trans origin.symm)

theorem refused_current
    (refused : s.db.replace (m.hashToken old) (if m.keyed then some (.legacy old) else none) r = none) :
    old ∉ s.rotations.map fst := by
  intro rotated
  obtain ⟨p, before, rfl⟩ := mem_map.mp rotated
  obtain ⟨l, mem, hit⟩ := Db.replace_none refused
  apply inv.moved p before l mem
  rcases hit with same | same
  · rw [same, hashToken_token]
  · split at same
    · exact congrArg Hash.token (Option.some.inj same).symm
    · cases same

end

end Inv

inductive Adds (m : Manager) (s t : System) (a : Action) : Prop where
  | nothing (current : s.PresentsCurrent a) (rotations : t.rotations = s.rotations)
      (replacements : t.replacements = s.replacements)
  | rotation (old new : Token) (current : s.PresentsCurrent a) (unreplaced : old ∉ s.replacements.map fst)
      (rotations : t.rotations = s.rotations ++ [(old, new)]) (replacements : t.replacements = s.replacements)
  | replacement (old new : Token) (sess : Session) (now : Int) (callback : a = .replaceAuthenticated old sess new now true)
      (rotations : t.rotations = s.rotations) (replacements : t.replacements = s.replacements ++ [(old, new)])

section
variable {m : Manager} {s t : System} {a : Action} {commits : Bool}

theorem adds_issueAs {hash : Hash}
    (current : s.PresentsCurrent a) (done : s.issueAs m hash sess now commits = some t) : Adds m s t a := by
  obtain ⟨-, done⟩ := guard_some done
  cases done
  split <;> exact .nothing current rfl rfl

variable {new : Token}

theorem adds_beginRotate (inv : Inv m s)
    (done : s.beginRotate m old sess new now commits = some t) : Adds m s t (.rotate old sess new now commits) := by
  simp only [beginRotate] at done
  split at done
  · cases done
    exact .nothing trivial rfl rfl
  obtain ⟨-, done⟩ := guard_some done
  split at done
  · cases done
    exact .nothing trivial rfl rfl
  split at done
  · rename_i db moved
    cases done
    have unreplaced := (inv.present old).rotated_unreplaced moved
    rw [Inv.hashToken_token] at unreplaced
    exact .rotation old new trivial unreplaced rfl rfl
  · cases done
    split <;> exact .nothing trivial rfl rfl

theorem adds_replaceAuthenticated (inv : Inv m s)
    (done : s.replaceAuthenticated m old sess new now commits = some t) :
    Adds m s t (.replaceAuthenticated old sess new now commits) := by
  obtain ⟨-, done⟩ := guard_some done
  cases commits with
  | false =>
    cases done
    exact .nothing trivial rfl rfl
  | true =>
    simp only [Bool.not_true, Bool.false_eq_true, if_false] at done
    split at done
    · rename_i blank
      cases done
      have current : old ∉ s.rotations.map fst := by
        intro rotated
        obtain ⟨p, before, same⟩ := mem_map.mp rotated
        exact inv.blank.2 (blank ▸ same ▸ inv.rotated_issued p before)
      exact .nothing current rfl rfl
    split at done
    · rename_i refused
      cases done
      exact .nothing ((inv.present old).refused_current refused) rfl rfl
    · cases done
      exact .replacement old new sess now rfl rfl rfl

theorem adds_deleted (s : System) (token : Token) (hash : Hash) :
    (s.deleted token hash).rotations = s.rotations ∧ (s.deleted token hash).replacements = s.replacements := by
  cases hash <;> exact ⟨rfl, rfl⟩

theorem adds_advanceResolve (s : System) (token : Token) (hash : Hash) (located : Option Bytes) (stale : Bool) (now : Int)
    (touches : Bool) :
    (s.advanceResolve m token hash located stale now touches).rotations = s.rotations ∧
      (s.advanceResolve m token hash located stale now touches).replacements = s.replacements := by
  unfold advanceResolve
  cases located with
  | none | some tenant =>
    dsimp only
    split
    · exact ⟨rfl, rfl⟩
    · cases hash <;> exact ⟨rfl, rfl⟩

theorem adds_advanceRevoke (s : System) (token : Token) (hash : Hash) (located : Option Bytes) :
    (s.advanceRevoke token hash located).rotations = s.rotations ∧
      (s.advanceRevoke token hash located).replacements = s.replacements := by
  unfold advanceRevoke
  cases located with
  | none =>
    dsimp only
    split
    · exact ⟨rfl, rfl⟩
    · exact adds_deleted s token hash
  | some tenant =>
    dsimp only
    split
    · exact adds_deleted _ token hash
    · exact adds_deleted s token hash

theorem adds_step (inv : Inv m s) (stepped : m.step s a = some t) : Adds m s t a := by
  cases a with
  | issue sess new now commits | issueLegacy sess new now commits => exact adds_issueAs trivial stepped
  | rotate old sess new now commits => exact adds_beginRotate inv stepped
  | replaceAuthenticated old sess new now commits => exact adds_replaceAuthenticated inv stepped
  | resolve token | revoke token =>
    simp only [step] at stepped
    split at stepped <;> cases stepped <;> exact .nothing trivial rfl rfl
  | advance i now commits touches =>
    simp only [step] at stepped
    split at stepped
    · cases stepped
    split at stepped
    · cases stepped
      exact .nothing trivial rfl rfl
    rename_i c _ _
    cases c with
    | rotateLegacy old new sess =>
      obtain ⟨-, stepped⟩ := guard_some stepped
      split at stepped
      · rename_i db moved
        cases stepped
        exact .rotation old new trivial ((inv.drop i).rotated_unreplaced moved) rfl rfl
      · cases stepped
        exact .nothing trivial rfl rfl
    | resolve token hash located stale =>
      cases stepped
      have same := adds_advanceResolve (m := m) { s with calls := s.calls.eraseIdx i } token hash located stale now touches
      exact .nothing trivial same.1 same.2
    | revoke token hash located =>
      cases stepped
      have same := adds_advanceRevoke { s with calls := s.calls.eraseIdx i } token hash located
      exact .nothing trivial same.1 same.2

theorem apart_step (inv : Inv m s) (apart : s.Apart) (current : s.PresentsCurrent a)
    (stepped : m.step s a = some t) : t.Apart := by
  unfold Apart
  cases adds_step inv stepped with
  | nothing _ rotations replacements =>
    rw [rotations, replacements]
    exact apart
  | rotation old new _ unreplaced rotations replacements =>
    rw [rotations, replacements, map_append]
    intro p mem rotated
    rcases mem_append.mp rotated with before | last
    · exact apart p mem before
    · have same : p.1 = old := mem_singleton.mp last
      exact unreplaced (same ▸ mem_map_of_mem mem)
  | replacement old new sess now callback rotations replacements =>
    rw [rotations, replacements]
    subst callback
    exact forall_mem_snoc apart current

theorem current_of_apart (inv : Inv m s) (stepped : m.step s a = some t) (apart : t.Apart) : s.PresentsCurrent a := by
  cases adds_step inv stepped with
  | nothing current _ _ => exact current
  | rotation _ _ current _ _ _ => exact current
  | replacement old new sess now callback rotations replacements =>
    subst callback
    have added : (old, new) ∈ t.replacements := replacements ▸ mem_append_right _ mem_cons_self
    have unrotated := apart (old, new) added
    rwa [rotations] at unrotated

end

/-- Succession is sound in every state that a run visits exactly when no login
callback of the run presents a token that was rotated away. -/
theorem succession_sound_iff (m : Manager) (as : List Action) :
    Visits m.step Sound {} as ↔ Along m.step PresentsCurrent {} as := by
  have invs : Visits m.step (Inv m) {} as := visits_invariant (fun s a t inv => inv.step) (inv_initial m) as
  have apart : Visits m.step Sound {} as ↔ Visits m.step (fun s => Inv m s ∧ s.Apart) {} as :=
    visits_congr invs fun s inv => inv.sound_iff.trans (and_iff_right inv).symm
  rw [apart]
  constructor
  · apply along_of_visits
    intro s a t here stepped next
    exact current_of_apart here.1 stepped next.2
  · apply visits_of_along
    · intro s a t here current stepped
      exact ⟨here.1.step stepped, apart_step here.1 here.2 current stepped⟩
    · exact ⟨inv_initial m, by simp [Apart]⟩

def staleCallback : List Action :=
  let sess : Session := ⟨lit "acme", lit "ada", [], [], true, [], [], [], [], none, none, []⟩
  [.issue sess (lit "t") 0 true, .rotate (lit "t") sess (lit "u") 1 true,
    .replaceAuthenticated (lit "t") sess (lit "v") 2 true]

theorem rotated_token_two_successors : ¬ Visits (newManager true 0).step Sound {} staleCallback := by
  intro visits
  obtain ⟨s, ran, issued, two⟩ : ∃ s, run (newManager true 0).step {} staleCallback = some s ∧
      lit "t" ∈ s.issued ∧ s.successors (lit "t") = 2 :=
    ⟨_, rfl, by decide +kernel, by decide +kernel⟩
  have one := (visits staleCallback [] (append_nil _).symm s ran).one_successor (lit "t") issued
  omega

end Probectl.Auth
