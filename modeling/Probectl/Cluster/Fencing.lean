import Probectl.Lib.Run
import Probectl.Lib.Strings

/-! The write fence of `internal/cluster/cluster.go`: probes of the database
endpoints, the verdict on the writer, and the writer pool that is fenced with it.
`Refresh` probes before it takes the lock, and `WriterUsableNow` reads the marks and
probes later, so other calls run between the two halves of each. -/
namespace Probectl.Cluster

open Strings List Run Option

inductive Role where
  | unknown
  | writer
  | reader
  | stale
  deriving DecidableEq

structure Probe where
  inRecovery : Bool
  epoch : Int
  /-- `0` means unknown. -/
  timeline : Int
  err : Option Bytes
  deriving DecidableEq

structure NodeStatus where
  role : Role
  epoch : Int
  timeline : Int
  error : Bytes
  deriving DecidableEq

structure Manager where
  writerState : NodeStatus
  readerState : Option NodeStatus
  highestEpoch : Int
  highestTimeline : Int
  started : Bool
  poolFenced : Bool
  deriving DecidableEq

def notProbed : Bytes := lit "initial cluster probe has not completed"

def newManager : Manager := ⟨⟨.unknown, 0, 0, notProbed⟩, none, 0, 0, false, false⟩

def roleUnder (p : Probe) (highestEpoch highestTimeline : Int) : Role :=
  if p.err.isSome then .unknown
  else if p.inRecovery then .reader
  else if p.epoch < highestEpoch then .stale
  else if 0 < p.timeline ∧ 0 < highestTimeline ∧ p.timeline < highestTimeline then .stale
  else .writer

structure Marks where
  epoch : Int
  timeline : Int
  deriving DecidableEq

def Marks.raise (m : Marks) (p : Probe) : Marks :=
  if p.err.isSome then m
  else ⟨if m.epoch < p.epoch then p.epoch else m.epoch, if m.timeline < p.timeline then p.timeline else m.timeline⟩

def Marks.raiseReader (m : Marks) : Option Probe → Marks
  | none => m
  | some p => m.raise p

def classify (p : Probe) (m : Marks) : NodeStatus := ⟨roleUnder p m.epoch m.timeline, p.epoch, p.timeline, p.err.getD []⟩

inductive Refusal where
  | standby
  | stale (epoch highestEpoch timeline highestTimeline : Int)
  | unreachable (errMsg : Bytes)
  | notStarted
  deriving DecidableEq

/-- `none` is usable. -/
def writerVerdict (role : Role) (epoch timeline : Int) (m : Marks) (errMsg : Bytes) : Option Refusal :=
  match role with
  | .writer => none
  | .reader => some .standby
  | .stale => some (.stale epoch m.epoch timeline m.timeline)
  | .unknown => some (.unreachable errMsg)

namespace Manager

def marks (m : Manager) : Marks := ⟨m.highestEpoch, m.highestTimeline⟩

/-- `Refresh` from its lock on, with the answers of its probes. -/
def refresh (m : Manager) (wp : Probe) (rp : Option Probe) : Manager :=
  let marks := (m.marks.raiseReader rp).raise wp
  let writerState := classify wp marks
  { writerState, readerState := (rp.map fun p => classify p marks).or m.readerState, highestEpoch := marks.epoch,
    highestTimeline := marks.timeline, started := true, poolFenced := decide (writerState.role = .stale) }

def writerUsable (m : Manager) : Option Refusal :=
  if m.started then
    writerVerdict m.writerState.role m.writerState.epoch m.writerState.timeline m.marks m.writerState.error
  else some .notStarted

def writerUsableNow (read : Marks) (wp : Probe) (rp : Option Probe) : Option Refusal :=
  let highest := (read.raiseReader rp).raise wp
  writerVerdict (roleUnder wp highest.epoch highest.timeline) wp.epoch wp.timeline highest (wp.err.getD [])

end Manager

structure Answer where
  usable : Bool
  epoch : Int
  timeline : Int
  observed : List Probe
  deriving DecidableEq

/-- `probed` holds the answers of a `Refresh` that has not taken the lock yet, `open_` the
marks that started calls have read. The rest is what an observer of the probes knows: the
successful ones, whether the last one of the writer in a refresh showed it stale, and the
answers. -/
structure System where
  manager : Manager
  /-- The writer pool opens read-only sessions. -/
  fenced : Bool
  probed : List (Probe × Option Probe)
  open_ : List Marks
  observed : List Probe
  shownStale : Bool
  answers : List Answer
  deriving DecidableEq

def System.initial : System := ⟨newManager, false, [], [], [], false, []⟩

inductive Act where
  | probe (wp : Probe) (rp : Option Probe)
  | refresh (call : Nat)
  | usable
  | beginNow
  | endNow (call : Nat) (wp : Probe) (rp : Option Probe)

def successful (wp : Probe) (rp : Option Probe) : List Probe := (wp :: rp.toList).filter fun p => p.err.isNone

def step (s : System) : Act → Option System
  | .probe wp rp =>
    some { s with probed := s.probed ++ [(wp, rp)], observed := s.observed ++ successful wp rp }
  | .refresh call =>
    match s.probed[call]? with
    | none => none
    | some (wp, rp) =>
      -- `FenceWrites` follows the unlock; no other call reads or sets the pool's fence
      let m := s.manager.refresh wp rp
      some { s with
        manager := m, fenced := m.poolFenced, probed := s.probed.eraseIdx call,
        shownStale := if wp.err.isSome then s.shownStale else decide (m.writerState.role = .stale) }
  | .usable =>
    let w := s.manager.writerState
    some { s with answers := s.answers ++ [⟨s.manager.writerUsable.isNone, w.epoch, w.timeline, s.observed⟩] }
  | .beginNow => some (if s.manager.started then { s with open_ := s.open_ ++ [s.manager.marks] } else s)
  | .endNow call wp rp =>
    match s.open_[call]? with
    | none => none
    | some read =>
      let observed := s.observed ++ successful wp rp
      some { s with
        open_ := s.open_.eraseIdx call, observed,
        answers := s.answers ++ [⟨(Manager.writerUsableNow read wp rp).isNone, wp.epoch, wp.timeline, observed⟩] }

/-! What the marks know. -/

theorem raise_le (m : Marks) (p : Probe) : m.epoch ≤ (m.raise p).epoch ∧ m.timeline ≤ (m.raise p).timeline := by
  unfold Marks.raise
  split
  · exact ⟨le_rfl, le_rfl⟩
  constructor
  all_goals
    dsimp only
    split <;> omega

theorem raiseReader_le (m : Marks) (rp : Option Probe) :
    m.epoch ≤ (m.raiseReader rp).epoch ∧ m.timeline ≤ (m.raiseReader rp).timeline := by
  cases rp with
  | none => exact ⟨le_rfl, le_rfl⟩
  | some p => exact raise_le m p

def Marks.Cover (m : Marks) (observed : List Probe) : Prop :=
  ∀ p ∈ observed, p.epoch ≤ m.epoch ∧ p.timeline ≤ m.timeline

variable {m : Marks} {p : Probe}

theorem raise_covers (answered : p.err = none) : p.epoch ≤ (m.raise p).epoch ∧ p.timeline ≤ (m.raise p).timeline := by
  simp only [Marks.raise, answered, isSome_none, Bool.false_eq_true, if_false]
  constructor <;> split <;> omega

theorem raise_successful (m : Marks) (wp : Probe) (rp : Option Probe) :
    ((m.raiseReader rp).raise wp).Cover (successful wp rp) := by
  intro p mem
  obtain ⟨among, answered⟩ := mem_filter.mp mem
  rw [isNone_iff_eq_none] at answered
  rcases mem_cons.mp among with rfl | reader
  · exact raise_covers answered
  cases rp with
  | none => cases reader
  | some q =>
    obtain rfl := mem_singleton.mp reader
    have first : p.epoch ≤ (m.raiseReader (some p)).epoch ∧ p.timeline ≤ (m.raiseReader (some p)).timeline :=
      raise_covers answered
    have second := raise_le (m.raiseReader (some p)) wp
    omega

theorem raise_covered (covered : p.err = none → p.epoch ≤ m.epoch ∧ p.timeline ≤ m.timeline) : m.raise p = m := by
  unfold Marks.raise
  split
  · rfl
  rename_i answered
  rw [Bool.not_eq_true, isSome_eq_false_iff, isNone_iff_eq_none] at answered
  obtain ⟨epoch, timeline⟩ := covered answered
  rw [if_neg (not_lt.mpr epoch), if_neg (not_lt.mpr timeline)]

variable {wp : Probe} {rp : Option Probe}

theorem raise_of_cover (cover : m.Cover (successful wp rp)) : (m.raiseReader rp).raise wp = m := by
  have reader : m.raiseReader rp = m := by
    cases rp with
    | none => rfl
    | some p =>
      apply raise_covered
      intro answered
      exact cover p (mem_filter.mpr ⟨by simp, by simp [answered]⟩)
  rw [reader]
  apply raise_covered
  intro answered
  exact cover wp (mem_filter.mpr ⟨mem_cons_self, by simp [answered]⟩)

theorem roleUnder_writer (role : roleUnder p m.epoch m.timeline = .writer) (known : 0 < p.timeline) :
    p.err = none ∧ m.epoch ≤ p.epoch ∧ m.timeline ≤ p.timeline := by
  unfold roleUnder at role
  split at role
  · cases role
  rename_i answered
  split at role
  · cases role
  split at role
  · cases role
  split at role
  · cases role
  · rw [Bool.not_eq_true, isSome_eq_false_iff, isNone_iff_eq_none] at answered
    exact ⟨answered, by omega, by omega⟩

theorem writerVerdict_isNone
    (usable : (writerVerdict role epoch timeline m errMsg).isNone = true) : role = .writer := by
  cases role with
  | writer => rfl
  | _ => cases usable

/-! Runs. -/

/-- No `Refresh` has seen more than the marks know and is still in front of its lock. -/
def System.Taken (s : System) : Prop := ∀ q ∈ s.probed, s.manager.marks.Cover (successful q.1 q.2)

/-- A refresh whose probe of the writer fails finds the pool unfenced, a writer that
answers knows its timeline, no verdict falls between the probes of a refresh that show
something new and its lock, and `WriterUsableNow` sees nothing beyond the marks, which are
still those it has read. -/
def Admits (s : System) : Act → Prop
  | .probe _ _ => True
  | .refresh call => ∀ wp rp, s.probed[call]? = some (wp, rp) →
    (s.fenced = true → wp.err = none) ∧ (wp.err = none → 0 < wp.timeline)
  | .usable => s.Taken
  | .beginNow => True
  | .endNow call wp rp =>
    s.Taken ∧ (∀ read, s.open_[call]? = some read → read = s.manager.marks) ∧ s.manager.marks.Cover (successful wp rp) ∧
      (wp.err = none → 0 < wp.timeline)

def Answer.Sound (a : Answer) : Prop :=
  a.usable = true → ∀ p ∈ a.observed, p.epoch ≤ a.epoch ∧ p.timeline ≤ a.timeline

structure Inv (s : System) : Prop where
  fenced : s.shownStale = true → s.fenced = true
  cover : ∀ p ∈ s.observed, (p.epoch ≤ s.manager.highestEpoch ∧ p.timeline ≤ s.manager.highestTimeline) ∨
    ∃ q ∈ s.probed, p ∈ successful q.1 q.2
  writer : s.manager.writerState.role = .writer →
    s.manager.highestEpoch ≤ s.manager.writerState.epoch ∧ s.manager.highestTimeline ≤ s.manager.writerState.timeline
  sound : ∀ a ∈ s.answers, a.Sound

theorem inv_initial : Inv .initial := by
  constructor
  · intro shown
    cases shown
  · intro p mem
    cases mem
  · intro role
    cases role
  · intro a mem
    cases mem

theorem classify_writer (known : wp.err = none → 0 < wp.timeline)
    (role : (classify wp m).role = .writer) : m.epoch ≤ wp.epoch ∧ m.timeline ≤ wp.timeline := by
  have answered : wp.err = none := by
    cases failed : wp.err with
    | none => rfl
    | some err => simp [classify, roleUnder, failed] at role
  exact (roleUnder_writer role (known answered)).2

variable {s t : System}

theorem Inv.covered (inv : Inv s) (taken : s.Taken) : s.manager.marks.Cover s.observed := by
  intro p mem
  rcases inv.cover p mem with known | ⟨q, waiting, here⟩
  · exact known
  · exact taken q waiting p here

theorem inv_probe (inv : Inv s) (stepped : step s (.probe wp rp) = some t) : Inv t := by
  cases stepped
  refine { inv with cover := fun p mem => ?_ }
  rcases mem_append.mp mem with before | now
  · refine (inv.cover p before).imp_right ?_
    rintro ⟨q, waiting, here⟩
    exact ⟨q, mem_append_left _ waiting, here⟩
  · exact .inr ⟨_, mem_append_right _ mem_cons_self, now⟩

theorem inv_refresh {call : Nat} (inv : Inv s) (admitted : Admits s (.refresh call))
    (stepped : step s (.refresh call) = some t) : Inv t := by
  unfold step at stepped
  cases found : s.probed[call]? with
  | none => simp [found] at stepped
  | some probes =>
    obtain ⟨wp, rp⟩ := probes
    simp only [found, Option.some.injEq] at stepped
    subst stepped
    obtain ⟨reachable, known⟩ := admitted wp rp found
    refine ⟨fun shown => ?_, fun p mem => ?_, classify_writer known, inv.sound⟩
    · cases failed : wp.err with
      | none =>
        simp only [failed] at shown
        exact shown
      | some err =>
        -- a failed probe would release the fence, but finds none
        have fenced : s.fenced = true := inv.fenced (by simpa [failed] using shown)
        rw [reachable fenced] at failed
        cases failed
    · rcases inv.cover p mem with before | ⟨q, waiting, here⟩
      · have first := raiseReader_le s.manager.marks rp
        have second := raise_le (s.manager.marks.raiseReader rp) wp
        exact .inl ⟨(before.1.trans first.1).trans second.1, (before.2.trans first.2).trans second.2⟩
      · obtain ⟨below, listed⟩ := List.getElem?_eq_some_iff.mp found
        have rest := (getElem_cons_eraseIdx_perm below).mem_iff.mpr waiting
        rw [listed] at rest
        rcases mem_cons.mp rest with rfl | other
        · exact .inl (raise_successful s.manager.marks wp rp p here)
        · exact .inr ⟨q, other, here⟩

theorem inv_usable (inv : Inv s) (taken : s.Taken) (stepped : step s .usable = some t) : Inv t := by
  cases stepped
  refine { inv with sound := forall_mem_snoc inv.sound ?_ }
  intro usable p mem
  have role : s.manager.writerState.role = .writer := by
    dsimp only [Manager.writerUsable] at usable
    split at usable
    · exact writerVerdict_isNone usable
    · cases usable
  have bound := inv.covered taken p mem
  have above := inv.writer role
  exact ⟨bound.1.trans above.1, bound.2.trans above.2⟩

theorem inv_endNow (inv : Inv s)
    (admitted : Admits s (.endNow call wp rp)) (stepped : step s (.endNow call wp rp) = some t) : Inv t := by
  obtain ⟨taken, current, seen, known⟩ := admitted
  unfold step at stepped
  cases found : s.open_[call]? with
  | none => simp [found] at stepped
  | some read =>
    simp only [found, Option.some.injEq] at stepped
    subst stepped
    have cover : s.manager.marks.Cover (s.observed ++ successful wp rp) := by
      intro p mem
      rcases mem_append.mp mem with before | now
      · exact inv.covered taken p before
      · exact seen p now
    refine ⟨inv.fenced, fun p mem => .inl (cover p mem), inv.writer, forall_mem_snoc inv.sound ?_⟩
    intro usable p mem
    obtain rfl := current read found
    have role := writerVerdict_isNone usable
    rw [raise_of_cover seen] at role
    have answered : wp.err = none := by
      cases failed : wp.err with
      | none => rfl
      | some err => simp [roleUnder, failed] at role
    have above := (roleUnder_writer role (known answered)).2
    have bound := cover p mem
    exact ⟨bound.1.trans above.1, bound.2.trans above.2⟩

theorem inv_step (s : System) (act : Act) (t : System) (inv : Inv s) (admitted : Admits s act)
    (stepped : step s act = some t) : Inv t := by
  cases act with
  | probe wp rp => exact inv_probe inv stepped
  | refresh call => exact inv_refresh inv admitted stepped
  | usable => exact inv_usable inv admitted stepped
  | beginNow =>
    cases stepped
    split
    · exact { inv with }
    · exact inv
  | endNow call wp rp => exact inv_endNow inv admitted stepped

/-- A writer that was shown stale leaves the pool fenced, and no verdict lets writes
through to a node below an epoch or timeline that was observed before. -/
theorem stale_stays_fenced {acts : List Act} {s : System} (along : Along step Admits .initial acts)
    (ran : run step .initial acts = some s) :
    (s.shownStale = true → s.fenced = true) ∧
      ∀ a ∈ s.answers, a.usable = true → ∀ p ∈ a.observed, p.epoch ≤ a.epoch ∧ p.timeline ≤ a.timeline := by
  have inv := run_invariant inv_step inv_initial along ran
  exact ⟨inv.fenced, inv.sound⟩

def primary (epoch timeline : Int) : Probe := ⟨false, epoch, timeline, none⟩

def lost : Probe := ⟨false, 0, 0, some (lit "timeout")⟩

def promoted : List Act :=
  [.probe (primary 2 1) none, .refresh 0, .usable, .probe (primary 1 1) none, .refresh 0, .beginNow,
    .endNow 0 (primary 1 1) none]

def promotedState : System := (run step .initial promoted).getD .initial

theorem stale_stays_fenced_promoted :
    promotedState.shownStale = true ∧ promotedState.fenced = true ∧ promotedState.answers.map Answer.usable = [true, false] ∧
      ∀ a ∈ promotedState.answers, a.usable = true → ∀ p ∈ a.observed, p.epoch ≤ a.epoch ∧ p.timeline ≤ a.timeline := by
  have along : Along step Admits .initial promoted := by
    simp [Along, Admits, promoted, step, primary, System.initial, Manager.refresh, newManager, Marks.raise,
      Marks.raiseReader, classify, roleUnder, Manager.marks, Marks.Cover, System.Taken, successful]
  have ran : run step .initial promoted = some promotedState := by decide +kernel
  have holds := stale_stays_fenced along ran
  have shown : promotedState.shownStale = true := by decide +kernel
  exact ⟨shown, holds.1 shown, by decide +kernel, holds.2⟩

/-- The writer is shown stale and then does not answer; a promotion that only
`WriterUsableNow` has seen, on the replica; and one that a `Refresh` has seen which is not
at its lock yet. -/
theorem fence_released :
    (run step .initial [.probe (primary 2 1) none, .refresh 0, .probe (primary 1 1) none, .refresh 0, .probe lost none,
        .refresh 0]).map (fun s => (s.shownStale, s.fenced)) = some (true, false) ∧
      (run step .initial
          [.probe (primary 1 1) none, .refresh 0, .beginNow, .endNow 0 (primary 1 1) (some ⟨true, 2, 1, none⟩), .beginNow,
            .endNow 0 (primary 1 1) (some lost)]).map (fun s => s.answers.map fun a => (a.usable, a.epoch)) =
        some [(false, 1), (true, 1)] ∧
      (run step .initial
          [.probe (primary 1 1) none, .refresh 0, .probe (primary 1 1) (some ⟨true, 2, 1, none⟩), .usable]).map
        (fun s => s.answers.map fun a => (a.usable, a.epoch, a.observed.map Probe.epoch)) =
        some [(true, 1, [1, 1, 2])] := by
  decide +kernel

end Probectl.Cluster
