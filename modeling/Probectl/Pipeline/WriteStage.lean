import Probectl.Lib.Run
import Probectl.Pipeline.Results

/-! The write stage of `Consumer.Run`: any number of workers run `writeOne` on one
consumer, and between two accesses to its counters another may move. -/
namespace Probectl.Pipeline

open Bus Run
open Function (update update_self update_of_ne)

/-- Where a call of `writeOne` stands: before the store write, after it has failed
and `dropped` was read, after its own dead letter, and at the end. -/
inductive WriteCall where
  | storing
  | loaded (e : WriteError) (before : Nat)
  | counted (e : WriteError) (before : Nat) (letters : List DeadLetter)
  | returned (report : Report Series)

def WriteCall.between : WriteCall → Bool
  | .loaded _ _ | .counted _ _ _ => true
  | _ => false

def WriteItem.advance (it : WriteItem) (w : World Result) (s : State) : WriteCall → Option (State × WriteCall)
  | .storing =>
    let (last, answer) := writeWithRetry w
    let s := { s with retried := s.retried + last }
    let writes := List.replicate (last + 1) it.series
    match answer with
    | none => some (s.store, .returned { writes := writes, usage := it.meterStored })
    | some e =>
      if unknownWriteOutcome w e then some (s, .returned { err := some (.write e), writes := writes })
      else if e.permanentReject then
        some ({ s with terminallyRejected := s.terminallyRejected + 1 }, .returned { writes := writes })
      else some (s, .loaded e s.dropped)
  | .loaded e before =>
    let (after, letters) := it.deadLetter w s
    some (after, .counted e before letters)
  | .counted e before letters =>
    some (s, .returned { err := if before < s.dropped then some (.write e) else none
                         writes := List.replicate ((writeWithRetry w).1 + 1) it.series, published := letters })
  | .returned _ => none

structure WriteStage where
  shared : State
  calls : Nat → WriteCall

variable {items : Nat → WriteItem × World Result} {g h : WriteStage} {i j : Nat}

def WriteStage.step (items : Nat → WriteItem × World Result) (g : WriteStage) (i : Nat) : Option WriteStage :=
  ((items i).1.advance (items i).2 g.shared (g.calls i)).map fun next => ⟨next.1, update g.calls i next.2⟩

def KnownOutcome (w : World Result) : Prop := ∀ e, (writeWithRetry w).2 = some e → unknownWriteOutcome w e = false

def GivesUp (w : World Result) : Prop := ∃ e, (writeWithRetry w).2 = some e ∧ e.permanentReject = false

namespace WriteItem

def Refused (it : WriteItem) (w : World Result) : Prop :=
  ∀ dlq, deadLetterTopicFor it.sourceTopic = .ok dlq → w.publish = false

theorem deadLetter_dropped (it : WriteItem) (w : World Result) (s : State) :
    (it.Refused w ∧ (it.deadLetter w s).1.dropped = s.dropped + 1) ∨
      (¬ it.Refused w ∧ (it.deadLetter w s).1.dropped = s.dropped) := by
  unfold Refused deadLetter publishDeadLetter
  cases deadLetterTopicFor it.sourceTopic <;> cases w.publish <;> simp [State.drop, State.deadLetter]

def Knows (quiet : Prop) (it : WriteItem) (w : World Result) (s : State) : WriteCall → Prop
  | .storing => True
  | .loaded _ before => GivesUp w ∧ before ≤ s.dropped ∧ (quiet → before = s.dropped)
  | .counted _ before _ =>
    GivesUp w ∧ (it.Refused w → before < s.dropped) ∧ (quiet → ¬ it.Refused w → before = s.dropped)
  | .returned report => KnownOutcome w → (GivesUp w ∧ it.Refused w → report.err ≠ none) ∧
    (quiet → ¬ (GivesUp w ∧ it.Refused w) → report.err = none)

variable {quiet : Prop} {it : WriteItem} {w : World Result} {s t : State} {call call' : WriteCall}

theorem Knows.own (knows : it.Knows quiet w s call) (advanced : it.advance w s call = some (t, call')) :
    s.dropped ≤ t.dropped ∧ it.Knows quiet w t call' := by
  cases call with
  | storing =>
    simp only [advance] at advanced
    split at advanced
    · rename_i stored
      cases advanced
      exact ⟨le_refl s.dropped, fun _ => ⟨fun lost => by simp [GivesUp, stored] at lost, fun _ _ => rfl⟩⟩
    rename_i e failed
    split_ifs at advanced with unknown permanent <;> cases advanced <;> refine ⟨le_refl s.dropped, ?_⟩
    · exact fun settled => by simp [settled e failed] at unknown
    · exact fun _ => ⟨fun lost => by simp [GivesUp, failed, permanent] at lost, fun _ _ => rfl⟩
    · exact ⟨⟨e, failed, eq_false_of_ne_true permanent⟩, le_refl s.dropped, fun _ => rfl⟩
  | loaded e before =>
    obtain ⟨exhausts, least, same⟩ := knows
    cases advanced
    obtain ⟨refused, dropped⟩ | ⟨taken, dropped⟩ := it.deadLetter_dropped w s
    · refine ⟨(Nat.le_succ _).trans_eq dropped.symm, exhausts, fun _ => ?_, fun _ taken => absurd refused taken⟩
      exact (Nat.lt_succ_of_le least).trans_eq dropped.symm
    · exact ⟨dropped.ge, exhausts, fun refused => absurd refused taken, fun calm _ => (same calm).trans dropped.symm⟩
  | counted e before letters =>
    obtain ⟨exhausts, less, same⟩ := knows
    cases advanced
    refine ⟨le_refl s.dropped, fun _ => ⟨fun lost => ?_, fun calm kept => ?_⟩⟩
    · simp [less lost.2]
    · simp [same calm fun refused => kept ⟨exhausts, refused⟩]
  | returned report => cases advanced

theorem Knows.other (knows : it.Knows quiet w s call) (more : s.dropped ≤ t.dropped)
    (calm : quiet → call.between → t.dropped = s.dropped) : it.Knows quiet w t call := by
  cases call with
  | loaded e before =>
    obtain ⟨exhausts, least, same⟩ := knows
    exact ⟨exhausts, least.trans more, fun q => (same q).trans (calm q rfl).symm⟩
  | counted e before letters =>
    obtain ⟨exhausts, less, same⟩ := knows
    exact ⟨exhausts, fun refused => (less refused).trans_le more, fun q taken => (same q taken).trans (calm q rfl).symm⟩
  | _ => exact knows

end WriteItem

namespace WriteStage

/-- No other call loses a record between the two readings of call `i`. -/
def Quiet (items : Nat → WriteItem × World Result) (i : Nat) (g : WriteStage) (j : Nat) : Prop :=
  j ≠ i → (g.calls i).between → ∀ h, step items g j = some h → h.shared.dropped = g.shared.dropped

def Knows (items : Nat → WriteItem × World Result) (quiet : Nat → Prop) (g : WriteStage) : Prop :=
  ∀ i, (items i).1.Knows (quiet i) (items i).2 g.shared (g.calls i)

variable {quiet : Nat → Prop}

theorem Knows.step (knows : Knows items quiet g) (admitted : ∀ i, quiet i → Quiet items i g j)
    (stepped : step items g j = some h) : Knows items quiet h := by
  obtain ⟨⟨s, call⟩, advanced, rfl⟩ := Option.map_eq_some_iff.mp stepped
  obtain ⟨more, own⟩ := (knows j).own advanced
  intro i
  dsimp only
  by_cases mine : i = j
  · subst mine
    rwa [update_self]
  · rw [update_of_ne mine]
    exact (knows i).other more fun calm between => admitted i calm (Ne.symm mine) between _ stepped

/-- A lost record is always reported; and only lost ones are, as long as no other
record is lost between the two readings. -/
theorem write_error_means_loss (items : Nat → WriteItem × World Result) (s : State) (schedule : List Nat) (i : Nat)
    (report : Report Series) (ran : run (step items) ⟨s, fun _ => .storing⟩ schedule = some g)
    (done : g.calls i = .returned report) (settled : KnownOutcome (items i).2) :
    (GivesUp (items i).2 ∧ (items i).1.Refused (items i).2 → report.err ≠ none) ∧
      (Along (step items) (Quiet items i) ⟨s, fun _ => .storing⟩ schedule →
        (report.err ≠ none ↔ GivesUp (items i).2 ∧ (items i).1.Refused (items i).2)) := by
  have start quiet : Knows items quiet ⟨s, fun _ => .storing⟩ := fun _ => trivial
  have any := run_kept (Knows items fun _ => False) (fun g j h knows => knows.step nofun) (start _) ran i
  rw [done] at any
  refine ⟨(any settled).1, fun calm => ⟨fun err => ?_, (any settled).1⟩⟩
  have knows : Knows items (· = i) g :=
    run_invariant (fun g j h knows admitted => knows.step fun k own => own ▸ admitted) (start _) calm ran
  have mine := knows i
  rw [done] at mine
  exact not_not.mp fun kept => err ((mine settled).2 rfl kept)

def outage (publish : Bool) : WriteItem × World Result :=
  (⟨[], ⟨[], [], []⟩, ⟨[], [], [], [], [], 0, [], [], ∅, []⟩, networkResultsTopic, 0⟩,
    ⟨fun _ => none, ⟨fun _ => false, fun _ => .failed⟩, none, id, 0, fun _ => some {}, fun _ => false, false, publish⟩)

/-- Call 1 has lost its record when call 0 reads the counter. -/
theorem write_error_means_loss_alone :
    ∃ g lost kept, run (step fun i => outage (i = 0)) ⟨{}, fun _ => .storing⟩ [1, 1, 0, 1, 0, 0] = some g ∧
      g.calls 1 = .returned lost ∧ lost.err ≠ none ∧ g.calls 0 = .returned kept ∧ kept.err = none := by
  have ran : run (step fun i => outage (i = 0)) ⟨{}, fun _ => .storing⟩ [1, 1, 0, 1, 0, 0] = some _ := rfl
  have calm : Along (step fun i => outage (i = 0)) (Quiet (fun i => outage (i = 0)) 0)
      ⟨{}, fun _ => .storing⟩ [1, 1, 0, 1, 0, 0] := by
    refine fun g first => ⟨fun _ between => (by cases between), ?_⟩
    cases first
    refine fun g second => ⟨fun _ between => (by cases between), ?_⟩
    cases second
    refine fun g third => ⟨fun other => absurd rfl other, ?_⟩
    cases third
    refine fun g fourth => ⟨fun _ _ h stepped => by cases stepped; rfl, ?_⟩
    cases fourth
    refine fun g fifth => ⟨fun other => absurd rfl other, ?_⟩
    exact fun g _ => ⟨fun other => absurd rfl other, trivial⟩
  have loses := (write_error_means_loss _ {} _ 1 _ ran rfl (by rintro e ⟨⟩; rfl)).1
    ⟨⟨_, rfl, rfl⟩, fun _ _ => rfl⟩
  have keeps := (write_error_means_loss _ {} _ 0 _ ran rfl (by rintro e ⟨⟩; rfl)).2 calm
  refine ⟨_, _, _, ran, rfl, loses, rfl, not_not.mp fun err => ?_⟩
  cases (keeps.mp err).2 deadLetterResultsTopic rfl

/-- Call 1 loses its record while call 0 publishes its own. -/
theorem dead_lettered_reported :
    ((run (step fun i => outage (i = 0)) ⟨{}, fun _ => .storing⟩ [0, 1, 1, 0, 0]).map fun g =>
      match g.calls 0 with
      | .returned report => (report.err, report.published.map (·.ok))
      | _ => (none, [])) = some (some (.write {}), [true]) := by
  decide

end WriteStage

end Probectl.Pipeline
