import Probectl.Alert.Monitor

/-! The operator state of a series: what `ApplyOps` has last been given against what is in
force when an episode begins. The engine keeps the operations in two places, in the live
series and, for series it has not seen, in `restored`. -/
namespace Probectl.Alerts

open Strings Run Engine Option SeriesState
open Function (update update_self update_of_ne)

variable {num : Numbers}

def silenceOf : Option RestoredOp → Time
  | none => 0
  | some op => op.silencedUntil

def ackOf : Option RestoredOp → Bytes × Time
  | none => ([], 0)
  | some op => if op.ackedBy = [] then ([], 0) else (op.ackedBy, op.ackedAt)

def SeriesState.ack (st : SeriesState num) : Bytes × Time := (st.ackedBy, st.ackedAt)

variable {op : Option RestoredOp}

theorem ackOf_empty (empty : (ackOf op).1 = []) : ackOf op = ([], 0) := by
  cases op with
  | none => rfl
  | some op =>
    dsimp only [ackOf] at empty ⊢
    split
    · rfl
    · rename_i acked
      rw [if_neg acked] at empty
      exact absurd empty acked

variable (num) in
/-- The engine, the most recent argument of `ApplyOps`, and the series that have ended an
episode since. -/
structure Operated where
  engine : Engine num
  latest : Bytes → Option RestoredOp
  ended : Bytes → Bool

variable (num) in
inductive OpLabel where
  | applyOps (ops : Bytes → Option RestoredOp)
  | evaluate (rule : Rule num) (s : Sample num) (now : Instant)
  | sweep (rule : Rule num)
  | windows (windows : List MaintenanceWindow)

namespace Operated

def start : Operated num := ⟨.new num, fun _ => none, fun _ => false⟩

def evaluate (o : Operated num) (rule : Rule num) (s : Sample num) (now : Instant) : Operated num :=
  { o with
    engine := (o.engine.evalSample rule s now).engine,
    ended :=
      if (o.engine.evalSample rule s now).resolve then update o.ended (stateKey rule.id s.labels) true
      else o.ended }

def step (o : Operated num) : OpLabel num → Option (Operated num)
  | .applyOps ops => some ⟨o.engine.applyOps ops, ops, fun _ => false⟩
  | .evaluate rule s now => some (if rule.enabled then o.evaluate rule s now else o)
  | .sweep rule => some { o with engine := o.engine.dropDue rule }
  | .windows windows => some { o with engine := o.engine.replaceMaintenanceWindows windows }

/-- What `ApplyOps` finds of a quiet series: an operation kept for its first episode is
replaced or repeated, and an acknowledgement taken before is the argument's. -/
def Repeats (en : Engine num) (ops : Bytes → Option RestoredOp) (key : Bytes) : Prop :=
  match en.states key with
  | none => en.restored key = none ∨ ops key ≠ none
  | some st =>
    st.firing = false →
      (en.restored key = none ∨ en.restored key = ops key) ∧ (st.ackedBy = [] ∨ st.ack = ackOf (ops key))

def Admits (o : Operated num) : OpLabel num → Prop
  | .applyOps ops => ∀ key, Repeats o.engine ops key
  | _ => True

end Operated

/-! The invariant of one series. -/

structure Waiting (restored op : Option RestoredOp) (st : SeriesState num) : Prop where
  kept : restored = none ∨ restored = op
  silence : st.silencedUntil = silenceOf op ∨ st.silencedUntil = 0 ∧ restored = op
  ack : st.ack = ackOf op ∨ st.ack = ([], 0) ∧ restored = op
  lastNotified : st.lastNotified = 0

/-- The end of an episode leaves nothing until the next `ApplyOps`. -/
def Operated.current (o : Operated num) (key : Bytes) : Option RestoredOp := if o.ended key then none else o.latest key

def Standing (restored op : Option RestoredOp) : Option (SeriesState num) → Prop
  | none => restored = op
  | some st => if st.firing then restored = none else Waiting restored op st

structure Operated.Inv (o : Operated num) (key : Bytes) : Prop where
  standing : Standing (o.engine.restored key) (o.current key) (o.engine.states key)
  known : o.ended key = true → o.engine.states key ≠ none
  notify : o.engine.restoredNotify key = none

theorem inv_start (key : Bytes) : (Operated.start : Operated num).Inv key :=
  ⟨rfl, fun ended => (by cases ended), rfl⟩

section Series

variable {restored op : Option RestoredOp} {st st' : SeriesState num}

theorem Waiting.congr (waiting : Waiting restored op st) (silence : st'.silencedUntil = st.silencedUntil)
    (ack : st'.ack = st.ack) (last : st'.lastNotified = st.lastNotified) : Waiting restored op st' := by
  constructor
  · exact waiting.kept
  · rw [silence]
    exact waiting.silence
  · rw [ack]
    exact waiting.ack
  · exact last.trans waiting.lastNotified

theorem Waiting.unacked (waiting : Waiting restored op st) (empty : st.ackedBy = []) : st.ack = ([], 0) := by
  rcases waiting.ack with same | ⟨none, -⟩
  · rw [same]
    apply ackOf_empty
    rw [← same]
    exact empty
  · exact none

theorem applyOp_silence (op : Option RestoredOp) (st : SeriesState num) :
    (applyOp op st).silencedUntil = silenceOf op ∧ (applyOp op st).firing = st.firing ∧
      (applyOp op st).lastNotified = st.lastNotified := by
  cases op with
  | none => exact ⟨rfl, rfl, rfl⟩
  | some op =>
    unfold applyOp
    dsimp only
    split <;> exact ⟨rfl, rfl, rfl⟩

theorem applyOp_unacked (op : Option RestoredOp) (empty : st.ack = ([], 0)) : (applyOp op st).ack = ackOf op := by
  have blank : st.ackedBy = [] := congrArg Prod.fst empty
  cases op with
  | none => exact empty
  | some op =>
    unfold applyOp ackOf
    by_cases acked : op.ackedBy = []
    · simp only [acked, ne_eq, if_true]
      exact empty
    · simp only [acked, blank, ne_eq, if_true]
      rfl

theorem applyOp_acked (op : Option RestoredOp) (acked : st.ackedBy ≠ []) : (applyOp op st).ack = st.ack := by
  cases op with
  | none => rfl
  | some op =>
    unfold applyOp
    simp only [acked, and_false]
    rfl

theorem Waiting.apply (waiting : Waiting restored held st)
    (repeats : restored = none ∨ restored = op) (acked : st.ackedBy = [] ∨ st.ack = ackOf op) :
    Waiting restored op (applyOp op st) := by
  obtain ⟨silence, -, last⟩ := applyOp_silence op st
  refine ⟨repeats, .inl silence, .inl ?_, last.trans waiting.lastNotified⟩
  by_cases empty : st.ackedBy = []
  · exact applyOp_unacked op (waiting.unacked empty)
  · rw [applyOp_acked op empty]
    exact acked.resolve_left empty

theorem Waiting.plain (waiting : Waiting none op st) : st.silencedUntil = silenceOf op ∧ st.ack = ackOf op := by
  constructor
  · rcases waiting.silence with same | ⟨zero, rfl⟩
    · exact same
    · exact zero
  · rcases waiting.ack with same | ⟨blank, rfl⟩
    · exact same
    · exact blank

structure InForce (op : Option RestoredOp) (now : Instant) (st : SeriesState num) : Prop where
  ack : st.ack = ackOf op
  silence : (now : Time) < st.silencedUntil ↔ (now : Time) < silenceOf op

theorem restoreOp_silence (op : RestoredOp) (st : SeriesState num) (now : Instant) :
    (restoreOp (some op) st now).silencedUntil =
      if (now : Time) < op.silencedUntil then op.silencedUntil else st.silencedUntil := by
  unfold restoreOp
  by_cases silenced : now < op.silencedUntil <;> by_cases acked : op.ackedBy = [] <;> simp [silenced, acked]

theorem restoreOp_ack (op : RestoredOp) (st : SeriesState num) (now : Instant) :
    (restoreOp (some op) st now).ack = if op.ackedBy = [] then st.ack else (op.ackedBy, op.ackedAt) := by
  unfold restoreOp SeriesState.ack
  by_cases silenced : now < op.silencedUntil <;> by_cases acked : op.ackedBy = [] <;> simp [silenced, acked]

theorem Waiting.restore (waiting : Waiting restored op st) {now : Instant} (later : 0 < (now : Time)) :
    InForce op now (restoreOp restored st now) := by
  cases restored with
  | none =>
    obtain ⟨silence, ack⟩ := waiting.plain
    exact ⟨ack, by rw [restoreOp, silence]⟩
  | some kept =>
    obtain rfl : some kept = op := waiting.kept.resolve_left (by simp)
    constructor
    · rw [restoreOp_ack]
      by_cases acked : kept.ackedBy = []
      · rw [if_pos acked]
        have blank : ackOf (some kept) = ([], 0) := if_pos acked
        rcases waiting.ack with same | ⟨none, -⟩
        · exact same
        · rw [none, blank]
      · rw [if_neg acked]
        exact (if_neg acked).symm
    · rw [restoreOp_silence]
      by_cases silenced : now < kept.silencedUntil
      · rw [if_pos silenced]
        rfl
      rw [if_neg silenced]
      rcases waiting.silence with same | ⟨zero, -⟩
      · rw [same]
      · rw [zero]
        exact ⟨fun early => absurd early (Int.not_lt.mpr later.le), fun early => absurd early silenced⟩

theorem Standing.quiet (standing : Standing restored op (some st)) (quiet : st.firing = false) : Waiting restored op st := by
  unfold Standing at standing
  dsimp only at standing
  rwa [quiet, if_neg Bool.false_ne_true] at standing

theorem Standing.lit (standing : Standing restored op (some st)) (firing : st.firing = true) : restored = none := by
  unfold Standing at standing
  dsimp only at standing
  rwa [if_pos firing] at standing

theorem Standing.congr (standing : Standing restored op (some st)) (firing : st'.firing = st.firing)
    (waits : st.firing = false → Waiting restored op st → Waiting restored op' st') : Standing restored op' (some st') := by
  unfold Standing
  dsimp only
  rw [firing]
  split
  · rename_i lit
    exact standing.lit lit
  · rename_i dark
    have quiet := Bool.eq_false_of_not_eq_true dark
    exact waits quiet (standing.quiet quiet)

end Series

/-! One step. -/

section Steps

variable {o o' : Operated num} {key : Bytes}

theorem inv_applyOps (inv : o.Inv key) (repeats : Operated.Repeats o.engine ops key) :
    Operated.Inv ⟨o.engine.applyOps ops, ops, fun _ => false⟩ key := by
  have standing := inv.standing
  unfold Operated.Repeats at repeats
  refine ⟨?_, fun ended => (by cases ended), inv.notify⟩
  simp only [Operated.current, applyOps]
  cases found : o.engine.states key with
  | none =>
    simp only [found] at repeats
    simp only [map_none, isSome_none, if_false, Standing]
    rcases repeats with none | given
    · rw [none, or_none]
    · cases there : ops key with
      | none => exact absurd there given
      | some op => rfl
  | some st =>
    rw [found] at standing
    simp only [found] at repeats
    exact standing.congr (applyOp_silence (ops key) st).2.1 fun quiet waiting =>
      waiting.apply (repeats quiet).1 (repeats quiet).2

variable (en : Engine num)

theorem evalSample_restored (rule : Rule num) (s : Sample num) (now : Instant)
    (other : key ≠ rule.key s) : (en.evalSample rule s now).engine.restored key = en.restored key := by
  obtain ⟨out, moves, engine, -⟩ := evalSample_moves en rule s now
  rw [engine]
  change out.engine.restored key = en.restored key
  rcases moves.engine with same | begun
  · rw [same]
  · rw [begun]
    exact update_of_ne other _ _

variable {rule : Rule num} {s : Sample num} {now : Instant}

theorem observed_ops (rule : Rule num) (s : Sample num) :
    (en.observed rule s).silencedUntil = (en.stateFor rule (rule.key s)).silencedUntil ∧
      (en.observed rule s).ack = (en.stateFor rule (rule.key s)).ack := by
  unfold observed breached SeriesState.ack
  cases rule.type with
  | trap | threshold => exact ⟨rfl, rfl⟩
  | baseline =>
    dsimp only
    split <;> exact ⟨rfl, rfl⟩

theorem standing_observed (inv : o.Inv (rule.key s)) :
    Standing (o.engine.restored (rule.key s)) (o.current (rule.key s))
      (some (o.engine.observed rule s)) := by
  have standing := inv.standing
  obtain ⟨silence, ack⟩ := observed_ops o.engine rule s
  obtain ⟨firing, -, last, -⟩ := observed_keeps o.engine rule s
  cases found : o.engine.states (rule.key s) with
  | none =>
    rw [found] at standing
    simp only [stateFor, found] at firing silence ack last
    unfold Standing
    dsimp only
    rw [firing]
    exact ⟨.inr standing, .inr ⟨silence, standing⟩, .inr ⟨ack, standing⟩, last⟩
  | some st =>
    rw [found] at standing
    simp only [stateFor, found] at firing silence ack last
    exact standing.congr firing fun _ waiting => waiting.congr silence ack last

theorem inv_own (inv : o.Inv (rule.key s)) (now : Instant) :
    (o.evaluate rule s now).Inv (rule.key s) := by
  have standing := standing_observed inv
  obtain ⟨out, moves, engine, -, resolve, -⟩ := evalSample_moves o.engine rule s now
  have states : (o.evaluate rule s now).engine.states (rule.key s) = some out.st := by
    simp only [Operated.evaluate, engine, Engine.setState, update_self]
  have kept : (o.evaluate rule s now).engine.restored (rule.key s) =
      out.engine.restored (rule.key s) := by
    simp only [Operated.evaluate, engine, Engine.setState]
  have notify : out.engine.restoredNotify (rule.key s) = none → 
      (o.evaluate rule s now).engine.restoredNotify (rule.key s) = none := by
    simp only [Operated.evaluate, engine]
    exact fun same => same
  have same : out.resolve = false → (o.evaluate rule s now).current (rule.key s) =
      o.current (rule.key s) := by
    intro still
    simp only [Operated.current, Operated.evaluate, resolve, still, Bool.false_eq_true, if_false]
  refine ⟨?_, fun _ => (by rw [states]; simp), ?_⟩
  · rw [states, kept]
    cases moves with
    | warming _ moved | pending _ _ _ moved | normal _ _ _ moved =>
      rw [same (by rw [moved]), moved]
      exact standing.congr rfl fun _ waiting => waiting.congr rfl rfl rfl
    | resolved cold clear firing moved =>
      have ended : (o.evaluate rule s now).current (rule.key s) = none := by
        simp only [Operated.current, Operated.evaluate, resolve, moved, Engine.resolve, if_true, update_self]
      rw [ended, moved]
      change Waiting (o.engine.restored _) none _
      rw [standing.lit firing]
      exact ⟨.inl rfl, .inl rfl, .inl rfl, rfl⟩
    | fired cold breach reached fires =>
      have on : out.st.firing = true := by
        rw [fires.firing]
        by_cases firing : (o.engine.observed rule s).firing = true
        · rw [entered_again firing]
          exact firing
        · exact (entered_first (Bool.eq_false_of_not_eq_true firing)).firing
      rw [fires.engine]
      unfold Standing
      dsimp only
      rw [if_pos on]
      by_cases firing : (o.engine.observed rule s).firing = true
      · rw [if_pos firing]
        exact standing.lit firing
      · rw [if_neg firing]
        exact update_self _ _ _
  · apply notify
    rcases moves.engine with same | begun
    · rw [same]
      exact inv.notify
    · rw [begun]
      exact update_self _ _ _

theorem inv_other (inv : o.Inv key) (other : key ≠ rule.key s) (now : Instant) :
    (o.evaluate rule s now).Inv key := by
  have elsewhere := evalSample_elsewhere o.engine rule s now
  have ended : (o.evaluate rule s now).ended key = o.ended key := by
    unfold Operated.evaluate
    split
    · exact update_of_ne other _ _
    · rfl
  have states : (o.evaluate rule s now).engine.states key = o.engine.states key := elsewhere.states key other
  constructor
  · rw [Operated.current, ended, states]
    change Standing ((o.engine.evalSample rule s now).engine.restored key) (if o.ended key then none else o.latest key) _
    rw [evalSample_restored o.engine rule s now other]
    exact inv.standing
  · rw [ended, states]
    exact inv.known
  · exact (elsewhere.restoredNotify key other).trans inv.notify

theorem inv_sweep (inv : o.Inv key) (rule : Rule num) : Operated.Inv { o with engine := o.engine.dropDue rule } key := by
  have idle : o.engine.due rule key = false := by simp [due, stale, inv.notify]
  refine ⟨?_, inv.known, ?_⟩
  · simp only [dropDue, idle]
    exact inv.standing
  · simp only [dropDue, idle]
    exact inv.notify

theorem inv_opStep {label : OpLabel num} (inv : ∀ key, o.Inv key) (admitted : o.Admits label)
    (done : o.step label = some o') : ∀ key, o'.Inv key := by
  intro key
  cases label with
  | applyOps ops =>
    cases done
    exact inv_applyOps (inv key) (admitted key)
  | evaluate rule s now =>
    cases done
    split
    · by_cases own : key = rule.key s
      · subst own
        exact inv_own (inv _) now
      · exact inv_other (inv key) own now
    · exact inv key
  | sweep rule =>
    cases done
    exact inv_sweep (inv key) rule
  | windows windows =>
    cases done
    exact ⟨(inv key).standing, (inv key).known, (inv key).notify⟩

theorem inv_opRun {labels : List (OpLabel num)} (along : Along Operated.step Operated.Admits .start labels)
    (ran : run Operated.step .start labels = some o) : ∀ key, o.Inv key :=
  run_invariant (fun _ _ _ inv admitted done => inv_opStep inv admitted done) inv_start along ran

end Steps

/-! The beginning of an episode. -/

def Engine.lit (en : Engine num) (key : Bytes) : Bool := (en.states key).any (·.firing)

section Begin

variable {o : Operated num} {rule : Rule num} {s : Sample num} {now : Instant} {op : Option RestoredOp}

theorem fire_inForce (inForce : InForce op now st) (last : st.lastNotified = 0) (en : Engine num)
    (rule : Rule num) (s : Sample num) (reason : Bytes) :
    (fire en rule st s reason true now).st.ack = ackOf op ∧
      (en.activeMaintenance rule s.labels now = none →
        InForce op now (fire en rule st s reason true now).st ∧
          ((fire en rule st s reason true now).alert.isSome = true ↔ ¬(now : Time) < silenceOf op)) := by
  unfold fire
  cases held : en.activeMaintenance rule s.labels now with
  | some endsAt => exact ⟨inForce.ack, fun none => by cases none⟩
  | none =>
    dsimp only
    by_cases silenced : now < st.silencedUntil
    · rw [if_pos silenced]
      have within := inForce.silence.mp silenced
      exact ⟨inForce.ack, fun _ => ⟨inForce, by simp [within]⟩⟩
    · have due : notifyDue rule st now = true := by simp [notifyDue, last]
      have free := fun inside => silenced (inForce.silence.mpr inside)
      rw [if_neg silenced, if_pos due]
      exact ⟨inForce.ack, fun _ => ⟨{ inForce with }, ⟨fun _ => free, fun _ => rfl⟩⟩⟩

variable {key : Bytes}

theorem entered_inForce (quiet : st.firing = false)
    (waiting : Waiting (en.restored key) op st) (notify : en.restoredNotify key = none) (later : 0 < (now : Time)) :
    InForce op now (entered en key st now) ∧ (entered en key st now).lastNotified = 0 := by
  have begun : Engine.Begun en key st now (entered en key st now) := entered_first quiet
  have last := begun.lastNotified
  rw [notify, waiting.lastNotified] at last
  refine ⟨?_, last⟩
  have first : ¬st.firing = true := by simp [quiet]
  have met : Waiting (en.restored key) op { st with breachCount := st.breachCount + 1, firing := true, since := now } :=
    waiting.congr rfl rfl rfl
  unfold entered beginEpisode
  rw [if_neg first, notify]
  exact met.restore later

theorem transition_begins (quiet : st.firing = false)
    (lit : (en.transition key rule st s d now).st.firing = true) :
    en.transition key rule st s d now =
      fire (beginEpisode en key st now).1 rule (entered en key st now) s d.reason true now := by
  have first : ¬st.firing = true := by simp [quiet]
  have moves : Engine.Moves en key rule st s d now (en.transition key rule st s d now) := transition_moves
  cases moves with
  | warming _ same | pending _ _ _ same | normal _ _ _ same =>
    rw [same] at lit
    exact absurd lit first
  | resolved cold clear firing same => exact absurd firing first
  | fired cold breach reached fires =>
    have enough : ¬st.breachCount + 1 < max rule.forN 1 := Nat.not_lt.mpr reached
    unfold transition entered
    simp only [cold, breach, quiet, enough]
    rfl

/-- When an episode of a series begins, what is in force is the operation of the most
recent `ApplyOps`: its acknowledgement, and its silence if it is not over. Outside the
maintenance windows the episode is notified at once unless that silence forbids it. The
condition is that `ApplyOps` found every quiet series repeated, and has been called since
the series' last episode. -/
theorem episode_follows_store {labels : List (OpLabel num)} (along : Along Operated.step Operated.Admits .start labels)
    (ran : run Operated.step .start labels = some o) (later : 0 < (now : Time))
    (quiet : o.engine.lit (stateKey rule.id s.labels) = false)
    (lit : (o.engine.evalSample rule s now).engine.lit (stateKey rule.id s.labels) = true)
    (called : o.ended (stateKey rule.id s.labels) = false ∨ o.latest (stateKey rule.id s.labels) = none) :
    ∃ st, (o.engine.evalSample rule s now).engine.states (stateKey rule.id s.labels) = some st ∧
      st.ack = ackOf (o.latest (stateKey rule.id s.labels)) ∧
      (o.engine.activeMaintenance rule s.labels now = none →
        ((now : Time) < st.silencedUntil ↔ (now : Time) < silenceOf (o.latest (stateKey rule.id s.labels))) ∧
          ((o.engine.evalSample rule s now).alert.isSome = true ↔
            ¬(now : Time) < silenceOf (o.latest (stateKey rule.id s.labels)))) := by
  have inv := inv_opRun along ran (stateKey rule.id s.labels)
  have current : o.current (stateKey rule.id s.labels) = o.latest (stateKey rule.id s.labels) := by
    unfold Operated.current
    rcases called with since | nothing
    · rw [since, if_neg Bool.false_ne_true]
    · rw [nothing, ite_self]
  have dark : (o.engine.observed rule s).firing = false := by
    rw [(observed_keeps o.engine rule s).1]
    unfold Engine.lit at quiet
    unfold stateFor
    cases found : o.engine.states (stateKey rule.id s.labels) with
    | none => rfl
    | some st => simpa [found] using quiet
  have waiting := Standing.quiet (standing_observed inv) dark
  rw [current] at waiting
  obtain ⟨inForce, last⟩ := entered_inForce dark waiting inv.notify later
  have after : (o.engine.transition (stateKey rule.id s.labels) rule (o.engine.observed rule s) s
      (o.engine.evalSample rule s now).decision now).st.firing = true := by
    have set : (o.engine.evalSample rule s now).engine.states (stateKey rule.id s.labels) = some _ :=
      update_self _ _ _
    rw [Engine.lit, set] at lit
    exact lit
  have begins := transition_begins dark after
  obtain ⟨ack, open_⟩ := fire_inForce inForce last
    (beginEpisode o.engine (stateKey rule.id s.labels) (o.engine.observed rule s) now).1 rule s
    (o.engine.evalSample rule s now).decision.reason
  rw [← begins] at ack open_
  refine ⟨_, update_self _ _ _, ack, fun unmaintained => ?_⟩
  obtain ⟨inForce', alert⟩ := open_ unmaintained
  exact ⟨inForce'.silence, alert⟩

end Begin

def opFor (key : Bytes) (op : RestoredOp) : Bytes → Option RestoredOp := fun k => if k = key then some op else none

/-- A silence that has run out does not hold back the first episode. -/
theorem episode_follows_store_expired :
    ∃ o : Operated whole, run Operated.step .start [.applyOps (opFor series ⟨5, lit "op", 4⟩)] = some o ∧
      (o.engine.evalSample above (reading 250) (tick 9)).alert.isSome = true ∧
      ∃ st, (o.engine.evalSample above (reading 250) (tick 9)).engine.states series = some st ∧ st.ackedBy = lit "op" := by
  have along : Along Operated.step Operated.Admits (.start : Operated whole)
      [.applyOps (opFor series ⟨5, lit "op", 4⟩)] := fun t _ => ⟨fun key => .inl rfl, trivial⟩
  refine ⟨_, rfl, ?_⟩
  have fires : (((Operated.start : Operated whole).engine.applyOps (opFor series ⟨5, lit "op", 4⟩)).evalSample above
      (reading 250) (tick 9)).engine.lit (stateKey above.id (reading 250).labels) = true := by decide +kernel
  obtain ⟨st, found, ack, notified⟩ := episode_follows_store along rfl (by decide) rfl fires (.inl rfl)
  have latest : ackOf (opFor series ⟨5, lit "op", 4⟩ series) = (lit "op", 4) := by decide +kernel
  refine ⟨((notified rfl).2).mpr (by decide +kernel), st, found, ?_⟩
  exact congrArg Prod.fst (ack.trans latest)

/-- A silence is set while the series has no state and lifted again: `ApplyOps` keeps it for
the first episode, which is not notified. -/
theorem lifted_silence_kept :
    (run Operated.step (.start : Operated whole) [.applyOps (opFor series ⟨100, [], 0⟩), .applyOps fun _ => none]).map
        (fun o => ((o.latest series).isNone, (o.engine.evalSample above (reading 250) (tick 9)).alert.isNone,
          ((o.engine.evalSample above (reading 250) (tick 9)).engine.states series).map fun st =>
            (st.firing, st.silencedUntil))) =
      some (true, true, some (true, 100)) := by
  decide +kernel

end Probectl.Alerts
