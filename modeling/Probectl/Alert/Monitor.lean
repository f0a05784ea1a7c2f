import Probectl.Alert.Engine
import Probectl.Lib.Run
import Probectl.Lib.Text

/-! The engine beside its durable notification rows: the notify hook writes in line, the
resolve hook runs some time after it was started, and a fresh engine may take over with
what the rows hold. What every transition does to a series is said once. -/
namespace Probectl.Alerts

open Strings Function Run SeriesState

structure Episode where
  start : Time
  last : Option Time
  deriving DecidableEq

def notified (episode : Option Episode) : Bool := (episode.bind Episode.last).isSome

variable (num : Numbers)

/-- `deleting` counts the resolve hooks that have not run. `awaited` says that an engine
took over in a notified episode and has not seen the series fire. -/
structure Monitor where
  engine : Engine num
  rows : Bytes → Option NotifyState
  deleting : Bytes → Nat
  episodes : Bytes → Option Episode
  awaited : Bytes → Bool

def Monitor.start : Monitor num := ⟨.new num, fun _ => none, fun _ => 0, fun _ => none, fun _ => false⟩

/-- `sample` is one pass of the loop of `Evaluate`, `sweep` what comes behind the loop. -/
inductive Act where
  | sample (rule : Rule num) (s : Sample num) (now : Instant)
  | sweep (rule : Rule num) (now : Instant)
  | restoreOps (ops : Bytes → Option RestoredOp)
  | applyOps (ops : Bytes → Option RestoredOp)
  | maintain (windows : List MaintenanceWindow)
  | silence (key : Bytes) (d : Time) (now : Instant)
  | acknowledge (key by' : Bytes) (now : Instant)
  | hook (key : Bytes)
  | replace

variable {num}

def track (episode : Option Episode) (d : Decision) (st : SeriesState num) (alert : Option (Alert num)) (now : Instant) :
    Option Episode :=
  if d.warming then episode
  else if d.breached then
    if st.firing then
      some ⟨(episode.map Episode.start).getD now, if alert.isSome then some now else episode.bind Episode.last⟩
    else episode
  else none

namespace Monitor

def evaluated (m : Monitor num) (rule : Rule num) (s : Sample num) (now : Instant) : Monitor num :=
  let key := stateKey rule.id s.labels
  let out := m.engine.evalSample rule s now
  let st := (out.engine.states key).getD (zero num)
  { engine := out.engine,
    rows := match out.pending with
      | some ns => update m.rows key (some ns)
      | none => m.rows,
    deleting := if out.resolve then update m.deleting key (m.deleting key + 1) else m.deleting,
    episodes := update m.episodes key (track (m.episodes key) out.decision st out.alert now),
    awaited := update m.awaited key (m.awaited key && !st.firing) }

def step (m : Monitor num) : Act num → Option (Monitor num)
  | .sample rule s now => some (if rule.enabled then m.evaluated rule s now else m)
  | .sweep rule _ =>
    some
      { m with
        engine := m.engine.dropDue rule,
        rows := fun key => if m.engine.due rule key then none else m.rows key,
        episodes := fun key => if m.engine.due rule key then none else m.episodes key }
  | .restoreOps ops => some { m with engine := m.engine.restoreOps ops }
  | .applyOps ops => some { m with engine := m.engine.applyOps ops }
  | .maintain windows => some { m with engine := m.engine.replaceMaintenanceWindows windows }
  | .silence key d now =>
    match m.engine.silence key d now with
    | .ok engine => some { m with engine }
    | .error _ => some m
  | .acknowledge key by' now =>
    match m.engine.acknowledge key by' now with
    | .ok engine => some { m with engine }
    | .error _ => some m
  | .hook key =>
    if m.deleting key = 0 then none
    else
      some
        { m with
          rows := update m.rows key none, deleting := update m.deleting key (m.deleting key - 1) }
  | .replace =>
    some
      { m with
        engine := (Engine.new num).restoreNotifications m.rows,
        awaited := fun key => notified (m.episodes key) }

end Monitor

/-! What a transition does. -/

variable (op : Option RestoredOp)

namespace Engine

section Transition
variable {en : Engine num} {key : Bytes} {rule : Rule num} {st : SeriesState num} {s : Sample num} {d : Decision} {now : Instant}

def entered (en : Engine num) (key : Bytes) (st : SeriesState num) (now : Instant) : SeriesState num :=
  if st.firing then { st with breachCount := st.breachCount + 1 }
  else (beginEpisode en key { st with breachCount := st.breachCount + 1, firing := true } now).2

structure Fired (en : Engine num) (rule : Rule num) (st : SeriesState num) (s : Sample num) (now : Instant)
    (out : Outcome num) : Prop where
  engine : out.engine = en
  firing : out.st.firing = st.firing
  breachCount : out.st.breachCount = st.breachCount
  base : out.st.base = st.base
  since : out.st.since = st.since
  resolve : out.resolve = false
  alert : out.alert = none ∧ out.st.lastNotified = st.lastNotified ∨
    (∃ a, out.alert = some a ∧ a.state = .firing) ∧ out.st.lastNotified = now
  open' : en.activeMaintenance rule s.labels now = none → ¬(now : Time) < out.st.silencedUntil → out.st.lastNotified ≠ 0

theorem fire_fired (en : Engine num) (rule : Rule num) (st : SeriesState num) (s : Sample num) (reason : Bytes) (first : Bool)
    (now : Instant) : Fired en rule st s now (fire en rule st s reason first now) := by
  unfold fire
  cases held : en.activeMaintenance rule s.labels now with
  | some endsAt => exact ⟨rfl, rfl, rfl, rfl, rfl, rfl, .inl ⟨rfl, rfl⟩, fun none => nomatch held.symm.trans none⟩
  | none =>
    dsimp only
    by_cases silenced : now < st.silencedUntil
    · rw [if_pos silenced]
      exact ⟨rfl, rfl, rfl, rfl, rfl, rfl, .inl ⟨rfl, rfl⟩, fun _ loud => absurd silenced loud⟩
    rw [if_neg silenced]
    by_cases due : notifyDue rule st now = true
    · rw [if_pos due]
      exact ⟨rfl, rfl, rfl, rfl, rfl, rfl, .inr ⟨⟨_, rfl, rfl⟩, rfl⟩, fun _ _ => now.2⟩
    rw [if_neg due]
    refine ⟨rfl, rfl, rfl, rfl, rfl, rfl, .inl ⟨rfl, rfl⟩, fun _ _ zero => due ?_⟩
    rw [notifyDue, Bool.or_eq_true]
    exact .inl (decide_eq_true zero)

inductive Moves (en : Engine num) (key : Bytes) (rule : Rule num) (st : SeriesState num) (s : Sample num) (d : Decision)
    (now : Instant) (out : Outcome num) : Prop where
  | warming (warm : d.warming = true) (same : out = ⟨en, { st with breachCount := 0 }, none, .warming, false⟩)
  | pending (cold : d.warming = false) (breach : d.breached = true) (early : st.breachCount + 1 < max rule.forN 1)
      (same : out = ⟨en, { st with breachCount := st.breachCount + 1 }, none, .pending, false⟩)
  | fired (cold : d.warming = false) (breach : d.breached = true) (reached : max rule.forN 1 ≤ st.breachCount + 1)
      (fires : Fired (if st.firing then en else (beginEpisode en key st now).1) rule (entered en key st now) s now out)
  | resolved (cold : d.warming = false) (clear : d.breached = false) (firing : st.firing = true)
      (same : out = resolve en rule { st with breachCount := 0 } s d.reason now)
  | normal (cold : d.warming = false) (clear : d.breached = false) (quiet : st.firing = false)
      (same : out = ⟨en, { st with breachCount := 0 }, none, .normal, false⟩)

theorem transition_moves : Moves en key rule st s d now (en.transition key rule st s d now) := by
  unfold transition
  by_cases warm : d.warming = true
  · rw [if_pos warm]
    exact .warming warm rfl
  have cold := Bool.not_eq_true _ ▸ warm
  rw [if_neg warm]
  by_cases breach : d.breached = true
  · rw [if_pos breach]
    by_cases early : st.breachCount + 1 < max rule.forN 1
    · rw [if_pos early]
      exact .pending cold breach early rfl
    have reached := Nat.le_of_not_lt early
    rw [if_neg early]
    by_cases firing : st.firing = true
    · have met : entered en key st now = { st with breachCount := st.breachCount + 1 } := if_pos firing
      have fires := fire_fired en rule (entered en key st now) s d.reason false now
      rw [if_pos firing]
      refine .fired cold breach reached ?_
      rw [if_pos firing]
      rwa [met] at fires ⊢
    · have met : entered en key st now =
          (beginEpisode en key { st with breachCount := st.breachCount + 1, firing := true } now).2 := if_neg firing
      have fires := fire_fired (beginEpisode en key st now).1 rule (entered en key st now) s d.reason true now
      rw [if_neg firing]
      refine .fired cold breach reached ?_
      rw [if_neg firing]
      rwa [met] at fires ⊢
  · have clear := Bool.not_eq_true _ ▸ breach
    rw [if_neg breach]
    by_cases firing : st.firing = true
    · rw [if_pos firing]
      exact .resolved cold clear firing rfl
    · rw [if_neg firing]
      exact .normal cold clear (Bool.not_eq_true _ ▸ firing) rfl

theorem Moves.engine (moves : Moves en key rule st s d now out) :
    out.engine = en ∨ out.engine = (beginEpisode en key st now).1 := by
  cases moves with
  | warming _ same | pending _ _ _ same | resolved _ _ _ same | normal _ _ _ same => exact .inl (same ▸ rfl)
  | fired _ _ _ fires =>
    rw [fires.engine]
    split
    · exact .inl rfl
    · exact .inr rfl

theorem restoreOp_keeps (st : SeriesState num) (now : Instant) :
    (restoreOp op st now).firing = st.firing ∧ (restoreOp op st now).breachCount = st.breachCount ∧
      (restoreOp op st now).base = st.base ∧ (restoreOp op st now).lastNotified = st.lastNotified ∧
      (restoreOp op st now).since = st.since := by
  cases op with
  | none => exact ⟨rfl, rfl, rfl, rfl, rfl⟩
  | some op =>
    unfold restoreOp
    dsimp only
    split_ifs <;> exact ⟨rfl, rfl, rfl, rfl, rfl⟩

theorem entered_again (firing : st.firing = true) :
    entered en key st now = { st with breachCount := st.breachCount + 1 } := if_pos firing

structure Begun (en : Engine num) (key : Bytes) (st : SeriesState num) (now : Instant) (met : SeriesState num) : Prop where
  firing : met.firing = true
  breachCount : met.breachCount = st.breachCount + 1
  base : met.base = st.base
  lastNotified : met.lastNotified = ((en.restoredNotify key).map NotifyState.lastNotified).getD st.lastNotified
  since : en.restoredNotify key = none → met.since = now

theorem entered_first (quiet : st.firing = false) : Begun en key st now (entered en key st now) := by
  have first : ¬st.firing = true := by simp [quiet]
  obtain ⟨firing, breachCount, base, lastNotified, since⟩ := restoreOp_keeps (en.restored key)
    { st with breachCount := st.breachCount + 1, firing := true, since := now } now
  unfold entered
  rw [if_neg first]
  unfold beginEpisode
  cases held : en.restoredNotify key with
  | none => exact ⟨firing, breachCount, base, by rw [held]; exact lastNotified, fun _ => since⟩
  | some ns => exact ⟨firing, breachCount, base, by rw [held]; rfl, fun none => nomatch held.symm.trans none⟩

end Transition

end Engine

/-! One evaluated sample, seen at one key. -/

abbrev Rule.key (rule : Rule num) (s : Sample num) : Bytes := stateKey rule.id s.labels

variable {key : Bytes}

namespace Engine

section Evaluate
variable {en : Engine num} {rule : Rule num} {s : Sample num} {now : Instant}

def observed (en : Engine num) (rule : Rule num) (s : Sample num) : SeriesState num :=
  { (breached rule (en.stateFor rule (stateKey rule.id s.labels)) s).2 with
    labels := s.labels, lastReason := (breached rule (en.stateFor rule (stateKey rule.id s.labels)) s).1.reason }

theorem breached_keeps (rule : Rule num) (st : SeriesState num) (s : Sample num) :
    (breached rule st s).2.firing = st.firing ∧ (breached rule st s).2.breachCount = st.breachCount ∧
      (breached rule st s).2.lastNotified = st.lastNotified ∧ (breached rule st s).2.since = st.since := by
  unfold breached
  cases rule.type with
  | trap | threshold => exact ⟨rfl, rfl, rfl, rfl⟩
  | baseline =>
    dsimp only
    split <;> exact ⟨rfl, rfl, rfl, rfl⟩

theorem observed_keeps (en : Engine num) (rule : Rule num) (s : Sample num) :
    (en.observed rule s).firing = (en.stateFor rule (rule.key s)).firing ∧
      (en.observed rule s).breachCount = (en.stateFor rule (rule.key s)).breachCount ∧
      (en.observed rule s).lastNotified = (en.stateFor rule (rule.key s)).lastNotified ∧
      (en.observed rule s).since = (en.stateFor rule (rule.key s)).since :=
  breached_keeps rule _ s

theorem stateFor_cases (en : Engine num) (rule : Rule num) (key : Bytes) :
    en.states key = some (en.stateFor rule key) ∨
      en.states key = none ∧ (en.stateFor rule key).firing = false ∧ (en.stateFor rule key).lastNotified = 0 := by
  unfold stateFor
  cases en.states key with
  | none => exact .inr ⟨rfl, rfl, rfl⟩
  | some st => exact .inl rfl

theorem evalSample_moves (en : Engine num) (rule : Rule num) (s : Sample num) (now : Instant) :
    ∃ out,
      Moves en (rule.key s) rule (en.observed rule s) s (en.evalSample rule s now).decision now out ∧
        (en.evalSample rule s now).engine = out.engine.setState (rule.key s) out.st ∧
        (en.evalSample rule s now).alert = out.alert ∧ (en.evalSample rule s now).resolve = out.resolve ∧
        (en.evalSample rule s now).pending =
          (match out.alert with
          | some alert => if alert.state = .firing then some ⟨out.st.since, out.st.lastNotified⟩ else none
          | none => none) :=
  ⟨_, transition_moves, rfl, rfl, rfl, rfl⟩

structure Elsewhere (key : Bytes) (en en' : Engine num) : Prop where
  states : ∀ k, k ≠ key → en'.states k = en.states k
  restoredNotify : ∀ k, k ≠ key → en'.restoredNotify k = en.restoredNotify k

theorem beginEpisode_keeps (en : Engine num) (key : Bytes) (st : SeriesState num) (now : Instant) :
    Elsewhere key en (beginEpisode en key st now).1 :=
  ⟨fun _ _ => rfl, fun _ other => update_of_ne other _ _⟩

theorem elsewhere_setState (same : Elsewhere key en en') (st : SeriesState num) :
    Elsewhere key en (en'.setState key st) :=
  ⟨fun k other => (update_of_ne other _ _).trans (same.states k other), same.restoredNotify⟩

theorem evalSample_elsewhere (en : Engine num) (rule : Rule num) (s : Sample num) (now : Instant) :
    Elsewhere (rule.key s) en (en.evalSample rule s now).engine := by
  have refl : Elsewhere (rule.key s) en en := ⟨fun _ _ => rfl, fun _ _ => rfl⟩
  obtain ⟨out, moves, engine, -⟩ := evalSample_moves en rule s now
  rw [engine]
  apply elsewhere_setState
  rcases moves.engine with same | begun
  · exact same ▸ refl
  · exact begun ▸ beginEpisode_keeps en _ _ now

end Evaluate

end Engine

/-! The part of the system that concerns one key. -/

variable (num) in
structure Core where
  firing : Bool
  breachCount : Nat
  lastNotified : Time
  since : Time
  base : Option (Baseline num)

def SeriesState.core (st : SeriesState num) : Core num := ⟨st.firing, st.breachCount, st.lastNotified, st.since, st.base⟩

variable (num) in
structure View where
  core : Option (Core num)
  restored : Option NotifyState
  row : Option NotifyState
  deleting : Nat
  episode : Option Episode
  awaited : Bool

namespace Monitor

def view (m : Monitor num) (key : Bytes) : View num :=
  { core := (m.engine.states key).map core, restored := m.engine.restoredNotify key, row := m.rows key,
    deleting := m.deleting key, episode := m.episodes key, awaited := m.awaited key }

variable {m : Monitor num}

theorem view_setState (held : m.engine.states key = some st)
    (same : st'.core = st.core) (k : Bytes) : ({ m with engine := m.engine.setState key st' } : Monitor num).view k = m.view k := by
  by_cases own : k = key
  · subst own
    simp [view, Engine.setState, held, same]
  · simp [view, Engine.setState, update_of_ne own]

theorem active_ok {en : Engine num} (ok : en.active key = .ok st) :
    en.states key = some st := by
  unfold Engine.active at ok
  split at ok
  · rename_i found here
    split at ok
    · cases ok
      exact here
    · cases ok
  · cases ok

variable {now : Instant}

theorem view_silence {engine : Engine num}
    (ok : m.engine.silence key d now = .ok engine) (k : Bytes) : ({ m with engine } : Monitor num).view k = m.view k := by
  obtain ⟨-, ok⟩ := guard_ok ok
  obtain ⟨st, found, ok⟩ := bind_ok ok
  cases ok
  apply view_setState (active_ok found)
  rfl

theorem view_acknowledge {engine : Engine num}
    (ok : m.engine.acknowledge key by' now = .ok engine) (k : Bytes) : ({ m with engine } : Monitor num).view k = m.view k := by
  obtain ⟨st, found, ok⟩ := bind_ok ok
  cases ok
  apply view_setState (active_ok found)
  rfl

theorem applyOp_core (st : SeriesState num) : (Engine.applyOp op st).core = st.core := by
  cases op with
  | none => rfl
  | some op =>
    unfold Engine.applyOp
    dsimp only
    split <;> rfl

inductive Steps (m : Monitor num) (key : Bytes) (m' : Monitor num) : Act num → Prop where
  | same (act : Act num) (still : m'.view key = m.view key) : Steps m key m' act
  | sample (rule : Rule num) (s : Sample num) (now : Instant) (enabled : rule.enabled = true)
      (own : stateKey rule.id s.labels = key) (next : m' = m.evaluated rule s now) : Steps m key m' (.sample rule s now)
  | swept (rule : Rule num) (now : Instant) (due : m.engine.due rule key = true) : Steps m key m' (.sweep rule now)
  | hook (running : m.deleting key ≠ 0)
      (next : m'.view key = { m.view key with row := none, deleting := m.deleting key - 1 }) : Steps m key m' (.hook key)
  | replace (next : m'.view key =
      { m.view key with core := none, restored := m.rows key, awaited := notified (m.episodes key) }) :
      Steps m key m' .replace

def rowAfter (row : Option NotifyState) (out : Engine.Outcome num) : Option NotifyState :=
  match out.alert with
  | some alert => if alert.state = .firing then some ⟨out.st.since, out.st.lastNotified⟩ else row
  | none => row

def afterMove (v : View num) (key : Bytes) (d : Decision) (out : Engine.Outcome num) (now : Instant) : View num :=
  { core := some out.st.core, restored := out.engine.restoredNotify key, row := rowAfter v.row out,
    deleting := v.deleting + (if out.resolve then 1 else 0), episode := track v.episode d out.st out.alert now,
    awaited := v.awaited && !out.st.firing }

theorem view_own (m : Monitor num) (rule : Rule num) (s : Sample num) (now : Instant) :
    ∃ out,
      Engine.Moves m.engine (rule.key s) rule (m.engine.observed rule s) s
          (m.engine.evalSample rule s now).decision now out ∧
        (m.engine.evalSample rule s now).alert = out.alert ∧
        ((m.engine.evalSample rule s now).engine.states (rule.key s)) = some out.st ∧
        (m.evaluated rule s now).view (rule.key s) =
          afterMove (m.view (rule.key s)) (rule.key s) (m.engine.evalSample rule s now).decision out
            now := by
  obtain ⟨out, moves, engine, alert, resolve, pending⟩ := Engine.evalSample_moves m.engine rule s now
  have held : (m.engine.evalSample rule s now).engine.states (rule.key s) = some out.st := by
    rw [engine]
    exact update_self _ _ _
  refine ⟨out, moves, alert, held, ?_⟩
  have row : (m.evaluated rule s now).rows (rule.key s) = rowAfter (m.rows (rule.key s)) out := by
    unfold evaluated rowAfter
    dsimp only
    rw [pending]
    cases out.alert with
    | none => rfl
    | some a =>
      dsimp only
      by_cases firing : a.state = .firing
      · rw [if_pos firing, if_pos firing]
        exact update_self _ _ _
      · rw [if_neg firing, if_neg firing]
  have deleting : (m.evaluated rule s now).deleting (rule.key s) =
      m.deleting (rule.key s) + (if out.resolve then 1 else 0) := by
    unfold evaluated
    dsimp only
    rw [resolve]
    cases out.resolve with
    | true => exact update_self _ _ _
    | false => rfl
  unfold view afterMove
  rw [row, deleting]
  simp only [evaluated, update_self, alert, engine, Engine.setState, Option.map_some, Option.getD_some]

theorem view_other
    (other : key ≠ rule.key s) : (m.evaluated rule s now).view key = m.view key := by
  have elsewhere := Engine.evalSample_elsewhere m.engine rule s now
  have row : (m.evaluated rule s now).rows key = m.rows key := by
    unfold evaluated
    dsimp only
    cases (m.engine.evalSample rule s now).pending with
    | some ns => exact update_of_ne other _ _
    | none => rfl
  have deleting : (m.evaluated rule s now).deleting key = m.deleting key := by
    unfold evaluated
    dsimp only
    split
    · exact update_of_ne other _ _
    · rfl
  unfold view
  rw [row, deleting]
  simp only [evaluated, update_of_ne other, elsewhere.states key other, elsewhere.restoredNotify key other]

theorem step_steps (stepped : m.step act = some m') (key : Bytes) :
    Steps m key m' act := by
  cases act with
  | sample rule s now =>
    dsimp only [step] at stepped
    by_cases enabled : rule.enabled = true
    · rw [if_pos enabled] at stepped
      cases stepped
      by_cases own : rule.key s = key
      · exact .sample rule s now enabled own rfl
      · exact .same _ (view_other fun same => own same.symm)
    · rw [if_neg enabled] at stepped
      cases stepped
      exact .same _ rfl
  | sweep rule now =>
    cases stepped
    by_cases due : m.engine.due rule key = true
    · exact .swept rule now due
    · refine .same _ ?_
      simp [view, Engine.dropDue, due]
  | restoreOps | maintain =>
    cases stepped
    exact .same _ rfl
  | applyOps ops =>
    cases stepped
    refine .same _ ?_
    simp [view, Engine.applyOps, comp_def, applyOp_core]
  | silence other d now =>
    dsimp only [step] at stepped
    split at stepped
    · rename_i engine ok
      cases stepped
      exact .same _ (view_silence ok key)
    · cases stepped
      exact .same _ rfl
  | acknowledge other by' now =>
    dsimp only [step] at stepped
    split at stepped
    · rename_i engine ok
      cases stepped
      exact .same _ (view_acknowledge ok key)
    · cases stepped
      exact .same _ rfl
  | hook other =>
    obtain ⟨running, stepped⟩ := guard_some stepped
    cases stepped
    by_cases own : key = other
    · subst own
      refine .hook running ?_
      simp [view]
    · refine .same _ ?_
      simp [view, update_of_ne own]
  | replace =>
    cases stepped
    refine .replace ?_
    simp [view, Engine.restoreNotifications, Engine.new]

end Monitor

/-! One threshold rule over integers, for concrete runs. -/

def whole : Numbers where
  V := Int
  lt a b := a < b
  le a b := a ≤ b
  eq a b := a = b
  add := (· + ·)
  sub := (· - ·)
  mul := (· * ·)
  div := (· / ·)
  abs a := a.natAbs
  sqrt a := a.natAbs.sqrt
  ofNat n := n
  text := Text.decimalInt

def above : Rule whole :=
  { id := lit "r", tenantID := lit "t", enabled := true, metric := lit "m", type := .threshold, comparison := .gt,
    threshold := (100 : Int), window := 0, sensitivity := (0 : Int), forN := 1, renotifySeconds := 0 }

def reading (value : Int) : Sample whole := ⟨[], value, []⟩

def tick (t : Nat) : Instant := ⟨(t : Int) + 1, Int.ne_of_gt (Int.lt_add_one_of_le (Int.natCast_nonneg t))⟩

def breach (t : Nat) : Act whole := .sample above (reading 250) (tick t)
def clear (t : Nat) : Act whole := .sample above (reading 0) (tick t)

def series : Bytes := stateKey (lit "r") []

def after (acts : List (Act whole)) : Monitor whole := (run Monitor.step (.start whole) acts).getD (.start whole)

end Probectl.Alerts
