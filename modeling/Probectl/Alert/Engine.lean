import Probectl.Lib.Strings

/-! The alert engine of `engine.go`: decisions, the state machine of one series, the
operator actions on it and the maintenance windows. Maps are functions of their keys. -/
namespace Probectl.Alerts

open Strings Function

/-- Nanoseconds; `0` is the zero time. -/
abbrev Time := Int

abbrev Instant := { t : Time // t ≠ 0 }

def second : Time := 10 ^ 9
def maxSilence : Time := 7 * 24 * 3600 * second

abbrev Labels := List (Bytes × Bytes)

structure Numbers where
  V : Type
  lt : V → V → Bool
  le : V → V → Bool
  eq : V → V → Bool
  add : V → V → V
  sub : V → V → V
  mul : V → V → V
  div : V → V → V
  abs : V → V
  sqrt : V → V
  ofNat : Nat → V
  text : V → Bytes

inductive Comparison where
  | gt
  | lt
  | gte
  | lte
  | eq
  | neq
  | other (text : Bytes)
  deriving DecidableEq

def Comparison.text : Comparison → Bytes
  | .gt => lit "gt"
  | .lt => lit "lt"
  | .gte => lit "gte"
  | .lte => lit "lte"
  | .eq => lit "eq"
  | .neq => lit "neq"
  | .other text => text

inductive RuleType where
  | threshold
  | baseline
  | trap
  deriving DecidableEq

inductive State where
  | firing
  | resolved
  deriving DecidableEq

inductive EvaluationState where
  | warming
  | pending
  | firing
  | steady
  | normal
  | resolved
  deriving DecidableEq

inductive Recurrence where
  | none
  | daily
  | weekly
  deriving DecidableEq

structure MaintenanceWindow where
  tenantID : Bytes
  startsAt : Time
  endsAt : Time
  recurrence : Recurrence
  labels : Labels
  ruleIDs : List Bytes

structure RestoredOp where
  silencedUntil : Time
  ackedBy : Bytes
  ackedAt : Time

structure NotifyState where
  firingSince : Time
  lastNotified : Time
  deriving DecidableEq

variable (num : Numbers)

structure Rule where
  id : Bytes
  tenantID : Bytes
  enabled : Bool
  metric : Bytes
  type : RuleType
  comparison : Comparison
  threshold : num.V
  window : Nat
  sensitivity : num.V
  forN : Nat
  renotifySeconds : Int

structure Sample where
  labels : Labels
  value : num.V
  reason : Bytes

structure Alert where
  rule : Rule num
  state : State
  labels : Labels
  value : num.V
  reason : Bytes
  at' : Time

/-! Keys. -/

def label (labels : Labels) (k : Bytes) : Bytes := (labels.lookup k).getD []

def fingerprint (labels : Labels) : Bytes :=
  (sort (labels.map Prod.fst)).flatMap fun k => k ++ (61 :: label labels k) ++ [59]

def stateKey (ruleID : Bytes) (labels : Labels) : Bytes := ruleID ++ (124 :: fingerprint labels)

/-! Baselines. -/

structure Baseline where
  window : Nat
  buf : List num.V

structure BaselineEvaluation where
  anomalous : Bool
  warming : Bool

variable {num}

def newBaseline (window : Nat) : Baseline num := ⟨if window < 2 then 2 else window, []⟩

def Baseline.add (b : Baseline num) (v : num.V) : Baseline num :=
  let buf := b.buf ++ [v]
  { b with buf := if b.window < buf.length then buf.drop 1 else buf }

def meanStd (xs : List num.V) : num.V × num.V :=
  if xs = [] then (num.ofNat 0, num.ofNat 0)
  else
    let n := num.ofNat xs.length
    let mean := num.div (xs.foldl num.add (num.ofNat 0)) n
    let variance := xs.foldl (fun acc x => num.add acc (num.mul (num.sub x mean) (num.sub x mean))) (num.ofNat 0)
    (mean, num.sqrt (num.div variance n))

def Baseline.evaluate (b : Baseline num) (value sensitivity : num.V) : BaselineEvaluation × Baseline num :=
  if b.buf.length < b.window then (⟨false, true⟩, b.add value)
  else
    let (mean, std) := meanStd b.buf
    let anomalous :=
      if num.eq std (num.ofNat 0) then !num.eq value mean
      else num.lt (num.mul sensitivity std) (num.abs (num.sub value mean))
    (⟨anomalous, false⟩, b.add value)

def breaches : Comparison → num.V → num.V → Bool
  | .gt, value, threshold => num.lt threshold value
  | .lt, value, threshold => num.lt value threshold
  | .gte, value, threshold => num.le threshold value
  | .lte, value, threshold => num.le value threshold
  | .eq, value, threshold => num.eq value threshold
  | .neq, value, threshold => !num.eq value threshold
  | .other _, _, _ => false

/-! Maintenance. -/

def Recurrence.period : Recurrence → Time
  | .none => 0
  | .daily => 24 * 3600 * second
  | .weekly => 7 * 24 * 3600 * second

def MaintenanceWindow.matches (w : MaintenanceWindow) (rule : Rule num) (labels : Labels) : Bool :=
  if w.tenantID ≠ [] ∧ rule.tenantID ≠ [] ∧ w.tenantID ≠ rule.tenantID then false
  else if w.ruleIDs ≠ [] ∧ rule.id ∉ w.ruleIDs then false
  else w.labels.all fun (k, want) => label labels k = want

def MaintenanceWindow.occurrenceAt (w : MaintenanceWindow) (t : Time) : Option Time :=
  if w.recurrence = .none then if w.startsAt ≤ t ∧ t < w.endsAt then some w.endsAt else none
  else if t < w.startsAt then none
  else
    let start := w.startsAt + (t - w.startsAt) / w.recurrence.period * w.recurrence.period
    let ends := start + (w.endsAt - w.startsAt)
    if start ≤ t ∧ t < ends then some ends else none

/-! The engine. -/

variable (num) in
/-- What the engine holds of one series. The rendered fields of the active-alert surface
are those the trap sweep reads. -/
structure SeriesState where
  breachCount : Nat
  firing : Bool
  lastNotified : Time
  base : Option (Baseline num)
  labels : Labels
  lastReason : Bytes
  since : Time
  silencedUntil : Time
  ackedBy : Bytes
  ackedAt : Time

variable (num) in
def SeriesState.zero : SeriesState num := ⟨0, false, 0, none, [], [], 0, 0, [], 0⟩

variable (num) in
/-- The windows stand in the order in which ranging over them meets them. -/
structure Engine where
  states : Bytes → Option (SeriesState num)
  restored : Bytes → Option RestoredOp
  restoredNotify : Bytes → Option NotifyState
  maintenance : List MaintenanceWindow

variable (num) in
def Engine.new : Engine num := ⟨fun _ => none, fun _ => none, fun _ => none, []⟩

structure Decision where
  warming : Bool
  breached : Bool
  reason : Bytes

variable (en : Engine num)
variable (rule : Rule num)
variable (key : Bytes)
variable (st : SeriesState num)
variable (s : Sample num)

namespace Engine

def restoreOps (ops : Bytes → Option RestoredOp) : Engine num :=
  { en with restored := fun key => (ops key).or (en.restored key) }

def restoreNotifications (ns : Bytes → Option NotifyState) : Engine num :=
  { en with restoredNotify := fun key => (ns key).or (en.restoredNotify key) }

def applyOp (op : Option RestoredOp) (st : SeriesState num) : SeriesState num :=
  match op with
  | none => { st with silencedUntil := 0 }
  | some op =>
    let st := { st with silencedUntil := op.silencedUntil }
    if op.ackedBy ≠ [] ∧ st.ackedBy = [] then { st with ackedBy := op.ackedBy, ackedAt := op.ackedAt } else st

def applyOps (ops : Bytes → Option RestoredOp) : Engine num :=
  { en with
    states := fun key => (en.states key).map (applyOp (ops key)),
    restored := fun key => if (en.states key).isSome then en.restored key else (ops key).or (en.restored key) }

def replaceMaintenanceWindows (windows : List MaintenanceWindow) : Engine num :=
  { en with maintenance := windows }

def setState : Engine num :=
  { en with states := update en.states key (some st) }

inductive ActionError where
  | duration
  | notActive
  deriving DecidableEq

def active : Except ActionError (SeriesState num) :=
  match en.states key with
  | some st => if st.firing then .ok st else .error .notActive
  | none => .error .notActive

def silence (d : Time) (now : Instant) : Except ActionError (Engine num) :=
  if d < 0 ∨ maxSilence < d then .error .duration
  else do
    let st ← en.active key
    .ok (en.setState key { st with silencedUntil := if d = 0 then 0 else now + d })

def acknowledge (key by' : Bytes) (now : Instant) : Except ActionError (Engine num) := do
  let st ← en.active key
  .ok (en.setState key { st with ackedBy := if by' = [] then lit "unknown" else by', ackedAt := now })

def activeMaintenance (labels : Labels) (now : Time) : Option Time :=
  en.maintenance.findSome? fun w => if w.matches rule labels then w.occurrenceAt now else none

/-! Evaluating a sample. -/

def stateFor : SeriesState num :=
  (en.states key).getD
    { SeriesState.zero num with base := if rule.type = .baseline then some (newBaseline rule.window) else none }

def trapReason : Bytes :=
  if s.reason = [] then lit "active matching traps = " ++ num.text s.value else s.reason

def baselineReason (anomalous : Bool) : Bytes :=
  if anomalous then
    rule.metric ++ lit "=" ++ num.text s.value ++ lit " deviates from its baseline (>" ++ num.text rule.sensitivity ++
      lit " sigma)"
  else rule.metric ++ lit "=" ++ num.text s.value ++ lit " is within its baseline band"

def thresholdReason : Bytes :=
  rule.metric ++ lit "=" ++ num.text s.value ++ lit " " ++ rule.comparison.text ++ lit " " ++ num.text rule.threshold

def breached : Decision × SeriesState num :=
  match rule.type with
  | .trap => (⟨false, num.le (num.ofNat 1) s.value, trapReason s⟩, st)
  | .baseline =>
    let (evaluation, base) := (st.base.getD (newBaseline rule.window)).evaluate s.value rule.sensitivity
    let st := { st with base := some base }
    if evaluation.warming then (⟨true, false, lit "baseline warming"⟩, st)
    else (⟨false, evaluation.anomalous, baselineReason rule s evaluation.anomalous⟩, st)
  | .threshold => (⟨false, breaches rule.comparison s.value rule.threshold, thresholdReason rule s⟩, st)

def restoreOp (op : Option RestoredOp) (st : SeriesState num) (now : Instant) : SeriesState num :=
  match op with
  | none => st
  | some op =>
    let st := if now < op.silencedUntil then { st with silencedUntil := op.silencedUntil } else st
    if op.ackedBy ≠ [] then { st with ackedBy := op.ackedBy, ackedAt := op.ackedAt } else st

def restoreNotify (ns : Option NotifyState) (st : SeriesState num) : SeriesState num :=
  match ns with
  | none => st
  | some ns =>
    { st with since := if ns.firingSince = 0 then st.since else ns.firingSince, lastNotified := ns.lastNotified }

def beginEpisode (now : Instant) : Engine num × SeriesState num :=
  ({ en with
      restored := update en.restored key none, restoredNotify := update en.restoredNotify key none },
    restoreNotify (en.restoredNotify key) (restoreOp (en.restored key) { st with since := now } now))

def notifyDue (now : Instant) : Bool :=
  st.lastNotified = 0 || (0 < rule.renotifySeconds && rule.renotifySeconds * second ≤ now - st.lastNotified)

variable (num) in
structure Outcome where
  engine : Engine num
  st : SeriesState num
  alert : Option (Alert num)
  state : EvaluationState
  resolve : Bool

def newAlert (state : State) (reason : Bytes) (now : Instant) : Alert num :=
  ⟨rule, state, s.labels, s.value, reason, now⟩

def fire (reason : Bytes) (first : Bool) (now : Instant) : Outcome num :=
  let state := if first then .firing else .steady
  match en.activeMaintenance rule s.labels now with
  | some endsAt =>
    ⟨en, { st with silencedUntil := if st.silencedUntil < endsAt then endsAt else st.silencedUntil }, none, state, false⟩
  | none =>
    if now < st.silencedUntil then ⟨en, st, none, state, false⟩
    else if notifyDue rule st now then
      ⟨en, { st with lastNotified := now }, some (newAlert rule s .firing reason now), state, false⟩
    else ⟨en, st, none, .steady, false⟩

def resolve (reason : Bytes) (now : Instant) : Outcome num :=
  ⟨en, { st with firing := false, silencedUntil := 0, ackedBy := [], ackedAt := 0, lastNotified := 0 },
    some (newAlert rule s .resolved (if rule.type = .trap then reason else lit "value recovered") now), .resolved, true⟩

def transition (rule : Rule num) (st : SeriesState num) (s : Sample num) (d : Decision)
    (now : Instant) : Outcome num :=
  if d.warming then ⟨en, { st with breachCount := 0 }, none, .warming, false⟩
  else if d.breached then
    let st := { st with breachCount := st.breachCount + 1 }
    if st.breachCount < max rule.forN 1 then ⟨en, st, none, .pending, false⟩
    else if st.firing then fire en rule st s d.reason false now
    else
      let (en, st) := beginEpisode en key { st with firing := true } now
      fire en rule st s d.reason true now
  else
    let st := { st with breachCount := 0 }
    if st.firing then resolve en rule st s d.reason now else ⟨en, st, none, .normal, false⟩

structure Evaluated (num : Numbers) where
  engine : Engine num
  decision : Decision
  alert : Option (Alert num)
  pending : Option NotifyState
  resolve : Bool

def evalSample (now : Instant) : Evaluated num :=
  let key := stateKey rule.id s.labels
  let (d, st) := breached rule (en.stateFor rule key) s
  let out := en.transition key rule { st with labels := s.labels, lastReason := d.reason } s d now
  { engine := out.engine.setState key out.st, decision := d, alert := out.alert,
    pending :=
      match out.alert with
      | some alert => if alert.state = .firing then some ⟨out.st.since, out.st.lastNotified⟩ else none
      | none => none,
    resolve := out.resolve }

/-! Restored episodes of trap rules. -/

def rulePrefix : Bytes := rule.id ++ [124]

def stale : Bool :=
  (rulePrefix rule).isPrefixOf key && (en.restoredNotify key).isSome &&
    match en.states key with
    | some st => !(st.firing || 0 < st.breachCount)
    | none => true

def due : Bool := rule.type = .trap && en.stale rule key

def dropDue : Engine num :=
  { en with
    restored := fun key => if en.due rule key then none else en.restored key,
    restoredNotify := fun key => if en.due rule key then none else en.restoredNotify key }

end Engine

end Probectl.Alerts
