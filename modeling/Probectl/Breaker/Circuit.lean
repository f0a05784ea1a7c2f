import Probectl.Lib.Run
import Probectl.Lib.Strings

/-! `internal/breaker/breaker.go`: the circuit breaker in front of a storage
backend. `DoWithOutcome` is two critical sections around the callback, and a
callback may end without reaching the second. Times are nanoseconds. -/
namespace Probectl.Circuit

open Strings List

def errOpen : Bytes := lit "breaker: open (upstream unhealthy; short-circuited)"
def errInvalidOutcome : Bytes := lit "breaker: invalid health outcome"

/-- `other` is any further value of the source's byte. -/
inductive Outcome where
  | success
  | failure
  | neutral
  | other
  deriving DecidableEq

structure Breaker where
  threshold : Nat
  cooldown : Int
  consec : Nat := 0
  opened : Bool := false
  openUntil : Option Int := none
  probing : Bool := false
  trips : Nat := 0
  shortCircuits : Nat := 0

/-- `New`. A breaker that never opened has the zero time, `none`, as its cooldown's end. -/
def new (threshold cooldown : Int) : Breaker where
  threshold := if threshold ≤ 0 then 5 else threshold.toNat
  cooldown := if cooldown ≤ 0 then 5 * 1000000000 else cooldown

namespace Breaker

/-- `now.Before(openUntil)` -/
def cooling (b : Breaker) (now : Int) : Bool := b.openUntil.any fun until' => now < until'

/-- The first critical section: `none` is short-circuited with `errOpen`,
otherwise the callback runs, as the half-open probe or not. -/
def enter (b : Breaker) (now : Int) : Breaker × Option Bool :=
  if b.opened then
    if b.cooling now ∨ b.probing then ({ b with shortCircuits := b.shortCircuits + 1 }, none)
    else ({ b with probing := true }, some true)
  else (b, some false)

/-- `errors.Join(ErrInvalidOutcome, err)` -/
def invalid (err : Option Bytes) : Bytes :=
  match err with
  | none => errInvalidOutcome
  | some e => errInvalidOutcome ++ lit "\n" ++ e

def fail (b : Breaker) (now : Int) : Breaker :=
  let b := { b with consec := b.consec + 1 }
  let b := if ¬ b.opened ∧ b.threshold ≤ b.consec then { b with opened := true, trips := b.trips + 1 } else b
  if b.opened then { b with openUntil := some (now + b.cooldown) } else b

def settle (b : Breaker) (probe : Bool) (outcome : Outcome) (err : Option Bytes) (now : Int) :
    Breaker × Option Bytes :=
  let b := if probe then { b with probing := false } else b
  match outcome with
  | .neutral => (b, err)
  | .failure => (b.fail now, err)
  | .other => (b.fail now, some (invalid err))
  | .success => ({ b with consec := 0, opened := false, openUntil := none }, err)

end Breaker

inductive Progress where
  | running
  | returned (err : Option Bytes)
  | panicked
  deriving DecidableEq

structure Call where
  probe : Bool
  progress : Progress
  deriving DecidableEq

structure System where
  breaker : Breaker
  calls : List Call := []

inductive Action where
  | call (now : Int)
  | finish (i : Nat) (outcome : Outcome) (err : Option Bytes) (now : Int)
  | panics (i : Nat)

def step (s : System) : Action → Option System
  | .call now =>
    match s.breaker.enter now with
    | (b, none) => some ⟨b, s.calls ++ [⟨false, .returned (some errOpen)⟩]⟩
    | (b, some probe) => some ⟨b, s.calls ++ [⟨probe, .running⟩]⟩
  | .finish i outcome err now =>
    match s.calls[i]? with
    | some ⟨probe, .running⟩ =>
      let (b, err) := s.breaker.settle probe outcome err now
      some ⟨b, s.calls.set i ⟨probe, .returned err⟩⟩
    | _ => none
  | .panics i =>
    match s.calls[i]? with
    | some ⟨probe, .running⟩ => some ⟨s.breaker, s.calls.set i ⟨probe, .panicked⟩⟩
    | _ => none

def Call.running (c : Call) : Bool := c.progress = .running

def Call.probes (c : Call) : Bool := c.probe && c.running

namespace System

def probes (s : System) : Nat := s.calls.countP Call.probes

def idle (s : System) : Bool := s.calls.all fun c => !c.running

end System

/-! What each critical section does to the probe flag. -/

variable (b : Breaker) (now : Int)

theorem Breaker.fail_probing : (b.fail now).probing = b.probing := by
  unfold Breaker.fail
  dsimp only
  split_ifs <;> rfl

theorem Breaker.settle_probing (probe : Bool) (outcome : Outcome) (err : Option Bytes) (now : Int) :
    (b.settle probe outcome err now).1.probing = if probe then false else b.probing := by
  cases probe <;> cases outcome <;> simp [settle, fail_probing]

theorem Breaker.enter_cases : (b.opened = false ∧ b.enter now = (b, some false)) ∨
    (b.opened = true ∧ b.cooling now = false ∧ b.probing = false ∧
      b.enter now = ({ b with probing := true }, some true)) ∨
    (b.opened = true ∧ (b.cooling now = true ∨ b.probing = true) ∧
      b.enter now = ({ b with shortCircuits := b.shortCircuits + 1 }, none)) := by
  unfold enter
  cases b.opened with
  | false => exact .inl ⟨rfl, rfl⟩
  | true =>
    refine .inr ?_
    by_cases shorted : b.cooling now ∨ b.probing
    · exact .inr ⟨rfl, shorted, by simp [shorted]⟩
    · obtain ⟨elapsed, free⟩ := not_or.mp shorted
      exact .inl ⟨rfl, by simpa using elapsed, by simpa using free, by simp [shorted]⟩

def Returns (s : System) : Action → Prop
  | .panics i => ∀ c, s.calls[i]? = some c → c.probe = false
  | _ => True

inductive Moves (s : System) (a : Action) (t : System) : Prop where
  | keeps (returns : Returns s a) (flag : t.breaker.probing = s.breaker.probing) (same : t.probes = s.probes)
  | starts (returns : Returns s a) (free : s.breaker.probing = false) (flag : t.breaker.probing = true)
      (more : t.probes = s.probes + 1)
  | ends (returns : Returns s a) (flag : t.breaker.probing = false) (fewer : t.probes + 1 = s.probes)
  | breaks (panicked : ¬ Returns s a) (flag : t.breaker.probing = s.breaker.probing) (fewer : t.probes + 1 = s.probes)

theorem probes_set {calls : List Call} (at_i : calls[i]? = some c) (ended : d.probes = false) :
    (calls.set i d).countP Call.probes + c.probes.toNat = calls.countP Call.probes := by
  obtain ⟨within, at_i⟩ := List.getElem?_eq_some_iff.mp at_i
  rw [countP_set within, at_i, ended]
  cases probing : c.probes with
  | false => simp
  | true =>
    have mem : c ∈ calls := at_i ▸ getElem_mem within
    have counted : 0 < calls.countP Call.probes := countP_pos_iff.mpr ⟨c, mem, probing⟩
    simp
    omega

theorem step_moves (stepped : step s a = some t) : Moves s a t := by
  cases a with
  | call now =>
    have grown b c : System.probes ⟨b, s.calls ++ [c]⟩ = s.probes + c.probes.toNat := by
      cases probes : c.probes <;> simp [System.probes, probes]
    rcases s.breaker.enter_cases now with ⟨_, entered⟩ | ⟨_, _, free, entered⟩ | ⟨_, _, entered⟩
    · simp only [step, entered] at stepped
      cases stepped
      exact .keeps trivial rfl (grown _ _)
    · simp only [step, entered] at stepped
      cases stepped
      exact .starts trivial free rfl (grown _ _)
    · simp only [step, entered] at stepped
      cases stepped
      exact .keeps trivial rfl (grown _ _)
  | finish i outcome err now =>
    simp only [step] at stepped
    split at stepped
    case h_2 => cases stepped
    case h_1 probe at_i =>
      cases stepped
      have flag := s.breaker.settle_probing probe outcome err now
      have count := probes_set (d := ⟨probe, .returned (s.breaker.settle probe outcome err now).2⟩) at_i
        (by simp [Call.probes, Call.running])
      cases probe with
      | true => exact .ends trivial flag count
      | false => exact .keeps trivial flag count
  | panics i =>
    simp only [step] at stepped
    split at stepped
    case h_2 => cases stepped
    case h_1 probe at_i =>
      cases stepped
      have count := probes_set (d := ⟨probe, .panicked⟩) at_i (by simp [Call.probes, Call.running])
      cases probe with
      | true => exact .breaks (fun returns => nomatch returns _ at_i) rfl count
      | false =>
        refine .keeps ?_ rfl count
        intro c at_i'
        exact Option.some.inj (at_i.symm.trans at_i') ▸ rfl

end Probectl.Circuit
