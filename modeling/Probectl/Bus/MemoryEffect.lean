import Probectl.Bus.MemoryInv

/-! One inversion of a bus step for what it does to the subscribers: only a
`send` lengthens a channel, and only a `leave` takes a member off its group. -/
namespace Probectl.Bus

open Population Bus.Sub Option

def Sub.departed (C : Sub) : Nat := if C.registered then 0 else C.chan.length + C.popped.toNat

structure Sub.Shrinks (C D : Sub) : Prop where
  departed : D.departed ≤ C.departed
  gone : (C.status = .gone → C.chan = []) → D.status = .gone → D.chan = []

namespace Sub

variable {C D : Sub}

theorem shrinks_of_turn (turn : C.Turn D) (chan : D.chan.length ≤ C.chan.length)
    (popped : D.popped = true → C.popped = true) (status : D.status = .gone → C.status = .gone) :
    C.Shrinks D := by
  refine ⟨?_, fun empty gone => ?_⟩
  · have bits : D.popped.toNat ≤ C.popped.toNat := by
      cases held : D.popped with
      | false => simp
      | true => simp [popped held]
    simp only [departed, turn.registered]
    split <;> omega
  · rw [empty (status gone)] at chan
    exact List.length_eq_zero_iff.mp (Nat.le_zero.mp chan)

theorem receive_shrinks (received : C.receive = some D) : C.Shrinks D := by
  refine shrinks_of_turn (receive_turn received).1 ?_ ?_ ?_ <;>
    (unfold receive at received; split at received <;> cases received) <;> simp [*]

variable {j : Nat}

theorem finish_shrinks (finished : C.finish j = some D) : C.Shrinks D := by
  refine shrinks_of_turn (finish_turn finished).1 ?_ ?_ ?_ <;>
    (unfold finish at finished; split at finished <;> cases finished) <;> simp

theorem cancel_shrinks (cancelled : C.cancel = some D) : C.Shrinks D := by
  refine shrinks_of_turn (cancel_turn cancelled).1 ?_ ?_ ?_ <;>
    (unfold cancel at cancelled; split at cancelled <;> cases cancelled) <;> simp

theorem exit_shrinks (exited : C.exit = some D) : C.Shrinks D := by
  refine shrinks_of_turn (exit_turn exited).1 ?_ ?_ ?_ <;>
    (unfold exit at exited; split at exited <;> cases exited) <;> simp

theorem discard_shrinks (discarded : C.discard = some D) : C.Shrinks D := by
  refine shrinks_of_turn (discard_turn discarded).1 ?_ ?_ ?_ <;>
    (unfold discard at discarded; split at discarded <;> cases discarded) <;> simp

theorem setJob_shrinks (busy : C.busy[j]? = some b) (d : Job) : C.Shrinks (C.setJob j d) :=
  shrinks_of_turn (setJob_turn busy d).1 le_rfl id id

theorem drained_shrinks (drained : C.drained = some D) : C.Shrinks D := by
  unfold Sub.drained at drained
  split at drained
  case isFalse => cases drained
  case isTrue ready =>
    cases drained
    exact ⟨by simp [departed, ready.2.1, ready.2.2], fun _ _ => ready.2.2⟩

theorem pop_shrinks (popped : C.pop = some (p, D)) : C.Shrinks D := by
  unfold pop at popped
  split at popped
  case h_2 => cases popped
  case h_1 q rest left free oldest =>
    cases popped
    refine ⟨?_, by simp [left]⟩
    simp only [departed, registered, left, oldest]
    simp

end Sub

namespace Memory

def Label.strands : Label → Bool
  | .send _ => true
  | .leave _ => true
  | _ => false

inductive Effect (m n : Memory) : Label → Prop where
  | quiet (a : Label) : a.strands = false → n.subs = m.subs → Effect m n a
  | joined (a : Label) (C : Sub) : a.strands = false → C.registered = true →
      n.subs = m.subs ++ [C] → Effect m n a
  | turned (a : Label) (c : Nat) (C D : Sub) : a.strands = false → m.subs[c]? = some C → C.Shrinks D →
      n.subs = m.subs.set c D → Effect m n a
  | sent (p c : Nat) (C : Sub) : (m.pubAt p).sending = .offering c → m.subs[c]? = some C →
      n.subs = m.subs.set c { C with chan := C.chan ++ [p] } → Effect m n (.send p)
  | left (c : Nat) (C : Sub) : m.subs[c]? = some C → C.registered = true →
      n.subs = m.subs.set c { C with status := .left } → Effect m n (.leave c)

section
variable {m n : Memory} {c : Nat} {f : Sub → Option Sub} (a : Label) (safe : a.strands = false)
  (shrinks : ∀ C D, f C = some D → C.Shrinks D)
include safe shrinks

theorem onSub_effect (done : m.onSub c f = some n) :
    Effect m n a ∧ ((∀ c, a ≠ .pop c) → n.outcomes.discarded = m.outcomes.discarded) := by
  obtain ⟨C, D, at_c, stepped, rfl⟩ := onSub_some done
  exact ⟨.turned a c C D safe at_c (shrinks C D stepped) rfl, fun _ => rfl⟩

theorem counted_effect (done : (m.onSub c f).map doneInFlight = some n) :
    Effect m n a ∧ ((∀ c, a ≠ .pop c) → n.outcomes.discarded = m.outcomes.discarded) := by
  obtain ⟨k, on, rfl⟩ := map_eq_some_iff.mp done
  obtain ⟨C, D, at_c, stepped, rfl⟩ := onSub_some on
  exact ⟨.turned a c C D safe at_c (shrinks C D stepped) rfl, fun _ => rfl⟩

end

theorem step_effect (stepped : m.step a = some n) :
    Effect m n a ∧ ((∀ c, a ≠ .pop c) → n.outcomes.discarded = m.outcomes.discarded) := by
  cases a with
  | subscribe topic group =>
    cases stepped
    unfold subscribe
    split
    · exact ⟨.quiet _ rfl rfl, fun _ => rfl⟩
    · exact ⟨.joined _ _ rfl rfl rfl, fun _ => rfl⟩
  | publish msg order =>
    simp only [step, publish] at stepped
    split at stepped
    · exact some.inj stepped ▸ ⟨.quiet _ rfl rfl, fun _ => rfl⟩
    · split at stepped
      · split at stepped <;> exact some.inj stepped ▸ ⟨.quiet _ rfl rfl, fun _ => rfl⟩
      · cases stepped
  | send p =>
    obtain ⟨P, at_p, later⟩ := bind_eq_some_iff.mp stepped
    obtain ⟨c, offered, later⟩ := bind_eq_some_iff.mp later
    obtain ⟨C, at_c, later⟩ := bind_eq_some_iff.mp later
    split at later
    case isFalse => cases later
    case isTrue =>
      cases later
      have sending : (m.pubAt p).sending = .offering c := by
        rw [pubAt, getD_at at_p]
        exact (Pub.offered_iff.mp offered).2
      exact ⟨.sent p c C sending at_c rfl, fun _ => rfl⟩
  | refuse p =>
    obtain ⟨_, _, later⟩ := bind_eq_some_iff.mp stepped
    obtain ⟨_, _, later⟩ := bind_eq_some_iff.mp later
    obtain ⟨_, _, later⟩ := bind_eq_some_iff.mp later
    split at later
    · cases later
    · exact some.inj later ▸ ⟨.quiet _ rfl rfl, fun _ => rfl⟩
  | offer p | undo p =>
    obtain ⟨_, on, rfl⟩ := map_eq_some_iff.mp stepped
    obtain ⟨_, _, _, _, rfl⟩ := onPub_some on
    exact ⟨.quiet _ rfl rfl, fun _ => rfl⟩
  | finishPublish p =>
    obtain ⟨_, _, _, _, rfl⟩ := onPub_some stepped
    exact ⟨.quiet _ rfl rfl, fun _ => rfl⟩
  | receive c => exact onSub_effect _ rfl (fun _ _ => receive_shrinks) stepped
  | cancel c => exact onSub_effect _ rfl (fun _ _ => cancel_shrinks) stepped
  | exit c => exact onSub_effect _ rfl (fun _ _ => exit_shrinks) stepped
  | drained c => exact onSub_effect _ rfl (fun _ _ => drained_shrinks) stepped
  | finish c j => exact counted_effect _ rfl (fun _ _ => finish_shrinks) stepped
  | discard c => exact counted_effect _ rfl (fun _ _ => discard_shrinks) stepped
  | succeed c j =>
    obtain ⟨C, at_c, later⟩ := bind_eq_some_iff.mp stepped
    obtain ⟨b, running, rfl⟩ := map_eq_some_iff.mp later
    have busy := (running_iff.mp running).1
    exact ⟨.turned _ c C _ rfl at_c (setJob_shrinks busy _) rfl, fun _ => rfl⟩
  | fail c j panicked =>
    obtain ⟨C, at_c, later⟩ := bind_eq_some_iff.mp stepped
    obtain ⟨b, running, rfl⟩ := map_eq_some_iff.mp later
    have busy := (running_iff.mp running).1
    dsimp only
    split <;> exact ⟨.turned _ c C _ rfl at_c (setJob_shrinks busy _) rfl, fun _ => rfl⟩
  | leave c =>
    obtain ⟨C, at_c, later⟩ := bind_eq_some_iff.mp stepped
    obtain ⟨D, left, rfl⟩ := map_eq_some_iff.mp later
    obtain ⟨registered, _, rfl, _⟩ := leave_some left
    exact ⟨.left c C at_c registered rfl, fun _ => rfl⟩
  | pop c =>
    obtain ⟨C, at_c, later⟩ := bind_eq_some_iff.mp stepped
    obtain ⟨⟨p, D⟩, popped, rfl⟩ := map_eq_some_iff.mp later
    exact ⟨.turned _ c C D rfl at_c (pop_shrinks popped) rfl, fun quiet => absurd rfl (quiet c)⟩
  | flush | close => exact some.inj stepped ▸ ⟨.quiet _ rfl rfl, fun _ => rfl⟩
  | check f | wake f | expire f =>
    obtain ⟨_, _, _, _, rfl⟩ := onFlush_some stepped
    exact ⟨.quiet _ rfl rfl, fun _ => rfl⟩

end Memory
end Probectl.Bus
