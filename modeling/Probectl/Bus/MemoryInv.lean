import Probectl.Lib.Run
import Probectl.Bus.MemorySpec

/-! Every step of the in-process bus keeps its invariant: the counter is right,
no pair of record and channel is lost or doubled, and what a finished `Flush`
waited for has come to an end. -/
namespace Probectl.Bus

open Population List Bus.Sub Pub Sending Nat
open Option (bind_eq_some_iff map_eq_some_iff)

def Outcomes.count (o : Outcomes) (p c : Nat) : Nat :=
  o.handled.count (p, c) + o.lost.count (p, c) + o.discarded.count (p, c)

namespace Memory

def pubAt (m : Memory) (p : Nat) : Pub := m.pubs.getD p void
def subAt (m : Memory) (c : Nat) : Sub := m.subs.getD c Sub.void

def load (m : Memory) : Nat := total Pub.load m.pubs + total Sub.load m.subs

def tally (m : Memory) (p c : Nat) : Nat :=
  (m.pubAt p).holds c + (m.subAt c).holds p + m.outcomes.count p c

structure Awaited (m : Memory) (F : Flush) : Prop where
  accepted : ∀ p ∈ F.before, (m.pubAt p).result = some .ok
  channel : ∀ ch, F.state = .waiting ch → ch < m.barrier.waits.length
  ended : F.state = .returned true → ∀ p ∈ F.before, ∀ c ∈ (m.pubAt p).chans, 0 < m.outcomes.count p c

structure Inv (m : Memory) : Prop where
  barrier : m.barrier.Wf m.load
  tally : ∀ p c, m.tally p c = (m.pubAt p).chans.count c
  pubs : ∀ P ∈ m.pubs, P.Wf
  subs : ∀ C ∈ m.subs, C.Wf
  registry : Registry m.groups m.subs
  flushes : ∀ F ∈ m.flushes, m.Awaited F
  lost : m.handlerLost = m.outcomes.lost.length

theorem newMemory_inv (opts : List MemoryOption) : (newMemory opts).Inv := by
  refine ⟨⟨rfl, 0, rfl⟩, fun p c => ?_, by simp [newMemory], by simp [newMemory], ?_,
    by simp [newMemory], rfl⟩
  · simp [tally, pubAt, subAt, newMemory, Outcomes.count, Pub.void, Sub.void, Pub.holds, Sub.holds,
      inHand]
  · exact ⟨by simp [newMemory, members], by simp [newMemory, members, Sub.void, Sub.registered],
      by simp [newMemory]⟩

variable {m n : Memory}

theorem Awaited.mono (awaited : m.Awaited F) (result : ∀ p, (m.pubAt p).result = some .ok →
      (n.pubAt p).result = some .ok ∧ (n.pubAt p).chans = (m.pubAt p).chans)
    (waits : m.barrier.waits.length ≤ n.barrier.waits.length)
    (outcomes : ∀ p c, m.outcomes.count p c ≤ n.outcomes.count p c) : n.Awaited F where
  accepted p hp := (result p (awaited.accepted p hp)).1
  channel ch waiting := lt_of_lt_of_le (awaited.channel ch waiting) waits
  ended returned p hp c hc := by
    rw [(result p (awaited.accepted p hp)).2] at hc
    exact lt_of_lt_of_le (awaited.ended returned p hp c hc) (outcomes p c)

variable {p : Nat} {P : Pub} {b : Barrier}

theorem pub_inv {n : Nat} (dropped : Nat) (inv : m.Inv)
    (at_p : m.pubs[p]? = some P) (turn : P.Turn Q) (barrier : b.Wf n)
    (grown : m.barrier.waits.length ≤ b.waits.length) (balance : n + P.load = m.load + Q.load) :
    Inv { m with pubs := m.pubs.set p Q, barrier := b, dropped := dropped } := by
  have here : m.pubAt p = P := getD_at at_p _
  have change := total_set Pub.load Q at_p
  refine ⟨?_, ?_, ?_, inv.subs, inv.registry, ?_, inv.lost⟩
  · apply barrier.of_eq
    simp only [load] at balance ⊢
    omega
  · intro x c
    have holds := getD_set_same (fun R => R.holds c) Q at_p (turn.holds c) x void
    have chans := getD_set_same chans Q at_p turn.chans x void
    simp only [tally, pubAt] at chans ⊢
    rw [holds, chans]
    exact inv.tally x c
  · exact forall_set inv.pubs p (turn.wf (inv.pubs P (mem_of_getElem? at_p)))
  · intro F mem
    refine (inv.flushes F mem).mono (fun x ok => ?_) grown (fun _ _ => le_rfl)
    have other : x ≠ p := by
      rintro rfl
      rw [here, turn.running] at ok
      cases ok
    have kept : (m.pubs.set p Q).getD x void = m.pubs.getD x void := by
      rw [getD_set Q at_p, if_neg other]
    exact ⟨(congrArg result kept).trans ok, congrArg chans kept⟩

variable {c : Nat} {C : Sub} {D : Sub} {o : Outcomes} {lost : Nat}

theorem sub_inv {n : Nat} (handlerErr handlerPanic : Nat) (inv : m.Inv) (at_c : m.subs[c]? = some C) (turn : C.Turn D)
    (barrier : b.Wf n) (grown : m.barrier.waits.length ≤ b.waits.length)
    (balance : n + C.load = m.load + D.load)
    (moved : ∀ p, D.holds p + o.count p c = C.holds p + m.outcomes.count p c)
    (others : ∀ p x, x ≠ c → o.count p x = m.outcomes.count p x)
    (logged : ∀ p, m.outcomes.count p c ≤ o.count p c) (counted : lost = o.lost.length) :
    Inv { m with subs := m.subs.set c D, barrier := b, outcomes := o, handlerLost := lost,
                 handlerErr := handlerErr, handlerPanic := handlerPanic } := by
  have change := total_set Sub.load D at_c
  refine ⟨?_, ?_, inv.pubs, ?_, ?_, ?_, counted⟩
  · apply barrier.of_eq
    simp only [load] at balance ⊢
    omega
  · intro p x
    have old := inv.tally p x
    simp only [tally, pubAt, subAt, getD_set D at_c] at old ⊢
    by_cases same : x = c
    · subst same
      rw [getD_at at_c] at old
      rw [if_pos rfl]
      have := moved p
      omega
    · rw [if_neg same, others p x same]
      exact old
  · exact forall_set inv.subs c (turn.wf (inv.subs C (mem_of_getElem? at_c)))
  · exact inv.registry.replaced at_c turn.key turn.registered
  · intro F mem
    refine (inv.flushes F mem).mono (fun p ok => ⟨ok, rfl⟩) grown (fun p x => ?_)
    by_cases same : x = c
    · exact same ▸ logged p
    · exact (others p x same).ge

theorem onPub_some (done : m.onPub p f = some n) :
    ∃ P Q, m.pubs[p]? = some P ∧ f P = some Q ∧ n = { m with pubs := m.pubs.set p Q } := by
  obtain ⟨P, at_p, later⟩ := bind_eq_some_iff.mp done
  obtain ⟨Q, stepped, rfl⟩ := map_eq_some_iff.mp later
  exact ⟨P, Q, at_p, stepped, rfl⟩

variable {f : Sub → Option Sub}

theorem onSub_some (done : m.onSub c f = some n) :
    ∃ C D, m.subs[c]? = some C ∧ f C = some D ∧ n = { m with subs := m.subs.set c D } := by
  obtain ⟨C, at_c, later⟩ := bind_eq_some_iff.mp done
  obtain ⟨D, stepped, rfl⟩ := map_eq_some_iff.mp later
  exact ⟨C, D, at_c, stepped, rfl⟩

variable {g : Flush → Option FlushState}

theorem onFlush_some {f : Nat}
    (done : m.onFlush f g = some n) : ∃ F state, m.flushes[f]? = some F ∧ g F = some state ∧
      n = { m with flushes := m.flushes.set f { F with state := state } } := by
  obtain ⟨F, at_f, later⟩ := bind_eq_some_iff.mp done
  obtain ⟨state, stepped, rfl⟩ := map_eq_some_iff.mp later
  exact ⟨F, state, at_f, stepped, rfl⟩

theorem offer_inv (inv : m.Inv) (done : (m.onPub p offer).map addInFlight = some n) : n.Inv := by
  obtain ⟨_, on, rfl⟩ := map_eq_some_iff.mp done
  obtain ⟨P, Q, at_p, offered, rfl⟩ := onPub_some on
  obtain ⟨turn, load⟩ := offer_turn offered
  obtain ⟨barrier, grown⟩ := Barrier.addInFlight_wf inv.barrier
  exact pub_inv m.dropped inv at_p turn barrier grown (by omega)

theorem load_pos_of_pub (at_p : m.pubs[p]? = some P) : P.load ≤ m.load := by
  have := le_total Pub.load (mem_of_getElem? at_p)
  simp only [load]
  omega

theorem load_pos_of_sub (at_c : m.subs[c]? = some C) : C.load ≤ m.load := by
  have := le_total Sub.load (mem_of_getElem? at_c)
  simp only [load]
  omega

theorem done_wf (inv : m.Inv) {after : Nat} (held : before ≤ m.load) (put : before = after + 1) :
    ∃ k, m.barrier.doneInFlight.Wf k ∧ m.barrier.waits.length ≤ m.barrier.doneInFlight.waits.length ∧
      k + before = m.load + after := by
  obtain ⟨k, same⟩ : ∃ k, m.load = k + 1 := ⟨m.load - 1, by omega⟩
  have barrier := inv.barrier
  rw [same] at barrier
  obtain ⟨wf, grown⟩ := Barrier.doneInFlight_wf barrier
  exact ⟨k, wf, grown, by omega⟩

theorem undo_inv (inv : m.Inv) (done : (m.onPub p (undo m.dropOn)).map (fun m =>
      { m.doneInFlight with dropped := m.dropped + if m.dropOn then 1 else 0 }) = some n) : n.Inv := by
  obtain ⟨_, on, rfl⟩ := map_eq_some_iff.mp done
  obtain ⟨P, Q, at_p, undone, rfl⟩ := onPub_some on
  obtain ⟨turn, load⟩ := undo_turn undone
  obtain ⟨k, barrier, grown, balance⟩ := done_wf inv (load_pos_of_pub at_p) load
  exact pub_inv _ inv at_p turn barrier grown balance

theorem refuse_inv (inv : m.Inv) (done : m.refuse p = some n) : n.Inv := by
  obtain ⟨P, at_p, later⟩ := bind_eq_some_iff.mp done
  obtain ⟨c, offered, later⟩ := bind_eq_some_iff.mp later
  obtain ⟨C, _, later⟩ := bind_eq_some_iff.mp later
  split at later
  · cases later
  · cases later
    obtain ⟨turn, load⟩ := refuse_turn offered
    exact pub_inv m.dropped inv at_p turn inv.barrier le_rfl (by omega)

theorem finishPublish_inv (inv : m.Inv) (done : m.onPub p finish = some n) : n.Inv := by
  obtain ⟨P, Q, at_p, finished, rfl⟩ := onPub_some done
  obtain ⟨turn, load⟩ := finish_turn finished
  exact pub_inv m.dropped inv at_p turn inv.barrier le_rfl (by omega)

theorem quiet_inv (inv : m.Inv)
    (quiet : ∀ C D, f C = some D → C.Turn D ∧ (∀ p, D.holds p = C.holds p) ∧ D.load = C.load)
    (done : m.onSub c f = some n) : n.Inv := by
  obtain ⟨C, D, at_c, stepped, rfl⟩ := onSub_some done
  obtain ⟨turn, holds, load⟩ := quiet C D stepped
  exact sub_inv m.handlerErr m.handlerPanic inv at_c turn inv.barrier le_rfl (by omega)
    (fun p => by rw [holds]) (fun _ _ _ => rfl) (fun _ => le_rfl) inv.lost

theorem counted_inv (inv : m.Inv)
    (counts : ∀ C D, f C = some D → C.Turn D ∧ (∀ p, D.holds p = C.holds p) ∧ C.load = D.load + 1)
    (done : (m.onSub c f).map doneInFlight = some n) : n.Inv := by
  obtain ⟨_, on, rfl⟩ := map_eq_some_iff.mp done
  obtain ⟨C, D, at_c, stepped, rfl⟩ := onSub_some on
  obtain ⟨turn, holds, load⟩ := counts C D stepped
  obtain ⟨k, barrier, grown, balance⟩ := done_wf inv (load_pos_of_sub at_c) load
  exact sub_inv m.handlerErr m.handlerPanic inv at_c turn barrier grown balance
    (fun p => by rw [holds]) (fun _ _ _ => rfl) (fun _ => le_rfl) inv.lost

theorem count_pair (p q c x : Nat) :
    [(p, c)].count (q, x) = if p = q ∧ c = x then 1 else 0 := by
  simp [count_cons]

theorem ended_inv (handlerErr handlerPanic : Nat)
    (inv : m.Inv) (at_c : m.subs[c]? = some C) (turn : C.Turn D) (load : D.load = C.load)
    (holds : ∀ x, D.holds x + (if p = x then 1 else 0) = C.holds x)
    (logged : ∀ q x, o.count q x = m.outcomes.count q x + [(p, c)].count (q, x))
    (counted : lost = o.lost.length) :
    Inv { m with subs := m.subs.set c D, outcomes := o, handlerLost := lost,
                 handlerErr := handlerErr, handlerPanic := handlerPanic } := by
  refine sub_inv handlerErr handlerPanic inv at_c turn inv.barrier le_rfl (by omega)
    (fun x => ?_) (fun q x other => ?_) (fun q => ?_) counted
  · have change := holds x
    rw [logged, count_pair]
    simp only [and_true]
    omega
  · simp [logged, Ne.symm other]
  · rw [logged]
    omega

variable {j : Nat}

theorem returned_holds {b : Job} (running : C.running j = some b) : C.Turn (C.setJob j { b with returned := true }) ∧
    (C.setJob j { b with returned := true }).load = C.load ∧
    ∀ x, (C.setJob j { b with returned := true }).holds x + (if b.pub = x then 1 else 0) = C.holds x := by
  obtain ⟨busy, active⟩ := running_iff.mp running
  obtain ⟨turn, load, holds⟩ := setJob_turn busy { b with returned := true }
  refine ⟨turn, load, fun x => ?_⟩
  have change := holds x
  simpa [Job.works, active] using change

theorem succeed_inv (inv : m.Inv) (done : m.succeed c j = some n) : n.Inv := by
  obtain ⟨C, at_c, later⟩ := bind_eq_some_iff.mp done
  obtain ⟨b, running, rfl⟩ := map_eq_some_iff.mp later
  obtain ⟨turn, load, holds⟩ := returned_holds running
  refine ended_inv m.handlerErr m.handlerPanic inv at_c turn load holds (fun q x => ?_) inv.lost
  simp only [Outcomes.count, count_append]
  omega

theorem fail_inv (inv : m.Inv) (done : m.fail c j panicked = some n) : n.Inv := by
  obtain ⟨C, at_c, later⟩ := bind_eq_some_iff.mp done
  obtain ⟨b, running, rfl⟩ := map_eq_some_iff.mp later
  dsimp only
  split
  · obtain ⟨turn, load, holds⟩ := returned_holds running
    refine ended_inv _ _ inv at_c turn load holds (fun q x => ?_) (by simp [inv.lost])
    simp only [Outcomes.count, count_append]
    omega
  · obtain ⟨busy, active⟩ := running_iff.mp running
    obtain ⟨turn, load, holds⟩ := setJob_turn busy { b with attempt := b.attempt + 1 }
    refine sub_inv _ _ inv at_c turn inv.barrier le_rfl (by omega)
      (fun x => ?_) (fun _ _ _ => rfl) (fun _ => le_rfl) inv.lost
    have change := holds x
    have same : Job.works x { b with attempt := b.attempt + 1 } = b.works x := rfl
    omega

theorem pop_inv (inv : m.Inv) (done : m.pop c = some n) : n.Inv := by
  obtain ⟨C, at_c, later⟩ := bind_eq_some_iff.mp done
  obtain ⟨⟨p, D⟩, popped, rfl⟩ := map_eq_some_iff.mp later
  obtain ⟨turn, load, holds⟩ := pop_turn popped
  refine ended_inv m.handlerErr m.handlerPanic inv at_c turn load holds (fun q x => ?_) inv.lost
  simp only [Outcomes.count, count_append]
  omega

theorem send_inv (inv : m.Inv) (done : m.send p = some n) : n.Inv := by
  obtain ⟨P, at_p, later⟩ := bind_eq_some_iff.mp done
  obtain ⟨c, offered, later⟩ := bind_eq_some_iff.mp later
  obtain ⟨C, at_c, later⟩ := bind_eq_some_iff.mp later
  split at later
  case isFalse => cases later
  case isTrue =>
    cases later
    obtain ⟨handed, released⟩ := sent_holds (offered_iff.mp offered).2
    obtain ⟨longer, queued⟩ := queued_holds C p
    have wfP := inv.pubs P (mem_of_getElem? at_p)
    have wfC := inv.subs C (mem_of_getElem? at_c)
    refine ⟨?_, ?_, ?_, ?_, ?_, ?_, inv.lost⟩
    · have pubs := total_set Pub.load { P with sending := .idle } at_p
      have subs := total_set Sub.load { C with chan := C.chan ++ [p] } at_c
      apply inv.barrier.of_eq
      simp only [load]
      omega
    -- the pair of the record and the channel moves, every other pair stays
    · intro q x
      have old := inv.tally q x
      have out := released x
      have into := queued q
      simp only [tally, pubAt, subAt, getD_set _ at_p, getD_set _ at_c] at old ⊢
      by_cases record : q = p <;> by_cases channel : x = c
      · subst record channel
        rw [getD_at at_p, getD_at at_c] at old
        simp only [if_true] at out into ⊢
        omega
      · subst record
        rw [getD_at at_p] at old
        simp only [if_true, if_neg channel, if_neg (Ne.symm channel)] at out ⊢
        omega
      · subst channel
        rw [getD_at at_c] at old
        simp only [if_true, if_neg record, if_neg (Ne.symm record)] at into ⊢
        omega
      · simpa only [if_neg record, if_neg channel] using old
    · exact forall_set inv.pubs p { wfP with parked := fun _ => rfl }
    · exact forall_set inv.subs c { wfC with }
    · exact inv.registry.replaced at_c ⟨rfl, rfl⟩ rfl
    · intro F mem
      refine (inv.flushes F mem).mono (fun q ok => ?_) le_rfl (fun _ _ => le_rfl)
      exact ⟨(getD_set_same result { P with sending := .idle } at_p rfl q _).trans ok,
        getD_set_same chans { P with sending := .idle } at_p rfl q _⟩

theorem pubs_append_inv {groups : List MemoryGroup} (noSub : Nat) (inv : m.Inv)
    (registry : Registry groups m.subs) (wf : P.Wf) (idle : P.load = 0)
    (holds : ∀ c, P.holds c = P.chans.count c) :
    Inv { m with groups := groups, noSub := noSub, pubs := m.pubs ++ [P] } := by
  have void : m.pubAt m.pubs.length = Pub.void := by simp [pubAt]
  refine ⟨?_, ?_, ?_, inv.subs, registry, ?_, inv.lost⟩
  · apply inv.barrier.of_eq
    simp only [load, total_append_singleton]
    omega
  · intro p c
    have old := inv.tally p c
    simp only [tally, pubAt, subAt, getD_append_singleton] at old ⊢
    by_cases new : p = m.pubs.length
    · subst new
      rw [show m.pubs.getD m.pubs.length Pub.void = Pub.void from void] at old
      simp only [if_true, holds]
      simp only [Pub.void, count_nil] at old
      omega
    · simpa only [if_neg new] using old
  · exact forall_mem_append.mpr ⟨inv.pubs, forall_mem_singleton.mpr wf⟩
  · intro F mem
    refine (inv.flushes F mem).mono (fun p ok => ?_) le_rfl (fun _ _ => le_rfl)
    have other : p ≠ m.pubs.length := by
      rintro rfl
      rw [void] at ok
      cases ok
    have kept : (m.pubs ++ [P]).getD p Pub.void = m.pubs.getD p Pub.void := by
      rw [getD_append_singleton, if_neg other]
    exact ⟨(congrArg Pub.result kept).trans ok, congrArg Pub.chans kept⟩

theorem publish_inv {msg : Message} (inv : m.Inv)
    (done : m.publish msg order = some n) : n.Inv := by
  unfold publish at done
  split at done
  · cases done
    exact pubs_append_inv m.noSub inv inv.registry ⟨by simp, by simp, by simp, by simp⟩ rfl
      (fun c => by simp [Pub.holds, inHand])
  split at done
  case isFalse => cases done
  case isTrue perm =>
    have registry := inv.registry.advanced_registry msg.topic
    have nodup : order.Nodup :=
      (isPerm_iff.mp perm).nodup_iff.mpr (inv.registry.selected_nodup msg.topic)
    dsimp only at done
    split at done
    · cases done
      exact pubs_append_inv _ inv registry ⟨by simp, by simp, by simp, by simp⟩ rfl
        (fun c => by simp [Pub.holds, inHand])
    · cases done
      exact pubs_append_inv m.noSub inv registry ⟨nodup, by simp, by simp, by simp⟩ rfl
        (fun c => by simp [Pub.holds, inHand])

theorem subscribe_inv (topic group : Bytes) (inv : m.Inv) : (m.subscribe topic group).Inv := by
  unfold subscribe
  split
  · exact inv
  have void : m.subs.getD m.subs.length Sub.void = Sub.void := by simp
  refine ⟨?_, ?_, inv.pubs, ?_, ?_, ?_, inv.lost⟩
  · have barrier := inv.barrier
    simp only [load, total_append_singleton]
    exact barrier
  · intro p c
    have old := inv.tally p c
    simp only [tally, pubAt, subAt, getD_append_singleton] at old ⊢
    by_cases new : c = m.subs.length
    · subst new
      rw [void] at old
      rw [if_pos rfl]
      exact old
    · simpa only [if_neg new] using old
  · have new workers : Sub.Wf ⟨topic, group, [], .serving, workers, [], false⟩ :=
      ⟨by simp [Sub.registered], by simp⟩
    exact forall_mem_append.mpr ⟨inv.subs, forall_mem_singleton.mpr (new _)⟩
  · exact inv.registry.joined_registry ⟨topic, group, [], .serving, _, [], false⟩ rfl
  · exact fun F mem => (inv.flushes F mem).mono (fun p ok => ⟨ok, rfl⟩) le_rfl
      (fun _ _ => le_rfl)

theorem leave_inv (inv : m.Inv) (done : m.leave c = some n) : n.Inv := by
  obtain ⟨C, at_c, later⟩ := bind_eq_some_iff.mp done
  obtain ⟨D, left, rfl⟩ := map_eq_some_iff.mp later
  obtain ⟨_, _, rfl, wf⟩ := leave_some left
  have change := total_set Sub.load { C with status := .left } at_c
  refine ⟨?_, ?_, inv.pubs, ?_, ?_, ?_, inv.lost⟩
  · apply inv.barrier.of_eq
    have same : Sub.load { C with status := .left } = C.load := rfl
    simp only [load]
    omega
  · intro p x
    have holds := getD_set_same (fun D => D.holds p) { C with status := .left } at_c rfl x Sub.void
    simp only [tally, subAt]
    rw [holds]
    exact inv.tally p x
  · exact forall_set inv.subs c (wf (inv.subs C (mem_of_getElem? at_c)))
  · exact inv.registry.removeSub_registry at_c ⟨rfl, rfl⟩ rfl
  · exact fun F mem => (inv.flushes F mem).mono (fun p ok => ⟨ok, rfl⟩) le_rfl
      (fun _ _ => le_rfl)

theorem flushes_inv (inv : m.Inv) (awaited : ∀ F ∈ fs, m.Awaited F) :
    Inv { m with flushes := fs } :=
  { inv with flushes := fun F mem => ⟨(awaited F mem).accepted, (awaited F mem).channel, (awaited F mem).ended⟩ }

theorem accepted_ok (ok : m.accepted p = true) : (m.pubAt p).result = some .ok := by
  cases at_p : m.pubs[p]? with
  | none => simp [accepted, at_p] at ok
  | some P =>
    rw [pubAt, getD_at at_p]
    simp only [accepted, at_p, Option.any_some, Bool.and_eq_true, decide_eq_true_eq] at ok
    exact ok.1

theorem flush_inv (inv : m.Inv) : m.flush.Inv := by
  refine flushes_inv inv (forall_mem_snoc inv.flushes ?_)
  exact ⟨fun p hp => accepted_ok (mem_filter.mp hp).2, by simp, by simp⟩

theorem ended_of_idle (inv : m.Inv) (idle : m.barrier.inFlight = 0)
    (ok : (m.pubAt p).result = some .ok) (chosen : c ∈ (m.pubAt p).chans) : 0 < m.outcomes.count p c := by
  have empty : total Pub.load m.pubs = 0 ∧ total Sub.load m.subs = 0 := by
    have := inv.barrier.count
    simp only [load] at this
    omega
  have atPub : (m.pubAt p).holds c = 0 := by
    cases at_p : m.pubs[p]? with
    | none => simp [pubAt, at_p, Pub.void] at ok
    | some P =>
      rw [pubAt, getD_at at_p] at ok ⊢
      have wf := inv.pubs P (mem_of_getElem? at_p)
      simp [Pub.holds, (wf.complete ok).1, (wf.complete ok).2, wf.parked (by simp [ok]), inHand]
  have atSub : (m.subAt c).holds p = 0 := by
    cases at_c : m.subs[c]? with
    | none => simp [subAt, at_c, Sub.void, Sub.holds]
    | some C =>
      rw [subAt, getD_at at_c]
      have none := (total_eq_zero Sub.load m.subs).mp empty.2 C (mem_of_getElem? at_c)
      simp only [Sub.load] at none
      have chan : C.chan = [] := length_eq_zero_iff.mp (by omega)
      have busy : C.busy = [] := length_eq_zero_iff.mp (by omega)
      simp [Sub.holds, chan, busy]
  -- nobody holds the pair any more, so what the tally still counts is an outcome
  have all := inv.tally p c
  have counted : 0 < (m.pubAt p).chans.count c := count_pos_iff.mpr chosen
  simp only [tally] at all
  omega

theorem onFlush_inv {f : Nat} (inv : m.Inv)
    (sound : ∀ F state, m.Awaited F → g F = some state → m.Awaited { F with state := state })
    (done : m.onFlush f g = some n) : n.Inv := by
  obtain ⟨F, state, at_f, stepped, rfl⟩ := onFlush_some done
  have next := sound F state (inv.flushes F (mem_of_getElem? at_f)) stepped
  exact flushes_inv inv (forall_set inv.flushes f next)

theorem check_awaited (inv : m.Inv) (F : Flush) (state : FlushState) (awaited : m.Awaited F)
    (checked : check m.barrier F = some state) : m.Awaited { F with state := state } := by
  unfold check at checked
  split at checked
  case h_2 => cases checked
  case h_1 =>
    cases checked
    refine ⟨awaited.accepted, ?_, ?_⟩
    · intro ch waiting
      obtain ⟨_, k, waits⟩ := inv.barrier
      split at waiting
      · cases waiting
      · cases waiting
        rw [waits, length_append]
        exact sub_lt (succ_pos _) one_pos
    · intro returned p hp c hc
      split at returned
      case isTrue idle => exact ended_of_idle inv idle (awaited.accepted p hp) hc
      case isFalse => cases returned

theorem wake_awaited (F : Flush) (state : FlushState) (awaited : m.Awaited F)
    (woken : wake m.barrier F = some state) : m.Awaited { F with state := state } := by
  unfold wake at woken
  split at woken
  case h_2 => cases woken
  case h_1 =>
    split at woken
    · cases woken
      exact ⟨awaited.accepted, by simp, by simp⟩
    · cases woken

theorem expire_awaited (F : Flush) (state : FlushState) (awaited : m.Awaited F)
    (expired : expire F = some state) : m.Awaited { F with state := state } := by
  unfold expire at expired
  split at expired
  case h_2 => cases expired
  case h_1 =>
    cases expired
    exact ⟨awaited.accepted, by simp, by simp⟩

theorem step_inv (m : Memory) (a : Label) (n : Memory) (inv : m.Inv) (stepped : m.step a = some n) : n.Inv := by
  cases a with
  | subscribe topic group => exact Option.some.inj stepped ▸ subscribe_inv topic group inv
  | publish msg order => exact publish_inv inv stepped
  | offer p => exact offer_inv inv stepped
  | send p => exact send_inv inv stepped
  | refuse p => exact refuse_inv inv stepped
  | undo p => exact undo_inv inv stepped
  | finishPublish p => exact finishPublish_inv inv stepped
  | receive c => exact quiet_inv inv (fun _ _ => receive_turn) stepped
  | succeed c j => exact succeed_inv inv stepped
  | fail c j panicked => exact fail_inv inv stepped
  | finish c j => exact counted_inv inv (fun _ _ => finish_turn) stepped
  | cancel c => exact quiet_inv inv (fun _ _ => cancel_turn) stepped
  | exit c => exact quiet_inv inv (fun _ _ => exit_turn) stepped
  | leave c => exact leave_inv inv stepped
  | pop c => exact pop_inv inv stepped
  | discard c => exact counted_inv inv (fun _ _ => discard_turn) stepped
  | drained c => exact quiet_inv inv (fun _ _ => drained_turn) stepped
  | flush => exact Option.some.inj stepped ▸ flush_inv inv
  | check f => exact onFlush_inv inv (check_awaited inv) stepped
  | wake f => exact onFlush_inv inv wake_awaited stepped
  | expire f => exact onFlush_inv inv expire_awaited stepped
  | close =>
    cases stepped
    exact ⟨inv.barrier, inv.tally, inv.pubs, inv.subs, inv.registry, fun F mem =>
      (inv.flushes F mem).mono (fun p ok => ⟨ok, rfl⟩) le_rfl (fun _ _ => le_rfl), inv.lost⟩

theorem reachable_inv (opts : List MemoryOption) (labels : List Label) :
    Run.Visits step Inv (newMemory opts) labels :=
  Run.visits_invariant step_inv (newMemory_inv opts) labels

end Memory
end Probectl.Bus
