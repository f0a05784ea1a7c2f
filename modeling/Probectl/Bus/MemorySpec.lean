import Probectl.Lib.Population
import Probectl.Bus.Memory

/-! The invariant of the in-process bus. Every pair of a record and a selected
channel is in exactly one place, and the in-flight counter is the number of
pairs that have been counted in and not yet out. -/
namespace Probectl.Bus

open Population List Sending Job

def Sending.inHand : Sending → List Nat
  | .idle => []
  | .offering c => [c]
  | .refused c => [c]

variable {c : Nat}

namespace Pub

def void : Pub := ⟨⟨[], [], []⟩, [], [], .idle, false, [], none⟩

def load (P : Pub) : Nat := P.sending.inHand.length

def holds (P : Pub) (c : Nat) : Nat :=
  P.pending.count c + P.sending.inHand.count c + P.refusals.count c

structure Wf (P : Pub) : Prop where
  nodup : P.chans.Nodup
  parked : P.result ≠ none → P.sending = .idle
  complete : P.result = some .ok → P.pending = [] ∧ P.refusals = []
  honest : P.refusals = [] ∨ P.dropped = true ∨ P.result = some .ctxErr

structure Turn (P Q : Pub) : Prop where
  running : P.result = none
  chans : Q.chans = P.chans
  holds : ∀ c, Q.holds c = P.holds c
  wf : P.Wf → Q.Wf

variable {P Q : Pub}

theorem offer_turn (offered : P.offer = some Q) : P.Turn Q ∧ Q.load = P.load + 1 := by
  obtain ⟨msg, chans, pending, sending, dropped, refusals, result⟩ := P
  unfold offer at offered
  split at offered
  case h_1 c rest running idle next =>
    cases offered
    subst running idle next
    refine ⟨⟨rfl, rfl, fun x => ?_, fun wf => ⟨wf.nodup, by simp, by simp, wf.honest⟩⟩, rfl⟩
    simp only [holds, inHand, count_cons]
    omega
  case h_2 => cases offered

theorem offered_iff : P.offered = some c ↔ P.result = none ∧ P.sending = .offering c := by
  unfold offered
  split
  case h_1 x running sending => simp [running, sending]
  case h_2 other =>
    simp only [reduceCtorEq, false_iff]
    rintro ⟨running, sending⟩
    exact other c running sending

theorem refuse_turn (offered : P.offered = some c) :
    P.Turn { P with sending := .refused c } ∧ Pub.load { P with sending := .refused c } = P.load := by
  obtain ⟨running, sending⟩ := offered_iff.mp offered
  refine ⟨⟨running, rfl, fun x => by simp [holds, sending, inHand], fun wf => ?_⟩, ?_⟩
  · exact ⟨wf.nodup, by simp [running], by simp [running], wf.honest⟩
  · simp [load, sending, inHand]

theorem sent_holds (sending : P.sending = .offering c) : P.load = Pub.load { P with sending := .idle } + 1 ∧
      ∀ x, Pub.holds { P with sending := .idle } x + (if c = x then 1 else 0) = P.holds x := by
  refine ⟨by simp [load, sending, inHand], fun x => ?_⟩
  simp only [holds, sending, inHand, count_cons, beq_iff_eq]
  omega

theorem undo_turn (undone : P.undo dropOn = some Q) : P.Turn Q ∧ P.load = Q.load + 1 := by
  obtain ⟨msg, chans, pending, sending, dropped, refusals, result⟩ := P
  unfold undo at undone
  split at undone
  case h_1 c running refused =>
    subst running refused
    cases dropOn with
    | true | false =>
      cases undone
      refine ⟨⟨rfl, rfl, fun x => ?_, fun wf => ⟨wf.nodup, by simp, by simp, by simp⟩⟩, rfl⟩
      simp only [holds, inHand, count_cons]
      omega
  case h_2 => cases undone

theorem finish_turn (finished : P.finish = some Q) : P.Turn Q ∧ Q.load = P.load := by
  obtain ⟨msg, chans, pending, sending, dropped, refusals, result⟩ := P
  unfold finish at finished
  split at finished
  case h_1 running idle empty =>
    cases finished
    subst running idle empty
    refine ⟨⟨rfl, rfl, fun x => rfl, fun wf => ⟨wf.nodup, by simp, ?_, ?_⟩⟩, rfl⟩
    · have honest := wf.honest
      cases dropped <;> simp_all
    have honest := wf.honest
    simp only [reduceCtorEq, or_false] at honest
    rcases honest with empty | marked
    · exact .inl empty
    · exact .inr (.inl marked)
  case h_2 => cases finished

end Pub

def Job.works (p : Nat) (b : Job) : Nat := if b.returned = false ∧ b.pub = p then 1 else 0

variable {C D : Sub}

namespace Sub

def void : Sub := ⟨[], [], [], .gone, 0, [], false⟩

def load (C : Sub) : Nat := C.chan.length + C.busy.length + C.popped.toNat

def holds (C : Sub) (p : Nat) : Nat := C.chan.count p + total (works p) C.busy

def registered (C : Sub) : Bool := decide (C.status = .serving) || decide (C.status = .cancelled)

structure Wf (C : Sub) : Prop where
  finished : C.registered = false → C.busy = [] ∧ C.idle = 0
  popped : C.popped = true → C.status = .left

theorem Wf.free (wf : C.Wf) (elsewhere : C.status ≠ .left) : C.popped = false := by
  by_contra held
  exact elsewhere (wf.popped (by simpa using held))

structure Turn (C D : Sub) : Prop where
  key : D.topic = C.topic ∧ D.group = C.group
  registered : D.registered = C.registered
  wf : C.Wf → D.Wf

theorem receive_turn (received : C.receive = some D) : C.Turn D ∧ (∀ p, D.holds p = C.holds p) ∧ D.load = C.load := by
  obtain ⟨topic, group, chan, status, idle, busy, popped⟩ := C
  unfold receive at received
  split at received
  case h_1 n p rest worker oldest =>
    cases received
    subst worker oldest
    refine ⟨⟨⟨rfl, rfl⟩, rfl, fun wf => ⟨fun off => ?_, wf.popped⟩⟩, fun x => ?_, ?_⟩
    · exact absurd (wf.finished off).2 (Nat.succ_ne_zero n)
    · simp only [holds, total_append_singleton, works, count_cons, beq_iff_eq]
      simp only [true_and]
      omega
    · simp only [load, length_append, length_cons, length_nil]
      omega
  case h_2 => cases received

variable {j : Nat} {b : Job}

theorem running_iff : C.running j = some b ↔ C.busy[j]? = some b ∧ b.returned = false := by
  simp [running]

theorem setJob_turn (busy : C.busy[j]? = some b) (d : Job) : C.Turn (C.setJob j d) ∧ (C.setJob j d).load = C.load ∧
      ∀ p, (C.setJob j d).holds p + b.works p = C.holds p + d.works p := by
  refine ⟨⟨⟨rfl, rfl⟩, rfl, fun wf => ⟨fun off => ?_, wf.popped⟩⟩, ?_, fun p => ?_⟩
  · have none := (wf.finished off).1
    simp [none] at busy
  · simp [load, setJob]
  · have change := total_set (works p) d busy
    simp only [holds, setJob]
    omega

theorem finish_turn (finished : C.finish j = some D) :
    C.Turn D ∧ (∀ p, D.holds p = C.holds p) ∧ C.load = D.load + 1 := by
  unfold finish at finished
  split at finished
  case h_1 b found =>
    obtain ⟨busy, returned⟩ := Option.filter_eq_some_iff.mp found
    cases finished
    have bound : j < C.busy.length := (List.getElem?_eq_some_iff.mp busy).1
    refine ⟨⟨⟨rfl, rfl⟩, rfl, fun wf => ⟨fun off => ?_, wf.popped⟩⟩, fun p => ?_, ?_⟩
    · simp [(wf.finished off).1] at bound
    · have change := total_eraseIdx (works p) busy
      have idle : b.works p = 0 := by simp [works, returned]
      simp only [holds]
      omega
    · simp only [load, length_eraseIdx_of_lt bound]
      omega
  case h_2 => cases finished

theorem cancel_turn (cancelled : C.cancel = some D) : C.Turn D ∧ (∀ p, D.holds p = C.holds p) ∧ D.load = C.load := by
  unfold cancel at cancelled
  split at cancelled
  case isTrue serving =>
    cases cancelled
    refine ⟨⟨⟨rfl, rfl⟩, by simp [registered, serving], fun wf => ⟨by simp [registered], ?_⟩⟩,
      fun p => rfl, rfl⟩
    intro held
    simpa [serving] using wf.popped held
  case isFalse => cases cancelled

theorem exit_turn (exited : C.exit = some D) : C.Turn D ∧ (∀ p, D.holds p = C.holds p) ∧ D.load = C.load := by
  unfold exit at exited
  split at exited
  case h_1 n cancelled worker =>
    cases exited
    refine ⟨⟨⟨rfl, rfl⟩, rfl, fun wf => ⟨?_, wf.popped⟩⟩, fun p => rfl, rfl⟩
    simp [registered, cancelled]
  case h_2 => cases exited

theorem discard_turn (discarded : C.discard = some D) :
    C.Turn D ∧ (∀ p, D.holds p = C.holds p) ∧ C.load = D.load + 1 := by
  unfold discard at discarded
  split at discarded
  case isTrue popped =>
    cases discarded
    refine ⟨⟨⟨rfl, rfl⟩, rfl, fun wf => ⟨wf.finished, by simp⟩⟩, fun p => rfl, ?_⟩
    simp [load, popped]
  case isFalse => cases discarded

theorem drained_turn (drained : C.drained = some D) : C.Turn D ∧ (∀ p, D.holds p = C.holds p) ∧ D.load = C.load := by
  unfold Sub.drained at drained
  split at drained
  case isTrue ready =>
    obtain ⟨left, empty, _⟩ := ready
    cases drained
    refine ⟨⟨⟨rfl, rfl⟩, by simp [registered, left], fun wf => ⟨fun _ => ?_, by simp [empty]⟩⟩,
      fun p => rfl, rfl⟩
    exact wf.finished (by simp [registered, left])
  case isFalse => cases drained

theorem pop_turn (popped : C.pop = some (p, D)) :
    C.Turn D ∧ D.load = C.load ∧ ∀ x, D.holds x + (if p = x then 1 else 0) = C.holds x := by
  obtain ⟨topic, group, chan, status, idle, busy, holding⟩ := C
  unfold pop at popped
  split at popped
  case h_1 q rest left free oldest =>
    cases popped
    subst left free oldest
    refine ⟨⟨⟨rfl, rfl⟩, rfl, fun wf => ⟨wf.finished, by simp⟩⟩, ?_, fun x => ?_⟩
    · simp only [load, length_cons, Bool.toNat_true, Bool.toNat_false]
      omega
    · simp only [holds, count_cons, beq_iff_eq]
      omega
  case h_2 => cases popped

theorem queued_holds (C : Sub) (p : Nat) :
    Sub.load { C with chan := C.chan ++ [p] } = C.load + 1 ∧
      ∀ x, Sub.holds { C with chan := C.chan ++ [p] } x = C.holds x + (if p = x then 1 else 0) := by
  constructor
  · simp only [load, length_append, length_cons, length_nil]
    omega
  · simp only [holds, count_append, count_cons, count_nil, beq_iff_eq]
    omega

theorem leave_some (left : C.leave = some D) :
    C.registered = true ∧ C.busy = [] ∧ D = { C with status := .left } ∧ (C.Wf → D.Wf) := by
  unfold leave at left
  split at left
  case isTrue ready =>
    obtain ⟨cancelled, idle, busy⟩ := ready
    cases left
    exact ⟨by simp [registered, cancelled], busy, rfl, fun _ => ⟨fun _ => ⟨busy, idle⟩, fun _ => rfl⟩⟩
  case isFalse => cases left

end Sub

namespace Barrier

structure Wf (b : Barrier) (n : Nat) : Prop where
  count : b.inFlight = n
  waits : ∃ k, b.waits = replicate k true ++ [decide (n = 0)]

variable {b : Barrier} {n : Nat}

theorem Wf.of_eq (wf : b.Wf n) (same : n = k) : b.Wf k := same ▸ wf

theorem addInFlight_wf (wf : b.Wf n) : b.addInFlight.Wf (n + 1) ∧ b.waits.length ≤ b.addInFlight.waits.length := by
  obtain ⟨rfl, k, waits⟩ := wf
  by_cases zero : b.inFlight = 0
  · refine ⟨⟨rfl, k + 1, ?_⟩, by simp [addInFlight, zero]⟩
    simp [addInFlight, waits, zero, replicate_succ']
  · refine ⟨⟨rfl, k, ?_⟩, by simp [addInFlight, zero]⟩
    simp [addInFlight, waits, zero]

theorem doneInFlight_wf (wf : b.Wf (n + 1)) : b.doneInFlight.Wf n ∧ b.waits.length ≤ b.doneInFlight.waits.length := by
  obtain ⟨count, k, waits⟩ := wf
  by_cases last : n = 0
  · subst last
    refine ⟨⟨by simp [doneInFlight, count], k, ?_⟩, ?_⟩ <;> simp [doneInFlight, count, waits]
  · refine ⟨⟨by simp [doneInFlight, count], k, ?_⟩, by simp [doneInFlight, count, last]⟩
    simp [doneInFlight, count, waits, last]

theorem waits_closed (wf : b.Wf 0) (made : ch < b.waits.length) : b.waits[ch]? = some true := by
  obtain ⟨_, k, waits⟩ := wf
  have all : ∀ x ∈ b.waits, x = true := by simp [waits]
  rw [getElem?_eq_getElem made, all _ (getElem_mem made)]

end Barrier

def members (groups : List MemoryGroup) : List Nat := groups.flatMap MemoryGroup.members

structure Registry (groups : List MemoryGroup) (subs : List Sub) : Prop where
  nodup : (members groups).Nodup
  mem : ∀ c, c ∈ members groups ↔ (subs.getD c Sub.void).registered = true
  key : ∀ g ∈ groups, ∀ c ∈ g.members,
    (subs.getD c Sub.void).topic = g.topic ∧ (subs.getD c Sub.void).group = g.group

namespace Registry

variable {groups : List MemoryGroup} {subs : List Sub}

theorem congr (reg : Registry groups subs)
    (same : ∀ c, (subs'.getD c Sub.void).topic = (subs.getD c Sub.void).topic ∧
      (subs'.getD c Sub.void).group = (subs.getD c Sub.void).group ∧
      (subs'.getD c Sub.void).registered = (subs.getD c Sub.void).registered) :
    Registry groups subs' where
  nodup := reg.nodup
  mem c := by rw [(same c).2.2, reg.mem]
  key g hg c hc := by rw [(same c).1, (same c).2.1]; exact reg.key g hg c hc

theorem replaced (reg : Registry groups subs) (at_c : subs[c]? = some C) (key : D.topic = C.topic ∧ D.group = C.group)
    (registered : D.registered = C.registered) : Registry groups (subs.set c D) :=
  reg.congr fun x => ⟨getD_set_same Sub.topic D at_c key.1 x _, getD_set_same Sub.group D at_c key.2 x _,
    getD_set_same Sub.registered D at_c registered x _⟩

variable {g : MemoryGroup}

theorem pick_mem (picked : g.pick = some c) : c ∈ g.members :=
  mem_of_getElem? picked

theorem picks_nodup (nodup : (members groups).Nodup) : (groups.filterMap MemoryGroup.pick).Nodup := by
  induction groups with
  | nil => simp
  | cons g rest ih =>
    simp only [members, flatMap_cons, nodup_append] at nodup
    obtain ⟨_, later, apart⟩ := nodup
    cases picked : g.pick with
    | none => simpa [picked] using ih later
    | some c =>
      simp only [filterMap_cons, picked, nodup_cons]
      refine ⟨fun mem => ?_, ih later⟩
      obtain ⟨h, hmem, hpick⟩ := mem_filterMap.mp mem
      exact apart c (pick_mem picked) c (mem_flatMap.mpr ⟨h, hmem, pick_mem hpick⟩) rfl

theorem selected_nodup (reg : Registry groups subs) (topic : Bytes) : (selected groups topic).Nodup := by
  apply picks_nodup
  exact reg.nodup.sublist (List.Sublist.flatMap filter_sublist MemoryGroup.members)

theorem advanced_registry (reg : Registry groups subs) (topic : Bytes) : Registry (advanced groups topic) subs := by
  have step : ∀ g : MemoryGroup, (if g.topic = topic then g.advance else g).members = g.members ∧
      (if g.topic = topic then g.advance else g).topic = g.topic ∧
      (if g.topic = topic then g.advance else g).group = g.group := by
    intro g
    split
    · unfold MemoryGroup.advance
      split <;> exact ⟨rfl, rfl, rfl⟩
    · exact ⟨rfl, rfl, rfl⟩
  have same : members (advanced groups topic) = members groups := by
    simp only [members, advanced, flatMap_map]
    exact flatMap_congr fun g _ => (step g).1
  refine ⟨same ▸ reg.nodup, same ▸ reg.mem, fun g hg c hc => ?_⟩
  obtain ⟨h, hmem, rfl⟩ := mem_map.mp hg
  rw [(step h).1] at hc
  rw [(step h).2.1, (step h).2.2]
  exact reg.key h hmem c hc

theorem joined_members (topic group : Bytes) (c : Nat) (groups : List MemoryGroup) :
    (members (joined topic group c groups)).Perm (c :: members groups) := by
  induction groups with
  | nil => simp [joined, members]
  | cons g rest ih =>
    simp only [joined]
    split
    · simp only [members, flatMap_cons, append_assoc]
      exact perm_middle
    · exact (ih.append_left g.members).trans perm_middle

variable {topic group : Bytes}

theorem joined_key (hg : g ∈ joined topic group c groups) (hx : x ∈ g.members) :
    (x = c ∧ g.topic = topic ∧ g.group = group) ∨
      ∃ h ∈ groups, x ∈ h.members ∧ g.topic = h.topic ∧ g.group = h.group := by
  induction groups with
  | nil =>
    obtain rfl : g = ⟨topic, group, [c], 0⟩ := by simpa [joined] using hg
    exact .inl ⟨by simpa using hx, rfl, rfl⟩
  | cons k rest ih =>
    simp only [joined] at hg
    split at hg
    case isTrue same =>
      rcases mem_cons.mp hg with rfl | later
      · rcases mem_append.mp hx with old | new
        · exact .inr ⟨k, mem_cons_self, old, rfl, rfl⟩
        · exact .inl ⟨by simpa using new, same⟩
      · exact .inr ⟨g, mem_cons_of_mem k later, hx, rfl, rfl⟩
    case isFalse =>
      rcases mem_cons.mp hg with rfl | later
      · exact .inr ⟨g, mem_cons_self, hx, rfl, rfl⟩
      · rcases ih later with new | ⟨h, hmem, found⟩
        · exact .inl new
        · exact .inr ⟨h, mem_cons_of_mem k hmem, found⟩

theorem joined_registry (reg : Registry groups subs) (C : Sub) (serving : C.registered = true) :
    Registry (joined C.topic C.group subs.length groups) (subs ++ [C]) := by
  have absent : subs.length ∉ members groups := by
    intro mem
    have := (reg.mem _).mp mem
    simp [Sub.void, Sub.registered] at this
  have perm := joined_members C.topic C.group subs.length groups
  refine ⟨perm.nodup_iff.mpr (nodup_cons.mpr ⟨absent, reg.nodup⟩), fun c => ?_, fun g hg c hc => ?_⟩
  · rw [perm.mem_iff, mem_cons, getD_append_singleton, reg.mem]
    by_cases new : c = subs.length
    · simp [new, serving]
    · simp [new]
  · rw [getD_append_singleton]
    rcases joined_key hg hc with ⟨rfl, topic, group⟩ | ⟨h, hmem, old, topic, group⟩
    · simp [topic, group]
    have other : c ≠ subs.length := by
      rintro rfl
      exact absent (mem_flatMap.mpr ⟨h, hmem, old⟩)
    rw [if_neg other, topic, group]
    exact reg.key h hmem c old

theorem removeSub_mem (hg : g ∈ removeSub groups topic group c) :
    ∃ h ∈ groups, g.topic = h.topic ∧ g.group = h.group ∧
      g.members = if h.topic = topic ∧ h.group = group then h.members.erase c else h.members := by
  obtain ⟨h, hmem, rfl⟩ := mem_map.mp (mem_filter.mp hg).1
  refine ⟨h, hmem, ?_⟩
  split <;> exact ⟨rfl, rfl, rfl⟩

theorem members_removeSub (groups : List MemoryGroup) (topic group : Bytes) (c : Nat) :
    members (removeSub groups topic group c) = groups.flatMap fun h =>
      if h.topic = topic ∧ h.group = group then h.members.erase c else h.members := by
  induction groups with
  | nil => rfl
  | cons g rest ih =>
    simp only [members, removeSub, map_cons, filter_cons] at ih ⊢
    by_cases key : g.topic = topic ∧ g.group = group
    · by_cases empty : g.members.erase c = []
      all_goals simpa [key, empty] using ih
    · simpa [key] using ih

theorem removeSub_erases (reg : Registry groups subs) (c : Nat) :
    members (removeSub groups (subs.getD c Sub.void).topic (subs.getD c Sub.void).group c) =
      (members groups).filter (fun x => x != c) := by
  rw [members_removeSub, members, filter_flatMap]
  apply flatMap_congr
  intro h hmem
  have nodup : h.members.Nodup := (nodup_flatMap.mp reg.nodup).1 h hmem
  split
  case isTrue => exact nodup.erase_eq_filter c
  case isFalse other =>
    refine (filter_eq_self.mpr fun x hx => ?_).symm
    by_contra same
    obtain rfl : x = c := by simpa using same
    exact other ⟨(reg.key h hmem x hx).1.symm, (reg.key h hmem x hx).2.symm⟩

theorem removeSub_registry (reg : Registry groups subs)
    (at_c : subs[c]? = some C) (key : D.topic = C.topic ∧ D.group = C.group)
    (gone : D.registered = false) : Registry (removeSub groups C.topic C.group c) (subs.set c D) := by
  have erased := removeSub_erases reg c
  rw [getD_at at_c] at erased
  refine ⟨erased ▸ reg.nodup.filter _, fun x => ?_, fun g hg x hx => ?_⟩
  · rw [erased, mem_filter, reg.mem, getD_set D at_c]
    by_cases same : x = c
    · simp [same, gone]
    · simp [same]
  · obtain ⟨h, hmem, topic, group, members⟩ := removeSub_mem hg
    have old : x ∈ h.members := by
      rw [members] at hx
      split at hx
      · exact mem_of_mem_erase hx
      · exact hx
    have known := reg.key h hmem x old
    rw [getD_set D at_c, topic, group]
    by_cases same : x = c
    · rw [same, getD_at at_c] at known
      rw [if_pos same, key.1, key.2]
      exact known
    · rw [if_neg same]
      exact known

end Registry
end Probectl.Bus
