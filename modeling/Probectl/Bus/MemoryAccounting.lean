import Probectl.Bus.MemoryEffect

/-! The in-flight counter of the in-process bus against the records it is meant
to count. They differ by the records in the channel of a subscriber that has
left its group, and the difference stays for good once it has returned. -/
namespace Probectl.Bus

open Population List Run

namespace Memory

def held (m : Memory) : Nat := total Pub.load m.pubs

def queued (m : Memory) : Nat := total (fun c => (m.subAt c).chan.length) (members m.groups)

def running (m : Memory) : Nat := total (fun C => C.busy.length) m.subs

def Accounted (m : Memory) : Prop := m.barrier.inFlight = m.queued + m.running + m.held

def departed (m : Memory) : Nat := total Sub.departed m.subs

variable {m : Memory}

theorem queued_registered (inv : m.Inv) :
    m.queued = total (fun C => if C.registered then C.chan.length else 0) m.subs :=
  total_numbers (fun C : Sub => C.chan.length) Sub.registered inv.registry.nodup inv.registry.mem rfl

variable {C : Sub}

theorem sub_load (wf : C.Wf) : C.load = (if C.registered then C.chan.length else 0) + C.busy.length + C.departed := by
  cases member : C.registered with
  | true =>
    have free := wf.free fun left => by simp [Sub.registered, left] at member
    simp [Sub.load, Sub.departed, member, free]
  | false =>
    have idle := (wf.finished member).1
    simp [Sub.load, Sub.departed, member, idle]

theorem inFlight_split (inv : m.Inv) : m.barrier.inFlight = m.queued + m.running + m.held + m.departed := by
  rw [inv.barrier.count, queued_registered inv, load,
    total_congr (fun C mem => sub_load (inv.subs C mem)), total_add, total_add]
  simp only [running, held, departed]
  omega

theorem accounted_iff (inv : m.Inv) : m.Accounted ↔ m.departed = 0 := by
  have split := inFlight_split inv
  unfold Accounted
  omega

/-- Records are sent to registered members only, and a member leaves its group
with nothing in its channel. -/
def KeepsRegistered (m : Memory) : Label → Prop
  | .send p => ∀ c, (m.pubAt p).sending = .offering c → c ∈ members m.groups
  | .leave c => (m.subAt c).chan = []
  | _ => True

variable {a : Label}

theorem keepsRegistered_of_safe (m : Memory) (safe : a.strands = false) : KeepsRegistered m a := by
  cases a <;> trivial

variable {n : Memory}

theorem departed_set (D : Sub) (none : m.departed = 0)
    (at_c : m.subs[c]? = some C) (same : n.subs = m.subs.set c D) : n.departed = D.departed := by
  have change := total_set Sub.departed D at_c
  have before := (total_eq_zero Sub.departed m.subs).mp none C (mem_of_getElem? at_c)
  simp only [departed, same] at none ⊢
  omega

theorem departed_step (inv : m.Inv) (none : m.departed = 0)
    (stepped : m.step a = some n) : n.departed = 0 ↔ KeepsRegistered m a := by
  cases (step_effect stepped).1 with
  | quiet a safe same =>
    refine iff_of_true ?_ (keepsRegistered_of_safe m safe)
    rw [departed, same]
    exact none
  | joined a C safe registered same =>
    refine iff_of_true ?_ (keepsRegistered_of_safe m safe)
    rw [departed, same, total_append_singleton, Sub.departed, if_pos registered]
    exact none
  | turned a c C D safe at_c shrinks same =>
    refine iff_of_true ?_ (keepsRegistered_of_safe m safe)
    have before := (total_eq_zero Sub.departed m.subs).mp none C (mem_of_getElem? at_c)
    have after := shrinks.departed
    rw [departed_set D none at_c same]
    omega
  | sent p c C sending at_c same =>
    have member : c ∈ members m.groups ↔ C.registered = true := by
      rw [inv.registry.mem, getD_at at_c]
    have keeps : KeepsRegistered m (.send p) ↔ C.registered = true := by
      rw [← member]
      constructor
      · exact fun all => all c sending
      intro here x offering
      rw [sending] at offering
      cases offering
      exact here
    rw [keeps, departed_set _ none at_c same]
    -- a record sent to a member that has left is stranded at once
    cases registered : C.registered with
    | true => exact iff_of_true (if_pos registered) rfl
    | false =>
      rw [Sub.departed, if_neg (by simpa [Sub.registered] using registered)]
      simp
  | left c C at_c registered same =>
    have empty : KeepsRegistered m (.leave c) ↔ C.chan = [] := by
      rw [KeepsRegistered, subAt, getD_at at_c]
    have wf := inv.subs C (mem_of_getElem? at_c)
    have free := wf.free fun left => by simp [Sub.registered, left] at registered
    rw [empty, departed_set _ none at_c same]
    simp [Sub.departed, Sub.registered, free]

structure Quiescent (m : Memory) : Prop where
  pubs : ∀ P ∈ m.pubs, P.result ≠ none
  subs : ∀ C ∈ m.subs, C.status = .gone

def FlushReturns (m : Memory) (f : Nat) : Prop :=
  ∃ own : List Label, (∀ a ∈ own, a = .check f ∨ a = .wake f) ∧
    ∃ n F, run step m own = some n ∧ n.flushes[f]? = some F ∧ F.state = .returned true

def Settles (m : Memory) : Prop :=
  m.Quiescent → m.barrier.inFlight = 0 ∧
    ∀ f F, m.flushes[f]? = some F → (∀ ok, F.state ≠ .returned ok) → m.FlushReturns f

def NoneStranded (m : Memory) : Prop := ∀ C ∈ m.subs, C.status = .gone → C.chan = []

theorem quiescent_inFlight (inv : m.Inv) (rest : m.Quiescent) :
    m.barrier.inFlight = total (fun C => C.chan.length) m.subs := by
  have pubs : total Pub.load m.pubs = 0 := by
    refine (total_eq_zero _ _).mpr fun P mem => ?_
    simp [Pub.load, (inv.pubs P mem).parked (rest.pubs P mem), Sending.inHand]
  rw [inv.barrier.count, load, pubs, Nat.zero_add]
  refine total_congr fun C mem => ?_
  have gone := rest.subs C mem
  have wf := inv.subs C mem
  have busy := (wf.finished (by simp [Sub.registered, gone])).1
  have free := wf.free (by simp [gone])
  simp [Sub.load, busy, free]

variable {f : Nat} {F : Flush}

theorem check_returns (idle : m.barrier.inFlight = 0)
    (at_f : m.flushes[f]? = some F) (checking : F.state = .checking) :
    ∃ n G, m.step (.check f) = some n ∧ n.flushes[f]? = some G ∧ G.state = .returned true := by
  have bound : f < m.flushes.length := (List.getElem?_eq_some_iff.mp at_f).1
  refine ⟨{ m with flushes := m.flushes.set f { F with state := .returned true } },
    { F with state := .returned true }, ?_, by simp [bound], rfl⟩
  simp [step, onFlush, at_f, check, checking, idle]

theorem flush_returns (inv : m.Inv) (idle : m.barrier.inFlight = 0)
    (at_f : m.flushes[f]? = some F) (running : ∀ ok, F.state ≠ .returned ok) : m.FlushReturns f := by
  have bound : f < m.flushes.length := (List.getElem?_eq_some_iff.mp at_f).1
  cases state : F.state with
  | returned ok => exact absurd state (running ok)
  | checking =>
    obtain ⟨n, G, checked, at_g, returned⟩ := check_returns idle at_f state
    exact ⟨[.check f], by simp, n, G, by simp [run, checked], at_g, returned⟩
  | waiting ch =>
    have barrier := inv.barrier
    rw [← inv.barrier.count, idle] at barrier
    have closed := Barrier.waits_closed barrier
      ((inv.flushes F (mem_of_getElem? at_f)).channel ch state)
    let awake : Memory := { m with flushes := m.flushes.set f { F with state := .checking } }
    have woken : m.step (.wake f) = some awake := by
      simp [step, onFlush, at_f, wake, state, closed, awake]
    have again : awake.flushes[f]? = some { F with state := .checking } := by simp [bound, awake]
    obtain ⟨n, G, checked, at_g, returned⟩ := check_returns (m := awake) idle again rfl
    exact ⟨[.wake f, .check f], by simp, n, G, by simp [run, woken, checked], at_g, returned⟩

theorem settles_iff (inv : m.Inv) : m.Settles ↔ (m.Quiescent → m.NoneStranded) := by
  constructor
  · intro settles rest C mem _
    have zero := (settles rest).1
    rw [quiescent_inFlight inv rest, total_eq_zero] at zero
    exact length_eq_zero_iff.mp (zero C mem)
  · intro clear rest
    have idle : m.barrier.inFlight = 0 := by
      rw [quiescent_inFlight inv rest, total_eq_zero]
      intro C mem
      rw [clear rest C mem (rest.subs C mem)]
      rfl
    exact ⟨idle, fun f F at_f running => flush_returns inv idle at_f running⟩

def SendsBeforeGone (m : Memory) : Label → Prop
  | .send p => ∀ c, (m.pubAt p).sending = .offering c → (m.subAt c).status ≠ .gone
  | _ => True

theorem noneStranded_step (m : Memory) (a : Label) (n : Memory) (clear : m.NoneStranded)
    (sends : SendsBeforeGone m a) (stepped : m.step a = some n) : n.NoneStranded := by
  cases (step_effect stepped).1 with
  | quiet a _ same =>
    rw [NoneStranded, same]
    exact clear
  | joined a C _ registered same =>
    rw [NoneStranded, same]
    refine forall_mem_append.mpr ⟨clear, forall_mem_singleton.mpr fun gone => ?_⟩
    simp [Sub.registered, gone] at registered
  | turned a c C D _ at_c shrinks same =>
    rw [NoneStranded, same]
    exact forall_set clear c (shrinks.gone (clear C (mem_of_getElem? at_c)))
  | sent p c C sending at_c same =>
    have running := sends c sending
    rw [subAt, getD_at at_c] at running
    rw [NoneStranded, same]
    exact forall_set clear c fun gone => absurd gone running
  | left c C at_c _ same =>
    rw [NoneStranded, same]
    exact forall_set clear c fun gone => by cases gone

/-- The counter accounts for its records in every state of a run exactly when
every send of the run reaches a registered member and every member leaves with
an empty channel. Coming to rest with nothing in flight takes less: no send to
a subscriber that has already returned. -/
theorem inFlight_accounted_iff (opts : List MemoryOption) (labels : List Label) :
    (Visits step (fun m => m.Accounted ∧ m.Settles) (newMemory opts) labels ↔
      Along step KeepsRegistered (newMemory opts) labels) ∧
    (Visits step Settles (newMemory opts) labels ↔
      Visits step (fun m => m.Quiescent → m.NoneStranded) (newMemory opts) labels) ∧
    (Along step SendsBeforeGone (newMemory opts) labels →
      Visits step Settles (newMemory opts) labels) := by
  have invs := reachable_inv opts labels
  refine ⟨⟨fun visits => ?_, fun along => ?_⟩, visits_congr invs fun m => settles_iff, fun along => ?_⟩
  · have both : Visits step (fun m => m.Inv ∧ m.Accounted ∧ m.Settles) (newMemory opts) labels :=
      fun pre post split m ran => ⟨invs pre post split m ran, visits pre post split m ran⟩
    refine along_of_visits (fun m a n good stepped next => ?_) both
    have before := (accounted_iff good.1).mp good.2.1
    have after := (accounted_iff next.1).mp next.2.1
    exact (departed_step good.1 before stepped).mp after
  · have clean : Visits step (fun m => m.Inv ∧ m.departed = 0) (newMemory opts) labels :=
      visits_of_along (fun m a n good keeps stepped =>
        ⟨step_inv m a n good.1 stepped, (departed_step good.1 good.2 stepped).mpr keeps⟩)
        ⟨newMemory_inv opts, rfl⟩ along
    intro pre post split m ran
    obtain ⟨inv, none⟩ := clean pre post split m ran
    refine ⟨(accounted_iff inv).mpr none, (settles_iff inv).mpr fun _ C mem gone => ?_⟩
    have empty := (total_eq_zero Sub.departed m.subs).mp none C mem
    rw [Sub.departed, if_neg (by simp [Sub.registered, gone])] at empty
    exact length_eq_zero_iff.mp (by omega)
  · have clear : Visits step NoneStranded (newMemory opts) labels :=
      visits_of_along noneStranded_step (by simp [NoneStranded, newMemory]) along
    intro pre post split m ran
    exact (settles_iff (invs pre post split m ran)).mpr fun _ => clear pre post split m ran

def lateSend : List Label :=
  [.subscribe [1] [2], .publish ⟨[1], [], [7]⟩ [0], .cancel 0, .exit 0, .leave 0, .drained 0,
    .offer 0, .send 0, .finishPublish 0, .flush, .check 0]

/-- Nothing runs any more, one record is counted for good, and the `Flush` waits
on a channel that no step will close. -/
theorem late_send_leaks :
    ∃ m, run step (newMemory []) lateSend = some m ∧ m.Quiescent ∧ m.barrier.inFlight = 1 ∧
      ¬ m.Accounted ∧ m.flushes = [⟨[0], .waiting 1⟩] ∧ m.barrier.waits[1]? = some false := by
  refine ⟨_, rfl, ⟨by decide, by decide⟩, rfl, ?_, rfl, rfl⟩
  unfold Accounted
  decide

end Memory
end Probectl.Bus
