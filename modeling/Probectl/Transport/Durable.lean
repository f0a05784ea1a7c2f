import Probectl.Transport.StreamInv

/-! What an answer of `StreamResults` is worth, and what `drainOnce` takes out of
the buffer for it. `Flush` waits until every promise has been called and does not
look at what the promises said. -/
namespace Probectl.Transport

open Bus Producer Run Option Client

def Acked (s : Session) (i : Nat) : Prop := ∃ r ∈ s.bus.client.acked, own i r = true

def Failed (s : Session) (i : Nat) : Prop := ∃ r ∈ s.bus.client.failed, own i r = true

/-- Ack after durable: every parsable result that is answered for is with the
broker, so is every parsable one that `Remove` takes out of the buffer, and only
a frame that does not convert is quarantined. -/
structure AckDurable (w : Wire) (s : Session) : Prop where
  answered : ∀ n, s.server = .answered n → ∀ i < n, decodable w s i = true → Acked s i
  removed : ∀ fs, s.removed = some fs → ∀ (i : Nat) (fr : Bytes), fs[i]? = some fr →
    ∃ payload, w.frameToRequest fr = .ok payload ∧ ((w.decode payload).isSome = true → Acked s i)
  quarantined : ∀ fr, s.quarantined = some fr → w.frameToRequest fr = .error .malformed

/-- No promise of a parsable result that is answered for came with an error,
and there was a bus to publish it on. -/
def Delivered (w : Wire) (s : Session) : Prop :=
  ∀ n, s.server = .answered n → ∀ i < n, decodable w s i = true → s.bus.wired = true ∧ ¬ Failed s i

variable {s : Session} {i : Nat}

theorem wired_of_acked (acked : Acked s i) : s.bus.wired = true := by
  obtain ⟨r, mem, _⟩ := acked
  cases bus : s.bus with
  | none => simp [bus, ResultBus.client] at mem
  | kafka k => rfl
  | nats n => rfl

variable {w : Wire}

theorem acked_of_delivered (inv : Inv w s) (delivered : Delivered w s)
    (answered : s.server = .answered n) (below : i < n) (parsed : decodable w s i = true) : Acked s i := by
  obtain ⟨wired, kept⟩ := delivered n answered i below parsed
  have sent : 0 < s.bus.client.count (own i) := by
    have known := inv.answered n answered
    rw [inv.counted, parsed, wired]
    simp [← known, below]
  rcases Client.settled (inv.drained (by simp [answered, Server.waited]) i) sent with acked | failed
  · exact acked
  · exact absurd failed kept

theorem ackDurable_iff (inv : Inv w s) : AckDurable w s ↔ Delivered w s := by
  constructor
  · intro durable n answered i below parsed
    have acked := durable.answered n answered i below parsed
    refine ⟨wired_of_acked acked, fun failed => ?_⟩
    -- the client has a request's record once, so it cannot be acked and failed
    have once := inv.counted i
    have one := tally_pos.mpr acked
    have other := tally_pos.mpr failed
    have bound := Bool.toNat_le (decide (i < s.accepted) && decodable w s i && s.bus.wired)
    simp only [count] at once
    omega
  · intro delivered
    refine ⟨fun n answered i below => acked_of_delivered inv delivered answered below, ?_, inv.quarantined⟩
    intro fs taken i fr at_i
    obtain ⟨front, short, n, answered, covered⟩ := inv.removed fs taken
    have inside : i < fs.length := (List.getElem?_eq_some_iff.mp at_i).1
    obtain ⟨payload, request⟩ : ∃ payload, s.requests[i]? = some payload :=
      ⟨_, List.getElem?_eq_getElem (Nat.lt_of_lt_of_le inside short)⟩
    obtain ⟨frame, at_frame, converted⟩ := inv.converted i payload request
    have same : fs[i]? = s.batch[i]? :=
      (congrArg (fun l => l[i]?) front).trans (List.getElem?_take_of_lt inside)
    rw [same, at_frame] at at_i
    cases at_i
    refine ⟨payload, converted, fun parsed => ?_⟩
    exact acked_of_delivered inv delivered answered (Nat.lt_of_lt_of_le inside covered)
      (by simp [decodable, request, parsed])

variable {t : Session}

/-- No promise of this stream's records comes with an error, the client has room
when `TryProduce` is called, and no parsable result meets a service without a bus. -/
def NoLoss (w : Wire) (s : Session) : Label → Prop
  | .complete i err => ∀ r j, s.bus.client.pending[i]? = some r → r.origin = some j → err = none
  | .produce _ => ∀ k, s.bus = .kafka k → k.producer.pending.length < k.maxBuffered
  | .recv _ _ _ _ => decodable w s s.accepted = true → s.bus.wired = true
  | _ => True

structure Lossless (w : Wire) (s : Session) : Prop where
  failed : ∀ j, tally (own j) s.bus.client.failed = 0
  wired : ∀ i < s.accepted, decodable w s i = true → s.bus.wired = true

theorem bus_lossless (lossless : Lossless w s) (wired : bus.wired = s.bus.wired)
    (failed : ∀ j, tally (own j) bus.client.failed = tally (own j) s.bus.client.failed) :
    Lossless w { s with bus := bus, server := v } :=
  ⟨fun j => (failed j).trans (lossless.failed j), fun i below parsed => wired.trans (lossless.wired i below parsed)⟩

theorem complete_lossless
    (lossless : Lossless w s) (quiet : NoLoss w s (.complete i err)) (done : complete s i err = some t) :
    Lossless w t := by
  obtain ⟨bus, rfl, wired, completed⟩ := complete_client done
  refine ⟨fun j => ?_, fun x below parsed => wired.trans (lossless.wired x below parsed)⟩
  obtain ⟨r, at_i, same⟩ := map_eq_some_iff.mp completed
  have old := lossless.failed j
  cases ok : err with
  | none =>
    rw [← same, ok]
    exact old
  | some f =>
    have other : own j r = false := by
      by_contra mine
      have origin : r.origin = some j := by simpa [own] using mine
      rw [quiet r j at_i origin] at ok
      cases ok
    rw [← same, ok]
    simp [tally_append_singleton, other, old]

theorem produce_failed (bus : ResultBus Record) (r : Record) (answer : AsyncAnswer) (j : Nat)
    (room : own j r = false ∨ ∀ k, bus = .kafka k → k.producer.pending.length < k.maxBuffered) :
    tally (own j) (produce bus r answer).1.client.failed = tally (own j) bus.client.failed := by
  cases bus with
  | none => rfl
  | kafka k =>
    simp only [produce, Kafka.tryProduce, ResultBus.client]
    split
    case isFalse => rfl
    case isTrue full =>
      rcases room with other | room
      · simp [refuse, tally_append_singleton, other]
      · exact absurd (room k rfl) (Nat.not_lt.mpr full)
  | nats n => cases answer <;> rfl

theorem produceOwn_lossless (inv : Inv w s)
    (lossless : Lossless w s) (quiet : NoLoss w s (.produce answer)) (done : produceOwn s answer = some t) :
    Lossless w t := by
  unfold produceOwn at done
  split at done
  case h_2 => cases done
  case h_1 msg publishing =>
    have wired := (inv.publishing msg publishing).2
    have kept := fun j => produce_failed s.bus ⟨some s.accepted, msg⟩ answer j (.inr quiet)
    have same := (produce_client s.bus ⟨some s.accepted, msg⟩ answer (own 0)).1
    split at done
    case h_1 bus e refused =>
      rw [refused] at kept same
      cases done
      exact ⟨fun j => (kept j).trans (lossless.failed j), fun _ _ _ => same.trans wired⟩
    case h_2 bus accepted =>
      rw [accepted] at kept same
      cases done
      exact ⟨fun j => (kept j).trans (lossless.failed j), fun _ _ _ => same.trans wired⟩

theorem recv_lossless {id : Identity} (lossless : Lossless w s)
    (quiet : NoLoss w s (.recv fenceErr route ctxErr ensure))
    (done : recv w id s fenceErr route ctxErr ensure = some t) : Lossless w t := by
  obtain ⟨_, ⟨rfl, _⟩ | ⟨bus, v, rfl, client, wired, _⟩⟩ := recv_some done
  · refine ⟨lossless.failed, fun i below parsed => ?_⟩
    by_cases here : i = s.accepted
    · exact quiet (here ▸ parsed)
    · exact lossless.wired i (by dsimp only at below; omega) parsed
  · exact bus_lossless lossless wired (fun j => by rw [client])

theorem lossless_of_same (lossless : Lossless w s) (bus : t.bus = s.bus)
    (requests : t.requests = s.requests) (accepted : t.accepted = s.accepted) : Lossless w t := by
  refine ⟨fun j => by rw [bus]; exact lossless.failed j, fun i below parsed => ?_⟩
  rw [bus]
  exact lossless.wired i (accepted ▸ below) (by simpa only [decodable, requests] using parsed)

theorem begin_lossless (maxRecords maxBytes : Int) (peek quarantine : Agent.Faults)
    (refused : Bool) (inv : Inv w s) (lossless : Lossless w s) (idle : s.drain = .idle) :
    Lossless w (begin w s maxRecords maxBytes peek quarantine refused) := by
  have fresh : (begin w s maxRecords maxBytes peek quarantine refused).bus = s.bus ∧
      (begin w s maxRecords maxBytes peek quarantine refused).accepted = 0 := by
    rw [← (inv.idle idle).1]
    unfold begin
    dsimp only
    repeat' split
    all_goals exact ⟨rfl, rfl⟩
  refine ⟨fun j => by rw [fresh.1]; exact lossless.failed j, fun i below => ?_⟩
  rw [fresh.2] at below
  cases below

theorem step_lossless (w : Wire) (id : Identity) (s : Session) (a : Label) (t : Session) (inv : Inv w s)
    (lossless : Lossless w s) (quiet : NoLoss w s a) (stepped : step w id s a = some t) : Lossless w t := by
  cases a with
  | enqueue p faults => exact some.inj stepped ▸ lossless_of_same lossless rfl rfl rfl
  | foreign msg answer =>
    cases stepped
    have kept := fun j => produce_failed s.bus ⟨none, msg⟩ answer j (.inl rfl)
    have same := (produce_client s.bus ⟨none, msg⟩ answer (own 0)).1
    exact bus_lossless lossless same kept
  | complete i err => exact complete_lossless lossless quiet stepped
  | account i =>
    obtain ⟨bus, rfl, wired, client⟩ := account_client stepped
    exact bus_lossless lossless wired (fun j => by rw [client])
  | begin maxRecords maxBytes peek quarantine refused =>
    simp only [step, ite_none_right_eq_some] at stepped
    obtain ⟨idle, same⟩ := stepped
    exact some.inj same ▸
      begin_lossless maxRecords maxBytes peek quarantine refused inv lossless idle
  | recv fenceErr route ctxErr ensure => exact recv_lossless lossless quiet stepped
  | produce answer => exact produceOwn_lossless inv lossless quiet stepped
  | eof =>
    obtain ⟨_, rfl | ⟨rfl, _⟩⟩ := eof_some stepped
    all_goals exact lossless_of_same lossless rfl rfl rfl
  | flushed =>
    obtain ⟨_, _, v, rfl, _⟩ := flushed_some stepped
    exact lossless_of_same lossless rfl rfl rfl
  | settled =>
    obtain ⟨_, rfl⟩ := settled_some stepped
    exact lossless_of_same lossless rfl rfl rfl
  | flushErr | broken | abandon =>
    simp only [step, flushErr, broken, ite_none_right_eq_some] at stepped
    exact some.inj stepped.2 ▸ lossless_of_same lossless rfl rfl rfl
  | remove faults =>
    simp only [step, remove] at stepped
    split at stepped
    · split at stepped <;> exact some.inj stepped ▸ lossless_of_same lossless rfl rfl rfl
    · cases stepped

theorem start_lossless (w : Wire) (store : Agent.Store) (bus : ResultBus Message) :
    Lossless w (start store bus) := by
  refine ⟨fun j => ?_, fun i below => by cases below⟩
  have none := (start_inv w store bus).counted j
  simp only [count, start, Nat.not_lt_zero, decide_false, Bool.false_and, Bool.toNat_false] at none ⊢
  omega

/-- An answer is worth what it says in every state reached exactly when no
parsable result it covers failed behind `Publish`; a run in which no such
promise fails keeps ack after durable in every state. -/
theorem ack_after_durable (w : Wire) (id : Identity) (store : Agent.Store) (bus : ResultBus Message)
    (labels : List Label) :
    (Visits (step w id) (AckDurable w) (start store bus) labels ↔
      Visits (step w id) (Delivered w) (start store bus) labels) ∧
    (Along (step w id) (NoLoss w) (start store bus) labels →
      Visits (step w id) (AckDurable w) (start store bus) labels) := by
  constructor
  · exact visits_congr (visits_invariant (step_inv w id) (start_inv w store bus) labels)
      fun s => ackDurable_iff
  intro along
  have clean : Visits (step w id) (fun s => Inv w s ∧ Lossless w s) (start store bus) labels :=
    visits_of_along (fun s a t good quiet stepped => ⟨step_inv w id s a t good.1 stepped,
      step_lossless w id s a t good.1 good.2 quiet stepped⟩)
      ⟨start_inv w store bus, start_lossless w store bus⟩ along
  intro pre post split s ran
  obtain ⟨inv, lossless⟩ := clean pre post split s ran
  refine (ackDurable_iff inv).mpr fun n answered i below parsed => ?_
  have covered : i < s.accepted := inv.answered n answered ▸ below
  refine ⟨lossless.wired i covered parsed, fun failed => ?_⟩
  have positive := tally_pos.mpr failed
  have zero := lossless.failed i
  omega

def plainWire : Wire := ⟨.ok, some⟩

def oneFrame : Agent.Store :=
  ⟨⟨some [0, 0, 0, 1, 7], none, none⟩, ⟨10000, Agent.defaultMaxBytes, true, 1, 5, 0, 0⟩⟩

def failedProduce : List Label :=
  [.begin 0 0 {} {} false, .recv false (some []) false none, .produce .future,
    .complete 0 (some ⟨networkResultsTopic, []⟩), .eof, .flushed, .remove {}]

/-- `Accepted` is 1, the frame is gone from the buffer, and the broker never had it. -/
theorem failed_produce_acked :
    ∃ s, run (step plainWire ⟨[1], [2]⟩) (start oneFrame (.kafka (newKafka 0))) failedProduce = some s ∧
      s.server = .answered 1 ∧ s.removed = some [[7]] ∧ s.bus.client.acked = [] ∧
      ¬ AckDurable plainWire s := by
  refine ⟨_, rfl, rfl, rfl, rfl, fun durable => ?_⟩
  obtain ⟨r, mem, _⟩ := durable.answered 1 rfl 0 (by decide) rfl
  cases mem

end Probectl.Transport
