import Probectl.Lib.Run
import Probectl.Agent.BufferSpec
import Probectl.Transport.Stream

/-! The invariant of a drain: which records of the stream the client has, that
none is pending behind a successful `Flush`, and that what `Remove` takes out is
a front of the peeked frames. -/
namespace Probectl.Transport

open Bus Producer Client Option Server Nat Agent List

def own (i : Nat) (r : Record) : Bool := decide (r.origin = some i)

def decodable (w : Wire) (s : Session) (i : Nat) : Bool :=
  (s.requests[i]?).any fun payload => (w.decode payload).isSome

def Server.waited : Server → Bool
  | .settling => true
  | .answered _ => true
  | _ => false

structure Inv (w : Wire) (s : Session) : Prop where
  converted : ∀ (i : Nat) (payload : Bytes), s.requests[i]? = some payload →
    ∃ fr, s.batch[i]? = some fr ∧ w.frameToRequest fr = .ok payload
  peeked : s.drain = .streaming → s.batch <+: frames s.store.disk.log
  idle : s.drain = .idle → s.accepted = 0 ∧ s.server = .closed
  counted : ∀ i, s.bus.client.count (own i) =
    (decide (i < s.accepted) && decodable w s i && s.bus.wired).toNat
  publishing : ∀ msg, s.server = .publishing msg → decodable w s s.accepted = true ∧ s.bus.wired = true
  drained : s.server.waited = true → ∀ i, tally (own i) s.bus.client.pending = 0
  answered : ∀ n, s.server = .answered n → n = s.accepted
  removed : ∀ fs, s.removed = some fs → fs = s.batch.take fs.length ∧
    fs.length ≤ s.requests.length ∧ ∃ n, s.server = .answered n ∧ fs.length ≤ n
  quarantined : ∀ fr, s.quarantined = some fr → w.frameToRequest fr = .error .malformed

theorem start_inv (w : Wire) (store : Agent.Store) (bus : ResultBus Message) : Inv w (start store bus) := by
  refine ⟨by simp [start], by simp [start], by simp [start], fun i => ?_, by simp [start],
    by simp [start, waited],
    by simp [start], by simp [start], by simp [start]⟩
  have zero : (start store bus).bus.client.count (own i) = 0 := by
    cases bus with
    | none => rfl
    | kafka k => exact count_map _ k.producer (own i) fun msg => rfl
    | nats n => exact count_map _ n.js (own i) fun msg => rfl
  rw [zero]
  simp [start]

variable {w : Wire} {s : Session} {bus : ResultBus Record}

theorem bus_inv (inv : Inv w s) (wired : bus.wired = s.bus.wired)
    (counted : ∀ i, bus.client.count (own i) = s.bus.client.count (own i))
    (pending : ∀ i, tally (own i) bus.client.pending ≤ tally (own i) s.bus.client.pending) :
    Inv w { s with bus := bus } :=
  { inv with
    counted := fun i => by
      rw [counted, inv.counted, ← wired]
      rfl
    publishing := fun msg at_msg => ⟨(inv.publishing msg at_msg).1, wired.trans (inv.publishing msg at_msg).2⟩
    drained := fun waited i => le_zero.mp ((pending i).trans (le_of_eq (inv.drained waited i))) }

theorem publishCheck_client (bus : ResultBus Record) (ctxErr : Bool) (ensure : Option ProduceFailure) :
    (publishCheck bus ctxErr ensure).1.client = bus.client ∧ (publishCheck bus ctxErr ensure).1.wired = bus.wired := by
  cases bus with
  | none => exact ⟨rfl, rfl⟩
  | kafka k =>
    refine ⟨?_, rfl⟩
    simp only [publishCheck, Kafka.publishCheck]
    split
    · rfl
    · split <;> rfl
  | nats n =>
    refine ⟨?_, rfl⟩
    simp only [publishCheck, NATS.publishCheck]
    split
    · rfl
    · split
      · rfl
      · split <;> rfl

theorem produce_client (bus : ResultBus Record) (r : Record) (answer : AsyncAnswer) (q : Record → Bool) :
    (produce bus r answer).1.wired = bus.wired ∧
    (produce bus r answer).1.client.count q = bus.client.count q +
      (q r && bus.wired && (produce bus r answer).2.isNone).toNat ∧
    tally q (produce bus r answer).1.client.pending ≤ tally q bus.client.pending +
      (q r && (produce bus r answer).2.isNone).toNat := by
  cases bus with
  | none => simp [produce, ResultBus.wired]
  | kafka k =>
    refine ⟨rfl, ?_, ?_⟩
    · simp only [produce, Kafka.tryProduce, ResultBus.wired, isNone_none, Bool.and_true]
      split
      · exact count_refuse _ r q
      · exact count_submit _ r q
    · simp only [produce, Kafka.tryProduce, isNone_none, Bool.and_true]
      split
      · exact le_add_right _ _
      · exact le_of_eq (tally_append_singleton q _ r)
  | nats n =>
    cases answer with
    | future =>
      simp only [produce, NATS.publishMsgAsync, ResultBus.wired, isNone_none,
        Bool.and_true, true_and]
      exact ⟨count_submit _ r q, le_of_eq (tally_append_singleton q _ r)⟩
    | tooManyStalled | maxPayload | refused f =>
      simp [produce, NATS.publishMsgAsync, ResultBus.client, ResultBus.wired]

variable {t : Session} {i : Nat}

theorem complete_client (done : complete s i err = some t) :
    ∃ bus, t = { s with bus := bus } ∧ bus.wired = s.bus.wired ∧
      s.bus.client.complete i err.isNone = some bus.client := by
  unfold complete at done
  split at done
  case h_1 => cases done
  case h_2 k at_k =>
    obtain ⟨k', promised, rfl⟩ := map_eq_some_iff.mp done
    obtain ⟨producer, completed, rfl⟩ := map_eq_some_iff.mp promised
    refine ⟨_, rfl, by simp [at_k, ResultBus.wired], ?_⟩
    rw [at_k, ResultBus.client, completed]
    cases err <;> rfl
  case h_3 n at_n =>
    obtain ⟨n', resolved, rfl⟩ := map_eq_some_iff.mp done
    obtain ⟨js, completed, rfl⟩ := map_eq_some_iff.mp resolved
    exact ⟨_, rfl, by simp [at_n, ResultBus.wired], by rw [at_n, ResultBus.client, completed]; rfl⟩

theorem account_client (done : account s i = some t) :
    ∃ bus, t = { s with bus := bus } ∧ bus.wired = s.bus.wired ∧ bus.client = s.bus.client := by
  unfold account at done
  split at done
  case h_2 => cases done
  case h_1 n at_n =>
    obtain ⟨n', accounted, rfl⟩ := map_eq_some_iff.mp done
    obtain ⟨err, _, rfl⟩ := map_eq_some_iff.mp accounted
    refine ⟨_, rfl, by simp [at_n, ResultBus.wired], ?_⟩
    rw [at_n]
    cases err <;> rfl

theorem Inv.not_removed (inv : Inv w s) (open_ : ∀ n, s.server ≠ .answered n) : s.removed = none := by
  cases taken : s.removed with
  | none => rfl
  | some fs =>
    obtain ⟨_, _, n, at_n, _⟩ := inv.removed fs taken
    exact absurd at_n (open_ n)

theorem server_inv (inv : Inv w s) (live : s.server ≠ .closed ∧ ∀ n, s.server ≠ .answered n)
    (publishing : ∀ msg, v = .publishing msg → decodable w s s.accepted = true ∧ s.bus.wired = true)
    (drained : v.waited = true → ∀ i, tally (own i) s.bus.client.pending = 0)
    (answered : ∀ n, v = .answered n → n = s.accepted) : Inv w { s with server := v } :=
  { inv with
    idle := fun at_idle => absurd (inv.idle at_idle).2 live.1
    publishing, drained, answered
    removed := by simp [inv.not_removed live.2] }

theorem failed_inv (inv : Inv w s) (live : s.server ≠ .closed ∧ ∀ n, s.server ≠ .answered n) (e : StreamError) :
    Inv w { s with server := .failed e } :=
  server_inv inv live (by simp) (by simp [waited]) (by simp)

theorem accept_inv (inv : Inv w s) (live : s.server ≠ .closed ∧ ∀ n, s.server ≠ .answered n) (wired : bus.wired = s.bus.wired)
    (counted : ∀ i, bus.client.count (own i) = s.bus.client.count (own i) +
      (decide (i = s.accepted) && decodable w s i && s.bus.wired).toNat) :
    Inv w { s with bus := bus, server := .receiving, accepted := s.accepted + 1 } := by
  refine { inv with
    idle := fun at_idle => absurd (inv.idle at_idle).2 live.1, counted := fun i => ?_, publishing := nofun, drained := nofun
    answered := nofun, removed := by simp [inv.not_removed live.2] }
  have same : decodable w { s with bus := bus, server := .receiving, accepted := s.accepted + 1 } i =
      decodable w s i := rfl
  simp only [same, wired]
  rw [counted, inv.counted]
  -- only the request that was being received changes its count
  by_cases here : i = s.accepted
  · simp [here]
  · have later : i < s.accepted + 1 ↔ i < s.accepted := by omega
    simp [here, later]

variable {id : Identity} {fenceErr ctxErr : Bool} {route : Option Bytes} {ensure : Option ProduceFailure}

theorem recv_some (done : recv w id s fenceErr route ctxErr ensure = some t) : s.server = .receiving ∧
    ((t = { s with accepted := s.accepted + 1 } ∧ (decodable w s s.accepted = true → s.bus.wired = false)) ∨
      ∃ bus v, t = { s with bus := bus, server := v } ∧ bus.client = s.bus.client ∧ bus.wired = s.bus.wired ∧
        (v = .failed .ingest ∨
          ∃ msg, v = .publishing msg ∧ decodable w s s.accepted = true ∧ s.bus.wired = true)) := by
  obtain ⟨receiving, done⟩ := ite_none_right_eq_some.mp done
  obtain ⟨payload, current, rfl⟩ := map_eq_some_iff.mp done
  refine ⟨receiving, ?_⟩
  cases parsed : w.decode payload with
  | none => exact .inl ⟨rfl, by simp [decodable, current, parsed]⟩
  | some value =>
    dsimp only
    split
    · exact .inr ⟨s.bus, _, rfl, rfl, rfl, .inl rfl⟩
    split
    case isTrue unwired => exact .inl ⟨rfl, fun _ => unwired⟩
    case isFalse wired =>
      split
      · exact .inr ⟨s.bus, _, rfl, rfl, rfl, .inl rfl⟩
      split
      · exact .inr ⟨s.bus, _, rfl, rfl, rfl, .inl rfl⟩
      obtain ⟨client, same⟩ := publishCheck_client s.bus ctxErr ensure
      split
      case h_1 bus e checked =>
        rw [checked] at client same
        exact .inr ⟨bus, _, rfl, client, same, .inl rfl⟩
      case h_2 bus checked =>
        rw [checked] at client same
        exact .inr ⟨bus, _, rfl, client, same, .inr ⟨_, rfl, by simp [decodable, current, parsed], by simpa using wired⟩⟩

theorem skipped_inv (inv : Inv w s) (receiving : s.server = .receiving)
    (lost : decodable w s s.accepted = true → s.bus.wired = false) : Inv w { s with accepted := s.accepted + 1 } := by
  have counted : ∀ i, s.bus.client.count (own i) = s.bus.client.count (own i) +
      (decide (i = s.accepted) && decodable w s i && s.bus.wired).toNat := by
    intro i
    by_cases here : i = s.accepted
    · subst here
      cases parsed : decodable w s s.accepted with
      | false => simp
      | true => simp [lost parsed]
    · simp [here]
  have moved := accept_inv inv (by simp [receiving]) rfl counted
  rw [← receiving] at moved
  exact moved

theorem recv_inv (inv : Inv w s) (done : recv w id s fenceErr route ctxErr ensure = some t) : Inv w t := by
  obtain ⟨receiving, ⟨rfl, lost⟩ | ⟨bus, v, rfl, client, wired, next⟩⟩ := recv_some done
  · exact skipped_inv inv receiving lost
  have moved := bus_inv inv wired (fun i => by rw [client]) (fun i => by rw [client])
  rcases next with rfl | ⟨msg, rfl, parsed, attached⟩
  · exact failed_inv moved (by simp [receiving]) _
  · exact server_inv moved (by simp [receiving]) (fun _ _ => ⟨parsed, wired.trans attached⟩) (by simp [waited])
      (by simp)

theorem produceOwn_inv (inv : Inv w s) (done : produceOwn s answer = some t) : Inv w t := by
  unfold produceOwn at done
  split at done
  case h_2 => cases done
  case h_1 msg publishing =>
    have live : s.server ≠ .closed ∧ ∀ n, s.server ≠ .answered n := by simp [publishing]
    obtain ⟨parsed, wired⟩ := inv.publishing msg publishing
    have taken := produce_client s.bus ⟨some s.accepted, msg⟩ answer
    split at done
    case h_1 bus e refused =>
      rw [refused] at taken
      cases done
      have moved : Inv w { s with bus := bus } :=
        bus_inv inv (taken (own 0)).1 (fun i => by simpa using (taken (own i)).2.1)
          (fun i => by simpa using (taken (own i)).2.2)
      exact failed_inv moved live _
    case h_2 bus accepted =>
      rw [accepted] at taken
      cases done
      refine accept_inv inv live (taken (own 0)).1 fun i => ?_
      rw [(taken (own i)).2.1]
      by_cases here : i = s.accepted
      · subst here
        simp [own, parsed]
      · simp [own, here, Ne.symm here]

theorem eof_some (done : eof s = some t) : s.server = .receiving ∧ (t = { s with server := .flushing } ∨
      t = { s with server := .answered s.accepted } ∧ (s.bus.wired = true → s.accepted = 0)) := by
  obtain ⟨ready, done⟩ := ite_none_right_eq_some.mp done
  refine ⟨ready.1, ?_⟩
  split at done
  case isTrue => exact .inl (some.inj done).symm
  case isFalse nothing =>
    refine .inr ⟨(some.inj done).symm, fun wired => ?_⟩
    by_contra some
    exact nothing ⟨wired, pos_of_ne_zero some⟩

theorem eof_inv (inv : Inv w s) (done : eof s = some t) : Inv w t := by
  obtain ⟨receiving, rfl | ⟨rfl, nothing⟩⟩ := eof_some done
  · exact server_inv inv (by simp [receiving]) (by simp) (by simp [waited]) (by simp)
  refine server_inv inv (by simp [receiving]) (by simp) (fun _ i => ?_) (by simp)
  have none : s.bus.client.count (own i) = 0 := by
    rw [inv.counted]
    by_cases wired : s.bus.wired = true
    · simp [nothing wired]
    · simp [wired]
  simp only [Client.count] at none
  omega

theorem flushed_some (done : flushed s = some t) : s.server = .flushing ∧ s.bus.client.pending = [] ∧
      ∃ v, t = { s with server := v } ∧ (v = .answered s.accepted ∨ v = .settling) := by
  unfold flushed at done
  split at done
  case h_3 => cases done
  case h_1 k flushing at_k =>
    obtain ⟨empty, ⟨⟩⟩ := ite_none_right_eq_some.mp done
    exact ⟨flushing, by rw [at_k]; exact isEmpty_iff.mp empty, _, rfl, .inl rfl⟩
  case h_2 n flushing at_n =>
    obtain ⟨empty, ⟨⟩⟩ := ite_none_right_eq_some.mp done
    exact ⟨flushing, by rw [at_n]; exact isEmpty_iff.mp empty, _, rfl, .inr rfl⟩

theorem flushed_inv (inv : Inv w s) (done : flushed s = some t) : Inv w t := by
  obtain ⟨flushing, empty, v, rfl, next⟩ := flushed_some done
  have drained : ∀ i, tally (own i) s.bus.client.pending = 0 := by
    intro i
    rw [empty]
    rfl
  exact server_inv inv (by simp [flushing]) (by grind) (fun _ => drained) (by grind)

theorem settled_some (done : settled s = some t) :
    s.server = .settling ∧ t = { s with server := .answered s.accepted } := by
  unfold settled at done
  split at done
  case h_2 => cases done
  case h_1 n settling at_n =>
    obtain ⟨_, ⟨⟩⟩ := ite_none_right_eq_some.mp done
    exact ⟨settling, rfl⟩

theorem settled_inv (inv : Inv w s) (done : settled s = some t) : Inv w t := by
  obtain ⟨settling, rfl⟩ := settled_some done
  exact server_inv inv (by simp [settling]) (by simp)
    (fun _ => inv.drained (by simp [settling, waited])) (by simp)

theorem flushErr_inv (inv : Inv w s) (done : flushErr s = some t) : Inv w t := by
  obtain ⟨flushing | settling, ⟨⟩⟩ := ite_none_right_eq_some.mp done
  · exact failed_inv inv (by simp [flushing]) _
  · exact failed_inv inv (by simp [settling]) _

theorem broken_inv (inv : Inv w s) (done : broken s = some t) : Inv w t := by
  obtain ⟨receiving, ⟨⟩⟩ := ite_none_right_eq_some.mp done
  exact failed_inv inv (by simp [receiving]) _

theorem finished_inv (inv : Inv w s)
    (taken : ∀ fs, removed = some fs → fs = s.batch.take fs.length ∧
      fs.length ≤ s.requests.length ∧ ∃ n, s.server = .answered n ∧ fs.length ≤ n)
    (sidelined : ∀ fr, quarantined = some fr → w.frameToRequest fr = .error .malformed) :
    Inv w { s with store := store, drain := .finished, removed := removed, quarantined := quarantined } :=
  { inv with peeked := by simp, idle := by simp, removed := taken, quarantined := sidelined }

theorem frameRequestsPrefix_malformed {head : Bytes}
    (empty : (frameRequestsPrefix w (head :: rest)).1 = [])
    (bad : (frameRequestsPrefix w (head :: rest)).2 = some .malformed) :
    w.frameToRequest head = .error .malformed := by
  unfold frameRequestsPrefix at empty bad
  split at bad
  case h_1 e failed => simpa [failed] using bad
  case h_2 req converted => simp [converted] at empty

theorem frameRequestsPrefix_converts {frames : List Bytes}
    (at_i : (frameRequestsPrefix w frames).1[i]? = some payload) :
    ∃ fr, frames[i]? = some fr ∧ w.frameToRequest fr = .ok payload := by
  induction frames generalizing i with
  | nil => simp [frameRequestsPrefix] at at_i
  | cons fr rest ih =>
    unfold frameRequestsPrefix at at_i
    cases converted : w.frameToRequest fr with
    | error e => simp [converted] at at_i
    | ok req =>
      simp only [converted] at at_i
      cases i with
      | zero => exact ⟨fr, rfl, by simpa [converted] using at_i⟩
      | succ i => exact ih at_i

theorem begin_inv (maxRecords maxBytes : Int) (peek quarantine : Agent.Faults)
    (refused : Bool) (inv : Inv w s) (idle : s.drain = .idle) :
    Inv w (begin w s maxRecords maxBytes peek quarantine refused) := by
  have finished : ∀ store quarantined,
      (∀ fr, quarantined = some fr → w.frameToRequest fr = .error .malformed) →
      Inv w { s with store := store, drain := .finished, quarantined := quarantined } :=
    fun store quarantined sidelined => finished_inv inv inv.removed sidelined
  have unchanged : Inv w { s with drain := .finished } := finished s.store s.quarantined inv.quarantined
  obtain ⟨zero, closed⟩ := inv.idle idle
  unfold begin
  dsimp only
  split
  case h_1 => exact unchanged
  case h_2 => exact unchanged
  case h_3 head rest peeked =>
    have front := peekBatch_front peeked
    split
    case isTrue poison =>
      split
      case h_1 store e _ => exact finished store s.quarantined inv.quarantined
      case h_2 store n _ =>
        refine finished store _ fun fr at_head => ?_
        obtain ⟨behind, whole⟩ := front
        rw [← whole] at at_head
        cases at_head
        exact frameRequestsPrefix_malformed poison.1 poison.2
    case isFalse =>
      split
      case isTrue => exact unchanged
      case isFalse =>
        refine ⟨fun i payload => frameRequestsPrefix_converts, fun _ => front, by simp, fun i => ?_, by simp,
          by simp [waited], by simp, by simp [inv.not_removed (by simp [closed])], inv.quarantined⟩
        have old := inv.counted i
        simp only [zero] at old ⊢
        exact old

theorem requests_shorter (inv : Inv w s) : s.requests.length ≤ s.batch.length := by
  by_contra longer
  have last : s.batch.length < s.requests.length := Nat.lt_of_not_le longer
  obtain ⟨fr, at_fr, _⟩ := inv.converted s.batch.length _ (getElem?_eq_getElem last)
  simp at at_fr

theorem remove_inv (inv : Inv w s) (done : remove s faults = some t) : Inv w t := by
  unfold remove at done
  split at done
  case h_2 => cases done
  case h_1 n streaming answered =>
    dsimp only at done
    split at done
    case h_2 =>
      cases done
      exact finished_inv inv inv.removed inv.quarantined
    case h_1 =>
      cases done
      refine finished_inv inv (fun fs taken => ?_) inv.quarantined
      cases taken
      obtain ⟨behind, whole⟩ := inv.peeked streaming
      have fits : min n s.requests.length ≤ s.batch.length :=
        (min_le_right _ _).trans (requests_shorter inv)
      have front : (frames s.store.disk.log).take (min n s.requests.length) =
          s.batch.take (min n s.requests.length) := by
        rw [← whole, take_append_of_le_length fits]
      have length : (s.batch.take (min n s.requests.length)).length = min n s.requests.length :=
        length_take_of_le fits
      rw [front, length]
      exact ⟨rfl, min_le_right _ _, n, answered, min_le_left _ _⟩

theorem enqueue_inv (p : Bytes) (faults : Agent.Faults) (inv : Inv w s) :
    Inv w { s with store := (enqueue s.store p faults).1 } :=
  { inv with peeked := fun streaming => (inv.peeked streaming).trans (enqueue_keeps_frames s.store p faults) }

theorem step_inv (w : Wire) (id : Identity) (s : Session) (a : Label) (t : Session) (inv : Inv w s)
    (stepped : step w id s a = some t) : Inv w t := by
  cases a with
  | enqueue p faults => exact some.inj stepped ▸ enqueue_inv p faults inv
  | foreign msg answer =>
    cases stepped
    have taken := produce_client s.bus ⟨none, msg⟩ answer
    exact bus_inv inv (taken (own 0)).1 (fun i => by exact (taken (own i)).2.1)
      (fun i => by exact (taken (own i)).2.2)
  | complete i err =>
    obtain ⟨bus, rfl, wired, completed⟩ := complete_client stepped
    exact bus_inv inv wired (fun j => (complete_count completed (own j)).1)
      (fun j => (complete_count completed (own j)).2)
  | account i =>
    obtain ⟨bus, rfl, wired, client⟩ := account_client stepped
    exact bus_inv inv wired (fun j => by rw [client]) (fun j => by rw [client])
  | begin maxRecords maxBytes peek quarantine refused =>
    simp only [step, ite_none_right_eq_some] at stepped
    obtain ⟨idle, same⟩ := stepped
    exact some.inj same ▸ begin_inv maxRecords maxBytes peek quarantine refused inv idle
  | recv fenceErr route ctxErr ensure => exact recv_inv inv stepped
  | produce answer => exact produceOwn_inv inv stepped
  | eof => exact eof_inv inv stepped
  | flushed => exact flushed_inv inv stepped
  | settled => exact settled_inv inv stepped
  | flushErr => exact flushErr_inv inv stepped
  | broken => exact broken_inv inv stepped
  | remove faults => exact remove_inv inv stepped
  | abandon =>
    simp only [step, ite_none_right_eq_some] at stepped
    obtain ⟨_, same⟩ := stepped
    exact some.inj same ▸ finished_inv inv inv.removed inv.quarantined

end Probectl.Transport
