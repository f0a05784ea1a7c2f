import Probectl.Lib.Run
import Probectl.Agent.BufferSpec

/-! Whole runs of the store-and-forward queue without a failing file operation.
The abstract queue is what the callers were told: payloads whose `Enqueue`
returned nil, less the prefixes `Remove`, `Drain` and `QuarantineHead` took. -/
namespace Probectl.Agent

open List Run Framing

inductive Op where
  | reopen (maxRecords maxBytes : Int)
  | enqueue (payload : Bytes)
  | peekBatch (maxRecords maxBytes : Int)
  | remove (n : Int)
  | quarantineHead
  | drain (stop : Nat → Option String) (during : List Bytes)

structure Tracked where
  store : Store
  queue : List Bytes

def accepted : List Bytes → List (Option BufferError) → List Bytes
  | p :: ps, none :: es => p :: accepted ps es
  | _ :: ps, some _ :: es => accepted ps es
  | _, _ => []

def step (t : Tracked) : Op → Option Tracked
  | .reopen maxRecords maxBytes =>
    match (openBufferWithBytes t.store.disk maxRecords maxBytes {}).2 with
    | .ok s => some ⟨s, t.queue⟩
    | .error _ => none
  | .enqueue p =>
    let (s, err) := enqueue t.store p {}
    some ⟨s, t.queue ++ accepted [p] [err]⟩
  | .peekBatch _ _ => some t
  | .remove n =>
    let (s, out) := remove t.store n {}
    some ⟨s, if out = .returned none then t.queue.drop n.toNat else t.queue⟩
  | .quarantineHead =>
    let (s, out) := quarantineHead t.store {}
    some ⟨s, if out.isOk then t.queue.drop 1 else t.queue⟩
  | .drain stop during =>
    let r := drain t.store stop during {} {}
    some ⟨r.store, (t.queue ++ accepted during r.enqueued).drop r.sent⟩

theorem step_enqueue (t : Tracked) (p : Bytes) :
    step t (.enqueue p) =
      some ⟨(enqueue t.store p {}).1, t.queue ++ accepted [p] [(enqueue t.store p {}).2]⟩ := rfl

theorem step_remove (t : Tracked) (n : Int) :
    step t (.remove n) =
      some ⟨(remove t.store n {}).1,
        if (remove t.store n {}).2 = .returned none then t.queue.drop n.toNat else t.queue⟩ := rfl

theorem step_quarantineHead (t : Tracked) :
    step t .quarantineHead =
      some ⟨(quarantineHead t.store {}).1,
        if (quarantineHead t.store {}).2.isOk then t.queue.drop 1 else t.queue⟩ := rfl

def fresh (maxRecords maxBytes : Int) : Tracked :=
  match (openBufferWithBytes .empty maxRecords maxBytes {}).2 with
  | .ok s => ⟨s, []⟩
  | .error _ => ⟨⟨.empty, ⟨0, 0, true, 0, 0, 0, 0⟩⟩, []⟩

def Faithful (t : Tracked) : Prop :=
  frames t.store.disk.log = t.queue ∧
  t.store.buf.count = t.queue.length ∧
  t.store.buf.bytes = encodedSize t.queue

structure Intact (t : Tracked) : Prop where
  log : t.store.disk.log = some (encode be32 t.queue)
  small : ∀ p ∈ t.queue, p.length ≤ maxFrameLen
  count : t.store.buf.count = t.queue.length
  bytes : t.store.buf.bytes = encodedSize t.queue

variable {t : Tracked}

theorem Intact.frames (h : Intact t) : frames t.store.disk.log = t.queue := by
  rw [frames_framing, h.log]
  exact readAll_encode_nil be32 maxFrameLen cap_fits t.queue h.small

theorem Intact.faithful (h : Intact t) : Faithful t :=
  ⟨h.frames, h.count, h.bytes⟩

def AcceptsSmall (s : Store) : List Bytes → Prop
  | [] => True
  | p :: ps => (atCapacity s.buf p = false → p.length ≤ maxFrameLen) ∧
    AcceptsSmall (enqueue s p {}).1 ps

def SmallPayloads (t : Tracked) : Op → Prop
  | .enqueue p => AcceptsSmall t.store [p]
  | .drain _ during => AcceptsSmall t.store during
  | _ => True

variable (s : Store) (p : Bytes) (q ps : List Bytes) (es : List (Option BufferError))

@[simp] theorem accepted_cons_none : accepted (p :: ps) (none :: es) = p :: accepted ps es := rfl

theorem accepted_cons_some (e : BufferError) (es : List (Option BufferError)) :
    accepted (p :: ps) (some e :: es) = accepted ps es := rfl

@[simp] theorem accepted_nil : accepted [] es = [] := by
  cases es <;> rfl

theorem enqueue_result : (enqueue s p {}).2 = if atCapacity s.buf p then some .full else none := by
  cases full : atCapacity s.buf p with
  | true => simp [enqueue_full s p full]
  | false => simp [enqueue_ok s p full]

theorem rewrite_intact (small : ∀ p ∈ ps, p.length ≤ maxFrameLen) : Intact ⟨(rewriteLocked s ps none).1, ps⟩ := by
  rw [rewriteLocked_ok]
  exact ⟨rfl, small, rfl, rfl⟩

theorem enqueue_intact (p : Bytes) (intact : Intact ⟨s, q⟩)
    (small : atCapacity s.buf p = false → p.length ≤ maxFrameLen) :
    Intact ⟨(enqueue s p {}).1, q ++ accepted [p] [(enqueue s p {}).2]⟩ := by
  cases full : atCapacity s.buf p with
  | true =>
    rw [enqueue_full s p full, accepted_cons_some, accepted_nil, append_nil]
    exact ⟨intact.log, intact.small, intact.count, intact.bytes⟩
  | false =>
    rw [enqueue_ok s p full]
    have log := intact.log
    have count := intact.count
    have bytes := intact.bytes
    dsimp only at log count bytes
    refine ⟨?_, ?_, ?_, ?_⟩
    · simp [log, encode_singleton]
    · intro r hr
      rcases mem_append.mp hr with hr | hr
      · exact intact.small r hr
      · have same : r = p := by simpa using hr
        exact same ▸ small full
    · simp [count]
    · simp [bytes, encodedSize]

theorem enqueueAll_intact (intact : Intact ⟨s, q⟩) (small : AcceptsSmall s ps) :
    Intact ⟨(enqueueAll s ps).1, q ++ accepted ps (enqueueAll s ps).2⟩ := by
  induction ps generalizing s q with
  | nil => simpa [enqueueAll] using intact
  | cons p ps ih =>
    have next := enqueue_intact s q p intact small.1
    have rest := ih (enqueue s p {}).1 _ next small.2
    simp only [enqueueAll]
    rw [enqueue_result] at rest ⊢
    cases full : atCapacity s.buf p <;> simpa [full, accepted_cons_some] using rest

theorem acceptsSmall_of_accepted (small : ∀ p ∈ accepted ps (enqueueAll s ps).2, p.length ≤ maxFrameLen) :
    AcceptsSmall s ps := by
  induction ps generalizing s with
  | nil => trivial
  | cons p ps ih =>
    simp only [enqueueAll] at small
    rw [enqueue_result] at small
    cases full : atCapacity s.buf p with
    | true =>
      simp only [full] at small
      exact ⟨by simp [full], ih _ small⟩
    | false =>
      simp only [full, Bool.false_eq_true, if_false, accepted_cons_none, mem_cons,
        forall_eq_or_imp] at small
      exact ⟨fun _ => small.1, ih _ small.2⟩

theorem drain_ok (stop : Nat → Option String) (during : List Bytes) : (drain s stop during {} {}).store =
      (rewriteLocked (enqueueAll s during).1
        ((frames (enqueueAll s during).1.disk.log).drop (drain s stop during {} {}).sent) none).1 ∧
    (drain s stop during {} {}).enqueued = (enqueueAll s during).2 ∧
    (drain s stop during {} {}).sent ≤ (frames s.disk.log).length := by
  have bound := sendLoop_bounds stop (frames s.disk.log) 0
  simp only [drain, readAll, Bool.false_eq_true, if_false, rewriteLocked_ok, true_and]
  split <;> omega

theorem quarantineHead_ok :
    (∃ n, (quarantineHead s {}).2 = .ok n) ∧
    (frames s.disk.log = [] → (quarantineHead s {}).1 = s) ∧
    (∀ q, frames s.disk.log = q → (∀ p ∈ q, p.length ≤ maxFrameLen) → q ≠ [] →
      Intact ⟨(quarantineHead s {}).1, q.drop 1⟩) := by
  simp only [quarantineHead, readAll]
  cases h : frames s.disk.log with
  | nil =>
    refine ⟨⟨0, rfl⟩, fun _ => rfl, ?_⟩
    rintro q rfl _ nonempty
    exact absurd rfl nonempty
  | cons head rest =>
    refine ⟨?_, by simp, ?_⟩
    · simp [appendFrame, writeFrame, rewriteLocked_ok]
    · rintro q rfl small _
      simp only [appendFrame, writeFrame, rewriteLocked_ok]
      exact ⟨by simp, fun p hp => small p (mem_of_mem_drop hp), by simp, by simp⟩

theorem step_intact (t : Tracked) (op : Op) (u : Tracked) (intact : Intact t) (small : SmallPayloads t op)
    (stepped : step t op = some u) : Intact u := by
  have readable := intact.frames
  -- a rewrite keeps what it can read, and the invariant says that this is all
  cases op with
  | reopen maxRecords maxBytes =>
    obtain ⟨b, opened, count, bytes⟩ := openBufferWithBytes_ok t.store.disk maxRecords maxBytes
    simp only [step, opened] at stepped
    cases stepped
    rw [readable] at count bytes
    exact ⟨by simp [readable], intact.small, count, bytes⟩
  | enqueue p =>
    cases stepped
    exact enqueue_intact t.store t.queue p intact small.1
  | peekBatch =>
    cases stepped
    exact intact
  | remove n =>
    rw [step_remove] at stepped
    cases stepped
    by_cases nonneg : 0 ≤ n
    · rw [remove_ok t.store n nonneg, readable]
      exact rewrite_intact _ _ (fun p hp => intact.small p (mem_of_mem_drop hp))
    · rw [remove_negative t.store n (by omega)]
      exact intact
  | quarantineHead =>
    rw [step_quarantineHead] at stepped
    cases stepped
    obtain ⟨⟨n, returned⟩, empty, head⟩ := quarantineHead_ok t.store
    have ok : (quarantineHead t.store {}).2.isOk = true := by rw [returned]; rfl
    rw [if_pos ok]
    by_cases nil : t.queue = []
    · rw [empty (readable.trans nil), nil, drop_nil, ← nil]
      exact intact
    · exact head t.queue readable intact.small nil
  | drain stop during =>
    cases stepped
    obtain ⟨store, enqueued, _⟩ := drain_ok t.store stop during
    have all := enqueueAll_intact t.store t.queue during intact small
    rw [store, enqueued, all.frames]
    exact rewrite_intact _ _ (fun p hp => all.small p (mem_of_mem_drop hp))

theorem fresh_intact (maxRecords maxBytes : Int) : Intact (fresh maxRecords maxBytes) := by
  obtain ⟨b, opened, count, bytes⟩ := openBufferWithBytes_ok .empty maxRecords maxBytes
  simp only [fresh, opened]
  exact ⟨rfl, by simp, count, bytes⟩

theorem faithful_forces_small (t : Tracked) (op : Op) (u : Tracked) (before : Faithful t)
    (stepped : step t op = some u) (after : Faithful u) : SmallPayloads t op := by
  have readable : ∀ p ∈ u.queue, p.length ≤ maxFrameLen := by
    intro p hp
    exact frames_small u.store.disk.log p (after.1 ▸ hp)
  cases op with
  | enqueue p =>
    rw [step_enqueue] at stepped
    cases stepped
    refine ⟨fun room => ?_, trivial⟩
    apply readable
    simp [enqueue_result, room]
  | drain stop during =>
    cases stepped
    obtain ⟨_, enqueued, sent⟩ := drain_ok t.store stop during
    apply acceptsSmall_of_accepted
    intro p hp
    apply readable
    rw [enqueued, drop_append_of_le_length (by rw [← before.1]; exact sent)]
    exact mem_append_right _ hp
  | reopen | peekBatch | remove | quarantineHead => trivial

/-- The queue is a lossless FIFO in every state of a run exactly when no call of
the run gets a payload accepted that is longer than the reader honours. -/
theorem fifo_iff_small_payloads (maxRecords maxBytes : Int) (ops : List Op) :
    Visits step Faithful (fresh maxRecords maxBytes) ops ↔
      Along step SmallPayloads (fresh maxRecords maxBytes) ops := by
  constructor
  · exact along_of_visits faithful_forces_small
  · intro along pre post split t ran
    exact (visits_of_along step_intact (fresh_intact maxRecords maxBytes)
      along pre post split t ran).faithful

theorem fresh_room (large : p.length = maxFrameLen + 1) : atCapacity (fresh 0 0).store.buf p = false := by
  rw [atCapacity, frameSize, large]
  decide

theorem large_payload_lost (large : p.length = maxFrameLen + 1) :
    ¬ Visits step Faithful (fresh 0 0) [.enqueue p] := by
  intro visits
  obtain ⟨small, _⟩ := (along_of_visits faithful_forces_small visits _ (step_enqueue _ p)).1
  have bound := small (fresh_room p large)
  omega

/-- One byte over 8 MiB under the default caps: `Enqueue` returns nil and the
file yields nothing. -/
theorem fifo_loses_large_payload :
    ¬ Visits step Faithful (fresh 0 0) [.enqueue (replicate (maxFrameLen + 1) 0)] :=
  large_payload_lost _ length_replicate

end Probectl.Agent
