import Probectl.Agent.BufferRuns

/-! What a failed `Enqueue` leaves behind. The append has no rollback: the bytes
that reached the file stay, and every later frame is read from behind them. -/
namespace Probectl.Agent

open List Framing

def written (p : Bytes) : AppendFault → Bytes
  | .openFile => []
  | .write (.header k) => (putUint32 p.length).take k
  | .write (.payload k) => putUint32 p.length ++ p.take k
  | .sync => putUint32 p.length ++ p

theorem enqueue_failed (s : Store) (p : Bytes) (fault : AppendFault) (e : BufferError)
    (room : atCapacity s.buf p = false)
    (failed : (enqueue s p { append := some fault }).2 = some e) :
    (enqueue s p { append := some fault }).1.buf = s.buf ∧
    (enqueue s p { append := some fault }).1.disk.log.getD [] =
      s.disk.log.getD [] ++ written p fault := by
  match fault with
  | .openFile => simp [enqueue, room, appendFrame, written]
  | .write (.header k) => simp [enqueue, room, appendFrame, writeFrame, written]
  | .write (.payload k) => simp [enqueue, room, appendFrame, writeFrame, written]
  | .sync =>
    cases sync : s.buf.fsync with
    | true => simp [enqueue, room, appendFrame, writeFrame, written, sync]
    | false => simp [enqueue, room, appendFrame, writeFrame, sync] at failed

theorem enqueueAll_log (s : Store) (ps : List Bytes) :
    (enqueueAll s ps).1.disk.log.getD [] =
      s.disk.log.getD [] ++ encode be32 (accepted ps (enqueueAll s ps).2) := by
  induction ps generalizing s with
  | nil => simp [enqueueAll, encode]
  | cons p ps ih =>
    have rest := ih (enqueue s p {}).1
    simp only [enqueueAll]
    cases full : atCapacity s.buf p with
    | true =>
      rw [enqueue_full s p full] at rest ⊢
      exact rest
    | false =>
      rw [enqueue_ok s p full] at rest ⊢
      simpa [encode] using rest

def Returned (before after : Store) (later : List Bytes) : Prop :=
  frames (enqueueAll after later).1.disk.log =
    frames before.disk.log ++ accepted later (enqueueAll after later).2 ∧
  ∀ m n, peekBatch (enqueueAll after later).1 m n {} =
    .ok (batch m n (frames before.disk.log ++ accepted later (enqueueAll after later).2) [] 0)

/-- The queue is intact after the failed call: same frames, right count, and
every admitted sequence of later payloads is returned in order. -/
def Survives (admitted : List Bytes → Prop) (before after : Store) : Prop :=
  frames after.disk.log = frames before.disk.log ∧
  after.buf.count = (frames after.disk.log).length ∧
  ∀ later, admitted later → Returned before after later

def NoRoom (b : Buffer) (n : Nat) : Prop :=
  0 < b.maxBytes ∧ b.maxBytes < (b.bytes : Int) + (frameOverhead + n : Nat)

theorem room_iff (b : Buffer) (p : Bytes) :
    atCapacity b p = false ↔ (b.count : Int) < b.maxRecords ∧ ¬ NoRoom b p.length := by
  simp only [atCapacity, frameSize, Bool.or_eq_false_iff, Bool.and_eq_false_imp,
    decide_eq_false_iff_not, decide_eq_true_eq]
  constructor
  · rintro ⟨records, bytes⟩
    exact ⟨by omega, fun h => of_decide_eq_false (bytes h.1) h.2⟩
  · rintro ⟨records, bytes⟩
    exact ⟨by omega, fun positive => decide_eq_false (fun past => bytes ⟨positive, past⟩)⟩

theorem noRoom_mono (le : m ≤ n) (h : NoRoom b m) : NoRoom b n := by
  unfold NoRoom at h ⊢
  omega

section Behind

variable (before after : Store) (rest : Bytes)
  (log : after.disk.log.getD [] = before.disk.log.getD [] ++ rest)

include log

theorem frames_behind :
    frames after.disk.log = frames before.disk.log ++
      Framing.readAll be32 maxFrameLen (tornTail before.disk.log ++ rest) := by
  rw [frames_framing, log, ← frames_append, frames_framing]
  rfl

theorem frames_later (later : List Bytes) :
    frames (enqueueAll after later).1.disk.log = frames before.disk.log ++
      Framing.readAll be32 maxFrameLen (tornTail before.disk.log ++ rest ++
        encode be32 (accepted later (enqueueAll after later).2)) := by
  rw [frames_framing, enqueueAll_log, log, append_assoc, append_assoc, ← frames_append,
    frames_framing]
  rfl

theorem returned_iff (later : List Bytes) :
    Returned before after later ↔
      Framing.readAll be32 maxFrameLen (tornTail before.disk.log ++ rest ++
        encode be32 (accepted later (enqueueAll after later).2)) =
      accepted later (enqueueAll after later).2 := by
  unfold Returned
  rw [frames_later before after rest log later, append_right_inj]
  constructor
  · exact fun h => h.1
  · intro h
    refine ⟨h, fun m n => ?_⟩
    rw [peekBatch_frames, frames_later before after rest log later, h]

end Behind

theorem torn_misreads (torn : x ≠ []) (refused : Framing.readAll be32 maxFrameLen x = []) :
    Framing.readAll be32 maxFrameLen (x ++ Framing.frame be32 [1]) ≠ [[1]] := by
  intro read
  have one : Framing.frame be32 [1] = [0, 0, 0, 1, 1] := by decide
  obtain ⟨short, t, same⟩ := front_of_read be32 maxFrameLen cap_fits (by decide) refused read
  rw [one] at short same
  match x, torn with
  | [a], _ => simp at same
  | [a, b], _ => simp at same
  | [a, b, c], _ => simp at same
  | [a, b, c, d], _ => simp at same
  | a :: b :: c :: d :: e :: x, _ =>
    simp only [length_cons, length_nil] at short
    omega

theorem zeros_iff (x : Bytes) :
    (Framing.readAll be32 maxFrameLen x = [] ∧
      Framing.readAll be32 maxFrameLen (x ++ Framing.frame be32 []) = [[]]) ↔
      ∃ j, j < 4 ∧ x = replicate j 0 := by
  have empty : Framing.frame be32 [] = [0, 0, 0, 0] := by decide
  constructor
  · rintro ⟨refused, read⟩
    obtain ⟨short, t, same⟩ := front_of_read be32 maxFrameLen cap_fits (by decide) refused read
    rw [empty] at short same
    match x with
    | [] => exact ⟨0, by omega, rfl⟩
    | [a] =>
      obtain ⟨rfl, -⟩ : 0 = a ∧ _ := by simpa using same
      exact ⟨1, by omega, rfl⟩
    | [a, b] =>
      obtain ⟨rfl, rfl, -⟩ : 0 = a ∧ 0 = b ∧ _ := by simpa using same
      exact ⟨2, by omega, rfl⟩
    | [a, b, c] =>
      obtain ⟨rfl, rfl, rfl, -⟩ : 0 = a ∧ 0 = b ∧ 0 = c ∧ _ := by simpa using same
      exact ⟨3, by omega, rfl⟩
    | a :: b :: c :: d :: x =>
      simp only [length_cons, length_nil] at short
      omega
  · rintro ⟨j, small, rfl⟩
    have cases : j = 0 ∨ j = 1 ∨ j = 2 ∨ j = 3 := by omega
    rcases cases with rfl | rfl | rfl | rfl <;> decide

theorem enqueue_noRoom (s : Store) (p : Bytes) (n : Nat) (h : NoRoom s.buf n) :
    NoRoom (enqueue s p {}).1.buf n := by
  cases full : atCapacity s.buf p with
  | true => rw [enqueue_full s p full]; exact h
  | false =>
    rw [enqueue_ok s p full]
    change 0 < s.buf.maxBytes ∧ s.buf.maxBytes <
      ((s.buf.bytes + frameSize p) : Int) + (frameOverhead + n)
    unfold NoRoom at h
    omega

theorem acceptsSmall_of_noRoom (s : Store) (ps : List Bytes)
    (h : NoRoom s.buf (maxFrameLen + 1)) : AcceptsSmall s ps := by
  induction ps generalizing s with
  | nil => trivial
  | cons p ps ih =>
    refine ⟨fun room => ?_, ih _ (enqueue_noRoom s p _ h)⟩
    have fits := ((room_iff s.buf p).mp room).2
    apply Nat.le_of_not_lt
    intro large
    exact fits (noRoom_mono large h)

theorem accepted_small (s : Store) (ps : List Bytes) (small : AcceptsSmall s ps) :
    ∀ p ∈ accepted ps (enqueueAll s ps).2, p.length ≤ maxFrameLen := by
  induction ps generalizing s with
  | nil => simp
  | cons p ps ih =>
    have rest := ih _ small.2
    simp only [enqueueAll]
    rw [enqueue_result]
    cases full : atCapacity s.buf p with
    | true => exact rest
    | false =>
      simp only [Bool.false_eq_true, if_false, accepted_cons_none, mem_cons,
        forall_eq_or_imp]
      exact ⟨small.1 full, rest⟩

theorem accepted_none (s : Store) (ps : List Bytes) (full : NoRoom s.buf 0) :
    accepted ps (enqueueAll s ps).2 = [] := by
  induction ps generalizing s with
  | nil => simp
  | cons p ps ih =>
    have refused : atCapacity s.buf p = true := by
      by_contra room
      exact ((room_iff s.buf p).mp (by simpa using room)).2 (noRoom_mono (Nat.zero_le _) full)
    simp only [enqueueAll]
    rw [enqueue_result, refused]
    exact ih _ (enqueue_noRoom s p 0 full)

theorem accepted_tight (s : Store) (ps : List Bytes) (tight : NoRoom s.buf 1) :
    accepted ps (enqueueAll s ps).2 = [] ∨ accepted ps (enqueueAll s ps).2 = [[]] := by
  induction ps generalizing s with
  | nil => simp
  | cons p ps ih =>
    simp only [enqueueAll]
    rw [enqueue_result]
    cases full : atCapacity s.buf p with
    | true => exact ih _ (enqueue_noRoom s p 1 tight)
    | false =>
      have fits := ((room_iff s.buf p).mp full).2
      have short : p.length = 0 := by
        by_contra long
        exact fits (noRoom_mono (by omega) tight)
      have after : NoRoom (enqueue s p {}).1.buf 0 := by
        rw [enqueue_ok s p full]
        change 0 < s.buf.maxBytes ∧ s.buf.maxBytes <
          ((s.buf.bytes + frameSize p) : Int) + (frameOverhead + 0)
        have overhead : 1 ≤ frameOverhead := by decide
        unfold NoRoom at tight
        unfold frameSize
        omega
      right
      simp only [Bool.false_eq_true, if_false, accepted_cons_none, accepted_none _ ps after]
      rw [eq_nil_of_length_eq_zero short]

/-- The state before the call and the bytes it wrote leave nothing to misread:
the log ends on a frame boundary and nothing was written, or all that stands
behind it is at most three zero bytes and only an empty payload can follow. -/
def Undamaged (s : Store) (p : Bytes) (fault : AppendFault) : Prop :=
  tornTail s.disk.log ++ written p fault = [] ∨
  (NoRoom s.buf 1 ∧ ∃ j, j < 4 ∧ tornTail s.disk.log ++ written p fault = replicate j 0)

section Failed

variable (s : Store) (p : Bytes) (fault : AppendFault) (e : BufferError)
  (room : atCapacity s.buf p = false)
  (failed : (enqueue s p { append := some fault }).2 = some e)

include room failed

theorem undamaged_returns (undamaged : Undamaged s p fault) (later : List Bytes)
    (small : AcceptsSmall (enqueue s p { append := some fault }).1 later) :
    Returned s (enqueue s p { append := some fault }).1 later := by
  obtain ⟨buf, log⟩ := enqueue_failed s p fault e room failed
  rw [returned_iff s _ _ log later]
  rcases undamaged with clean | ⟨tight, zeros⟩
  · rw [clean]
    exact readAll_encode_nil be32 maxFrameLen cap_fits _ (accepted_small _ later small)
  have read := (zeros_iff _).mpr zeros
  rcases accepted_tight _ later (buf ▸ tight) with none | one
  · rw [none, Framing.encode, append_nil]
    exact read.1
  · rw [one]
    exact read.2

theorem survives_undamaged (admitted : List Bytes → Prop)
    (one : admitted [[1]]) (none : admitted [[]])
    (survives : Survives admitted s (enqueue s p { append := some fault }).1) :
    Undamaged s p fault := by
  obtain ⟨buf, log⟩ := enqueue_failed s p fault e room failed
  have kept := survives.1
  rw [frames_behind s _ _ log] at kept
  have same := append_cancel_left (kept.trans (append_nil _).symm)
  by_cases clean : tornTail s.disk.log ++ written p fault = []
  · exact Or.inl clean
  have accept : ∀ q, atCapacity s.buf q = false →
      Returned s (enqueue s p { append := some fault }).1 [q] →
      Framing.readAll be32 maxFrameLen (tornTail s.disk.log ++ written p fault ++
        Framing.frame be32 q) = [q] := by
    intro q fits returned
    have read := (returned_iff s _ _ log [q]).mp returned
    simpa [enqueueAll, enqueue_result, buf, fits, encode_singleton] using read
  -- a payload of one byte that still fits would be misread
  have tight : NoRoom s.buf 1 := by
    by_contra roomy
    have fits : atCapacity s.buf [1] = false :=
      (room_iff s.buf [1]).mpr ⟨((room_iff s.buf p).mp room).1, roomy⟩
    exact torn_misreads clean same (accept [1] fits (survives.2.2 [[1]] one))
  have fits : atCapacity s.buf [] = false := by
    refine (room_iff s.buf []).mpr ⟨((room_iff s.buf p).mp room).1, fun full => ?_⟩
    exact ((room_iff s.buf p).mp room).2 (noRoom_mono (Nat.zero_le _) full)
  exact Or.inr ⟨tight, (zeros_iff _).mp ⟨same, accept [] fits (survives.2.2 [[]] none)⟩⟩

theorem undamaged_frames (undamaged : Undamaged s p fault) :
    frames (enqueue s p { append := some fault }).1.disk.log = frames s.disk.log := by
  obtain ⟨buf, log⟩ := enqueue_failed s p fault e room failed
  rw [frames_behind s _ _ log]
  have read : Framing.readAll be32 maxFrameLen (tornTail s.disk.log ++ written p fault) = [] := by
    rcases undamaged with clean | ⟨_, zeros⟩
    · rw [clean]; rfl
    · exact ((zeros_iff _).mpr zeros).1
  rw [read, append_nil]

theorem survives_of_undamaged (admitted : List Bytes → Prop)
    (small : ∀ later, admitted later → AcceptsSmall (enqueue s p { append := some fault }).1 later)
    (count : s.buf.count = (frames s.disk.log).length) (undamaged : Undamaged s p fault) :
    Survives admitted s (enqueue s p { append := some fault }).1 := by
  have same := undamaged_frames s p fault e room failed undamaged
  refine ⟨same, ?_, fun later allowed => ?_⟩
  · rw [same, (enqueue_failed s p fault e room failed).1, count]
  · exact undamaged_returns s p fault e room failed undamaged later (small later allowed)

theorem survives_noRoom (survives : Survives (fun _ => True) s (enqueue s p { append := some fault }).1) :
    NoRoom s.buf (maxFrameLen + 1) := by
  have buf := (enqueue_failed s p fault e room failed).1
  by_contra roomy
  obtain ⟨q, large⟩ : ∃ q : Bytes, q.length = maxFrameLen + 1 :=
    ⟨replicate (maxFrameLen + 1) 0, length_replicate⟩
  have fits : atCapacity s.buf q = false :=
    (room_iff s.buf q).mpr ⟨((room_iff s.buf p).mp room).1, large ▸ roomy⟩
  have member : q ∈ frames (enqueueAll (enqueue s p { append := some fault }).1 [q]).1.disk.log := by
    rw [(survives.2.2 [q] trivial).1]
    simp [enqueueAll, enqueue_result, buf, fits]
  have bound := frames_small _ q member
  omega

theorem survives_count
    (survives : Survives admitted s (enqueue s p { append := some fault }).1) :
    s.buf.count = (frames s.disk.log).length := by
  rw [← survives.1, ← survives.2.1, (enqueue_failed s p fault e room failed).1]

end Failed

/-- A failed `Enqueue` leaves the queue intact exactly when the count was right
and nothing torn stands at the end of the log. For later payloads past the frame
cap, which are lost with or without the failure, the byte cap must also refuse
them. -/
theorem failed_enqueue_survives_iff (s : Store) (p : Bytes) (fault : AppendFault) (e : BufferError)
    (room : atCapacity s.buf p = false)
    (failed : (enqueue s p { append := some fault }).2 = some e) :
    (Survives (fun _ => True) s (enqueue s p { append := some fault }).1 ↔
      s.buf.count = (frames s.disk.log).length ∧ Undamaged s p fault ∧
        NoRoom s.buf (maxFrameLen + 1)) ∧
    (Survives (AcceptsSmall (enqueue s p { append := some fault }).1) s
        (enqueue s p { append := some fault }).1 ↔
      s.buf.count = (frames s.disk.log).length ∧ Undamaged s p fault) := by
  obtain ⟨buf, log⟩ := enqueue_failed s p fault e room failed
  have tiny : ∀ q, q.length ≤ 1 →
      AcceptsSmall (enqueue s p { append := some fault }).1 [q] := by
    intro q short
    refine ⟨fun _ => ?_, trivial⟩
    have cap : 1 ≤ maxFrameLen := by decide
    omega
  constructor
  · constructor
    · intro survives
      exact ⟨survives_count s p fault e room failed survives,
        survives_undamaged s p fault e room failed _ trivial trivial survives,
        survives_noRoom s p fault e room failed survives⟩
    · rintro ⟨count, undamaged, tight⟩
      exact survives_of_undamaged s p fault e room failed _
        (fun later _ => acceptsSmall_of_noRoom _ later (buf ▸ tight)) count undamaged
  · constructor
    · intro survives
      exact ⟨survives_count s p fault e room failed survives,
        survives_undamaged s p fault e room failed _ (tiny [1] (by simp)) (tiny [] (by simp)) survives⟩
    · rintro ⟨count, undamaged⟩
      exact survives_of_undamaged s p fault e room failed _ (fun _ small => small) count undamaged

theorem failed_open_survives :
    Survives (AcceptsSmall (enqueue (fresh 0 0).store [7] { append := some .openFile }).1)
      (fresh 0 0).store (enqueue (fresh 0 0).store [7] { append := some .openFile }).1 :=
  (failed_enqueue_survives_iff (fresh 0 0).store [7] .openFile .openLog (by decide) (by decide)).2.mpr
    ⟨by decide, Or.inl (by decide)⟩

/-- One header byte reaches the file: the next payload is accepted and read back
as an empty frame. -/
theorem torn_header_loses_next :
    (enqueue (fresh 0 0).store [7] { append := some (.write (.header 1)) }).2 = some .writeHeader ∧
    ¬ Survives (fun _ => True) (fresh 0 0).store
      (enqueue (fresh 0 0).store [7] { append := some (.write (.header 1)) }).1 := by
  refine ⟨by decide, ?_⟩
  rintro ⟨-, -, returned⟩
  have next := (returned [[9]] trivial).1
  exact absurd next (by decide)

end Probectl.Agent
