import Probectl.Agent.Buffer

/-! One specification per buffer operation, over the framing library. The file
is read through `Framing`; no later proof unfolds a read or write loop. -/
namespace Probectl.Agent

open List Framing

theorem putUint32_uint32 (h : Bytes) (width : h.length = 4) : putUint32 (uint32 h) = h := by
  match h, width with
  | [a, b, c, d], _ =>
    have ha := a.toNat_lt
    have hb := b.toNat_lt
    have hc := c.toNat_lt
    have hd := d.toNat_lt
    simp only [putUint32, uint32, cons.injEq, and_true]
    refine ⟨?_, ?_, ?_, ?_⟩ <;>
      · apply UInt8.toNat_inj.mp
        rw [UInt8.toNat_ofNat']
        omega

theorem uint32_putUint32 (n : Nat) : uint32 (putUint32 n) = n % 2 ^ 32 := by
  simp only [putUint32, uint32, UInt8.toNat_ofNat']
  omega

def be32 : Header UInt8 where
  width := 4
  modulus := 2 ^ 32
  put := putUint32
  get := uint32
  width_pos := by decide
  put_length := fun _ => rfl
  get_put := uint32_putUint32
  put_get := putUint32_uint32

theorem cap_fits : maxFrameLen < be32.modulus := by decide

theorem readFrame_framing (r : Bytes) :
    (readFrame r).toOption = Framing.readFrame be32 maxFrameLen r := by
  by_cases short : r.length < 4
  · have h : ¬ 4 ≤ r.length := by omega
    have hw : r.length < be32.width := short
    simp only [Framing.readFrame, if_pos hw, readFrame, readFull, if_neg h]
    by_cases empty : r = []
    · simp only [if_pos empty]
      rfl
    · simp only [if_neg empty]
      rfl
  · have h : 4 ≤ r.length := by omega
    have hw : ¬ r.length < be32.width := short
    simp only [Framing.readFrame, if_neg hw, readFrame, readFull, if_pos h]
    change _ = if maxFrameLen < uint32 (r.take 4) then none else _
    by_cases large : maxFrameLen < uint32 (r.take 4)
    · simp only [if_pos large]
      rfl
    simp only [if_neg large]
    change _ = if (r.drop 4).length < uint32 (r.take 4) then none else _
    by_cases enough : uint32 (r.take 4) ≤ (r.drop 4).length
    · simp only [if_pos enough, if_neg (Nat.not_lt.mpr enough)]
      rfl
    · simp only [if_neg enough, if_pos (Nat.lt_of_not_le enough)]
      split <;> rfl

variable {r : Bytes}

theorem readFrame_error (h : readFrame r = .error e) :
    Framing.readFrame be32 maxFrameLen r = none := by
  rw [← readFrame_framing, h]
  rfl

theorem readFrame_ok (h : readFrame r = .ok (p, t)) :
    Framing.readFrame be32 maxFrameLen r = some (p, t) := by
  rw [← readFrame_framing, h]
  rfl

theorem readLoop_framing (fuel : Nat) (r : Bytes) (ps : List Bytes) (enough : r.length ≤ fuel) :
    readLoop fuel r ps = ps ++ Framing.readAll be32 maxFrameLen r := by
  induction fuel generalizing r ps with
  | zero =>
    have empty : r = [] := eq_nil_of_length_eq_zero (Nat.le_zero.mp enough)
    subst r
    simp [readLoop, readAll_nil]
  | succ fuel ih =>
    unfold readLoop
    split
    · rename_i e h
      rw [(scan_none be32 maxFrameLen (readFrame_error h)).1, append_nil]
    rename_i p t h
    have ok := readFrame_ok h
    have less := readFrame_shorter be32 maxFrameLen ok
    rw [ih t (ps ++ [p]) (by omega), (scan_some be32 maxFrameLen ok).1]
    simp

variable (f : Option Bytes) (m n : Int) (p : Bytes)

theorem frames_framing : frames f = Framing.readAll be32 maxFrameLen (f.getD []) := by
  cases f with
  | none => rfl
  | some f => exact readLoop_framing f.length f [] le_rfl

theorem frames_small (member : p ∈ frames f) : p.length ≤ maxFrameLen := by
  rw [frames_framing] at member
  exact (scan_spec be32 maxFrameLen _).2.2 p member

def tornTail (f : Option Bytes) : Bytes := tail be32 maxFrameLen (f.getD [])

theorem frame_bytes : frame be32 p = putUint32 p.length ++ p := rfl

theorem frames_append (g : Bytes) : frames (some (f.getD [] ++ g)) =
      frames f ++ Framing.readAll be32 maxFrameLen (tornTail f ++ g) := by
  rw [frames_framing, frames_framing]
  exact readAll_append be32 maxFrameLen cap_fits _ g

theorem writeFrames_ok (file : Bytes) (ps : List Bytes) :
    writeFrames file ps none = (file ++ encode be32 ps, none) := by
  induction ps generalizing file with
  | nil => simp [writeFrames, encode]
  | cons p ps ih =>
    simp only [writeFrames, writeFrame, ih, encode, frame_bytes, append_assoc]

theorem rewriteLocked_ok (s : Store) (ps : List Bytes) :
    rewriteLocked s ps none =
      ({ disk := { s.disk with log := some (encode be32 ps), tmp := none }
         buf := { s.buf with count := ps.length, bytes := encodedSize ps } }, none) := by
  simp [rewriteLocked, writeFrames_ok]

variable {ps : List Bytes} {s : Store}

theorem enqueue_ok (s : Store) (p : Bytes) (room : atCapacity s.buf p = false) :
    enqueue s p {} =
      ({ disk := { s.disk with log := some (s.disk.log.getD [] ++ frame be32 p) }
         buf := { s.buf with count := s.buf.count + 1, bytes := s.buf.bytes + frameSize p } },
        none) := by
  simp [enqueue, room, appendFrame, writeFrame, frame_bytes]

theorem enqueue_full (s : Store) (p : Bytes) (full : atCapacity s.buf p = true) (faults : Faults) :
    enqueue s p faults =
      ({ s with buf := { s.buf with dropped := s.buf.dropped + 1 } }, some .full) := by
  simp [enqueue, full]

theorem appendFrame_extends (openErr syncErr : BufferError) (fsync : Bool) (file : Option Bytes) (p : Bytes)
    (fault : Option AppendFault) :
    ∃ extra, (appendFrame openErr syncErr fsync file p fault).1.getD [] = file.getD [] ++ extra := by
  match fault with
  | none => exact ⟨_, by simp [appendFrame, writeFrame]; rfl⟩
  | some .openFile => exact ⟨[], by simp [appendFrame]⟩
  | some (.write (.header k)) => exact ⟨_, by simp [appendFrame]; rfl⟩
  | some (.write (.payload k)) => exact ⟨_, by simp [appendFrame, writeFrame]; rfl⟩
  | some .sync =>
    cases fsync <;> exact ⟨_, by simp [appendFrame, writeFrame]; rfl⟩

theorem enqueue_keeps_frames (s : Store) (p : Bytes) (faults : Faults) :
    frames s.disk.log <+: frames (enqueue s p faults).1.disk.log := by
  have grown : ∃ extra, (enqueue s p faults).1.disk.log.getD [] = s.disk.log.getD [] ++ extra := by
    cases full : atCapacity s.buf p with
    | true => exact ⟨[], by simp [enqueue_full s p full]⟩
    | false =>
      obtain ⟨extra, same⟩ := appendFrame_extends .openLog .sync s.buf.fsync s.disk.log p faults.append
      rw [enqueue]
      simp only [full, Bool.false_eq_true, if_false]
      split <;> simp_all
  obtain ⟨extra, same⟩ := grown
  rw [frames_framing, frames_framing, same, readAll_append be32 maxFrameLen cap_fits]
  exact prefix_append _ _

theorem remove_nat (s : Store) (n : Nat) (faults : Faults) (read : faults.read = false) :
    remove s n faults =
      ((rewriteLocked s ((frames s.disk.log).drop n) faults.rewrite).1,
        .returned (rewriteLocked s ((frames s.disk.log).drop n) faults.rewrite).2) := by
  simp only [remove, readAll, read, Bool.false_eq_true, if_false]
  by_cases past : (n : Int) > (frames s.disk.log).length
  · have drops : (frames s.disk.log).drop (frames s.disk.log).length = (frames s.disk.log).drop n := by
      rw [drop_length, drop_eq_nil_of_le (by omega)]
    rw [if_pos past, if_neg (by omega), Int.toNat_natCast, drops]
  · rw [if_neg past, if_neg (by omega), Int.toNat_natCast]

theorem remove_ok (s : Store) (n : Int) (nonneg : 0 ≤ n) :
    remove s n {} = ((rewriteLocked s ((frames s.disk.log).drop n.toNat) none).1, .returned none) := by
  obtain ⟨k, rfl⟩ := Int.eq_ofNat_of_zero_le nonneg
  simp [remove_nat, rewriteLocked_ok]

theorem remove_negative (s : Store) (n : Int) (negative : n < 0) : remove s n {} = (s, .panicked) := by
  have past : ¬ n > (frames s.disk.log).length := by omega
  simp [remove, readAll, if_neg past, negative]

theorem openBufferWithBytes_ok (d : Disk) (maxRecords maxBytes : Int) :
    ∃ b, openBufferWithBytes d maxRecords maxBytes {} =
      ({ d with log := some (encode be32 (frames d.log)), tmp := none },
        .ok ⟨{ d with log := some (encode be32 (frames d.log)), tmp := none }, b⟩) ∧
      b.count = (frames d.log).length ∧ b.bytes = encodedSize (frames d.log) := by
  simp only [openBufferWithBytes, readAll, rewriteLocked_ok]
  exact ⟨_, rfl, rfl, rfl⟩

theorem sendLoop_bounds (stop : Nat → Option String) (ps : List Bytes) (sent : Nat) :
    (sendLoop stop ps sent).1 ≤ sent + ps.length := by
  induction ps generalizing sent with
  | nil => simp [sendLoop]
  | cons p ps ih =>
    unfold sendLoop
    split
    · simp
    · have h := ih (sent + 1)
      simp only [length_cons]
      omega

def batch (maxRecords maxBytes : Int) : List Bytes → List Bytes → Int → List Bytes
  | [], ps, _ => ps
  | fr :: rest, ps, total =>
    if maxRecords ≤ 0 ∨ (ps.length : Int) < maxRecords then
      if 0 < maxBytes ∧ 0 < ps.length ∧ maxBytes < total + frameSize fr then ps
      else batch maxRecords maxBytes rest (ps ++ [fr]) (total + frameSize fr)
    else ps

theorem peekLoop_batch (fuel : Nat) (r : Bytes) (ps : List Bytes) (total : Int) (enough : r.length < fuel) :
    peekLoop m n fuel r ps total = batch m n (Framing.readAll be32 maxFrameLen r) ps total := by
  induction fuel generalizing r ps total with
  | zero => omega
  | succ fuel ih =>
    cases h : readFrame r with
    | error e =>
      rw [(scan_none be32 maxFrameLen (readFrame_error h)).1]
      simp [peekLoop, h, batch]
    | ok pair =>
      obtain ⟨fr, rest⟩ := pair
      have ok := readFrame_ok h
      have less := readFrame_shorter be32 maxFrameLen ok
      rw [(scan_some be32 maxFrameLen ok).1]
      simp only [peekLoop, h, batch, ih rest _ _ (by omega)]

theorem batch_unbounded (hm : m ≤ 0) (hn : n ≤ 0) (fs ps : List Bytes) (total : Int) :
    batch m n fs ps total = ps ++ fs := by
  induction fs generalizing ps total with
  | nil => simp [batch]
  | cons fr rest ih =>
    have unlimited : ¬ (0 < n ∧ 0 < ps.length ∧ n < total + frameSize fr) := by omega
    simp only [batch, if_pos (Or.inl hm), if_neg unlimited, ih]
    simp

theorem peekBatch_frames (s : Store) (m n : Int) :
    peekBatch s m n {} = .ok (batch m n (frames s.disk.log) [] 0) := by
  unfold peekBatch
  split
  · rename_i unbounded
    rw [batch_unbounded m n unbounded.1 unbounded.2]
    rfl
  · split
    · rename_i missing
      simp [missing, frames, batch]
    · rename_i f present
      rw [present, frames_framing]
      simpa using peekLoop_batch m n (f.length + 1) f [] 0 (by omega)

theorem batch_extends (fs ps : List Bytes) (total : Int) : batch m n fs ps total <+: ps ++ fs := by
  induction fs generalizing ps total with
  | nil => simp [batch]
  | cons fr rest ih =>
    unfold batch
    split
    · split
      · exact prefix_append ps _
      · simpa using ih (ps ++ [fr]) (total + frameSize fr)
    · exact prefix_append ps _

theorem peekBatch_front {m n : Int}
    (peeked : peekBatch s m n faults = .ok ps) : ps <+: frames s.disk.log := by
  have whole : peekBatch s m n {} = .ok ps ∨ ps = [] := by
    unfold peekBatch readAll at peeked ⊢
    cases read : faults.read with
    | false => exact .inl (by simpa [read] using peeked)
    | true =>
      split at peeked
      · cases peeked
      split at peeked
      · cases peeked
        exact .inr rfl
      · cases peeked
  rcases whole with same | rfl
  · rw [peekBatch_frames] at same
    cases same
    exact batch_extends m n _ [] 0
  · exact nil_prefix

end Probectl.Agent
