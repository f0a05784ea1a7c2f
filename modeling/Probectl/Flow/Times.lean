import Probectl.Flow.DataSets
import Probectl.Flow.Netflow5

/-! The times of flows of NetFlow v5 and v9, which an exporter writes as 32-bit counters of
milliseconds since its start. -/
namespace Probectl.Flow

open Octets Wire List Checked

/-- The stamp lies behind the export by what the counter has advanced since, exactly if the
counter has not wrapped. -/
def Dated (stamp exportTime : Int) (up switched : Nat) : Prop :=
  stamp = exportTime - (up - switched : Int) % 4294967296 * 1000000 ↔ switched ≤ up

variable {exportTime : Int} {b : Bytes}

theorem counter_lt (short : b.length ≤ 4) : big b < 4294967296 :=
  (big_lt b).trans_le (Nat.pow_le_pow_right (by decide) short)

theorem slice_counter (b : Bytes) (lo : Nat) : big (slice b lo (lo + 4)) < 4294967296 := by
  apply counter_lt
  rw [slice_length]
  omega

theorem dated_of_boot {up switched : Nat} (counter : up < 4294967296) (counter' : switched < 4294967296) :
    Dated (exportTime - up * 1000000 + switched * 1000000) exportTime up switched := by
  unfold Dated
  omega

/-! NetFlow v5. -/

theorem array4_bind (fits : k + 4 ≤ b.length) (f : Bytes → Parsing β) :
    (array4 >>= f) ((Cursor.new b).advance k) = f (slice b k (k + 4)) ((Cursor.new b).advance (k + 4)) := by
  have ready : Ready ((Cursor.new b).advance k) (b.drop k) := (ready_new b).advance (by omega)
  have four : 4 ≤ (b.drop k).length := by
    rw [length_drop]
    omega
  have read : array4 ((Cursor.new b).advance k) = .ok (slice b k (k + 4), (Cursor.new b).advance (k + 4)) := by
    have taken : take 4 ((Cursor.new b).advance k) = .ok (some (slice b k (k + 4)), (Cursor.new b).advance (k + 4)) := by
      rw [slice]
      exact (ready.take four).trans (by simp [Cursor.advance, Nat.add_assoc])
    have whole : (slice b k (k + 4)).length = 4 := by
      rw [slice_length]
      omega
    unfold array4
    rw [taken]
    change (cut _ 0 4).map _ = _
    rw [cut_ok (by omega) (Nat.le_of_eq whole.symm), slice, drop_zero, take_of_length_le (Nat.le_of_eq whole)]
    rfl
  exact Parsing.step read

theorem nf5Header_boot (exporter : Bytes) (now : Int) (length : b.length = 24) :
    ∃ ctx c, nf5Header exporter now ((Cursor.new b).advance 4) = .ok ((ctx, none), c) ∧
      ctx.bootTime = big (slice b 8 12) * 1000000000 + big (slice b 12 16) - big (slice b 4 8) * 1000000 := by
  unfold nf5Header u32 u16 u8
  simp (disch := omega) only [unsigned_bind, skip_bind, Nat.reduceAdd]
  exact ⟨_, _, rfl, rfl⟩

/-- A time of a record: where a row of NetFlow v5 has it, the element of NetFlow v9 that has
the counter, and those that set it otherwise. -/
structure Stamp where
  offset : Nat
  switched : Nat
  others : List Nat
  time : Record → Int

def stamps : List Stamp :=
  [⟨24, ieFirstSwitched, [ieFlowStartSec, ieFlowStartMs], Record.startTime⟩,
    ⟨28, ieLastSwitched, [ieFlowEndSec, ieFlowEndMs], Record.endTime⟩]

theorem nf5Record_times (ctx : Nf5Context) (length : b.length = 48) :
    ∃ rec' c, nf5Record ctx (.new b) = .ok ((rec', none), c) ∧
      ∀ s ∈ stamps, s.time rec' = ctx.bootTime + big (slice b s.offset (s.offset + 4)) * 1000000 := by
  change ∃ rec' c, nf5Record ctx ((Cursor.new b).advance 0) = _ ∧ _
  unfold nf5Record u32 u16 u8
  simp (disch := omega) only [unsigned_bind, array4_bind, skip_bind, Nat.reduceAdd]
  refine ⟨_, _, rfl, ?_⟩
  simp [stamps]

/-! NetFlow v9. -/

structure Stamp.Spec (clk : IEClock) (s : Stamp) : Prop where
  sets : ∀ rec' val, s.time (applyIE rec' s.switched val clk).1 = clk.fromUptimeMS (readUint val)
  keeps : ∀ id ∉ s.switched :: s.others, ∀ val rec', s.time (applyIE rec' id val clk).1 = s.time rec'
  finish : ∀ (ctx : DataContext) rec' inline, s.time rec' ≠ zeroTime → s.time (ctx.finish rec' inline) = s.time rec'

theorem stamps_spec (clk : IEClock) : ∀ s ∈ stamps, s.Spec clk := by
  refine forall_mem_cons.mpr ⟨⟨fun _ _ => rfl, fun id other val rec' => ?_, fun ctx rec' inline set => if_neg set⟩,
    forall_mem_singleton.mpr ⟨fun _ _ => rfl, fun id other val rec' => ?_, fun ctx rec' inline set => if_neg set⟩⟩
  all_goals simp only [mem_cons, not_or] at other
  · simp only [applyIE, apply_ite Prod.fst, apply_ite Record.startTime, other, if_false, ite_self]
  · simp only [applyIE, apply_ite Prod.fst, apply_ite Record.endTime, other, if_false, ite_self]

/-- The last element of the record that sets the time is the counter `val`. -/
def Stamp.SetBy (s : Stamp) (values : List (Nat × Bytes)) (val : Bytes) : Prop :=
  ∃ before after, values = before ++ (s.switched, val) :: after ∧ ∀ v ∈ after, v.1 ∉ s.switched :: s.others

namespace Stamp.Spec

variable {clk : IEClock} {s : Stamp} {values : List (Nat × Bytes)}

theorem silent (spec : s.Spec clk) (quiet : ∀ v ∈ values, v.1 ∉ s.switched :: s.others) (start : Record × Nat) :
    s.time (applied clk start values).1 = s.time start.1 := by
  induction values generalizing start with
  | nil => rfl
  | cons v rest ih =>
    obtain ⟨here, later⟩ := forall_mem_cons.mp quiet
    exact (ih later _).trans (spec.keeps v.1 here v.2 start.1)

theorem flow {ctx : DataContext} (spec : s.Spec ctx.clk) (clock : ctx.clk = ⟨some boot, exportTime⟩)
    (late : zeroTime < boot) (rate : Nat) (four : val.length = 4) (set : s.SetBy values val) :
    s.time (ctx.flow .netflow9 rate values) = boot + big val * 1000000 := by
  obtain ⟨before, after, rfl, quiet⟩ := set
  have small := counter_lt (Nat.le_of_eq four)
  have read : ctx.clk.fromUptimeMS (readUint val) = boot + big val * 1000000 := by
    rw [clock, readUint, if_pos (by omega)]
    simp only [IEClock.fromUptimeMS, wrapInt64]
    omega
  have stamp : s.time (applyValues (ctx.record .netflow9 rate) ctx.clk (before ++ (s.switched, val) :: after)).1 =
      boot + big val * 1000000 := by
    rw [applyValues, foldl_append]
    exact (spec.silent quiet _).trans ((spec.sets _ val).trans read)
  rw [DataContext.flow, spec.finish _ _ _ (by rw [stamp]; omega), stamp]

end Stamp.Spec

/-- Start and end of every flow are the export time less what the counter has advanced
since, exactly if it has not wrapped in between. -/
theorem times_dated (s : Stamp) (mem : s ∈ stamps) :
    (∀ exporter now (header row : Bytes), header.length = nf5HeaderLen → row.length = nf5RecordLen →
      ∃ ctx c rec' c', nf5Header exporter now ((Cursor.new header).advance 4) = .ok ((ctx, none), c) ∧
        nf5Record ctx (.new row) = .ok ((rec', none), c') ∧
        Dated (s.time rec') (big (slice header 8 12) * 1000000000 + big (slice header 12 16)) (big (slice header 4 8))
          (big (slice row s.offset (s.offset + 4)))) ∧
    ∀ pkt packet (ctx : DataContext) rate values val, nf9Header pkt = .ok packet → ctx.clk = packet.clk → val.length = 4 →
      s.SetBy values val → Dated (s.time (ctx.flow .netflow9 rate values)) (big (slice pkt 8 12) * 1000000000)
        (big (slice pkt 4 8)) (big val) := by
  constructor
  · intro exporter now header row length width
    obtain ⟨ctx, c, front, boot⟩ := nf5Header_boot exporter now length
    obtain ⟨rec', c', read, times⟩ := nf5Record_times ctx width
    refine ⟨ctx, c, rec', c', front, read, ?_⟩
    rw [times s mem, boot]
    exact dated_of_boot (slice_counter header 4) (slice_counter row s.offset)
  · intro pkt packet ctx rate values val header clock four set
    obtain ⟨-, header⟩ := Run.guard_ok header
    obtain ⟨-, header⟩ := Run.guard_ok header
    cases header
    have up : big (slice pkt 4 8) < 4294967296 := slice_counter pkt 4
    have later : zeroTime < (big (slice pkt 8 12) : Int) * 1000000000 - big (slice pkt 4 8) * 1000000 := by
      unfold zeroTime
      omega
    rw [(stamps_spec _ s mem).flow clock later rate four set]
    exact dated_of_boot up (counter_lt (Nat.le_of_eq four))

namespace Times

/-- A second after the start of the exporter. -/
def header : Bytes := [0, 5, 0, 1, 0, 0, 3, 232, 0, 0, 0, 9, 0, 0, 0, 0] ++ replicate 8 0

def row (since : Bytes) : Bytes := replicate 24 0 ++ since ++ since ++ replicate 16 0

theorem times_dated_second :
    ∃ ctx c rec' c', nf5Header [] 0 ((Cursor.new header).advance 4) = .ok ((ctx, none), c) ∧
      nf5Record ctx (.new (row [0, 0, 3, 232])) = .ok ((rec', none), c') ∧ rec'.startTime = 9000000000 := by
  obtain ⟨ctx, c, rec', c', front, read, dated⟩ := (times_dated _ mem_cons_self).1 [] 0 header (row [0, 0, 3, 232]) rfl rfl
  exact ⟨ctx, c, rec', c', front, read, (dated.mpr (by decide)).trans (by decide +kernel)⟩

/-- A flow of just before the counter wrapped is dated weeks ahead. -/
theorem wrapped_flow_ahead :
    ∃ ctx c rec' c', nf5Header [] 0 ((Cursor.new header).advance 4) = .ok ((ctx, none), c) ∧
      nf5Record ctx (.new (row [255, 255, 255, 255])) = .ok ((rec', none), c') ∧
      rec'.startTime = 9000000000 + 4294966295 * 1000000 := by
  obtain ⟨ctx, c, front, boot⟩ := nf5Header_boot [] 0 (b := header) rfl
  obtain ⟨rec', c', read, times⟩ := nf5Record_times ctx (b := row [255, 255, 255, 255]) rfl
  refine ⟨ctx, c, rec', c', front, read, (times _ mem_cons_self).trans ?_⟩
  rw [boot]
  decide +kernel

end Times

end Probectl.Flow
