import Probectl.Flow.Decode
import Probectl.Wire.Reader

/-! The decoder of NetFlow v5 (`netflow5.go`) as it indexes its datagram: a header and rows
of fixed length. -/
namespace Probectl.Flow

open Octets Checked Wire List

def nf5HeaderLen : Nat := 24
def nf5RecordLen : Nat := 48
def nf5MaxCount : Nat := 30

structure Nf5Context where
  exporter : Bytes
  now : Int
  domain : Nat
  bootTime : Int
  rate : Nat

def nf5Header (exporter : Bytes) (now : Int) : Parsing (Nf5Context × Option WireFault) := do
  let sysUptimeMS ← u32
  let unixSecs ← u32
  let unixNsecs ← u32
  skip 4
  let engineType ← u8
  let engineID ← u8
  let sampling ← u16
  let fault ← err
  let exportTime : Int := unixSecs * 1000000000 + unixNsecs
  pure (⟨exporter, now, engineType * 256 + engineID, exportTime - sysUptimeMS * 1000000,
    if sampling % 0x4000 = 0 then 1 else sampling % 0x4000⟩, fault)

def nf5Record (ctx : Nf5Context) : Parsing (Record × Option WireFault) := do
  let src ← array4
  let dst ← array4
  let nextHop ← array4
  let inIf ← u16
  let outIf ← u16
  let packets ← u32
  let bytesCount ← u32
  let first ← u32
  let last ← u32
  let srcPort ← u16
  let dstPort ← u16
  skip 1
  let tcpFlags ← u8
  let transport ← u8
  let tos ← u8
  let srcAS ← u16
  let dstAS ← u16
  let fault ← err
  pure ({ exporter := ctx.exporter, observationDomain := ctx.domain, protocol := .netflow5, observedAt := ctx.now,
          startTime := ctx.bootTime + first * 1000000, endTime := ctx.bootTime + last * 1000000, srcAddr := some src,
          dstAddr := some dst, srcPort := srcPort, dstPort := dstPort, transport := transport, inIf := inIf, outIf := outIf,
          tos := tos, tcpFlags := tcpFlags, nextHop := some nextHop, bytes := bytesCount, packets := packets,
          samplingRate := ctx.rate, srcAS := srcAS, dstAS := dstAS }, fault)

def nf5Records (ctx : Nf5Context) : Nat → Nat → List Record → Parsing (List Record × Option FlowFault)
  | 0, _, out => pure (out, none)
  | left + 1, i, out => do
    let row ← sub nf5RecordLen
    let ((rec', fault), _) ← liftM (nf5Record ctx row)
    match fault with
    | some fault => pure ([], some (.other ("netflow5: record " ++ toString i ++ ": " ++ fault.text)))
    | none => nf5Records ctx left (i + 1) (out ++ [rec'])

def nf5Body (pkt exporter : Bytes) (now : Int) (count : Nat) (hdr : Cursor) : Checked (List Record × Option FlowFault) := do
  let ((ctx, fault), _) ← nf5Header exporter now hdr
  match fault with
  | some fault => pure ([], some (.other ("netflow5: header: " ++ fault.text)))
  | none => do
    let body ← cut pkt nf5HeaderLen pkt.length
    (nf5Records ctx count 0 [] (.new body)).map Prod.fst

def decodeNetFlow5 (pkt exporter : Bytes) (now : Int) : Checked (List Record × Option FlowFault) :=
  if pkt.length < nf5HeaderLen then pure ([], some (.tooShort .netflow5 pkt.length))
  else do
    let front ← cut pkt 0 nf5HeaderLen
    let (v, hdr) ← u16 (.new front)
    if v ≠ 5 then pure ([], some (.unexpectedVersion .netflow5 v))
    else do
      let (count, hdr) ← u16 hdr
      if count = 0 ∨ count > nf5MaxCount then
        pure ([], some (.other ("netflow5: implausible record count " ++ toString count)))
      else if pkt.length < nf5HeaderLen + count * nf5RecordLen then
        pure ([], some (.other ("netflow5: truncated: header claims " ++ toString count ++ " records, have " ++
          toString pkt.length ++ " bytes")))
      else nf5Body pkt exporter now count hdr

/-! No read leaves its octets. -/

theorem yields_nf5Header (exporter : Bytes) (now : Int) : Yields (nf5Header exporter now) fun _ => True :=
  .bind (yields_unsigned 4) fun _ _ => .bind (yields_unsigned 4) fun _ _ => .bind (yields_unsigned 4) fun _ _ =>
    .bind (yields_skip 4) fun _ _ => .bind (yields_unsigned 1) fun _ _ => .bind (yields_unsigned 1) fun _ _ =>
    .bind (yields_unsigned 2) fun _ _ => .bind yields_err fun _ _ => .pure trivial

variable (ctx : Nf5Context)

theorem yields_nf5Record : Yields (nf5Record ctx) fun _ => True :=
  .bind yields_array4 fun _ _ => .bind yields_array4 fun _ _ => .bind yields_array4 fun _ _ =>
    .bind (yields_unsigned 2) fun _ _ => .bind (yields_unsigned 2) fun _ _ => .bind (yields_unsigned 4) fun _ _ =>
    .bind (yields_unsigned 4) fun _ _ => .bind (yields_unsigned 4) fun _ _ => .bind (yields_unsigned 4) fun _ _ =>
    .bind (yields_unsigned 2) fun _ _ => .bind (yields_unsigned 2) fun _ _ => .bind (yields_skip 1) fun _ _ =>
    .bind (yields_unsigned 1) fun _ _ => .bind (yields_unsigned 1) fun _ _ => .bind (yields_unsigned 1) fun _ _ =>
    .bind (yields_unsigned 2) fun _ _ => .bind (yields_unsigned 2) fun _ _ => .bind yields_err fun _ _ => .pure trivial

def Nf5Context.Own (ctx : Nf5Context) (raw : Bytes) (rec' : Record) : Prop :=
  ∃ lo, lo + nf5RecordLen ≤ raw.length ∧
    (nf5Record ctx (.new (slice raw lo (lo + nf5RecordLen)))).map Prod.fst = .ok (rec', none)

theorem nf5Records_total (ready : Ready c raw) (left i : Nat)
    (fits : left * nf5RecordLen ≤ raw.length) (own : ∀ rec' ∈ out, ctx.Own c.b rec') :
    ∃ recs fault c', nf5Records ctx left i out c = .ok ((recs, fault), c') ∧ recs.length ≤ out.length + left ∧
      ∀ rec' ∈ recs, ctx.Own c.b rec' := by
  induction left generalizing c raw i out with
  | zero => exact ⟨out, none, c, rfl, le_rfl, own⟩
  | succ left ih =>
    have room := ready.room
    rw [Nat.succ_mul] at fits
    have row : nf5RecordLen ≤ raw.length := by omega
    have here : raw.take nf5RecordLen = slice c.b c.off (c.off + nf5RecordLen) := by
      rw [slice, ready.rest, Nat.add_sub_cancel_left]
    obtain ⟨⟨rec', fault⟩, c', ran, -, -⟩ := yields_nf5Record ctx (.new (raw.take nf5RecordLen)) (Cursor.valid_new _)
    have lifted : (liftM (nf5Record ctx (.new (raw.take nf5RecordLen))) : Parsing _) (c.advance nf5RecordLen) =
        .ok (((rec', fault), c'), c.advance nf5RecordLen) := by
      rw [ran]
      rfl
    unfold nf5Records
    rw [Parsing.step (ready.sub row), Parsing.step lifted]
    cases fault with
    | some fault => exact ⟨[], _, _, rfl, Nat.zero_le _, forall_mem_nil _⟩
    | none =>
      have first : ctx.Own c.b rec' := by
        refine ⟨c.off, by omega, ?_⟩
        rw [← here, ran]
        rfl
      have shorter : left * nf5RecordLen ≤ (raw.drop nf5RecordLen).length := by
        rw [length_drop]
        omega
      obtain ⟨recs, fault, c'', rest, few, all⟩ := ih (ready.advance row) (i + 1) shorter (forall_mem_snoc own first)
      refine ⟨recs, fault, c'', rest, ?_, all⟩
      rw [length_append, length_singleton] at few
      omega

/-- The decoder returns for every datagram, with thirty records at most, each from its own row. -/
theorem decodeNetFlow5_total (pkt exporter : Bytes) (now : Int) :
    ∃ recs fault, decodeNetFlow5 pkt exporter now = .ok (recs, fault) ∧ recs.length ≤ nf5MaxCount ∧
      ∃ ctx : Nf5Context, ∀ rec' ∈ recs, ctx.Own (pkt.drop nf5HeaderLen) rec' := by
  have refused fault :
      ∃ recs fault', (Except.ok ([], some fault) : Checked (List Record × Option FlowFault)) = .ok (recs, fault') ∧
        recs.length ≤ nf5MaxCount ∧ ∃ ctx : Nf5Context, ∀ rec' ∈ recs, ctx.Own (pkt.drop nf5HeaderLen) rec' :=
    ⟨[], some fault, rfl, Nat.zero_le _, ⟨exporter, now, 0, 0, 0⟩, nofun⟩
  unfold decodeNetFlow5
  split
  · exact refused _
  rename_i long
  have header : nf5HeaderLen ≤ pkt.length := Nat.le_of_not_lt long
  rw [step (cut_ok (Nat.zero_le _) header)]
  obtain ⟨v, c₁, ran₁, later₁, -⟩ := unsigned_total (Cursor.valid_new (slice pkt 0 nf5HeaderLen)) 2
  obtain ⟨count, c₂, ran₂, later₂, -⟩ := unsigned_total later₁.valid 2
  rw [step (show u16 _ = _ from ran₁)]
  dsimp only
  split
  · exact refused _
  rw [step (show u16 c₁ = _ from ran₂)]
  dsimp only
  split
  · exact refused _
  split
  · exact refused _
  obtain ⟨⟨ctx, fault⟩, c₃, ran₃, -, -⟩ := yields_nf5Header exporter now c₂ later₂.valid
  unfold nf5Body
  rw [step ran₃]
  dsimp only
  cases fault with
  | some fault => exact refused _
  | none =>
    have rest : slice pkt nf5HeaderLen pkt.length = pkt.drop nf5HeaderLen := by
      rw [slice, take_of_length_le (by rw [length_drop])]
    have fits : count * nf5RecordLen ≤ (pkt.drop nf5HeaderLen).length := by
      rw [length_drop]
      omega
    have none : ∀ rec' ∈ ([]), ctx.Own (Cursor.new (pkt.drop nf5HeaderLen)).b rec' := nofun
    obtain ⟨recs, fault, c', ran, few, own⟩ := nf5Records_total ctx (ready_new (pkt.drop nf5HeaderLen)) count 0 fits none
    rw [step (cut_ok header le_rfl), rest, ran]
    refine ⟨recs, fault, rfl, few.trans ?_, ctx, own⟩
    rw [length_nil]
    omega

end Probectl.Flow
