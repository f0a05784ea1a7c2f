import Probectl.Flow.Decode
import Probectl.Wire.Reader

/-! The decoder of sFlow v5 (`sflow.go`) as it indexes its datagram: samples, the records of
a sample, and the sampled frame down to its ports. -/
namespace Probectl.Flow

open Octets Checked Wire List Nat

def sflowMaxSamples : Nat := 256
def sflowMaxRecords : Nat := 64

/-! The sampled frame. -/

structure Sampled where
  bytes : Nat
  vlan : Nat := 0
  tos : Nat := 0
  transport : Nat := 0
  srcAddr : Option Bytes := none
  dstAddr : Option Bytes := none
  srcPort : Nat := 0
  dstPort : Nat := 0
  tcpFlags : Nat := 0
  deriving DecidableEq

def parsePorts (h : Bytes) (seen : Sampled) : Checked Sampled := do
  let src ← uintAt 2 h 0
  let dst ← uintAt 2 h 2
  pure { seen with srcPort := src, dstPort := dst }

def parseL4 (h : Bytes) (seen : Sampled) : Checked Sampled :=
  if seen.transport = 6 then
    if h.length ≥ 14 then do
      let ported ← parsePorts h seen
      let flags ← octet h 13
      pure { ported with tcpFlags := flags }
    else if h.length ≥ 4 then parsePorts h seen
    else pure seen
  else if seen.transport = 17 then
    if h.length ≥ 4 then parsePorts h seen else pure seen
  else pure seen

def parseIPv4Fields (h : Bytes) (ihl : Nat) (seen : Sampled) : Checked Sampled := do
  let tos ← octet h 1
  let transport ← octet h 9
  let src ← cut h 12 16
  let dst ← cut h 16 20
  let payload ← cut h ihl h.length
  parseL4 payload { seen with tos := tos, transport := transport, srcAddr := some src, dstAddr := some dst }

def parseIPv4 (h : Bytes) (seen : Sampled) : Checked (Option Sampled) :=
  if h.length < 20 then pure none
  else do
    let first ← octet h 0
    if first / 16 ≠ 4 ∨ first % 16 * 4 < 20 ∨ h.length < first % 16 * 4 then pure none
    else some <$> parseIPv4Fields h (first % 16 * 4) seen

def parseIPv6Fields (h : Bytes) (first : Nat) (seen : Sampled) : Checked Sampled := do
  let second ← octet h 1
  let transport ← octet h 6
  let src ← cut h 8 24
  let dst ← cut h 24 40
  let payload ← cut h 40 h.length
  parseL4 payload
    { seen with tos := first % 16 * 16 + second / 16, transport := transport, srcAddr := some src, dstAddr := some dst }

/-- Extension headers are not walked. -/
def parseIPv6 (h : Bytes) (seen : Sampled) : Checked (Option Sampled) :=
  if h.length < 40 then pure none
  else do
    let first ← octet h 0
    if first / 16 ≠ 6 then pure none else some <$> parseIPv6Fields h first seen

def parsePacket (h : Bytes) (etherType off : Nat) (seen : Sampled) : Checked (Option Sampled) :=
  if etherType = 0x0800 then cut h off h.length >>= fun packet => parseIPv4 packet seen
  else if etherType = 0x86DD then cut h off h.length >>= fun packet => parseIPv6 packet seen
  else pure none

def parseEthernet (h : Bytes) (seen : Sampled) : Checked (Option Sampled) :=
  if h.length < 14 then pure none
  else do
    let etherType ← uintAt 2 h 12
    if etherType = 0x8100 then
      if h.length < 18 then pure none
      else do
        let tag ← uintAt 2 h 14
        let inner ← uintAt 2 h 16
        parsePacket h inner 18 { seen with vlan := tag % 0x1000 }
    else parsePacket h etherType 14 seen

/-! Records and samples. -/

def rawPacketHeader : Parsing (Nat × Nat × Option Bytes × Bool) := do
  let proto ← u32
  let frameLen ← u32
  skip 4
  let hdrLen ← u32
  let hdr ← bytesAligned hdrLen 4
  let bad ← failed
  pure (proto, frameLen, hdr, bad)

def parseRawPacketHeader (b : Bytes) : Checked (Option Sampled) := do
  let ((proto, frameLen, hdr, bad), _) ← rawPacketHeader (.new b)
  if bad ∨ proto ≠ 1 then pure none else parseEthernet (hdr.getD []) { bytes := frameLen }

structure SampleContext where
  exporter : Bytes
  subAgent : Nat
  now : Int
  rate : Nat
  inIf : Nat
  outIf : Nat

def SampleContext.record (ctx : SampleContext) (seen : Sampled) : Record :=
  { exporter := ctx.exporter, observationDomain := ctx.subAgent, protocol := .sflow5, observedAt := ctx.now,
    startTime := ctx.now, endTime := ctx.now, srcAddr := seen.srcAddr, dstAddr := seen.dstAddr, srcPort := seen.srcPort,
    dstPort := seen.dstPort, transport := seen.transport, inIf := ctx.inIf, outIf := ctx.outIf, vlan := seen.vlan,
    tos := seen.tos, tcpFlags := seen.tcpFlags, bytes := seen.bytes, packets := 1,
    samplingRate := if ctx.rate = 0 then 1 else ctx.rate }

/-- The rounds that are left. Only raw packet headers are mapped. -/
def sflowRecords (ctx : SampleContext) : Nat → List Record → Parsing (List Record)
  | 0, out => pure out
  | left + 1, out => do
    let stop ← failed
    if stop then pure out
    else do
      let recType ← u32
      let recLen ← u32
      let body ← bytesAligned recLen 4
      let bad ← failed
      if bad then pure out
      else if recType % 0x1000 ≠ 1 ∨ recType / 0x1000 ≠ 0 then sflowRecords ctx left out
      else do
        let seen ← liftM (parseRawPacketHeader (body.getD []))
        sflowRecords ctx left (out ++ (seen.map ctx.record).toList)

def decodeSFlowRecords (ctx : SampleContext) : Parsing (List Record) := do
  let n ← u32
  let bad ← failed
  if n = 0 ∨ n > sflowMaxRecords ∨ bad then pure [] else sflowRecords ctx n []

def sflowSample (expanded : Bool) (exporter : Bytes) (subAgent : Nat) (now : Int) : Parsing (List Record) := do
  skip 4
  if expanded then do
    skip 8
    let rate ← u32
    skip 8
    skip 4
    let inIf ← u32
    skip 4
    let outIf ← u32
    decodeSFlowRecords ⟨exporter, subAgent, now, rate, inIf, outIf⟩
  else do
    skip 4
    let rate ← u32
    skip 8
    let inIf ← u32
    let outIf ← u32
    decodeSFlowRecords ⟨exporter, subAgent, now, rate, inIf, outIf⟩

def decodeSFlowSample (b : Bytes) (expanded : Bool) (exporter : Bytes) (subAgent : Nat) (now : Int) : Checked (List Record) :=
  (sflowSample expanded exporter subAgent now (.new b)).map Prod.fst

def sflowFormat (sampleType : Nat) : Option Bool :=
  if sampleType / 0x1000 ≠ 0 then none
  else if sampleType % 0x1000 = 1 then some false
  else if sampleType % 0x1000 = 3 then some true
  else none

def sflowSamples (exporter : Bytes) (subAgent : Nat) (now : Int) :
    Nat → Nat → List Record → Parsing (List Record × Option FlowFault)
  | 0, _, out => pure (out, none)
  | left + 1, i, out => do
    let stop ← failed
    if stop then pure (out, none)
    else do
      let sampleType ← u32
      let sampleLen ← u32
      let body ← bytesAligned sampleLen 4
      let bad ← failed
      if bad then pure (out, some (.other ("sflow: truncated sample " ++ toString i)))
      else
        match sflowFormat sampleType with
        | none => sflowSamples exporter subAgent now left (i + 1) out
        | some expanded => do
          let more ← liftM (decodeSFlowSample (body.getD []) expanded exporter subAgent now)
          sflowSamples exporter subAgent now left (i + 1) (out ++ more)

def sflowCounts : Parsing (Nat × Nat × Bool) := do
  let subAgent ← u32
  skip 4
  skip 4
  let n ← u32
  let bad ← failed
  pure (subAgent, n, bad)

def sflowBody (exporter : Bytes) (now : Int) (addrLen : Int) : Parsing (List Record × Option FlowFault) := do
  skip addrLen
  let (subAgent, n, bad) ← sflowCounts
  if bad then pure ([], some (.other "sflow: truncated header"))
  else if n = 0 ∨ n > sflowMaxSamples then pure ([], some (.other ("sflow: implausible sample count " ++ toString n)))
  else sflowSamples exporter subAgent now n 0 []

def sflowDatagram (exporter : Bytes) (now : Int) : Parsing (List Record × Option FlowFault) := do
  let v ← u32
  if v ≠ 5 then pure ([], some (.unexpectedVersion .sflow5 v))
  else do
    let addrType ← u32
    if addrType = 1 then sflowBody exporter now 4
    else if addrType = 2 then sflowBody exporter now 16
    else pure ([], some (.other ("sflow: bad agent address type " ++ toString addrType)))

def decodeSFlow (pkt exporter : Bytes) (now : Int) : Checked (List Record × Option FlowFault) :=
  (sflowDatagram exporter now (.new pkt)).map Prod.fst

/-! No read leaves its octets. -/

variable {h : Bytes}

theorem returns_parsePorts (long : h.length ≥ 4) (seen : Sampled) : Returns (parsePorts h seen) :=
  .bind (returns_uintAt (by omega)) fun _ => .bind (returns_uintAt (by omega)) fun _ => .pure _

theorem returns_parseL4 (h : Bytes) (seen : Sampled) : Returns (parseL4 h seen) := by
  unfold parseL4
  split_ifs with tcp flagged ported udp ported
  · exact .bind (returns_parsePorts (by omega) seen) fun _ => .bind (returns_octet (by omega)) fun _ => .pure _
  · exact returns_parsePorts ported seen
  · exact .pure seen
  · exact returns_parsePorts ported seen
  all_goals exact .pure seen

theorem returns_parseIPv4Fields (long : 20 ≤ h.length) (header : ihl ≤ h.length) (seen : Sampled) :
    Returns (parseIPv4Fields h ihl seen) :=
  .bind (returns_octet (by omega)) fun _ => .bind (returns_octet (by omega)) fun _ =>
    .bind (returns_cut (by omega) (by omega)) fun _ => .bind (returns_cut (by omega) long) fun _ =>
    .bind (returns_cut header le_rfl) fun _ => returns_parseL4 _ _

theorem returns_parseIPv4 (h : Bytes) (seen : Sampled) : Returns (parseIPv4 h seen) := by
  unfold parseIPv4
  split
  · exact .pure none
  refine .bind (returns_octet (by omega)) fun first => ?_
  split
  · exact .pure none
  · exact (returns_parseIPv4Fields (by omega) (by omega) seen).map some

theorem returns_parseIPv6Fields (long : 40 ≤ h.length) (first : Nat) (seen : Sampled) :
    Returns (parseIPv6Fields h first seen) :=
  .bind (returns_octet (by omega)) fun _ => .bind (returns_octet (by omega)) fun _ =>
    .bind (returns_cut (by omega) (by omega)) fun _ => .bind (returns_cut (by omega) long) fun _ =>
    .bind (returns_cut long le_rfl) fun _ => returns_parseL4 _ _

theorem returns_parseIPv6 (h : Bytes) (seen : Sampled) : Returns (parseIPv6 h seen) := by
  unfold parseIPv6
  split
  · exact .pure none
  refine .bind (returns_octet (by omega)) fun first => ?_
  split
  · exact .pure none
  · exact (returns_parseIPv6Fields (by omega) first seen).map some

variable {off : Nat}

theorem returns_parsePacket (bound : off ≤ h.length) (etherType : Nat) (seen : Sampled) :
    Returns (parsePacket h etherType off seen) := by
  unfold parsePacket
  split_ifs
  · exact .bind (returns_cut bound le_rfl) fun packet => returns_parseIPv4 packet seen
  · exact .bind (returns_cut bound le_rfl) fun packet => returns_parseIPv6 packet seen
  · exact .pure none

theorem returns_parseEthernet (h : Bytes) (seen : Sampled) : Returns (parseEthernet h seen) := by
  unfold parseEthernet
  split
  · exact .pure none
  refine .bind (returns_uintAt (by omega)) fun etherType => ?_
  split_ifs
  · exact .pure none
  · exact .bind (returns_uintAt (by omega)) fun _ => .bind (returns_uintAt (by omega)) fun _ =>
      returns_parsePacket (by omega) _ _
  · exact returns_parsePacket (by omega) _ _

theorem yields_rawPacketHeader : Yields rawPacketHeader fun _ => True :=
  .bind (yields_unsigned 4) fun _ _ => .bind (yields_unsigned 4) fun _ _ => .bind (yields_skip 4) fun _ _ =>
    .bind (yields_unsigned 4) fun _ _ => .bind (yields_bytesAligned _ 4) fun _ _ => .bind yields_failed fun _ _ => .pure trivial

variable (b : Bytes) (ctx : SampleContext) (expanded : Bool)

theorem returns_parseRawPacketHeader : Returns (parseRawPacketHeader b) := by
  obtain ⟨⟨proto, frameLen, hdr, bad⟩, c, ran, -⟩ := yields_rawPacketHeader (.new b) (Cursor.valid_new b)
  unfold parseRawPacketHeader
  rw [step ran]
  dsimp only
  split
  · exact .pure none
  · exact returns_parseEthernet _ _

theorem yields_sflowRecords (left : Nat) (out : List Record) :
    Yields (sflowRecords ctx left out) fun recs => recs.length ≤ out.length + left := by
  induction left generalizing out with
  | zero => exact .pure le_rfl
  | succ left ih =>
    refine .bind yields_failed fun stop _ => ?_
    cases stop with
    | true => exact .pure (le_add_right _ _)
    | false =>
      refine .bind (yields_unsigned 4) fun recType _ => .bind (yields_unsigned 4) fun recLen _ =>
        .bind (yields_bytesAligned _ 4) fun body _ => .bind yields_failed fun bad _ => ?_
      cases bad with
      | true => exact .pure (le_add_right _ _)
      | false =>
        have other : Yields (sflowRecords ctx left out) fun recs => recs.length ≤ out.length + (left + 1) :=
          (ih out).mono fun recs bound => bound.trans (by omega)
        rw [if_neg Bool.false_ne_true]
        split
        · exact other
        obtain ⟨seen, parsed⟩ := returns_parseRawPacketHeader (body.getD [])
        refine .bind (.lift ⟨seen, parsed, trivial⟩) fun seen (_ : True) => ?_
        refine (ih _).mono fun recs bound => bound.trans ?_
        rw [length_append]
        cases seen with
        | none => exact Nat.add_le_add_left (Nat.le_succ left) out.length
        | some seen => exact le_of_eq (add_right_comm _ _ _)

theorem yields_decodeSFlowRecords : Yields (decodeSFlowRecords ctx) fun recs => recs.length ≤ sflowMaxRecords := by
  refine .bind (yields_unsigned 4) fun n _ => .bind yields_failed fun bad _ => ?_
  split
  · exact .pure (zero_le _)
  · refine (yields_sflowRecords ctx n []).mono fun recs bound => bound.trans ?_
    rw [length_nil]
    omega

theorem yields_sflowSample (exporter : Bytes) (subAgent : Nat) (now : Int) :
    Yields (sflowSample expanded exporter subAgent now) fun recs => recs.length ≤ sflowMaxRecords := by
  refine .bind (yields_skip 4) fun _ _ => ?_
  cases expanded with
  | true =>
    exact .bind (yields_skip 8) fun _ _ => .bind (yields_unsigned 4) fun _ _ => .bind (yields_skip 8) fun _ _ =>
      .bind (yields_skip 4) fun _ _ => .bind (yields_unsigned 4) fun _ _ => .bind (yields_skip 4) fun _ _ =>
      .bind (yields_unsigned 4) fun _ _ => yields_decodeSFlowRecords _
  | false =>
    exact .bind (yields_skip 4) fun _ _ => .bind (yields_unsigned 4) fun _ _ => .bind (yields_skip 8) fun _ _ =>
      .bind (yields_unsigned 4) fun _ _ => .bind (yields_unsigned 4) fun _ _ => yields_decodeSFlowRecords _

theorem decodeSFlowSample_total (exporter : Bytes) (subAgent : Nat) (now : Int) :
    ∃ recs, decodeSFlowSample b expanded exporter subAgent now = .ok recs ∧ recs.length ≤ sflowMaxRecords := by
  obtain ⟨recs, c, ran, -, bound⟩ := yields_sflowSample expanded exporter subAgent now (.new b) (Cursor.valid_new b)
  unfold decodeSFlowSample
  rw [ran]
  exact ⟨recs, rfl, bound⟩

/-! Where the records come from. -/

structure SFlowSample where
  lo : Nat
  hi : Nat
  expanded : Bool
  recs : List Record

structure SFlowSample.Own (s : SFlowSample) (pkt exporter : Bytes) (subAgent : Nat) (now : Int) : Prop where
  inside : s.lo ≤ s.hi ∧ s.hi ≤ pkt.length
  decoded : decodeSFlowSample (slice pkt s.lo s.hi) s.expanded exporter subAgent now = .ok s.recs
  bounded : s.recs.length ≤ sflowMaxRecords

structure SampledFrom (pkt exporter : Bytes) (subAgent : Nat) (now : Int) (off : Nat) (samples : List SFlowSample) : Prop where
  own : ∀ s ∈ samples, s.Own pkt exporter subAgent now
  behind : ∀ s ∈ samples, off ≤ s.lo
  apart : samples.Pairwise fun s t => s.hi ≤ t.lo

theorem sampledFrom_nil (pkt exporter : Bytes) (subAgent : Nat) (now : Int) (off : Nat) :
    SampledFrom pkt exporter subAgent now off [] := ⟨nofun, nofun, .nil⟩

variable {pkt exporter : Bytes} {now : Int} {subAgent : Nat} {samples : List SFlowSample}

theorem SampledFrom.mono
    (sampled : SampledFrom pkt exporter subAgent now off samples) (le : off' ≤ off) :
    SampledFrom pkt exporter subAgent now off' samples :=
  { sampled with behind := fun s mem => le.trans (sampled.behind s mem) }

theorem SampledFrom.cons (own : s.Own pkt exporter subAgent now) (sampled : SampledFrom pkt exporter subAgent now off samples)
    (before : s.hi ≤ off) : SampledFrom pkt exporter subAgent now s.lo (s :: samples) := by
  refine ⟨?_, ?_, ?_⟩
  · exact forall_mem_cons.mpr ⟨own, sampled.own⟩
  · refine forall_mem_cons.mpr ⟨le_rfl, fun t mem => ?_⟩
    exact own.inside.1.trans (before.trans (sampled.behind t mem))
  · exact pairwise_cons.mpr ⟨fun t mem => before.trans (sampled.behind t mem), sampled.apart⟩

variable {c : Cursor}

theorem sflowSamples_total (exporter : Bytes) (subAgent : Nat) (now : Int) (valid : c.Valid) (left i : Nat)
    (out : List Record) :
    ∃ fault c' samples, sflowSamples exporter subAgent now left i out c = .ok ((out ++ samples.flatMap SFlowSample.recs, fault), c') ∧
      samples.length ≤ left ∧ SampledFrom c.b exporter subAgent now c.off samples := by
  induction left generalizing c i out with
  | zero => exact ⟨none, c, [], by rw [flatMap_nil, append_nil]; rfl, le_rfl, sampledFrom_nil _ _ _ _ _⟩
  | succ left ih =>
    -- a loop that ends here has no samples
    have ends (fault : Option FlowFault) (c' : Cursor) :
        ∃ fault' c'' samples, (Except.ok ((out, fault), c') : Checked _) =
            .ok ((out ++ samples.flatMap SFlowSample.recs, fault'), c'') ∧
          samples.length ≤ left + 1 ∧ SampledFrom c.b exporter subAgent now c.off samples :=
      ⟨fault, c', [], by rw [flatMap_nil, append_nil], zero_le _, sampledFrom_nil _ _ _ _ _⟩
    unfold sflowSamples
    rw [Parsing.step (show failed c = .ok (c.err.isSome, c) from rfl)]
    split
    · exact ends none c
    obtain ⟨sampleType, c₁, ran₁, later₁, -⟩ := unsigned_total valid 4
    obtain ⟨sampleLen, c₂, ran₂, later₂, -⟩ := unsigned_total later₁.valid 4
    obtain ⟨body, c₃, ran₃, later₃, octets, intact⟩ := bytesAligned_total later₂.valid sampleLen 4
    have moved := (later₁.trans later₂).trans later₃
    rw [Parsing.step (show u32 c = _ from ran₁), Parsing.step (show u32 c₁ = _ from ran₂), Parsing.step ran₃,
      Parsing.step (show failed c₃ = .ok (c₃.err.isSome, c₃) from rfl)]
    split
    · exact ends _ c₃
    rename_i unfailed
    cases sflowFormat sampleType with
    | none =>
      obtain ⟨fault, c', samples, ran, fewer, sampled⟩ := ih moved.valid (i + 1) out
      rw [moved.octets] at sampled
      exact ⟨fault, c', samples, ran, fewer.trans (le_succ _), sampled.mono moved.forward⟩
    | some expanded =>
      obtain ⟨x, rfl⟩ := Option.isSome_iff_exists.mp (intact (by simpa using unfailed))
      obtain ⟨past, here⟩ := octets x rfl
      obtain ⟨more, decoded, few⟩ := decodeSFlowSample_total x expanded exporter subAgent now
      obtain ⟨fault, c', samples, ran, fewer, sampled⟩ := ih moved.valid (i + 1) (out ++ more)
      have start : c.off ≤ c₂.off := (later₁.trans later₂).forward
      have bound := moved.valid
      rw [Cursor.Valid, moved.octets] at bound
      rw [moved.octets] at sampled
      rw [(later₁.trans later₂).octets] at here
      have own : SFlowSample.Own ⟨c₂.off, c₂.off + (sampleLen : Int).toNat, expanded, more⟩ c.b exporter subAgent now :=
        ⟨⟨le_add_right _ _, past.trans bound⟩, here ▸ decoded, few⟩
      refine ⟨fault, c', _ :: samples, ?_, succ_le_succ fewer, (sampled.cons own past).mono start⟩
      have lifted : (liftM (decodeSFlowSample x expanded exporter subAgent now) : Parsing (List Record)) c₃ = .ok (more, c₃) := by
        rw [decoded]
        rfl
      rw [flatMap_cons, ← append_assoc, Option.getD_some]
      dsimp only
      rw [Parsing.step lifted]
      exact ran

/-- Behind the address of the agent, which is four or sixteen octets long. -/
def sflowSubAgent (pkt : Bytes) : Nat := if big (slice pkt 4 8) = 1 then big (slice pkt 12 16) else big (slice pkt 24 28)

theorem sflowCounts_total (valid : c.Valid) :
    ∃ subAgent n c', sflowCounts c = .ok ((subAgent, n, c'.err.isSome), c') ∧ Later c c' ∧
      (c'.err = none → c.err = none ∧ subAgent = big (slice c.b c.off (c.off + 4))) := by
  obtain ⟨subAgent, c₁, ran₁, later₁, clean₁⟩ := unsigned_total valid 4
  obtain ⟨c₂, ran₂, later₂, clean₂⟩ := skip_total later₁.valid 4
  obtain ⟨c₃, ran₃, later₃, clean₃⟩ := skip_total later₂.valid 4
  obtain ⟨n, c₄, ran₄, later₄, clean₄⟩ := unsigned_total later₃.valid 4
  refine ⟨subAgent, n, c₄, ?_, ((later₁.trans later₂).trans later₃).trans later₄, ?_⟩
  · unfold sflowCounts
    rw [Parsing.step (show u32 c = _ from ran₁), Parsing.step ran₂, Parsing.step ran₃, Parsing.step (show u32 c₃ = _ from ran₄)]
    rfl
  · intro unfailed
    obtain ⟨before, -, value⟩ := clean₁ (clean₂ (clean₃ (clean₄ unfailed).1).1).1
    exact ⟨before, value⟩

def SampledIn (pkt exporter : Bytes) (now : Int) (recs : List Record) : Prop :=
  ∃ samples : List SFlowSample, recs = samples.flatMap SFlowSample.recs ∧ samples.length ≤ sflowMaxSamples ∧
    SampledFrom pkt exporter (sflowSubAgent pkt) now 0 samples

theorem sampledIn_nil (pkt exporter : Bytes) (now : Int) : SampledIn pkt exporter now [] :=
  ⟨[], rfl, zero_le _, sampledFrom_nil _ _ _ _ _⟩

theorem sflowBody_total (exporter : Bytes) (now : Int) (valid : c.Valid) (addrLen : Nat)
    (agent : c.err = none → sflowSubAgent c.b = big (slice c.b (c.off + addrLen) (c.off + addrLen + 4))) :
    ∃ recs fault c', sflowBody exporter now addrLen c = .ok ((recs, fault), c') ∧ SampledIn c.b exporter now recs := by
  obtain ⟨c₁, ran₁, later₁, clean₁⟩ := skip_total valid addrLen
  obtain ⟨subAgent, n, c₂, ran₂, later₂, clean₂⟩ := sflowCounts_total later₁.valid
  unfold sflowBody
  rw [Parsing.step ran₁, Parsing.step ran₂]
  dsimp only
  split
  · exact ⟨[], _, c₂, rfl, sampledIn_nil _ _ _⟩
  rename_i unfailed
  split
  · exact ⟨[], _, c₂, rfl, sampledIn_nil _ _ _⟩
  obtain ⟨intact, value⟩ := clean₂ (by simpa using unfailed)
  obtain ⟨before, moved⟩ := clean₁ intact
  rw [Int.toNat_natCast] at moved
  rw [moved, later₁.octets, ← agent before] at value
  obtain ⟨fault, c', samples, ran, fewer, sampled⟩ := sflowSamples_total exporter subAgent now later₂.valid n 0 []
  rw [(later₁.trans later₂).octets, value] at sampled
  refine ⟨_, fault, c', ran, samples, rfl, fewer.trans ?_, sampled.mono (zero_le _)⟩
  omega

/-- The decoder returns for every datagram, and no sample sees the octets of another. -/
theorem decodeSFlow_total (pkt exporter : Bytes) (now : Int) :
    ∃ recs fault, decodeSFlow pkt exporter now = .ok (recs, fault) ∧ SampledIn pkt exporter now recs := by
  obtain ⟨v, c₁, ran₁, later₁, clean₁⟩ := unsigned_total (Cursor.valid_new pkt) 4
  obtain ⟨addrType, c₂, ran₂, later₂, clean₂⟩ := unsigned_total later₁.valid 4
  have octets : c₂.b = pkt := (later₁.trans later₂).octets
  have header (unfailed : c₂.err = none) : c₂.off = 8 ∧ addrType = big (slice pkt 4 8) := by
    obtain ⟨before, moved, value⟩ := clean₂ unfailed
    obtain ⟨-, moved₁, -⟩ := clean₁ before
    rw [later₁.octets] at value
    rw [moved₁] at moved value
    exact ⟨moved, value⟩
  have body addrLen (agent : c₂.err = none → sflowSubAgent pkt = big (slice pkt (8 + addrLen) (8 + addrLen + 4))) :
      ∃ recs fault, (sflowBody exporter now addrLen c₂).map Prod.fst = .ok (recs, fault) ∧ SampledIn pkt exporter now recs := by
    obtain ⟨recs, fault, c', ran, sampled⟩ := sflowBody_total exporter now later₂.valid addrLen fun unfailed => by
      rw [octets, (header unfailed).1]
      exact agent unfailed
    rw [ran, ← octets]
    exact ⟨recs, fault, rfl, sampled⟩
  unfold decodeSFlow sflowDatagram
  rw [Parsing.step (show u32 (.new pkt) = _ from ran₁)]
  split
  · exact ⟨[], _, rfl, sampledIn_nil _ _ _⟩
  rw [Parsing.step (show u32 c₁ = _ from ran₂)]
  split
  · rename_i one
    refine body 4 fun unfailed => ?_
    rw [sflowSubAgent, ← (header unfailed).2, if_pos one]
  · rename_i notOne
    split
    · refine body 16 fun unfailed => ?_
      rw [sflowSubAgent, ← (header unfailed).2, if_neg notOne]
    · exact ⟨[], _, rfl, sampledIn_nil _ _ _⟩

theorem SampledIn.length_le (sampled : SampledIn pkt exporter now recs) :
    recs.length ≤ sflowMaxSamples * sflowMaxRecords := by
  obtain ⟨samples, rfl, few, from'⟩ := sampled
  rw [length_flatMap]
  calc (samples.map fun s => s.recs.length).sum
      ≤ (samples.map fun s => s.recs.length).length • sflowMaxRecords := by
        apply sum_le_card_nsmul
        intro n mem
        obtain ⟨s, inside, rfl⟩ := mem_map.mp mem
        exact (from'.own s inside).bounded
    _ ≤ sflowMaxSamples * sflowMaxRecords := by
        rw [length_map]
        exact mul_le_mul_right _ few

end Probectl.Flow
