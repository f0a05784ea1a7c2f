import Probectl.Flow.Templates

/-! Flow records: `ie.go`, and `decodeData` of both decoders as far as it reads
the octets of a data set. -/
namespace Probectl.Flow

open Octets

inductive FlowProtocol where
  | netflow5 | netflow9 | ipfix | sflow5
  deriving DecidableEq

/-- The zero of `time.Time`, in nanoseconds of the Unix clock. -/
def zeroTime : Int := -62135596800 * 1000000000

/-- Times are nanoseconds of the Unix clock, an invalid address is `none`. -/
structure Record where
  exporter : Bytes
  observationDomain : Nat
  protocol : FlowProtocol
  observedAt : Int
  startTime : Int := zeroTime
  endTime : Int := zeroTime
  srcAddr : Option Bytes := none
  dstAddr : Option Bytes := none
  srcPort : Nat := 0
  dstPort : Nat := 0
  transport : Nat := 0
  inIf : Nat := 0
  outIf : Nat := 0
  vlan : Nat := 0
  tos : Nat := 0
  tcpFlags : Nat := 0
  nextHop : Option Bytes := none
  bytes : Nat := 0
  packets : Nat := 0
  samplingRate : Nat
  srcAS : Nat := 0
  dstAS : Nat := 0
  deriving DecidableEq

/-! Information elements. -/

def ieInBytes : Nat := 1
def ieInPackets : Nat := 2
def ieProtocol : Nat := 4
def ieTOS : Nat := 5
def ieTCPFlags : Nat := 6
def ieSrcPort : Nat := 7
def ieIPv4Src : Nat := 8
def ieIngressIf : Nat := 10
def ieDstPort : Nat := 11
def ieIPv4Dst : Nat := 12
def ieEgressIf : Nat := 14
def ieIPv4NextHop : Nat := 15
def ieSrcAS : Nat := 16
def ieDstAS : Nat := 17
def ieLastSwitched : Nat := 21
def ieFirstSwitched : Nat := 22
def ieOutBytes : Nat := 23
def ieOutPackets : Nat := 24
def ieIPv6Src : Nat := 27
def ieIPv6Dst : Nat := 28
def ieSamplingIvl : Nat := 34
def ieSamplerRandIvl : Nat := 50
def ieVLAN : Nat := 58
def ieIPv6NextHop : Nat := 62
def ieFlowStartSec : Nat := 150
def ieFlowEndSec : Nat := 151
def ieFlowStartMs : Nat := 152
def ieFlowEndMs : Nat := 153
def ieSamplingPktIvl : Nat := 305

def readUint (b : Bytes) : Nat := if 1 ≤ b.length ∧ b.length ≤ 8 then big b else 0

/-- Conversion to a signed number of 64 bits. -/
def wrapInt64 (n : Int) : Int := (n + 2 ^ 63) % 2 ^ 64 - 2 ^ 63

/-- IPFIX has no boot time. -/
structure IEClock where
  boot : Option Int
  exportTime : Int
  deriving DecidableEq

def IEClock.fromUptimeMS (clk : IEClock) (ms : Nat) : Int :=
  match clk.boot with
  | none => clk.exportTime
  | some boot => boot + wrapInt64 (wrapInt64 ms * 1000000)

def isSamplingElement (id : Nat) : Bool := id = ieSamplingIvl ∨ id = ieSamplerRandIvl ∨ id = ieSamplingPktIvl

/-- The record with one element applied, and the sampling rate that it carries. -/
def applyIE (rec : Record) (id : Nat) (val : Bytes) (clk : IEClock) : Record × Nat :=
  if id = ieInBytes ∨ id = ieOutBytes then ({ rec with bytes := (rec.bytes + readUint val) % 2 ^ 64 }, 0)
  else if id = ieInPackets ∨ id = ieOutPackets then ({ rec with packets := (rec.packets + readUint val) % 2 ^ 64 }, 0)
  else if id = ieProtocol then ({ rec with transport := readUint val % 2 ^ 8 }, 0)
  else if id = ieTOS then ({ rec with tos := readUint val % 2 ^ 8 }, 0)
  else if id = ieTCPFlags then ({ rec with tcpFlags := readUint val % 2 ^ 8 }, 0)
  else if id = ieSrcPort then ({ rec with srcPort := readUint val % 2 ^ 16 }, 0)
  else if id = ieDstPort then ({ rec with dstPort := readUint val % 2 ^ 16 }, 0)
  else if id = ieIngressIf then ({ rec with inIf := readUint val % 2 ^ 32 }, 0)
  else if id = ieEgressIf then ({ rec with outIf := readUint val % 2 ^ 32 }, 0)
  else if id = ieVLAN then ({ rec with vlan := readUint val % 2 ^ 16 }, 0)
  else if id = ieSrcAS then ({ rec with srcAS := readUint val % 2 ^ 32 }, 0)
  else if id = ieDstAS then ({ rec with dstAS := readUint val % 2 ^ 32 }, 0)
  else if id = ieIPv4Src then (if val.length = 4 then { rec with srcAddr := some val } else rec, 0)
  else if id = ieIPv4Dst then (if val.length = 4 then { rec with dstAddr := some val } else rec, 0)
  else if id = ieIPv4NextHop then (if val.length = 4 then { rec with nextHop := some val } else rec, 0)
  else if id = ieIPv6Src then (if val.length = 16 then { rec with srcAddr := some val } else rec, 0)
  else if id = ieIPv6Dst then (if val.length = 16 then { rec with dstAddr := some val } else rec, 0)
  else if id = ieIPv6NextHop then (if val.length = 16 then { rec with nextHop := some val } else rec, 0)
  else if id = ieFirstSwitched then ({ rec with startTime := clk.fromUptimeMS (readUint val) }, 0)
  else if id = ieLastSwitched then ({ rec with endTime := clk.fromUptimeMS (readUint val) }, 0)
  else if id = ieFlowStartSec then ({ rec with startTime := wrapInt64 (readUint val) * 1000000000 }, 0)
  else if id = ieFlowEndSec then ({ rec with endTime := wrapInt64 (readUint val) * 1000000000 }, 0)
  else if id = ieFlowStartMs then ({ rec with startTime := wrapInt64 (readUint val) * 1000000 }, 0)
  else if id = ieFlowEndMs then ({ rec with endTime := wrapInt64 (readUint val) * 1000000 }, 0)
  else if isSamplingElement id then (rec, readUint val)
  else (rec, 0)

def optionsSamplingRate (id : Nat) (val : Bytes) : Nat := if isSamplingElement id then readUint val else 0

/-! Data sets. -/

structure DataContext where
  exporter : Bytes
  domain : Nat
  now : Int
  clk : IEClock
  template : Template
  deriving DecidableEq

def DataContext.record (ctx : DataContext) (protocol : FlowProtocol) (rate : Nat) : Record :=
  { exporter := ctx.exporter
    observationDomain := ctx.domain
    protocol := protocol
    observedAt := ctx.now
    samplingRate := rate }

def DataContext.finish (ctx : DataContext) (rec : Record) (inline : Nat) : Record :=
  { rec with
    samplingRate := if inline > 0 then inline else rec.samplingRate
    startTime := if rec.startTime = zeroTime then ctx.clk.exportTime else rec.startTime
    endTime := if rec.endTime = zeroTime then ctx.clk.exportTime else rec.endTime }

structure Walk where
  recs : List Record
  rates : List Nat
  rows : Nat
  deriving DecidableEq

def maxRecordsPerPacket : Nat := 4096

def nf9Values : List TemplateField → Bytes → List (Nat × Bytes)
  | [], _ => []
  | f :: fields, row => (f.id, row.take f.length) :: nf9Values fields (row.drop f.length)

def applyValues (rec : Record) (clk : IEClock) (values : List (Nat × Bytes)) : Record × Nat :=
  values.foldl (fun (rec, inline) (id, val) =>
    let (rec, rate) := applyIE rec id val clk
    (rec, if rate > 0 then rate else inline)) (rec, 0)

def nf9Rates (values : List (Nat × Bytes)) : List Nat :=
  (values.map fun (id, val) => optionsSamplingRate id val).filter (· > 0)

def nf9Row (ctx : DataContext) (walk : Walk) (rate : Nat) (row : Bytes) : Walk × Nat :=
  let values := nf9Values ctx.template.fields row
  if ctx.template.options then
    ({ walk with rates := walk.rates ++ nf9Rates values, rows := walk.rows + 1 }, (nf9Rates values).getLast?.getD rate)
  else
    let (rec, inline) := applyValues (ctx.record .netflow9 rate) ctx.clk values
    ({ walk with recs := walk.recs ++ [ctx.finish rec inline], rows := walk.rows + 1 }, rate)

/-- NetFlow v9 has rows of a fixed width. -/
def nf9Loop (ctx : DataContext) : Loop (Walk × Nat × Bytes) Walk where
  body := fun (walk, rate, set) =>
    let width := ctx.template.fixedWidth
    if width = 0 ∨ set.length < width ∨ walk.recs.length ≥ maxRecordsPerPacket then .inr walk
    else
      let (walk, rate) := nf9Row ctx walk rate (set.take width)
      .inl (walk, rate, set.drop width)
  size := fun (_, _, set) => set.length
  shrinks := by
    rintro ⟨walk, rate, set⟩ t next
    dsimp only at next
    split at next
    · cases next
    · cases next
      simp only [List.length_drop]
      omega

def nf9Walk (ctx : DataContext) (rate : Nat) (recs : List Record) (set : Bytes) : Walk :=
  (nf9Loop ctx).run (⟨recs, [], 0⟩, rate, set)

structure FieldWalk where
  rest : Bytes
  record : Record
  inline : Nat
  rate : Nat
  rates : List Nat

def cutValue (n : Nat) (raw : Bytes) : Option (Bytes × Bytes) := if n > raw.length then none else some (raw.take n, raw.drop n)

/-- A value of variable length is preceded by its length, in one octet or three. -/
def ipfixValue (f : TemplateField) (raw : Bytes) : Option (Bytes × Bytes) :=
  if f.length = Template.variableLength then
    match raw with
    | [] => none
    | n :: rest =>
      if n = 255 then
        if rest.length < 2 then none else cutValue (big (rest.take 2)) (rest.drop 2)
      else cutValue n.toNat rest
  else cutValue f.length raw

def ipfixApply (ctx : DataContext) (f : TemplateField) (val : Bytes) (s : FieldWalk) : FieldWalk :=
  if f.enterprise ≠ 0 then s
  else if ctx.template.options then
    let rate := optionsSamplingRate f.id val
    if rate > 0 then { s with rate := rate, rates := s.rates ++ [rate] } else s
  else
    let (record, rate) := applyIE s.record f.id val ctx.clk
    { s with record := record, inline := if rate > 0 then rate else s.inline }

/-- The fields of one record; `false` where the set ends inside of one. -/
def ipfixRecord (ctx : DataContext) : List TemplateField → FieldWalk → FieldWalk × Bool
  | [], s => (s, true)
  | f :: fields, s =>
    match ipfixValue f s.rest with
    | none => (s, false)
    | some (val, rest) => ipfixRecord ctx fields { ipfixApply ctx f val s with rest := rest }

variable {raw val rest : Bytes}

theorem cutValue_le (read : cutValue n raw = some (val, rest)) : rest.length ≤ raw.length := by
  unfold cutValue at read
  split at read
  · cases read
  · cases read
    rw [List.length_drop]
    omega

theorem ipfixValue_le (read : ipfixValue f raw = some (val, rest)) :
    rest.length ≤ raw.length := by
  unfold ipfixValue at read
  split at read
  · split at read
    · cases read
    split at read
    · split at read
      · cases read
      have shorter := cutValue_le read
      rw [List.length_drop] at shorter
      rw [List.length_cons]
      omega
    · have shorter := cutValue_le read
      rw [List.length_cons]
      omega
  · exact cutValue_le read

theorem ipfixRecord_le (ctx : DataContext) (fields : List TemplateField) (s : FieldWalk) :
    (ipfixRecord ctx fields s).1.rest.length ≤ s.rest.length := by
  induction fields generalizing s with
  | nil => exact le_rfl
  | cons f fields ih =>
    rw [ipfixRecord]
    split
    · exact le_rfl
    · rename_i val rest read
      exact (ih _).trans (ipfixValue_le read)

def ipfixLoop (ctx : DataContext) : Loop (Walk × Nat × Bytes) Walk where
  body := fun (walk, rate, set) =>
    let t := ctx.template
    if walk.recs.length ≥ maxRecordsPerPacket ∨ (t.fixedWidth > 0 ∧ set.length < t.fixedWidth) ∨ set = [] ∨
        set.length < t.fields.length then
      .inr walk
    else
      let read := ipfixRecord ctx t.fields ⟨set, ctx.record .ipfix rate, 0, rate, []⟩
      let walk := { walk with rates := walk.rates ++ read.1.rates }
      if ¬ read.2 ∨ read.1.rest.length = set.length then .inr walk
      else if t.options then .inl (walk, read.1.rate, read.1.rest)
      else .inl ({ walk with recs := walk.recs ++ [ctx.finish read.1.record read.1.inline] }, read.1.rate, read.1.rest)
  size := fun (_, _, set) => set.length
  shrinks := by
    rintro ⟨walk, rate, set⟩ t next
    have le := ipfixRecord_le ctx ctx.template.fields ⟨set, ctx.record .ipfix rate, 0, rate, []⟩
    dsimp only at next le
    split at next
    · cases next
    split at next
    · cases next
    split at next
    all_goals
      cases next
      dsimp only
      omega

def ipfixWalk (ctx : DataContext) (rate : Nat) (recs : List Record) (set : Bytes) : Walk :=
  (ipfixLoop ctx).run (⟨recs, [], 0⟩, rate, set)

end Probectl.Flow
