import Probectl.Flow.Netflow5
import Probectl.Flow.Sflow
import Probectl.Flow.WireData
import Probectl.Flow.WireTemplates

/-! The decoder as it indexes its datagram (`decode.go`, `decode` of `netflow9.go` and
`ipfix.go`), and that it does what the decoder of whole byte strings does. -/
namespace Probectl.Flow

open Octets Checked Wire List Loop Tables Cursor Nat

/-! Headers. -/

structure Opened where
  packet : Packet
  sets : Cursor
  base : Nat

def nf9HeaderFields : Parsing (Nat × Nat × Nat × Option WireFault) := do
  skip 2
  let sysUptimeMS ← u32
  let unixSecs ← u32
  skip 4
  let domain ← u32
  let fault ← err
  pure (sysUptimeMS, unixSecs, domain, fault)

def nf9Open (pkt : Bytes) : Checked (Except FlowFault Opened) :=
  if pkt.length < nf9HeaderLen then pure (.error (.tooShort .netflow9 pkt.length))
  else do
    let (v, r) ← u16 (.new pkt)
    if v ≠ 9 then pure (.error (.unexpectedVersion .netflow9 v))
    else do
      let ((sysUptimeMS, unixSecs, domain, fault), r) ← nf9HeaderFields r
      match fault with
      | some fault => pure (.error (.other ("netflow9: header: " ++ fault.text)))
      | none =>
        let exportTime : Int := unixSecs * 1000000000
        pure (.ok ⟨⟨domain, ⟨some (exportTime - sysUptimeMS * 1000000), exportTime⟩, r.off, r.b.drop r.off⟩, r, 0⟩)

def ipfixHeaderFields : Parsing (Nat × Nat × Option WireFault) := do
  let exportSecs ← u32
  skip 4
  let domain ← u32
  let fault ← err
  pure (exportSecs, domain, fault)

def ipfixOpen (pkt : Bytes) : Checked (Except FlowFault Opened) :=
  if pkt.length < ipfixHeaderLen then pure (.error (.tooShort .ipfix pkt.length))
  else do
    let (v, r) ← u16 (.new pkt)
    if v ≠ 10 then pure (.error (.unexpectedVersion .ipfix v))
    else do
      let (msgLen, r) ← u16 r
      if msgLen < ipfixHeaderLen ∨ msgLen > pkt.length then pure (.error (.badMessageLength msgLen pkt.length))
      else do
        let ((exportSecs, domain, fault), _) ← ipfixHeaderFields r
        match fault with
        | some fault => pure (.error (.other ("ipfix: header: " ++ fault.text)))
        | none => do
          let msg ← cut pkt ipfixHeaderLen msgLen
          pure (.ok ⟨⟨domain, ⟨none, exportSecs * 1000000000⟩, ipfixHeaderLen, msg⟩, .new msg, ipfixHeaderLen⟩)

def Opens (opened : Bytes → Checked (Except FlowFault Opened)) (header : Bytes → Except FlowFault Packet) : Prop :=
  ∀ pkt, (∃ fault, opened pkt = .ok (.error fault) ∧ header pkt = .error fault) ∨
    ∃ o : Opened, opened pkt = .ok (.ok o) ∧ header pkt = .ok o.packet ∧ Ready o.sets o.packet.sets ∧
      o.base + o.sets.off = o.packet.offset ∧ o.packet.sets.length ≤ pkt.length

theorem nf9Open_opens : Opens nf9Open nf9Header := by
  intro pkt
  unfold nf9Open nf9Header
  by_cases short : pkt.length < nf9HeaderLen
  · rw [if_pos short, if_pos short]
    exact .inl ⟨_, rfl, rfl⟩
  have long : 20 ≤ pkt.length := Nat.le_of_not_lt short
  have start := ready_new pkt
  rw [if_neg short, step (start.u16 (by omega))]
  dsimp only
  split
  · exact .inl ⟨_, rfl, rfl⟩
  have fields : nf9HeaderFields ((new pkt).advance 2) =
      .ok ((big (slice pkt 4 8), big (slice pkt 8 12), big (slice pkt 16 20), none), (new pkt).advance 20) := by
    unfold nf9HeaderFields u32
    simp (disch := omega) only [skip_bind, unsigned_bind, Nat.reduceAdd]
    rfl
  rw [step fields]
  refine .inr ⟨_, rfl, rfl, start.advance long, zero_add _, ?_⟩
  rw [length_drop]
  exact sub_le _ _

theorem ipfixOpen_opens : Opens ipfixOpen ipfixHeader := by
  intro pkt
  unfold ipfixOpen ipfixHeader
  by_cases short : pkt.length < ipfixHeaderLen
  · rw [if_pos short, if_pos short]
    exact .inl ⟨_, rfl, rfl⟩
  have long : 16 ≤ pkt.length := Nat.le_of_not_lt short
  have start := ready_new pkt
  rw [if_neg short, step (start.u16 (by omega))]
  dsimp only
  split
  · exact .inl ⟨_, rfl, rfl⟩
  have length : u16 ((new pkt).advance 2) = .ok (big (slice pkt 2 4), (new pkt).advance 4) :=
    unsigned_new (show 2 + 2 ≤ pkt.length by omega)
  rw [step length]
  split
  · exact .inl ⟨_, rfl, rfl⟩
  have fields : ipfixHeaderFields ((new pkt).advance 4) =
      .ok ((big (slice pkt 4 8), big (slice pkt 12 16), none), (new pkt).advance 16) := by
    unfold ipfixHeaderFields u32
    simp (disch := omega) only [skip_bind, unsigned_bind, Nat.reduceAdd]
    rfl
  rw [step fields]
  rw [step (cut_ok (by omega) (show big (slice pkt 2 4) ≤ pkt.length by omega))]
  refine .inr ⟨_, rfl, rfl, ready_new _, add_zero _, ?_⟩
  rw [slice_length]
  omega

/-! Sets. -/

/-- How a protocol indexes what its dialect reads. -/
structure WireDialect (p : Dialect) where
  opened : Bytes → Checked (Except FlowFault Opened)
  template : Parsing (Option (Nat × Template))
  optionsTemplate : Parsing (Option (Nat × Template))
  data : Nat → DataContext → (Tables → Nat → Tables) → Tables → Nat → List Record → Bytes →
    Checked (Tables × List Record × Nat)
  /-- before the text of a cursor's error -/
  label : String
  opens : Opens opened p.header
  template_reads : Reads template p.templates
  optionsTemplate_reads : Reads optionsTemplate p.optionsTemplates
  data_walks : ∀ {fuel} ctx learn s rate recs body, body.length < fuel →
    ∃ out, data fuel ctx learn s rate recs body = .ok out ∧ Finishes learn s out (p.walk ctx rate recs body)

def nf9Wire : WireDialect nf9 where
  opened := nf9Open
  template := nf9Template
  optionsTemplate := nf9OptionsTemplate
  data := nf9Data
  label := "netflow9: "
  opens := nf9Open_opens
  template_reads := nf9Template_reads
  optionsTemplate_reads := nf9OptionsTemplate_reads
  data_walks ctx learn s rate recs body enough := nf9Data_ok learn ctx s rate recs body enough

def ipfixWire : WireDialect ipfix where
  opened := ipfixOpen
  template := ipfixTemplate false
  optionsTemplate := ipfixTemplate true
  data := ipfixData
  label := "ipfix: "
  opens := ipfixOpen_opens
  template_reads := ipfixTemplate_reads false
  optionsTemplate_reads := ipfixTemplate_reads true
  data_walks ctx learn s rate recs body enough := ipfixData_ok learn s ctx rate recs body enough

structure SetsWalk where
  tables : Tables
  recs : List Record
  misses : Nat
  sets : Cursor

namespace WireDialect

variable {p : Dialect} (w : WireDialect p) (fuel : Nat) (r : Reading)

def parseTemplates (template : Parsing (Option (Nat × Template))) (s : Tables) (body : Bytes) : Checked Tables :=
  forever (eachRecord template fun s record => s.put r.datagram.env (r.key record.1) record.2) fuel (s, .new body)

def decodeData (s : Tables) (recs : List Record) (id : Nat) (body : Bytes) : Checked (Tables × List Record × Nat × Nat) :=
  match s.get r.datagram.env (r.key id) with
  | (none, s) => pure (s, recs, 0, 1)
  | (some t, s) => do
    let (s, recs, n) ← w.data fuel (r.context t) (setRate r.datagram.exporter r.packet.domain) s
      (s.rate r.datagram.exporter r.packet.domain) recs body
    pure (s, recs, n, 0)

def decodeSet (s : Tables) (recs : List Record) (misses id : Nat) (body : Bytes) : Checked (Tables × List Record × Nat × Bool) :=
  if id = p.templateSet then do
    let s ← parseTemplates fuel r w.template s body
    pure (s, recs, misses, false)
  else if id = p.optionsSet then do
    let s ← parseTemplates fuel r w.optionsTemplate s body
    pure (s, recs, misses, false)
  else if id ≥ 256 then do
    let (s, recs, n, miss) ← w.decodeData fuel r s recs id body
    pure (s, recs, misses + miss, decide (n > maxRecordsPerPacket))
  else pure (s, recs, misses, false)

def setsRound (base : Nat) (st : SetsWalk) : Checked (SetsWalk ⊕ (Tables × Decoded)) :=
  if st.sets.remaining < 4 then
    pure (.inr (st.tables, ⟨st.recs, st.misses, st.sets.err.map fun fault => .other (w.label ++ fault.text)⟩))
  else do
    let setOffset := base + st.sets.off
    let (setID, c) ← u16 st.sets
    let (setLen, c) ← u16 c
    if setLen < 4 ∨ setLen - 4 > c.remaining then
      pure (.inr (st.tables, ⟨st.recs, st.misses, some (.badSetLength p.protocol setLen setOffset)⟩))
    else do
      let (body, c) ← bytes ((setLen - 4 : Nat) : Int) c
      let (s, recs, misses, exceeded) ← w.decodeSet fuel r st.tables st.recs st.misses setID (body.getD [])
      if exceeded then pure (.inr (s, ⟨recs, misses, some .recordBound⟩)) else pure (.inl ⟨s, recs, misses, c⟩)

end WireDialect

def decodePacketWire {p : Dialect} (w : WireDialect p) (fuel : Nat) (s : Tables) (d : Datagram) : Checked (Tables × Decoded) := do
  let header ← w.opened d.pkt
  match header with
  | .error fault => pure (s, ⟨[], 0, some fault⟩)
  | .ok o => forever (w.setsRound fuel ⟨d, o.packet⟩ o.base) fuel ⟨s, [], 0, o.sets⟩

def unrecognized (s : Tables) (d : Datagram) : Checked (Tables × Decoded) := do
  let first ← cut d.pkt 0 4
  pure (s, ⟨[], 0, some (.unrecognized first)⟩)

/-- `Decode`, with fuel for each of its loops. -/
def decodeWire (fuel : Nat) (s : Tables) (d : Datagram) : Checked (Tables × Decoded) :=
  let s := { s with tick := 0 }
  if d.pkt.length < 4 then pure (s, ⟨[], 0, some (.datagramTooShort d.pkt.length)⟩)
  else do
    let version ← uintAt 2 d.pkt 0
    if version = 5 then do
      let (recs, fault) ← decodeNetFlow5 d.pkt d.exporter d.now
      pure (s, ⟨recs, 0, fault⟩)
    else if version = 9 then decodePacketWire nf9Wire fuel s d
    else if version = 10 then decodePacketWire ipfixWire fuel s d
    else if version = 0 then do
      let long ← uintAt 4 d.pkt 0
      if long = 5 then do
        let (recs, fault) ← decodeSFlow d.pkt d.exporter d.now
        pure (s, ⟨recs, 0, fault⟩)
      else unrecognized s d
    else unrecognized s d

/-! The tables without what an observer notes of them. -/

namespace Tables

def forget (s : Tables) : Tables := { s with log := [] }

variable {s u : Tables}

theorem forget_put (same : s.forget = u.forget) (env : Env) (key : TemplateKey) (t : Template) :
    (s.put env key t).forget = (u.put env key t).forget :=
  congrArg (fun s => (s.put env key t).forget) same

theorem forget_putAll (r : Reading) (same : s.forget = u.forget) (records : List (Nat × Template)) :
    (s.putAll r records).forget = (u.putAll r records).forget := by
  induction records generalizing s u with
  | nil => exact same
  | cons record rest ih => exact ih (forget_put same _ _ _)

theorem forget_refuseAll (r : Reading) (s : Tables) (records : List (Nat × Template)) :
    (s.refuseAll r records).forget = s.forget := by
  induction records generalizing s with
  | nil => rfl
  | cons record rest ih => exact ih _

theorem forget_parseTemplates (r : Reading) (s : Tables) (taken sent : Reader UInt8 (Nat × Template)) (body : Bytes) :
    (s.parseTemplates r taken sent body).forget = (s.putAll r (taken.all body)).forget :=
  forget_refuseAll r _ _

theorem forget_skipSets (r : Reading) (p : Dialect) (s : Tables) (sets : List (Nat × Bytes)) :
    (s.skipSets r p sets).forget = s.forget := by
  induction sets generalizing s with
  | nil => rfl
  | cons set rest ih =>
    rw [skipSets, foldl_cons]
    refine (ih _).trans ?_
    split
    · exact forget_refuseAll r s _
    split
    · exact forget_refuseAll r s _
    · rfl

section
variable (same : s.forget = u.forget)
include same

theorem forget_get (env : Env) (key : TemplateKey) :
    (s.get env key).1 = (u.get env key).1 ∧ (s.get env key).2.forget = (u.get env key).2.forget := by
  exact ⟨congrArg (fun s => (s.get env key).1) same, congrArg (fun s => (s.get env key).2.forget) same⟩

theorem forget_rate (exporter : Bytes) (domain : Nat) : s.rate exporter domain = u.rate exporter domain :=
  (congrArg (Tables.rate · exporter domain) same :)

theorem forget_setRate (exporter : Bytes) (domain rate : Nat) :
    (setRate exporter domain s rate).forget = (setRate exporter domain u rate).forget := by
  have kept s : (setRate exporter domain s rate).forget = (setRate exporter domain s.forget rate).forget := by
    unfold setRate
    split <;> rfl
  rw [kept, kept u, same]

theorem forget_setRates (exporter : Bytes) (domain : Nat) (rates : List Nat) :
    (rates.foldl (setRate exporter domain) s).forget = (rates.foldl (setRate exporter domain) u).forget := by
  induction rates generalizing s u with
  | nil => exact same
  | cons rate rest ih => exact ih (forget_setRate same exporter domain rate)

end

end Tables

/-! The walk over the sets. -/

section Frames

abbrev setLen (raw : Bytes) : Nat := big (slice raw 2 4)

abbrev BadSet (raw : Bytes) : Prop := setLen raw < 4 ∨ setLen raw > raw.length

variable {offset : Nat} {raw : Bytes}

variable (protocol : FlowProtocol)

theorem setsLoop_out (out : List (Nat × Bytes)) (offset : Nat) (raw : Bytes) :
    (setsLoop protocol).run (out, offset, raw) =
      (out ++ ((setsLoop protocol).run ([], offset, raw)).1, ((setsLoop protocol).run ([], offset, raw)).2) := by
  induction size : raw.length using Nat.strongRecOn generalizing out offset raw with
  | ind n ih =>
    by_cases short : raw.length < 4
    · rw [run_exit (if_pos short), run_exit (if_pos short), append_nil]
    by_cases bad : BadSet raw
    · rw [run_exit ((if_neg short).trans (if_pos bad)), run_exit ((if_neg short).trans (if_pos bad)), append_nil]
    have shorter : (raw.drop (setLen raw)).length < n := by
      rw [length_drop]
      omega
    have next (out : List (Nat × Bytes)) : (setsLoop protocol).run (out, offset, raw) =
        (setsLoop protocol).run (out ++ [_], _, raw.drop _) := run_next ((if_neg short).trans (if_neg bad))
    rw [next, next, ih _ shorter _ _ _ rfl, ih _ shorter ([] ++ [_]) _ _ rfl]
    simp

theorem setsLoop_end (short : raw.length < 4) : (setsLoop protocol).run ([], offset, raw) = ([], none) :=
  run_exit (if_pos short)

theorem setsLoop_bad (long : ¬raw.length < 4) (bad : BadSet raw) :
    (setsLoop protocol).run ([], offset, raw) = ([], some (.badSetLength protocol (setLen raw) offset)) :=
  run_exit ((if_neg long).trans (if_pos bad))

theorem setsLoop_next (long : ¬raw.length < 4)
    (good : ¬BadSet raw) :
    (setsLoop protocol).run ([], offset, raw) =
      ((big (raw.take 2), slice raw 4 (setLen raw)) ::
        ((setsLoop protocol).run ([], offset + setLen raw, raw.drop (setLen raw))).1,
        ((setsLoop protocol).run ([], offset + setLen raw, raw.drop (setLen raw))).2) := by
  rw [run_next ((if_neg long).trans (if_neg good)), setsLoop_out]
  rfl

end Frames

namespace Tables

variable (r : Reading) (p : Dialect)

def walkSets (u : Tables) (recs : List Record) (misses offset : Nat) (raw : Bytes) : Tables × Decoded :=
  let framed := (setsLoop p.protocol).run ([], offset, raw)
  let decoded := decodeSets r p u recs misses framed.1
  (decoded.1, { decoded.2 with fault := decoded.2.fault.or framed.2 })

end Tables

def Agrees (x y : Tables × Decoded) : Prop := x.1.forget = y.1.forget ∧ x.2 = y.2

namespace WireDialect

variable {p : Dialect} (w : WireDialect p) (fuel : Nat) (r : Reading) {body : Bytes}

theorem parseTemplates_ok {template : Parsing (Option (Nat × Template))}
    (reads : Reads template taken) (s : Tables) (enough : body.length < fuel) :
    parseTemplates fuel r template s body = .ok (s.putAll r (taken.all body)) :=
  reads.all _ (ready_new body) enough s

variable {s u : Tables}

theorem decodeData_ok (same : s.forget = u.forget) (recs : List Record) (id : Nat) (enough : body.length < fuel) :
    ∃ s', w.decodeData fuel r s recs id body =
        .ok (s', (u.decodeData r p recs id body).2.1.recs, (u.decodeData r p recs id body).2.1.rows,
          (u.decodeData r p recs id body).2.2) ∧
      s'.forget = (u.decodeData r p recs id body).1.forget := by
  obtain ⟨found, fetched⟩ := forget_get same r.datagram.env (r.key id)
  unfold decodeData Tables.decodeData
  generalize s.get r.datagram.env (r.key id) = here at found fetched
  generalize u.get r.datagram.env (r.key id) = there at found fetched
  obtain ⟨t, s₁⟩ := here
  obtain ⟨t', u₁⟩ := there
  subst found
  cases t with
  | none => exact ⟨s₁, rfl, fetched⟩
  | some t =>
    obtain ⟨out, ran, ends⟩ := w.data_walks (r.context t) (setRate r.datagram.exporter r.packet.domain) s₁
      (s₁.rate r.datagram.exporter r.packet.domain) recs body enough
    subst ends
    dsimp only
    rw [step ran, forget_rate fetched]
    exact ⟨_, rfl, forget_setRates fetched _ _ _⟩

theorem decodeSet_ok (same : s.forget = u.forget) (recs : List Record) (misses id : Nat) (enough : body.length < fuel) :
    ∃ s', w.decodeSet fuel r s recs misses id body = .ok (s', (u.decodeSet r p recs misses id body).2) ∧
      s'.forget = (u.decodeSet r p recs misses id body).1.forget := by
  unfold decodeSet Tables.decodeSet
  split
  · rw [step (parseTemplates_ok fuel r w.template_reads s enough)]
    refine ⟨_, rfl, ?_⟩
    rw [forget_parseTemplates]
    exact forget_putAll r same _
  split
  · rw [step (parseTemplates_ok fuel r w.optionsTemplate_reads s enough)]
    refine ⟨_, rfl, ?_⟩
    rw [forget_parseTemplates]
    exact forget_putAll r same _
  split
  · obtain ⟨s', ran, kept⟩ := w.decodeData_ok fuel r same recs id enough
    rw [step ran]
    exact ⟨s', rfl, kept⟩
  · exact ⟨s, rfl, same⟩

section Round
variable {base : Nat} {st : SetsWalk} {raw : Bytes}

theorem setsRound_end (ready : Ready st.sets raw) (short : raw.length < 4) :
    w.setsRound fuel r base st = .ok (.inr (st.tables, ⟨st.recs, st.misses, none⟩)) := by
  unfold setsRound
  rw [if_pos (by rw [ready.remaining]; exact short), ready.err]
  rfl

theorem setsRound_bad (ready : Ready st.sets raw) (long : ¬raw.length < 4)
    (bad : BadSet raw) :
    w.setsRound fuel r base st = .ok (.inr (st.tables,
      ⟨st.recs, st.misses, some (.badSetLength p.protocol (setLen raw) (base + st.sets.off))⟩)) := by
  obtain ⟨first, length, third⟩ := ready.words (by omega)
  have beyond : setLen raw < 4 ∨ setLen raw - 4 > ((st.sets.advance 2).advance 2).remaining := by
    rw [third.remaining, length_drop]
    omega
  unfold setsRound
  rw [if_neg (by rw [ready.remaining]; exact long), step first]
  dsimp only
  rw [step length]
  rw [if_pos beyond]
  rfl

theorem setsRound_set (base : Nat) (ready : Ready st.sets raw) (long : ¬raw.length < 4)
    (good : ¬BadSet raw)
    (set : w.decodeSet fuel r st.tables st.recs st.misses (big (raw.take 2)) (slice raw 4 (setLen raw)) =
      .ok (s', recs, misses, exceeded)) :
    ∃ c, Ready c (raw.drop (setLen raw)) ∧ c.off = st.sets.off + setLen raw ∧
      w.setsRound fuel r base st =
        .ok (if exceeded then .inr (s', ⟨recs, misses, some .recordBound⟩) else .inl ⟨s', recs, misses, c⟩) := by
  obtain ⟨first, length, third⟩ := ready.words (by omega)
  have within : ¬(setLen raw < 4 ∨ setLen raw - 4 > ((st.sets.advance 2).advance 2).remaining) := by
    rw [third.remaining, length_drop]
    omega
  have fits : setLen raw - 4 ≤ (raw.drop 4).length := by
    rw [length_drop]
    omega
  refine ⟨((st.sets.advance 2).advance 2).advance (setLen raw - 4), ?_, ?_, ?_⟩
  · have further := third.advance fits
    rw [drop_drop, show 4 + (setLen raw - 4) = setLen raw by omega] at further
    exact further
  · simp only [advance]
    omega
  · have body : (raw.drop 4).take (setLen raw - 4) = slice raw 4 (setLen raw) := rfl
    unfold setsRound
    rw [if_neg (by rw [ready.remaining]; exact long), step first]
    dsimp only
    rw [step length]
    rw [if_neg within, step (third.bytes fits)]
    dsimp only [Option.getD_some]
    rw [body, step set]
    cases exceeded <;> rfl

end Round

theorem sets_ok {raw : Bytes} (ready : Ready st.sets raw)
    (same : st.tables.forget = u.forget) (enough : raw.length < left) (inner : raw.length < fuel) :
    ∃ out, forever (w.setsRound fuel r base) left st = .ok out ∧
      Agrees out (u.walkSets r p st.recs st.misses (base + st.sets.off) raw) := by
  induction left generalizing st u raw with
  | zero => cases enough
  | succ left ih =>
    unfold walkSets
    by_cases short : raw.length < 4
    · rw [forever_exit (w.setsRound_end fuel r ready short), setsLoop_end p.protocol short]
      exact ⟨_, rfl, same, rfl⟩
    by_cases bad : BadSet raw
    · rw [forever_exit (w.setsRound_bad fuel r ready short bad), setsLoop_bad p.protocol short bad]
      exact ⟨_, rfl, same, rfl⟩
    have bodyLength : (slice raw 4 (setLen raw)).length < fuel := by
      rw [slice_length]
      omega
    obtain ⟨s', ran, kept⟩ := w.decodeSet_ok fuel r same st.recs st.misses (big (raw.take 2)) bodyLength
    rcases set : u.decodeSet r p st.recs st.misses (big (raw.take 2)) (slice raw 4 (setLen raw)) with
      ⟨u', recs, misses, exceeded⟩
    rw [set] at ran kept
    obtain ⟨c, further, moved, round⟩ := w.setsRound_set fuel r base ready short bad ran
    rw [setsLoop_next p.protocol short bad]
    dsimp only
    rw [decodeSets_cons r p set]
    cases exceeded with
    | true =>
      rw [forever_exit round]
      refine ⟨_, rfl, ?_, rfl⟩
      rw [if_pos rfl, forget_skipSets]
      exact kept
    | false =>
      have shorter : (raw.drop (setLen raw)).length < raw.length := by
        rw [length_drop]
        omega
      have rest := @ih u' ⟨s', recs, misses, c⟩ _ further kept (shorter.trans_le (le_of_lt_succ enough)) (shorter.trans inner)
      rw [forever_next round, add_assoc, ← moved]
      exact rest

end WireDialect

theorem decodePacketWire_ok (w : WireDialect p) (s : Tables) (d : Datagram)
    (enough : d.pkt.length < fuel) : ∃ out, decodePacketWire w fuel s d = .ok out ∧ Agrees out (decodePacket p s d) := by
  unfold decodePacketWire decodePacket
  rcases w.opens d.pkt with ⟨fault, opened, header⟩ | ⟨o, opened, header, ready, offset, inside⟩
  · rw [step opened, header]
    exact ⟨_, rfl, rfl, rfl⟩
  rw [step opened, header]
  have short : o.packet.sets.length < fuel := by omega
  have same : (⟨s, [], 0, o.sets⟩ : SetsWalk).tables.forget = s.forget := rfl
  obtain ⟨out, ran, agrees⟩ := w.sets_ok fuel ⟨d, o.packet⟩ ready same short short
  rw [offset] at agrees
  exact ⟨out, ran, agrees⟩

end Probectl.Flow
