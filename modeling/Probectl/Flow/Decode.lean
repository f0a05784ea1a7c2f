import Probectl.Flow.Records
import Probectl.Lib.Text

/-! The decoder that all listeners share: `decode.go`, the set walks of
`netflow9.go` and `ipfix.go`, and the sampling table of `templates.go`. NetFlow v5
and sFlow keep no state and are parameters. -/
namespace Probectl.Flow

open Octets List Strings

/-! The sampling table. -/

def itoa32 (v : Nat) : Bytes := if v = 0 then [48] else ((Nat.digits 10 v).reverse).map fun d => UInt8.ofNat (48 + d)

def samplingKey (exporter : Bytes) (domain : Nat) : Bytes := exporter ++ 124 :: itoa32 domain

theorem itoa32_injective : Function.Injective itoa32 := Text.decimal_injective

theorem separator_not_mem_itoa32 (v : Nat) : 124 ∉ itoa32 v := by
  intro mem
  exact absurd (Text.decimal_digit mem).2 (by decide)

theorem samplingKey_injective
    (same : samplingKey exporter domain = samplingKey exporter' domain') : exporter = exporter' ∧ domain = domain' := by
  have reversed := congrArg reverse same
  simp only [samplingKey, reverse_append, reverse_cons, append_assoc] at reversed
  obtain ⟨numbers, names⟩ := separated_injective (by simpa using separator_not_mem_itoa32 domain)
    (by simpa using separator_not_mem_itoa32 domain') reversed
  exact ⟨reverse_injective names, itoa32_injective (reverse_injective numbers)⟩

/-! The shared tables. -/

/-- What the environment decides while one datagram is decoded: the clock at each
access to the templates, and the order in which a full cache is searched. -/
structure Env where
  clock : Nat → Int
  order : Nat → List TemplateEntry → List TemplateEntry
  order_perm : ∀ n entries, (order n entries).Perm entries

/-- What has happened to the tables. `held` is the template that the cache had
under the key of a received one. -/
inductive TableOp where
  | receive (key : TemplateKey) (t : Template) (stored : Bool) (held : Option Template) (evicts : Bool)
  | fetch (key : TemplateKey) (found : Option Template)
  | sample (key : Bytes) (rate : Nat) (resets : Bool)
  deriving DecidableEq

structure Tables where
  templates : TemplateCache
  sampling : AList fun _ : Bytes => Nat
  tick : Nat
  log : List TableOp

def maxSamplingKeys : Nat := 65536

namespace Tables

def held (s : Tables) (key : TemplateKey) : Option Template := (s.templates.m.lookup key).map (·.template)

def put (env : Env) (s : Tables) (key : TemplateKey) (t : Template) : Tables :=
  { s with
    templates := s.templates.put key t (env.clock s.tick) (env.order s.tick)
    tick := s.tick + 1
    log := s.log ++ [.receive key t (TemplateCache.storable t) (s.held key) (s.templates.evicts key t)] }

def refuse (s : Tables) (key : TemplateKey) (t : Template) : Tables :=
  { s with log := s.log ++ [.receive key t false (s.held key) false] }

def get (env : Env) (s : Tables) (key : TemplateKey) : Option Template × Tables :=
  let (found, templates) := s.templates.get key (env.clock s.tick)
  (found, { s with templates := templates, tick := s.tick + 1, log := s.log ++ [.fetch key found] })

def rate (s : Tables) (exporter : Bytes) (domain : Nat) : Nat := (s.sampling.lookup (samplingKey exporter domain)).getD 0

def resets (s : Tables) : Bool := s.sampling.keys.length > maxSamplingKeys

def setRate (exporter : Bytes) (domain : Nat) (s : Tables) (rate : Nat) : Tables :=
  if rate = 0 then s
  else
    let sampling := if s.resets then ∅ else s.sampling
    { s with
      sampling := sampling.insert (samplingKey exporter domain) rate
      log := s.log ++ [.sample (samplingKey exporter domain) rate s.resets] }

end Tables

/-! The two template protocols. -/

inductive FlowFault where
  | datagramTooShort (length : Nat)
  | unrecognized (first : Bytes)
  | tooShort (protocol : FlowProtocol) (length : Nat)
  | unexpectedVersion (protocol : FlowProtocol) (version : Nat)
  | badMessageLength (length available : Nat)
  | badSetLength (protocol : FlowProtocol) (length offset : Nat)
  | recordBound
  | other (text : String)
  deriving DecidableEq

structure Packet where
  domain : Nat
  clk : IEClock
  offset : Nat
  sets : Bytes
  deriving DecidableEq

/-- What the decoders of NetFlow v9 and IPFIX differ in. What is sent in a
template set and what the decoder takes of it are two readers. -/
structure Dialect where
  protocol : FlowProtocol
  header : Bytes → Except FlowFault Packet
  templateSet : Nat
  optionsSet : Nat
  templates : Reader UInt8 (Nat × Template)
  optionsTemplates : Reader UInt8 (Nat × Template)
  received : Reader UInt8 (Nat × Template)
  optionsReceived : Reader UInt8 (Nat × Template)
  templates_eq : templates = received.only acceptable
  optionsTemplates_eq : optionsTemplates = optionsReceived.only acceptable
  walk : DataContext → Nat → List Record → Bytes → Walk

def nf9HeaderLen : Nat := 20
def ipfixHeaderLen : Nat := 16

def nf9Header (pkt : Bytes) : Except FlowFault Packet :=
  if pkt.length < nf9HeaderLen then .error (.tooShort .netflow9 pkt.length)
  else if big (pkt.take 2) ≠ 9 then .error (.unexpectedVersion .netflow9 (big (pkt.take 2)))
  else
    let exportTime : Int := big (slice pkt 8 12) * 1000000000
    let boot := exportTime - big (slice pkt 4 8) * 1000000
    .ok ⟨big (slice pkt 16 20), ⟨some boot, exportTime⟩, nf9HeaderLen, pkt.drop nf9HeaderLen⟩

def ipfixHeader (pkt : Bytes) : Except FlowFault Packet :=
  if pkt.length < ipfixHeaderLen then .error (.tooShort .ipfix pkt.length)
  else if big (pkt.take 2) ≠ 10 then .error (.unexpectedVersion .ipfix (big (pkt.take 2)))
  else
    let msgLen := big (slice pkt 2 4)
    if msgLen < ipfixHeaderLen ∨ msgLen > pkt.length then .error (.badMessageLength msgLen pkt.length)
    else
      .ok ⟨big (slice pkt 12 16), ⟨none, big (slice pkt 4 8) * 1000000000⟩, ipfixHeaderLen, slice pkt ipfixHeaderLen msgLen⟩

def nf9 : Dialect where
  protocol := .netflow9
  header := nf9Header
  templateSet := 0
  optionsSet := 1
  templates := nf9Templates
  optionsTemplates := nf9OptionsTemplates
  received := nf9Received
  optionsReceived := nf9OptionsReceived
  templates_eq := nf9Templates_eq
  optionsTemplates_eq := nf9OptionsTemplates_eq
  walk := nf9Walk

/-- IPFIX counts no rows, so that the bound on them never ends its walk. -/
def ipfix : Dialect where
  protocol := .ipfix
  header := ipfixHeader
  templateSet := 2
  optionsSet := 3
  templates := ipfixTemplates false
  optionsTemplates := ipfixTemplates true
  received := ipfixReceived false
  optionsReceived := ipfixReceived true
  templates_eq := ipfixTemplates_eq false
  optionsTemplates_eq := ipfixTemplates_eq true
  walk := ipfixWalk

/-- The sets of a packet, and the length that ends the walk over them. -/
def setsLoop (protocol : FlowProtocol) : Loop (List (Nat × Bytes) × Nat × Bytes) (List (Nat × Bytes) × Option FlowFault) where
  body := fun (out, offset, raw) =>
    let setID := big (raw.take 2)
    let setLen := big (slice raw 2 4)
    if raw.length < 4 then .inr (out, none)
    else if setLen < 4 ∨ setLen > raw.length then .inr (out, some (.badSetLength protocol setLen offset))
    else .inl (out ++ [(setID, slice raw 4 setLen)], offset + setLen, raw.drop setLen)
  size := fun (_, _, raw) => raw.length
  shrinks := by
    rintro ⟨out, offset, raw⟩ t next
    dsimp only at next
    split at next
    · cases next
    split at next
    · cases next
    · cases next
      simp only [length_drop]
      omega

def Packet.framed (packet : Packet) (protocol : FlowProtocol) : List (Nat × Bytes) × Option FlowFault :=
  (setsLoop protocol).run ([], packet.offset, packet.sets)

/-! One datagram. -/

structure Datagram where
  exporter : Bytes
  pkt : Bytes
  now : Int
  env : Env

structure Decoded where
  recs : List Record
  misses : Nat
  fault : Option FlowFault
  deriving DecidableEq

structure Reading where
  datagram : Datagram
  packet : Packet

namespace Reading

def key (r : Reading) (id : Nat) : TemplateKey := ⟨r.datagram.exporter, r.packet.domain, id⟩

def context (r : Reading) (t : Template) : DataContext :=
  ⟨r.datagram.exporter, r.packet.domain, r.datagram.now, r.packet.clk, t⟩

end Reading

namespace Tables

variable (r : Reading)

def putAll (s : Tables) (records : List (Nat × Template)) : Tables :=
  records.foldl (fun s record => s.put r.datagram.env (r.key record.1) record.2) s

def refuseAll (s : Tables) (records : List (Nat × Template)) : Tables :=
  records.foldl (fun s record => s.refuse (r.key record.1) record.2) s

def parseTemplates (s : Tables) (taken sent : Reader UInt8 (Nat × Template)) (body : Bytes) : Tables :=
  (s.putAll r (taken.all body)).refuseAll r ((sent.all body).drop (taken.all body).length)

def decodeData (p : Dialect) (s : Tables) (recs : List Record) (id : Nat) (body : Bytes) : Tables × Walk × Nat :=
  match s.get r.datagram.env (r.key id) with
  | (none, s) => (s, ⟨recs, [], 0⟩, 1)
  | (some t, s) =>
    let walk := p.walk (r.context t) (s.rate r.datagram.exporter r.packet.domain) recs body
    (walk.rates.foldl (setRate r.datagram.exporter r.packet.domain) s, walk, 0)

def skipSets (p : Dialect) (s : Tables) (sets : List (Nat × Bytes)) : Tables :=
  sets.foldl (fun s set =>
    if set.1 = p.templateSet then s.refuseAll r (p.received.all set.2)
    else if set.1 = p.optionsSet then s.refuseAll r (p.optionsReceived.all set.2)
    else s) s

def decodeSets (p : Dialect) : Tables → List Record → Nat → List (Nat × Bytes) → Tables × Decoded
  | s, recs, misses, [] => (s, ⟨recs, misses, none⟩)
  | s, recs, misses, (id, body) :: rest =>
    if id = p.templateSet then decodeSets p (s.parseTemplates r p.templates p.received body) recs misses rest
    else if id = p.optionsSet then
      decodeSets p (s.parseTemplates r p.optionsTemplates p.optionsReceived body) recs misses rest
    else if id ≥ 256 then
      match s.decodeData r p recs id body with
      | (s, walk, miss) =>
        if walk.rows > maxRecordsPerPacket then (s.skipSets r p rest, ⟨walk.recs, misses + miss, some .recordBound⟩)
        else decodeSets p s walk.recs (misses + miss) rest
    else decodeSets p s recs misses rest

/-! A set of them. -/

variable (p : Dialect)

def decodeSet (u : Tables) (recs : List Record) (misses id : Nat) (body : Bytes) : Tables × List Record × Nat × Bool :=
  if id = p.templateSet then (u.parseTemplates r p.templates p.received body, recs, misses, false)
  else if id = p.optionsSet then (u.parseTemplates r p.optionsTemplates p.optionsReceived body, recs, misses, false)
  else if id ≥ 256 then
    ((u.decodeData r p recs id body).1, (u.decodeData r p recs id body).2.1.recs, misses + (u.decodeData r p recs id body).2.2,
      decide ((u.decodeData r p recs id body).2.1.rows > maxRecordsPerPacket))
  else (u, recs, misses, false)

variable {u u' : Tables} {recs recs' : List Record} {misses misses' id : Nat} {exceeded : Bool} {body : Bytes}

theorem decodeSets_cons (set : u.decodeSet r p recs misses id body = (u', recs', misses', exceeded)) (rest : List (Nat × Bytes)) :
    decodeSets r p u recs misses ((id, body) :: rest) =
      if exceeded then (u'.skipSets r p rest, ⟨recs', misses', some .recordBound⟩) else decodeSets r p u' recs' misses' rest := by
  rw [decodeSets]
  unfold decodeSet at set
  split_ifs at set with own options data <;> cases set
  · rw [if_pos own]
    rfl
  · rw [if_neg own, if_pos options]
    rfl
  · rw [if_neg own, if_neg options, if_pos data]
    simp only [decide_eq_true_eq]
  · rw [if_neg own, if_neg options, if_neg data]
    rfl

end Tables

def decodePacket (p : Dialect) (s : Tables) (d : Datagram) : Tables × Decoded :=
  match p.header d.pkt with
  | .error fault => (s, ⟨[], 0, some fault⟩)
  | .ok packet =>
    let (sets, fault) := packet.framed p.protocol
    let (s, out) := Tables.decodeSets ⟨d, packet⟩ p s [] 0 sets
    (s, { out with fault := out.fault.or fault })

structure Stateless where
  decodeNetFlow5 : Bytes → Bytes → Int → List Record × Option FlowFault
  decodeSFlow : Bytes → Bytes → Int → List Record × Option FlowFault

def Datagram.version (d : Datagram) : Nat := big (d.pkt.take 2)

def decode (others : Stateless) (s : Tables) (d : Datagram) : Tables × Decoded :=
  let s := { s with tick := 0 }
  if d.pkt.length < 4 then (s, ⟨[], 0, some (.datagramTooShort d.pkt.length)⟩)
  else if d.version = 5 then
    let (recs, fault) := others.decodeNetFlow5 d.pkt d.exporter d.now
    (s, ⟨recs, 0, fault⟩)
  else if d.version = 9 then decodePacket nf9 s d
  else if d.version = 10 then decodePacket ipfix s d
  else if d.version = 0 ∧ big (d.pkt.take 4) = 5 then
    let (recs, fault) := others.decodeSFlow d.pkt d.exporter d.now
    (s, ⟨recs, 0, fault⟩)
  else (s, ⟨[], 0, some (.unrecognized (d.pkt.take 4))⟩)

def newTables (templateTTL maxTemplates : Int) : Tables := ⟨newTemplateCache templateTTL maxTemplates, ∅, 0, []⟩

def decodeAll (others : Stateless) (s : Tables) (history : List Datagram) : Tables × List (Datagram × Decoded) :=
  history.foldl (fun (s, out) d => let (s, decoded) := decode others s d; (s, out ++ [(d, decoded)])) (s, [])

end Probectl.Flow
