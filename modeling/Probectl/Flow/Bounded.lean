import Probectl.Flow.Freshness
import Probectl.Flow.WireDecode

/-! The decoder returns for every datagram and every state of its tables: no index leaves
the datagram, the records are bounded, and each is made of its own set, sample or row. -/
namespace Probectl.Flow

open Octets Checked Wire Relation List Run Tables Nat

/-! The decoders without state. -/

def returned (x : Checked (List Record × Option FlowFault)) : List Record × Option FlowFault :=
  match x with
  | .ok out => out
  | .error _ => ([], none)

def wireStateless : Stateless where
  decodeNetFlow5 pkt exporter now := returned (decodeNetFlow5 pkt exporter now)
  decodeSFlow pkt exporter now := returned (decodeSFlow pkt exporter now)

theorem uint_take {d : Datagram} (long : ¬d.pkt.length < 4) (width : Nat) (narrow : width ≤ 4) :
    uintAt width d.pkt 0 = .ok (big (d.pkt.take width)) := by
  rw [uintAt_ok (by omega), Nat.zero_add, slice, drop_zero, Nat.sub_zero]

theorem decodeWire_ok (s : Tables) (d : Datagram) (enough : d.pkt.length < fuel) :
    ∃ out, decodeWire fuel s d = .ok out ∧ Agrees out (decode wireStateless s d) := by
  unfold decodeWire decode
  split
  · exact ⟨_, rfl, rfl, rfl⟩
  rename_i long
  have first : cut d.pkt 0 4 = .ok (d.pkt.take 4) := by
    rw [cut_ok (by omega) (by omega), slice, drop_zero]
  have strange s : unrecognized s d = .ok (s, ⟨[], 0, some (.unrecognized (d.pkt.take 4))⟩) := by
    unfold unrecognized
    rw [step first]
    rfl
  rw [step (uint_take long 2 (by omega))]
  unfold Datagram.version
  split
  · obtain ⟨recs, fault, ran, -⟩ := decodeNetFlow5_total d.pkt d.exporter d.now
    rw [step ran]
    refine ⟨_, rfl, rfl, ?_⟩
    simp only [wireStateless, ran, returned]
  split
  · exact decodePacketWire_ok nf9Wire _ d enough
  split
  · exact decodePacketWire_ok ipfixWire _ d enough
  by_cases zero : big (d.pkt.take 2) = 0
  · rw [if_pos zero, step (uint_take long 4 (by omega))]
    by_cases five : big (d.pkt.take 4) = 5
    · obtain ⟨recs, fault, ran, -⟩ := decodeSFlow_total d.pkt d.exporter d.now
      rw [if_pos five, if_pos ⟨zero, five⟩, step ran]
      refine ⟨_, rfl, rfl, ?_⟩
      simp only [wireStateless, ran, returned]
    · rw [if_neg five, if_neg (fun both => five both.2), strange]
      exact ⟨_, rfl, rfl, rfl⟩
  · rw [if_neg zero, if_neg (fun both => zero both.1), strange]
    exact ⟨_, rfl, rfl, rfl⟩

/-! The records of one set. -/

def nf9RowRecord (ctx : DataContext) (rate : Nat) (row : Bytes) : Record :=
  let (rec', inline) := applyValues (ctx.record .netflow9 rate) ctx.clk (nf9Values ctx.template.fields row)
  ctx.finish rec' inline

def ipfixFieldsOf (ctx : DataContext) (rate : Nat) (raw : Bytes) : FieldWalk × Bool :=
  ipfixRecord ctx ctx.template.fields ⟨raw, ctx.record .ipfix rate, 0, rate, []⟩

variable {raw val rest : Bytes}

theorem cutValue_drop (read : cutValue n raw = some (val, rest)) : n ≤ raw.length ∧ rest = raw.drop n := by
  obtain ⟨fits, read⟩ := guard_some read
  cases read
  exact ⟨Nat.le_of_not_lt fits, rfl⟩

theorem ipfixValue_drop (read : ipfixValue f raw = some (val, rest)) :
    ∃ n ≤ raw.length, rest = raw.drop n := by
  unfold ipfixValue at read
  split at read
  · split at read
    · cases read
    rename_i first others
    split at read
    · split at read
      · cases read
      obtain ⟨fits, dropped⟩ := cutValue_drop read
      rw [length_drop] at fits
      refine ⟨1 + (2 + big (others.take 2)), ?_, ?_⟩
      · rw [length_cons]
        omega
      · rw [dropped, drop_drop, add_comm 1, drop_succ_cons]
    · obtain ⟨fits, dropped⟩ := cutValue_drop read
      refine ⟨first.toNat + 1, ?_, ?_⟩
      · rw [length_cons]
        omega
      · rw [dropped, drop_succ_cons]
  · obtain ⟨fits, dropped⟩ := cutValue_drop read
    exact ⟨_, fits, dropped⟩

theorem ipfixRecord_drop (ctx : DataContext) (fields : List TemplateField) (w : FieldWalk) :
    ∃ n ≤ w.rest.length, (ipfixRecord ctx fields w).1.rest = w.rest.drop n := by
  induction fields generalizing w with
  | nil => exact ⟨0, zero_le _, rfl⟩
  | cons f fields ih =>
    rw [ipfixRecord]
    split
    · exact ⟨0, zero_le _, rfl⟩
    rename_i val rest read
    obtain ⟨n, first, dropped⟩ := ipfixValue_drop read
    obtain ⟨m, second, further⟩ := ih { ipfixApply ctx f val w with rest := rest }
    rw [dropped, length_drop] at second
    refine ⟨n + m, by omega, further.trans ?_⟩
    rw [dropped, drop_drop]

variable {ctx : DataContext}

theorem ipfixRecord_rate (flows : ctx.template.options = false) (fields : List TemplateField) (w : FieldWalk) :
    (ipfixRecord ctx fields w).1.rate = w.rate := by
  induction fields generalizing w with
  | nil => rfl
  | cons f fields ih =>
    rw [ipfixRecord]
    split
    · rfl
    refine (ih _).trans ?_
    unfold ipfixApply
    split
    · rfl
    · rw [if_neg (by simp [flows])]

inductive FromSet (ctx : DataContext) (rate : Nat) (body : Bytes) : FlowProtocol → Record → Prop
  | row (lo : Nat) (inside : lo + ctx.template.fixedWidth ≤ body.length) :
    FromSet ctx rate body .netflow9 (nf9RowRecord ctx rate (slice body lo (lo + ctx.template.fixedWidth)))
  | record (lo : Nat) (inside : lo ≤ body.length) (complete : (ipfixFieldsOf ctx rate (body.drop lo)).2 = true) :
    FromSet ctx rate body .ipfix
      (ctx.finish (ipfixFieldsOf ctx rate (body.drop lo)).1.record (ipfixFieldsOf ctx rate (body.drop lo)).1.inline)

structure Walks (p : Dialect) : Prop where
  bounded : ∀ ctx rate recs body, recs.length ≤ maxRecordsPerPacket → (p.walk ctx rate recs body).recs.length ≤ maxRecordsPerPacket
  own : ∀ ctx rate recs body, ∀ rec' ∈ (p.walk ctx rate recs body).recs, rec' ∈ recs ∨ FromSet ctx rate body p.protocol rec'

structure Walked (protocol : FlowProtocol) (ctx : DataContext) (rate : Nat) (recs : List Record) (body : Bytes)
    (s : Walk × Nat × Bytes) : Prop where
  bounded : recs.length ≤ maxRecordsPerPacket → s.1.recs.length ≤ maxRecordsPerPacket
  own : ∀ rec' ∈ s.1.recs, rec' ∈ recs ∨ FromSet ctx rate body protocol rec'
  rest : ∃ lo ≤ body.length, s.2.2 = body.drop lo
  rate : ctx.template.options = false → s.2.1 = rate

variable (protocol : FlowProtocol)

theorem walked_start (ctx : DataContext) (rate : Nat) (recs : List Record) (body : Bytes) :
    Walked protocol ctx rate recs body (⟨recs, [], 0⟩, rate, body) :=
  ⟨id, fun _ mem => .inl mem, ⟨0, zero_le _, rfl⟩, fun _ => rfl⟩

variable {rec' : Record}

theorem Walked.append {protocol : FlowProtocol} {rate now rows : Nat} {set : Bytes} {walk : Walk}
    (walked : Walked protocol ctx rate recs body (walk, now, set)) (room : walk.recs.length < maxRecordsPerPacket)
    (own : FromSet ctx rate body protocol rec') (left : ∃ lo ≤ body.length, set' = body.drop lo) (known : now' = rate) :
    Walked protocol ctx rate recs body (⟨walk.recs ++ [rec'], rates, rows⟩, now', set') := by
  refine ⟨fun _ => ?_, forall_mem_snoc walked.own (.inr own), left, fun _ => known⟩
  rw [length_append, length_singleton]
  omega

variable {s t : Walk × Nat × Bytes}

theorem nf9_walked (ctx : DataContext) (rate : Nat) (recs : List Record) (body : Bytes)
    (walked : Walked .netflow9 ctx rate recs body s) (next : (nf9Loop ctx).body s = .inl t) :
    Walked .netflow9 ctx rate recs body t := by
  obtain ⟨walk, now, set⟩ := s
  obtain ⟨lo, inside, rest⟩ := walked.rest
  dsimp only at rest
  dsimp only [nf9Loop] at next
  split at next
  · cases next
  have length : set.length = body.length - lo := by rw [rest, length_drop]
  have left : ∃ lo ≤ body.length, set.drop ctx.template.fixedWidth = body.drop lo := by
    refine ⟨lo + ctx.template.fixedWidth, by omega, ?_⟩
    rw [rest, drop_drop]
  unfold nf9Row at next
  split at next
  · rename_i options
    cases next
    exact ⟨walked.bounded, walked.own, left, fun flows => nomatch options.symm.trans flows⟩
  · rename_i flows
    have known : now = rate := walked.rate (Bool.not_eq_true _ ▸ flows)
    have row : set.take ctx.template.fixedWidth = slice body lo (lo + ctx.template.fixedWidth) := by
      rw [rest, slice, Nat.add_sub_cancel_left]
    have own : FromSet ctx rate body .netflow9 (nf9RowRecord ctx now (set.take ctx.template.fixedWidth)) := by
      rw [known, row]
      exact .row lo (by omega)
    cases next
    exact walked.append (by omega) own left known

theorem ipfix_walked (ctx : DataContext) (rate : Nat) (recs : List Record) (body : Bytes)
    (walked : Walked .ipfix ctx rate recs body s) (next : (ipfixLoop ctx).body s = .inl t) :
    Walked .ipfix ctx rate recs body t := by
  obtain ⟨walk, now, set⟩ := s
  obtain ⟨lo, inside, rest⟩ := walked.rest
  dsimp only at rest
  dsimp only [ipfixLoop] at next
  split at next
  · cases next
  split at next
  · cases next
  rename_i complete
  have left : ∃ lo ≤ body.length, (ipfixFieldsOf ctx now set).1.rest = body.drop lo := by
    obtain ⟨n, bound, dropped⟩ := ipfixRecord_drop ctx ctx.template.fields ⟨set, ctx.record .ipfix now, 0, now, []⟩
    rw [rest, length_drop] at bound
    refine ⟨lo + n, by omega, dropped.trans ?_⟩
    rw [rest, drop_drop]
  split at next
  · rename_i options
    cases next
    exact ⟨walked.bounded, walked.own, left, fun flows => nomatch options.symm.trans flows⟩
  · rename_i flows
    have plain : ctx.template.options = false := Bool.not_eq_true _ ▸ flows
    have known : now = rate := walked.rate plain
    have own : FromSet ctx rate body .ipfix
        (ctx.finish (ipfixFieldsOf ctx now set).1.record (ipfixFieldsOf ctx now set).1.inline) := by
      rw [known, rest]
      refine .record lo inside ?_
      rw [← rest, ← known]
      by_contra cut
      exact complete (.inl cut)
    cases next
    exact walked.append (by omega) own left ((ipfixRecord_rate plain _ _).trans known)

theorem walks_of_loop (loop : DataContext → Loop (Walk × Nat × Bytes) Walk)
    (whole : ∀ ctx rate recs body, p.walk ctx rate recs body = (loop ctx).run (⟨recs, [], 0⟩, rate, body))
    (step : ∀ ctx rate recs body s t, Walked p.protocol ctx rate recs body s → (loop ctx).body s = .inl t →
      Walked p.protocol ctx rate recs body t)
    (exit : ∀ ctx s walk, (loop ctx).body s = .inr walk → walk.recs = s.1.recs) : Walks p := by
  have all ctx rate recs body :
      ∃ s, Walked p.protocol ctx rate recs body s ∧ (p.walk ctx rate recs body).recs = s.1.recs := by
    rw [whole]
    exact (loop ctx).run_invariant (Walked p.protocol ctx rate recs body)
      (fun walk => ∃ s, Walked p.protocol ctx rate recs body s ∧ walk.recs = s.1.recs) (step ctx rate recs body)
      (fun s walk walked ends => ⟨s, walked, exit ctx s walk ends⟩) (walked_start _ ctx rate recs body)
  constructor <;> intro ctx rate recs body <;> obtain ⟨s, walked, same⟩ := all ctx rate recs body <;> rw [same]
  · exact walked.bounded
  · exact walked.own

theorem nf9_walks : Walks nf9 := by
  refine walks_of_loop nf9Loop (fun _ _ _ _ => rfl) (fun ctx rate recs body _ _ => nf9_walked ctx rate recs body) ?_
  intro ctx s walk exit
  dsimp only [nf9Loop] at exit
  split at exit
  · cases exit
    rfl
  · cases exit

theorem ipfix_walks : Walks ipfix := by
  refine walks_of_loop ipfixLoop (fun _ _ _ _ => rfl) (fun ctx rate recs body _ _ => ipfix_walked ctx rate recs body) ?_
  intro ctx s walk exit
  dsimp only [ipfixLoop] at exit
  split_ifs at exit <;> cases exit <;> rfl

/-! Where the sets stand. -/

structure PlacedSet where
  id : Nat
  lo : Nat
  hi : Nat

def PlacedSet.of (pkt : Bytes) (s : PlacedSet) : Nat × Bytes := (s.id, slice pkt s.lo s.hi)

structure Placed (from' to' : Nat) (sets : List PlacedSet) : Prop where
  inside : ∀ s ∈ sets, from' ≤ s.lo ∧ s.lo ≤ s.hi ∧ s.hi ≤ to'
  apart : sets.Pairwise fun s t => s.hi ≤ t.lo

variable {pkt : Bytes} {lo hi : Nat}

theorem slice_inner (le : lo + b ≤ hi) : slice (slice pkt lo hi) a b = slice pkt (lo + a) (lo + b) := by
  unfold slice
  rw [drop_take, drop_drop, take_take]
  congr 1
  omega

theorem setsLoop_placed (pkt : Bytes) (bound : lo ≤ hi) (inside : hi ≤ pkt.length) (offset : Nat) :
    ∃ sets, ((setsLoop protocol).run ([], offset, slice pkt lo hi)).1 = sets.map (PlacedSet.of pkt) ∧ Placed lo hi sets := by
  induction size : hi - lo using Nat.strongRecOn generalizing lo offset with
  | ind n ih =>
    have length : (slice pkt lo hi).length = hi - lo := by
      rw [slice_length]
      omega
    by_cases short : (slice pkt lo hi).length < 4
    · rw [setsLoop_end protocol short]
      exact ⟨[], rfl, nofun, .nil⟩
    by_cases bad : BadSet (slice pkt lo hi)
    · rw [setsLoop_bad protocol short bad]
      exact ⟨[], rfl, nofun, .nil⟩
    obtain ⟨k, len⟩ : ∃ k, setLen (slice pkt lo hi) = k := ⟨_, rfl⟩
    have rest : (slice pkt lo hi).drop k = slice pkt (lo + k) hi := by
      rw [slice, drop_take, drop_drop]
      congr 1
      omega
    obtain ⟨sets, more, placed⟩ := ih (hi - (lo + k)) (by omega) (show lo + k ≤ hi by omega) (offset + k) rfl
    rw [setsLoop_next protocol short bad, len, rest, more]
    refine ⟨⟨big ((slice pkt lo hi).take 2), lo + 4, lo + k⟩ :: sets, ?_, ?_, ?_⟩
    · rw [slice_inner (by omega)]
      rfl
    · refine forall_mem_cons.mpr ⟨⟨by dsimp only; omega, by dsimp only; omega, by dsimp only; omega⟩, fun s mem => ?_⟩
      obtain ⟨after, ordered, before⟩ := placed.inside s mem
      exact ⟨by omega, ordered, before⟩
    · exact pairwise_cons.mpr ⟨fun s mem => (placed.inside s mem).1, placed.apart⟩

variable {packet : Packet}

theorem nf9Header_sets (header : nf9Header pkt = .ok packet) :
    ∃ hi, packet.offset ≤ hi ∧ hi ≤ pkt.length ∧ packet.sets = slice pkt packet.offset hi := by
  obtain ⟨long, header⟩ := guard_ok header
  obtain ⟨-, header⟩ := guard_ok header
  cases header
  refine ⟨pkt.length, Nat.le_of_not_lt long, le_rfl, ?_⟩
  have whole : (pkt.drop nf9HeaderLen).length ≤ pkt.length - nf9HeaderLen := le_of_eq length_drop
  exact (take_of_length_le whole).symm

theorem ipfixHeader_sets (header : ipfixHeader pkt = .ok packet) :
    ∃ hi, packet.offset ≤ hi ∧ hi ≤ pkt.length ∧ packet.sets = slice pkt packet.offset hi := by
  obtain ⟨-, header⟩ := guard_ok header
  obtain ⟨-, header⟩ := guard_ok header
  obtain ⟨sensible, header⟩ := guard_ok header
  cases header
  exact ⟨big (slice pkt 2 4), by dsimp only; omega, by omega, rfl⟩

/-! The records of a packet. -/

def OwnRecord (r : Reading) (p : Dialect) (s : Tables) (set : Nat × Bytes) (rec' : Record) : Prop :=
  ∃ s₁ t, ReflTransGen (Step r) s s₁ ∧ (s₁.get r.datagram.env (r.key set.1)).1 = some t ∧
    FromSet (r.context t) (s₁.rate r.datagram.exporter r.packet.domain) set.2 p.protocol rec'

variable {p : Dialect}

theorem decodeData_own (walks : Walks p) (r : Reading) (s : Tables) (recs : List Record) (id : Nat) (body : Bytes) :
    (recs.length ≤ maxRecordsPerPacket → (s.decodeData r p recs id body).2.1.recs.length ≤ maxRecordsPerPacket) ∧
      ∀ rec' ∈ (s.decodeData r p recs id body).2.1.recs, rec' ∈ recs ∨ OwnRecord r p s (id, body) rec' := by
  have kept : (s.get r.datagram.env (r.key id)).2.rate r.datagram.exporter r.packet.domain =
      s.rate r.datagram.exporter r.packet.domain := rfl
  have found t (here : (s.get r.datagram.env (r.key id)).1 = some t) rec'
      (from' : FromSet (r.context t) (s.rate r.datagram.exporter r.packet.domain) body p.protocol rec') :
      OwnRecord r p s (id, body) rec' := ⟨s, t, .refl, here, from'⟩
  unfold decodeData
  generalize s.get r.datagram.env (r.key id) = fetched at kept found
  obtain ⟨t, next⟩ := fetched
  cases t with
  | none => exact ⟨fun few => few, fun _ => .inl⟩
  | some t =>
    dsimp only
    rw [kept]
    refine ⟨walks.bounded _ _ _ _, fun rec' mem => ?_⟩
    rcases walks.own _ _ _ _ rec' mem with earlier | own
    · exact .inl earlier
    · exact .inr (found t rfl rec' own)

theorem OwnRecord.before {s : Tables} {set : Nat × Bytes}
    (own : OwnRecord r p u set rec') (reached : ReflTransGen (Step r) s u) : OwnRecord r p s set rec' := by
  obtain ⟨s₁, t, further, found, from'⟩ := own
  exact ⟨s₁, t, reached.trans further, found, from'⟩

theorem decodeSet_own (walks : Walks p) (r : Reading) (s : Tables) (recs : List Record) (misses id : Nat) (body : Bytes) :
    (recs.length ≤ maxRecordsPerPacket → (s.decodeSet r p recs misses id body).2.1.length ≤ maxRecordsPerPacket) ∧
      ∀ rec' ∈ (s.decodeSet r p recs misses id body).2.1, rec' ∈ recs ∨ OwnRecord r p s (id, body) rec' := by
  unfold decodeSet
  split
  · exact ⟨fun few => few, fun _ => .inl⟩
  split
  · exact ⟨fun few => few, fun _ => .inl⟩
  split
  · exact decodeData_own walks r s recs id body
  · exact ⟨fun few => few, fun _ => .inl⟩

theorem decodeSets_own (walks : Walks p) (r : Reading) (s : Tables) (recs : List Record) (misses : Nat)
    (sets : List (Nat × Bytes)) (few : recs.length ≤ maxRecordsPerPacket) :
    (decodeSets r p s recs misses sets).2.recs.length ≤ maxRecordsPerPacket ∧
      ∀ rec' ∈ (decodeSets r p s recs misses sets).2.recs, rec' ∈ recs ∨ ∃ set ∈ sets, OwnRecord r p s set rec' := by
  induction sets generalizing s recs misses with
  | nil => exact ⟨few, fun rec' mem => .inl mem⟩
  | cons set rest ih =>
    obtain ⟨id, body⟩ := set
    have reached := (decodeSet_sends r p s recs misses id body).steps
    obtain ⟨bounded, own⟩ := decodeSet_own walks r s recs misses id body
    rcases set : s.decodeSet r p recs misses id body with ⟨s', recs', misses', exceeded⟩
    rw [set] at reached bounded own
    have first : ∀ rec' ∈ recs', rec' ∈ recs ∨ ∃ set ∈ (id, body) :: rest, OwnRecord r p s set rec' := by
      intro rec' mem
      rcases own rec' mem with earlier | here
      · exact .inl earlier
      · exact .inr ⟨_, mem_cons_self, here⟩
    rw [decodeSets_cons r p set]
    split
    · exact ⟨bounded few, first⟩
    obtain ⟨fewer, later⟩ := ih s' recs' misses' (bounded few)
    refine ⟨fewer, fun rec' mem => ?_⟩
    rcases later rec' mem with earlier | ⟨set, inside, here⟩
    · exact first rec' earlier
    · exact .inr ⟨set, mem_cons_of_mem _ inside, here.before reached⟩

/-- The records of a datagram of a template protocol: as many as one may have, each from one
of the sets that stand apart in the datagram. -/
def OwnRecords (p : Dialect) (s : Tables) (d : Datagram) (recs : List Record) : Prop :=
  recs.length ≤ maxRecordsPerPacket ∧
    (recs ≠ [] → ∃ packet sets, p.header d.pkt = .ok packet ∧ Placed packet.offset d.pkt.length sets ∧
      ∀ rec' ∈ recs, ∃ set ∈ sets, OwnRecord ⟨d, packet⟩ p s (set.of d.pkt) rec')

theorem decodePacket_own (walks : Walks p) (ends : ∀ {pkt packet}, p.header pkt = .ok packet →
      ∃ hi, packet.offset ≤ hi ∧ hi ≤ pkt.length ∧ packet.sets = slice pkt packet.offset hi)
    (s : Tables) (d : Datagram) : OwnRecords p s d (decodePacket p s d).2.recs := by
  unfold decodePacket
  cases header : p.header d.pkt with
  | error fault => exact ⟨zero_le _, absurd rfl⟩
  | ok packet =>
    obtain ⟨hi, bound, inside, octets⟩ := ends header
    obtain ⟨sets, framed, placed⟩ := setsLoop_placed p.protocol d.pkt bound inside packet.offset
    have all : (packet.framed p.protocol).1 = sets.map (PlacedSet.of d.pkt) := by
      rw [Packet.framed, octets, framed]
    obtain ⟨few, own⟩ := decodeSets_own walks ⟨d, packet⟩ s [] 0 (packet.framed p.protocol).1 (zero_le _)
    refine ⟨few, fun _ => ⟨packet, sets, header, ?_, fun rec' mem => ?_⟩⟩
    · refine ⟨fun set inside' => ?_, placed.apart⟩
      obtain ⟨after, ordered, before⟩ := placed.inside set inside'
      exact ⟨after, ordered, before.trans inside⟩
    · rcases own rec' mem with impossible | ⟨set, member, here⟩
      · cases impossible
      · rw [all] at member
        obtain ⟨placedSet, among, rfl⟩ := mem_map.mp member
        exact ⟨placedSet, among, here⟩

/-! Every datagram. -/

structure Bounded (s : Tables) (d : Datagram) (recs : List Record) : Prop where
  netflow9 : d.version = 9 → OwnRecords nf9 s d recs
  ipfix : d.version = 10 → OwnRecords ipfix s d recs
  sflow : d.version = 0 → recs.length ≤ sflowMaxSamples * sflowMaxRecords ∧ SampledIn d.pkt d.exporter d.now recs
  netflow5 : d.version = 5 → recs.length ≤ nf5MaxCount ∧ ∃ ctx : Nf5Context, ∀ rec' ∈ recs, ctx.Own (d.pkt.drop nf5HeaderLen) rec'
  others : d.version ∉ [0, 5, 9, 10] → recs = []

theorem bounded_nil (s : Tables) (d : Datagram) : Bounded s d [] where
  netflow9 _ := ⟨zero_le _, absurd rfl⟩
  ipfix _ := ⟨zero_le _, absurd rfl⟩
  sflow _ := ⟨zero_le _, sampledIn_nil _ _ _⟩
  netflow5 _ := ⟨zero_le _, ⟨[], 0, 0, 0, 0⟩, nofun⟩
  others _ := rfl

theorem decode_bounded (s : Tables) (d : Datagram) : Bounded { s with tick := 0 } d (decode wireStateless s d).2.recs := by
  unfold decode
  split
  · exact bounded_nil _ d
  split
  · rename_i five
    obtain ⟨recs, fault, ran, few, own⟩ := decodeNetFlow5_total d.pkt d.exporter d.now
    simp only [wireStateless, ran]
    exact ⟨fun nine => by omega, fun ten => by omega, fun zero => by omega, fun _ => ⟨few, own⟩, fun none => absurd five (by simp at none; omega)⟩
  split
  · rename_i nine
    have own := decodePacket_own nf9_walks nf9Header_sets { s with tick := 0 } d
    exact ⟨fun _ => own, fun ten => by omega, fun zero => by omega, fun five => by omega, fun none => absurd nine (by simp at none; omega)⟩
  split
  · rename_i ten
    have own := decodePacket_own ipfix_walks ipfixHeader_sets { s with tick := 0 } d
    exact ⟨fun nine => by omega, fun _ => own, fun zero => by omega, fun five => by omega, fun none => absurd ten (by simp at none; omega)⟩
  split
  · rename_i zero
    obtain ⟨recs, fault, ran, sampled⟩ := decodeSFlow_total d.pkt d.exporter d.now
    simp only [wireStateless, ran]
    exact ⟨fun nine => by omega, fun ten => by omega, fun _ => ⟨sampled.length_le, sampled⟩, fun five => by omega,
      fun none => absurd zero.1 (by simp at none; omega)⟩
  · exact bounded_nil _ d

/-- For every datagram and every state of the tables the decoder returns, with as much fuel
as the datagram has octets and any more: it never indexes outside of a byte string, does what
the decoder of whole byte strings does, and its records are bounded and each made of the
octets of its own set, sample or row. -/
theorem decode_safe (s : Tables) (d : Datagram) {fuel : Nat} (enough : d.pkt.length < fuel) :
    ∃ s' out, decodeWire fuel s d = .ok (s', out) ∧ s'.forget = (decode wireStateless s d).1.forget ∧
      out = (decode wireStateless s d).2 ∧ Bounded { s with tick := 0 } d out.recs := by
  obtain ⟨⟨s', out⟩, ran, tables, same⟩ := decodeWire_ok s d enough
  subst same
  exact ⟨s', _, ran, tables, rfl, decode_bounded s d⟩

/-- A template and a data set of one datagram. -/
theorem decode_safe_defined :
    ∃ s' out, decodeWire 100 (newTables 0 0) (ipfixMessage [1] (octetsTemplate ++ octetsData)) = .ok (s', out) ∧
      out.recs.length = 1 := by
  have enough : (ipfixMessage [1] (octetsTemplate ++ octetsData)).pkt.length < 100 := by decide
  obtain ⟨s', out, ran, -, same, -⟩ := decode_safe (newTables 0 0) (ipfixMessage [1] (octetsTemplate ++ octetsData)) enough
  refine ⟨s', out, ran, ?_⟩
  rw [same]
  decide +kernel

end Probectl.Flow
