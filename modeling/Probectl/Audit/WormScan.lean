import Probectl.Audit.WormInventory

/-! The scan of a store of consecutive segments: it passes the signed ones, and signs
the unsigned one behind them or stops there. -/
namespace Probectl.Audit

open Strings List HashChain Run WormEvent Nat

namespace Exporter
variable {w : Exporter}

def wormLinks : Links WormEvent Bytes where
  seq := seq
  prev := prevHash
  hash := hash
  Bound := fun _ => True

def Position.after (n : Nat) (hash : Bytes) : Position := ⟨n + 1, hash, n⟩

variable {key hash : Bytes} {n : Nat}

theorem walkEvents_chain (chain : wormLinks.Chain (n + 1) hash events) :
    walkEvents key (.after n hash) events = .ok (.after (n + events.length) (wormLinks.tail hash events)) := by
  induction events generalizing n hash with
  | nil => rfl
  | cons ev rest ih =>
    obtain ⟨seq, prev, -, later⟩ := chain
    change ev.seq = _ at seq
    change ev.prevHash = hash at prev
    have next : (⟨n + 1 + 1, ev.hash, ev.seq⟩ : Position) = .after (n + 1) ev.hash := by
      rw [seq]
      rfl
    have shift : n + 1 + rest.length = n + (ev :: rest).length := by rw [length_cons]; omega
    have walked : walkEvents key (.after (n + 1) ev.hash) rest = .ok (.after _ (wormLinks.tail ev.hash rest)) := ih later
    change (if ev.seq ≠ n + 1 then _ else if ev.prevHash ≠ hash then _ else _) = _
    rw [if_neg (not_not.mpr seq), if_neg (not_not.mpr prev)]
    change walkEvents key ⟨n + 1 + 1, ev.hash, ev.seq⟩ rest = _
    rw [next, walked, shift]
    rfl

variable {segment : WormSegment}

theorem metadata_valid (filled : segment.events ≠ [])
    (starts : segment.fromSeq = ((n + 1 : Nat) : Int)) (ends : segment.toSeq = ((n + segment.events.length : Nat) : Int))
    (chain : wormLinks.Chain (n + 1) hash segment.events) :
    metadataInvalid segment segment.fromSeq segment.toSeq = false := by
  have head : segment.events.head?.map seq = some segment.fromSeq := by
    obtain ⟨first, rest, split⟩ := exists_cons_of_ne_nil filled
    rw [split] at chain ⊢
    have seq : first.seq = n + 1 := chain.1
    simp only [head?_cons, Option.map_some, starts, seq]
    rfl
  have last : segment.events.getLast?.map seq = some segment.toSeq := by
    obtain none | ⟨front, last, split⟩ := segment.events.eq_nil_or_concat'
    · exact absurd none filled
    rw [split] at chain ends ⊢
    obtain ⟨-, seq, -⟩ := Links.chain_concat.mp chain
    change last.seq = _ at seq
    rw [length_append, length_singleton] at ends
    rw [getLast?_concat, Option.map_some]
    congr 1
    omega
  simp [metadataInvalid, filled, head, last]

variable {g : w.Sealed} {object : Object} {keyFrom keyTo : Int}

section Scan
variable {s : Stream} {store : Store}

theorem getLimited_some (held : store.get key = some object)
    (small : object.data.length ≤ limit) : store.getLimited key limit = .ok object := by
  unfold Store.getLimited
  rw [held]
  exact if_neg (not_lt.mpr small)

theorem readSegment_signed (json : store.get g.key = some (jsonObject g.raw))
    (sig : store.get (g.key ++ sigSuffix) = some (sigObject (w.sign g.raw))) (starts : g.segment.fromSeq = ((n + 1 : Nat) : Int))
    (ends : g.segment.toSeq = ((n + g.segment.events.length : Nat) : Int))
    (chain : wormLinks.Chain (n + 1) hash g.segment.events) :
    w.readSegment store g.key g.segment.fromSeq g.segment.toSeq (.after n hash) =
      .ok (.after (n + g.segment.events.length) (wormLinks.tail hash g.segment.events)) := by
  have decoded := w.round g.marshalled
  have valid := metadata_valid g.filled starts ends chain
  unfold readSegment
  rw [getLimited_some json g.small, getLimited_some sig (w.sigSize g.raw)]
  simp only [Bind.bind, Except.bind, Except.mapError, jsonObject, sigObject, w.signed, decoded, g.version, g.stream, valid]
  rw [if_neg (not_lt.mpr g.paged)]
  exact walkEvents_chain chain

variable {unsigned : Option Bytes} {rest : List Bytes}

theorem scanSegments_next {next : Position}
    (range : segmentRange key = some (keyFrom, keyTo)) (complete : some key ≠ unsigned)
    (passed : w.readSegment store key keyFrom keyTo pos = .ok next) :
    w.scanSegments s store unsigned pos (key :: rest) = w.scanSegments s store unsigned next rest := by
  rw [scanSegments, range]
  dsimp only
  rw [if_neg complete, passed]

theorem scanSegments_signed {gs : List w.Sealed}
    (consecutive : Consecutive (n + 1) gs) (fits : n + 1 + covered gs < 2 ^ 63)
    (stored : ∀ g ∈ gs, store.get g.key = some (jsonObject g.raw) ∧
      store.get (g.key ++ sigSuffix) = some (sigObject (w.sign g.raw)) ∧ some g.key ≠ unsigned)
    (chain : wormLinks.Chain (n + 1) hash (eventsOf gs)) :
    w.scanSegments s store unsigned (.after n hash) (gs.map Sealed.key ++ rest) =
      w.scanSegments s store unsigned (.after (n + covered gs) (wormLinks.tail hash (eventsOf gs))) rest := by
  induction gs generalizing n hash with
  | nil => rfl
  | cons g gs ih =>
    have range := segmentRange_key consecutive (by omega) mem_cons_self
    obtain ⟨starts, ends, later⟩ := consecutive
    obtain ⟨⟨json, sig, complete⟩, others⟩ := forall_mem_cons.mp stored
    have split : eventsOf (g :: gs) = g.segment.events ++ eventsOf gs := rfl
    rw [covered_cons] at fits
    obtain ⟨front, back⟩ := Links.chain_append.mp chain
    have reached : g.segment.toSeq = ((n + g.segment.events.length) : Int) := by omega
    have shift : n + 1 + g.segment.events.length = ((n + g.segment.events.length) : Int) + 1 := by omega
    have shift' : n + 1 + g.segment.events.length = n + g.segment.events.length + 1 := by omega
    rw [shift] at back
    rw [shift'] at later
    rw [map_cons, cons_append,
      scanSegments_next range complete (readSegment_signed json sig starts reached front),
      ih later (by omega) others back, covered_cons, split, Links.tail_append, add_assoc]

end Scan

/-! Exact stores are scanned exactly. -/

def minimizeRow (r : Row) : WormEvent :=
  { seq := r.seq, actor := wormRedactedValue, action := r.action,
    target := if r.target ≠ [] then wormRedactedValue else r.target, projected := r.hash, prevHash := r.prevHash,
    hash := r.hash, createdAtMicros := r.createdAtMicros }

def hashOf (gs : List w.Sealed) : Bytes := wormLinks.tail [] (eventsOf gs)

structure Exact (w : Exporter) (rows : List Row) (store : Store) (published : Bool) (signed : List w.Sealed)
    (tail : Option w.Sealed) : Prop where
  stored : store = w.rendered published signed tail
  keyed : published = false → signed = [] ∧ tail = none
  consecutive : Consecutive 1 (signed ++ tail.toList)
  events : eventsOf (signed ++ tail.toList) <+: rows.map minimizeRow

theorem minimized_chain
    (chain : (links c streamKey).Chain want start rows) :
    wormLinks.Chain want start (rows.map minimizeRow) ∧
      wormLinks.tail start (rows.map minimizeRow) = (links c streamKey).tail start rows := by
  induction rows generalizing want start with
  | nil => exact ⟨trivial, rfl⟩
  | cons r rows ih =>
    obtain ⟨seq, prev, -, later⟩ := chain_cons.mp chain
    obtain ⟨inner, ends⟩ := ih later
    exact ⟨⟨seq, prev, trivial, inner⟩, ends⟩

section Exact
variable {s : Stream} {rows : List Row} {store : Store} {published : Bool} {signed : List w.Sealed} {tail : Option w.Sealed}

section
variable (exported : w.Exact rows store published signed tail)
include exported

theorem Exact.chain (intact : (links w.codec providerStream).Chain 1 [] rows) :
    wormLinks.Chain 1 [] (eventsOf (signed ++ tail.toList)) := by
  obtain ⟨behind, split⟩ := exported.events
  have whole := (minimized_chain intact).1
  rw [← split] at whole
  exact (Links.chain_append.mp whole).1

theorem Exact.get (mem : (key, object) ∈ w.rendered published signed tail) : store.get key = some object := by
  rw [exported.stored]
  exact lookup_of_mem (rendered_nodup exported.consecutive) mem

theorem Exact.get_signed (mem : g ∈ signed) :
    store.get g.key = some (jsonObject g.raw) ∧ store.get (g.key ++ sigSuffix) = some (sigObject (w.sign g.raw)) := by
  have inside entry pair : entry ∈ w.rendered published signed tail :=
    mem_append_right _ (mem_append_left _ (mem_flatMap.mpr ⟨g, mem, pair⟩))
  exact ⟨exported.get (inside g.json (by simp)), exported.get (inside g.sig (by simp))⟩

theorem Exact.checkStoredKey (filled : signed ++ tail.toList ≠ [])
    (allow : Bool) : w.checkStoredKey store allow = .ok () := by
  have shown : published = true := by
    by_contra hidden
    obtain ⟨none, tail⟩ := exported.keyed (Bool.not_eq_true _ ▸ hidden)
    rw [none, tail] at filled
    exact filled rfl
  have held : store.get pubKey = some (pubObject w.pubPEM) := by
    apply exported.get
    rw [rendered, if_pos shown]
    exact mem_append_left _ (mem_singleton_self _)
  unfold Exporter.checkStoredKey
  rw [getLimited_some held w.pubSize]
  exact if_neg (not_not.mpr rfl)

theorem Exact.scan_many (many : maxWORMSegmentArtifacts < (artifacts signed tail).length) (allow allowKey : Bool) :
    w.scanWORMChainWithOptions s store allow allowKey = ⟨[], .error .tooManyArtifacts⟩ := by
  unfold scanWORMChainWithOptions
  rw [exported.stored, inventory_rendered exported.consecutive, if_pos many]

theorem Exact.scan_front (intact : (links w.codec providerStream).Chain 1 [] rows)
    (limited : (artifacts signed tail).length ≤ maxWORMSegmentArtifacts) (filled : signed ++ tail.toList ≠ []) (checked : tailCheck allow tail = .ok last)
    (apart : ∀ g ∈ signed, some g.key ≠ last) :
    w.scanWORMChainWithOptions s store allow allowKey =
      w.scanSegments s store last (.after (covered signed) (hashOf signed)) (tail.toList.map Sealed.key) := by
  have found : inventory store allow = .ok ((signed ++ tail.toList).map Sealed.key, last) := by
    rw [exported.stored, inventory_rendered exported.consecutive, if_neg (not_lt.mpr limited), checked]
    rfl
  obtain ⟨first, rest, split⟩ := exists_cons_of_ne_nil filled
  have fits := covered_fits limited
  have size : covered signed ≤ covered (signed ++ tail.toList) := by
    rw [covered, covered, eventsOf_append, length_append]
    exact le_add_right _ _
  have chain := exported.chain intact
  rw [eventsOf_append] at chain
  have walked : w.scanSegments s store last (.after 0 []) (signed.map Sealed.key ++ tail.toList.map Sealed.key) =
      w.scanSegments s store last (.after (0 + covered signed) (hashOf signed)) (tail.toList.map Sealed.key) :=
    scanSegments_signed (consecutive_append.mp exported.consecutive).1 (by omega)
      (fun g mem => ⟨(exported.get_signed mem).1, (exported.get_signed mem).2, apart g mem⟩)
      (Links.chain_append.mp chain).1
  rw [zero_add, ← map_append] at walked
  unfold scanWORMChainWithOptions
  rw [found]
  rw [split] at walked ⊢
  simp only [exported.checkStoredKey filled]
  exact walked

end

theorem Exact.scan_complete (exported : w.Exact rows store published signed none)
    (intact : (links w.codec providerStream).Chain 1 [] rows)
    (limited : (artifacts signed none).length ≤ maxWORMSegmentArtifacts) (allow allowKey : Bool) :
    w.scanWORMChainWithOptions s store allow allowKey = ⟨[], .ok (covered signed, hashOf signed, 0)⟩ := by
  by_cases empty : signed = []
  · unfold scanWORMChainWithOptions
    rw [exported.stored, inventory_rendered exported.consecutive, empty]
    rfl
  · have filled : signed ++ none.toList ≠ [] := by simpa using empty
    rw [exported.scan_front intact limited filled rfl (fun _ _ => nofun)]
    rfl

theorem Exact.scan_strict (exported : w.Exact rows store published signed (some g)) (allowKey : Bool) :
    ∃ fault, w.scanWORMChainWithOptions s store false allowKey = ⟨[], .error fault⟩ := by
  by_cases many : maxWORMSegmentArtifacts < (artifacts signed (some g)).length
  · exact ⟨_, exported.scan_many many false allowKey⟩
  refine ⟨.signatureMissing g.key, ?_⟩
  unfold scanWORMChainWithOptions
  rw [exported.stored, inventory_rendered exported.consecutive, if_neg many]
  rfl

theorem readTail_ok
    (json : store.get g.key = some (jsonObject g.raw)) (ok : w.readTail store g.key keyFrom keyTo = .ok (raw, segment)) :
    raw = g.raw ∧ segment = g.segment := by
  unfold readTail at ok
  rw [getLimited_some json g.small] at ok
  obtain ⟨object, here, ok⟩ := bind_ok ok
  cases here
  obtain ⟨-, ok⟩ := guard_ok ok
  obtain ⟨decoded, unmarshalled, ok⟩ := bind_ok ok
  obtain ⟨canonical, -, ok⟩ := bind_ok ok
  obtain ⟨-, ok⟩ := guard_ok ok
  obtain ⟨-, ok⟩ := guard_ok ok
  obtain ⟨-, ok⟩ := guard_ok ok
  obtain ⟨rfl, rfl⟩ := Prod.mk.inj (Except.ok.inj ok)
  have same := mapError_ok unmarshalled
  rw [show (jsonObject g.raw).data = g.raw from rfl, w.round g.marshalled] at same
  exact ⟨rfl, (Except.ok.inj same).symm⟩

theorem Exact.scan_repair (exported : w.Exact rows store published signed (some g))
    (intact : (links w.codec providerStream).Chain 1 [] rows) :
    (∃ fault, w.lastExportedHead s store = ⟨[], .error fault⟩) ∨
      w.lastExportedHead s store =
        ⟨[⟨g.key ++ sigSuffix, sigObject (w.sign g.raw)⟩],
          .ok (covered (signed ++ [g]), hashOf (signed ++ [g]), g.segment.events.length)⟩ := by
  unfold lastExportedHead
  by_cases many : maxWORMSegmentArtifacts < (artifacts signed (some g)).length
  · exact .inl ⟨_, exported.scan_many many true true⟩
  have limited := Nat.le_of_not_lt many
  have last : g ∈ signed ++ (some g).toList := mem_append_right signed mem_cons_self
  have fits := covered_fits limited
  have apart : ∀ h ∈ signed, some h.key ≠ some g.key := by
    intro h mem same
    have distinct := (pairwise_append.mp (consecutive_apart exported.consecutive)).2.2 h mem g mem_cons_self
    exact distinct [] [] (congrArg (· ++ []) (Option.some.inj same))
  have json : store.get g.key = some (jsonObject g.raw) :=
    exported.get (mem_append_right _ (mem_append_right _ mem_cons_self))
  rw [exported.scan_front intact limited (by simp) rfl apart]
  obtain ⟨starts, ends, -⟩ := (consecutive_append.mp exported.consecutive).2
  have range := segmentRange_key exported.consecutive (by omega) last
  have want : g.segment.fromSeq = (Position.after (covered signed) (hashOf signed)).wantSeq := by
    change _ = (covered signed : Int) + 1
    omega
  change (∃ fault, w.scanSegments s store (some g.key) _ [g.key] = _) ∨ w.scanSegments s store (some g.key) _ [g.key] = _
  rw [scanSegments, range]
  dsimp only
  rw [if_pos rfl, if_neg (not_not.mpr want)]
  unfold repairIncompleteWORMTail
  cases read : w.readTail store g.key g.segment.fromSeq g.segment.toSeq with
  | error fault => exact .inl ⟨fault, rfl⟩
  | ok found =>
    obtain ⟨raw, segment⟩ := found
    obtain ⟨rfl, rfl⟩ := readTail_ok json read
    dsimp only
    cases compared : w.compareTail s g.key g.segment (Position.after (covered signed) (hashOf signed)).last
        (Position.after (covered signed) (hashOf signed)).prevHash with
    | error fault => exact .inl ⟨fault, rfl⟩
    | ok value =>
      right
      have reached : g.segment.toSeq = ((covered (signed ++ [g]) : Nat) : Int) := by
        rw [covered_concat]
        omega
      have hash : (g.segment.events.getLast?.map hash).getD [] = hashOf (signed ++ [g]) := by
        obtain none | ⟨front, last, split⟩ := g.segment.events.eq_nil_or_concat'
        · exact absurd none g.filled
        · rw [hashOf, eventsOf_append, show eventsOf [g] = g.segment.events by simp [eventsOf], split,
            ← append_assoc, Links.tail_concat, getLast?_concat]
          rfl
      rw [hash, reached]

end Exact

end Exporter

end Probectl.Audit
