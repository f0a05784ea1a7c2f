import Probectl.Audit.WormScan

/-! Export calls on exact stores, stopped after any of their puts. -/
namespace Probectl.Audit

open Strings List HashChain Run Links Option Prod

/-! Puts under new names append to the store. -/

variable {store : Store}

theorem put_fresh (fresh : p.key ∉ store.map fst) : store.put p = store ++ [(p.key, p.object)] := by
  unfold Store.put Store.get
  rw [lookup_none fresh]
  rfl

def Throughout (good : Store → Prop) : Store → List Put → Prop
  | store, [] => good store
  | store, p :: rest => good store ∧ Throughout good (store.put p) rest

variable {good : Store → Prop} {puts : List Put}

theorem throughout_take (held : Throughout good store puts) (stop : Nat) : good (store.putAll (puts.take stop)) := by
  induction puts generalizing store stop with
  | nil =>
    rw [take_nil]
    exact held
  | cons p rest ih =>
    cases stop with
    | zero => exact held.1
    | succ stop => exact ih held.2 stop

theorem throughout_append (held : Throughout good store puts)
    (later : Throughout good (store.putAll puts) more) : Throughout good store (puts ++ more) := by
  induction puts generalizing store with
  | nil => exact later
  | cons p rest ih => exact ⟨held.1, ih held.2 later⟩

theorem throughout_imp (imp : ∀ store, good store → better store)
    (held : Throughout good store puts) : Throughout better store puts := by
  induction puts generalizing store with
  | nil => exact imp _ held
  | cons p rest ih => exact ⟨imp _ held.1, ih held.2⟩

/-! The live source behind a sequence number. -/

section Source
variable {c : Codec} {rows : List Row}

theorem after_drop (chain : (links c streamKey).Chain 1 start rows) (n : Nat) :
    after n rows = rows.drop n := by
  have split : rows = rows.take n ++ rows.drop n := (take_append_drop n rows).symm
  rw [split] at chain
  obtain ⟨front, back⟩ := chain_append.mp chain
  have gone : (rows.take n).filter (fun r => (n : Int) < r.seq) = [] := by
    rw [filter_eq_nil_iff]
    intro r mem
    have := (chain_seq_bounds front mem).2
    rw [length_take] at this
    simp only [decide_eq_true_eq]
    omega
  have kept : (rows.drop n).filter (fun r => (n : Int) < r.seq) = rows.drop n := by
    rw [filter_eq_self]
    intro r mem
    have := (chain_seq_bounds back mem).1
    have filled : 0 < (rows.drop n).length := length_pos_iff.mpr (ne_nil_of_mem mem)
    rw [length_drop] at filled
    rw [length_take] at this
    exact decide_eq_true (by omega)
  have sorted := ordered_chain back
  unfold after
  nth_rewrite 1 [split]
  rw [filter_append, gone, kept, nil_append, sorted]

theorem scanProviderEvent_ok (ok : scanProviderEvent c r = .ok ev) :
    minimizeEventForWORM ev = Exporter.minimizeRow r := by
  obtain ⟨data, -, ok⟩ := bind_ok ok
  cases ok
  rfl

theorem mapM_scanProviderEvent (ok : rows.mapM (scanProviderEvent c) = .ok events) :
    events.map minimizeEventForWORM = rows.map Exporter.minimizeRow := by
  induction rows generalizing events with
  | nil =>
    cases ok
    rfl
  | cons r rows ih =>
    rw [mapM_cons] at ok
    obtain ⟨ev, here, ok⟩ := bind_ok ok
    obtain ⟨rest, later, ok⟩ := bind_ok ok
    cases ok
    rw [map_cons, map_cons, scanProviderEvent_ok here, ih later]

theorem checkFirst_ok {head : StreamHead}
    (ok : checkFirst head afterSeq out = .ok events) : events = out := by
  unfold checkFirst at ok
  split at ok
  · exact (Except.ok.inj ok).symm
  split at ok
  · cases ok
  · obtain ⟨-, ok⟩ := guard_ok ok
    exact (Except.ok.inj ok).symm

theorem listProvider_ok {n : Nat} (intact : Intact c s)
    (chain : (links c providerStream).Chain 1 [] s.rows) (ok : listProvider c s n limit = .ok events) :
    events.map minimizeEventForWORM = ((s.rows.drop n).take (clampLimit limit)).map Exporter.minimizeRow := by
  unfold listProvider at ok
  rw [ensureProviderStreamHead_intact intact] at ok
  obtain ⟨-, ok⟩ := guard_ok ok
  obtain ⟨found, here, ok⟩ := bind_ok ok
  cases here
  obtain ⟨-, ok⟩ := guard_ok ok
  obtain ⟨-, ok⟩ := guard_ok ok
  obtain ⟨out, read, ok⟩ := bind_ok ok
  obtain rfl := checkFirst_ok ok
  rw [after_drop chain] at read
  exact mapM_scanProviderEvent read

end Source

/-! How a store grows. -/

namespace Exporter
variable {w : Exporter}

def Extends (signed : List w.Sealed) (tail : Option w.Sealed) (signed' : List w.Sealed) (tail' : Option w.Sealed) : Prop :=
  signed <+: signed' ∧ ∀ g ∈ tail, signed' = signed ∧ tail' = some g ∨ signed ++ [g] <+: signed'

theorem extends_refl (signed : List w.Sealed) (tail : Option w.Sealed) : Extends signed tail signed tail :=
  ⟨prefix_rfl, fun _ mem => .inl ⟨rfl, mem⟩⟩

theorem extends_trans (first : Extends a x b y) (second : Extends b y d z) :
    Extends a x d z := by
  refine ⟨first.1.trans second.1, ?_⟩
  intro g mem
  rcases first.2 g mem with ⟨rfl, here⟩ | signed
  · exact second.2 g here
  · exact .inr (signed.trans second.1)

def Grown (rows : List Row) (old : Store) (signed : List w.Sealed) (tail : Option w.Sealed) (store : Store) : Prop :=
  ∃ published' signed' tail', w.Exact rows store published' signed' tail' ∧ Extends signed tail signed' tail' ∧ old <+: store

section Exact
variable {s : Stream} {rows : List Row} {store : Store} {published : Bool} {signed : List w.Sealed}
  {tail : Option w.Sealed}

theorem grown_refl (exported : w.Exact rows store published signed tail) : Grown rows store signed tail store :=
  ⟨published, signed, tail, exported, extends_refl signed tail, prefix_rfl⟩

theorem grown_trans
    (first : Extends a x signed tail) (kept : old <+: store) (second : Grown rows store signed tail later) :
    Grown rows old a x later := by
  obtain ⟨published', signed', tail', exported, moved, kept'⟩ := second
  exact ⟨published', signed', tail', exported, extends_trans first moved, kept.trans kept'⟩

theorem Exact.put_pub (exported : w.Exact rows store false signed none) :
    store <+: store.put ⟨pubKey, pubObject w.pubPEM⟩ ∧
      w.Exact rows (store.put ⟨pubKey, pubObject w.pubPEM⟩) true signed none := by
  obtain ⟨rfl, -⟩ := exported.keyed rfl
  have empty : store = [] := exported.stored
  subst empty
  exact ⟨ nil_prefix, rfl, nofun, exported.consecutive, exported.events⟩

theorem put_rendered (grown : w.rendered true signed tail = store ++ [(p.key, p.object)])
    (consecutive : Consecutive 1 (signed ++ tail.toList))
    (events : eventsOf (signed ++ tail.toList) <+: rows.map minimizeRow) :
    store <+: store.put p ∧ w.Exact rows (store.put p) true signed tail := by
  have nodup : ((w.rendered true signed tail).map fst).Nodup := rendered_nodup consecutive
  rw [grown, map_append, nodup_append] at nodup
  have fresh : p.key ∉ store.map fst := fun mem => nodup.2.2 _ mem p.key mem_cons_self rfl
  rw [put_fresh fresh]
  exact ⟨prefix_append _ _, grown.symm, nofun, consecutive, events⟩

structure Next (rows : List Row) (signed : List w.Sealed) (g : w.Sealed) : Prop where
  consecutive : Consecutive 1 (signed ++ [g])
  events : eventsOf (signed ++ [g]) <+: rows.map minimizeRow

variable {g : w.Sealed}

theorem Exact.put_json (exported : w.Exact rows store true signed none) (next : Next rows signed g) :
    store <+: store.put ⟨g.key, jsonObject g.raw⟩ ∧
      w.Exact rows (store.put ⟨g.key, jsonObject g.raw⟩) true signed (some g) := by
  refine put_rendered ?_ next.consecutive next.events
  rw [exported.stored]
  simp [rendered, artifacts, Sealed.json]

theorem Exact.put_sig (exported : w.Exact rows store true signed (some g)) :
    store <+: store.put ⟨g.key ++ sigSuffix, sigObject (w.sign g.raw)⟩ ∧
      w.Exact rows (store.put ⟨g.key ++ sigSuffix, sigObject (w.sign g.raw)⟩) true (signed ++ [g]) none := by
  have signedAll : (signed ++ [g]) ++ none.toList = signed ++ (some g).toList := append_nil _
  refine put_rendered ?_ (by rw [signedAll]; exact exported.consecutive) (by rw [signedAll]; exact exported.events)
  rw [exported.stored]
  simp [rendered, artifacts, signedArtifacts, Sealed.sig]

theorem Exact.published_of_tail (exported : w.Exact rows store published signed (some g)) : published = true := by
  by_contra hidden
  exact nomatch (exported.keyed (Bool.not_eq_true _ ▸ hidden)).2

theorem extends_sig (signed : List w.Sealed) (g : w.Sealed) : Extends signed (some g) (signed ++ [g]) none := by
  refine ⟨prefix_append _ _, ?_⟩
  intro h mem
  cases mem
  exact .inr prefix_rfl

theorem Exact.lastExportedHead (exported : w.Exact rows store published signed tail)
    (intact : (links w.codec providerStream).Chain 1 [] rows) :
    Throughout (Grown rows store signed tail) store (w.lastExportedHead s store).puts ∧
      ∀ last hash repaired, (w.lastExportedHead s store).result = .ok (last, hash, repaired) →
        ∃ signed', w.Exact rows (store.putAll (w.lastExportedHead s store).puts) published signed' none ∧
          last = covered signed' ∧ hash = hashOf signed' ∧ covered signed' = covered signed + repaired ∧
          Extends signed tail signed' none ∧ store <+: store.putAll (w.lastExportedHead s store).puts := by
  cases tail with
  | none =>
    by_cases many : maxWORMSegmentArtifacts < (artifacts signed none).length
    · rw [lastExportedHead, exported.scan_many many]
      exact ⟨grown_refl exported, nofun⟩
    rw [lastExportedHead, exported.scan_complete intact (Nat.le_of_not_lt many)]
    refine ⟨grown_refl exported, ?_⟩
    intro last hash repaired ok
    cases ok
    exact ⟨signed, exported, rfl, rfl, rfl, extends_refl signed none, prefix_rfl⟩
  | some g =>
    obtain rfl := exported.published_of_tail
    obtain ⟨fault, failed⟩ | repaired := exported.scan_repair intact
    · rw [failed]
      exact ⟨grown_refl exported, nofun⟩
    obtain ⟨kept, after⟩ := exported.put_sig
    rw [repaired]
    refine ⟨⟨grown_refl exported, true, signed ++ [g], none, after, extends_sig signed g, kept⟩, ?_⟩
    intro last hash count ok
    cases ok
    exact ⟨signed ++ [g], after, rfl, rfl, covered_concat signed g, extends_sig signed g, kept⟩

structure Behind (published : Bool) (signed : List w.Sealed) (cursor : WormExportCursor) : Prop where
  lastSeq : cursor.lastSeq = covered signed
  anchorHash : cursor.anchorHash = hashOf signed
  ensured : cursor.publicKeyEnsured = true → published = true

def pubPuts (w : Exporter) (published : Bool) : List Put := if published then [] else [⟨pubKey, pubObject w.pubPEM⟩]

variable {cursor : WormExportCursor}

theorem Exact.publicKeyPuts (exported : w.Exact rows store published signed none)
    (behind : Behind published signed cursor) : w.publicKeyPuts store cursor = .ok (w.pubPuts published) := by
  unfold Exporter.publicKeyPuts
  cases published with
  | true =>
    have held : store.get pubKey = some (pubObject w.pubPEM) := exported.get mem_cons_self
    by_cases known : cursor.publicKeyEnsured
    · rw [if_pos known]
      rfl
    · rw [if_neg known, ensurePublicKey, getLimited_some held w.pubSize]
      exact if_neg (not_not.mpr rfl)
  | false =>
    obtain ⟨rfl, -⟩ := exported.keyed rfl
    have empty : store = [] := exported.stored
    have unknown : ¬cursor.publicKeyEnsured = true := fun known => nomatch behind.ensured known
    rw [if_neg unknown, empty]
    rfl

theorem Exact.pubPuts (exported : w.Exact rows store published signed none) :
    Throughout (Grown rows store signed none) store (w.pubPuts published) ∧
      w.Exact rows (store.putAll (w.pubPuts published)) true signed none ∧ store <+: store.putAll (w.pubPuts published) := by
  cases published with
  | true => exact ⟨grown_refl exported, exported, prefix_rfl⟩
  | false =>
    obtain ⟨kept, after⟩ := exported.put_pub
    exact ⟨⟨grown_refl exported, true, signed, none, after, extends_refl signed none, kept⟩, after, kept⟩

theorem Exact.nextPage {events : List (Event w.codec.Data)} (intact : Intact w.codec s)
    (chain : (links w.codec providerStream).Chain 1 [] s.rows) (exported : w.Exact s.rows store published signed none)
    (behind : Behind published signed cursor) (ok : w.nextPage s cursor = .ok events) :
    events.length ≤ maxExportPageSize ∧
      eventsOf signed ++ events.map minimizeEventForWORM <+: s.rows.map minimizeRow := by
  unfold Exporter.nextPage at ok
  rw [behind.lastSeq] at ok
  obtain ⟨listed, read, ok⟩ := bind_ok ok
  obtain ⟨few, ok⟩ := guard_ok ok
  obtain ⟨⟨⟩, -, ok⟩ := bind_ok ok
  cases ok
  refine ⟨Nat.le_of_not_lt few, ?_⟩
  have first : eventsOf signed <+: s.rows.map minimizeRow := by
    have events := exported.events
    rwa [toList_none, append_nil] at events
  have page : ((s.rows.drop (covered signed)).take (clampLimit maxExportPageSize)).map minimizeRow <+:
      (s.rows.map minimizeRow).drop (covered signed) := by
    rw [← map_drop]
    exact ( take_prefix _ _).map minimizeRow
  have joined := (prefix_append_right_inj (eventsOf signed)).mpr page
  rw [covered, prefix_iff_eq_append.mp first] at joined
  rw [listProvider_ok intact chain read]
  exact joined

theorem Exact.newSegment {events : List (Event w.codec.Data)}
    (chain : (links w.codec providerStream).Chain 1 [] rows) (exported : w.Exact rows store published signed none)
    (head : events.head? = some first) (back : events.getLast? = some last) (few : events.length ≤ maxExportPageSize)
    (listed : eventsOf signed ++ events.map minimizeEventForWORM <+: rows.map minimizeRow)
    (ok : w.marshalBounded (w.newSegment first last events now) = .ok raw) :
    ∃ g, g.segment = w.newSegment first last events now ∧ g.raw = raw ∧ Next rows signed g ∧
      last.seq = covered (signed ++ [g]) ∧ last.hash = hashOf (signed ++ [g]) := by
  obtain ⟨marshalled', marshalled, ok⟩ := bind_ok ok
  obtain ⟨small, ok⟩ := guard_ok ok
  cases ok
  have filled : events.map minimizeEventForWORM ≠ [] := by
    intro none
    rw [map_eq_nil_iff.mp none] at head
    cases head
  have whole := (minimized_chain chain).1
  obtain ⟨behind, split⟩ := listed
  rw [← split] at whole
  have page := (chain_append.mp (chain_append.mp whole).1).2
  obtain ⟨rest, opened⟩ := head?_eq_some_iff.mp head
  obtain ⟨front, closed⟩ := getLast?_eq_some_iff.mp back
  have starts : first.seq = 1 + (covered signed) := by
    rw [opened] at page
    exact page.1
  have size : events.length = front.length + 1 := by rw [closed, length_append, length_singleton]
  have ends : last.seq = 1 + (covered signed) + front.length := by
    rw [closed, map_append] at page
    have seq := (chain_concat.mp page).2.1
    rw [length_map] at seq
    exact seq
  obtain ⟨g, segment, bytes⟩ : ∃ g : w.Sealed, g.segment = w.newSegment first last events now ∧ g.raw = raw :=
    ⟨⟨w.newSegment first last events now, raw, mapError_ok marshalled, Nat.le_of_not_lt small, rfl, rfl, filled,
      by rw [Exporter.newSegment, length_map]; exact few⟩, rfl, rfl⟩
  have count : g.segment.events.length = events.length := by
    rw [segment]
    exact length_map _
  have gathered : eventsOf (signed ++ [g]) = eventsOf signed ++ events.map minimizeEventForWORM := by
    simp [eventsOf, segment, Exporter.newSegment]
  refine ⟨g, segment, bytes, ⟨?_, ?_⟩, ?_, ?_⟩
  · have before := exported.consecutive
    rw [toList_none, append_nil] at before
    refine consecutive_append.mpr ⟨before, ?_, ?_, trivial⟩
    · rw [segment]
      exact_mod_cast starts
    · rw [count, segment]
      change last.seq = _
      omega
  · rw [gathered]
    exact ⟨behind, split⟩
  · rw [covered_concat]
    omega
  · rw [hashOf, gathered, closed, map_append, ← append_assoc, map_singleton, tail_concat]
    rfl

theorem Exact.exportPage (intact : Intact w.codec s)
    (chain : (links w.codec providerStream).Chain 1 [] s.rows) (exported : w.Exact s.rows store published signed none)
    (behind : Behind published signed cursor) (now : Int) :
    Throughout (Grown s.rows store signed none) store (w.exportPage s store cursor now).puts ∧
      ∀ cursor' n, (w.exportPage s store cursor now).result = .ok (cursor', n) →
        ∃ signed', w.Exact s.rows (store.putAll (w.exportPage s store cursor now).puts) true signed' none ∧
          Behind true signed' cursor' ∧ covered signed' = covered signed + n ∧ Extends signed none signed' none ∧
          store <+: store.putAll (w.exportPage s store cursor now).puts := by
  obtain ⟨opened, keyed, kept⟩ := exported.pubPuts
  unfold Exporter.exportPage
  cases page : w.nextPage s cursor with
  | error fault => exact ⟨grown_refl exported, nofun⟩
  | ok events =>
    obtain ⟨few, listed⟩ := Exact.nextPage intact chain exported behind page
    rw [exported.publicKeyPuts behind]
    dsimp only
    split
    · rename_i first last head back
      cases sealed' : w.marshalBounded (w.newSegment first last events now) with
      | error fault => exact ⟨opened, nofun⟩
      | ok raw =>
        obtain ⟨g, segment, rfl, next, reached, hash⟩ := Exact.newSegment chain exported head back few listed sealed'
        obtain ⟨kept₁, unsigned⟩ := keyed.put_json next
        obtain ⟨kept₂, after⟩ := unsigned.put_sig
        have middle := kept.trans kept₁
        have finish := middle.trans kept₂
        have half : Extends signed none signed (some g) := ⟨prefix_rfl, nofun⟩
        have whole : Extends signed none (signed ++ [g]) none := ⟨prefix_append _ _, nofun⟩
        have puts : w.segmentPuts (w.newSegment first last events now) g.raw =
            [⟨g.key, jsonObject g.raw⟩, ⟨g.key ++ sigSuffix, sigObject (w.sign g.raw)⟩] := by
          rw [← segment]
          rfl
        dsimp only
        have size : covered (signed ++ [g]) = covered signed + events.length := by
          rw [covered_concat, segment]
          exact congrArg _ (length_map _)
        rw [puts]
        constructor
        · refine throughout_append opened ⟨⟨true, signed, none, keyed, extends_refl signed none, kept⟩, ?_, ?_⟩
          · exact ⟨true, signed, some g, unsigned, half, middle⟩
          · exact ⟨true, signed ++ [g], none, after, whole, finish⟩
        · intro cursor' n ok
          cases ok
          rw [Store.putAll, foldl_append]
          exact ⟨signed ++ [g], after, ⟨reached, hash, fun _ => rfl⟩, size, whole, finish⟩
    · refine ⟨opened, ?_⟩
      intro cursor' n ok
      cases ok
      exact ⟨signed, keyed, { behind with ensured := fun _ => rfl }, rfl, extends_refl signed none, kept⟩

theorem Exact.exportOnce (intact : Intact w.codec s)
    (chain : (links w.codec providerStream).Chain 1 [] s.rows) (exported : w.Exact s.rows store published signed tail)
    (now : Int) :
    Throughout (Grown s.rows store signed tail) store (w.exportOnce s store now).puts ∧
      ∀ n, (w.exportOnce s store now).result = .ok n →
        ∃ signed', w.Exact s.rows (store.putAll (w.exportOnce s store now).puts) true signed' none ∧
          covered signed' = covered signed + n ∧ Extends signed tail signed' none ∧
          store <+: store.putAll (w.exportOnce s store now).puts := by
  obtain ⟨scanned, reached⟩ := exported.lastExportedHead chain
  cases result : (w.lastExportedHead s store).result with
  | error fault =>
    have whole : w.exportOnce s store now = ⟨(w.lastExportedHead s store).puts, .error fault⟩ := by
      simp only [Exporter.exportOnce, result]
    rw [whole]
    exact ⟨scanned, nofun⟩
  | ok out =>
    obtain ⟨last, hash, repaired⟩ := out
    obtain ⟨signed₁, exported₁, rfl, rfl, size₁, moved₁, kept₁⟩ := reached last hash repaired result
    have behind : Behind published signed₁ ⟨covered signed₁, hashOf signed₁, false⟩ := ⟨rfl, rfl, nofun⟩
    obtain ⟨paged, finished⟩ := exported₁.exportPage intact chain behind now
    have whole : w.exportOnce s store now =
        ⟨(w.lastExportedHead s store).puts ++
            (w.exportPage s (store.putAll (w.lastExportedHead s store).puts) ⟨covered signed₁, hashOf signed₁, false⟩ now).puts,
          (w.exportPage s (store.putAll (w.lastExportedHead s store).puts) ⟨covered signed₁, hashOf signed₁, false⟩
            now).result.map fun out => repaired + out.2⟩ := by
      simp only [Exporter.exportOnce, result]
    rw [whole]
    generalize w.exportPage s (store.putAll (w.lastExportedHead s store).puts) ⟨covered signed₁, hashOf signed₁, false⟩ now =
      page at *
    refine ⟨throughout_append scanned (throughout_imp (fun _ grown => grown_trans moved₁ kept₁ grown) paged), ?_⟩
    intro n ok
    cases paging : page.result with
    | error fault =>
      rw [paging] at ok
      cases ok
    | ok out =>
      obtain ⟨cursor', count⟩ := out
      obtain ⟨signed₂, exported₂, -, size₂, moved₂, kept₂⟩ := finished cursor' count paging
      rw [paging] at ok
      cases ok
      have size : covered signed₂ = covered signed + (repaired + count) := by omega
      rw [Store.putAll, foldl_append]
      exact ⟨signed₂, exported₂, size, extends_trans moved₁ moved₂, kept₁.trans kept₂⟩

end Exact

end Exporter

end Probectl.Audit
