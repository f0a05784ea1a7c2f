import Probectl.Audit.WormPages

/-! Runs of the exporter beside provider appends: calls that stop after any put, cycles
that carry their cursor from page to page, and restarts that lose it. -/
namespace Probectl.Audit

open Strings List HashChain Text Exporter Links Option Nat

def Plan.done {α : Type} (plan : Plan α) (stop : Nat) : Option α :=
  if plan.puts.length ≤ stop then plan.result.toOption else none

structure Worm (w : Exporter) where
  provider : Stream
  store : Store
  cursor : Option WormExportCursor

def Worm.start (w : Exporter) : Worm w := ⟨⟨[], none⟩, [], none⟩

/-- Export calls are made one after the other; `stop` is how many puts one gets done. -/
inductive WormAct (Data : Type) where
  | append (e : Entry Data)
  | exportOnce (now : Int) (stop : Nat)
  | startCycle (stop : Nat)
  | page (now : Int) (stop : Nat)
  | restart

namespace Worm
variable {w : Exporter} (db : Database)

def pagePlan (s : Worm w) (now : Int) : Option (Plan (WormExportCursor × Nat)) :=
  s.cursor.map fun cursor => w.exportPage s.provider s.store cursor now

def step (s : Worm w) : WormAct w.codec.Data → Worm w
  | .append e =>
    match providerAppendTx w.codec db s.provider e with
    | .ok (_, provider) => { s with provider }
    | .error _ => s
  | .exportOnce now stop =>
    { s with store := s.store.putAll ((w.exportOnce s.provider s.store now).puts.take stop), cursor := none }
  | .startCycle stop =>
    let plan := w.lastExportedHead s.provider s.store
    { s with
      store := s.store.putAll (plan.puts.take stop),
      cursor := (plan.done stop).map fun out => ⟨out.1, out.2.1, false⟩ }
  | .page now stop =>
    match s.pagePlan now with
    | none => s
    | some plan => { s with store := s.store.putAll (plan.puts.take stop), cursor := (plan.done stop).map Prod.fst }
  | .restart => { s with cursor := none }

def run (s : Worm w) (acts : List (WormAct w.codec.Data)) : Worm w := acts.foldl (step db) s

theorem run_append (s : Worm w) (acts more : List (WormAct w.codec.Data)) :
    s.run db (acts ++ more) = (s.run db acts).run db more := foldl_append

def completes (s : Worm w) : WormAct w.codec.Data → Bool
  | .exportOnce now stop => ((w.exportOnce s.provider s.store now).done stop).isSome
  | .page now stop => ((s.pagePlan now).bind fun plan => plan.done stop).isSome
  | _ => false

def artifactCount (s : Worm w) : Nat :=
  ((s.store.map Prod.fst).filter fun key => (wormPrefix ++ lit "segment-").isPrefixOf key).length

/-! The invariant. -/

structure Inv (s : Worm w) (published : Bool) (signed : List w.Sealed) (tail : Option w.Sealed) : Prop where
  intact : Intact w.codec s.provider
  unpruned : s.provider.anchor.prunedSeq = 0
  exported : w.Exact s.provider.rows s.store published signed tail
  cursor : ∀ cursor ∈ s.cursor, tail = none ∧ Exporter.Behind published signed cursor

variable {db}

theorem inv_start : Inv (start w) false [] none :=
  ⟨intact_empty, rfl, ⟨rfl, fun _ => ⟨rfl, rfl⟩, trivial, nil_prefix⟩, nofun⟩

variable {store : Store}

section Step
variable {s : Worm w} {published : Bool} {signed : List w.Sealed} {tail : Option w.Sealed}

theorem Inv.chain (inv : Inv s published signed tail) :
    (links w.codec providerStream).Chain 1 [] s.provider.rows := by
  have chain := inv.intact.chain
  have hash := (validate_ok.mp inv.intact.valid).2.2.2.mp inv.unpruned
  rwa [inv.unpruned, hash] at chain

structure Stepped (s : Worm w) (signed : List w.Sealed) (tail : Option w.Sealed) (s' : Worm w) (completed : Bool) : Prop where
  after : ∃ published' signed' tail', Inv s' published' signed' tail' ∧ Exporter.Extends signed tail signed' tail' ∧
    (completed = true → tail' = none)
  kept : s.store <+: s'.store

theorem stepped_of_grown (inv : Inv s published signed tail)
    (grown : Exporter.Grown s.provider.rows s.store signed tail store) :
    Stepped s signed tail { s with store, cursor := none } false := by
  obtain ⟨published', signed', tail', exported, moved, kept⟩ := grown
  exact ⟨⟨published', signed', tail', ⟨inv.intact, inv.unpruned, exported, nofun⟩, moved, nofun⟩, kept⟩

theorem done_some {plan : Plan α} (done : plan.done stop = some out) :
    plan.puts.take stop = plan.puts ∧ plan.result = .ok out := by
  unfold Plan.done at done
  split at done
  · rename_i enough
    refine ⟨take_of_length_le enough, ?_⟩
    cases result : plan.result with
    | error fault =>
      rw [result] at done
      cases done
    | ok value =>
      rw [result] at done
      cases done
      rfl
  · cases done

section
variable (inv : Inv s published signed tail)
include inv

theorem Inv.append {provider : Stream}
    (ok : providerAppendTx w.codec db s.provider e = .ok (row, provider)) :
    Inv { s with provider } published signed tail ∧ provider.rows = s.provider.rows ++ [row] := by
  obtain ⟨-, ok⟩ := Run.guard_ok ok
  obtain ⟨intact, rows, prunedSeq, -⟩ := append_intact inv.intact ok
  obtain ⟨stored, keyed, consecutive, events⟩ := inv.exported
  have grown : s.provider.rows.map minimizeRow <+: provider.rows.map minimizeRow := by
    rw [rows, map_append]
    exact prefix_append _ _
  exact ⟨⟨intact, prunedSeq.trans inv.unpruned, ⟨stored, keyed, consecutive, events.trans grown⟩, inv.cursor⟩, rows⟩

theorem step_append (e : Entry w.codec.Data) : Stepped s signed tail (s.step db (.append e)) false := by
  dsimp only [step]
  split
  · rename_i row provider ok
    exact ⟨⟨published, signed, tail, (inv.append ok).1, extends_refl signed tail, nofun⟩, prefix_rfl⟩
  · exact ⟨⟨published, signed, tail, inv, extends_refl signed tail, nofun⟩, prefix_rfl⟩

theorem step_startCycle (stop : Nat) : Stepped s signed tail (s.step db (.startCycle stop)) false := by
  obtain ⟨throughout, finished⟩ := inv.exported.lastExportedHead inv.chain
  dsimp only [step]
  cases done : (w.lastExportedHead s.provider s.store).done stop with
  | none => exact stepped_of_grown inv (throughout_take throughout stop)
  | some out =>
    obtain ⟨last, hash, repaired⟩ := out
    obtain ⟨all, ok⟩ := done_some done
    obtain ⟨signed', exported, rfl, rfl, -, moved, kept⟩ := finished last hash repaired ok
    rw [all]
    refine ⟨⟨published, signed', none, ⟨inv.intact, inv.unpruned, exported, ?_⟩, moved, nofun⟩, kept⟩
    intro cursor mem
    cases mem
    exact ⟨rfl, rfl, rfl, nofun⟩

theorem step_page (now : Int) (stop : Nat) :
    Stepped s signed tail (s.step db (.page now stop)) (s.completes (.page now stop)) := by
  dsimp only [step, completes, pagePlan]
  cases held : s.cursor with
  | none => exact ⟨⟨published, signed, tail, inv, extends_refl signed tail, nofun⟩, prefix_rfl⟩
  | some cursor =>
    obtain ⟨rfl, behind⟩ := inv.cursor cursor held
    obtain ⟨throughout, finished⟩ := inv.exported.exportPage inv.intact inv.chain behind now
    dsimp only [map_some, bind_some]
    cases done : (w.exportPage s.provider s.store cursor now).done stop with
    | none => exact stepped_of_grown inv (throughout_take throughout stop)
    | some out =>
      obtain ⟨cursor', n⟩ := out
      obtain ⟨all, ok⟩ := done_some done
      obtain ⟨signed', exported, behind', -, moved, kept⟩ := finished cursor' n ok
      rw [all]
      refine ⟨⟨true, signed', none, ⟨inv.intact, inv.unpruned, exported, ?_⟩, moved, fun _ => rfl⟩, kept⟩
      intro cursor mem
      cases mem
      exact ⟨rfl, behind'⟩

theorem step_exportOnce (now : Int) (stop : Nat) :
    Stepped s signed tail (s.step db (.exportOnce now stop)) (s.completes (.exportOnce now stop)) := by
  obtain ⟨throughout, finished⟩ := inv.exported.exportOnce inv.intact inv.chain now
  dsimp only [step, completes]
  cases done : (w.exportOnce s.provider s.store now).done stop with
  | none => exact stepped_of_grown inv (throughout_take throughout stop)
  | some n =>
    obtain ⟨all, ok⟩ := done_some done
    obtain ⟨signed', exported, -, moved, kept⟩ := finished n ok
    rw [all]
    exact ⟨⟨true, signed', none, ⟨inv.intact, inv.unpruned, exported, nofun⟩, moved, fun _ => rfl⟩, kept⟩

theorem step_inv (act : WormAct w.codec.Data) : Stepped s signed tail (s.step db act) (s.completes act) := by
  cases act with
  | append e => exact step_append inv e
  | exportOnce now stop => exact step_exportOnce inv now stop
  | startCycle stop => exact step_startCycle inv stop
  | page now stop => exact step_page inv now stop
  | restart =>
    exact ⟨⟨published, signed, tail, { inv with cursor := nofun },
      extends_refl signed tail, nofun⟩, prefix_rfl⟩

theorem run_inv (acts : List (WormAct w.codec.Data)) : Stepped s signed tail (s.run db acts) false := by
  induction acts generalizing s published signed tail with
  | nil => exact ⟨⟨published, signed, tail, inv, extends_refl signed tail, nofun⟩, prefix_rfl⟩
  | cons act rest ih =>
    have first : Stepped s signed tail (s.step db act) (s.completes act) := step_inv inv act
    obtain ⟨⟨published₁, signed₁, tail₁, inv₁, moved₁, -⟩, kept₁⟩ := first
    obtain ⟨⟨published₂, signed₂, tail₂, inv₂, moved₂, -⟩, kept₂⟩ := ih inv₁
    exact ⟨⟨published₂, signed₂, tail₂, inv₂, extends_trans moved₁ moved₂, nofun⟩, kept₁.trans kept₂⟩

end

end Step

/-! What the strict readers say. -/

section Readers
variable {s : Worm w} {published : Bool} {signed : List w.Sealed} {tail : Option w.Sealed}

theorem Inv.artifactCount (inv : Inv s published signed tail) : s.artifactCount = (artifacts signed tail).length := by
  unfold Worm.artifactCount
  rw [inv.exported.stored, segment_names inv.exported.consecutive, length_map]

theorem Inv.exportedWatermark (inv : Inv s published signed tail)
    (ok : w.exportedWatermark s.provider s.store = .ok n) : tail = none ∧ n = covered signed := by
  unfold Exporter.exportedWatermark at ok
  cases tail with
  | some g =>
    obtain ⟨fault, failed⟩ := inv.exported.scan_strict false
    rw [failed] at ok
    cases ok
  | none =>
    by_cases many : maxWORMSegmentArtifacts < (artifacts signed none).length
    · rw [inv.exported.scan_many many] at ok
      cases ok
    · rw [inv.exported.scan_complete inv.chain (Nat.le_of_not_lt many)] at ok
      cases ok
      exact ⟨rfl, rfl⟩

theorem Inv.verifyWORMChain (inv : Inv s published signed none) (limited : s.artifactCount ≤ maxWORMSegmentArtifacts) :
    w.verifyWORMChain s.provider s.store = .ok () ∧
      w.exportedWatermark s.provider s.store = .ok (covered signed) := by
  rw [inv.artifactCount] at limited
  unfold Exporter.verifyWORMChain Exporter.exportedWatermark
  rw [inv.exported.scan_complete inv.chain limited]
  exact ⟨rfl, rfl⟩

theorem Inv.seqs (inv : Inv s published signed tail) :
    (eventsOf signed).map WormEvent.seq = (range (covered signed)).map fun i => 1 + (i : Int) := by
  have chain := inv.exported.chain inv.chain
  rw [eventsOf_append] at chain
  exact chain_seqs (chain_append.mp chain).1

end Readers

theorem covered_mono {signed : List w.Sealed} (kept : signed <+: signed') :
    covered signed ≤ covered signed' := by
  obtain ⟨more, rfl⟩ := kept
  rw [covered, covered, eventsOf_append, length_append]
  exact le_add_right _ _

theorem get_of_prefix {store' : Store} (kept : store <+: store')
    (held : store.get key = some object) : store'.get key = some object := by
  obtain ⟨more, rfl⟩ := kept
  rw [Store.get, lookup_append, show lookup key store = some object from held]
  rfl

structure Sound (db : Database) (s : Worm w) (signed : List w.Sealed) (tail : Option w.Sealed) : Prop where
  /-- the store is these segments, and they are the first rows of the source -/
  exported : ∃ published, w.Exact s.provider.rows s.store published signed tail
  /-- the signed ones hold each sequence number once, from one on -/
  seqs : (eventsOf signed).map WormEvent.seq = (range (covered signed)).map fun i => 1 + (i : Int)
  watermark : ∀ n, w.exportedWatermark s.provider s.store = .ok n → tail = none ∧ n = covered signed
  /-- an export that completes leaves nothing unsigned, and the verifier accepts what it can list -/
  completed : ∀ act, s.completes act = true →
    ∃ published signed', w.Exact (s.step db act).provider.rows (s.step db act).store published signed' none ∧
      Exporter.Extends signed tail signed' none ∧
      ((s.step db act).artifactCount ≤ maxWORMSegmentArtifacts →
        w.verifyWORMChain (s.step db act).provider (s.step db act).store = .ok () ∧
          w.exportedWatermark (s.step db act).provider (s.step db act).store = .ok (covered signed'))

theorem Inv.sound {signed : List w.Sealed} {tail : Option w.Sealed}
    (inv : Inv s published signed tail) : Sound db s signed tail where
  exported := ⟨published, inv.exported⟩
  seqs := inv.seqs
  watermark _ ok := inv.exportedWatermark ok
  completed := by
    intro act completed
    have stepped : Stepped s signed tail (s.step db act) (s.completes act) := step_inv inv act
    obtain ⟨⟨published', signed', tail', inv', moved, finished⟩, -⟩ := stepped
    obtain rfl := finished completed
    exact ⟨published', signed', inv'.exported, moved, inv'.verifyWORMChain⟩

/-- Every state of a run is sound. From one to a later one nothing stored changes, an
unsigned segment is signed as it is before anything follows it, and the watermark does
not decrease. -/
theorem worm_exact (w : Exporter) (db : Database) (acts more : List (WormAct w.codec.Data)) :
    ∃ signed tail signed' tail',
      Sound db ((start w).run db acts) signed tail ∧ Sound db ((start w).run db (acts ++ more)) signed' tail' ∧
      Exporter.Extends signed tail signed' tail' ∧
      (∀ key object, ((start w).run db acts).store.get key = some object →
        ((start w).run db (acts ++ more)).store.get key = some object) ∧
      ∀ n n', w.exportedWatermark ((start w).run db acts).provider ((start w).run db acts).store = .ok n →
        w.exportedWatermark ((start w).run db (acts ++ more)).provider ((start w).run db (acts ++ more)).store = .ok n' →
        n ≤ n' := by
  have early : Stepped (start w) [] none ((start w).run db acts) false := run_inv inv_start acts
  obtain ⟨⟨published, signed, tail, inv, -, -⟩, -⟩ := early
  have late : Stepped ((start w).run db acts) signed tail (((start w).run db acts).run db more) false := run_inv inv more
  rw [run_append]
  obtain ⟨⟨published', signed', tail', inv', moved, -⟩, kept⟩ := late
  refine ⟨signed, tail, signed', tail', inv.sound, inv'.sound, moved, fun key object held => get_of_prefix kept held, ?_⟩
  intro n n' ok ok'
  obtain ⟨-, rfl⟩ := inv.exportedWatermark ok
  obtain ⟨-, rfl⟩ := inv'.exportedWatermark ok'
  exact_mod_cast covered_mono moved.1

end Worm

/-! Past the artifact limit: single-event exports, one after the other. -/

namespace Capacity

def codec : Codec := { symbolic with hash := fun _ => [7], digest := fun _ => cons_ne_nil 7 [] }

def digest : Bytes := hexEncode [7]

def prevOf (k : Nat) : Bytes := if k = 0 then [] else digest

def rowOf (k : Nat) : Row :=
  { seq := k + 1, actor := [], action := [], target := [], data := lit "\x7b\x7d", prevHash := prevOf k, hash := digest,
    createdAtMicros := 0, canonical := lit "\x7b\x7d" }

def rows (k : Nat) : List Row := (range k).map rowOf

def segmentOf (k : Nat) : WormSegment :=
  { formatVersion := 1, stream := lit "provider", fromSeq := k + 1, toSeq := k + 1, exportedAt := 1,
    events := [minimizeRow (rowOf k)] }

def exporter : Exporter where
  codec := codec
  marshal segment :=
    if segment = segmentOf (segment.fromSeq.toNat - 1) then .ok (decimal (segment.fromSeq.toNat - 1)) else .error []
  unmarshal raw := .ok (segmentOf (digitsValue raw))
  marshalEvents _ := .ok []
  sign _ := []
  verifies _ _ := true
  pubPEM := []
  round := by
    intro segment raw ok
    split at ok
    · rename_i same
      cases ok
      rw [digitsValue_decimal, ← same]
    · cases ok
  signed _ := rfl
  sigSize _ := zero_le _
  pubSize := zero_le _

def entry : Entry exporter.codec.Data := ⟨0, [], [], [], none⟩

theorem append_openTables (intact : Intact c s) (e : Entry c.Data)
    (written : canonicalAuditData c e.data = .ok canonical) :
    ∃ s', providerAppendLocked c openTables s e =
      .ok (nextRow c openTables providerStream s.anchor e.createdAtMicros e.actor e.action e.target canonical, s') := by
  unfold providerAppendLocked providerAppendLockedWith
  rw [ensureProviderStreamHead_intact intact]
  simp only [Bind.bind, Except.bind, written]
  generalize row_eq : nextRow c openTables providerStream s.anchor e.createdAtMicros e.actor e.action e.target canonical = row
  have seq : row.seq = s.anchor.headSeq + 1 := by rw [← row_eq]; rfl
  have inserted : insertRow openTables s.rows row = .ok (s.rows ++ [row]) := by
    unfold insertRow
    rw [if_neg]
    rw [not_or]
    refine ⟨nofun, ?_⟩
    intro mem
    obtain ⟨r, among, same⟩ := mem_map.mp mem
    have below := (chain_seq_bounds intact.chain among).2
    have reached := intact.reached
    omega
  simp only [inserted]
  unfold updateProviderHead Stream.anchor
  cases head : s.head with
  | none => exact ⟨_, rfl⟩
  | some h =>
    dsimp only [getD_some]
    rw [if_pos ⟨rfl, rfl⟩]
    exact ⟨_, rfl⟩

theorem rows_succ (k : Nat) : rows (k + 1) = rows k ++ [rowOf k] := by
  rw [rows, range_succ, map_append]
  rfl

theorem tail_rows (k : Nat) : (links codec providerStream).tail [] (rows k) = prevOf k := by
  cases k with
  | zero => rfl
  | succ k =>
    rw [rows_succ, tail_concat]
    rfl

structure After (k : Nat) (s : Worm exporter) : Prop where
  rows : s.provider.rows = rows k
  inv : ∃ published signed, Worm.Inv s published signed none ∧ signed.length = k ∧ covered signed = k

section Round
variable {k : Nat} {s : Worm exporter} {published : Bool} {signed : List exporter.Sealed}

theorem anchor_after (inv : Worm.Inv s published signed none) (held : s.provider.rows = rows k) :
    s.provider.anchor.headSeq = k ∧ s.provider.anchor.headHash = prevOf k := by
  have reached := inv.intact.reached
  have ends := inv.intact.ends
  have hash := (validate_ok.mp inv.intact.valid).2.2.2.mp inv.unpruned
  rw [inv.unpruned, held, rows, length_map, length_range] at reached
  rw [hash, held] at ends
  exact ⟨by omega, ends.symm.trans (tail_rows k)⟩

theorem append_round (inv : Worm.Inv s published signed none) (held : s.provider.rows = rows k) :
    ∃ provider, s.step openTables (.append entry) = { s with provider } ∧ provider.rows = rows (k + 1) ∧
      Worm.Inv { s with provider } published signed none := by
  obtain ⟨seq, hash⟩ := anchor_after inv held
  obtain ⟨provider, ok⟩ := append_openTables inv.intact entry rfl
  have row : nextRow exporter.codec openTables providerStream s.provider.anchor entry.createdAtMicros entry.actor entry.action
      entry.target (lit "\x7b\x7d") = rowOf k := by
    unfold nextRow
    rw [seq, hash]
    rfl
  rw [row] at ok
  have plain : providerAppendTx exporter.codec openTables s.provider entry = .ok (rowOf k, provider) := ok
  obtain ⟨inv', grown⟩ := inv.append plain
  refine ⟨provider, ?_, by rw [grown, held, rows_succ], inv'⟩
  dsimp only [Worm.step]
  rw [plain]

def eventOf (k : Nat) : Event exporter.codec.Data :=
  { seq := k + 1, actor := [], action := [], target := [], data := none, prevHash := prevOf k, hash := digest,
    createdAtMicros := 0, canonicalData := lit "\x7b\x7d" }

section
variable (inv : Worm.Inv s published signed none)
include inv

section
variable (held : s.provider.rows = rows (k + 1))
include held

theorem listProvider_round : listProvider exporter.codec s.provider k maxExportPageSize = .ok [eventOf k] := by
  obtain ⟨seq, -⟩ := anchor_after inv held
  have next : (after k s.provider.rows).take (clampLimit maxExportPageSize) = [rowOf k] := by
    rw [after_drop inv.chain, held, rows_succ, drop_left' (by rw [rows, length_map, length_range])]
    rfl
  have first : (eventOf k).seq = k + 1 := rfl
  unfold listProvider
  rw [if_neg (by omega), ensureProviderStreamHead_intact inv.intact]
  simp only [Bind.bind, Except.bind, Except.mapError]
  rw [inv.unpruned, if_neg (by omega), if_neg (by omega), next]
  change checkFirst s.provider.anchor k [eventOf k] = _
  unfold checkFirst
  rw [if_neg (by omega)]
  dsimp only
  rw [if_neg (not_not.mpr first)]

theorem hashOf_round (size : covered signed = k) : hashOf signed = prevOf k := by
  have events := inv.exported.events
  have chain := inv.chain
  rw [toList_none, append_nil, prefix_iff_eq_take] at events
  rw [held, rows_succ] at chain events
  rw [map_append, show (eventsOf signed).length = k from size,
    take_left' (by rw [length_map, rows, length_map, length_range])] at events
  rw [hashOf, events, (minimized_chain (chain_append.mp chain).1).2]
  exact tail_rows k

theorem exportPage_round (size : covered signed = k) (small : k < 10 ^ 7) :
    (exporter.exportPage s.provider s.store ⟨covered signed, hashOf signed, false⟩ 1).puts.length ≤ 3 ∧
      ∃ cursor, (exporter.exportPage s.provider s.store ⟨covered signed, hashOf signed, false⟩ 1).result =
        .ok (cursor, 1) := by
  have behind : Exporter.Behind published signed ⟨covered signed, hashOf signed, false⟩ :=
    ⟨rfl, rfl, nofun⟩
  have hash := hashOf_round inv held size
  have validated : validateProviderSource exporter.codec 0 (k + 1) (prevOf k) [eventOf k] = .ok () := by
    unfold validateProviderSource
    rw [if_neg (not_not.mpr (show (eventOf k).seq = k + 1 from rfl)),
      if_neg (not_not.mpr (show (eventOf k).prevHash = prevOf k from rfl))]
    rfl
  have page : exporter.nextPage s.provider ⟨covered signed, hashOf signed, false⟩ = .ok [eventOf k] := by
    unfold nextPage
    rw [size, hash, listProvider_round inv held]
    simp only [Bind.bind, Except.bind, validated]
    exact if_neg (show ¬maxExportPageSize < 1 by decide)
  have marshalled : exporter.marshalBounded (exporter.newSegment (eventOf k) (eventOf k) [eventOf k] 1) =
      .ok (decimal k) := by
    have length := decimal_length_le (by decide) small
    have written : exporter.marshal (segmentOf k) = .ok (decimal k) := by
      have number : (segmentOf k).fromSeq.toNat - 1 = k := by
        change ((k : Int) + 1).toNat - 1 = k
        omega
      change (if segmentOf k = segmentOf ((segmentOf k).fromSeq.toNat - 1) then
        Except.ok (decimal ((segmentOf k).fromSeq.toNat - 1)) else Except.error []) = _
      rw [number, if_pos rfl]
    unfold marshalBounded
    rw [show exporter.newSegment (eventOf k) (eventOf k) [eventOf k] 1 = segmentOf k from rfl, written]
    simp only [Bind.bind, Except.bind, Except.mapError]
    rw [if_neg]
    unfold maxWORMSegmentBytes
    omega
  have whole : exporter.exportPage s.provider s.store ⟨covered signed, hashOf signed, false⟩ 1 =
      ⟨exporter.pubPuts published ++ exporter.segmentPuts (exporter.newSegment (eventOf k) (eventOf k) [eventOf k] 1)
        (decimal k), .ok (⟨(eventOf k).seq, (eventOf k).hash, true⟩, 1)⟩ := by
    simp only [exportPage, page, inv.exported.publicKeyPuts behind, head?_cons, getLast?_singleton,
      marshalled, length_singleton]
  rw [whole]
  refine ⟨?_, _, rfl⟩
  cases published with
  | false => exact le_refl 3
  | true => exact le_succ 2

end

end

theorem length_le_covered {w : Exporter} (gs : List w.Sealed) : gs.length ≤ covered gs := by
  induction gs with
  | nil => exact le_refl 0
  | cons g gs ih =>
    have filled : 0 < g.segment.events.length := length_pos_iff.mpr g.filled
    rw [covered_cons, length_cons]
    omega

theorem after_round (reached : After k s) (small : k ≤ 100000) :
    After (k + 1) ((s.step openTables (.append entry)).step openTables (.exportOnce 1 3)) ∧
      (s.step openTables (.append entry)).completes (.exportOnce 1 3) = true := by
  obtain ⟨published, signed, inv, count, size⟩ := reached.inv
  obtain ⟨provider, stepped, held, inv'⟩ := append_round inv reached.rows
  have within : (artifacts signed none).length ≤ maxWORMSegmentArtifacts := by
    rw [artifacts_length, toList_none, length_nil]
    unfold maxWORMSegmentArtifacts
    omega
  obtain ⟨few, cursor, paged⟩ := exportPage_round inv' held size (by omega)
  have scanned : exporter.lastExportedHead provider s.store = ⟨[], .ok (covered signed, hashOf signed, 0)⟩ :=
    inv'.exported.scan_complete inv'.chain within true true
  have once : exporter.exportOnce provider s.store 1 =
      ⟨(exporter.exportPage provider s.store ⟨covered signed, hashOf signed, false⟩ 1).puts, .ok 1⟩ := by
    simp only [exportOnce, scanned, Store.putAll, foldl_nil, paged]
    rfl
  have all : (exporter.exportOnce provider s.store 1).puts.length ≤ 3 := by
    rw [once]
    exact few
  have done : (exporter.exportOnce provider s.store 1).done 3 = some 1 := by
    rw [Plan.done, if_pos all, once]
    rfl
  obtain ⟨-, finished⟩ := inv'.exported.exportOnce inv'.intact inv'.chain 1
  obtain ⟨signed', exported, size', ⟨⟨more, rfl⟩, -⟩, -⟩ := finished 1 (by rw [once])
  rw [stepped]
  refine ⟨⟨held, true, signed ++ more, ⟨inv'.intact, inv'.unpruned, ?_, by rintro _ ⟨⟩⟩, ?_, by omega⟩, ?_⟩
  · dsimp only [Worm.step]
    rw [take_of_length_le all]
    exact exported
  · have fewer := length_le_covered (signed ++ more)
    have some : more ≠ [] := by
      rintro rfl
      rw [append_nil] at size'
      omega
    have positive := length_pos_iff.mpr some
    rw [length_append] at fewer ⊢
    omega
  · dsimp only [Worm.completes]
    rw [done]
    rfl

end Round

def reached : Nat → Worm exporter
  | 0 => Worm.start exporter
  | k + 1 => ((reached k).step openTables (.append entry)).step openTables (.exportOnce 1 3)

theorem reached_after (k : Nat) (small : k ≤ 100001) : After k (reached k) := by
  induction k with
  | zero => exact ⟨rfl, false, [], Worm.inv_start, rfl, rfl⟩
  | succ k ih => exact (after_round (ih (by omega)) (by omega)).1

theorem reached_run (k : Nat) : ∃ acts, reached k = (Worm.start exporter).run openTables acts := by
  induction k with
  | zero => exact ⟨[], rfl⟩
  | succ k ih =>
    obtain ⟨acts, same⟩ := ih
    refine ⟨acts ++ [.append entry, .exportOnce 1 3], ?_⟩
    rw [Worm.run_append, ← same]
    rfl

theorem refuses_next (limit : 2 * k = maxWORMSegmentArtifacts) :
    ∃ acts, ((Worm.start exporter).run openTables acts).completes (.exportOnce 1 3) = true ∧
      ∀ allow allowKey, exporter.scanWORMChainWithOptions
        (((Worm.start exporter).run openTables acts).step openTables (.exportOnce 1 3)).provider
        (((Worm.start exporter).run openTables acts).step openTables (.exportOnce 1 3)).store allow allowKey =
          ⟨[], .error .tooManyArtifacts⟩ := by
  have small : k ≤ 100000 := by
    unfold maxWORMSegmentArtifacts at limit
    omega
  obtain ⟨acts, same⟩ := reached_run k
  obtain ⟨⟨-, published, signed, inv, count, -⟩, completed⟩ := after_round (reached_after k (by omega)) small
  have many : maxWORMSegmentArtifacts < (artifacts signed none).length := by
    rw [artifacts_length]
    omega
  have last : (Worm.start exporter).run openTables (acts ++ [.append entry]) = (reached k).step openTables (.append entry) := by
    rw [Worm.run_append, ← same]
    rfl
  refine ⟨acts ++ [.append entry], ?_⟩
  rw [last]
  exact ⟨completed, inv.exported.scan_many many⟩

/-- The export that writes segment 100001 completes, and the verifier then refuses the
store it leaves. -/
theorem verify_refuses_past_limit :
    ∃ acts act, ((Worm.start exporter).run openTables acts).completes act = true ∧
      exporter.verifyWORMChain (((Worm.start exporter).run openTables acts).step openTables act).provider
          (((Worm.start exporter).run openTables acts).step openTables act).store = .error .tooManyArtifacts ∧
      exporter.exportedWatermark (((Worm.start exporter).run openTables acts).step openTables act).provider
          (((Worm.start exporter).run openTables acts).step openTables act).store = .error .tooManyArtifacts := by
  have limit : 2 * 100000 = maxWORMSegmentArtifacts := rfl
  obtain ⟨acts, completed, refused⟩ := refuses_next limit
  refine ⟨acts, .exportOnce 1 3, completed, ?_⟩
  unfold verifyWORMChain exportedWatermark
  rw [refused]
  exact ⟨rfl, rfl⟩

end Capacity

end Probectl.Audit
