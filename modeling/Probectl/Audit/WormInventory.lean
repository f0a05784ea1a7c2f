import Probectl.Audit.WormKeys

/-! Stores that hold signed segments in sequence and at most one unsigned segment
behind them: their names and the inventory a scan starts from. -/
namespace Probectl.Audit

open Strings List Nat

/-! Association lists without repeated keys. -/

variable {K V : Type} {l : List (K × V)} {k : K}

theorem lookup_of_mem [BEq K] [LawfulBEq K] (nodup : (l.map Prod.fst).Nodup)
    (mem : (k, v) ∈ l) : l.lookup k = some v := by
  induction l with
  | nil => cases mem
  | cons entry rest ih =>
    obtain ⟨first, held⟩ := entry
    obtain ⟨fresh, later⟩ := nodup_cons.mp nodup
    rcases mem_cons.mp mem with here | behind
    · obtain ⟨rfl, rfl⟩ := Prod.mk.inj here
      exact lookup_cons_self
    have other : (k == first) = false := by
      rw [beq_eq_false_iff_ne]
      rintro rfl
      exact fresh (mem_map.mpr ⟨_, behind, rfl⟩)
    rw [lookup_cons, other]
    exact ih later behind

theorem lookup_none [BEq K] [LawfulBEq K] (absent : k ∉ l.map Prod.fst) : l.lookup k = none := by
  rw [lookup_eq_none_iff]
  intro entry mem
  rw [bne_iff_ne]
  rintro rfl
  exact absent (mem_map.mpr ⟨entry, mem, rfl⟩)

/-! Exact stores. -/

structure Exporter.Sealed (w : Exporter) where
  segment : WormSegment
  raw : Bytes
  marshalled : w.marshal segment = .ok raw
  small : raw.length ≤ maxWORMSegmentBytes
  version : segment.formatVersion = 1
  stream : segment.stream = lit "provider"
  filled : segment.events ≠ []
  paged : segment.events.length ≤ maxExportPageSize

namespace Exporter
variable {w : Exporter}

def Sealed.key (g : w.Sealed) : Bytes := segmentKey g.segment.fromSeq g.segment.toSeq
def Sealed.json (g : w.Sealed) : Bytes × Object := (g.key, jsonObject g.raw)
def Sealed.sig (g : w.Sealed) : Bytes × Object := (g.key ++ sigSuffix, sigObject (w.sign g.raw))

def eventsOf (gs : List w.Sealed) : List WormEvent := gs.flatMap fun g => g.segment.events

def covered (gs : List w.Sealed) : Nat := (eventsOf gs).length

def Consecutive : Nat → List w.Sealed → Prop
  | _, [] => True
  | want, g :: rest =>
    g.segment.fromSeq = want ∧ g.segment.toSeq = want + g.segment.events.length - 1 ∧
      Consecutive (want + g.segment.events.length) rest

def signedArtifacts (signed : List w.Sealed) : Store := signed.flatMap fun g => [g.json, g.sig]

def artifacts (signed : List w.Sealed) (tail : Option w.Sealed) : Store :=
  signedArtifacts signed ++ tail.toList.map Sealed.json

def rendered (w : Exporter) (published : Bool) (signed : List w.Sealed) (tail : Option w.Sealed) : Store :=
  (if published then [(pubKey, pubObject w.pubPEM)] else []) ++ artifacts signed tail

theorem eventsOf_append (gs hs : List w.Sealed) : eventsOf (gs ++ hs) = eventsOf gs ++ eventsOf hs :=
  flatMap_append

theorem covered_cons (g : w.Sealed) (gs : List w.Sealed) : covered (g :: gs) = g.segment.events.length + covered gs := by
  simp [covered, eventsOf]

theorem covered_concat (gs : List w.Sealed) (g : w.Sealed) : covered (gs ++ [g]) = covered gs + g.segment.events.length := by
  simp [covered, eventsOf]

variable {want : Nat} {gs : List w.Sealed}

theorem consecutive_append :
    Consecutive want (gs ++ hs) ↔ Consecutive want gs ∧ Consecutive (want + covered gs) hs := by
  induction gs generalizing want with
  | nil => simp [Consecutive, covered, eventsOf]
  | cons g gs ih =>
    rw [cons_append, Consecutive, Consecutive, ih, covered_cons, add_assoc]
    simp only [and_assoc]

theorem consecutive_bounds (consecutive : Consecutive want gs) :
    ∀ g ∈ gs, ∃ m n : Nat, g.key = segmentKey m n ∧ g.segment.fromSeq = m ∧ g.segment.toSeq = n ∧
      want ≤ m ∧ m ≤ n ∧ n < want + covered gs := by
  induction gs generalizing want with
  | nil =>
    intro g mem
    cases mem
  | cons g gs ih =>
    obtain ⟨starts, ends, later⟩ := consecutive
    have filled : 0 < g.segment.events.length := length_pos_iff.mpr g.filled
    rw [covered_cons, forall_mem_cons]
    constructor
    · have last : g.segment.toSeq = ((want + g.segment.events.length - 1 : Nat) : Int) := by omega
      exact ⟨want, _, by rw [Sealed.key, starts, last], starts, last, by omega, by omega, by omega⟩
    · intro h mem
      obtain ⟨m, n, key, from', to', low, range, high⟩ := ih later h mem
      exact ⟨m, n, key, from', to', by omega, range, by omega⟩

theorem consecutive_ascending (consecutive : Consecutive want gs) :
    gs.Pairwise fun g h => g.segment.fromSeq < h.segment.fromSeq := by
  induction gs generalizing want with
  | nil => exact .nil
  | cons g gs ih =>
    obtain ⟨starts, ends, later⟩ := consecutive
    have filled : 0 < g.segment.events.length := length_pos_iff.mpr g.filled
    refine .cons ?_ (ih later)
    intro h mem
    obtain ⟨m, n, -, from', -, low, -⟩ := consecutive_bounds later h mem
    omega

/-! Names. -/

theorem mem_artifacts {signed : List w.Sealed} {tail : Option w.Sealed}
    (mem : key ∈ (artifacts signed tail).map Prod.fst) : ∃ g ∈ signed ++ tail.toList, ∃ x, key = g.key ++ x := by
  rw [artifacts, map_append, mem_append] at mem
  rcases mem with inside | last
  · obtain ⟨entry, held, rfl⟩ := mem_map.mp inside
    obtain ⟨g, among, pair⟩ := mem_flatMap.mp held
    have here := mem_append_left tail.toList among
    rcases mem_cons.mp pair with rfl | second
    · exact ⟨g, here, [], (append_nil _).symm⟩
    · rw [mem_singleton.mp second]
      exact ⟨g, here, sigSuffix, rfl⟩
  · rw [map_map, mem_map] at last
    obtain ⟨g, among, rfl⟩ := last
    exact ⟨g, mem_append_right signed among, [], (append_nil _).symm⟩

theorem artifacts_pairwise {signed : List w.Sealed} {tail : Option w.Sealed}
    (own : ∀ g ∈ signed, R g.key (g.key ++ sigSuffix))
    (later : (signed ++ tail.toList).Pairwise fun g h => ∀ x y, R (g.key ++ x) (h.key ++ y)) :
    ((artifacts signed tail).map Prod.fst).Pairwise R := by
  induction signed with
  | nil =>
    cases tail with
    | none => exact .nil
    | some g => exact pairwise_singleton R _
  | cons g signed ih =>
    obtain ⟨first, rest⟩ := pairwise_cons.mp later
    have behind (x : Bytes) : ∀ key ∈ (artifacts signed tail).map Prod.fst, R (g.key ++ x) key := by
      intro key mem
      obtain ⟨h, among, y, rfl⟩ := mem_artifacts mem
      exact first h among x y
    have plain := behind []
    rw [append_nil] at plain
    change List.Pairwise R (g.key :: (g.key ++ sigSuffix) :: (artifacts signed tail).map Prod.fst)
    refine .cons ?_ (.cons (behind sigSuffix) (ih (fun h mem => own h (mem_cons_of_mem g mem)) rest))
    rw [forall_mem_cons]
    exact ⟨own g mem_cons_self, plain⟩

section Consecutive
variable {signed : List w.Sealed} {tail : Option w.Sealed} {g : w.Sealed}

theorem consecutive_apart (consecutive : Consecutive want gs) :
    gs.Pairwise fun g h => ∀ x y, g.key ++ x ≠ h.key ++ y := by
  refine (consecutive_ascending consecutive).imp_of_mem ?_
  intro g h first second before x y same
  obtain ⟨m, n, key, starts, -⟩ := consecutive_bounds consecutive g first
  obtain ⟨m', n', key', starts', -⟩ := consecutive_bounds consecutive h second
  rw [key, key'] at same
  have := segmentKey_injective same
  omega

theorem key_ne_sig (consecutive : Consecutive want gs) (mem : g ∈ gs) : g.key ≠ g.key ++ sigSuffix := by
  obtain ⟨m, n, key, -⟩ := consecutive_bounds consecutive g mem
  rw [key]
  exact segmentKey_ne_sig m n m n

theorem segmentRange_key (consecutive : Consecutive want gs) (fits : want + covered gs < 2 ^ 63) (mem : g ∈ gs) :
    segmentRange g.key = some (g.segment.fromSeq, g.segment.toSeq) := by
  obtain ⟨m, n, key, starts, ends, -, range, high⟩ := consecutive_bounds consecutive g mem
  rw [key, segmentRange_segmentKey (by omega) (by omega), starts, ends]

theorem artifacts_nodup (consecutive : Consecutive want (signed ++ tail.toList)) :
    ((artifacts signed tail).map Prod.fst).Nodup :=
  artifacts_pairwise (fun _ mem => key_ne_sig consecutive (mem_append_left _ mem)) (consecutive_apart consecutive)

theorem pubKey_not_mem (consecutive : Consecutive want (signed ++ tail.toList)) :
    pubKey ∉ (artifacts signed tail).map Prod.fst := by
  intro mem
  obtain ⟨g, among, x, same⟩ := mem_artifacts mem
  obtain ⟨m, n, key, -⟩ := consecutive_bounds consecutive g among
  rw [key] at same
  exact pubKey_ne_segmentKey m n x same

variable {published : Bool}

theorem rendered_nodup (consecutive : Consecutive want (signed ++ tail.toList)) :
    ((w.rendered published signed tail).map Prod.fst).Nodup := by
  cases published with
  | false => exact artifacts_nodup consecutive
  | true => exact nodup_cons.mpr ⟨pubKey_not_mem consecutive, artifacts_nodup consecutive⟩

theorem consecutive_less (consecutive : Consecutive 1 gs) (fits : covered gs < 10 ^ 12) :
    gs.Pairwise fun g h => ∀ x y, less (g.key ++ x) (h.key ++ y) = true := by
  refine (consecutive_ascending consecutive).imp_of_mem ?_
  intro g h first second before x y
  obtain ⟨m, n, key, starts, -⟩ := consecutive_bounds consecutive g first
  obtain ⟨m', n', key', starts', -, -, range, high⟩ := consecutive_bounds consecutive h second
  rw [key, key']
  exact less_segmentKey (by omega) (by omega) x y

theorem artifacts_sorted (consecutive : Consecutive 1 (signed ++ tail.toList))
    (fits : covered (signed ++ tail.toList) < 10 ^ 12) :
    sort ((artifacts signed tail).map Prod.fst) = (artifacts signed tail).map Prod.fst := by
  apply Text.sort_eq
  refine artifacts_pairwise ?_ (consecutive_less consecutive fits)
  intro g mem
  exact Text.less_longer g.key (by decide)

theorem keys_sorted (consecutive : Consecutive 1 gs) (fits : covered gs < 10 ^ 12) :
    sort (gs.map Sealed.key) = gs.map Sealed.key := by
  apply Text.sort_eq
  rw [pairwise_map]
  refine (consecutive_less consecutive fits).imp ?_
  intro g h less
  simpa using less [] []

theorem segment_names (consecutive : Consecutive 1 (signed ++ tail.toList)) :
    ((w.rendered published signed tail).map Prod.fst).filter (fun key => (wormPrefix ++ lit "segment-").isPrefixOf key) =
      (artifacts signed tail).map Prod.fst := by
  have inside : ((artifacts signed tail).map Prod.fst).filter ((wormPrefix ++ lit "segment-").isPrefixOf) =
      (artifacts signed tail).map Prod.fst := by
    rw [filter_eq_self]
    intro key mem
    obtain ⟨g, among, x, rfl⟩ := mem_artifacts mem
    obtain ⟨m, n, key, -⟩ := consecutive_bounds consecutive g among
    exact segmentPath m n x
  cases published with
  | false => exact inside
  | true =>
    change List.filter _ (pubKey :: (artifacts signed tail).map Prod.fst) = _
    rw [filter_cons_of_neg (by rw [segmentPath_pubKey]; decide), inside]

theorem artifacts_length (signed : List w.Sealed) (tail : Option w.Sealed) :
    (artifacts signed tail).length = 2 * signed.length + tail.toList.length := by
  rw [artifacts, length_append, signedArtifacts]
  simp [mul_comm]

theorem covered_fits (limited : (artifacts signed tail).length ≤ maxWORMSegmentArtifacts) :
    covered (signed ++ tail.toList) < 10 ^ 12 := by
  have pages (gs : List w.Sealed) : covered gs ≤ maxExportPageSize * gs.length := by
    induction gs with
    | nil => exact le_refl 0
    | cons g gs ih =>
      have page := g.paged
      rw [covered_cons, length_cons, mul_succ]
      omega
  have size := pages (signed ++ tail.toList)
  rw [artifacts_length] at limited
  rw [length_append] at size
  unfold maxExportPageSize at size
  unfold maxWORMSegmentArtifacts at limited
  omega

theorem listLimited_rendered (consecutive : Consecutive 1 (signed ++ tail.toList)) :
    (w.rendered published signed tail).listLimited (wormPrefix ++ lit "segment-") maxWORMSegmentArtifacts =
      if maxWORMSegmentArtifacts < (artifacts signed tail).length then none
      else some ((artifacts signed tail).map Prod.fst) := by
  unfold Store.listLimited
  simp only [segment_names consecutive, length_map]
  by_cases many : maxWORMSegmentArtifacts < (artifacts signed tail).length
  · rw [if_pos many, if_pos many]
  · rw [if_neg many, if_neg many, artifacts_sorted consecutive (covered_fits (Nat.le_of_not_lt many))]

/-! The inventory. -/

def pairsOf (signed : List w.Sealed) (tail : Option w.Sealed) : List (Bytes × ArtifactPair) :=
  (signed.map fun g => (g.key, ⟨true, true⟩)) ++ tail.toList.map fun g => (g.key, ⟨true, false⟩)

theorem pairsOf_keys : (pairsOf signed tail).map Prod.fst = (signed ++ tail.toList).map Sealed.key := by
  simp [pairsOf, Function.comp_def]

theorem keys_nodup (consecutive : Consecutive want gs) : (gs.map Sealed.key).Nodup := by
  rw [List.Nodup, pairwise_map]
  refine (consecutive_apart consecutive).imp ?_
  intro g h apart same
  exact apart [] [] (by rw [same])

variable {pairs : List (Bytes × ArtifactPair)}

theorem enter_json
    (named : canonicalWORMSegmentArtifactKey g.key = some (g.key, false)) (fresh : g.key ∉ pairs.map Prod.fst) :
    enterArtifact pairs g.key = .ok (pairs ++ [(g.key, ⟨true, false⟩)]) := by
  unfold enterArtifact setPair
  rw [named]
  simp [lookup_none fresh]

theorem enter_sig (named : canonicalWORMSegmentArtifactKey (g.key ++ sigSuffix) = some (g.key, true))
    (fresh : g.key ∉ pairs.map Prod.fst) :
    enterArtifact (pairs ++ [(g.key, ⟨true, false⟩)]) (g.key ++ sigSuffix) = .ok (pairs ++ [(g.key, ⟨true, true⟩)]) := by
  have held : (pairs ++ [(g.key, (⟨true, false⟩ : ArtifactPair))]).lookup g.key = some ⟨true, false⟩ := by
    rw [lookup_append, lookup_none fresh]
    simp
  have others : (pairs.map fun entry => if entry.1 = g.key then (g.key, (⟨true, true⟩ : ArtifactPair)) else entry) = pairs := by
    rw [map_congr_left (g := id), map_id]
    intro entry mem
    rw [if_neg]
    · rfl
    · intro same
      exact fresh (mem_map.mpr ⟨entry, mem, same⟩)
  unfold enterArtifact setPair
  rw [named]
  simp [held, others]

theorem enter_signed (consecutive : Consecutive want gs)
    (positive : 0 < want) (fits : want + covered gs < 2 ^ 63) (fresh : ∀ g ∈ gs, g.key ∉ pairs.map Prod.fst) :
    ((signedArtifacts gs).map Prod.fst).foldlM enterArtifact pairs =
      .ok (pairs ++ gs.map fun g => (g.key, ⟨true, true⟩)) := by
  induction gs generalizing pairs want with
  | nil => exact congrArg Except.ok (append_nil pairs).symm
  | cons g gs ih =>
    obtain ⟨m, n, key, -, -, low, range, high⟩ := consecutive_bounds consecutive g mem_cons_self
    obtain ⟨new, others⟩ := forall_mem_cons.mp fresh
    obtain ⟨apart, -⟩ := pairwise_cons.mp (consecutive_apart consecutive)
    have json := canonical_json (by omega : 0 < m) range (by omega)
    have sig := canonical_sig (by omega : 0 < m) range (by omega)
    rw [← key] at json sig
    rw [covered_cons] at fits
    have behind : ∀ h ∈ gs, h.key ∉ (pairs ++ [(g.key, (⟨true, true⟩ : ArtifactPair))]).map Prod.fst := by
      intro h mem among
      rw [map_append, mem_append] at among
      rcases among with before | here
      · exact others h mem before
      · exact apart h mem [] [] (by rw [mem_singleton.mp here])
    have rest := ih consecutive.2.2 (by omega) (by omega) behind
    rw [append_assoc] at rest
    change foldlM enterArtifact pairs (g.key :: (g.key ++ sigSuffix) :: (signedArtifacts gs).map Prod.fst) = _
    rw [foldlM_cons, enter_json json new]
    change foldlM enterArtifact _ ((g.key ++ sigSuffix) :: (signedArtifacts gs).map Prod.fst) = _
    rw [foldlM_cons, enter_sig sig new]
    exact rest

theorem enter_artifacts (consecutive : Consecutive 1 (signed ++ tail.toList))
    (fits : covered (signed ++ tail.toList) < 10 ^ 12) :
    ((artifacts signed tail).map Prod.fst).foldlM enterArtifact [] = .ok (pairsOf signed tail) := by
  obtain ⟨before, -⟩ := consecutive_append.mp consecutive
  have size : covered signed ≤ covered (signed ++ tail.toList) := by
    rw [covered, covered, eventsOf_append, length_append]
    exact le_add_right _ _
  have front : ((signedArtifacts signed).map Prod.fst).foldlM enterArtifact [] =
      .ok (signed.map fun g => (g.key, ⟨true, true⟩)) := enter_signed before one_pos (by omega) (by simp)
  rw [artifacts, map_append, foldlM_append, front]
  cases tail with
  | none => exact congrArg Except.ok (append_nil _).symm
  | some g =>
    have last : g ∈ signed ++ (some g).toList := mem_append_right signed mem_cons_self
    obtain ⟨m, n, key, -, -, low, range, high⟩ := consecutive_bounds consecutive g last
    have json := canonical_json (by omega : 0 < m) range (by omega)
    rw [← key] at json
    have fresh : g.key ∉ (signed.map fun g => (g.key, (⟨true, true⟩ : ArtifactPair))).map Prod.fst := by
      rw [map_map]
      intro mem
      obtain ⟨h, among, same⟩ := mem_map.mp mem
      have apart := (pairwise_append.mp (consecutive_apart consecutive)).2.2 h among g mem_cons_self
      exact apart [] [] (congrArg (· ++ []) same)
    change foldlM enterArtifact _ [g.key] = _
    rw [foldlM_cons, enter_json json fresh]
    rfl

def tailCheck (allow : Bool) : Option w.Sealed → Except WormFault (Option Bytes)
  | none => .ok none
  | some g => if allow then .ok (some g.key) else .error (.signatureMissing g.key)

variable {allow : Bool}

theorem checkPairs_exact (complete : ∀ g ∈ signed, pairs.lookup g.key = some ⟨true, true⟩)
    (unsigned : ∀ g ∈ tail, pairs.lookup g.key = some ⟨true, false⟩) :
    checkPairs pairs allow ((signed ++ tail.toList).map Sealed.key) = tailCheck allow tail := by
  induction signed with
  | nil =>
    cases tail with
    | none => rfl
    | some g =>
      change checkPairs pairs allow [g.key] = _
      unfold checkPairs tailCheck
      rw [unsigned g rfl]
      cases allow with
      | false => rfl
      | true => rfl
  | cons g signed ih =>
    obtain ⟨here, rest⟩ := forall_mem_cons.mp complete
    change checkPairs pairs allow (g.key :: (signed ++ tail.toList).map Sealed.key) = _
    unfold checkPairs
    rw [here]
    exact ih rest

theorem inventory_rendered (consecutive : Consecutive 1 (signed ++ tail.toList)) :
    inventory (w.rendered published signed tail) allow =
      if maxWORMSegmentArtifacts < (artifacts signed tail).length then .error .tooManyArtifacts
      else (tailCheck allow tail).map fun last => ((signed ++ tail.toList).map Sealed.key, last) := by
  unfold inventory
  rw [listLimited_rendered consecutive]
  by_cases many : maxWORMSegmentArtifacts < (artifacts signed tail).length
  · rw [if_pos many, if_pos many]
  have fits := covered_fits (Nat.le_of_not_lt many)
  have nodup : ((pairsOf signed tail).map Prod.fst).Nodup := by
    rw [pairsOf_keys]
    exact keys_nodup consecutive
  have checked : checkPairs (pairsOf signed tail) allow ((signed ++ tail.toList).map Sealed.key) = tailCheck allow tail := by
    apply checkPairs_exact
    · intro g mem
      exact lookup_of_mem nodup (mem_append_left _ (mem_map.mpr ⟨g, mem, rfl⟩))
    · intro g mem
      exact lookup_of_mem nodup (mem_append_right _ (mem_map.mpr ⟨g, Option.mem_toList.mpr mem, rfl⟩))
  rw [if_neg many, if_neg many]
  change inventoryWORMSegmentArtifacts _ _ = _
  unfold inventoryWORMSegmentArtifacts
  rw [enter_artifacts consecutive fits]
  simp only [Bind.bind, Except.bind, pairsOf_keys, keys_sorted consecutive fits, checked]
  cases tailCheck allow tail with
  | error fault => rfl
  | ok last => rfl

end Consecutive

end Exporter

end Probectl.Audit
