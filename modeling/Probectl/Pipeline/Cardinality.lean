import Probectl.Bus.Topics
import Probectl.Lib.Maps
import Probectl.Lib.Text

/-! `internal/pipeline/cardinality.go`: which series of a tenant and an agent are
let through to the store. Times are nanoseconds. -/
namespace Probectl.Pipeline

open Strings List Text

abbrev Labels := AList (fun _ : Bytes => Bytes)

abbrev Times := AList (fun _ : Bytes => Int)

/-- A series as far as the pipeline reads it. `labelsID` is the map the labels
are kept in: the series of one result share theirs. -/
structure Series where
  metric : Bytes
  labels : Labels
  labelsID : Nat
  deriving DecidableEq

def defaultMaxSeriesPerAgent : Nat := 1000
def defaultMaxSeriesPerTenant : Nat := 50000
def defaultSeriesIdleTTL : Int := 3600 * 1000000000
def sweepInterval : Int := 60 * 1000000000
def maxLabelsPerSeries : Nat := 32
def maxLabelValueLen : Nat := 256
def labelHashPrefixLen : Nat := 32
def cardinalityShards : Nat := 32

structure TenantSeries where
  all : Times := ∅
  byAgent : AList (fun _ : Bytes => Times) := ∅
  dropped : Nat := 0
  truncated : Nat := 0

structure Shard where
  tenants : AList (fun _ : Bytes => TenantSeries)
  lastSweep : Int

structure CardinalityLimiter where
  perAgent : Nat
  perTenant : Nat
  idleTTL : Int
  shards : Fin cardinalityShards → Shard
  dropped : Nat
  truncated : Nat
  evicted : Nat

/-- `zeroTime` is the zero value of `time.Time`, before every clock. -/
def newCardinalityLimiter (perAgent perTenant zeroTime : Int) : CardinalityLimiter where
  perAgent := if perAgent ≤ 0 then defaultMaxSeriesPerAgent else perAgent.toNat
  perTenant := if perTenant ≤ 0 then defaultMaxSeriesPerTenant else perTenant.toNat
  idleTTL := defaultSeriesIdleTTL
  shards := fun _ => ⟨∅, zeroTime⟩
  dropped := 0
  truncated := 0
  evicted := 0

def shardFor (tenantID : Bytes) : Fin cardinalityShards :=
  ⟨(Bus.fnv1a tenantID).toNat % cardinalityShards, Nat.mod_lt _ (by decide)⟩

def sweepIds (cutoff : Int) (ids all : Times) : Times × Times × Nat :=
  ids.entries.foldl (fun (ids, all, n) entry =>
    if entry.2 < cutoff then (ids.erase entry.1, all.erase entry.1, n + 1) else (ids, all, n)) (ids, all, 0)

def sweepTenant (cutoff : Int) (ts : TenantSeries) : TenantSeries × Nat :=
  ts.byAgent.entries.foldl (fun (ts, n) entry =>
    let (ids, all, evicted) := sweepIds cutoff entry.2 ts.all
    let byAgent := if ids.entries = [] then ts.byAgent.erase entry.1 else ts.byAgent.replace entry.1 ids
    ({ ts with all := all, byAgent := byAgent }, n + evicted)) (ts, 0)

def sweepLocked (l : CardinalityLimiter) (sh : Shard) (now : Int) : Shard × Nat :=
  if now - sh.lastSweep < sweepInterval then (sh, 0)
  else
    sh.tenants.entries.foldl (fun (sh, n) entry =>
      let (ts, evicted) := sweepTenant (now - l.idleTTL) entry.2
      let tenants :=
        if ts.all.entries = [] ∧ ts.dropped = 0 ∧ ts.truncated = 0 then sh.tenants.erase entry.1
        else sh.tenants.replace entry.1 ts
      ({ sh with tenants := tenants }, n + evicted)) ({ sh with lastSweep := now }, 0)

def seriesIdentity (s : Series) : Bytes :=
  (sort s.labels.keys).foldl (fun id k => id ++ 0 :: k ++ 61 :: (s.labels.lookup k).getD []) s.metric

/-- `hash` is the hexadecimal SHA-256 of a value. -/
def boundedLabelValue (hash : Bytes → Bytes) (v : Bytes) : Bytes × Bool :=
  if v.length ≤ maxLabelValueLen then (v, false)
  else (lit "truncated:sha256:" ++ (hash v).take labelHashPrefixLen ++ lit ":len:" ++ lit (toString v.length), true)

def boundLabels (hash : Bytes → Bytes) (labels : Labels) : Labels :=
  ⟨labels.entries.map (Sigma.map id fun _ v => (boundedLabelValue hash v).1),
    NodupKeys.map₂ _ _ labels.nodupKeys⟩

def longValues (hash : Bytes → Bytes) (labels : Labels) : Nat :=
  labels.entries.countP fun entry => (boundedLabelValue hash entry.2).2

structure Filtering where
  ag : Times
  all : Times
  bounded : List Nat := []
  admitted : List Series := []
  droppedHere : Nat := 0
  truncatedHere : Nat := 0

def filterOne (l : CardinalityLimiter) (hash : Bytes → Bytes) (now : Int) (f : Filtering) (s : Series) : Filtering :=
  if maxLabelsPerSeries < s.labels.entries.length then { f with droppedHere := f.droppedHere + 1 }
  else
    -- a map that an earlier series of this call shares holds the bounded values by now
    let truncated := if s.labelsID ∈ f.bounded then 0 else longValues hash s.labels
    let s := { s with labels := boundLabels hash s.labels }
    let f := { f with bounded := s.labelsID :: f.bounded, truncatedHere := f.truncatedHere + truncated }
    let id := seriesIdentity s
    let known := { f with ag := f.ag.insert id now, all := f.all.insert id now, admitted := f.admitted ++ [s] }
    if id ∈ f.ag then known
    else if l.perAgent ≤ f.ag.entries.length ∨ l.perTenant ≤ f.all.entries.length then
      { f with droppedHere := f.droppedHere + 1 }
    else known

structure CardinalityFilterStats where
  dropped : Nat := 0
  labelTruncated : Nat := 0
  deriving DecidableEq

def filterDetailed (limiter : Option CardinalityLimiter) (hash : Bytes → Bytes) (now : Int) (tenant agent : Bytes)
    (series : List Series) : Option CardinalityLimiter × List Series × CardinalityFilterStats :=
  match limiter with
  | none => (none, series, {})
  | some l =>
    let (sh, evicted) := sweepLocked l (l.shards (shardFor tenant)) now
    let ts := (sh.tenants.lookup tenant).getD {}
    let ag := (ts.byAgent.lookup agent).getD ∅
    let f := series.foldl (filterOne l hash now) { ag := ag, all := ts.all }
    let ts := { ts with
      all := f.all
      byAgent := ts.byAgent.insert agent f.ag
      dropped := ts.dropped + f.droppedHere
      truncated := ts.truncated + f.truncatedHere }
    let sh := { sh with tenants := sh.tenants.insert tenant ts }
    (some { l with
        shards := Function.update l.shards (shardFor tenant) sh
        dropped := l.dropped + f.droppedHere
        truncated := l.truncated + f.truncatedHere
        evicted := l.evicted + evicted },
      f.admitted, ⟨f.droppedHere, f.truncatedHere⟩)

theorem boundLabels_lookup (hash : Bytes → Bytes) (labels : Labels) (k : Bytes) :
    (boundLabels hash labels).lookup k = (labels.lookup k).map fun v => (boundedLabelValue hash v).1 :=
  dlookup_map₂ k

def Series.bounded (hash : Bytes → Bytes) (s : Series) : Series :=
  { s with labels := boundLabels hash s.labels }

def identity (hash : Bytes → Bytes) (s : Series) : Bytes :=
  seriesIdentity (s.bounded hash)

structure Filtering.Drops (f g : Filtering) : Prop where
  ag : g.ag = f.ag
  all : g.all = f.all
  admitted : g.admitted = f.admitted
  droppedHere : g.droppedHere = f.droppedHere + 1

structure Filtering.Admits (hash : Bytes → Bytes) (now : Int) (s : Series) (f g : Filtering) : Prop where
  ag : g.ag = f.ag.insert (identity hash s) now
  all : g.all = f.all.insert (identity hash s) now
  admitted : g.admitted = f.admitted ++ [s.bounded hash]
  droppedHere : g.droppedHere = f.droppedHere

theorem filterOne_cases (l : CardinalityLimiter) (hash : Bytes → Bytes) (now : Int) (f : Filtering) (s : Series) :
    f.Drops (filterOne l hash now f s) ∨
      f.Admits hash now s (filterOne l hash now f s) ∧
        (identity hash s ∈ f.ag ∨ f.ag.entries.length < l.perAgent ∧ f.all.entries.length < l.perTenant) := by
  unfold filterOne
  dsimp only
  split
  · exact .inl ⟨rfl, rfl, rfl, rfl⟩
  split
  · rename_i known
    exact .inr ⟨⟨rfl, rfl, rfl, rfl⟩, .inl known⟩
  split
  · exact .inl ⟨rfl, rfl, rfl, rfl⟩
  · exact .inr ⟨⟨rfl, rfl, rfl, rfl⟩, .inr (by omega)⟩

variable {l : CardinalityLimiter} {hash : Bytes → Bytes}

theorem filterOne_known {f : Filtering} (now : Int)
    (narrow : s.labels.entries.length ≤ maxLabelsPerSeries) (known : identity hash s ∈ f.ag) :
    f.Admits hash now s (filterOne l hash now f s) := by
  have here : seriesIdentity { s with labels := boundLabels hash s.labels } ∈ f.ag := known
  unfold filterOne
  rw [if_neg (Nat.not_lt.mpr narrow)]
  rw [if_pos here]
  exact ⟨rfl, rfl, rfl, rfl⟩

theorem foldl_filtered (l : CardinalityLimiter) (hash : Bytes → Bytes) (now : Int) (series : List Series) (f : Filtering) :
    (∀ x ∈ (series.foldl (filterOne l hash now) f).admitted, x ∈ f.admitted ∨ ∃ s ∈ series, x = s.bounded hash) ∧
      (series.foldl (filterOne l hash now) f).admitted.length + (series.foldl (filterOne l hash now) f).droppedHere =
        f.admitted.length + f.droppedHere + series.length := by
  induction series generalizing f with
  | nil => exact ⟨fun x => .inl, rfl⟩
  | cons s rest ih =>
    obtain ⟨among, counts⟩ := ih (filterOne l hash now f s)
    rcases filterOne_cases l hash now f s with drops | ⟨admits, _⟩
    · rw [drops.admitted] at among counts
      rw [drops.droppedHere] at counts
      refine ⟨fun x mem => (among x mem).imp_right fun ⟨y, later, same⟩ => ⟨y, mem_cons_of_mem s later, same⟩, ?_⟩
      simp only [foldl_cons, length_cons]
      omega
    · rw [admits.admitted] at among counts
      rw [admits.droppedHere, length_append, length_singleton] at counts
      refine ⟨fun x mem => ?_, ?_⟩
      · rcases among x mem with here | ⟨y, later, same⟩
        · exact (mem_append.mp here).imp_right fun new => ⟨s, mem_cons_self, mem_singleton.mp new⟩
        · exact .inr ⟨y, mem_cons_of_mem s later, same⟩
      · simp only [foldl_cons, length_cons]
        omega

theorem filterDetailed_admitted
    (mem : x ∈ (filterDetailed (some l) hash now tenant agent series).2.1) :
    ∃ s ∈ series, x = { s with labels := boundLabels hash s.labels } :=
  ((foldl_filtered l hash now series _).1 x mem).resolve_left nofun

theorem filterDetailed_counts (limiter : Option CardinalityLimiter) (hash : Bytes → Bytes) (now : Int)
    (tenant agent : Bytes) (series : List Series) :
    (filterDetailed limiter hash now tenant agent series).2.1.length +
      (filterDetailed limiter hash now tenant agent series).2.2.dropped = series.length := by
  cases limiter with
  | none => rfl
  | some l => exact (foldl_filtered l hash now series _).2.trans (Nat.zero_add _)

/-! What an identity says about its series. -/

def Series.pairs (s : Series) : List (Bytes × Bytes) := (sort s.labels.keys).map fun k => (k, (s.labels.lookup k).getD [])

/-- No zero byte anywhere, and no equals sign in the name of a label. -/
def Series.Plain (s : Series) : Prop := 0 ∉ s.metric ∧ ∀ e ∈ s.labels.entries, 0 ∉ e.1 ∧ 61 ∉ e.1 ∧ 0 ∉ e.2

theorem seriesIdentity_lines (s : Series) :
    seriesIdentity s ++ [0] = lines 0 (s.metric :: s.pairs.map fun e => e.1 ++ 61 :: e.2) := by
  have folded (ks : List Bytes) id :
      ks.foldl (fun id k => id ++ 0 :: k ++ 61 :: (s.labels.lookup k).getD []) id ++ [0] =
        lines 0 (id :: ks.map fun k => k ++ 61 :: (s.labels.lookup k).getD []) := by
    induction ks generalizing id with
    | nil => simp [lines]
    | cons k ks ih =>
      rw [foldl_cons, ih, map_cons, lines_cons, lines_cons, lines_cons]
      simp
  rw [Series.pairs, map_map]
  exact folded _ _

theorem Series.mem_keys (s : Series) (k : Bytes) : k ∈ sort s.labels.keys ↔ True ∧ s.labels.lookup k ≠ none := by
  rw [sort, mem_insertionSort, ← AList.mem_keys, ← AList.lookup_isSome, Option.isSome_iff_ne_none, true_and]

theorem Series.Plain.pairs {s : Series} (plain : s.Plain) : ∀ e ∈ s.pairs, 0 ∉ e.1 ∧ 61 ∉ e.1 ∧ 0 ∉ e.2 := by
  intro e mem
  obtain ⟨k, inside, rfl⟩ := mem_map.mp mem
  obtain ⟨v, found⟩ := Option.ne_none_iff_exists'.mp ((s.mem_keys k).mp inside).2
  rw [found]
  exact plain.2 ⟨k, v⟩ (AList.mem_lookup_iff.mp found)

theorem Series.Plain.fields {s : Series} (plain : s.Plain) :
    ∀ field ∈ s.metric :: s.pairs.map fun e => e.1 ++ 61 :: e.2, 0 ∉ field := by
  refine forall_mem_cons.mpr ⟨plain.1, forall_mem_map.mpr fun e mem => ?_⟩
  obtain ⟨name, -, value⟩ := plain.pairs e mem
  simp [name, value]

/-- Series without zero bytes, whose label names have no equals sign, share an identity only if they
share the metric and the labels. A condition on one of them is never enough: its identity is also that
of a series without labels. -/
theorem identity_separates (hash : Bytes → Bytes) {s t : Series} (plain : (s.bounded hash).Plain)
    (plain' : (t.bounded hash).Plain) (same : identity hash s = identity hash t) :
    (s.metric = t.metric ∧ ∀ k, (s.bounded hash).labels.lookup k = (t.bounded hash).labels.lookup k) ∧
      ∀ u labelsID, identity hash ⟨identity hash u, ∅, labelsID⟩ = identity hash u := by
  have texts := congrArg (· ++ [0]) same
  dsimp only [identity] at texts
  rw [seriesIdentity_lines, seriesIdentity_lines] at texts
  have lengths := congrArg (count 0) texts
  rw [count_lines plain.fields, count_lines plain'.fields] at lengths
  obtain ⟨fields, -⟩ := lines_injective plain.fields plain'.fields lengths (congrArg (· ++ []) texts)
  obtain ⟨metric, pairs⟩ := cons.inj fields
  have entries := pairs_injective (fun e mem => (plain.pairs e mem).2.1) (fun e mem => (plain'.pairs e mem).2.1) pairs
  exact ⟨⟨metric, fun k => Maps.lookup_of_entries (Series.mem_keys _) (Series.mem_keys _) entries trivial⟩,
    fun u labelsID => rfl⟩

def twoLabels (first second : Bytes × Bytes) : Series :=
  ⟨lit "m", ((∅ : Labels).insert first.1 first.2).insert second.1 second.2, 0⟩

/-- A map that was filled in another order. -/
theorem identity_separates_order :
    (twoLabels (lit "b", lit "y") (lit "a", lit "x")).labels.lookup (lit "a") =
      (twoLabels (lit "a", lit "x") (lit "b", lit "y")).labels.lookup (lit "a") :=
  (identity_separates id (s := twoLabels (lit "b", lit "y") (lit "a", lit "x"))
    (t := twoLabels (lit "a", lit "x") (lit "b", lit "y")) (by unfold Series.Plain; decide) (by unfold Series.Plain; decide)
    (by decide)).1.2 (lit "a")

/-- A value that reads like the end of it and a second label: one identity, and one slot, for both series. -/
theorem identity_conflates :
    let one : Series := ⟨lit "m", (∅ : Labels).insert (lit "a") (lit "x" ++ 0 :: lit "b=y"), 1⟩
    let two := twoLabels (lit "a", lit "x") (lit "b", lit "y")
    identity id one = identity id two ∧ one.labels.lookup (lit "b") ≠ two.labels.lookup (lit "b") ∧
      (filterDetailed (some (newCardinalityLimiter 1 1 0)) id 0 [] [] [one, two]).2.1.length = 2 := by
  decide

end Probectl.Pipeline
