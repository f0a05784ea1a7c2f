import Probectl.Incident.Invariant
import Probectl.Lib.Canonical
import Probectl.Lib.Maps

/-! Signals that are delivered again. -/
namespace Probectl.Incidents

open Strings List Function Run Text Netip Option Signal MemoryStore Prod

/-! The fingerprint and the event it stands for. -/

structure SameEvent (a b : Signal) : Prop where
  tenantID : a.tenantID = b.tenantID
  plane : a.plane = b.plane
  kind : a.kind = b.kind
  target : a.target = b.target
  pfx : a.pfx = b.pfx
  occurredAt : a.occurredAt = b.occurredAt
  title : a.title = b.title
  summary : a.summary = b.summary
  attributes : ∀ k, derived k = false → a.attributes.lookup k = b.attributes.lookup k

theorem SameEvent.refl (a : Signal) : SameEvent a a := ⟨rfl, rfl, rfl, rfl, rfl, rfl, rfl, rfl, fun _ _ => rfl⟩

variable {a b : Signal}

theorem SameEvent.symm (same : SameEvent a b) : SameEvent b a :=
  ⟨same.tenantID.symm, same.plane.symm, same.kind.symm, same.target.symm, same.pfx.symm, same.occurredAt.symm,
    same.title.symm, same.summary.symm, fun k event => (same.attributes k event).symm⟩

theorem SameEvent.trans (first : SameEvent a b) (second : SameEvent b c) : SameEvent a c :=
  ⟨first.tenantID.trans second.tenantID, first.plane.trans second.plane, first.kind.trans second.kind,
    first.target.trans second.target, first.pfx.trans second.pfx, first.occurredAt.trans second.occurredAt,
    first.title.trans second.title, first.summary.trans second.summary,
    fun k event => (first.attributes k event).trans (second.attributes k event)⟩

variable {k : Bytes}

theorem mem_eventKeys {s : Signal} : k ∈ s.eventKeys ↔ derived k = false ∧ s.attributes.lookup k ≠ none := by
  unfold eventKeys
  rw [sort, mem_insertionSort, mem_filter, ← AList.mem_keys, ← AList.lookup_isSome, Bool.not_eq_true',
    isSome_iff_ne_none]
  exact and_comm

theorem nodup_eventKeys (s : Signal) : s.eventKeys.Nodup := by
  exact (perm_insertionSort _ _).nodup_iff.mpr (s.attributes.keys_nodup.filter _)

theorem sorted_eventKeys (s : Signal) : s.eventKeys.Pairwise NotAfter := sort_sorted _

theorem SameEvent.joined (same : SameEvent a b) : a.joined = b.joined := by
  have keys : a.eventKeys = b.eventKeys := by
    apply List.Perm.eq_of_pairwise' (sorted_eventKeys a) (sorted_eventKeys b)
    apply (perm_ext_iff_of_nodup (nodup_eventKeys a) (nodup_eventKeys b)).mpr
    intro k
    rw [mem_eventKeys, mem_eventKeys]
    constructor
    · rintro ⟨event, held⟩
      exact ⟨event, same.attributes k event ▸ held⟩
    · rintro ⟨event, held⟩
      exact ⟨event, (same.attributes k event).symm ▸ held⟩
  have attributes : a.eventAttributes = b.eventAttributes := by
    unfold eventAttributes
    rw [keys]
    apply map_congr_left
    intro k mem
    rw [same.attributes k (mem_eventKeys.mp mem).1]
  unfold Signal.joined Signal.parts
  rw [attributes, same.tenantID, same.plane, same.kind, same.target, same.pfx, same.occurredAt, same.title, same.summary]

theorem SameEvent.fingerprint (same : SameEvent a b) (f : Formats) : a.fingerprint f = b.fingerprint f := by
  unfold Signal.fingerprint
  rw [same.joined]

/-- What makes the joined text readable: no zero byte in a field, no equals sign in a key,
and a time that fits. -/
structure Clean (s : Signal) : Prop where
  fields : ∀ field ∈ [s.tenantID, s.plane, s.kind, s.target, s.pfx, s.title, s.summary], 0 ∉ field
  time : -2 ^ 63 ≤ s.occurredAt ∧ s.occurredAt < 2 ^ 63
  attributes : ∀ k v, derived k = false → s.attributes.lookup k = some v → 0 ∉ k ∧ 61 ∉ k ∧ 0 ∉ v

theorem Clean.congr (clean : Clean a) (same : SameEvent a b) : Clean b := by
  refine ⟨?_, ?_, fun k v event held => clean.attributes k v event ((same.attributes k event).trans held)⟩
  · rw [← same.tenantID, ← same.plane, ← same.kind, ← same.target, ← same.pfx, ← same.title, ← same.summary]
    exact clean.fields
  · rw [← same.occurredAt]
    exact clean.time

theorem unixNano_injective {a b : Int} (low : -2 ^ 63 ≤ a ∧ a < 2 ^ 63) (low' : -2 ^ 63 ≤ b ∧ b < 2 ^ 63)
    (same : unixNano a = unixNano b) : a = b := by
  unfold unixNano at same
  omega

section Readable

variable {a b : Signal}

theorem Clean.parts (clean : Clean a) : ∀ part ∈ a.parts, 0 ∉ part := by
  have fields := clean.fields
  simp only [forall_mem_cons, Signal.parts] at fields ⊢
  obtain ⟨tenant, plane, kind, target, pfx, title, summary, -⟩ := fields
  exact ⟨tenant, plane, kind, target, pfx, decimalInt_avoids (by decide), title, summary, fun _ mem => by cases mem⟩

theorem Clean.entries (clean : Clean a) (mem : (k, v) ∈ a.eventAttributes) : 0 ∉ k ∧ 61 ∉ k ∧ 0 ∉ v := by
  obtain ⟨key, inside, same⟩ := mem_map.mp mem
  cases same
  obtain ⟨event, held⟩ := mem_eventKeys.mp inside
  obtain ⟨v, found⟩ := ne_none_iff_exists'.mp held
  rw [found]
  exact clean.attributes _ v event found

theorem Clean.pairs (clean : Clean a) : ∀ text ∈ a.eventAttributes.map pair, 0 ∉ text := by
  intro text mem
  obtain ⟨⟨k, v⟩, inside, rfl⟩ := mem_map.mp mem
  obtain ⟨key, -, value⟩ := clean.entries inside
  simp only [pair, mem_append, mem_cons, not_or]
  exact ⟨key, by decide, value⟩

theorem sameEvent_of_joined (clean : Clean a) (clean' : Clean b) (same : a.joined = b.joined) : SameEvent a b := by
  obtain ⟨parts, rest⟩ := lines_injective clean.parts clean'.parts rfl same
  have lengths : (a.eventAttributes.map Signal.pair).length = (b.eventAttributes.map Signal.pair).length := by
    rw [← count_lines clean.pairs, rest, count_lines clean'.pairs]
  have texts := lines_injective clean.pairs clean'.pairs lengths (congrArg (· ++ []) rest)
  have entries := pairs_injective (fun e mem => (clean.entries mem).2.1) (fun e mem => (clean'.entries mem).2.1) texts.1
  simp only [Signal.parts, cons.injEq, and_true] at parts
  obtain ⟨tenant, plane, kind, target, pfx, time, title, summary⟩ := parts
  exact ⟨tenant, plane, kind, target, pfx, unixNano_injective clean.time clean'.time (decimalInt_injective time),
    title, summary, fun k event => Maps.lookup_of_entries (fun _ => mem_eventKeys) (fun _ => mem_eventKeys) entries event⟩

end Readable

/-! What the correlator adds is not part of the event. -/

variable {notes : List (Bytes × Bytes)}

theorem annotate_lookup (derived : ∀ note ∈ notes, derived note.1 = true)
    (attributes : Attributes) (event : Signal.derived k = false) :
    (annotate attributes notes).lookup k = attributes.lookup k := by
  induction notes generalizing attributes with
  | nil => rfl
  | cons note rest ih =>
    rw [forall_mem_cons] at derived
    have other : k ≠ note.1 := by
      rintro rfl
      rw [derived.1] at event
      cases event
    change (annotate (attributes.insert note.1 note.2) rest).lookup k = _
    rw [ih derived.2, AList.lookup_insert_ne other]

theorem groupedNotes_derived (f : Formats) (s : Signal) (parent : Incident) (window : Int) :
    ∀ note ∈ groupedNotes f s parent window [], derived note.1 = true := by
  have keys : (groupedNotes f s parent window []).map fst =
      ["state", "parent_incident_id", "reason", "rule", "window_seconds", "freshness_seconds", "match_confidence",
        "confidence_scope"].map fun name => lit ("correlation." ++ name) := by
    unfold groupedNotes
    split <;> rfl
  have derived : ∀ k ∈ (groupedNotes f s parent window []).map fst, derived k = true := by
    rw [keys]
    decide +kernel
  exact forall_mem_map.mp derived

theorem rootNotes_derived (s : Signal) (rootID : Bytes) :
    ∀ note ∈ rootNotes s rootID [], derived note.1 = true := by
  have keys : (rootNotes s rootID []).map fst =
      ["state", "parent_incident_id", "reason", "rule", "freshness_seconds", "match_confidence",
        "confidence_scope"].map fun name => lit ("correlation." ++ name) := rfl
  have derived : ∀ k ∈ (rootNotes s rootID []).map fst, derived k = true := by
    rw [keys]
    decide +kernel
  exact forall_mem_map.mp derived

theorem sameEvent_annotate (s : Signal)
    (derived : ∀ note ∈ notes, derived note.1 = true) : SameEvent { s with attributes := annotate s.attributes notes } s :=
  ⟨rfl, rfl, rfl, rfl, rfl, rfl, rfl, rfl, fun _ event => annotate_lookup derived s.attributes event⟩

theorem sameEvent_grouped (f : Formats) (s : Signal) (parent : Incident) (window : Int) :
    SameEvent (withCorrelationExplanation f s parent window []) s :=
  sameEvent_annotate s (groupedNotes_derived f s parent window)

theorem sameEvent_root (s : Signal) (rootID : Bytes) : SameEvent (withRootCorrelationExplanation s rootID []) s :=
  sameEvent_annotate s (rootNotes_derived s rootID)

/-! How the signals of an incident came to it. -/

def Drawn (inc : Incident) (s : Signal) : Prop :=
  targetsRelated inc.target inc.pfx s.target s.pfx = true ∨ s.target = [] ∧ parsePrefix s.pfx = none

theorem drawn_opener (s : Signal) (id : Bytes) : Drawn { newIncident s with id := id } s := by
  by_cases target : s.target = []
  · cases parsed : parsePrefix s.pfx with
    | none => exact .inr ⟨target, parsed⟩
    | some p =>
      have present : s.pfx ≠ [] := by
        intro empty
        rw [empty] at parsed
        cases parsed
      have overlap : prefixesOverlap s.pfx s.pfx = true := by
        unfold prefixesOverlap
        rw [if_neg (by simp [present]), parsed]
        simp [contains_self (parsePrefix_plain parsed)]
      refine .inl ?_
      simp [targetsRelated, newIncident, overlap]
  · refine .inl ?_
    simp [targetsRelated, newIncident, target]

def Incident.root (inc : Incident) : Bytes × Bytes × Bool := (inc.target, inc.pfx, inc.identityLookupAttempted)

theorem Drawn.congr (drawn : Drawn inc a) (root : inc.root = inc'.root)
    (same : SameEvent a b) : Drawn inc' b := by
  obtain ⟨target, pfx, -⟩ : inc.target = inc'.target ∧ inc.pfx = inc'.pfx ∧ _ := by
    simpa only [Incident.root, Prod.mk.injEq] using root
  unfold Drawn
  rwa [← target, ← pfx, ← same.target, ← same.pfx]

theorem root_append (inc : Incident) (s : Signal) : (inc.append s).root = inc.root := rfl

section Runs

variable {f : Formats} {window : Int} {m : MemoryStore} {found : List Incident} {s : Signal} {inc : Incident}
  {c c' : Correlator}

theorem drawn_of_related (joins : related inc s window = true) (plain : inc.identityLookupAttempted = false) : Drawn inc s := by
  simp only [related, Bool.and_eq_true] at joins
  have rule := joins.2
  split at rule
  · simp [identitiesRelated, plain] at rule
  · exact .inl rule

theorem noOverrides (operator : m.overrides = []) (s : Signal) : m.activeCorrelationOverrides s.tenantID s = [] := by
  unfold activeCorrelationOverrides
  rw [operator]
  rfl

variable {out : Outcome}

theorem Ingested.overrides (ingested : Ingested f window m found s out) : out.1.overrides = m.overrides := by
  cases ingested <;> rfl

theorem ingested_signals (named : Named f m) (operator : m.overrides = [])
    (ingested : Ingested f window m found s out) (mem : inc ∈ out.1.incidents) (inside : q ∈ inc.signals) :
    (∃ old ∈ m.incidents, old.root = inc.root ∧ q ∈ old.signals) ∨
      SameEvent q s ∧ (inc.identityLookupAttempted = false → Drawn inc s) := by
  have none := noOverrides operator s
  cases ingested with
  | known => exact .inl ⟨inc, mem, rfl, inside⟩
  | joined parent there tenant first unseen =>
    rcases mem_push mem with ⟨old, before, same, rfl⟩ | ⟨before, -⟩
    · rcases mem_append.mp inside with earlier | one
      · exact .inl ⟨old, before, rfl, earlier⟩
      refine .inr ⟨?_, fun plain => ?_⟩
      · rw [mem_singleton.mp one, none]
        exact sameEvent_grouped f s parent window
      rw [named.unique there before same] at plain ⊢
      have joins := find?_some first
      rw [Bool.and_eq_true] at joins
      exact (drawn_of_related joins.2 plain).congr (root_append parent _).symm (SameEvent.refl s)
    · exact .inl ⟨inc, before, rfl, inside⟩
  | opens =>
    rcases mem_push mem with ⟨old, before, same, rfl⟩ | ⟨before, other⟩
    · rcases mem_append.mp before with earlier | new
      · exact absurd same (named.fresh old earlier)
      obtain rfl := mem_singleton.mp new
      refine .inr ⟨?_, fun _ => (drawn_opener s _).congr (root_append _ _).symm (SameEvent.refl s)⟩
      rw [mem_singleton.mp inside, none]
      exact sameEvent_root s _
    · rcases mem_append.mp before with earlier | new
      · exact .inl ⟨inc, earlier, rfl, inside⟩
      · exact absurd (congrArg Incident.id (mem_singleton.mp new)) other

/-- No overrides, and every signal of an incident was drawn in; `tidy` is whether all that
was ingested is clean. -/
structure Kept (f : Formats) (tidy : Prop) (c : Correlator) : Prop extends Inv f c where
  operator : c.store.overrides = []
  drawn : ∀ inc ∈ c.store.incidents, inc.identityLookupAttempted = false → ∀ s ∈ inc.signals, Drawn inc s
  clean : tidy → ∀ inc ∈ c.store.incidents, ∀ s ∈ inc.signals, Clean s

def Label.Ingests (tidy : Prop) : Label → Prop
  | .ingest s authenticated now _ => tidy → Clean (prepared s authenticated now)
  | .putOverride _ => False

variable {tidy : Prop}

theorem kept_step (kept : Kept f tidy c) (ingests : label.Ingests tidy)
    (done : step f window c label = some c') : Kept f tidy c' := by
  cases label with
  | putOverride o => exact ingests.elim
  | ingest s authenticated now order =>
    have inv' := inv_step kept.toInv done
    dsimp only [step] at done
    split at done
    · cases done
      exact kept
    obtain ⟨arranged, ⟨⟩⟩ := ite_none_right_eq_some.mp done
    have ingested : Ingested f (effectiveWindow window) c.store _ (prepared s authenticated now) _ :=
      ingest_ingested kept.named arranged
    refine ⟨inv', ?_, ?_, ?_⟩
    · exact ingested.overrides.trans kept.operator
    · intro inc mem plain q inside
      rcases ingested_signals kept.named kept.operator ingested mem inside with ⟨old, before, root, held⟩ | ⟨same, drawn⟩
      · have flag : old.identityLookupAttempted = inc.identityLookupAttempted := congrArg (·.2.2) root
        exact (kept.drawn old before (flag.trans plain) q held).congr root (SameEvent.refl q)
      · exact (drawn plain).congr rfl same.symm
    · intro tidy inc mem q inside
      rcases ingested_signals kept.named kept.operator ingested mem inside with ⟨old, before, -, held⟩ | ⟨same, -⟩
      · exact kept.clean tidy old before q held
      · exact (ingests tidy).congr same.symm

variable {labels : List Label}

theorem kept_run (ingests : ∀ label ∈ labels, label.Ingests tidy)
    (ran : run (step f window) newCorrelator labels = some c) : Kept f tidy c := by
  have initial : Kept f tidy newCorrelator :=
    ⟨⟨named_new f, fun inc mem => (by cases mem)⟩, rfl, fun inc mem => (by cases mem), fun _ inc mem => (by cases mem)⟩
  have along : Along (step f window) (fun _ label => label.Ingests tidy) newCorrelator labels :=
    along_of_mem (fun label mem _ => ingests label mem) newCorrelator
  exact run_invariant (fun _ _ _ kept ingests done => kept_step kept ingests done) initial along ran

/-! The two halves. -/

variable {stored : Signal}

theorem related_of_held (kept : Kept f tidy c) (mem : inc ∈ c.store.incidents)
    (held : stored ∈ inc.signals) (same : SameEvent stored s) (attempted : s.identityLookupAttempted = false)
    (keyed : s.target ≠ [] ∨ (parsePrefix s.pfx).isSome) (isOpen : inc.status = .isOpen)
    (plain : inc.identityLookupAttempted = false) : related inc s (effectiveWindow window) = true := by
  have sound := kept.sound inc mem
  have started := sound.started stored held
  have last := sound.last stored held
  have positive : 0 ≤ effectiveWindow window := by
    unfold effectiveWindow
    split
    · decide
    · omega
  have drawn := (kept.drawn inc mem plain stored held).congr rfl same
  have targets : targetsRelated inc.target inc.pfx s.target s.pfx = true := by
    rcases drawn with targets | ⟨target, unparsed⟩
    · exact targets
    rcases keyed with present | parsed
    · exact absurd target present
    · rw [unparsed] at parsed
      cases parsed
  rw [same.occurredAt] at started last
  simp only [related, isOpen, plain, attempted, targets, withinWindow]
  simp
  omega

theorem first_recent (arranged : m.Arranged s.tenantID found)
    (first : found.find? p = some chosen) (mem : inc ∈ found) (fits : p inc = true) : inc.lastSeenAt ≤ chosen.lastSeenAt := by
  obtain ⟨-, before, behind, rfl, none⟩ := find?_eq_some_iff_append.mp first
  rcases mem_append.mp mem with early | late
  · have refused := none inc early
    rw [fits] at refused
    cases refused
  · rcases mem_cons.mp late with rfl | later
    · exact le_rfl
    · have ordered := (pairwise_append.mp arranged.2).2.1
      exact rel_of_pairwise_cons ordered later

theorem dropped_held (kept : Kept f True c) (apart : Injective f.hash) (mem : inc ∈ c.store.incidents)
    (clean : Clean s) (dropped : c.store.appendSignal f inc.tenantID inc.id s = .ok c.store) :
    ∃ stored ∈ inc.signals, SameEvent stored s := by
  have seen : s.fingerprint f ∈ c.store.seen inc.id := by
    unfold appendSignal at dropped
    rw [kept.named.get mem] at dropped
    dsimp only at dropped
    rw [if_neg (not_not.mpr rfl)] at dropped
    by_contra unseen
    rw [if_neg unseen] at dropped
    have marks := congrFun (congrArg seen (Except.ok.inj dropped)) inc.id
    simp [push] at marks
  rw [kept.named.marks inc mem] at seen
  obtain ⟨stored, held, same⟩ := mem_map.mp seen
  exact ⟨stored, held, sameEvent_of_joined (kept.clean trivial inc mem stored held) clean
    (apart (hexEncode_injective same))⟩

theorem sameEvent_prepared (given : s.occurredAt ≠ zeroTime) (early : s.occurredAt ≤ now + maxFutureSkew) :
    SameEvent s (prepared s false now) := by
  have time : (prepared s false now).occurredAt = s.occurredAt := by
    exact if_neg (not_or.mpr ⟨given, not_lt.mpr early⟩)
  exact ⟨rfl, rfl, rfl, rfl, rfl, time.symm, rfl, rfl, fun _ _ => rfl⟩

theorem ingest_absorbed (kept : Kept f tidy c) (arranged : c.store.Arranged s.tenantID found)
    (mem : inc ∈ c.store.incidents) (held : stored ∈ inc.signals) (same : SameEvent stored s)
    (isOpen : inc.status = .isOpen) (joins : related inc s window = true)
    (others : ∀ other ∈ c.store.openIncidents s.tenantID, related other s window = true →
      inc.lastSeenAt ≤ other.lastSeenAt → ∃ held ∈ other.signals, SameEvent held s) :
    (ingestWithStore f window c.store found s).1 = c.store := by
  have operator := noOverrides kept.operator s
  have tenant : inc.tenantID = s.tenantID := ((kept.sound inc mem).tenant stored held).symm.trans same.tenantID
  have listed : inc ∈ found := by
    apply arranged.1.mem_iff.mpr
    exact mem_filter.mpr ⟨mem, by simp [tenant, isOpen]⟩
  have ingested : Ingested f window c.store found s _ := ingest_ingested kept.named arranged
  generalize ingestWithStore f window c.store found s = out at ingested
  cases ingested with
  | known => rfl
  | joined chosen there tenant' first unseen =>
    rw [operator] at first unseen
    have recent := first_recent arranged first listed (by simp [excludedByOverride, joins])
    have fits := find?_some first
    rw [Bool.and_eq_true] at fits
    have party := arranged.1.mem_iff.mp (mem_of_find?_eq_some first)
    obtain ⟨held', inside, same'⟩ := others chosen party fits.2 recent
    refine absurd ?_ unseen
    rw [kept.named.marks chosen there, ((sameEvent_grouped f s chosen window).trans same'.symm).fingerprint]
    exact mem_map_of_mem inside
  | opens none =>
    have refused := find?_eq_none.mp none inc listed
    simp [operator, excludedByOverride, joins] at refused

theorem ingests_of_notMem (operator : ∀ o, .putOverride o ∉ labels)
    (clean : tidy → ∀ s authenticated now order, .ingest s authenticated now order ∈ labels →
      Clean (prepared s authenticated now)) : ∀ label ∈ labels, label.Ingests tidy := by
  intro label mem
  cases label with
  | ingest s authenticated now order => exact fun tidy => clean tidy s authenticated now order mem
  | putOverride o => exact operator o mem

/-- In a history without overrides, a copy of an event that an open incident holds changes
nothing: it is given a time that needs no clamping and a target or a prefix that can be
read, and every related incident at least as recent as the holder holds the event too.
Where the texts are clean and the hash has no collisions, a signal is dropped only if the
incident holds its event. -/
theorem redelivered_absorbed {labels : List Label} (operator : ∀ o, .putOverride o ∉ labels)
    (ran : run (step f window) newCorrelator labels = some c) :
    (∀ inc ∈ c.store.incidents, ∀ stored ∈ inc.signals, ∀ s now order, SameEvent stored s →
        s.occurredAt ≠ zeroTime → s.occurredAt ≤ now + maxFutureSkew → inc.status = .isOpen →
        inc.identityLookupAttempted = false → s.target ≠ [] ∨ (parsePrefix s.pfx).isSome →
        (∀ other ∈ c.store.openIncidents s.tenantID, related other (prepared s false now) (effectiveWindow window) = true →
          inc.lastSeenAt ≤ other.lastSeenAt → ∃ held ∈ other.signals, SameEvent held s) →
        c.store.Arranged s.tenantID (order (c.store.openIncidents s.tenantID)) →
        ∃ c', step f window c (.ingest s false now order) = some c' ∧ c'.store = c.store) ∧
      (Injective f.hash → (∀ s authenticated now order, .ingest s authenticated now order ∈ labels →
          Clean (prepared s authenticated now)) → ∀ inc ∈ c.store.incidents, ∀ s, Clean s →
        c.store.appendSignal f inc.tenantID inc.id s = .ok c.store → ∃ stored ∈ inc.signals, SameEvent stored s) := by
  constructor
  · intro inc mem stored held s now order same given early isOpen plain keyed others arranged
    have kept : Kept f False c := kept_run (ingests_of_notMem operator False.elim) ran
    have copy := sameEvent_prepared given early
    have joins : related inc (prepared s false now) (effectiveWindow window) = true :=
      related_of_held kept mem held (same.trans copy) rfl keyed isOpen plain
    dsimp only [step]
    cases refused s with
    | some refusal => exact ⟨c, rfl, rfl⟩
    | none =>
      refine ⟨_, if_pos arranged, ?_⟩
      have arranged' : c.store.Arranged (prepared s false now).tenantID _ := arranged
      refine ingest_absorbed kept arranged' mem held (same.trans copy) isOpen joins fun other party fits recent => ?_
      obtain ⟨held', inside, same'⟩ := others other party fits recent
      exact ⟨held', inside, same'.trans copy⟩
  · intro apart clean inc mem s tidy dropped
    exact dropped_held (kept_run (ingests_of_notMem operator fun _ => clean) ran) apart mem tidy dropped

end Runs

/-! Two signals and a copy, and two histories in which the copy is not the only one that is
absorbed, or not absorbed. -/

def lossAt (target : Bytes) : Signal := observation Severity.warning target (100 * 10 ^ 9)

def losses : List Label :=
  [.ingest (lossAt (lit "10.0.0.1")) false (100 * 10 ^ 9) recentFirst,
    .ingest (lossAt (lit "10.9.0.1")) false (100 * 10 ^ 9) recentFirst]

def lossRoot (n : Nat) (target : Bytes) : Incident :=
  Incident.append { newIncident (lossAt target) with id := idOf n }
    (withRootCorrelationExplanation (lossAt target) (idOf n) [])

theorem lossAt_clean {target : Bytes} (plain : 0 ∉ target) : Clean (lossAt target) := by
  refine ⟨?_, by simp [lossAt, observation], fun k v event held => by cases held⟩
  simp only [lossAt, observation, forall_mem_cons]
  exact ⟨by decide, by decide, by decide, plain, by decide, by decide, by decide, by simp⟩

/-- Two incidents, and a copy for the first one of them at an earlier reading of the clock. -/
theorem redelivered_absorbed_loss :
    ∃ c, run (step plainFormats 0) newCorrelator losses = some c ∧
      c.store.incidents = [lossRoot 1 (lit "10.0.0.1"), lossRoot 2 (lit "10.9.0.1")] ∧
      (∃ c', step plainFormats 0 c (.ingest (lossAt (lit "10.0.0.1")) false (99 * 10 ^ 9) recentFirst) = some c' ∧
        c'.store = c.store) ∧
      ∃ stored ∈ (lossRoot 1 (lit "10.0.0.1")).signals, SameEvent stored (lossAt (lit "10.0.0.1")) := by
  have seen : (run (step plainFormats 0) newCorrelator losses).map (fun c => (c.store.incidents,
      decide ((lossAt (lit "10.0.0.1")).fingerprint plainFormats ∈ c.store.seen (idOf 1)))) =
      some ([lossRoot 1 (lit "10.0.0.1"), lossRoot 2 (lit "10.9.0.1")], true) := by decide +kernel
  obtain ⟨c, ran, state⟩ := map_eq_some_iff.mp seen
  obtain ⟨incidents, marked⟩ := mk.inj state
  have mem : lossRoot 1 (lit "10.0.0.1") ∈ c.store.incidents := by simp [incidents]
  have event : SameEvent (withRootCorrelationExplanation (lossAt (lit "10.0.0.1")) (idOf 1) [])
    (lossAt (lit "10.0.0.1")) := sameEvent_root _ _
  have absorbed := redelivered_absorbed (by simp [losses]) ran
  refine ⟨c, ran, incidents, ?_, ?_⟩
  · apply absorbed.1 _ mem _ (mem_singleton_self _) _ _ _ event
    · decide
    · decide
    · rfl
    · rfl
    · exact .inl (by decide +kernel)
    · intro other party fits recent
      have listed := (mem_filter.mp party).1
      rw [incidents, mem_cons, mem_singleton] at listed
      rcases listed with rfl | rfl
      · exact ⟨_, mem_singleton_self _, event⟩
      · exact absurd fits (by decide +kernel)
    · unfold MemoryStore.Arranged openIncidents
      rw [incidents]
      decide +kernel
  · apply absorbed.2 injective_id _ _ mem _ (lossAt_clean (by decide +kernel))
    · unfold appendSignal MemoryStore.get
      rw [incidents]
      exact (if_neg (by decide +kernel)).trans (if_pos (of_decide_eq_true marked))
    · intro s authenticated now order ingested
      rcases mem_cons.mp ingested with first | later
      · cases first
        exact @lossAt_clean (lit "10.0.0.1") (by decide +kernel)
      · cases mem_singleton.mp later
        exact @lossAt_clean (lit "10.9.0.1") (by decide +kernel)

def withdrawal (pfx : Bytes) (attributes : Attributes) (occurredAt : Int) : Signal :=
  ⟨lit "t", lit "bgp", lit "route.withdrawn", Severity.warning, lit "withdrawn", [], [], pfx, attributes, occurredAt, [], [], false⟩

/-- The signal of the whole prefix joins the incident of one half; its copy joins that of
the other half, which was active later. And a signal is dropped for one with another
attribute, since the two joined texts are one. -/
theorem copy_joins_another :
    (run (step plainFormats 0) newCorrelator
        [.ingest (withdrawal (lit "10.0.0.0/25") ∅ (100 * 10 ^ 9)) false (100 * 10 ^ 9) recentFirst,
          .ingest (withdrawal (lit "10.0.0.0/24") ∅ (100 * 10 ^ 9)) false (100 * 10 ^ 9) recentFirst,
          .ingest (withdrawal (lit "10.0.0.128/25") ∅ (101 * 10 ^ 9)) false (101 * 10 ^ 9) recentFirst,
          .ingest (withdrawal (lit "10.0.0.0/24") ∅ (100 * 10 ^ 9)) false (102 * 10 ^ 9) recentFirst]).map
        (fun c => c.store.incidents.map fun inc => inc.signals.map (·.pfx)) =
      some [[lit "10.0.0.0/25", lit "10.0.0.0/24"], [lit "10.0.0.128/25", lit "10.0.0.0/24"]] ∧
    (run (step plainFormats 0) newCorrelator
        [.ingest (withdrawal (lit "10.0.0.0/25") (AList.insert (lit "a") (lit "b=c") ∅) (100 * 10 ^ 9)) false (100 * 10 ^ 9)
            recentFirst,
          .ingest (withdrawal (lit "10.0.0.0/25") (AList.insert (lit "a=b") (lit "c") ∅) (100 * 10 ^ 9)) false (100 * 10 ^ 9)
            recentFirst]).map
        (fun c => c.store.incidents.map fun inc => inc.signals.map (·.attributes.lookup (lit "a"))) =
      some [[some (lit "b=c")]] := by
  constructor <;> decide +kernel

end Probectl.Incidents
