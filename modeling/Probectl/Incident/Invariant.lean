import Probectl.Incident.Correlator

/-! What the store holds after any sequence of ingests. -/
namespace Probectl.Incidents

open Strings List Function Run Severity MemoryStore

/-! The identities of incidents and what they have seen. -/

theorem idOf_injective : Injective idOf :=
  fun _ _ same => Text.decimal_injective (append_cancel_left same)

structure Named (f : Formats) (m : MemoryStore) : Prop where
  ids : (m.incidents.map (·.id)).Nodup
  issued : ∀ inc ∈ m.incidents, ∃ n, n ≤ m.seq ∧ inc.id = idOf n
  marks : ∀ inc ∈ m.incidents, m.seen inc.id = inc.signals.map (·.fingerprint f)
  unseen : ∀ id, (∀ inc ∈ m.incidents, inc.id ≠ id) → m.seen id = []

section Store

variable {f : Formats} {m : MemoryStore} {inc : Incident} {s : Signal}

theorem named_new (f : Formats) : Named f newMemoryStore := by
  constructor
  · exact nodup_nil
  · intro inc mem
    cases mem
  · intro inc mem
    cases mem
  · exact fun id _ => rfl

theorem Named.unique (named : Named f m) (mem : inc ∈ m.incidents) (mem' : other ∈ m.incidents)
    (same : other.id = inc.id) : other = inc :=
  inj_on_of_nodup_map named.ids mem' mem same

theorem Named.get (named : Named f m) (mem : inc ∈ m.incidents) : m.get inc.id = some inc := by
  unfold MemoryStore.get
  cases found : m.incidents.find? (·.id = inc.id) with
  | none =>
    have absent := find?_eq_none.mp found inc mem
    simp at absent
  | some other =>
    have same : other.id = inc.id := by simpa using find?_some found
    rw [named.unique mem (mem_of_find?_eq_some found) same]

theorem Named.appended (named : Named f m) (mem : inc ∈ m.incidents) (s : Signal) (tenant : inc.tenantID = s.tenantID)
    (opened : Bool) :
    Incidents.appended f m s inc.id opened =
      (if s.fingerprint f ∈ m.seen inc.id then m else m.push f inc.id s, .ok (inc.id, opened)) := by
  unfold Incidents.appended appendSignal
  rw [named.get mem]
  dsimp only
  rw [if_neg (not_not.mpr tenant)]
  by_cases seen : s.fingerprint f ∈ m.seen inc.id
  · rw [if_pos seen, if_pos seen]
  · rw [if_neg seen, if_neg seen]

theorem mem_push {id : Bytes} (mem : i ∈ (m.push f id s).incidents) :
    (∃ old ∈ m.incidents, old.id = id ∧ i = old.append s) ∨ (i ∈ m.incidents ∧ i.id ≠ id) := by
  obtain ⟨old, inside, rfl⟩ := mem_map.mp mem
  by_cases same : old.id = id
  · rw [if_pos same]
    exact .inl ⟨old, inside, same, rfl⟩
  · rw [if_neg same]
    exact .inr ⟨inside, same⟩

theorem named_push (named : Named f m) (id : Bytes) (known : ∃ inc ∈ m.incidents, inc.id = id) (s : Signal) :
    Named f (m.push f id s) := by
  have ids : (m.push f id s).incidents.map (·.id) = m.incidents.map (·.id) := by
    simp only [push, map_map]
    apply map_congr_left
    intro i _
    simp only [comp]
    split <;> rfl
  constructor
  · rw [ids]
    exact named.ids
  · intro i mem
    rcases mem_push mem with ⟨old, inside, -, rfl⟩ | ⟨inside, -⟩
    · exact named.issued old inside
    · exact named.issued i inside
  · intro i mem
    rcases mem_push mem with ⟨old, inside, rfl, rfl⟩ | ⟨inside, other⟩
    · simp only [push, Incident.append, update_self, map_append, named.marks old inside]
      rfl
    · simp only [push, update_of_ne other]
      exact named.marks i inside
  · intro id' absent
    obtain ⟨inc, inside, rfl⟩ := known
    have other : id' ≠ inc.id := by
      rintro rfl
      have there : inc.id ∈ (m.push f inc.id s).incidents.map (·.id) := by
        rw [ids]
        exact mem_map_of_mem inside
      obtain ⟨i, mem, same⟩ := mem_map.mp there
      exact absent i mem same
    simp only [push, update_of_ne other]
    apply named.unseen
    intro i mem same
    have there : id' ∈ (m.push f inc.id s).incidents.map (·.id) := by
      rw [ids]
      exact mem_map.mpr ⟨i, mem, same⟩
    obtain ⟨j, inside', same'⟩ := mem_map.mp there
    exact absent j inside' same'

theorem Named.fresh (named : Named f m) : ∀ inc ∈ m.incidents, inc.id ≠ idOf (m.seq + 1) := by
  intro inc mem same
  obtain ⟨n, le, id⟩ := named.issued inc mem
  have next := idOf_injective (id.symm.trans same)
  omega

theorem named_create (named : Named f m) (empty : inc.signals = []) : Named f (m.create inc) := by
  have fresh := named.fresh
  constructor
  · unfold create
    rw [map_append]
    apply nodup_append.mpr
    refine ⟨named.ids, nodup_singleton _, ?_⟩
    intro id mem last one
    obtain ⟨i, inside, rfl⟩ := mem_map.mp mem
    rw [mem_singleton.mp one]
    exact fresh i inside
  · refine forall_mem_snoc (fun i mem => ?_) ⟨m.seq + 1, le_rfl, rfl⟩
    obtain ⟨n, le, id⟩ := named.issued i mem
    exact ⟨n, Nat.le_succ_of_le le, id⟩
  · apply forall_mem_snoc named.marks
    rw [named.unseen _ fresh, empty]
    rfl
  · intro id absent
    apply named.unseen
    intro i mem
    exact absent i (mem_append_left _ mem)

end Store

/-! What an ingest does. -/

section Ingest

variable {f : Formats} {window : Int} {m : MemoryStore} {found : List Incident} {s : Signal}

def opened (f : Formats) (m : MemoryStore) (s : Signal) : MemoryStore :=
  (m.create (newIncident s)).push f (idOf (m.seq + 1))
    (withRootCorrelationExplanation s (idOf (m.seq + 1)) (m.activeCorrelationOverrides s.tenantID s))

inductive Ingested (f : Formats) (window : Int) (m : MemoryStore) (found : List Incident) (s : Signal) : Outcome → Prop where
  | known (inc : Incident) (mem : inc ∈ m.incidents) (tenant : inc.tenantID = s.tenantID)
      (first : (found.find? fun inc => !excludedByOverride inc.id (m.activeCorrelationOverrides s.tenantID s) &&
        related inc s window) = some inc)
      (seen : (withCorrelationExplanation f s inc window (m.activeCorrelationOverrides s.tenantID s)).fingerprint f ∈
        m.seen inc.id) : Ingested f window m found s (m, .ok (inc.id, false))
  | joined (inc : Incident) (mem : inc ∈ m.incidents) (tenant : inc.tenantID = s.tenantID)
      (first : (found.find? fun inc => !excludedByOverride inc.id (m.activeCorrelationOverrides s.tenantID s) &&
        related inc s window) = some inc)
      (unseen : (withCorrelationExplanation f s inc window (m.activeCorrelationOverrides s.tenantID s)).fingerprint f ∉
        m.seen inc.id) :
      Ingested f window m found s
        (m.push f inc.id (withCorrelationExplanation f s inc window (m.activeCorrelationOverrides s.tenantID s)),
          .ok (inc.id, false))
  | opens (none : (found.find? fun inc => !excludedByOverride inc.id (m.activeCorrelationOverrides s.tenantID s) &&
        related inc s window) = none) :
      Ingested f window m found s (opened f m s, .ok (idOf (m.seq + 1), true))

theorem ingest_ingested (named : Named f m) (arranged : m.Arranged s.tenantID found) :
    Ingested f window m found s (ingestWithStore f window m found s) := by
  unfold ingestWithStore
  dsimp only
  split
  · rename_i inc first
    have member := arranged.1.mem_iff.mp (mem_of_find?_eq_some first)
    obtain ⟨mem, party⟩ := mem_filter.mp member
    have tenant : inc.tenantID = s.tenantID := by
      simp only [Bool.and_eq_true, decide_eq_true_eq] at party
      exact party.1
    rw [named.appended mem (withCorrelationExplanation f s inc window (m.activeCorrelationOverrides s.tenantID s)) tenant]
    split
    · rename_i seen
      exact .known inc mem tenant first seen
    · rename_i unseen
      exact .joined inc mem tenant first unseen
  · rename_i none
    have created : Named f (m.create (newIncident s)) := named_create named rfl
    have last : { newIncident s with id := idOf (m.seq + 1) } ∈ (m.create (newIncident s)).incidents :=
      mem_append_right _ (mem_singleton_self _)
    have unseen : (m.create (newIncident s)).seen (idOf (m.seq + 1)) = [] := created.marks _ last
    have step := created.appended last (withRootCorrelationExplanation s (idOf (m.seq + 1))
      (m.activeCorrelationOverrides s.tenantID s)) rfl true
    rw [step, unseen]
    exact .opens none

end Ingest

/-! The summary of an incident. -/

def highest (severities : List Severity) : Severity := severities.foldl max info

theorem rank_info : rank info = 1 := by decide +kernel

theorem eq_info (one : rank s = 1) : s = info := by
  unfold rank at one
  split at one
  · cases one
  split at one
  · cases one
  · split at one
    · assumption
    · cases one

theorem max_self (s : Severity) : max s s = max info s := by
  unfold Severity.max
  rw [rank_info, if_neg (lt_irrefl _)]
  by_cases high : 1 < rank s
  · rw [if_pos high, if_neg (by omega)]
  rw [if_neg high, if_neg Nat.one_ne_zero]
  by_cases unknown : rank s = 0
  · rw [if_pos unknown]
  · rw [if_neg unknown]
    exact eq_info (by omega)

/-- The summary agrees with the timeline; `clock` is the latest reading. -/
structure Sound (clock : Option Int) (inc : Incident) : Prop where
  count : inc.signalCount = inc.signals.length
  severity : inc.severity = highest (inc.signals.map (·.severity))
  started : ∀ s ∈ inc.signals, inc.startedAt ≤ s.occurredAt
  last : ∀ s ∈ inc.signals, s.occurredAt ≤ inc.lastSeenAt
  recent : ∃ now, clock = some now ∧ inc.lastSeenAt ≤ now + maxFutureSkew
  tenant : ∀ s ∈ inc.signals, s.tenantID = inc.tenantID

section Summary

variable {clock : Option Int} {now : Int} {inc : Incident} {s : Signal}

theorem Sound.later {c : Correlator} (sound : Sound c.clock inc) (now : Int) :
    Sound (some (c.latest now)) inc := by
  obtain ⟨last, read, bound⟩ := sound.recent
  have passed : last ≤ c.latest now := by simp [Correlator.latest, read]
  exact { sound with recent := ⟨_, rfl, by omega⟩ }

theorem Sound.append (sound : Sound (some now) inc) (early : s.occurredAt ≤ now + maxFutureSkew)
    (tenant : s.tenantID = inc.tenantID) : Sound (some now) (inc.append s) := by
  obtain ⟨_, ⟨⟩, bound⟩ := sound.recent
  constructor
  · simp [Incident.append, sound.count]
  · simp only [Incident.append, map_append, highest, foldl_append]
    rw [sound.severity]
    rfl
  · intro other mem
    have least : (inc.append s).startedAt ≤ inc.startedAt ∧ (inc.append s).startedAt ≤ s.occurredAt := by
      simp only [Incident.append]
      split <;> omega
    rcases mem_append.mp mem with earlier | one
    · exact least.1.trans (sound.started other earlier)
    · rw [mem_singleton.mp one]
      exact least.2
  · intro other mem
    have greatest : inc.lastSeenAt ≤ (inc.append s).lastSeenAt ∧ s.occurredAt ≤ (inc.append s).lastSeenAt := by
      simp only [Incident.append]
      split <;> omega
    rcases mem_append.mp mem with earlier | one
    · exact (sound.last other earlier).trans greatest.1
    · rw [mem_singleton.mp one]
      exact greatest.2
  · refine ⟨now, rfl, ?_⟩
    simp only [Incident.append]
    split
    · exact early
    · exact bound
  · intro other mem
    exact forall_mem_snoc sound.tenant tenant other mem

theorem sound_opened (early : s.occurredAt ≤ now + maxFutureSkew) (time : s'.occurredAt = s.occurredAt)
    (severity : s'.severity = s.severity) (tenant : s'.tenantID = s.tenantID) (id : Bytes) :
    Sound (some now) (Incident.append { newIncident s with id := id } s') := by
  constructor
  · rfl
  · simp only [Incident.append, newIncident, nil_append, map_cons, highest, severity]
    exact max_self s.severity
  · intro other mem
    rw [mem_singleton.mp mem]
    simp [Incident.append, newIncident, time]
  · intro other mem
    rw [mem_singleton.mp mem]
    simp [Incident.append, newIncident, time]
  · refine ⟨now, rfl, ?_⟩
    simp only [Incident.append, newIncident, time, lt_self_iff_false]
    exact early
  · intro other mem
    rw [mem_singleton.mp mem]
    exact tenant

theorem prepared_early (s : Signal) (authenticated : Bool) (now : Int) :
    (prepared s authenticated now).occurredAt ≤ now + maxFutureSkew := by
  have skew : 0 ≤ maxFutureSkew := by decide
  simp only [prepared]
  split <;> omega

end Summary

/-! Whole runs. -/

structure Inv (f : Formats) (c : Correlator) : Prop where
  named : Named f c.store
  sound : ∀ inc ∈ c.store.incidents, Sound c.clock inc

section Steps

variable {f : Formats} {window : Int} {c c' : Correlator}

theorem sound_ingested (named : Named f m)
    (sound : ∀ inc ∈ m.incidents, Sound (some now) inc) (early : s.occurredAt ≤ now + maxFutureSkew)
    (ingested : Ingested f window m found s out) :
    Named f out.1 ∧ ∀ inc ∈ out.1.incidents, Sound (some now) inc := by
  cases ingested with
  | known inc mem tenant first seen => exact ⟨named, sound⟩
  | joined inc mem tenant first unseen =>
    refine ⟨named_push named _ ⟨inc, mem, rfl⟩ _, fun i inside => ?_⟩
    rcases mem_push inside with ⟨old, there, same, rfl⟩ | ⟨there, -⟩
    · rw [named.unique mem there same]
      exact (sound inc mem).append early tenant.symm
    · exact sound i there
  | opens none =>
    have created : Named f (m.create (newIncident s)) := named_create named rfl
    have last : { newIncident s with id := idOf (m.seq + 1) } ∈ (m.create (newIncident s)).incidents :=
      mem_append_right _ (mem_singleton_self _)
    refine ⟨named_push created _ ⟨_, last, rfl⟩ _, fun i inside => ?_⟩
    rcases mem_push inside with ⟨old, there, same, rfl⟩ | ⟨there, other⟩
    · rw [created.unique last there same]
      apply sound_opened early
      all_goals rfl
    · rcases mem_append.mp there with earlier | new
      · exact sound i earlier
      · exact absurd (congrArg Incident.id (mem_singleton.mp new)) other

theorem inv_step (inv : Inv f c) (done : step f window c label = some c') : Inv f c' := by
  cases label with
  | putOverride o =>
    cases done
    exact ⟨{ inv.named with }, inv.sound⟩
  | ingest s authenticated now order =>
    dsimp only [step] at done
    split at done
    · cases done
      exact inv
    obtain ⟨arranged, ⟨⟩⟩ := Option.ite_none_right_eq_some.mp done
    have read : now ≤ c.latest now := by
      unfold Correlator.latest
      cases c.clock <;> simp
    have early := (prepared_early s authenticated now).trans (Int.add_le_add_right read maxFutureSkew)
    have ingested : Ingested f (effectiveWindow window) c.store _ (prepared s authenticated now) _ :=
      ingest_ingested inv.named arranged
    obtain ⟨named, sound⟩ :=
      sound_ingested inv.named (fun inc mem => (inv.sound inc mem).later now) early ingested
    exact ⟨named, sound⟩

theorem inv_run (ran : run (step f window) newCorrelator labels = some c) : Inv f c :=
  run_kept (Inv f) (fun _ _ _ inv done => inv_step inv done) ⟨named_new f, fun inc mem => (by cases mem)⟩ ran

/-- After every sequence of ingests every incident's summary agrees with its timeline: the
count, the highest severity (one that is none of the three counts as info), the first and
the last time, which is not far ahead of the clock, and the tenant. -/
theorem incident_summary {labels : List Label} (ran : run (step f window) newCorrelator labels = some c) :
    ∀ inc ∈ c.store.incidents,
      inc.signalCount = inc.signals.length ∧ inc.severity = highest (inc.signals.map (·.severity)) ∧
        (∀ s ∈ inc.signals, inc.startedAt ≤ s.occurredAt ∧ s.occurredAt ≤ inc.lastSeenAt ∧ s.tenantID = inc.tenantID) ∧
        ∃ now, c.clock = some now ∧ inc.lastSeenAt ≤ now + maxFutureSkew := by
  intro inc mem
  have sound := (inv_run ran).sound inc mem
  exact ⟨sound.count, sound.severity, fun s inside => ⟨sound.started s inside, sound.last s inside, sound.tenant s inside⟩,
    sound.recent⟩

end Steps

/-! A run of two signals, the second late and of no known severity. -/

def plainFormats : Formats := ⟨id, fun n => Text.decimalInt (n / 10 ^ 9)⟩

def observation (severity target : Bytes) (occurredAt : Int) : Signal :=
  ⟨lit "t", lit "network", lit "alert.firing", severity, lit "loss", [], target, [], ∅, occurredAt, [], [], false⟩

def twoSignals : List Label :=
  [.ingest (observation warning (lit "10.0.0.1") (100 * 10 ^ 9)) false (100 * 10 ^ 9) recentFirst,
    .ingest (observation (lit "weird") (lit "10.0.0.1") (90 * 10 ^ 9)) false (101 * 10 ^ 9) recentFirst]

theorem incident_summary_two :
    ∃ c, run (step plainFormats 0) newCorrelator twoSignals = some c ∧
      c.store.incidents.map (fun inc => (inc.severity, inc.signalCount, inc.startedAt, inc.lastSeenAt)) =
        [(Severity.warning, 2, 90 * 10 ^ 9, 100 * 10 ^ 9)] ∧
      ∀ inc ∈ c.store.incidents, inc.severity = highest (inc.signals.map (·.severity)) := by
  have seen : (run (step plainFormats 0) newCorrelator twoSignals).map (fun c =>
      c.store.incidents.map fun inc => (inc.severity, inc.signalCount, inc.startedAt, inc.lastSeenAt)) =
      some [(warning, 2, 90 * 10 ^ 9, 100 * 10 ^ 9)] := by decide +kernel
  obtain ⟨c, ran, summary⟩ := Option.map_eq_some_iff.mp seen
  exact ⟨c, ran, summary, fun inc mem => (incident_summary ran inc mem).2.1⟩

/-- A single signal of an unknown severity makes an incident of severity info. -/
theorem unknown_severity_lowered :
    (run (step plainFormats 0) newCorrelator
        [.ingest (observation (lit "weird") (lit "10.0.0.1") (100 * 10 ^ 9)) false (100 * 10 ^ 9) recentFirst]).map
        (fun c => c.store.incidents.map fun inc => (inc.severity, inc.signals.map (·.severity))) =
      some [(Severity.info, [lit "weird"])] := by
  decide +kernel

end Probectl.Incidents
