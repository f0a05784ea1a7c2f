import Probectl.Bgp.Origins

/-! What the raw lane's events say about the announcements: which changes of an
origin are reported, and what a failed publish leaves behind. -/
namespace Probectl.Bgp

open Latest AList List

def originWrite (a : Announcement) : Option (BMPOriginBaselineKey × Nat) := some (a.originKey, a.route.originASN)

def reportWrite : Announcement × Outcome → Option (BMPRouteKey × Int)
  | (_, .suppressed) => none
  | (a, _) => some (a.routeKey, a.detectedAt)

variable {a : Announcement} {collector : String}

namespace BMPListener

variable {fails : Nat → Bool} {l : BMPListener}

/-! The baseline. -/

def Kept (fails : Nat → Bool) (l : BMPListener) (history : List Announcement) : Prop :=
  ∀ earlier a later, history = earlier ++ a :: later → (l.after fails earlier).resets a = false

variable {history : List Announcement}

theorem Kept.earlier
    (kept : Kept fails l (history ++ a :: later)) : Kept fails l history := by
  rintro earlier b rest rfl
  exact kept earlier b (rest ++ a :: later) (by simp)

variable {suppression : Int}

theorem baseline_eq_latest (kept : Kept fails (start collector suppression) history) (k : BMPOriginBaselineKey) :
    ((start collector suppression).after fails history).baseline.lookup k = latest originWrite history k := by
  induction history using reverseRecOn with
  | nil => rfl
  | append_singleton earlier a ih =>
    rw [after_snoc, (handleRoute_eq fails _ a).1]
    rw [kept earlier a [] rfl]
    have written : originWrite a = some (a.originKey, a.route.originASN) := rfl
    by_cases same : a.originKey = k
    · subst same
      rw [lookup_insert, latest_written written]
    · rw [lookup_insert_ne (Ne.symm same), latest_other written same]
      exact ih kept.earlier

theorem after_baseline_other (others : ∀ a ∈ history, a.originKey ≠ k) :
    (l.after fails history).baseline.lookup k = l.baseline.lookup k ∨ (l.after fails history).baseline.lookup k = none := by
  induction history using reverseRecOn with
  | nil => exact .inl rfl
  | append_singleton earlier a ih =>
    have other : k ≠ a.originKey := Ne.symm (others a (by simp))
    rw [after_snoc, (handleRoute_eq fails _ a).1]
    rw [lookup_insert_ne other]
    split
    · exact .inr rfl
    · exact ih fun b mem => others b (by simp [mem])

/-! The remembered routes. -/

variable {k : BMPRouteKey} {last : Int}

theorem room_lookup {seen : AList (fun _ : BMPRouteKey => Int)}
    (held : (room seen window now).lookup k = some last) : seen.lookup k = some last := by
  unfold room at held
  split at held
  · split at held
    · cases held
    · have mem := mem_lookup_iff.mp held
      exact mem_lookup_iff.mpr (mem_of_mem_filter mem)
  · exact held

theorem seen_step (on : 0 < l.suppression) (a : Announcement) (k : BMPRouteKey) :
    let next := (l.handleRoute fails a).1
    (next.seen.lookup k = l.seen.lookup k ∧ latest reportWrite next.handled k = latest reportWrite l.handled k) ∨
      (next.seen.lookup k = some a.detectedAt ∧ latest reportWrite next.handled k = some a.detectedAt) ∨
      (next.seen.lookup k = (room l.seen l.suppression a.detectedAt).lookup k ∧
        latest reportWrite next.handled k = latest reportWrite l.handled k) := by
  obtain ⟨state, outcome⟩ := handleRoute_eq fails l a
  rw [state]
  dsimp only
  by_cases again : l.recent a
  · rw [if_pos (.inr again)]
    rw [if_pos ⟨on, again⟩] at outcome
    rw [outcome]
    exact .inl ⟨rfl, latest_silent rfl _ _⟩
  rw [if_neg (by simp [not_le.mpr on, again])]
  have written : reportWrite (a, (l.handleRoute fails a).2) = some (a.routeKey, a.detectedAt) := by
    rw [outcome, if_neg (by simp [again])]
    split <;> rfl
  by_cases same : a.routeKey = k
  · subst same
    exact .inr (.inl ⟨lookup_insert _, latest_written written _⟩)
  · exact .inr (.inr ⟨lookup_insert_ne (Ne.symm same), latest_other written same _⟩)

theorem seen_latest (on : 0 < suppression) (history : List Announcement)
    (held : ((start collector suppression).after fails history).seen.lookup k = some last) :
    latest reportWrite ((start collector suppression).after fails history).handled k = some last := by
  induction history using reverseRecOn with
  | nil => cases held
  | append_singleton earlier a ih =>
    have on : 0 < ((start collector suppression).after fails earlier).suppression := by rwa [(after_settings earlier).1]
    rw [after_snoc] at held ⊢
    obtain ⟨table, record⟩ | ⟨table, record⟩ | ⟨table, record⟩ := seen_step on a k
    · rw [record]
      exact ih (table ▸ held)
    · rw [record, ← table, held]
    · rw [record]
      exact ih (room_lookup (table ▸ held))

def Roomy (fails : Nat → Bool) (l : BMPListener) (history : List Announcement) : Prop :=
  ∀ earlier later, history = earlier ++ later → (l.after fails earlier).seen.keys.length < bmpMaxSuppressionKeys

theorem seen_eq_latest (on : 0 < suppression)
    (roomy : Roomy fails (start collector suppression) history) (k : BMPRouteKey) :
    ((start collector suppression).after fails history).seen.lookup k =
      latest reportWrite ((start collector suppression).after fails history).handled k := by
  induction history using reverseRecOn with
  | nil => rfl
  | append_singleton earlier a ih =>
    have ih := ih (by rintro front rest rfl; exact roomy front (rest ++ [a]) (by simp))
    have on : 0 < ((start collector suppression).after fails earlier).suppression := by rwa [(after_settings earlier).1]
    rw [after_snoc]
    obtain ⟨table, record⟩ | ⟨table, record⟩ | ⟨table, record⟩ := seen_step on a k
    · rw [table, record, ih]
    · rw [table, record]
    · rw [table, record, room, if_neg (not_le.mpr (roomy earlier [a] rfl)), ih]

end BMPListener

/-! Changes of an origin. -/

def Flip (earlier : List Announcement) (a : Announcement) (prior : Nat) : Prop :=
  latest originWrite earlier a.originKey = some prior ∧ prior ≠ a.route.originASN

structure Event.ReportsFlip (ev : Event) (a : Announcement) (prior : Nat) : Prop where
  tenantID : ev.tenantID = a.id.tenantID
  addr : ev.addr = a.route.addr
  bits : ev.bits = a.route.bits
  eventType : ev.eventType = .originChange
  oldOriginASN : ev.oldOriginASN = prior
  newOriginASN : ev.newOriginASN = a.route.originASN

theorem routeEvent_flip (differs : prior ≠ a.route.originASN) :
    (routeEvent collector (some prior) a).ReportsFlip a prior := by
  unfold routeEvent
  dsimp only
  rw [if_pos differs]
  exact ⟨rfl, rfl, rfl, rfl, rfl, rfl⟩

namespace BMPListener

def FlipsReported (l : BMPListener) (history : List Announcement) : Prop :=
  ∀ earlier a later prior, history = earlier ++ a :: later → Flip earlier a prior →
    ∃ ev, ((l.after (fun _ => false) earlier).handleRoute (fun _ => false) a).2 = .published ev ∧ ev.ReportsFlip a prior

/-- No change of an origin returns to a route that was last reported less than
the suppression window before. -/
def NoReturn (l : BMPListener) (history : List Announcement) : Prop :=
  ∀ earlier a later prior last, history = earlier ++ a :: later → Flip earlier a prior →
    latest reportWrite (l.after (fun _ => false) earlier).handled a.routeKey = some last →
    ¬ (0 ≤ a.detectedAt - last ∧ a.detectedAt - last < l.suppression)

theorem recent_iff (l : BMPListener) (a : Announcement) :
    l.recent a ↔ ∃ last, l.seen.lookup a.routeKey = some last ∧ 0 ≤ a.detectedAt - last ∧ a.detectedAt - last < l.suppression := by
  unfold recent
  cases l.seen.lookup a.routeKey with
  | none => simp
  | some last => simp

theorem published_iff (l : BMPListener) (a : Announcement) :
    (∃ ev, (l.handleRoute (fun _ => false) a).2 = .published ev) ↔ ¬ (0 < l.suppression ∧ l.recent a) := by
  rw [(handleRoute_eq _ l a).2]
  by_cases again : 0 < l.suppression ∧ l.recent a <;> simp [again]

/-- With successful publishes and a baseline that is not reset, every change of
an origin is reported where none returns to a route within its window; as long as
the remembered routes stay below their bound, nowhere else. -/
theorem flips_reported_of_no_return (collector : String) (suppression : Int) (history : List Announcement)
    (kept : Kept (fun _ => false) (start collector suppression) history) :
    (NoReturn (start collector suppression) history → FlipsReported (start collector suppression) history) ∧
      (Roomy (fun _ => false) (start collector suppression) history →
        FlipsReported (start collector suppression) history → NoReturn (start collector suppression) history) := by
  constructor
  · rintro none earlier a later prior rfl flip
    have window : ((start collector suppression).after (fun _ => false) earlier).suppression = suppression :=
      (after_settings earlier).1
    have fresh : ¬ (0 < ((start collector suppression).after (fun _ => false) earlier).suppression ∧
        ((start collector suppression).after (fun _ => false) earlier).recent a) := by
      rintro ⟨on, again⟩
      obtain ⟨last, held, inside⟩ := (recent_iff _ a).mp again
      rw [window] at on inside
      exact none earlier a later prior last rfl flip (seen_latest on earlier held) inside
    have outcome := (handleRoute_eq (fun _ => false) ((start collector suppression).after (fun _ => false) earlier) a).2
    rw [if_neg fresh, baseline_eq_latest kept.earlier, flip.1] at outcome
    exact ⟨_, outcome, routeEvent_flip flip.2⟩
  · rintro roomy reported earlier a later prior last rfl flip held ⟨newer, inside⟩
    obtain ⟨ev, published, -⟩ := reported earlier a later prior rfl flip
    have on : 0 < suppression := newer.trans_lt inside
    have window : ((start collector suppression).after (fun _ => false) earlier).suppression = suppression :=
      (after_settings earlier).1
    have below : Roomy (fun _ => false) (start collector suppression) earlier := by
      rintro front rest rfl
      exact roomy front (rest ++ a :: later) (by simp)
    apply (published_iff _ a).mp ⟨ev, published⟩
    rw [recent_iff, window]
    exact ⟨on, last, (seen_eq_latest on below a.routeKey).trans held, newer, inside⟩

end BMPListener

def sampleAnnouncement (origin : Nat) (time : Int) : Announcement :=
  ⟨⟨"tenant", "router"⟩, ⟨64500, .v4 [10, 0, 0, 1], time⟩, ⟨.v4 [192, 0, 2, 0], 24, [64500, origin], origin⟩, 0⟩

theorem BMPListener.flips_reported_of_no_return_once :
    let history := [sampleAnnouncement 1 1, sampleAnnouncement 2 2]
    let l := BMPListener.start "bmp" 300000000000
    BMPListener.Kept (fun _ => false) l history ∧
      (BMPListener.NoReturn l history → BMPListener.FlipsReported l history) ∧
      (BMPListener.Roomy (fun _ => false) l history →
        BMPListener.FlipsReported l history → BMPListener.NoReturn l history) := by
  have kept : BMPListener.Kept (fun _ => false) (start "bmp" 300000000000)
      [sampleAnnouncement 1 1, sampleAnnouncement 2 2] := by
    intro earlier a later split
    match earlier with
    | [] =>
      cases split
      decide +kernel
    | [_] =>
      cases split
      decide +kernel
    | _ :: _ :: _ => simp at split
  exact ⟨kept, flips_reported_of_no_return "bmp" 300000000000 _ kept⟩

def Outcome.kind : Outcome → Option (EventType × Bool)
  | .suppressed => none
  | .published ev => some (ev.eventType, true)
  | .failed ev => some (ev.eventType, false)

/-- Origins 1, 2, 1 within the window: the way back is suppressed but recorded, so
that it is not reported after the window either. -/
theorem return_within_window_lost :
    let history := [sampleAnnouncement 1 1, sampleAnnouncement 2 2, sampleAnnouncement 1 3, sampleAnnouncement 1 300000000002]
    let l := BMPListener.start "bmp" 300000000000
    Flip (history.take 2) (sampleAnnouncement 1 3) 2 ∧
      (l.after (fun _ => false) history).handled.map (fun h => h.2.kind) =
        [some (.routeObservation, true), some (.originChange, true), none, some (.routeObservation, true)] := by
  refine ⟨⟨by decide +kernel, by decide⟩, by decide +kernel⟩

/-! Failed publishes. -/

namespace BMPListener

def SameTables (l m : BMPListener) : Prop :=
  (∀ k, l.baseline.lookup k = m.baseline.lookup k) ∧ ∀ k, l.seen.lookup k = m.seen.lookup k

variable {fails : Nat → Bool} {l : BMPListener} {ev : Event}

theorem failed_spec (failed : (l.handleRoute fails a).2 = .failed ev) :
    ¬ (0 < l.suppression ∧ l.recent a) ∧ ev = routeEvent l.collector (l.baseline.lookup a.originKey) a := by
  rw [(handleRoute_eq fails l a).2] at failed
  split at failed
  · cases failed
  rename_i fresh
  split at failed
  · cases failed
    exact ⟨fresh, rfl⟩
  · cases failed

theorem failed_sameTables_iff (failed : (l.handleRoute fails a).2 = .failed ev) :
    SameTables (l.handleRoute fails a).1 l ↔ l.suppression ≤ 0 ∧ l.baseline.lookup a.originKey = some a.route.originASN := by
  obtain ⟨fresh, -⟩ := failed_spec failed
  unfold SameTables
  rw [(handleRoute_eq fails l a).1]
  dsimp only
  constructor
  · rintro ⟨baseline, seen⟩
    have recorded := baseline a.originKey
    rw [lookup_insert] at recorded
    refine ⟨?_, recorded.symm⟩
    by_contra off
    have on : 0 < l.suppression := not_le.mp off
    -- the route would have been remembered with this very time before
    have remembered := seen a.routeKey
    rw [if_neg (fun skip => skip.elim off fun again => fresh ⟨on, again⟩), lookup_insert] at remembered
    exact fresh ⟨on, (recent_iff l a).mpr ⟨a.detectedAt, remembered.symm, by omega, by omega⟩⟩
  · rintro ⟨off, recorded⟩
    have keeps : l.resets a = false := by simp [resets, recorded]
    rw [keeps, if_neg (by decide), if_pos (.inl off)]
    refine ⟨fun k => ?_, fun _ => rfl⟩
    by_cases same : k = a.originKey
    · rw [same, lookup_insert, recorded]
    · exact lookup_insert_ne same

end BMPListener

structure Announcement.Redelivers (again a : Announcement) : Prop where
  id : again.id = a.id
  asn : again.peer.asn = a.peer.asn
  address : again.peer.address = a.peer.address
  route : again.route = a.route

variable {again : Announcement}

theorem Announcement.Redelivers.originKey_eq (same : again.Redelivers a) : again.originKey = a.originKey := by
  unfold Announcement.originKey
  rw [same.id, same.asn, same.address, same.route]

theorem Announcement.Redelivers.routeEvent_eq (same : again.Redelivers a) (collector : String) (prior : Option Nat) :
    routeEvent collector prior again = { routeEvent collector prior a with detectedAtUnixNano := again.detectedAt } := by
  unfold routeEvent
  rw [same.id, same.asn, same.address, same.route]
  cases prior with
  | none => rfl
  | some prior =>
    dsimp only
    split <;> rfl

theorem routeEvent_recorded (collector : String) (a : Announcement) :
    routeEvent collector (some a.route.originASN) a = routeEvent collector none a := by
  unfold routeEvent
  dsimp only
  rw [if_neg (not_not.mpr rfl)]

namespace BMPListener

/-- If the publish of `a` fails, the tables are as they were before, and whenever
the route is delivered again, with only other prefixes in between, its event is
published. -/
def NotConsumed (fails : Nat → Bool) (l : BMPListener) (a : Announcement) : Prop :=
  ∀ ev, (l.handleRoute fails a).2 = .failed ev →
    SameTables (l.handleRoute fails a).1 l ∧
      ∀ fails' between again, (∀ b ∈ between, b.originKey ≠ a.originKey) → again.Redelivers a →
        ((((l.handleRoute fails a).1).after fails' between).handleRoute (fun _ => false) again).2 =
          .published { ev with detectedAtUnixNano := again.detectedAt }

variable {fails : Nat → Bool} {l : BMPListener}

theorem notConsumed_iff (a : Announcement) :
    NotConsumed fails l a ↔ ∀ ev, (l.handleRoute fails a).2 = .failed ev →
      l.suppression ≤ 0 ∧ l.baseline.lookup a.originKey = some a.route.originASN := by
  constructor
  · intro kept ev failed
    exact (failed_sameTables_iff failed).mp (kept ev failed).1
  intro unchanged ev failed
  have same := (failed_sameTables_iff failed).mpr (unchanged ev failed)
  refine ⟨same, fun fails' between again others redelivers => ?_⟩
  obtain ⟨off, recorded⟩ := unchanged ev failed
  obtain ⟨-, rfl⟩ := failed_spec failed
  obtain ⟨window, collector⟩ := @after_settings fails' (l.handleRoute fails a).1 between
  rw [handleRoute_suppression] at window
  rw [handleRoute_collector] at collector
  rw [(handleRoute_eq _ _ again).2, window, if_neg (fun on => not_lt.mpr off on.1), if_neg (by decide), collector,
    redelivers.originKey_eq, recorded, redelivers.routeEvent_eq]
  -- between the deliveries the baseline keeps the origin or forgets the prefix
  have baseline := @after_baseline_other fails' (l.handleRoute fails a).1 between a.originKey others
  rw [same.1, recorded] at baseline
  obtain held | forgotten := baseline
  · rw [held]
  · rw [forgotten, routeEvent_recorded]

/-- Over whole runs, with any pattern of failures: nothing is consumed by a failed
publish exactly where every failed publish is of a recorded origin while
suppression is off. -/
theorem failed_publish_not_consumed_iff (collector : String) (suppression : Int) (fails : Nat → Bool)
    (deliveries : List Delivery) :
    let history := ((start collector suppression).serve fails deliveries).handled.map Prod.fst
    (start collector suppression).serve fails deliveries = (start collector suppression).after fails history ∧
      ((∀ earlier a later, history = earlier ++ a :: later →
          NotConsumed fails ((start collector suppression).after fails earlier) a) ↔
        ∀ earlier a later ev, history = earlier ++ a :: later →
          (((start collector suppression).after fails earlier).handleRoute fails a).2 = .failed ev →
          suppression ≤ 0 ∧
            ((start collector suppression).after fails earlier).baseline.lookup a.originKey = some a.route.originASN) := by
  obtain ⟨history, served⟩ := @serve_eq_after fails (start collector suppression) deliveries
  have handled : ((start collector suppression).after fails history).handled.map Prod.fst = history := by
    rw [after_handled]
    rfl
  rw [served, handled]
  refine ⟨rfl, ?_⟩
  have window earlier : ((start collector suppression).after fails earlier).suppression = suppression :=
    (after_settings earlier).1
  constructor
  · intro kept earlier a later ev split failed
    obtain ⟨off, recorded⟩ := (notConsumed_iff a).mp (kept earlier a later split) ev failed
    exact ⟨window earlier ▸ off, recorded⟩
  · intro unchanged earlier a later split
    rw [notConsumed_iff, window]
    exact fun ev failed => unchanged earlier a later ev split failed

/-- The change from AS 100 to AS 200 fails to be published; delivered again it is
suppressed, and after the window it is no change any more. -/
theorem failed_change_lost :
    let payload := fun origin => (legacyUpdate [0x40, 2, 4, 2, 1, 0, origin]).drop bmpCommonHeaderLen
    let deliver := fun origin now => Delivery.mk ⟨"tenant", "router"⟩ (payload origin) now
    ((start "bmp" 300000000000).serve (fun n => n = 1) [deliver 100 1, deliver 200 2, deliver 200 3,
        deliver 200 300000000002]).handled.map (fun h => h.2.kind) =
      [some (.routeObservation, true), some (.originChange, false), none, some (.routeObservation, true)] := by
  decide +kernel

end BMPListener

end Probectl.Bgp
