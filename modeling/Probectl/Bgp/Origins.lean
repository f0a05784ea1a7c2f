import Probectl.Bgp.RawAgreement
import Probectl.Lib.Latest

/-! The raw lane's events: `bmp.go` from the routes of an observation on, with
`recordOrigin` and `repeated`. Which publishes fail is the environment's choice,
and a failed one ends the session. -/
namespace Probectl.Bgp

open Latest List

def bmpMaxSuppressionKeys : Nat := 100000
def bmpMaxBaselineKeys : Nat := 2 ^ 20

structure BMPIdentity where
  tenantID : String
  agentID : String
  deriving DecidableEq

structure Announcement where
  id : BMPIdentity
  peer : BMPPeer
  route : BMPRouteAnnouncement
  now : Int
  deriving DecidableEq

structure BMPOriginBaselineKey where
  tenantID : String
  agentID : String
  peerAddress : Addr
  addr : Addr
  bits : Nat
  peerASN : Nat
  deriving DecidableEq

structure BMPRouteKey where
  tenantID : String
  agentID : String
  peerAddress : Addr
  addr : Addr
  bits : Nat
  asPath : List Nat
  peerASN : Nat
  originASN : Nat
  deriving DecidableEq

namespace Announcement

def detectedAt (a : Announcement) : Int := if a.peer.timestampUnixNano = 0 then a.now else a.peer.timestampUnixNano

def originKey (a : Announcement) : BMPOriginBaselineKey :=
  ⟨a.id.tenantID, a.id.agentID, a.peer.address, a.route.addr, a.route.bits, a.peer.asn⟩

def routeKey (a : Announcement) : BMPRouteKey :=
  ⟨a.id.tenantID, a.id.agentID, a.peer.address, a.route.addr, a.route.bits, a.route.asPath, a.peer.asn, a.route.originASN⟩

end Announcement

/-! Events. -/

inductive EventType where
  | routeObservation | originChange
  deriving DecidableEq

inductive Severity where
  | info | warning
  deriving DecidableEq

inductive RPKIStatus where
  | valid | invalid | notFound | unknown
  deriving DecidableEq

/-- The texts of events, before they are formatted. -/
inductive EventMessage where
  | observed (addr : Addr) (bits origin : Nat)
  | changed (addr : Addr) (bits prior origin : Nat)
  deriving DecidableEq

structure Event where
  tenantID : String
  eventType : EventType
  severity : Severity
  confidence : ℚ
  addr : Addr
  bits : Nat
  newOriginASN : Nat
  oldOriginASN : Nat
  newASPath : List Nat
  rpkiStatus : RPKIStatus
  collector : String
  peerASN : Nat
  peerAddress : Addr
  message : EventMessage
  detectedAtUnixNano : Int
  deriving DecidableEq

def collectorFor (collector agentID : String) : String := if agentID = "" then collector else collector ++ "/" ++ agentID

def routeEvent (collector : String) (prior : Option Nat) (a : Announcement) : Event :=
  let ev : Event :=
    { tenantID := a.id.tenantID
      eventType := .routeObservation
      severity := .info
      confidence := 0
      addr := a.route.addr
      bits := a.route.bits
      newOriginASN := a.route.originASN
      oldOriginASN := 0
      newASPath := a.route.asPath
      rpkiStatus := .unknown
      collector := collectorFor collector a.id.agentID
      peerASN := a.peer.asn
      peerAddress := a.peer.address
      message := .observed a.route.addr a.route.bits a.route.originASN
      detectedAtUnixNano := a.detectedAt }
  match prior with
  | none => ev
  | some prior =>
    if prior ≠ a.route.originASN then
      { ev with
        eventType := .originChange
        severity := .warning
        confidence := 7 / 10
        oldOriginASN := prior
        message := .changed a.route.addr a.route.bits prior a.route.originASN }
    else ev

/-! The listener. -/

inductive Outcome where
  | suppressed
  | published (ev : Event)
  | failed (ev : Event)
  deriving DecidableEq

structure BMPListener where
  collector : String
  suppression : Int
  baseline : AList (fun _ : BMPOriginBaselineKey => Nat)
  seen : AList (fun _ : BMPRouteKey => Int)
  handled : List (Announcement × Outcome)

namespace BMPListener

def start (collector : String) (suppression : Int) : BMPListener := ⟨collector, suppression, ∅, ∅, []⟩

def resets (l : BMPListener) (a : Announcement) : Bool :=
  l.baseline.lookup a.originKey = none ∧ l.baseline.keys.length ≥ bmpMaxBaselineKeys

def recordOrigin (l : BMPListener) (a : Announcement) : Option Nat × BMPListener :=
  let baseline := if l.resets a then ∅ else l.baseline
  (l.baseline.lookup a.originKey, { l with baseline := baseline.insert a.originKey a.route.originASN })

def sweep (seen : AList (fun _ : BMPRouteKey => Int)) (window now : Int) : AList (fun _ : BMPRouteKey => Int) :=
  ⟨seen.entries.filter (fun entry => ¬ now - entry.2 ≥ window), NodupKeys.sublist filter_sublist seen.nodupKeys⟩

def room (seen : AList (fun _ : BMPRouteKey => Int)) (window now : Int) : AList (fun _ : BMPRouteKey => Int) :=
  if seen.keys.length ≥ bmpMaxSuppressionKeys then
    if (sweep seen window now).keys.length ≥ bmpMaxSuppressionKeys then ∅ else sweep seen window now
  else seen

def recent (l : BMPListener) (a : Announcement) : Bool :=
  match l.seen.lookup a.routeKey with
  | none => false
  | some last => a.detectedAt - last ≥ 0 ∧ a.detectedAt - last < l.suppression

def repeated (l : BMPListener) (a : Announcement) : Bool × BMPListener :=
  if l.suppression ≤ 0 then (false, l)
  else if l.recent a then (true, l)
  else (false, { l with seen := (room l.seen l.suppression a.detectedAt).insert a.routeKey a.detectedAt })

/-- One route of an observation; `fails` says which of the announcements that are
published fail. -/
def handleRoute (fails : Nat → Bool) (l : BMPListener) (a : Announcement) : BMPListener × Outcome :=
  let (prior, recorded) := l.recordOrigin a
  let ev := routeEvent l.collector prior a
  let (again, remembered) := recorded.repeated a
  let outcome := if again then .suppressed else if fails l.handled.length then .failed ev else .published ev
  ({ remembered with handled := l.handled ++ [(a, outcome)] }, outcome)

def handleRoutes (fails : Nat → Bool) : BMPListener → List Announcement → BMPListener
  | l, [] => l
  | l, a :: rest =>
    match l.handleRoute fails a with
    | (l, .failed _) => l
    | (l, _) => handleRoutes fails l rest

end BMPListener

structure Delivery where
  id : BMPIdentity
  payload : Bytes
  now : Int

def Delivery.announcements (d : Delivery) : List Announcement :=
  match parseBMPRouteMonitoring d.payload with
  | .error _ => []
  | .ok obs => obs.routes.map fun route => ⟨d.id, obs.peer, route, d.now⟩

namespace BMPListener

def serve (fails : Nat → Bool) (l : BMPListener) (deliveries : List Delivery) : BMPListener :=
  deliveries.foldl (fun l d => l.handleRoutes fails d.announcements) l

def after (fails : Nat → Bool) (l : BMPListener) (history : List Announcement) : BMPListener :=
  history.foldl (fun l a => (l.handleRoute fails a).1) l

variable {fails : Nat → Bool} {l : BMPListener}

@[simp] theorem after_nil : l.after fails [] = l := rfl

variable (history : List Announcement) (a : Announcement)

theorem after_append (more : List Announcement) :
    l.after fails (history ++ more) = (l.after fails history).after fails more := by
  rw [after, foldl_append]
  rfl

theorem after_snoc : l.after fails (history ++ [a]) = ((l.after fails history).handleRoute fails a).1 := by
  rw [after_append]
  rfl

/-! What one announcement does. -/

theorem recent_baseline (baseline : AList (fun _ : BMPOriginBaselineKey => Nat)) (a : Announcement) :
    ({ l with baseline := baseline } : BMPListener).recent a = l.recent a := rfl

theorem handleRoute_eq (fails : Nat → Bool) (l : BMPListener) (a : Announcement) :
    (l.handleRoute fails a).1 =
      { collector := l.collector
        suppression := l.suppression
        baseline := (if l.resets a then ∅ else l.baseline).insert a.originKey a.route.originASN
        seen :=
          if l.suppression ≤ 0 ∨ l.recent a then l.seen
          else (room l.seen l.suppression a.detectedAt).insert a.routeKey a.detectedAt
        handled := l.handled ++ [(a, (l.handleRoute fails a).2)] } ∧
    (l.handleRoute fails a).2 =
      if 0 < l.suppression ∧ l.recent a then .suppressed
      else if fails l.handled.length then .failed (routeEvent l.collector (l.baseline.lookup a.originKey) a)
      else .published (routeEvent l.collector (l.baseline.lookup a.originKey) a) := by
  by_cases off : l.suppression ≤ 0
  · simp [handleRoute, recordOrigin, repeated, off]
  by_cases again : l.recent a
  all_goals simp [handleRoute, recordOrigin, repeated, recent_baseline, off, again]

@[simp] theorem handleRoute_suppression : (l.handleRoute fails a).1.suppression = l.suppression := by
  rw [(handleRoute_eq fails l a).1]

@[simp] theorem handleRoute_collector : (l.handleRoute fails a).1.collector = l.collector := by
  rw [(handleRoute_eq fails l a).1]

theorem after_settings :
    (l.after fails history).suppression = l.suppression ∧ (l.after fails history).collector = l.collector := by
  induction history using reverseRecOn with
  | nil => exact ⟨rfl, rfl⟩
  | append_singleton earlier a ih =>
    rw [after_snoc, handleRoute_suppression, handleRoute_collector]
    exact ih

theorem after_handled : (l.after fails history).handled.map Prod.fst = l.handled.map Prod.fst ++ history := by
  induction history using reverseRecOn with
  | nil => simp
  | append_singleton earlier a ih =>
    rw [after_snoc, (handleRoute_eq fails _ a).1, map_append, ih, append_assoc]
    rfl

/-! Sessions are histories: a failed publish cuts the rest of its message. -/

theorem handleRoutes_eq_after (l : BMPListener) (routes : List Announcement) :
    ∃ history, l.handleRoutes fails routes = l.after fails history ∧ history <+: routes := by
  induction routes generalizing l with
  | nil => exact ⟨[], rfl, nil_prefix⟩
  | cons a rest ih =>
    rw [handleRoutes]
    split
    · rename_i next ev handled
      refine ⟨[a], ?_, by simp⟩
      rw [← nil_append [a], after_snoc, after_nil, handled]
    · rename_i next outcome _ handled
      obtain ⟨history, same, front⟩ := ih next
      refine ⟨a :: history, ?_, cons_prefix_cons.mpr ⟨rfl, front⟩⟩
      rw [same, ← singleton_append, after_append, ← nil_append [a], after_snoc, after_nil, handled]

theorem serve_eq_after (l : BMPListener) (deliveries : List Delivery) :
    ∃ history, l.serve fails deliveries = l.after fails history := by
  induction deliveries generalizing l with
  | nil => exact ⟨[], rfl⟩
  | cons d rest ih =>
    obtain ⟨first, same, -⟩ := handleRoutes_eq_after l d.announcements
    obtain ⟨later, continued⟩ := ih (l.handleRoutes fails d.announcements)
    refine ⟨first ++ later, ?_⟩
    rw [after_append, ← same, ← continued]
    rfl

end BMPListener

end Probectl.Bgp
