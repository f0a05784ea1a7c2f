import Probectl.Lib.Netip
import Probectl.Lib.Run

/-! The incident correlator of `internal/incident` over its in-memory store: `Ingest` and
`IngestAuthenticated`, the join rule of `correlate.go`, and the store's `OpenIncidents`,
`Create` and `AppendSignal`. Times are nanoseconds since the epoch. -/
namespace Probectl.Incidents

open Strings Text Netip

abbrev Severity := Bytes

namespace Severity

def info : Severity := lit "info"
def warning : Severity := lit "warning"
def critical : Severity := lit "critical"

def rank (s : Severity) : Nat :=
  if s = critical then 3 else if s = warning then 2 else if s = info then 1 else 0

def max (a b : Severity) : Severity := if rank a < rank b then b else if rank a = 0 then info else a

end Severity

inductive Status where
  | isOpen
  | resolved
  deriving DecidableEq

abbrev Attributes := AList fun _ : Bytes => Bytes

scoped instance : DecidableEq Attributes := fun a b => decidable_of_iff (a.entries = b.entries) AList.ext_iff.symm

structure Signal where
  tenantID : Bytes
  plane : Bytes
  kind : Bytes
  severity : Severity
  title : Bytes
  summary : Bytes
  target : Bytes
  pfx : Bytes
  attributes : Attributes
  occurredAt : Int
  identityContextID : Bytes
  identityEntityID : Bytes
  identityLookupAttempted : Bool
  deriving DecidableEq

structure CorrelationOverride where
  id : Bytes
  tenantID : Bytes
  sourceIncidentID : Bytes
  plane : Bytes
  kind : Bytes
  target : Bytes
  pfx : Bytes
  identityContextID : Bytes
  identityEntityID : Bytes
  identityLookupAttempted : Bool
  active : Bool
  deriving DecidableEq

structure Incident where
  id : Bytes
  tenantID : Bytes
  status : Status
  severity : Severity
  title : Bytes
  target : Bytes
  pfx : Bytes
  startedAt : Int
  lastSeenAt : Int
  signalCount : Nat
  identityContextID : Bytes
  identityEntityID : Bytes
  identityLookupAttempted : Bool
  signals : List Signal
  deriving DecidableEq

/-- The hash of a text, and the text of a duration in whole seconds. -/
structure Formats where
  hash : Bytes → Bytes
  seconds : Int → Bytes

def minute : Int := 60 * 10 ^ 9
def defaultWindow : Int := 10 * minute
def maxFutureSkew : Int := 5 * minute

def zeroTime : Int := -62135596800 * 10 ^ 9

/-- `UnixNano` is an `int64`. -/
def unixNano (t : Int) : Int := (t + 2 ^ 63) % 2 ^ 64 - 2 ^ 63

/-! Signals. -/

namespace Signal

/-- Set by the correlator, not part of the event. -/
def derived (key : Bytes) : Bool := (lit "correlation.").isPrefixOf key

def eventKeys (s : Signal) : List Bytes := sort (s.attributes.keys.filter fun k => !derived k)

def eventAttributes (s : Signal) : List (Bytes × Bytes) :=
  s.eventKeys.map fun k => (k, (s.attributes.lookup k).getD [])

/-- The parts that `Fingerprint` joins, each ended by a zero byte. -/
def parts (s : Signal) : List Bytes :=
  [s.tenantID, s.plane, s.kind, s.target, s.pfx, decimalInt (unixNano s.occurredAt), s.title, s.summary]

def pair (entry : Bytes × Bytes) : Bytes := entry.1 ++ (61 :: entry.2)

def joined (s : Signal) : Bytes := lines 0 s.parts ++ lines 0 (s.eventAttributes.map pair)

def fingerprint (f : Formats) (s : Signal) : Bytes := hexEncode (f.hash s.joined)

def correlationKey (s : Signal) : Bytes := if s.target ≠ [] then s.target else s.pfx

end Signal

def CorrelationOverride.matches (o : CorrelationOverride) (s : Signal) : Bool :=
  o.active && (!o.identityLookupAttempted || decide (o.identityEntityID ≠ [])) && decide (o.tenantID = s.tenantID) &&
    decide (o.plane = s.plane) && decide (o.kind = s.kind) && decide (o.target = s.target) && decide (o.pfx = s.pfx) &&
    decide (o.identityLookupAttempted = s.identityLookupAttempted) &&
    decide (o.identityContextID = s.identityContextID) && decide (o.identityEntityID = s.identityEntityID)

def newIncident (s : Signal) : Incident :=
  { id := [], tenantID := s.tenantID, status := .isOpen, severity := s.severity, title := s.title,
    target := if s.target = [] then s.pfx else s.target, pfx := s.pfx, startedAt := s.occurredAt,
    lastSeenAt := s.occurredAt, signalCount := 0, identityContextID := s.identityContextID,
    identityEntityID := s.identityEntityID, identityLookupAttempted := s.identityLookupAttempted, signals := [] }

/-! The join rule. -/

def asAddr (target : Bytes) : Option Addr :=
  if target = [] then none
  else (parseAddr target).or ((splitHost target).bind parseAddr)

def ipInPrefix (target pfx : Bytes) : Bool :=
  if target = [] ∨ pfx = [] then false
  else
    match asAddr target, parsePrefix pfx with
    | some addr, some p => p.contains addr
    | _, _ => false

def prefixesOverlap (a b : Bytes) : Bool :=
  if a = [] ∨ b = [] then false
  else
    match parsePrefix a, parsePrefix b with
    | some p, some q => p.contains q.addr || q.contains p.addr
    | _, _ => false

def targetsRelated (incTarget incPrefix sigTarget sigPrefix : Bytes) : Bool :=
  (decide (incTarget ≠ []) && decide (incTarget = sigTarget)) ||
    (ipInPrefix sigTarget incPrefix || ipInPrefix incTarget sigPrefix) || prefixesOverlap incPrefix sigPrefix

def withinWindow (t start last window : Int) : Bool := !decide (t < start - window) && !decide (last + window < t)

def identitiesRelated (inc : Incident) (s : Signal) : Bool :=
  inc.identityLookupAttempted && s.identityLookupAttempted && decide (inc.tenantID = s.tenantID) &&
    decide (inc.identityContextID ≠ []) && decide (inc.identityEntityID ≠ []) &&
    decide (inc.identityContextID = s.identityContextID) && decide (inc.identityEntityID = s.identityEntityID)

def related (inc : Incident) (s : Signal) (window : Int) : Bool :=
  decide (inc.status = .isOpen) && withinWindow s.occurredAt inc.startedAt inc.lastSeenAt window &&
    if inc.identityLookupAttempted || s.identityLookupAttempted then identitiesRelated inc s
    else targetsRelated inc.target inc.pfx s.target s.pfx

/-! The store. -/

structure MemoryStore where
  seq : Nat
  incidents : List Incident
  overrides : List CorrelationOverride
  seen : Bytes → List Bytes

def newMemoryStore : MemoryStore := ⟨0, [], [], fun _ => []⟩

inductive Refusal where
  | noTenant
  | noCorrelationKey (plane kind : Bytes)
  | notFound
  deriving DecidableEq

namespace MemoryStore

def get (m : MemoryStore) (id : Bytes) : Option Incident := m.incidents.find? (·.id = id)

def activeCorrelationOverrides (m : MemoryStore) (tenant : Bytes) (s : Signal) : List CorrelationOverride :=
  m.overrides.filter fun o => o.tenantID = tenant && o.matches s

def openIncidents (m : MemoryStore) (tenant : Bytes) : List Incident :=
  m.incidents.filter fun inc => inc.tenantID = tenant && inc.status = .isOpen

/-- The incidents in the order `OpenIncidents` may return them: most recently active first,
and any order among those that were active at the same time. -/
def Arranged (m : MemoryStore) (tenant : Bytes) (found : List Incident) : Prop :=
  found.Perm (m.openIncidents tenant) ∧ found.Pairwise fun a b => b.lastSeenAt ≤ a.lastSeenAt

instance (m : MemoryStore) (tenant : Bytes) (found : List Incident) : Decidable (m.Arranged tenant found) :=
  inferInstanceAs (Decidable (_ ∧ _))

def idOf (n : Nat) : Bytes := lit "inc-" ++ decimal n

def create (m : MemoryStore) (inc : Incident) : MemoryStore :=
  { m with seq := m.seq + 1, incidents := m.incidents ++ [{ inc with id := idOf (m.seq + 1) }] }

end MemoryStore

def Incident.append (inc : Incident) (s : Signal) : Incident :=
  { inc with
    signals := inc.signals ++ [s]
    signalCount := inc.signalCount + 1
    severity := Severity.max inc.severity s.severity
    lastSeenAt := if inc.lastSeenAt < s.occurredAt then s.occurredAt else inc.lastSeenAt
    startedAt := if s.occurredAt < inc.startedAt then s.occurredAt else inc.startedAt }

def MemoryStore.push (f : Formats) (m : MemoryStore) (incidentID : Bytes) (s : Signal) : MemoryStore :=
  { m with
    seen := Function.update m.seen incidentID (m.seen incidentID ++ [s.fingerprint f])
    incidents := m.incidents.map fun i => if i.id = incidentID then i.append s else i }

def MemoryStore.appendSignal (f : Formats) (m : MemoryStore) (tenant incidentID : Bytes) (s : Signal) :
    Except Refusal MemoryStore :=
  match m.get incidentID with
  | none => .error .notFound
  | some inc =>
    if inc.tenantID ≠ tenant then .error .notFound
    else if s.fingerprint f ∈ m.seen incidentID then .ok m
    else .ok (m.push f incidentID s)

/-! The correlator. -/

def annotate (attributes : Attributes) (notes : List (Bytes × Bytes)) : Attributes :=
  notes.foldl (fun a note => a.insert note.1 note.2) attributes

def overrideNotes (reason : Bytes) : List CorrelationOverride → List (Bytes × Bytes)
  | [] => []
  | o :: _ =>
    [(lit "correlation.override_id", o.id), (lit "correlation.excluded_parent_incident_id", o.sourceIncidentID),
      (lit "correlation.reason", reason)]

def groupedNotes (f : Formats) (s : Signal) (parent : Incident) (window : Int) (overrides : List CorrelationOverride) :
    List (Bytes × Bytes) :=
  [(lit "correlation.state", lit "grouped"), (lit "correlation.parent_incident_id", parent.id)] ++
    (if s.identityLookupAttempted then
      [(lit "correlation.reason", lit "within_window_and_same_verified_entity"),
        (lit "correlation.rule", lit "verified_entity_context_v1")]
    else
      [(lit "correlation.reason", lit "within_window_and_shared_target_or_prefix"),
        (lit "correlation.rule", lit "time_target_prefix_v1")]) ++
    [(lit "correlation.window_seconds", f.seconds window),
      (lit "correlation.freshness_seconds", f.seconds (s.occurredAt - parent.lastSeenAt).natAbs),
      (lit "correlation.match_confidence", lit "1.00"),
      (lit "correlation.confidence_scope", lit "deterministic_match_not_root_cause_probability")] ++
    overrideNotes (lit "operator_ungroup_override_then_related_independent_incident") overrides

def rootNotes (s : Signal) (rootID : Bytes) (overrides : List CorrelationOverride) : List (Bytes × Bytes) :=
  [(lit "correlation.state", lit "root"), (lit "correlation.parent_incident_id", rootID),
    (lit "correlation.reason", lit "no_related_open_incident"),
    (lit "correlation.rule",
      if s.identityEntityID ≠ [] then lit "verified_entity_context_v1"
      else if s.identityLookupAttempted then lit "identity_unresolved_v1"
      else lit "time_target_prefix_v1"),
    (lit "correlation.freshness_seconds", lit "0"), (lit "correlation.match_confidence", lit "1.00"),
    (lit "correlation.confidence_scope", lit "deterministic_match_not_root_cause_probability")] ++
    overrideNotes (lit "operator_ungroup_override_created_independent_incident") overrides

def withCorrelationExplanation (f : Formats) (s : Signal) (parent : Incident) (window : Int)
    (overrides : List CorrelationOverride) : Signal :=
  { s with attributes := annotate s.attributes (groupedNotes f s parent window overrides) }

def withRootCorrelationExplanation (s : Signal) (rootID : Bytes) (overrides : List CorrelationOverride) : Signal :=
  { s with attributes := annotate s.attributes (rootNotes s rootID overrides) }

def excludedByOverride (incidentID : Bytes) (overrides : List CorrelationOverride) : Bool :=
  overrides.any fun o => o.active && o.sourceIncidentID = incidentID

abbrev Outcome := MemoryStore × Except Refusal (Bytes × Bool)

def appended (f : Formats) (m : MemoryStore) (s : Signal) (incidentID : Bytes) (opened : Bool) : Outcome :=
  match m.appendSignal f s.tenantID incidentID s with
  | .error refusal => (m, .error refusal)
  | .ok m => (m, .ok (incidentID, opened))

/-- `ingestWithStore`, with the open incidents as the store returned them. The store
resolves no identities, so an authenticated signal has none. -/
def ingestWithStore (f : Formats) (window : Int) (m : MemoryStore) (found : List Incident) (s : Signal) : Outcome :=
  let overrides := m.activeCorrelationOverrides s.tenantID s
  match found.find? fun inc => !excludedByOverride inc.id overrides && related inc s window with
  | some inc => appended f m (withCorrelationExplanation f s inc window overrides) inc.id false
  | none =>
    let id := MemoryStore.idOf (m.seq + 1)
    appended f (m.create (newIncident s)) (withRootCorrelationExplanation s id overrides) id true

def prepared (s : Signal) (authenticated : Bool) (now : Int) : Signal :=
  { s with
    identityContextID := [], identityEntityID := [], identityLookupAttempted := authenticated
    occurredAt := if s.occurredAt = zeroTime ∨ now + maxFutureSkew < s.occurredAt then now else s.occurredAt
    severity := if s.severity = [] then Severity.info else s.severity }

def refused (s : Signal) : Option Refusal :=
  if s.tenantID = [] then some .noTenant
  else if s.correlationKey = [] then some (.noCorrelationKey s.plane s.kind)
  else none

structure Correlator where
  store : MemoryStore
  clock : Option Int

/-- `order` is how the store happens to arrange the open incidents. -/
inductive Label where
  | ingest (s : Signal) (authenticated : Bool) (now : Int) (order : List Incident → List Incident)
  | putOverride (o : CorrelationOverride)

def effectiveWindow (window : Int) : Int := if window ≤ 0 then defaultWindow else window

/-- The highest reading of the clock: the latest one, as long as it does not go back. -/
def Correlator.latest (c : Correlator) (now : Int) : Int := c.clock.elim now (max now)

def step (f : Formats) (window : Int) (c : Correlator) : Label → Option Correlator
  | .ingest s authenticated now order =>
    match refused s with
    | some _ => some c
    | none =>
      let found := order (c.store.openIncidents s.tenantID)
      if c.store.Arranged s.tenantID found then
        some ⟨(ingestWithStore f (effectiveWindow window) c.store found (prepared s authenticated now)).1,
          some (c.latest now)⟩
      else none
  | .putOverride o => some { c with store := { c.store with overrides := o :: c.store.overrides.filter (·.id ≠ o.id) } }

def recentFirst (found : List Incident) : List Incident := found.insertionSort fun a b => b.lastSeenAt ≤ a.lastSeenAt

def newCorrelator : Correlator := ⟨newMemoryStore, none⟩

end Probectl.Incidents
