import Probectl.Lib.Strings

/-! Topic names of the bus, `internal/bus/bus.go`: the shared lanes, a tenant's
namespaced copies of them, and the dead-letter topic beside each lane. -/
namespace Probectl.Bus

open Strings List Except Option

structure Message where
  topic : Bytes
  key : Bytes
  value : Bytes
  deriving DecidableEq, Repr

def networkResultsTopic : Bytes := lit "probectl.network.results"
def bgpEventsTopic : Bytes := lit "probectl.bgp.events"
def ebpfFlowsTopic : Bytes := lit "probectl.ebpf.flows"
def otlpMetricsTopic : Bytes := lit "probectl.otlp.metrics"
def otlpTracesTopic : Bytes := lit "probectl.otlp.traces"
def otlpLogsTopic : Bytes := lit "probectl.otlp.logs"
def flowEventsTopic : Bytes := lit "probectl.flow.events"
def flowIngestQualityTopic : Bytes := lit "probectl.flow.ingest-quality"
def deviceMetricsTopic : Bytes := lit "probectl.device.metrics"
def deviceNeighborsTopic : Bytes := lit "probectl.device.neighbors"
def deviceCollectionOutcomesTopic : Bytes := lit "probectl.device.collection-outcomes"
def deviceTrapEventsTopic : Bytes := lit "probectl.device.trap-events"
def endpointResultsTopic : Bytes := lit "probectl.endpoint.results"
def rumEventsTopic : Bytes := lit "probectl.rum.events"

def deadLetterDeviceTopic : Bytes := lit "probectl.deadletter.device"
def deadLetterFlowTopic : Bytes := lit "probectl.deadletter.flow"
def deadLetterResultsTopic : Bytes := lit "probectl.deadletter.results"
def deadLetterOTLPMetricsTopic : Bytes := lit "probectl.deadletter.otlp.metrics"
def deadLetterOTLPTracesTopic : Bytes := lit "probectl.deadletter.otlp.traces"
def deadLetterOTLPLogsTopic : Bytes := lit "probectl.deadletter.otlp.logs"

def tenantLaneTopics : List Bytes :=
  [networkResultsTopic, endpointResultsTopic, rumEventsTopic,
    flowEventsTopic, flowIngestQualityTopic,
    deviceMetricsTopic, deviceNeighborsTopic, deviceCollectionOutcomesTopic,
    deviceTrapEventsTopic,
    ebpfFlowsTopic, bgpEventsTopic,
    otlpMetricsTopic, otlpTracesTopic, otlpLogsTopic]

/-- The map from lane to dead-letter topic. Go iterates over it in any order;
keys and values are distinct, so no search below depends on the order. -/
def deadLetterBySource : List (Bytes × Bytes) :=
  [(networkResultsTopic, deadLetterResultsTopic),
    (endpointResultsTopic, deadLetterResultsTopic ++ lit ".endpoint"),
    (rumEventsTopic, deadLetterResultsTopic ++ lit ".rum"),
    (flowEventsTopic, deadLetterFlowTopic),
    (deviceMetricsTopic, deadLetterDeviceTopic),
    (otlpMetricsTopic, deadLetterOTLPMetricsTopic),
    (otlpTracesTopic, deadLetterOTLPTracesTopic),
    (otlpLogsTopic, deadLetterOTLPLogsTopic)]

def deadLetterTopicsSorted : List Bytes := sort (deadLetterBySource.map Prod.snd).dedup

def allTopics : List Bytes :=
  tenantLaneTopics ++ deadLetterTopicsSorted.filter (fun dlq => dlq ∉ tenantLaneTopics)

def slugByte (b : UInt8) : Bool := isLower b || isDigit b || b == 45

/-- `^[a-z0-9][a-z0-9-]{0,62}$`. -/
def namespaceRe : Bytes → Bool := headTail (fun b => isLower b || isDigit b) slugByte 0 (some 62)

def validNamespace (ns : Bytes) : Bool := ns == [] || namespaceRe ns

inductive TopicError where
  | invalidNamespace (ns : Bytes) | notNamespaceable (base : Bytes) | noDeadLetter (lane : Bytes)
  deriving DecidableEq, Repr

def dot : UInt8 := 46

def topicFor (ns base : Bytes) : Except TopicError Bytes :=
  if ns = [] then .ok base
  else if namespaceRe ns = false then .error (.invalidNamespace ns)
  else
    match cutPrefix base (lit "probectl.") with
    | none => .error (.notNamespaceable base)
    | some rest => .ok (lit "probectl." ++ ns ++ [dot] ++ rest)

def splitNamespaced (topic : Bytes) : Option (Bytes × Bytes) :=
  match cutPrefix topic (lit "probectl.") with
  | none => none
  | some rest =>
    match cut dot rest with
    | none => none
    | some (seg, tail) =>
      if namespaceRe seg then some (seg, lit "probectl." ++ tail) else none

def deadLetterOf (lane : Bytes) : Option Bytes := deadLetterBySource.lookup lane

def sourceOf (dlq : Bytes) : Option Bytes :=
  (deadLetterBySource.find? (fun p => p.2 == dlq)).map Prod.fst

def deadLetterTopicFor (sourceTopic : Bytes) : Except TopicError Bytes :=
  match deadLetterOf sourceTopic with
  | some dlq => .ok dlq
  | none =>
    match splitNamespaced sourceTopic with
    | none => .error (.noDeadLetter sourceTopic)
    | some (ns, base) =>
      match deadLetterOf base with
      | some dlq => topicFor ns dlq
      | none => .error (.noDeadLetter sourceTopic)

def sourceTopicForDeadLetter (dlqTopic : Bytes) : Option Bytes :=
  match sourceOf dlqTopic with
  | some src => some src
  | none =>
    match splitNamespaced dlqTopic with
    | none => none
    | some (ns, base) =>
      match sourceOf base with
      | some src => (topicFor ns src).toOption
      | none => none

/-- `^[a-z0-9][a-z0-9-]{1,62}$` of `ee/provider/store.go`. -/
def slugRe : Bytes → Bool := headTail (fun b => isLower b || isDigit b) slugByte 1 (some 62)

def validSlug (s : Bytes) : Bool := slugRe s

def busNamespaceFor (slug : Bytes) : Bytes := lit "t-" ++ slug

def tenantBuckets : UInt8 := 16

def fnv1a (entropy : Bytes) : UInt32 :=
  entropy.foldl (fun h b => (h ^^^ b.toUInt32) * 16777619) 2166136261

def tenantKey (tenantID entropy : Bytes) : Bytes :=
  if entropy = [] then tenantID
  else tenantID ++ lit "|b" ++ [97 + (fnv1a entropy % tenantBuckets.toUInt32).toUInt8]

/-- The tenant of a key; only an exact bucket suffix is taken off. -/
def tenantFromKey (key : Bytes) : Bytes :=
  let suffix := key.drop (key.length - 3)
  match suffix with
  | [bar, b, bucket] =>
    if bar = 124 ∧ b = 98 ∧ 97 ≤ bucket ∧ bucket < 97 + tenantBuckets then key.take (key.length - 3) else key
  | _ => key

variable {ns : Bytes}

theorem namespaceRe_no_dot (ok : namespaceRe ns = true) : dot ∉ ns :=
  headTail_avoids ok (by decide) (by decide)

theorem namespaceRe_nonempty (ok : namespaceRe ns = true) : ns ≠ [] := by
  rintro rfl
  simp [namespaceRe, headTail] at ok

variable {topic base : Bytes}

theorem splitNamespaced_iff : splitNamespaced topic = some (ns, base) ↔
      namespaceRe ns = true ∧ ∃ rest, base = lit "probectl." ++ rest ∧
        topic = lit "probectl." ++ (ns ++ dot :: rest) := by
  constructor
  · intro h
    unfold splitNamespaced at h
    cases stripped : cutPrefix topic (lit "probectl.") with
    | none => simp [stripped] at h
    | some rest =>
      cases segment : cut dot rest with
      | none => simp [stripped, segment] at h
      | some parts =>
        obtain ⟨seg, tail⟩ := parts
        simp only [stripped, segment, ite_none_right_eq_some] at h
        obtain ⟨ok, rfl, rfl⟩ := h
        exact ⟨ok, tail, rfl, by rw [cutPrefix_some.mp stripped, (cut_some segment).1]⟩
  · rintro ⟨ok, rest, rfl, rfl⟩
    simp [splitNamespaced, cutPrefix_append, cut_append (namespaceRe_no_dot ok), ok]

theorem topicFor_iff_split (nonempty : ns ≠ []) :
    topicFor ns base = .ok topic ↔ splitNamespaced topic = some (ns, base) := by
  rw [splitNamespaced_iff]
  constructor
  · intro h
    simp only [topicFor, nonempty] at h
    cases ok : namespaceRe ns with
    | false => simp [ok] at h
    | true =>
      cases stripped : cutPrefix base (lit "probectl.") with
      | none => simp [ok, stripped] at h
      | some rest =>
        simp only [ok, stripped, Bool.true_eq_false, if_false, Except.ok.injEq] at h
        exact ⟨rfl, rest, cutPrefix_some.mp stripped, by simp [← h]⟩
  · rintro ⟨ok, rest, rfl, rfl⟩
    simp [topicFor, nonempty, ok, cutPrefix_append]

theorem split_nonempty (split : splitNamespaced topic = some (ns, base)) :
    ns ≠ [] := namespaceRe_nonempty (splitNamespaced_iff.mp split).1

theorem mem_deadLetterBySource_lookup :
    ∀ p ∈ deadLetterBySource, deadLetterOf p.1 = some p.2 ∧ sourceOf p.2 = some p.1 := by decide +kernel

variable {lane dlq : Bytes}

theorem deadLetterOf_iff : deadLetterOf lane = some dlq ↔ (lane, dlq) ∈ deadLetterBySource := by
  constructor
  · intro h
    obtain ⟨before, behind, table, _⟩ := lookup_eq_some_iff.mp h
    simp [table]
  · exact fun mem => (mem_deadLetterBySource_lookup _ mem).1

theorem sourceOf_iff : sourceOf dlq = some lane ↔ (lane, dlq) ∈ deadLetterBySource := by
  constructor
  · intro h
    obtain ⟨⟨src, topic⟩, found, rfl⟩ := map_eq_some_iff.mp h
    have same : topic = dlq := by simpa using find?_some found
    exact same ▸ mem_of_find?_eq_some found
  · exact fun mem => (mem_deadLetterBySource_lookup _ mem).2

theorem shared_base_unmapped :
    (∀ p ∈ deadLetterBySource, ∀ q, splitNamespaced p.1 = some q → deadLetterOf q.2 = none) ∧
    (∀ p ∈ deadLetterBySource, ∀ q, splitNamespaced p.2 = some q → sourceOf q.2 = none) := by
  constructor
  · have table : ∀ p ∈ deadLetterBySource,
        (splitNamespaced p.1).all (fun q => deadLetterOf q.2 == none) = true := by decide +kernel
    intro p mem q split
    simpa [split] using table p mem
  · have table : ∀ p ∈ deadLetterBySource,
        (splitNamespaced p.2).all (fun q => sourceOf q.2 == none) = true := by decide +kernel
    intro p mem q split
    simpa [split] using table p mem

def throughNamespace (find : Bytes → Option Bytes) (topic : Bytes) : Option Bytes :=
  match find topic with
  | some found => some found
  | none =>
    (splitNamespaced topic).bind fun q => (find q.2).bind fun found => (topicFor q.1 found).toOption

theorem deadLetterTopicFor_search (lane dlq : Bytes) :
    deadLetterTopicFor lane = .ok dlq ↔ throughNamespace deadLetterOf lane = some dlq := by
  unfold deadLetterTopicFor throughNamespace
  cases deadLetterOf lane with
  | some d => simp
  | none =>
    cases splitNamespaced lane with
    | none => simp
    | some q =>
      cases mapped : deadLetterOf q.2 with
      | none => simp [mapped]
      | some d => cases named : topicFor q.1 d <;> simp [mapped, named, Except.toOption]

theorem sourceTopicForDeadLetter_search (dlq : Bytes) :
    sourceTopicForDeadLetter dlq = throughNamespace sourceOf dlq := by
  unfold sourceTopicForDeadLetter throughNamespace
  cases sourceOf dlq with
  | some lane => rfl
  | none =>
    cases splitNamespaced dlq with
    | none => rfl
    | some q => cases mapped : sourceOf q.2 <;> simp [mapped]

theorem throughNamespace_iff (find : Bytes → Option Bytes) (topic out : Bytes)
    (apart : ∀ found q, find topic = some found → splitNamespaced topic = some q → find q.2 = none) :
    throughNamespace find topic = some out ↔
      find topic = some out ∨ ∃ ns base found, find base = some found ∧
        splitNamespaced topic = some (ns, base) ∧ splitNamespaced out = some (ns, found) := by
  unfold throughNamespace
  cases shared : find topic with
  | some found =>
    simp only [iff_self_or]
    rintro ⟨ns, base, d, mapped, split, _⟩
    simp [apart found _ shared split] at mapped
  | none =>
    simp only [bind_eq_some_iff, reduceCtorEq, false_or]
    constructor
    · rintro ⟨⟨ns, base⟩, split, found, mapped, named⟩
      refine ⟨ns, base, found, mapped, split, (topicFor_iff_split (split_nonempty split)).mp ?_⟩
      cases h : topicFor ns found <;> simp_all [Except.toOption]
    · rintro ⟨ns, base, found, mapped, split, named⟩
      refine ⟨(ns, base), split, found, mapped, ?_⟩
      simp [(topicFor_iff_split (split_nonempty split)).mpr named, Except.toOption]

def DeadLetters (lane dlq : Bytes) : Prop :=
  (lane, dlq) ∈ deadLetterBySource ∨
    ∃ ns base found, (base, found) ∈ deadLetterBySource ∧
      splitNamespaced lane = some (ns, base) ∧ splitNamespaced dlq = some (ns, found)

theorem deadLetterTopicFor_iff (lane dlq : Bytes) :
    deadLetterTopicFor lane = .ok dlq ↔ DeadLetters lane dlq := by
  rw [deadLetterTopicFor_search, throughNamespace_iff]
  · simp only [deadLetterOf_iff, DeadLetters]
  · intro found q shared
    exact shared_base_unmapped.1 (lane, found) (deadLetterOf_iff.mp shared) q

theorem sourceTopicForDeadLetter_iff (lane dlq : Bytes) :
    sourceTopicForDeadLetter dlq = some lane ↔ DeadLetters lane dlq := by
  rw [sourceTopicForDeadLetter_search, throughNamespace_iff]
  · simp only [sourceOf_iff]
    constructor
    · rintro (pair | ⟨ns, found, base, pair, dlqSplit, laneSplit⟩)
      · exact .inl pair
      · exact .inr ⟨ns, base, found, pair, laneSplit, dlqSplit⟩
    · rintro (pair | ⟨ns, base, found, pair, laneSplit, dlqSplit⟩)
      · exact .inl pair
      · exact .inr ⟨ns, found, base, pair, dlqSplit, laneSplit⟩
  · intro found q shared
    exact shared_base_unmapped.2 (found, dlq) (sourceOf_iff.mp shared) q

theorem deadLetter_inverse (lane dlq : Bytes) :
    deadLetterTopicFor lane = .ok dlq ↔ sourceTopicForDeadLetter dlq = some lane := by
  rw [deadLetterTopicFor_iff, sourceTopicForDeadLetter_iff]

theorem mem_allTopics_shape :
    ∀ base ∈ allTopics, lit "probectl." <+: base ∧ (base.drop 9).take 2 ≠ lit "t-" := by decide +kernel

theorem busNamespaceFor_nonempty (slug : Bytes) : busNamespaceFor slug ≠ [] :=
  cons_ne_nil 116 (45 :: slug)

theorem topicFor_total (ok : namespaceRe ns = true) (mem : base ∈ allTopics) :
    ∃ topic, topicFor ns base = .ok topic := by
  obtain ⟨rest, rfl⟩ := (mem_allTopics_shape base mem).1
  refine ⟨lit "probectl." ++ (ns ++ dot :: rest), ?_⟩
  rw [topicFor_iff_split (namespaceRe_nonempty ok), splitNamespaced_iff]
  exact ⟨ok, rest, rfl, rfl⟩

variable {slug : Bytes}

theorem tenant_topic_not_shared (named : topicFor (busNamespaceFor slug) base = .ok topic) : topic ∉ allTopics := by
  intro shared
  rw [topicFor_iff_split (busNamespaceFor_nonempty slug), splitNamespaced_iff] at named
  obtain ⟨_, rest, _, rfl⟩ := named
  exact (mem_allTopics_shape _ shared).2 rfl

def LaneNamespace (ns : Bytes) : Prop :=
  ns = [] ∨ ∃ slug, validSlug slug = true ∧ validNamespace (busNamespaceFor slug) = true ∧
    ns = busNamespaceFor slug

theorem laneNamespace_tenant (lane : LaneNamespace ns) (nonempty : ns ≠ []) :
    ∃ slug, ns = busNamespaceFor slug ∧ namespaceRe ns = true := by
  rcases lane with rfl | ⟨slug, _, valid, rfl⟩
  · exact absurd rfl nonempty
  · exact ⟨slug, rfl, by exact valid⟩

theorem laneNamespace_topic (lane : LaneNamespace ns) (nonempty : ns ≠ [])
    (named : topicFor ns base = .ok topic) : topic ∉ allTopics := by
  obtain ⟨slug, rfl, _⟩ := laneNamespace_tenant lane nonempty
  exact tenant_topic_not_shared named

theorem topicFor_injective (lane : LaneNamespace ns)
    (lane' : LaneNamespace ns') (mem : base ∈ allTopics) (mem' : base' ∈ allTopics)
    (named : topicFor ns base = .ok topic) (named' : topicFor ns' base' = .ok topic) :
    ns = ns' ∧ base = base' := by
  -- no lane of a tenant has a shared name, so the two mixed cases cannot be
  by_cases shared : ns = []
  · subst shared
    cases (ok.inj named : base = topic)
    by_cases shared' : ns' = []
    · subst shared'
      exact ⟨rfl, (ok.inj named').symm⟩
    · exact absurd mem (laneNamespace_topic lane' shared' named')
  · by_cases shared' : ns' = []
    · subst shared'
      cases (ok.inj named' : base' = topic)
      exact absurd mem' (laneNamespace_topic lane shared named)
    · rw [topicFor_iff_split shared] at named
      rw [topicFor_iff_split shared', named] at named'
      simpa using named'

/-- Lane names separate tenants from each other and from the shared lanes, and
the dead-letter mapping is a bijection between the topics it accepts. -/
theorem lane_topics_separate :
    (∀ ns base, LaneNamespace ns → base ∈ allTopics → ∃ topic, topicFor ns base = .ok topic) ∧
    (∀ ns ns' base base', LaneNamespace ns → LaneNamespace ns' → base ∈ allTopics → base' ∈ allTopics →
      topicFor ns base = topicFor ns' base' → ns = ns' ∧ base = base') ∧
    (∀ ns base topic, LaneNamespace ns → ns ≠ [] → base ∈ allTopics →
      topicFor ns base = .ok topic → topic ∉ allTopics) ∧
    (∀ lane dlq, deadLetterTopicFor lane = .ok dlq → sourceTopicForDeadLetter dlq = some lane) ∧
    (∀ dlq lane, sourceTopicForDeadLetter dlq = some lane → deadLetterTopicFor lane = .ok dlq) := by
  have total : ∀ ns base, LaneNamespace ns → base ∈ allTopics → ∃ topic, topicFor ns base = .ok topic := by
    intro ns base lane mem
    by_cases shared : ns = []
    · exact ⟨base, by simp [topicFor, shared]⟩
    · obtain ⟨_, _, ok⟩ := laneNamespace_tenant lane shared
      exact topicFor_total ok mem
  refine ⟨total, ?_, fun ns base topic lane nonempty _ => laneNamespace_topic lane nonempty,
    fun lane dlq => (deadLetter_inverse lane dlq).mp, fun dlq lane => (deadLetter_inverse lane dlq).mpr⟩
  intro ns ns' base base' lane lane' mem mem' same
  obtain ⟨topic, named⟩ := total ns base lane mem
  exact topicFor_injective lane lane' mem mem' named (same ▸ named)

theorem busNamespaceFor_ok (valid : validSlug slug = true) :
    namespaceRe (busNamespaceFor slug) = true ↔ slug.length ≤ 61 := by
  have classes : ∀ b ∈ slug, slugByte b = true :=
    headTail_forall valid fun b head => Bool.or_eq_true_iff.mpr (.inl head)
  have split : busNamespaceFor slug = 116 :: 45 :: slug := rfl
  rw [namespaceRe, headTail_iff, split]
  constructor
  · rintro ⟨_, _, same, _, _, _, bound⟩
    cases same
    have := bound 62 rfl
    simp only [length_cons] at this
    omega
  · intro short
    refine ⟨116, _, rfl, by decide, ?_, Nat.zero_le _, ?_⟩
    · exact forall_mem_cons.mpr ⟨by decide, classes⟩
    intro n same
    cases same
    simp only [length_cons]
    omega

theorem tenantLaneTopics_subset (mem : base ∈ tenantLaneTopics) : base ∈ allTopics :=
  mem_append_left _ mem

theorem topicFor_invalid (base : Bytes) (nonempty : ns ≠ []) (bad : namespaceRe ns = false) :
    topicFor ns base = .error (.invalidNamespace ns) := by
  simp [topicFor, nonempty, bad]

/-- A tenant that can be provisioned has its lanes exactly when the slug leaves
room for the `t-` in the namespace's 63 bytes. -/
theorem provisioned_slug_routable_iff (slug : Bytes) (valid : validSlug slug = true) :
    (∀ base ∈ tenantLaneTopics, ∃ topic, topicFor (busNamespaceFor slug) base = .ok topic) ↔
      slug.length ≤ 61 := by
  rw [← busNamespaceFor_ok valid]
  constructor
  · intro routed
    obtain ⟨topic, named⟩ := routed networkResultsTopic (by decide)
    rw [topicFor_iff_split (busNamespaceFor_nonempty slug), splitNamespaced_iff] at named
    exact named.1
  · intro ok base mem
    exact topicFor_total ok (tenantLaneTopics_subset mem)

theorem provisioned_slug_routable_acme :
    validSlug (lit "acme") = true ∧
      ∀ base ∈ tenantLaneTopics, ∃ topic, topicFor (busNamespaceFor (lit "acme")) base = .ok topic :=
  ⟨by decide, (provisioned_slug_routable_iff (lit "acme") (by decide)).mpr (by decide)⟩

/-- A slug of 62 letters passes the provisioning check and no lane takes it. -/
theorem long_slug_unroutable :
    validSlug (replicate 62 97) = true ∧
      ∀ base ∈ tenantLaneTopics, topicFor (busNamespaceFor (replicate 62 97)) base =
        .error (.invalidNamespace (busNamespaceFor (replicate 62 97))) :=
  ⟨by decide, fun base _ => topicFor_invalid base (busNamespaceFor_nonempty _) (by decide)⟩

end Probectl.Bus
