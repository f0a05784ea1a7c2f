import Probectl.Pipeline.Results

/-! Under whose tenant the result consumer stores a record. -/
namespace Probectl.Pipeline

open Bus Strings List AList Consumer

variable {promName : Bytes}

variable (attrs labels : Labels)

theorem promoteOne_other (other : promName ≠ name.2) :
    (promoteOne attrs labels name).lookup promName = labels.lookup promName := by
  unfold promoteOne
  split
  · exact lookup_insert_ne other
  · rfl

variable {names : List (Bytes × Bytes)}

theorem promote_absent (absent : promName ∉ names.map Prod.snd) :
    (names.foldl (promoteOne attrs) labels).lookup promName = labels.lookup promName := by
  induction names generalizing labels with
  | nil => rfl
  | cons name rest ih =>
    simp only [map_cons, mem_cons, not_or] at absent
    obtain ⟨other, later⟩ := absent
    exact (ih _ later).trans (promoteOne_other attrs labels other)

theorem promote_lookup (distinct : (names.map Prod.snd).Nodup) (mem : (otelKey, promName) ∈ names) :
    (promote names attrs).lookup promName = attrs.lookup otelKey := by
  suffices general : ∀ labels, labels.lookup promName = none →
      (names.foldl (promoteOne attrs) labels).lookup promName = attrs.lookup otelKey from general ∅ rfl
  induction names with
  | nil => cases mem
  | cons name rest ih =>
    intro labels fresh
    obtain ⟨notLater, restDistinct⟩ := nodup_cons.mp distinct
    rcases mem_cons.mp mem with rfl | later
    · apply (promote_absent attrs _ notLater).trans
      cases value : attrs.lookup otelKey with
      | none => simpa [promoteOne, value] using fresh
      | some v => simp [promoteOne, value]
    · have other : promName ≠ name.2 := fun same => notLater (same ▸ mem_map_of_mem later)
      exact ih restDistinct later _ ((promoteOne_other attrs labels other).trans fresh)

theorem resultAttributes_tenant (r : Result) : (resultAttributes r).lookup attrTenantID = some r.tenantID := by
  have agent : attrTenantID ≠ attrAgentID := by decide
  have canary : attrTenantID ≠ attrCanaryType := by decide
  simp only [resultAttributes, lookup_insert_ne canary, lookup_insert_ne agent, lookup_insert]

variable {r : Result} {x : Series}

theorem resultToSeries_tenant (mem : x ∈ resultToSeries r) : x.labels.lookup (lit "tenant_id") = some r.tenantID := by
  have shared : x.labels = promote labelNames (resultAttributes r) := by
    simp only [resultToSeries, mem_cons, mem_map] at mem
    rcases mem with rfl | rfl | ⟨name, _, rfl⟩ <;> rfl
  have own : (attrTenantID, lit "tenant_id") ∈ labelNames := mem_cons_self
  rw [shared, promote_lookup _ (by decide) own]
  exact resultAttributes_tenant r

def FiledUnder (hash : Bytes → Bytes) (tenant : Bytes) (x : Series) : Prop :=
  x.labels.lookup (lit "tenant_id") = some tenant ∨
    maxLabelValueLen < tenant.length ∧ x.labels.lookup (lit "tenant_id") = some (boundedLabelValue hash tenant).1

theorem filterDetailed_filed {hash : Bytes → Bytes}
    (mem : x ∈ (filterDetailed limiter hash now r.tenantID agent (resultToSeries r)).2.1) :
    FiledUnder hash r.tenantID x := by
  cases limiter with
  | none => exact .inl (resultToSeries_tenant mem)
  | some l =>
    obtain ⟨s, from_result, rfl⟩ := filterDetailed_admitted mem
    have label := boundLabels_lookup hash s.labels (lit "tenant_id")
    rw [resultToSeries_tenant from_result] at label
    by_cases short : r.tenantID.length ≤ maxLabelValueLen
    · have same : (boundedLabelValue hash r.tenantID).1 = r.tenantID := by simp [boundedLabelValue, short]
      exact .inl (label.trans (congrArg some same))
    · exact .inr ⟨Nat.lt_of_not_le short, label⟩

def Bound (c : Consumer) (tenant agent : Bytes) : Prop := ∃ b, c.binding = some b ∧ b.verify tenant agent = none

/-- The lane's tenant on a lane that has one, the payload's on a shared verifying
lane, the key's, and the payload's with it, on the other shared lanes. -/
def Authorized (c : Consumer) (lane : TopicGroup) (msg : Message) (r : Result) (tenant : Bytes) : Prop :=
  if lane.laneTenant ≠ [] then
    tenant = lane.laneTenant ∧ (lane.verify = true → Bound c tenant r.agentID)
  else if lane.verify then
    tenant = r.tenantID ∧ Bound c tenant r.agentID ∧ c.strictLane = false
  else tenant = Bus.tenantFromKey msg.key ∧ r.tenantID = tenant

variable {c : Consumer} {subs : List TopicGroup}

theorem run_binding (started : c.run = .ok subs) : ∃ b, c.binding = some b := by
  cases binding : c.binding with
  | some b => exact ⟨b, rfl⟩
  | none =>
    have verifying : c.resultTopics.find? (·.verify) =
        some ⟨endpointResultsTopic, c.group ++ lit "-endpoint", true, []⟩ := rfl
    simp [run, binding, verifying] at started

variable {lane : TopicGroup} {msg : Message} {v : Verified}

theorem authorize_some (ok : c.authorize lane msg r = some v) : ((lane.verify = true ∨ lane.laneTenant ≠ []) ∧
      verifyBatchTenantStrict (if lane.verify then c.binding else none) lane.laneTenant c.strictLane
        [⟨r.tenantID, r.agentID, r.agentVersion⟩] = .ok v) ∨
    (lane.verify = false ∧ lane.laneTenant = [] ∧
      v.tenant = Bus.tenantFromKey msg.key ∧ r.tenantID = Bus.tenantFromKey msg.key) := by
  unfold authorize at ok
  dsimp only at ok
  split at ok
  case isTrue checked =>
    refine .inl ⟨by simpa using checked, ?_⟩
    cases outcome : verifyBatchTenantStrict (if lane.verify then c.binding else none) lane.laneTenant c.strictLane
      [⟨r.tenantID, r.agentID, r.agentVersion⟩] with
    | error e => simp [outcome, Except.toOption] at ok
    | ok v' => simpa [outcome, Except.toOption] using ok
  case isFalse unchecked =>
    simp only [Bool.or_eq_true, bne_iff_ne, not_or, not_not, Bool.not_eq_true] at unchecked
    split at ok
    case isTrue => cases ok
    case isFalse agrees =>
      cases ok
      simp only [not_or, not_not] at agrees
      exact .inr ⟨unchecked.1, unchecked.2, rfl, agrees.2⟩

theorem authorize_lane
    (bound : lane.laneTenant ≠ []) (ok : c.authorize lane msg r = some v) : v.tenant = lane.laneTenant := by
  rcases authorize_some ok with ⟨_, outcome⟩ | ⟨_, shared, _⟩
  · obtain ⟨_, _, _, own, _⟩ := verifyBatchTenantStrict_ok outcome
    exact own bound
  · exact absurd shared bound

theorem authorize_authorized (started : c.run = .ok subs) (ok : c.authorize lane msg r = some v) :
    Authorized c lane msg r v.tenant := by
  obtain ⟨b, binding⟩ := run_binding started
  unfold Authorized
  rcases authorize_some ok with ⟨checked, outcome⟩ | ⟨trusted, shared, key, payload⟩
  · obtain ⟨_, _, verified, _, open_⟩ := verifyBatchTenantStrict_ok outcome
    -- the registry was asked about the very tenant the record is stored under
    have bound : lane.verify = true → Bound c v.tenant r.agentID := by
      intro verifies
      rw [if_pos verifies, binding] at verified
      exact ⟨b, binding, verified⟩
    split
    case isTrue own => exact ⟨authorize_lane own ok, bound⟩
    case isFalse shared =>
      have verifies : lane.verify = true := checked.resolve_right shared
      have lenient := open_ (not_not.mp shared)
      rw [if_pos verifies]
      exact ⟨lenient.1, bound verifies, lenient.2⟩
  · simp [shared, trusted, key, payload]

structure Uses (hash : Bytes → Bytes) (report : Report Series) (tenant : Bytes) : Prop where
  stored : ∀ batch ∈ report.writes, ∀ x ∈ batch, FiledUnder hash tenant x
  deadLettered : ∀ d ∈ report.published, d.tenant = tenant
  metered : ∀ u ∈ report.usage, u.tenant = tenant

variable {w : World Result} {s : State} {it : WriteItem} {t : State}

theorem prepare_write (prepared : c.prepare w lane msg s = .write t it) :
    ∃ r v, w.unmarshal msg.value = some r ∧ c.authorize lane msg r = some v ∧
      it.r = { r with tenantID := v.tenant } ∧
      it.series = (filterDetailed s.card w.hash w.now v.tenant r.agentID (resultToSeries it.r)).2.1 := by
  unfold prepare at prepared
  dsimp only at prepared
  split at prepared
  · cases prepared
  split at prepared
  · cases prepared
  split at prepared
  · cases prepared
  rename_i r decoded
  split at prepared
  · cases prepared
  rename_i v authorized
  split at prepared
  · cases prepared
  split at prepared
  · cases prepared
  · cases prepared
    exact ⟨r, v, decoded, authorized, rfl, rfl⟩

theorem deadLetter_tenant (mem : d ∈ (it.deadLetter w s).2) : d.tenant = it.r.tenantID := by
  unfold WriteItem.deadLetter publishDeadLetter at mem
  split at mem
  · cases mem
  · rw [mem_singleton.mp mem]

theorem meterStored_tenant (mem : u ∈ it.meterStored) : u.tenant = it.r.tenantID := by
  simp only [WriteItem.meterStored, mem_cons, not_mem_nil, or_false] at mem
  rcases mem with rfl | rfl <;> rfl

theorem writeOne_uses (w : World Result) (s : State) (filed : ∀ x ∈ it.series, FiledUnder w.hash it.r.tenantID x) :
    Uses w.hash (it.writeOne w s).2 it.r.tenantID := by
  obtain ⟨n, t, writes, letters, usage⟩ := it.writeOne_effects w s
  constructor
  · intro batch mem
    rw [writes] at mem
    rw [eq_of_mem_replicate mem]
    exact filed
  · intro d mem
    exact deadLetter_tenant (letters d mem)
  · intro u mem
    exact meterStored_tenant (usage u mem)

theorem handleLane_batch (mem : batch ∈ (c.handleLane w stage lane msg s).2.writes) :
    ∃ t it, c.prepare w lane msg s = .write t it ∧ batch = it.series := by
  rcases c.handleLane_effects w stage lane msg s with ⟨none, _⟩ | ⟨t, it, u, prepared, same, _⟩
  · simp [none] at mem
  · obtain ⟨n, _, writes, _⟩ := it.writeOne_effects w u
    rw [same, writes] at mem
    exact ⟨t, it, prepared, eq_of_mem_replicate mem⟩

theorem prepare_same_series (bound : lane.laneTenant ≠ [])
    (decoded : w.unmarshal msg.value = some r) (decoded' : w.unmarshal msg'.value = some { r with tenantID := claimed })
    (prepared : c.prepare w lane msg s = .write t it) (prepared' : c.prepare w lane msg' s = .write t' it') :
    it.series = it'.series := by
  obtain ⟨r₁, v, found, authorized, same, series⟩ := prepare_write prepared
  obtain ⟨r₂, v', found', authorized', same', series'⟩ := prepare_write prepared'
  obtain rfl := Option.some.inj (decoded.symm.trans found)
  obtain rfl := Option.some.inj (decoded'.symm.trans found')
  have own := authorize_lane bound authorized
  have own' := authorize_lane bound authorized'
  rw [series, series', same, same', own, own']

/-- Under whose tenant a running consumer works, for every lane and payload; and
on a tenant's lane the payload has no say in what is stored. -/
theorem tenant_authority (c : Consumer) (subs : List TopicGroup) (started : c.run = .ok subs) (w : World Result)
    (lane : TopicGroup) (s : State) :
    (∀ stage msg,
      (c.handleLane w stage lane msg s).2.writes ≠ [] ∨ (c.handleLane w stage lane msg s).2.published ≠ [] →
      ∃ r tenant, w.unmarshal msg.value = some r ∧ Authorized c lane msg r tenant ∧
        Uses w.hash (c.handleLane w stage lane msg s).2 tenant) ∧
    (lane.laneTenant ≠ [] → ∀ stage stage' msg msg' r claimed, w.unmarshal msg.value = some r →
      w.unmarshal msg'.value = some { r with tenantID := claimed } →
      ∀ batch ∈ (c.handleLane w stage lane msg s).2.writes,
        ∀ batch' ∈ (c.handleLane w stage' lane msg' s).2.writes, batch = batch') := by
  constructor
  · intro stage msg effect
    rcases c.handleLane_effects w stage lane msg s with ⟨writes, published, _⟩ | ⟨t, it, u, prepared, same⟩
    · simp [writes, published] at effect
    obtain ⟨r, v, decoded, authorized, stamped, series⟩ := prepare_write prepared
    have filed : ∀ x ∈ it.series, FiledUnder w.hash it.r.tenantID x := by
      intro x mem
      rw [series] at mem
      rw [stamped] at mem ⊢
      exact filterDetailed_filed mem
    have uses := writeOne_uses w u filed
    refine ⟨r, v.tenant, decoded, authorize_authorized started authorized, ?_⟩
    rw [stamped] at uses
    exact ⟨same.1 ▸ uses.stored, same.2.1 ▸ uses.deadLettered, same.2.2 ▸ uses.metered⟩
  · intro bound stage stage' msg msg' r claimed decoded decoded' batch mem batch' mem'
    obtain ⟨t, it, prepared, rfl⟩ := handleLane_batch mem
    obtain ⟨t', it', prepared', rfl⟩ := handleLane_batch mem'
    exact prepare_same_series bound decoded decoded' prepared prepared'

def acmeRegistry : TenantBinding :=
  ⟨fun tenant agent => if tenant = lit "acme" ∧ agent = [97] then none else some .tenantNotBound, false⟩

def acmeConsumer : Consumer := ⟨lit "g", [lit "t-acme"], fun _ => lit "acme", some acmeRegistry, true⟩

def acmeEndpoints : TopicGroup := ⟨lit "probectl.t-acme.endpoint.results", lit "g-endpoint-t-acme", true, lit "acme"⟩

def forged : World Result where
  unmarshal := fun _ => some ⟨lit "victim", [97], [], [], [], 0, [], [], ∅, []⟩
  tenancy := ⟨fun _ => false, fun _ => .failed⟩
  gate := none
  hash := id
  now := 0
  store := fun _ => none
  ctxErr := fun _ => false
  ctxErrAfter := false
  publish := true

theorem tenant_authority_acme :
    acmeConsumer.run = .ok acmeConsumer.resultTopics ∧ acmeEndpoints ∈ acmeConsumer.resultTopics ∧
      (acmeConsumer.handleLane forged .direct acmeEndpoints ⟨[], [], []⟩ {}).2.writes ≠ [] ∧
      ∃ r tenant, forged.unmarshal [] = some r ∧ Authorized acmeConsumer acmeEndpoints ⟨[], [], []⟩ r tenant ∧
        Uses id (acmeConsumer.handleLane forged .direct acmeEndpoints ⟨[], [], []⟩ {}).2 tenant := by
  have writes : (acmeConsumer.handleLane forged .direct acmeEndpoints ⟨[], [], []⟩ {}).2.writes ≠ [] := by decide
  exact ⟨rfl, by decide, writes, (tenant_authority acmeConsumer _ rfl forged acmeEndpoints {}).1 .direct _ (.inl writes)⟩

end Probectl.Pipeline
