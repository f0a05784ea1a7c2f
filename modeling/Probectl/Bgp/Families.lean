import Probectl.Bgp.Changes

/-! The two readings of a message's families: the groups that the decoder makes
and the mask that sends the message to its cohort. -/
namespace Probectl.Bgp

open Octets Run List

def RouteFamily.Unicast (family : RouteFamily) : Prop := (family.afi = 1 ∨ family.afi = 2) ∧ family.safi = 1

instance (family : RouteFamily) : Decidable family.Unicast := inferInstanceAs (Decidable (_ ∧ _))

def RouteFamily.bit (family : RouteFamily) : UInt8 := UInt8.ofNat (2 ^ (family.afi - 1))

def familyMask (families : List RouteFamily) : UInt8 := families.foldl (fun mask family => mask ||| family.bit) 0

variable {raw : Bytes} {budget : Budget}

theorem parseBGPUpdateFrame_budget
    (read : parseBGPUpdateFrame raw budget = .ok frame) (memory : 0 < larger.memoryBytes) (work : 0 < larger.workUnits)
    (memoryFits : (raw.length : Int) ≤ larger.memoryBytes / 128) (workFits : (raw.length : Int) ≤ larger.workUnits / 8) :
    parseBGPUpdateFrame raw larger = .ok frame := by
  unfold parseBGPUpdateFrame
  obtain ⟨-, read⟩ := guard_ok read
  rw [if_neg (by omega)]
  obtain ⟨header, read⟩ := guard_ok read
  rw [if_neg header]
  obtain ⟨marker, read⟩ := guard_ok read
  rw [if_neg marker]
  obtain ⟨room, read⟩ := guard_ok read
  rw [if_neg room]
  obtain ⟨inside, read⟩ := guard_ok read
  rw [if_neg inside]
  split at read
  · cases read
  rename_i attributes block
  have short (lo hi) : (slice raw lo hi).length ≤ raw.length := by
    rw [slice_length]
    omega
  have again (lo hi) : parseBGPRouteAttributes (slice raw lo hi) ⟨larger.memoryBytes / 2, larger.workUnits / 4⟩ =
      attributesLoop.run ([], slice raw lo hi) := by
    have := short lo hi
    unfold parseBGPRouteAttributes
    rw [if_neg]
    dsimp only
    omega
  rw [again, (parseBGPRouteAttributes_ok block).1]
  exact read

variable {addPath : Bool} {afi : Nat}

theorem routePrefixesLoop_nonempty
    (some : out ≠ [] ∨ raw ≠ []) : (routePrefixesLoop afi addPath).run (out, raw) ≠ .ok [] := by
  refine (routePrefixesLoop afi addPath).run_invariant (fun s => s.1 ≠ [] ∨ s.2 ≠ []) (fun r => r ≠ .ok []) ?_ ?_ some
  · rintro ⟨out, raw⟩ t - next
    simp only [routePrefixesLoop] at next
    split at next
    · cases next
    split at next
    · cases next
    split at next
    · cases next
    split at next
    · cases next
    split at next
    · cases next
    · cases next
      simp
  · rintro ⟨out, raw⟩ r left exit
    simp only [routePrefixesLoop] at exit
    split at exit
    · rename_i done
      cases exit
      simpa [done] using left
    split at exit
    · cases exit
      simp
    split at exit
    · cases exit
      simp
    split at exit
    · cases exit
      simp
    split at exit
    · cases exit
      simp
    · cases exit

theorem parseBGPRoutePrefixes_nil
    (read : parseBGPRoutePrefixes raw afi addPath budget = .ok routes) : routes = [] ↔ raw = [] := by
  obtain ⟨-, read⟩ := guard_ok read
  obtain ⟨-, read⟩ := guard_ok read
  split at read
  · cases read
  rename_i walked
  obtain ⟨-, read⟩ := guard_ok read
  cases read
  constructor
  · rintro rfl
    by_contra some
    exact routePrefixesLoop_nonempty (.inr some) walked
  · rintro rfl
    exact (Except.ok.inj walked).symm

/-! The groups of an accepted message. -/

variable {frame : SourceRouteFrame} {peer : PeerUp} {group : RoutingChangeGroup}

theorem sourceLegacyRouteChanges_ok (read : sourceLegacyRouteChanges frame peer budget = .ok group) :
    group.family = ⟨1, 1⟩ ∧ group.endOfRIB = false ∧
      (group.announced.length + group.withdrawn.length > 0 ↔
        frame.update.withdrawnIPv4.length > 0 ∨ frame.update.reachableIPv4.length > 0) := by
  unfold sourceLegacyRouteChanges at read
  split at read
  · cases read
    refine ⟨rfl, rfl, ?_⟩
    simp only [length_nil]
    omega
  obtain ⟨add, -, read⟩ := bind_ok read
  obtain ⟨withdrawn, withdrawnRead, read⟩ := bind_ok read
  obtain ⟨announced, announcedRead, read⟩ := bind_ok read
  have counts : announced.length + withdrawn.length > 0 ↔
      frame.update.withdrawnIPv4.length > 0 ∨ frame.update.reachableIPv4.length > 0 := by
    have left := parseBGPRoutePrefixes_nil withdrawnRead
    have right := parseBGPRoutePrefixes_nil announcedRead
    rw [← length_eq_zero_iff, ← length_eq_zero_iff] at left right
    omega
  split at read
  · cases read
    exact ⟨rfl, rfl, counts⟩
  split at read
  · cases read
  · cases read
    exact ⟨rfl, rfl, counts⟩

variable {value : Bytes}

theorem parseMPUnreachRoutes_unicast
    (read : parseMPUnreachRoutes value addPath budget = .ok unreach) :
    RouteFamily.Unicast ⟨big (value.take 2), value.getD 2 0⟩ := by
  obtain ⟨-, read⟩ := guard_ok read
  obtain ⟨-, read⟩ := guard_ok read
  obtain ⟨supported, read⟩ := guard_ok read
  unfold RouteFamily.Unicast
  tauto

theorem parseMPReachRoutes_unicast (read : parseMPReachRoutes value nextHopAFI addPath budget = .ok reach) :
    RouteFamily.Unicast ⟨big (value.take 2), value.getD 2 0⟩ := by
  obtain ⟨-, read⟩ := guard_ok read
  obtain ⟨-, read⟩ := guard_ok read
  obtain ⟨supported, read⟩ := guard_ok read
  unfold RouteFamily.Unicast
  tauto

variable {view : BMPRouteView}

theorem sourceMultiprotocolChanges_ok
    (read : sourceMultiprotocolChanges attr view peer budget = .ok group) :
    group.family = attr.family ∧ group.endOfRIB = false ∧ attr.family.Unicast ∧ ¬ attr.value.length < 3 := by
  obtain ⟨long, read⟩ := guard_ok read
  obtain ⟨add, -, read⟩ := bind_ok read
  split at read
  · obtain ⟨unreach, unreachRead, read⟩ := bind_ok read
    obtain ⟨-, read⟩ := guard_ok read
    cases read
    exact ⟨rfl, rfl, parseMPUnreachRoutes_unicast unreachRead, long⟩
  obtain ⟨-, read⟩ := guard_ok read
  obtain ⟨nextAFI, -, read⟩ := bind_ok read
  obtain ⟨reach, reachRead, read⟩ := bind_ok read
  obtain ⟨-, read⟩ := guard_ok read
  cases read
  exact ⟨rfl, rfl, parseMPReachRoutes_unicast reachRead, long⟩

theorem multiprotocol_ok {attributes : List RouteAttribute}
    (read : attributes.mapM (sourceMultiprotocolChanges · view peer budget) = .ok groups) :
    groups.map (·.family) = attributes.map (·.family) ∧ (∀ group ∈ groups, group.endOfRIB = false) ∧
      ∀ attr ∈ attributes, attr.family.Unicast ∧ ¬ attr.value.length < 3 := by
  induction attributes generalizing groups with
  | nil =>
    cases read
    simp
  | cons attr rest ih =>
    rw [mapM_cons] at read
    obtain ⟨group, first, read⟩ := bind_ok read
    obtain ⟨others, later, read⟩ := bind_ok read
    cases read
    obtain ⟨families, marks, supported⟩ := ih later
    obtain ⟨family, mark, unicast, long⟩ := sourceMultiprotocolChanges_ok first
    exact ⟨by simp [family, families], forall_mem_cons.mpr ⟨mark, marks⟩,
      forall_mem_cons.mpr ⟨⟨unicast, long⟩, supported⟩⟩

variable {changes : RoutingChanges} {part : Budget}

theorem sourceUpdateChanges_ok (read : sourceUpdateChanges frame peer part = .ok changes) :
    (∀ group ∈ changes.groups, group.endOfRIB = false) ∧
      (∀ attr ∈ frame.update.attributes, (attr.type = 14 ∨ attr.type = 15) → attr.family.Unicast ∧ ¬ attr.value.length < 3) ∧
      changes.groups.map (·.family) =
        (if frame.update.withdrawnIPv4.length > 0 ∨ frame.update.reachableIPv4.length > 0 then [⟨1, 1⟩] else []) ++
          (frame.update.attributes.filter (fun attr => attr.type = 14 ∨ attr.type = 15)).map (·.family) := by
  obtain ⟨-, -, read⟩ := bind_ok read
  obtain ⟨legacy, legacyRead, read⟩ := bind_ok read
  obtain ⟨multiprotocol, multiprotocolRead, read⟩ := bind_ok read
  obtain ⟨legacyFamily, legacyMark, legacyCount⟩ := sourceLegacyRouteChanges_ok legacyRead
  obtain ⟨families, marks, supported⟩ := multiprotocol_ok multiprotocolRead
  have groups : changes.groups =
      (if legacy.announced.length + legacy.withdrawn.length > 0 then [legacy] else []) ++ multiprotocol := by
    dsimp only at read
    generalize (if legacy.announced.length + legacy.withdrawn.length > 0 then [legacy] else []) ++ multiprotocol =
      groups at read
    split at read
    · obtain ⟨-, read⟩ := guard_ok read
      obtain ⟨path, -, read⟩ := bind_ok read
      cases read
      rfl
    obtain ⟨-, read⟩ := guard_ok read
    cases read
    rfl
  rw [groups]
  refine ⟨?_, ?_, ?_⟩
  · intro group mem
    rcases mem_append.mp mem with mem | mem
    · split at mem
      · rw [mem_singleton.mp mem]
        exact legacyMark
      · cases mem
    · exact marks group mem
  · intro attr mem kind
    exact supported attr (mem_filter.mpr ⟨mem, by simpa using kind⟩)
  · rw [map_append, families]
    by_cases some : legacy.announced.length + legacy.withdrawn.length > 0
    · rw [if_pos some, if_pos (legacyCount.mp some), map_singleton, legacyFamily]
    · rw [if_neg some, if_neg (fun wire => some (legacyCount.mpr wire)), map_nil]

/-! The mask. -/

variable {family : RouteFamily}

theorem routingAFIBit_unicast (unicast : family.Unicast) : routingAFIBit family.afi family.safi = .ok family.bit := by
  unfold routingAFIBit
  obtain ⟨afi, safi⟩ := unicast
  rw [if_neg (by rintro (low | high | other); all_goals first | omega | exact other safi)]
  rfl

theorem routingAFIBit_other (other : ¬ family.Unicast) :
    routingAFIBit family.afi family.safi = .error [.routeCapabilities] := by
  unfold routingAFIBit
  rw [if_pos]
  by_contra supported
  simp only [not_or, not_not] at supported
  exact other ⟨by omega, supported.2.2⟩

theorem maskAttribute_ok (mask : UInt8) (attributes : List RouteAttribute)
    (supported : ∀ attr ∈ attributes, (attr.type = 14 ∨ attr.type = 15) → attr.family.Unicast ∧ ¬ attr.value.length < 3) :
    attributes.foldlM maskAttribute mask =
      .ok (((attributes.filter (fun attr => attr.type = 14 ∨ attr.type = 15)).map (·.family)).foldl
        (fun mask family => mask ||| family.bit) mask) := by
  induction attributes generalizing mask with
  | nil => rfl
  | cons attr rest ih =>
    have tail := fun mask => ih mask (fun a mem => supported a (mem_cons_of_mem attr mem))
    rw [foldlM_cons]
    by_cases kind : attr.type = 14 ∨ attr.type = 15
    · obtain ⟨unicast, long⟩ := supported attr mem_cons_self kind
      have step : maskAttribute mask attr = .ok (mask ||| attr.family.bit) := by
        unfold maskAttribute
        rw [if_neg (by tauto), if_neg long, routingAFIBit_unicast unicast]
        rfl
      rw [step, filter_cons_of_pos (by simpa using kind)]
      exact tail _
    · have step : maskAttribute mask attr = .ok mask := by
        unfold maskAttribute
        rw [if_pos (by tauto)]
      rw [step, filter_cons_of_neg (by simpa using kind)]
      exact tail _

/-! Both readings of one message. -/

def bmpMaxMessageBytes : Nat := 2 ^ 20

def dispatchBudget : Budget := ⟨128 * bmpMaxMessageBytes, 8 * bmpMaxMessageBytes⟩

structure SourceRead (raw : Bytes) (frame : SourceRouteFrame) : Prop where
  long : ¬ raw.length < bmpRouteOffset
  short : raw.length ≤ bmpRouteOffset + 65535
  version : raw.getD 0 0 = bmpVersion
  kind : raw.getD 5 0 = bmpRouteMonitoring
  sized : big (slice raw 1 5) = raw.length
  header : parseBMPRouteViewHeader (slice raw bmpCommonHeaderLen bmpRouteOffset) = .ok frame.header
  update : ∃ budget, parseBGPUpdateFrame (raw.drop bmpRouteOffset) budget = .ok frame.update

theorem parseBMPRouteUpdateFrame_ok {frame : UpdateFrame}
    (read : parseBMPRouteUpdateFrame raw source budget = .ok frame) :
    raw.length ≤ 65535 ∧ ∃ part, parseBGPUpdateFrame raw part = .ok frame := by
  obtain ⟨-, read⟩ := guard_ok read
  obtain ⟨-, read⟩ := guard_ok read
  obtain ⟨sent, -, read⟩ := bind_ok read
  obtain ⟨received, -, read⟩ := bind_ok read
  obtain ⟨receiver, -, read⟩ := bind_ok read
  have maximum : (if receiver.extended then 65535 else 4096) ≤ 65535 := by
    split <;> decide
  obtain ⟨fits, read⟩ := guard_ok read
  exact ⟨by omega, _, read⟩

theorem parseBMPSourceRoute_ok (read : parseBMPSourceRoute raw peer budget = .ok frame) : SourceRead raw frame := by
  obtain ⟨-, read⟩ := guard_ok read
  obtain ⟨common, read⟩ := guard_ok read
  simp only [not_or, not_not] at common
  obtain ⟨long, version, kind, sized⟩ := common
  obtain ⟨route, header, read⟩ := bind_ok read
  obtain ⟨-, read⟩ := guard_ok read
  obtain ⟨update, updateRead, read⟩ := bind_ok read
  cases read
  obtain ⟨short, whole⟩ := parseBMPRouteUpdateFrame_ok updateRead
  rw [length_drop] at short
  exact ⟨by omega, by omega, version, kind, sized, header, whole⟩

theorem SourceRead.framed (source : SourceRead raw frame) :
    parseBGPUpdateFrame (raw.drop bmpRouteOffset) dispatchBudget = .ok frame.update := by
  obtain ⟨budget, read⟩ := source.update
  have short := source.short
  have length : (raw.drop bmpRouteOffset).length ≤ 65535 := by
    rw [length_drop]
    omega
  have bound : ((raw.drop bmpRouteOffset).length : Int) ≤ 65535 := by exact_mod_cast length
  apply parseBGPUpdateFrame_budget read (by decide) (by decide)
  all_goals exact bound.trans (by decide)

theorem SourceRead.mask_eq (source : SourceRead raw frame) :
    parseRoutingMessageFamilyMask raw dispatchBudget = frameFamilyMask frame.update := by
  have short := source.short
  have bound : (raw.length : Int) ≤ 65583 := by exact_mod_cast short
  have memory : raw.length ≤ dispatchBudget.memoryBytes / 128 := bound.trans (by decide)
  have work : raw.length ≤ dispatchBudget.workUnits / 8 := bound.trans (by decide)
  have positive : 0 < dispatchBudget.memoryBytes ∧ 0 < dispatchBudget.workUnits := by decide
  have common : ¬ (raw.length < bmpRouteOffset ∨ raw.getD 0 0 ≠ bmpVersion ∨ raw.getD 5 0 ≠ bmpRouteMonitoring ∨
      big (slice raw 1 5) ≠ raw.length) := by
    simp only [not_or, not_not]
    exact ⟨source.long, source.version, source.kind, source.sized⟩
  unfold parseRoutingMessageFamilyMask
  rw [if_neg (by omega), if_neg common, source.header, source.framed]
  rfl

theorem frameFamilyMask_groups
    (unmarked : frame.update.endOfRIB = none) (read : sourceUpdateChanges frame peer part = .ok changes) :
    frameFamilyMask frame.update = .ok (familyMask (changes.groups.map (·.family))) := by
  obtain ⟨-, supported, families⟩ := sourceUpdateChanges_ok read
  unfold frameFamilyMask
  rw [unmarked, families]
  dsimp only
  rw [maskAttribute_ok _ _ supported, familyMask]
  split <;> rfl

theorem frameFamilyMask_marker {frame : UpdateFrame}
    (read : parseBGPUpdateFrame raw budget = .ok frame) (marks : frame.endOfRIB = some family) (unicast : family.Unicast) :
    frameFamilyMask frame = .ok (familyMask [family]) := by
  obtain ⟨⟨withdrawn, length, framed⟩, marker⟩ := parseBGPUpdateFrame_ok read
  rw [marks] at marker
  obtain ⟨⟨noWithdrawn, noReachable⟩, only⟩ := (framed.marker_family family).mp marker
  unfold frameFamilyMask
  rw [marks, noWithdrawn, noReachable]
  dsimp only
  rw [routingAFIBit_unicast unicast]
  show frame.attributes.foldlM maskAttribute (0 ||| family.bit) = _
  obtain ⟨none, -⟩ | ⟨a, one, kind, -, three, rfl⟩ := only
  · rw [none]
    rfl
  · rw [one, maskAttribute_ok _ _ (by simp [unicast, three])]
    simp [kind, familyMask]

/-- Everything the decoder accepts has the union of its groups' families as its
mask, unless it marks the end of a family that no cohort can hold. -/
theorem family_mask_of_decoded (read : decodeRoutingChanges raw peer budget = .ok changes) :
    parseRoutingMessageFamilyMask raw dispatchBudget =
      if ∀ group ∈ changes.groups, group.endOfRIB = true → group.family.Unicast then
        .ok (familyMask (changes.groups.map (·.family)))
      else .error [.routeCapabilities] := by
  obtain ⟨-, read⟩ := guard_ok read
  obtain ⟨frame, sourceRead, read⟩ := bind_ok read
  have source := parseBMPSourceRoute_ok sourceRead
  rw [source.mask_eq]
  split at read
  · rename_i family marks
    obtain ⟨add, -, read⟩ := bind_ok read
    cases read
    by_cases unicast : family.Unicast
    · rw [if_pos (by simpa using unicast)]
      exact frameFamilyMask_marker source.framed marks unicast
    rw [if_neg (by simpa using unicast), frameFamilyMask, marks]
    dsimp only
    rw [routingAFIBit_other unicast]
    rfl
  · rename_i unmarked
    have plain := (sourceUpdateChanges_ok read).1
    rw [if_pos (fun group mem marked => absurd marked (by simp [plain group mem]))]
    exact frameFamilyMask_groups unmarked read

end Probectl.Bgp
