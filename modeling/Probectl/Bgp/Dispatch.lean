import Probectl.Bgp.Book

/-! Which cohorts a message is given to. -/
namespace Probectl.Bgp

open List AList RoutingStreams Worker UInt8

def Worker.give (fails : Nat → Bool) (message : RoutingMessage) (w : Worker) (selected : PeerEvidence) : Worker :=
  match w.streams.sessions.lookup selected.key with
  | none => w
  | some state => if state.failed then w else w.sendRoutingCohortMessage fails selected message state

def Covers (mask : UInt8) (selected : PeerEvidence) : Prop := mask &&& selected.selector.cohort = mask

instance (mask : UInt8) (selected : PeerEvidence) : Decidable (Covers mask selected) :=
  inferInstanceAs (Decidable (_ = _))

def dispatchMask (cohorts : List PeerEvidence) (message : RoutingMessage) : Except Fault UInt8 :=
  if cohorts.length > 1 ∧ ¬ message.heartbeat ∧ ¬ message.sourceReset then
    parseRoutingMessageFamilyMask message.message dispatchBudget
  else .ok 0

inductive DispatchPlan where
  | retireAll
  | give (cohorts : List PeerEvidence)
  deriving DecidableEq

def dispatchPlan (cohorts : List PeerEvidence) (message : RoutingMessage) : DispatchPlan :=
  match dispatchMask cohorts message with
  | .error _ => .retireAll
  | .ok mask => if cohorts.any (Covers mask) then .give (cohorts.filter (Covers mask)) else .retireAll

def DispatchPlan.execute (fails : Nat → Bool) (w : Worker) (peer : PeerEvidence) (message : RoutingMessage) :
    DispatchPlan → Worker
  | .retireAll => w.retireMatchingCohorts peer 0 false
  | .give cohorts => cohorts.foldl (Worker.give fails message) w

/-! The code follows the plan. -/

variable {peer : PeerEvidence} {state : StreamState} {key : StreamKey}

theorem tryPut_other {streams : RoutingStreams}
    (other : key ≠ peer.key) : (streams.tryPut peer state).sessions.lookup key = streams.sessions.lookup key := by
  unfold RoutingStreams.tryPut
  cases put : streams.put peer state with
  | none => rfl
  | some after =>
    rw [Option.getD_some, (put_some put).1, lookup_insert_ne other]

variable {fails : Nat → Bool} {w : Worker} {message : RoutingMessage}

theorem send_other (held : w.streams.sessions.lookup peer.key = some state) (other : key ≠ peer.key) :
    (w.sendRoutingCohortMessage fails peer message state).streams.sessions.lookup key = w.streams.sessions.lookup key := by
  unfold sendRoutingCohortMessage
  split
  · rfl
  split
  · exact tryPut_other other
  split
  · exact tryPut_other other
  split
  · rw [remove_held held, lookup_erase_ne other]
  · exact tryPut_other other

variable {selected : PeerEvidence}

theorem give_other (other : key ≠ selected.key) :
    (w.give fails message selected).streams.sessions.lookup key = w.streams.sessions.lookup key := by
  unfold give
  split
  · rfl
  rename_i held
  split
  · rfl
  · exact send_other held other

variable {mask : UInt8}

theorem takes_iff (filed : Filed selected.key state) : takes mask state = true ↔ Covers mask selected := by
  have cohort : state.familyMask = selected.selector.cohort := filed.cohort
  unfold takes Covers
  rw [← cohort]
  by_cases none : mask = 0
  · simp [none]
  · simp [none, filed.nonzero]

theorem dispatchCohort_eq (held : w.streams.sessions.lookup selected.key = some state)
    (filed : Filed selected.key state) :
    dispatchCohort fails message mask (w, covered) selected =
      if Covers mask selected then (w.give fails message selected, true) else (w, covered) := by
  unfold dispatchCohort give
  rw [get_held held, held]
  dsimp only
  by_cases covers : Covers mask selected
  · rw [if_neg (not_not.mpr ((takes_iff filed).mpr covers))]
    split <;> rfl
  · rw [if_pos (fun takes => covers ((takes_iff filed).mp takes)), if_neg covers]

theorem dispatch_turns {l : List PeerEvidence} (covered : Bool) (distinct : l.Pairwise (fun a b => a.key ≠ b.key))
    (held : ∀ selected ∈ l, ∃ state, w.streams.sessions.lookup selected.key = some state ∧ Filed selected.key state) :
    l.foldl (dispatchCohort fails message mask) (w, covered) =
      ((l.filter (Covers mask)).foldl (give fails message) w, covered || l.any (Covers mask)) := by
  induction l generalizing w covered with
  | nil => simp
  | cons first rest ih =>
    obtain ⟨apart, distinct⟩ := pairwise_cons.mp distinct
    obtain ⟨state, firstHeld, filed⟩ := held first mem_cons_self
    have later : ∀ selected ∈ rest, ∃ state, w.streams.sessions.lookup selected.key = some state ∧ Filed selected.key state :=
      fun selected mem => held selected (mem_cons_of_mem first mem)
    rw [foldl_cons, dispatchCohort_eq firstHeld filed]
    by_cases covers : Covers mask first
    · have after : ∀ selected ∈ rest, ∃ state,
          (w.give fails message first).streams.sessions.lookup selected.key = some state ∧ Filed selected.key state := by
        intro selected mem
        rw [give_other (Ne.symm (apart selected mem))]
        exact later selected mem
      rw [if_pos covers, ih true distinct after]
      simp [covers]
    · rw [if_neg covers, ih covered distinct later]
      simp [covers]

variable (streams : RoutingStreams)

theorem peers_distinct (peer : PeerEvidence) : (streams.peers peer).Pairwise (fun a b => a.key ≠ b.key) := by
  apply List.Pairwise.filter
  rw [pairwise_map]
  have cohorts : ([0, 1, 2, 3] : List UInt8).Pairwise (· ≠ ·) := by decide
  exact cohorts.imp fun ne same => ne (congrArg (fun key => key.2.cohort) same)

theorem peers_nodup (peer : PeerEvidence) : (streams.peers peer).Nodup := by
  apply (peers_distinct streams peer).imp
  rintro a b ne rfl
  exact ne rfl

theorem dispatch_eq_plan (sound : Sound w.streams) (fails : Nat → Bool)
    (message : RoutingMessage) (present : w.streams.peers peer ≠ []) :
    w.dispatchRoutingCohorts fails peer false message =
      (dispatchPlan (w.streams.peers peer) message).execute fails w peer message := by
  have held : ∀ selected ∈ w.streams.peers peer,
      ∃ state, w.streams.sessions.lookup selected.key = some state ∧ Filed selected.key state := by
    intro selected mem
    obtain ⟨-, state, held⟩ := mem_peers mem
    exact ⟨state, held, sound.filed _ _ held⟩
  unfold Worker.dispatchRoutingCohorts dispatchPlan
  rw [if_neg present, ← dispatchMask]
  cases dispatchMask (w.streams.peers peer) message with
  | error e => rfl
  | ok mask =>
    dsimp only
    rw [dispatch_turns false (peers_distinct _ _) held, Bool.false_or]
    by_cases covered : (w.streams.peers peer).any (fun selected => decide (Covers mask selected)) = true
    · rw [if_pos covered, if_pos covered]
      rfl
    -- no cohort has taken the message, so the worker is as it was
    have none : (w.streams.peers peer).filter (fun selected => decide (Covers mask selected)) = [] := by
      apply filter_eq_nil_iff.mpr
      intro selected mem covers
      exact covered (any_eq_true.mpr ⟨selected, mem, covers⟩)
    rw [if_neg covered, if_neg covered, none]
    rfl

/-! Retirement of all cohorts of a peer. -/

theorem retireMatchingCohort_failed (sound : Sound w.streams) (named : selected.selector.cohort ≠ 0)
    (left : (w.retireMatchingCohort 0 false selected).streams.sessions.lookup key = some state) :
    (key = selected.key ∧ state.failed = true) ∨ (key ≠ selected.key ∧ w.streams.sessions.lookup key = some state) := by
  unfold retireMatchingCohort at left
  rw [get_of_cohort named] at left
  by_cases same : key = selected.key
  · refine .inl ⟨same, ?_⟩
    subst same
    split at left
    · rename_i none
      rw [none] at left
      cases left
    rename_i before held
    rw [if_neg (fun skipped => skipped.1 rfl)] at left
    cases failed : before.failed with
    | true =>
      have unchanged : bmpRoutingStateCharge before = bmpRoutingStateCharge before := rfl
      obtain ⟨after, put, written⟩ := sound.tryPut_held held unchanged
      simp only [failed, if_true, Bool.false_eq_true, if_false] at left
      rw [written, (put_some put).1, lookup_insert] at left
      cases left
      exact failed
    | false =>
      obtain ⟨after, put, written⟩ := sound.tryPut_held held (retired_charge selected w.log before)
      simp only [failed, Bool.false_eq_true, if_false] at left
      rw [written, (put_some put).1, lookup_insert] at left
      cases left
      rfl
  · refine .inr ⟨same, ?_⟩
    split at left
    · exact left
    rw [if_neg (fun skipped => skipped.1 rfl)] at left
    rw [if_neg (by decide), tryPut_other same] at left
    exact left

theorem retireAll_failed (sound : Sound w.streams)
    (left : (w.retireMatchingCohorts peer 0 false).streams.sessions.lookup key = some state)
    (beside : StreamKey.Beside peer.key key) : state.failed = true := by
  have turns : ∀ (l : List PeerEvidence) w, Sound w.streams → (∀ selected ∈ l, selected.selector.cohort ≠ 0) →
      ∀ state, (l.foldl (retireMatchingCohort 0 false) w).streams.sessions.lookup key = some state →
        state.failed = true ∨ (w.streams.sessions.lookup key = some state ∧ ∀ selected ∈ l, key ≠ selected.key) := by
    intro l
    induction l with
    | nil => exact fun _ _ _ state left => .inr ⟨left, fun _ mem => by cases mem⟩
    | cons first rest ih =>
      intro w sound named state left
      have here := named first mem_cons_self
      rcases ih _ (sound.moves (retireMatchingCohort_moves here))
        (fun selected mem => named selected (mem_cons_of_mem first mem)) state left with failed | ⟨between, others⟩
      · exact .inl failed
      · rcases retireMatchingCohort_failed sound here between with ⟨-, failed⟩ | ⟨other, before⟩
        · exact .inl failed
        · exact .inr ⟨before, forall_mem_cons.mpr ⟨other, others⟩⟩
  rcases turns _ w sound (fun selected mem => sound.peers_named mem) state left with failed | ⟨before, others⟩
  · exact failed
  · obtain ⟨mem, same⟩ := sound.mem_peers before beside
    exact absurd same.symm (others _ mem)

/-! Route messages. -/

/-- What becomes of a route message: the only cohort of a peer takes whatever it
says, several cohorts take what names no family, and otherwise it goes to the one
cohort that covers its mask, or all of them are retired. -/
def Disposed (fails : Nat → Bool) (w : Worker) (peer : PeerEvidence) (message : RoutingMessage) : Prop :=
  let cohorts := w.streams.peers peer
  let after := w.dispatchRoutingCohorts fails peer false message
  if cohorts.length ≤ 1 then after = cohorts.foldl (give fails message) w
  else
    match parseRoutingMessageFamilyMask message.message dispatchBudget with
    | .error _ => after = w.retireMatchingCohorts peer 0 false
    | .ok mask =>
      if mask = 0 then after = cohorts.foldl (give fails message) w
      else
        (∃ selected ∈ cohorts, (∀ other ∈ cohorts, Covers mask other ↔ other = selected) ∧
          after = w.give fails message selected) ∨
        ((∀ other ∈ cohorts, ¬ Covers mask other) ∧ after = w.retireMatchingCohorts peer 0 false)

theorem covers_zero (selected : PeerEvidence) : Covers 0 selected := UInt8.zero_and

variable {other : PeerEvidence}

theorem covers_unique (sound : Sound w.streams)
    (family : mask ≠ 0) (mem : selected ∈ w.streams.peers peer) (mem' : other ∈ w.streams.peers peer)
    (covers : Covers mask selected) (covers' : Covers mask other) : other = selected := by
  obtain ⟨⟨cohort, rfl⟩, state, held⟩ := mem_peers mem
  obtain ⟨⟨cohort', rfl⟩, state', held'⟩ := mem_peers mem'
  by_contra ne
  have keys : (peer.withCohort cohort).key ≠ (peer.withCohort cohort').key := by
    intro same
    have same : cohort = cohort' := congrArg (fun key => key.2.cohort) same
    exact ne (same ▸ rfl)
  have apart := sound.disjoint _ _ state state' held held' keys ⟨rfl, rfl, rfl⟩
  rw [(sound.filed _ _ held).cohort, (sound.filed _ _ held').cohort] at apart
  have none : mask = 0 := by
    calc mask = (mask &&& cohort) &&& cohort' := by rw [show mask &&& cohort = mask from covers, show mask &&& cohort' = mask from covers']
      _ = mask &&& (cohort &&& cohort') := UInt8.and_assoc ..
      _ = mask &&& 0 := by rw [show cohort &&& cohort' = 0 from apart]
      _ = 0 := UInt8.and_zero
  exact family none

theorem plan_zero (present : cohorts ≠ [])
    (mask : dispatchMask cohorts message = .ok 0) : dispatchPlan cohorts message = .give cohorts := by
  unfold dispatchPlan
  rw [mask]
  dsimp only
  obtain ⟨first, rest, rfl⟩ := exists_cons_of_ne_nil present
  rw [if_pos (any_eq_true.mpr ⟨first, mem_cons_self, decide_eq_true (covers_zero first)⟩)]
  congr 1
  exact filter_eq_self.mpr fun selected _ => decide_eq_true (covers_zero selected)

variable {families : UInt8}

theorem covers_iff (sound : Sound w.streams)
    (family : families ≠ 0) (mem : selected ∈ w.streams.peers peer) (covers : Covers families selected)
    (mem' : other ∈ w.streams.peers peer) : Covers families other ↔ other = selected := by
  constructor
  · exact covers_unique sound family mem mem' covers
  · rintro rfl
    exact covers

theorem filter_covers (mem : selected ∈ w.streams.peers peer)
    (only : ∀ other ∈ w.streams.peers peer, Covers families other ↔ other = selected) :
    (w.streams.peers peer).filter (fun other => decide (Covers families other)) = [selected] := by
  have same : (w.streams.peers peer).filter (fun other => decide (Covers families other)) =
      (w.streams.peers peer).filter (fun other => decide (other = selected)) :=
    filter_congr fun other mem' => decide_eq_decide.mpr (only other mem')
  rw [same, filter_eq, count_eq_one_of_mem (peers_nodup w.streams peer) mem]
  rfl

theorem disposed (sound : Sound w.streams) (fails : Nat → Bool) (peer : PeerEvidence)
    (route : message.heartbeat = false ∧ message.sourceReset = false) : Disposed fails w peer message := by
  unfold Disposed
  dsimp only
  by_cases present : w.streams.peers peer = []
  · rw [Worker.dispatchRoutingCohorts]
    simp [present]
  have plan := dispatch_eq_plan sound fails message present
  split
  · rw [plan, plan_zero present (by rw [dispatchMask, if_neg (by omega)])]
    rfl
  have mask : dispatchMask (w.streams.peers peer) message = parseRoutingMessageFamilyMask message.message dispatchBudget := by
    rw [dispatchMask, if_pos ⟨by omega, by simp [route.1], by simp [route.2]⟩]
  cases read : parseRoutingMessageFamilyMask message.message dispatchBudget with
  | error e =>
    rw [read] at mask
    rw [plan, dispatchPlan, mask]
    rfl
  | ok families =>
    rw [read] at mask
    dsimp only
    split
    · rename_i none
      subst none
      rw [plan, plan_zero present mask]
      rfl
    rename_i family
    by_cases covered : ∃ selected ∈ w.streams.peers peer, Covers families selected
    · obtain ⟨selected, mem, covers⟩ := covered
      have only other mem' : Covers families other ↔ other = selected :=
        covers_iff sound family mem covers mem'
      refine .inl ⟨selected, mem, only, ?_⟩
      rw [plan, dispatchPlan, mask]
      dsimp only
      rw [if_pos (any_eq_true.mpr ⟨selected, mem, decide_eq_true covers⟩), filter_covers mem only]
      rfl
    · have none : ∀ other ∈ w.streams.peers peer, ¬ Covers families other :=
        fun other mem covers => covered ⟨other, mem, covers⟩
      refine .inr ⟨none, ?_⟩
      rw [plan, dispatchPlan, mask]
      dsimp only
      rw [if_neg (by simpa using none)]
      rfl

/-- After every run the book accounts for what it holds within its limit, its
cohorts are masks that do not meet, and every route message is disposed of. Loss
of evidence retires all cohorts, and retired cohorts have failed. -/
theorem book_sound (cfg : StreamConfig) (events : List StreamEvent) :
    let w := Worker.runs cfg events
    (w.streams.used = (w.streams.sessions.entries.map fun entry => bmpRoutingStateCharge entry.2).sum ∧
      w.streams.used ≤ w.streams.limit) ∧
    (∀ key state, w.streams.sessions.lookup key = some state →
      state.familyMask ≠ 0 ∧ state.familyMask = key.2.cohort) ∧
    (∀ key other state state', w.streams.sessions.lookup key = some state → w.streams.sessions.lookup other = some state' →
      key ≠ other → StreamKey.Beside key other → state.familyMask &&& state'.familyMask = 0) ∧
    (∀ peer message, message.heartbeat = false ∧ message.sourceReset = false → Disposed cfg.fails w peer message) ∧
    (∀ peer message, w.dispatchRoutingCohorts cfg.fails peer true message = w.retireMatchingCohorts peer 0 false) ∧
    ∀ peer key state, (w.retireMatchingCohorts peer 0 false).streams.sessions.lookup key = some state →
      StreamKey.Beside peer.key key → state.failed = true := by
  intro w
  have sound : Sound w.streams := sound_runs cfg events
  refine ⟨⟨sound.counted, sound.bounded⟩, fun key state held => ?_, sound.disjoint, fun peer message route => ?_,
    fun peer message => ?_, fun peer key state => retireAll_failed sound⟩
  · have filed := sound.filed key state held
    exact ⟨filed.nonzero, filed.cohort⟩
  · exact disposed sound cfg.fails peer route
  unfold dispatchRoutingCohorts
  dsimp only
  split
  · rename_i none
    rw [retireMatchingCohorts, none]
    rfl
  · rfl

def locRIBUpdate (attributes : Bytes) : Bytes :=
  [3, 0, 0, 0, ofNat (71 + attributes.length), 0] ++ (3 :: replicate 41 0) ++ replicate 16 255 ++
    [0, ofNat (23 + attributes.length), 2, 0, 0, 0, ofNat attributes.length] ++ attributes

def locRIBHeader : BMPRouteViewHeader :=
  ⟨3, 0, replicate 8 0, .invalid, 0, .v4 [0, 0, 0, 0], .locRIB, 4, false, none⟩

def locRIBPeer (capabilities : Bytes) : PeerUp :=
  let session := replicate 16 255 ++
    [0, ofNat (31 + capabilities.length), 1, 4, 0, 1, 0, 90, 0, 0, 0, 1, ofNat (2 + capabilities.length), 2,
      ofNat capabilities.length] ++ capabilities
  ⟨⟨.unset, []⟩, locRIBHeader, session, session⟩

/-- The only cohort of a peer, staged for IPv4, is given the end of IPv6. -/
theorem only_cohort_takes_all :
    let cfg : StreamConfig := ⟨[7], 4096, by decide, true, fun _ => false⟩
    let peer : PeerEvidence := ⟨⟨0, [], []⟩, true, 5, [7], [8], [9], 0⟩
    let w := Worker.runs cfg [.peerUp peer false [1] ⟨some ⟨.staged, [some ⟨[1], 1, 1⟩]⟩, false⟩]
    let message : RoutingMessage := ⟨false, false, locRIBUpdate [0x80, 15, 3, 0, 2, 1], 0, [], [], [], 0⟩
    let after := w.dispatchRoutingCohorts cfg.fails peer false message
    parseRoutingMessageFamilyMask message.message dispatchBudget = .ok 2 ∧
      w.streams.peers peer = [peer.withCohort 1] ∧ ¬ Covers 2 (peer.withCohort 1) ∧
      after.log.map (·.message) = [message.message] ∧
      (after.streams.sessions.lookup (peer.withCohort 1).key).map (·.failed) = some false := by
  decide +kernel

/-! Messages that the decoder accepts. -/

def Retires (cohorts : List PeerEvidence) (message : RoutingMessage) : Prop :=
  cohorts ≠ [] ∧ dispatchPlan cohorts message = .retireAll

instance (cohorts : List PeerEvidence) (message : RoutingMessage) : Decidable (Retires cohorts message) :=
  inferInstanceAs (Decidable (_ ∧ _))

/-- An accepted route message has the union of its groups as its mask and retires
nothing exactly if it does not mark the end of a family beside the two unicast
ones, and one cohort covers it where there are several. -/
theorem decoded_assigned_iff (cfg : StreamConfig) (events : List StreamEvent) (source : PeerEvidence)
    (message : RoutingMessage) (route : message.heartbeat = false ∧ message.sourceReset = false) (peer : PeerUp)
    (budget : Budget) (changes : RoutingChanges) (read : decodeRoutingChanges message.message peer budget = .ok changes) :
    let w := Worker.runs cfg events
    let cohorts := w.streams.peers source
    let families := familyMask (changes.groups.map (·.family))
    (cohorts ≠ [] → w.dispatchRoutingCohorts cfg.fails source false message =
      (dispatchPlan cohorts message).execute cfg.fails w source message) ∧
    ((parseRoutingMessageFamilyMask message.message dispatchBudget = .ok families ∧ ¬ Retires cohorts message) ↔
      (∀ group ∈ changes.groups, group.endOfRIB = true → group.family.Unicast) ∧
        (cohorts.length ≤ 1 ∨ ∃ selected ∈ cohorts, Covers families selected)) := by
  intro w cohorts families
  have sound : Sound w.streams := sound_runs cfg events
  refine ⟨dispatch_eq_plan sound cfg.fails message, ?_⟩
  have mask := family_mask_of_decoded read
  by_cases unicast : ∀ group ∈ changes.groups, group.endOfRIB = true → group.family.Unicast
  · rw [if_pos unicast] at mask
    have assigned : ¬ Retires cohorts message ↔ cohorts.length ≤ 1 ∨ ∃ selected ∈ cohorts, Covers families selected := by
      by_cases single : cohorts.length ≤ 1
      · refine ⟨fun _ => .inl single, fun _ => ?_⟩
        rintro ⟨present, retired⟩
        rw [plan_zero present (by rw [dispatchMask, if_neg (by omega)])] at retired
        cases retired
      · have present : cohorts ≠ [] := by
          rintro none
          simp [none] at single
        have read : dispatchMask cohorts message = .ok families := by
          rw [dispatchMask, if_pos ⟨by omega, by simp [route.1], by simp [route.2]⟩]
          exact mask
        unfold Retires dispatchPlan
        rw [read]
        simp [present, single]
    exact ⟨fun both => ⟨unicast, assigned.mp both.2⟩, fun both => ⟨mask, assigned.mpr both.2⟩⟩
  · rw [if_neg unicast] at mask
    constructor
    · rintro ⟨read, -⟩
      rw [mask] at read
      cases read
    · rintro ⟨supported, -⟩
      exact absurd supported unicast

theorem decoded_assigned_iff_ipv4End :
    let cfg : StreamConfig := ⟨[7], 65536, by decide, true, fun _ => false⟩
    let source : PeerEvidence := ⟨⟨0, [], []⟩, true, 5, [7], [8], [9], 0⟩
    let events := [.peerUp source false [1] ⟨some ⟨.staged, [some ⟨[1], 1, 1⟩]⟩, false⟩,
      .peerUp source false [2] ⟨some ⟨.staged, [some ⟨[2], 2, 1⟩]⟩, false⟩]
    let message : RoutingMessage := ⟨false, false, locRIBUpdate [], 0, [], [], [], 0⟩
    let changes : RoutingChanges := ⟨locRIBHeader, [], none, [⟨⟨1, 1⟩, [], [], [], true⟩]⟩
    let w := Worker.runs cfg events
    let cohorts := w.streams.peers source
    let families := familyMask (changes.groups.map (·.family))
    decodeRoutingChanges message.message (locRIBPeer [65, 4, 0, 0, 0, 1]) ⟨1048576, 1048576⟩ = .ok changes ∧
      cohorts = [source.withCohort 1, source.withCohort 2] ∧
      (cohorts ≠ [] → w.dispatchRoutingCohorts cfg.fails source false message =
        (dispatchPlan cohorts message).execute cfg.fails w source message) ∧
      ((parseRoutingMessageFamilyMask message.message dispatchBudget = .ok families ∧ ¬ Retires cohorts message) ↔
        (∀ group ∈ changes.groups, group.endOfRIB = true → group.family.Unicast) ∧
          (cohorts.length ≤ 1 ∨ ∃ selected ∈ cohorts, Covers families selected)) :=
  ⟨by decide +kernel, by decide +kernel, decoded_assigned_iff _ _ _ _ ⟨rfl, rfl⟩ (locRIBPeer [65, 4, 0, 0, 0, 1]) ⟨1048576, 1048576⟩ _
    (by decide +kernel)⟩

/-- Two cohorts, and a marker of the IPv4 VPN family that both OPENs negotiate:
the decoder accepts it, no cohort can hold it, and both are retired. -/
theorem vpn_end_retires :
    let cfg : StreamConfig := ⟨[7], 65536, by decide, true, fun _ => false⟩
    let source : PeerEvidence := ⟨⟨0, [], []⟩, true, 5, [7], [8], [9], 0⟩
    let w := Worker.runs cfg [.peerUp source false [1] ⟨some ⟨.staged, [some ⟨[1], 1, 1⟩]⟩, false⟩,
      .peerUp source false [2] ⟨some ⟨.staged, [some ⟨[2], 2, 1⟩]⟩, false⟩]
    let message : RoutingMessage := ⟨false, false, locRIBUpdate [0x80, 15, 3, 0, 1, 128], 0, [], [], [], 0⟩
    let peer := locRIBPeer [65, 4, 0, 0, 0, 1, 1, 4, 0, 1, 0, 128]
    let after := w.dispatchRoutingCohorts cfg.fails source false message
    (decodeRoutingChanges message.message peer ⟨1048576, 1048576⟩).map (·.groups) = .ok [⟨⟨1, 128⟩, [], [], [], true⟩] ∧
      parseRoutingMessageFamilyMask message.message dispatchBudget = .error [.routeCapabilities] ∧
      w.streams.peers source = [source.withCohort 1, source.withCohort 2] ∧
      Retires (w.streams.peers source) message ∧
      after.streams.sessions.entries.map (·.2.failed) = [true, true] ∧
      after.log.map (fun m => (m.generation, m.sourceReset)) = [([1], true), ([2], true)] := by
  decide +kernel

end Probectl.Bgp
