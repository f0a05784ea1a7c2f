import Probectl.Bgp.Streams
import Probectl.Lib.Charged

/-! What the worker's book keeps true, and the few moves that its handlers are
made of. -/
namespace Probectl.Bgp

open List Charged RoutingStreams Option Worker AList

def StreamKey.Beside (key other : StreamKey) : Prop :=
  key.1 = other.1 ∧ key.2.distinguisher = other.2.distinguisher ∧ key.2.identifier = other.2.identifier

structure Filed (key : StreamKey) (state : StreamState) : Prop where
  nonzero : state.familyMask ≠ 0
  small : state.familyMask ≤ 3
  cohort : state.familyMask = key.2.cohort
  source : state.source.key = key

structure Sound (streams : RoutingStreams) : Prop where
  counted : streams.used = total bmpRoutingStateCharge streams.sessions
  bounded : streams.used ≤ streams.limit
  filed : ∀ key state, streams.sessions.lookup key = some state → Filed key state
  disjoint : ∀ key other state state', streams.sessions.lookup key = some state →
    streams.sessions.lookup other = some state' → key ≠ other → StreamKey.Beside key other →
    state.familyMask &&& state'.familyMask = 0

theorem bmpRoutingStateCharge_nonneg (state : StreamState) : 0 ≤ bmpRoutingStateCharge state := by
  unfold bmpRoutingStateCharge
  omega

theorem sound_new {limit : Int} (positive : 0 < limit) : Sound (newBMPRoutingStreams limit) where
  counted := rfl
  bounded := positive.le
  filed := by
    intro key state held
    cases held
  disjoint := by
    intro key other state state' held
    cases held

namespace RoutingStreams

variable {streams : RoutingStreams} {peer selected : PeerEvidence} {state : StreamState}

theorem resolve_held (held : streams.sessions.lookup peer.key = some state) :
    streams.resolve peer = (peer, some state) := by
  unfold resolve
  rw [held]

theorem get_held (held : streams.sessions.lookup peer.key = some state) : streams.get peer = some state := by
  rw [get, resolve_held held]

theorem remove_held (held : streams.sessions.lookup peer.key = some state) :
    streams.remove peer = { streams with
      sessions := streams.sessions.erase peer.key
      used := streams.used - bmpRoutingStateCharge state } := by
  unfold remove
  rw [resolve_held held]

theorem mem_peers (mem : selected ∈ streams.peers peer) :
    (∃ cohort, selected = peer.withCohort cohort) ∧ ∃ state, streams.sessions.lookup selected.key = some state := by
  obtain ⟨named, held⟩ := mem_filter.mp mem
  obtain ⟨cohort, -, rfl⟩ := mem_map.mp named
  exact ⟨⟨cohort, rfl⟩, isSome_iff_exists.mp held⟩

theorem resolve_some (resolved : streams.resolve peer = (selected, some state)) :
    (∃ cohort, selected = peer.withCohort cohort) ∧ streams.sessions.lookup selected.key = some state := by
  unfold resolve at resolved
  split at resolved
  · rename_i held
    cases resolved
    exact ⟨⟨peer.selector.cohort, rfl⟩, held⟩
  split at resolved
  · cases resolved
  split at resolved
  · rename_i only
    obtain ⟨rfl, held⟩ := Prod.mk.inj resolved
    exact ⟨(mem_peers (only ▸ mem_singleton_self _)).1, held⟩
  · cases resolved

theorem put_some {after : RoutingStreams} (put : streams.put peer state = some after) :
    after.sessions = streams.sessions.insert peer.key state ∧ after.limit = streams.limit ∧
      after.used = streams.used - ((streams.sessions.lookup peer.key).map bmpRoutingStateCharge).getD 0 +
        bmpRoutingStateCharge state ∧ after.used ≤ after.limit := by
  unfold RoutingStreams.put admission at put
  dsimp only at put
  split at put
  · cases put
  cases put
  refine ⟨rfl, rfl, ?_, ?_⟩
  all_goals
    dsimp only
    omega

theorem put_isSome (same : bmpRoutingStateCharge state = bmpRoutingStateCharge charged)
    (admitted : (streams.admission peer charged).isSome) : ∃ after, streams.put peer state = some after := by
  obtain ⟨delta, admission⟩ := isSome_iff_exists.mp admitted
  have again : streams.admission peer state = some delta := by
    rw [← admission]
    unfold RoutingStreams.admission
    rw [same]
  exact ⟨_, by rw [put, again]; rfl⟩

end RoutingStreams

variable {key : StreamKey}

theorem lookup_inserted {old : AList fun _ : StreamKey => StreamState}
    (put : new = old.insert key state) (entry : new.lookup other = some found) :
    (other = key ∧ found = state) ∨ (other ≠ key ∧ old.lookup other = some found) := by
  rw [put] at entry
  by_cases same : other = key
  · rw [same, lookup_insert] at entry
    exact .inl ⟨same, (Option.some.inj entry).symm⟩
  · rw [lookup_insert_ne same] at entry
    exact .inr ⟨same, entry⟩

namespace Sound

variable {streams after : RoutingStreams} {peer : PeerEvidence} {state old : StreamState}

theorem admits_same (sound : Sound streams) (held : streams.sessions.lookup peer.key = some old)
    (same : bmpRoutingStateCharge state = bmpRoutingStateCharge old) : ∃ after, streams.put peer state = some after := by
  have small := charge_le_total bmpRoutingStateCharge bmpRoutingStateCharge_nonneg held
  have counted := sound.counted
  have bounded := sound.bounded
  apply put_isSome same
  unfold admission
  rw [held]
  dsimp only [map_some, getD_some]
  rw [if_neg (by omega)]
  rfl

theorem counted_put (sound : Sound streams) (put : streams.put peer state = some after) :
    after.used = total bmpRoutingStateCharge after.sessions := by
  obtain ⟨sessions, -, used, -⟩ := put_some put
  have counted := sound.counted
  rw [sessions]
  cases held : streams.sessions.lookup peer.key with
  | none =>
    rw [total_insert_new _ _ held, used, held, counted]
    simp
  | some old =>
    rw [total_insert, total_erase _ held, used, held, counted]
    simp

theorem lookup_erase
    (entry : (streams.sessions.erase gone).lookup key = some found) :
    streams.sessions.lookup key = some found ∧ key ≠ gone := by
  by_cases same : key = gone
  · rw [same, AList.lookup_erase] at entry
    cases entry
  · rw [lookup_erase_ne same] at entry
    exact ⟨entry, same⟩

theorem remove (sound : Sound streams) (held : streams.sessions.lookup peer.key = some old) :
    Sound (streams.remove peer) := by
  rw [remove_held held]
  have nonneg := bmpRoutingStateCharge_nonneg old
  have bounded := sound.bounded
  refine ⟨?_, ?_, ?_, ?_⟩
  · rw [total_erase _ held, sound.counted]
  · dsimp only
    omega
  · intro key state entry
    exact sound.filed key state (lookup_erase entry).1
  · intro key other state state' entry entry'
    exact sound.disjoint key other state state' (lookup_erase entry).1 (lookup_erase entry').1

theorem install (sound : Sound streams) (filed : Filed peer.key state)
    (apart : ∀ key beside, streams.sessions.lookup key = some beside → peer.key ≠ key → StreamKey.Beside peer.key key →
      state.familyMask &&& beside.familyMask = 0)
    (put : streams.put peer state = some after) : Sound after := by
  obtain ⟨sessions, -, -, bounded⟩ := put_some put
  refine ⟨sound.counted_put put, bounded, ?_, ?_⟩
  · intro key found entry
    obtain ⟨rfl, rfl⟩ | ⟨-, entry⟩ := lookup_inserted sessions entry
    · exact filed
    · exact sound.filed key found entry
  · intro key other found found' entry entry' ne beside
    obtain ⟨rfl, rfl⟩ | ⟨-, entry⟩ := lookup_inserted sessions entry
    · obtain ⟨rfl, -⟩ | ⟨-, entry'⟩ := lookup_inserted sessions entry'
      · exact absurd rfl ne
      · exact apart other found' entry' ne beside
    · obtain ⟨rfl, rfl⟩ | ⟨-, entry'⟩ := lookup_inserted sessions entry'
      · have back := apart key found entry ne.symm ⟨beside.1.symm, beside.2.1.symm, beside.2.2.symm⟩
        rwa [UInt8.and_comm]
      · exact sound.disjoint key other found found' entry entry' ne beside

theorem replace (sound : Sound streams) (held : streams.sessions.lookup peer.key = some old)
    (mask : state.familyMask = old.familyMask) (source : state.source.key = peer.key)
    (put : streams.put peer state = some after) : Sound after := by
  have filed := sound.filed _ _ held
  refine sound.install ⟨mask ▸ filed.nonzero, mask ▸ filed.small, mask ▸ filed.cohort, source⟩ ?_ put
  intro key beside entry ne near
  rw [mask]
  exact sound.disjoint _ key old beside held entry ne near

end Sound

/-! Moves. -/

section Retired

variable (peer : PeerEvidence) (log : List RoutingMessage) (state : StreamState)

theorem retired_charge : bmpRoutingStateCharge (retireRoutingStream peer log state).2 = bmpRoutingStateCharge state := rfl

end Retired

inductive Move (w : Worker) : Worker → Prop
  | retire (peer : PeerEvidence) (state : StreamState) (held : w.streams.sessions.lookup peer.key = some state) :
    Move w (w.retire peer state)
  | rewrite (peer : PeerEvidence) (state : StreamState) (held : w.streams.sessions.lookup peer.key = some state) :
    Move w ⟨w.streams.tryPut peer state, w.log⟩
  | drop (peer : PeerEvidence) (state : StreamState) (held : w.streams.sessions.lookup peer.key = some state) :
    Move w ⟨w.streams.remove peer, (retireRoutingStream peer w.log state).1⟩
  | forget (peer : PeerEvidence) (state : StreamState) (held : w.streams.sessions.lookup peer.key = some state) :
    Move w ⟨w.streams.remove peer, w.log⟩
  | send (fails : Nat → Bool) (peer : PeerEvidence) (message : RoutingMessage) (state : StreamState)
    (held : w.streams.sessions.lookup peer.key = some state) (live : state.failed = false) :
    Move w (w.sendRoutingCohortMessage fails peer message state)

abbrev Moves : Worker → Worker → Prop := Relation.ReflTransGen Move

/-- What becomes of the generation of a Peer Up: it takes the place of an older
one and is reset, it is reset without ever being in the book, or it is the
generation of a new stream. -/
inductive Staged (fresh : Bytes) (w : Worker) : Worker → Prop
  | replace (peer : PeerEvidence) (old : StreamState) (held : w.streams.sessions.lookup peer.key = some old)
    (admitted : (w.streams.admission peer
      ⟨old.familyMask, routingCohortSource peer, fresh, old.generation, 0, old.sequence, false⟩).isSome) :
    Staged fresh w (w.retire peer ⟨old.familyMask, routingCohortSource peer, fresh, old.generation, 0, old.sequence, false⟩)
  | reset (peer source : PeerEvidence) (mask : UInt8) :
    Staged fresh w { w with log := (retireRoutingStream peer w.log ⟨mask, source, fresh, [], 0, 0, false⟩).1 }
  | install (peer : PeerEvidence) (state : StreamState) (streams : RoutingStreams) (filed : Filed peer.key state)
    (state_eq : state = ⟨state.familyMask, state.source, fresh, [], 0, 0, false⟩)
    (apart : ∀ key beside, w.streams.sessions.lookup key = some beside → StreamKey.Beside peer.key key →
      state.familyMask &&& beside.familyMask = 0)
    (put : w.streams.put peer state = some streams) : Staged fresh w { w with streams := streams }

namespace Sound

variable {w u : Worker} {peer : PeerEvidence} {state old : StreamState}

section
variable (sound : Sound w.streams)
include sound

theorem tryPut_held (held : w.streams.sessions.lookup peer.key = some old)
    (same : bmpRoutingStateCharge state = bmpRoutingStateCharge old) :
    ∃ after, w.streams.put peer state = some after ∧ w.streams.tryPut peer state = after := by
  obtain ⟨after, put⟩ := sound.admits_same held same
  exact ⟨after, put, by rw [tryPut, put]; rfl⟩

theorem writeBack (held : w.streams.sessions.lookup peer.key = some old)
    (charge : bmpRoutingStateCharge state = bmpRoutingStateCharge old) (mask : state.familyMask = old.familyMask)
    (source : state.source = old.source) : Sound (w.streams.tryPut peer state) := by
  obtain ⟨after, put, written⟩ := sound.tryPut_held held charge
  rw [written]
  exact sound.replace held mask (source ▸ (sound.filed _ _ held).source) put

theorem retire (held : w.streams.sessions.lookup peer.key = some state) : Sound (w.retire peer state).streams :=
  sound.writeBack held (retired_charge peer w.log state) rfl rfl

theorem send (held : w.streams.sessions.lookup peer.key = some state) (fails : Nat → Bool)
    (message : RoutingMessage) : Sound (w.sendRoutingCohortMessage fails peer message state).streams := by
  unfold sendRoutingCohortMessage
  split
  · exact sound
  split
  · exact sound.retire held
  split
  · exact sound.writeBack held (retired_charge _ _ _) rfl rfl
  split
  · exact sound.remove held
  · exact sound.writeBack held rfl rfl rfl

theorem move (move : Move w u) : Sound u.streams := by
  cases move with
  | retire peer state held => exact sound.retire held
  | rewrite peer state held => exact sound.writeBack held rfl rfl rfl
  | drop peer state held | forget peer state held => exact sound.remove held
  | send fails peer message state held live => exact sound.send held fails message

theorem moves (moves : Moves w u) : Sound u.streams := by
  induction moves with
  | refl => exact sound
  | tail _ last ih => exact ih.move last

theorem staged (staged : Staged fresh w u) : Sound u.streams := by
  cases staged with
  | replace peer old held admitted =>
    obtain ⟨after, put⟩ := put_isSome (retired_charge peer w.log _) admitted
    rw [Worker.retire, tryPut, put]
    apply sound.replace held _ _ put
    all_goals rfl
  | reset peer source mask => exact sound
  | install peer state streams filed state_eq apart put =>
    exact sound.install filed (fun key beside held _ => apart key beside held) put

end

end Sound

/-! Handlers as moves. -/

variable {w : Worker}

theorem Moves.foldl (worker : σ → Worker) {l : List α}
    (sound : Sound (worker s).streams)
    (each : ∀ s a, a ∈ l → Sound (worker s).streams → Moves (worker s) (worker (f s a))) :
    Moves (worker s) (worker (l.foldl f s)) := by
  induction l generalizing s with
  | nil => exact .refl
  | cons a rest ih =>
    have first := each s a mem_cons_self sound
    exact first.trans (ih (sound.moves first) (fun s b mem => each s b (mem_cons_of_mem a mem)))

variable {streams : RoutingStreams} {peer : PeerEvidence}

theorem RoutingStreams.get_of_cohort (named : peer.selector.cohort ≠ 0) :
    streams.get peer = streams.sessions.lookup peer.key := by
  unfold get resolve
  split
  · rename_i held
    exact held.symm
  · rename_i none
    rw [if_pos named, none]

theorem Sound.peers_named (sound : Sound streams)
    (mem : selected ∈ streams.peers peer) : selected.selector.cohort ≠ 0 := by
  obtain ⟨-, state, held⟩ := mem_peers mem
  have filed := sound.filed _ _ held
  exact fun zero => filed.nonzero (filed.cohort.trans zero)

variable {mask : UInt8} {selected : PeerEvidence}

theorem retireMatchingCohort_moves {remove : Bool}
    (named : selected.selector.cohort ≠ 0) : Moves w (w.retireMatchingCohort mask remove selected) := by
  unfold retireMatchingCohort
  rw [get_of_cohort named]
  split
  · exact .refl
  rename_i state held
  split
  · exact .refl
  cases failed : state.failed with
  | true =>
    cases remove with
    | true => exact .single (.forget selected state held)
    | false => exact .single (.rewrite selected state held)
  | false =>
    cases remove with
    | true => exact .single (.drop selected state held)
    | false => exact .single (.retire selected state held)

theorem retireMatchingCohorts_moves (sound : Sound w.streams) (peer : PeerEvidence) (mask : UInt8)
    (remove : Bool) : Moves w (w.retireMatchingCohorts peer mask remove) :=
  Moves.foldl id sound fun _ _ mem _ => retireMatchingCohort_moves (sound.peers_named mem)

variable {state : StreamState}

theorem retireMatchingCohort_left (named : selected.selector.cohort ≠ 0)
    (left : (w.retireMatchingCohort mask true selected).streams.sessions.lookup key = some state) :
    w.streams.sessions.lookup key = some state ∧ (selected.key = key → mask &&& state.familyMask = 0) := by
  unfold retireMatchingCohort at left
  rw [get_of_cohort named] at left
  split at left
  · rename_i none
    refine ⟨left, fun same => ?_⟩
    rw [same, left] at none
    cases none
  rename_i held
  split at left
  · rename_i skipped
    refine ⟨left, fun same => ?_⟩
    rw [same, left] at held
    cases held
    exact skipped.2.2
  · rw [remove_held held] at left
    obtain ⟨before, other⟩ := Sound.lookup_erase left
    exact ⟨before, fun same => absurd same.symm other⟩

theorem retireMatching_left {l : List PeerEvidence} (named : ∀ selected ∈ l, selected.selector.cohort ≠ 0)
    (left : (l.foldl (retireMatchingCohort mask true) w).streams.sessions.lookup key = some state) :
    w.streams.sessions.lookup key = some state ∧ ∀ selected ∈ l, selected.key = key → mask &&& state.familyMask = 0 := by
  induction l generalizing w with
  | nil => exact ⟨left, fun _ mem => by cases mem⟩
  | cons first rest ih =>
    obtain ⟨between, later⟩ := ih (fun selected mem => named selected (mem_cons_of_mem first mem)) left
    obtain ⟨before, here⟩ := retireMatchingCohort_left (named first mem_cons_self) between
    exact ⟨before, forall_mem_cons.mpr ⟨here, later⟩⟩

theorem small_mask (small : mask ≤ 3) : mask = 0 ∨ mask = 1 ∨ mask = 2 ∨ mask = 3 := by
  have bound : mask.toNat ≤ 3 := UInt8.le_iff_toNat_le.mp small
  have cases : mask.toNat = 0 ∨ mask.toNat = 1 ∨ mask.toNat = 2 ∨ mask.toNat = 3 := by omega
  simpa [← UInt8.toNat_inj] using cases

theorem Sound.mem_peers (sound : Sound streams)
    (held : streams.sessions.lookup key = some state) (beside : StreamKey.Beside peer.key key) :
    peer.withCohort state.familyMask ∈ streams.peers peer ∧ (peer.withCohort state.familyMask).key = key := by
  have filed := sound.filed key state held
  have same : (peer.withCohort state.familyMask).key = key := by
    obtain ⟨session, selector⟩ := key
    obtain ⟨cohort, distinguisher, identifier⟩ := selector
    obtain ⟨rfl, rfl, rfl⟩ := beside
    have cohort := filed.cohort
    subst cohort
    rfl
  refine ⟨mem_filter.mpr ⟨mem_map.mpr ⟨state.familyMask, ?_, rfl⟩, by rw [same, held]; rfl⟩, same⟩
  simpa using small_mask filed.small

theorem retireMatchingCohorts_apart (sound : Sound w.streams)
    (left : (w.retireMatchingCohorts peer mask true).streams.sessions.lookup key = some state)
    (beside : StreamKey.Beside peer.key key) : mask &&& state.familyMask = 0 := by
  obtain ⟨held, asked⟩ := retireMatching_left (fun selected mem => sound.peers_named mem) left
  obtain ⟨mem, same⟩ := sound.mem_peers held beside
  exact asked _ mem same

theorem dispatchCohort_moves
    (named : selected.selector.cohort ≠ 0) :
    Moves turn.1 (dispatchCohort fails message mask turn selected).1 := by
  unfold dispatchCohort
  rw [get_of_cohort named]
  split
  · exact .refl
  rename_i state held
  split
  · exact .refl
  split
  · exact .refl
  · rename_i live
    exact .single (.send fails selected message state held (by simpa using live))

theorem dispatchRoutingCohorts_moves (sound : Sound w.streams) (fails : Nat → Bool) (peer : PeerEvidence)
    (lost : Bool) (message : RoutingMessage) : Moves w (w.dispatchRoutingCohorts fails peer lost message) := by
  unfold dispatchRoutingCohorts
  dsimp only
  split
  · exact .refl
  split
  · exact retireMatchingCohorts_moves sound peer 0 false
  split
  · exact retireMatchingCohorts_moves sound peer 0 false
  rename_i mask _
  have given := Moves.foldl Prod.fst (f := dispatchCohort fails message mask) (l := w.streams.peers peer) (s := (w, false)) sound
    fun _ _ mem _ => dispatchCohort_moves (sound.peers_named mem)
  split
  · exact given
  · exact given.trans (retireMatchingCohorts_moves (sound.moves given) peer 0 false)

theorem retireLostRoutingStreams_moves (sound : Sound w.streams) (order : List StreamKey)
    (lost : StreamKey → Bool) (now : Int) : Moves w (w.retireLostRoutingStreams order lost now) := by
  refine Moves.foldl id sound fun w key _ sound => ?_
  unfold retireLostRoutingStream
  split
  · exact .refl
  rename_i state held
  split
  · exact .refl
  · have source := (sound.filed key state held).source
    exact .single (.retire _ state (by rw [PeerEvidence.key] at source ⊢; rw [source]; exact held))

theorem mem_visited {keys : List StreamKey} (mem : key ∈ visited order keys) : key ∈ keys := by
  rcases mem_append.mp mem with mem | mem
  · simpa using (mem_filter.mp mem).2
  · exact (mem_filter.mp mem).1

theorem endRoutingStreams_moves (sound : Sound w.streams) (peer : PeerEvidence) (order : List StreamKey) :
    Moves w (w.endRoutingStreams peer order) := by
  refine Moves.foldl id sound fun w key mem _ => ?_
  obtain ⟨session, selector⟩ := key
  have own : session = peer.session := by
    simpa using (mem_filter.mp (mem_visited mem)).2
  unfold endRoutingStream
  split
  · exact .refl
  · rename_i state held
    subst own
    exact .single (.drop _ state held)

variable {generation : Bytes}

theorem receiptView_some {next : UInt8} (small : mask ≤ 3)
    (read : receiptView generation mask view = some next) : next ≠ 0 ∧ next ≤ 3 := by
  unfold receiptView at read
  split at read
  · cases read
  rename_i view
  obtain ⟨known, read⟩ := Run.guard_some read
  obtain ⟨-, read⟩ := Run.guard_some read
  cases read
  have family : view.afi = 1 ∨ view.afi = 2 := by
    omega
  obtain first | second := family
  · rw [first]
    obtain rfl | rfl | rfl | rfl := small_mask small <;> decide
  · rw [second]
    obtain rfl | rfl | rfl | rfl := small_mask small <;> decide

theorem routingReceiptFamilyMask_some
    (read : routingReceiptFamilyMask receipt generation = some mask) : mask ≠ 0 ∧ mask ≤ 3 := by
  unfold routingReceiptFamilyMask at read
  split at read
  · cases read
  rename_i receipt
  obtain ⟨known, read⟩ := Run.guard_some read
  have rest : ∀ (views : List (Option StagingView)) start, start ≠ 0 ∧ start ≤ 3 →
      views.foldlM (receiptView generation) start = some mask → mask ≠ 0 ∧ mask ≤ 3 := by
    intro views
    induction views with
    | nil =>
      intro start small done
      cases done
      exact small
    | cons view views ih =>
      intro start small done
      obtain ⟨next, first, done⟩ := bind_eq_some_iff.mp done
      exact ih next (receiptView_some small.2 first) done
  cases views : receipt.views with
  | nil => simp [views] at known
  | cons view views' =>
    rw [views] at read
    obtain ⟨next, first, done⟩ := bind_eq_some_iff.mp read
    exact rest views' next (receiptView_some (by decide) first) done

theorem finishStaging_moves (sound : Sound w.streams) (generation : Bytes) (reply : Worker.StagingReply)
    (held : ∀ old, previous = some old → w.streams.sessions.lookup selected.key = some old)
    (admitted : (w.streams.admission selected (stagingAttempt selected generation previous)).isSome) :
    ∃ between, Moves w between ∧
      (w.finishStaging peer selected previous (stagingAttempt selected generation previous) reply = between ∨
        Staged generation between
          (w.finishStaging peer selected previous (stagingAttempt selected generation previous) reply)) := by
  have own : (stagingAttempt selected generation previous).generation = generation := by
    cases previous <;> rfl
  unfold finishStaging
  rw [own]
  split
  · split
    · rename_i old
      exact ⟨w, .refl, .inr (.replace selected old (held old rfl) admitted)⟩
    · exact ⟨_, retireMatchingCohorts_moves sound peer 0 false, .inr (.reset selected _ 0)⟩
  rename_i mask valid
  have mask_ok : mask ≠ 0 ∧ mask ≤ 3 := by
    split at valid
    · cases valid
    · exact routingReceiptFamilyMask_some valid
  split
  · exact ⟨w, .refl, .inl rfl⟩
  refine ⟨_, retireMatchingCohorts_moves sound peer mask true, .inr ?_⟩
  dsimp only
  split
  · rename_i streams put
    refine .install (peer.withCohort mask) _ streams ⟨mask_ok.1, mask_ok.2, rfl, rfl⟩ rfl ?_ put
    exact fun key beside left near => retireMatchingCohorts_apart sound left near
  · exact .reset _ _ mask

theorem stageRoutingCohort_moves (sound : Sound w.streams) (stager : Bool) (peer : PeerEvidence) (lost : Bool)
    (generation : Bytes) (reply : Worker.StagingReply) :
    ∃ between, Moves w between ∧ (w.stageRoutingCohort stager peer lost generation reply = between ∨
      Staged generation between (w.stageRoutingCohort stager peer lost generation reply)) := by
  have retireAll := retireMatchingCohorts_moves sound peer 0 false
  unfold stageRoutingCohort
  split
  · exact ⟨_, retireAll, .inl rfl⟩
  cases resolved : w.streams.resolve peer with
  | mk selected previous =>
    have held : ∀ old, previous = some old → w.streams.sessions.lookup selected.key = some old := by
      rintro old rfl
      exact (resolve_some resolved).2
    dsimp only
    split
    · exact ⟨_, retireAll, .inl rfl⟩
    · rename_i admitted
      exact finishStaging_moves sound generation reply held (by rw [admitted]; rfl)

variable (cfg : StreamConfig) (events : List StreamEvent)

theorem step_moves (sound : Sound w.streams) (event : StreamEvent) :
    ∃ between, Moves w between ∧ (w.step cfg event = between ∨
      ∃ peer lost generation reply, event = .peerUp peer lost generation reply ∧
        Staged generation between (w.step cfg event)) := by
  cases event with
  | peerUp peer lost generation reply =>
    unfold step
    dsimp only
    split
    · exact ⟨w, .refl, .inl rfl⟩
    obtain ⟨between, moves, same | staged⟩ := stageRoutingCohort_moves sound cfg.stager peer lost generation reply
    · exact ⟨between, moves, .inl same⟩
    · exact ⟨between, moves, .inr ⟨peer, lost, generation, reply, rfl, staged⟩⟩
  | message peer lost message =>
    unfold step
    dsimp only
    split
    · exact ⟨w, .refl, .inl rfl⟩
    · exact ⟨_, dispatchRoutingCohorts_moves sound cfg.fails peer lost message, .inl rfl⟩
  | sessionEnd peer order =>
    unfold step
    dsimp only
    split
    · exact ⟨w, .refl, .inl rfl⟩
    · exact ⟨_, endRoutingStreams_moves sound peer order, .inl rfl⟩
  | lossWake order lost now => exact ⟨_, retireLostRoutingStreams_moves sound order lost now, .inl rfl⟩

theorem Sound.step (sound : Sound w.streams) (event : StreamEvent) : Sound (w.step cfg event).streams := by
  obtain ⟨between, moves, same | ⟨_, _, _, _, -, staged⟩⟩ := step_moves cfg sound event
  · rw [same]
    exact sound.moves moves
  · exact (sound.moves moves).staged staged

theorem runs_snoc (event : StreamEvent) :
    runs cfg (events ++ [event]) = (runs cfg events).step cfg event := by
  rw [runs, foldl_append]
  rfl

theorem sound_runs : Sound (runs cfg events).streams := by
  induction events using reverseRecOn with
  | nil => exact sound_new cfg.positive
  | append_singleton events event ih =>
    rw [runs_snoc]
    exact ih.step cfg event

end Probectl.Bgp
