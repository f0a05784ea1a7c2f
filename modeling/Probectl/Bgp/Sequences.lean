import Probectl.Bgp.Book
import Probectl.Lib.Lanes

/-! Every generation is a lane of the worker's log: its messages are numbered
without a gap, and nothing but resets follows a reset. -/
namespace Probectl.Bgp

open Lanes List RoutingStreams RoutingMessage Worker

abbrev generationLog (log : List RoutingMessage) (generation : Bytes) : List RoutingMessage :=
  of RoutingMessage.generation log generation

abbrev InOrder : List RoutingMessage → Prop :=
  Ordered generation sequence sourceReset

def StreamState.Refers (state : StreamState) (generation : Bytes) : Prop :=
  generation ≠ [] ∧ (generation = state.generation ∨ generation = state.previous)

structure Counts (log : List RoutingMessage) (state : StreamState) : Prop where
  named : state.generation ≠ []
  apart : state.previous ≠ state.generation
  counted : (generationLog log state.generation).length = state.sequence
  countedPrevious : state.previous ≠ [] → (generationLog log state.previous).length = state.previousSequence

structure Tracks (log : List RoutingMessage) (state : StreamState) : Prop extends Counts log state where
  single : state.failed = false → state.previous = []
  unreset : state.failed = false → ∀ m ∈ generationLog log state.generation, m.sourceReset = false

structure Grows (lanes : Bytes → Prop) (log log' : List RoutingMessage) : Prop where
  others : ∀ generation, ¬ lanes generation → generationLog log' generation = generationLog log generation
  new : ∀ m ∈ log', m ∈ log ∨ lanes m.generation

namespace Grows

variable {lanes : Bytes → Prop} {log log' log'' : List RoutingMessage}

theorem refl : Grows lanes log log := ⟨fun _ _ => rfl, fun _ mem => .inl mem⟩

theorem trans (first : Grows lanes log log') (second : Grows lanes log' log'') : Grows lanes log log'' := by
  refine ⟨fun generation other => (second.others _ other).trans (first.others _ other), fun m mem => ?_⟩
  rcases second.new m mem with mem | lane
  · exact first.new m mem
  · exact .inr lane

theorem mono (grows : Grows lanes log log') (wider : ∀ generation, lanes generation → more generation) :
    Grows more log log' :=
  ⟨fun generation other => grows.others generation (fun lane => other (wider generation lane)),
    fun m mem => (grows.new m mem).imp_right (wider m.generation)⟩

theorem snoc (lane : lanes m.generation) : Grows lanes log (log ++ [m]) := by
  refine ⟨fun generation other => of_snoc_other log ?_, fun m' mem => ?_⟩
  · rintro rfl
    exact other lane
  rcases mem_append.mp mem with mem | mem
  · exact .inl mem
  · rw [mem_singleton.mp mem]
    exact .inr lane

end Grows

variable {log : List RoutingMessage} {lanes : Bytes → Prop} {state : StreamState}

theorem Tracks.frame (tracks : Tracks log state)
    (grows : Grows lanes log log') (other : ∀ generation, state.Refers generation → ¬ lanes generation) :
    Tracks log' state := by
  have own := grows.others _ (other state.generation ⟨tracks.named, .inl rfl⟩)
  refine ⟨⟨tracks.named, tracks.apart, ?_, fun some => ?_⟩, tracks.single, fun live => ?_⟩
  · rw [own]
    exact tracks.counted
  · rw [grows.others _ (other state.previous ⟨some, .inr rfl⟩)]
    exact tracks.countedPrevious some
  · rw [own]
    exact tracks.unreset live

variable {generation : Bytes}

theorem resetGeneration_spec (peer : PeerEvidence) (ordered : InOrder log)
    {sequence : Nat} (counted : generation ≠ [] → (generationLog log generation).length = sequence) :
    InOrder (resetGeneration peer log generation sequence).1 ∧
      (generation ≠ [] → (generationLog (resetGeneration peer log generation sequence).1 generation).length =
        (resetGeneration peer log generation sequence).2) ∧
      Grows (fun lane => lane ≠ [] ∧ lane = generation) log (resetGeneration peer log generation sequence).1 := by
  unfold resetGeneration
  split
  · exact ⟨ordered, counted, .refl⟩
  rename_i sent
  simp only [not_or] at sent
  have length := counted sent.1
  refine ⟨ordered.snoc (by dsimp only; rw [length]) (.inl rfl), fun _ => ?_, .snoc ⟨sent.1, rfl⟩⟩
  rw [length_snoc log rfl, length]

theorem retireRoutingStream_spec (peer : PeerEvidence) (ordered : InOrder log) (counts : Counts log state) :
    InOrder (retireRoutingStream peer log state).1 ∧
      Tracks (retireRoutingStream peer log state).1 (retireRoutingStream peer log state).2 ∧
      Grows state.Refers log (retireRoutingStream peer log state).1 := by
  unfold retireRoutingStream
  rw [if_pos counts.apart]
  obtain ⟨ordered, previous, grows⟩ := resetGeneration_spec peer ordered counts.countedPrevious
  generalize resetGeneration peer log state.previous state.previousSequence = first at ordered previous grows
  have own : (generationLog first.1 state.generation).length = state.sequence := by
    rw [grows.others _ (fun lane => counts.apart lane.2.symm)]
    exact counts.counted
  obtain ⟨ordered, generation, later⟩ := resetGeneration_spec peer ordered (fun _ => own)
  refine ⟨ordered, ⟨⟨counts.named, counts.apart, generation counts.named, fun some => ?_⟩, ?_, ?_⟩, ?_⟩
  · rw [later.others _ (fun lane => counts.apart lane.2)]
    exact previous some
  · exact fun live => by cases live
  · exact fun live => by cases live
  · have older : ∀ lane, lane ≠ [] ∧ lane = state.previous → state.Refers lane := fun lane here => ⟨here.1, .inr here.2⟩
    have newer : ∀ lane, lane ≠ [] ∧ lane = state.generation → state.Refers lane := fun lane here => ⟨here.1, .inl here.2⟩
    exact (grows.mono older).trans (later.mono newer)

/-- Streams share no generation, and a nonce that has not been issued is in no
stream and on no message. -/
structure Inv (issued : Bytes → Prop) (w : Worker) : Prop where
  sound : Sound w.streams
  ordered : InOrder w.log
  logged : ∀ m ∈ w.log, issued m.generation
  tracks : ∀ key state, w.streams.sessions.lookup key = some state → Tracks w.log state
  known : ∀ key state, w.streams.sessions.lookup key = some state → ∀ generation, state.Refers generation → issued generation
  separate : ∀ key other state state', w.streams.sessions.lookup key = some state →
    w.streams.sessions.lookup other = some state' → key ≠ other → ∀ generation, state.Refers generation →
    ¬ state'.Refers generation

namespace Inv

variable {issued later : Bytes → Prop} {w u : Worker} {peer : PeerEvidence} {state old : StreamState}

def Own (w : Worker) (key : StreamKey) (lanes : Bytes → Prop) : Prop :=
  ∀ other state, other ≠ key → w.streams.sessions.lookup other = some state → ∀ generation, state.Refers generation →
    ¬ lanes generation

variable {key : StreamKey}

section
variable (inv : Inv issued w)
include inv

theorem own (held : w.streams.sessions.lookup key = some state) : Own w key state.Refers :=
  fun other state' ne held' generation refers' refers => inv.separate other key state' state held' held ne generation refers' refers

theorem write {streams : RoutingStreams}
    (sound : Sound streams) (sessions : streams.sessions = w.streams.sessions.insert key state)
    (ordered : InOrder log) (tracks : Tracks log state) (grows : Grows lanes w.log log) (own : Own w key lanes)
    (refers : ∀ generation, state.Refers generation → lanes generation) (wider : ∀ generation, issued generation → later generation)
    (known : ∀ generation, lanes generation → later generation) : Inv later ⟨streams, log⟩ := by
  refine ⟨sound, ordered, fun m mem => ?_, fun other found entry => ?_, fun other found entry generation refer => ?_, ?_⟩
  · rcases grows.new m mem with mem | lane
    · exact wider _ (inv.logged m mem)
    · exact known _ lane
  · obtain ⟨rfl, rfl⟩ | ⟨ne, entry⟩ := lookup_inserted sessions entry
    · exact tracks
    · exact (inv.tracks other found entry).frame grows (own other found ne entry)
  · obtain ⟨rfl, rfl⟩ | ⟨ne, entry⟩ := lookup_inserted sessions entry
    · exact known _ (refers _ refer)
    · exact wider _ (inv.known other found entry generation refer)
  · intro here there found found' entry entry' ne generation refer refer'
    obtain ⟨rfl, rfl⟩ | ⟨neHere, entry⟩ := lookup_inserted sessions entry
    · obtain ⟨rfl, -⟩ | ⟨neThere, entry'⟩ := lookup_inserted sessions entry'
      · exact ne rfl
      · exact own there found' neThere entry' generation refer' (refers _ refer)
    · obtain ⟨rfl, rfl⟩ | ⟨neThere, entry'⟩ := lookup_inserted sessions entry'
      · exact own here found neHere entry generation refer (refers _ refer')
      · exact inv.separate here there found found' entry entry' ne generation refer refer'

section
variable (held : w.streams.sessions.lookup peer.key = some old)
include held

theorem erase (ordered : InOrder log) (grows : Grows lanes w.log log)
    (own : Own w peer.key lanes) (known : ∀ generation, lanes generation → issued generation) :
    Inv issued ⟨w.streams.remove peer, log⟩ := by
  have sessions : (w.streams.remove peer).sessions = w.streams.sessions.erase peer.key := by
    rw [remove_held held]
  have lookup : ∀ other found, (w.streams.remove peer).sessions.lookup other = some found →
      w.streams.sessions.lookup other = some found ∧ other ≠ peer.key := by
    intro other found entry
    rw [sessions] at entry
    exact Sound.lookup_erase entry
  refine ⟨inv.sound.remove held, ordered, fun m mem => ?_, fun other found entry => ?_, fun other found entry => ?_, ?_⟩
  · rcases grows.new m mem with mem | lane
    · exact inv.logged m mem
    · exact known _ lane
  · obtain ⟨entry, ne⟩ := lookup other found entry
    exact (inv.tracks other found entry).frame grows (own other found ne entry)
  · exact inv.known other found (lookup other found entry).1
  · intro here there found found' entry entry'
    exact inv.separate here there found found' (lookup here found entry).1 (lookup there found' entry').1

theorem writeBack
    (charge : bmpRoutingStateCharge state = bmpRoutingStateCharge old) (mask : state.familyMask = old.familyMask)
    (source : state.source = old.source) (refers : ∀ generation, state.Refers generation → old.Refers generation)
    (ordered : InOrder log) (tracks : Tracks log state) (grows : Grows old.Refers w.log log) :
    Inv issued ⟨w.streams.tryPut peer state, log⟩ := by
  obtain ⟨after, put, written⟩ := inv.sound.tryPut_held held charge
  have sound := inv.sound.writeBack held charge mask source
  rw [written] at sound ⊢
  exact inv.write sound (put_some put).1 ordered tracks grows (inv.own held) refers (fun _ => id)
    (inv.known _ _ held)

theorem retire
    (charge : bmpRoutingStateCharge state = bmpRoutingStateCharge old) (mask : state.familyMask = old.familyMask)
    (source : state.source = old.source) (refers : ∀ generation, state.Refers generation → old.Refers generation)
    (ordered : InOrder log) (counts : Counts log state) (grows : Grows old.Refers w.log log) :
    Inv issued (retire ⟨w.streams, log⟩ peer state) := by
  obtain ⟨ordered, tracks, more⟩ := retireRoutingStream_spec peer ordered counts
  exact inv.writeBack held charge mask source refers ordered tracks (grows.trans (more.mono refers))

end

theorem send (held : w.streams.sessions.lookup peer.key = some state) (live : state.failed = false)
    (fails : Nat → Bool) (message : RoutingMessage) : Inv issued (w.sendRoutingCohortMessage fails peer message state) := by
  have tracks := inv.tracks _ _ held
  unfold sendRoutingCohortMessage
  rw [if_neg tracks.named]
  split
  · exact inv.retire held rfl rfl rfl (fun _ => id) inv.ordered tracks.toCounts .refl
  dsimp only
  generalize sentEq : ({ message with
    configuredRef := peer.routerAgentID, originSerial := peer.routerSerial, generation := state.generation,
    sequence := state.sequence + 1 } : RoutingMessage) = sent
  have lane : sent.generation = state.generation := by rw [← sentEq]
  have number : sent.sequence = state.sequence + 1 := by rw [← sentEq]
  have kind : sent.sourceReset = message.sourceReset := by rw [← sentEq]
  have ordered : InOrder (w.log ++ [sent]) := by
    refine inv.ordered.snoc ?_ (.inr ?_)
    · rw [number, lane, tracks.counted]
    · rw [lane]
      exact tracks.unreset live
  have grows : Grows state.Refers w.log (w.log ++ [sent]) := .snoc ⟨lane ▸ tracks.named, .inl lane⟩
  have counted : (generationLog (w.log ++ [sent]) state.generation).length = state.sequence + 1 := by
    rw [length_snoc w.log lane, tracks.counted]
  have counts : Counts (w.log ++ [sent]) { state with sequence := state.sequence + 1 } :=
    ⟨tracks.named, tracks.apart, counted, absurd (tracks.single live)⟩
  split
  · exact inv.retire held rfl rfl rfl (fun _ => id) ordered counts grows
  split
  · exact inv.erase held ordered grows (inv.own held) (inv.known _ _ held)
  rename_i plain
  refine inv.writeBack held rfl rfl rfl (fun _ => id) ordered ⟨counts, tracks.single, fun _ m mem => ?_⟩ grows
  rcases mem_snoc mem with mem | rfl
  · exact tracks.unreset live m mem
  · rw [kind]
    simpa using plain

theorem move (move : Move w u) : Inv issued u := by
  cases move with
  | retire peer state held => exact inv.retire held rfl rfl rfl (fun _ => id) inv.ordered (inv.tracks _ _ held).toCounts .refl
  | rewrite peer state held =>
    exact inv.writeBack held rfl rfl rfl (fun _ => id) inv.ordered (inv.tracks _ _ held) .refl
  | drop peer state held =>
    obtain ⟨ordered, -, grows⟩ := retireRoutingStream_spec peer inv.ordered (inv.tracks _ _ held).toCounts
    exact inv.erase held ordered grows (inv.own held) (inv.known _ _ held)
  | forget peer state held => exact inv.erase held inv.ordered .refl (inv.own held) (inv.known _ _ held)
  | send fails peer message state held live => exact inv.send held live fails message

theorem moves (moves : Moves w u) : Inv issued u := by
  induction moves with
  | refl => exact inv
  | tail _ last ih => exact ih.move last

end

variable {fresh : Bytes}

theorem unissued (inv : Inv issued w) (new : ¬ issued fresh) : generationLog w.log fresh = [] := by
  apply filter_eq_nil_iff.mpr
  intro m mem same
  exact new (of_decide_eq_true same ▸ inv.logged m mem)

theorem own_fresh (inv : Inv issued w) (new : ¬ issued fresh) (key : StreamKey) : Own w key (· = fresh) := by
  rintro other state - held generation refers rfl
  exact new (inv.known other state held generation refers)

theorem counts_fresh (inv : Inv issued w) (nonempty : fresh ≠ []) (new : ¬ issued fresh) (mask : UInt8)
    (source : PeerEvidence) : Counts w.log ⟨mask, source, fresh, [], 0, 0, false⟩ :=
  ⟨nonempty, Ne.symm nonempty, by rw [inv.unissued new]; rfl, absurd rfl⟩

theorem refers_fresh
    (refers : StreamState.Refers ⟨mask, source, fresh, [], 0, 0, false⟩ generation) : generation = fresh := by
  obtain ⟨some, rfl | none⟩ := refers
  · rfl
  · exact absurd none some

theorem replace (inv : Inv issued w) (nonempty : fresh ≠ []) (new : ¬ issued fresh)
    (held : w.streams.sessions.lookup peer.key = some old)
    (admitted : (w.streams.admission peer
      ⟨old.familyMask, routingCohortSource peer, fresh, old.generation, 0, old.sequence, false⟩).isSome) :
    Inv (fun generation => issued generation ∨ generation = fresh)
      (w.retire peer ⟨old.familyMask, routingCohortSource peer, fresh, old.generation, 0, old.sequence, false⟩) := by
  have tracks := inv.tracks _ _ held
  have counts : Counts w.log
      ⟨old.familyMask, routingCohortSource peer, fresh, old.generation, 0, old.sequence, false⟩ := by
    refine ⟨nonempty, fun same => ?_, by rw [inv.unissued new]; rfl, fun _ => tracks.counted⟩
    have same : old.generation = fresh := same
    exact new (same ▸ inv.known _ _ held _ ⟨tracks.named, .inl rfl⟩)
  obtain ⟨ordered, retired, grows⟩ := retireRoutingStream_spec peer inv.ordered counts
  have sound := inv.sound.staged (.replace peer old held admitted)
  obtain ⟨after, put⟩ := put_isSome (retired_charge peer w.log _) admitted
  have written : w.streams.tryPut peer (retireRoutingStream peer w.log
      ⟨old.familyMask, routingCohortSource peer, fresh, old.generation, 0, old.sequence, false⟩).2 = after := by
    rw [RoutingStreams.tryPut, put]
    rfl
  rw [Worker.retire] at sound ⊢
  rw [written] at sound ⊢
  refine inv.write sound (put_some put).1 ordered retired grows ?_ (fun _ => id) (fun _ => .inl) ?_
  · rintro other state ne held' generation refers ⟨-, rfl | rfl⟩
    · exact inv.own_fresh new peer.key other state ne held' generation refers rfl
    · exact inv.own held other state ne held' _ refers ⟨tracks.named, .inl rfl⟩
  · rintro generation ⟨-, rfl | rfl⟩
    · exact .inr rfl
    · exact .inl (inv.known _ _ held _ ⟨tracks.named, .inl rfl⟩)

theorem reset (inv : Inv issued w) (nonempty : fresh ≠ []) (new : ¬ issued fresh)
    (peer source : PeerEvidence) (mask : UInt8) :
    Inv (fun generation => issued generation ∨ generation = fresh)
      { w with log := (retireRoutingStream peer w.log ⟨mask, source, fresh, [], 0, 0, false⟩).1 } := by
  obtain ⟨ordered, -, grows⟩ := retireRoutingStream_spec peer inv.ordered (inv.counts_fresh nonempty new mask source)
  have grows := grows.mono fun _ => refers_fresh
  refine ⟨inv.sound, ordered, fun m mem => ?_, fun key state held => ?_, fun key state held g refers =>
    .inl (inv.known key state held g refers), inv.separate⟩
  · exact (grows.new m mem).imp_left (inv.logged m)
  · refine (inv.tracks key state held).frame grows ?_
    rintro g refers rfl
    exact new (inv.known key state held g refers)

theorem staged (inv : Inv issued w) (nonempty : fresh ≠ []) (new : ¬ issued fresh) (staged : Staged fresh w u) :
    Inv (fun generation => issued generation ∨ generation = fresh) u := by
  cases staged with
  | replace peer old held admitted => exact inv.replace nonempty new held admitted
  | reset peer source mask => exact inv.reset nonempty new peer source mask
  | install peer state streams filed state_eq apart put =>
    have only generation (refers : state.Refers generation) : generation = fresh :=
      refers_fresh (state_eq ▸ refers)
    have tracks : Tracks w.log state := by
      rw [state_eq]
      refine ⟨inv.counts_fresh nonempty new state.familyMask state.source, fun _ => rfl, fun _ m mem => ?_⟩
      rw [inv.unissued new] at mem
      cases mem
    have sound := inv.sound.install filed (fun key beside held _ => apart key beside held) put
    exact inv.write sound (put_some put).1 inv.ordered tracks .refl
      (inv.own_fresh new peer.key) only (fun _ => .inl) (fun _ => .inr)

end Inv

def nonces (events : List StreamEvent) : List Bytes :=
  events.filterMap fun
    | .peerUp _ _ generation _ => some generation
    | _ => none

theorem Inv.step (inv : Inv issued w) (cfg : StreamConfig) (event : StreamEvent)
    (fresh : ∀ generation ∈ nonces [event], generation ≠ [] ∧ ¬ issued generation) :
    Inv (fun generation => issued generation ∨ generation ∈ nonces [event]) (w.step cfg event) := by
  have wider {u : Worker} (inv : Inv issued u) : Inv (fun generation => issued generation ∨ generation ∈ nonces [event]) u :=
    { inv with logged := fun m mem => .inl (inv.logged m mem), known := fun key state held generation refers => .inl (inv.known key state held generation refers) }
  obtain ⟨between, moves, same | ⟨peer, lost, generation, reply, rfl, staged⟩⟩ := step_moves cfg inv.sound event
  · rw [same]
    exact wider (inv.moves moves)
  · obtain ⟨nonempty, new⟩ := fresh generation (by simp [nonces])
    simpa [nonces] using (inv.moves moves).staged nonempty new staged

theorem inv_runs (cfg : StreamConfig) (events : List StreamEvent) (distinct : (nonces events).Nodup)
    (nonempty : [] ∉ nonces events) : Inv (· ∈ nonces events) (runs cfg events) := by
  induction events using reverseRecOn with
  | nil =>
    refine ⟨sound_new cfg.positive, ordered_nil, fun m mem => ?_, fun key state held => ?_, fun key state held => ?_,
      fun key other state state' held => ?_⟩
    · cases mem
    all_goals cases held
  | append_singleton events event ih =>
    have split : nonces (events ++ [event]) = nonces events ++ nonces [event] := filterMap_append
    rw [split] at distinct nonempty
    obtain ⟨distinct, -, apart⟩ := nodup_append.mp distinct
    simp only [mem_append, not_or] at nonempty
    have before := ih distinct nonempty.1
    have after := before.step cfg event (fun generation mem =>
      ⟨fun empty => nonempty.2 (empty ▸ mem), fun issued => apart generation issued generation mem rfl⟩)
    rw [runs_snoc, split]
    simpa only [mem_append] using after

/-- Whatever peers, writer and stager do, the messages of a generation carry 1, 2,
3 and so on, and only resets follow a reset. Peer Up messages carry nonces that
are not empty and never repeat. -/
theorem generations_in_order (cfg : StreamConfig) (events : List StreamEvent) (distinct : (nonces events).Nodup)
    (nonempty : [] ∉ nonces events) (generation : Bytes) :
    let submitted := (Worker.runs cfg events).log.filter (fun m => m.generation = generation)
    submitted.map (·.sequence) = range' 1 submitted.length ∧
      submitted.Pairwise (fun earlier later => earlier.sourceReset = true → later.sourceReset = true) := by
  have ordered := (inv_runs cfg events distinct nonempty).ordered
  exact ⟨ordered.numbered generation, ordered.closed generation⟩

/-- A stream that is staged, takes a heartbeat that the writer refuses, and ends. -/
theorem generations_in_order_refused :
    let cfg : StreamConfig := ⟨[7], 4096, by decide, true, fun n => n = 0⟩
    let peer : PeerEvidence := ⟨⟨0, [], []⟩, true, 5, [7], [8], [9], 0⟩
    let beat : RoutingMessage := ⟨true, false, [], 0, [], [], [], 0⟩
    let events := [.peerUp peer false [1] ⟨some ⟨.staged, [some ⟨[1], 1, 1⟩]⟩, false⟩, .message peer false beat,
      .sessionEnd peer []]
    (nonces events).Nodup ∧ [] ∉ nonces events ∧
      ((Worker.runs cfg events).log.filter (fun m => m.generation = [1])).map (fun m => (m.sequence, m.sourceReset)) =
        [(1, false), (2, true), (3, true)] ∧
      (let submitted := (Worker.runs cfg events).log.filter (fun m => m.generation = [1])
       submitted.map (·.sequence) = range' 1 submitted.length ∧
        submitted.Pairwise (fun earlier later => earlier.sourceReset = true → later.sourceReset = true)) :=
  ⟨by decide, by decide, by decide +kernel, generations_in_order _ _ (by decide) (by decide) [1]⟩

end Probectl.Bgp
