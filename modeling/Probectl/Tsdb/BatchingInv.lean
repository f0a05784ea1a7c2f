import Probectl.Tsdb.Batching

/-! Where a series is: waiting in the open batch, with the flusher, or in exactly
one underlying write. -/
namespace Probectl.Tsdb.BatchingWriter

open List Option Nat

variable {ε : Type}

def written (s : BatchingWriter ε) : List Item := s.writes.flatMap Underlying.items

def inFlight (s : BatchingWriter ε) : List Item := (s.flushing.map Flushing.items).getD []

def held (s : BatchingWriter ε) : List Item := s.written ++ (s.inFlight ++ s.pending)

def ids (s : BatchingWriter ε) : List Nat :=
  s.writes.map Underlying.batch ++ ((s.flushing.map Flushing.batch).toList ++ s.batch.toList)

inductive Located (s : BatchingWriter ε) (b : Nat) (it : Item) : Prop where
  | pending (here : s.batch = some b) (mem : it ∈ s.pending)
  | flushing (f : Flushing) (here : s.flushing = some f) (same : f.batch = b) (mem : it ∈ f.items)
  | written (w : Underlying ε) (here : w ∈ s.writes) (same : w.batch = b) (mem : it ∈ w.items)

def Written (s : BatchingWriter ε) (i : Nat) (c : Call ε) (n : Nat) : Prop :=
  ∀ pos x, pos < n → c.series[pos]? = some x → ⟨i, pos, x⟩ ∈ s.written

def Joined (s : BatchingWriter ε) (i : Nat) (c : Call ε) (b lo : Nat) : Prop :=
  lo < c.taken ∧ Written s i c lo ∧
    ∀ pos x, lo ≤ pos → pos < c.taken → c.series[pos]? = some x → Located s b ⟨i, pos, x⟩

def Reports (s : BatchingWriter ε) (i : Nat) (c : Call ε) (e : ε) : Prop :=
  ∃ w ∈ s.writes, ∃ lo hi, lo < hi ∧ hi ≤ c.series.length ∧
    (∀ pos x, lo ≤ pos → pos < hi → c.series[pos]? = some x → ⟨i, pos, x⟩ ∈ w.items) ∧
    w.result.resultFor ((c.series.take hi).drop lo) = some e

def PhaseInv (s : BatchingWriter ε) (i : Nat) (c : Call ε) : Phase ε → Prop
  | .joining => c.taken < c.series.length ∧ Written s i c c.taken
  | .retrying => c.taken < c.series.length ∧ Written s i c c.taken
  | .filled b lo => Joined s i c b lo
  | .waiting b lo => Joined s i c b lo
  | .returned .ok => Written s i c c.series.length
  | .returned (.failed e) => Reports s i c e
  | .returned _ => True

structure Inv (s : BatchingWriter ε) : Prop where
  pending_le : s.pending.length ≤ s.maxSeries
  inFlight_le : s.inFlight.length ≤ s.maxSeries
  writes_le : ∀ w ∈ s.writes, w.items.length ≤ s.maxSeries
  idle : s.batch = none → s.pending = []
  ids_nodup : s.ids.Nodup
  ids_lt : ∀ b ∈ s.ids, b < s.batches
  nodup : s.held.Nodup
  taken : ∀ it ∈ s.held, ∃ c, s.calls[it.call]? = some c ∧ it.pos < c.taken
  taken_le : ∀ (i : Nat) (c : Call ε), s.calls[i]? = some c → c.taken ≤ c.series.length
  calls : ∀ (i : Nat) (c : Call ε), s.calls[i]? = some c → PhaseInv s i c c.phase

theorem inv_initial (maxSeries : Int) : Inv (newBatchingWriter ε maxSeries) where
  pending_le := zero_le _
  inFlight_le := zero_le _
  writes_le := by simp [newBatchingWriter]
  idle := fun _ => rfl
  ids_nodup := nodup_nil
  ids_lt := nofun
  nodup := nodup_nil
  taken := nofun
  taken_le := by simp [newBatchingWriter]
  calls := by simp [newBatchingWriter]

structure Grows (s t : BatchingWriter ε) : Prop where
  writes : ∀ w ∈ s.writes, w ∈ t.writes
  located : ∀ b it, Located s b it → Located t b it

variable {t : BatchingWriter ε}

theorem Grows.same (batch : t.batch = s.batch) (pending : t.pending = s.pending)
    (flushing : t.flushing = s.flushing) (writes : t.writes = s.writes) : Grows s t where
  writes := fun w mem => writes ▸ mem
  located := by
    intro b it located
    cases located with
    | pending here mem => exact .pending (batch ▸ here) (pending ▸ mem)
    | flushing f here same mem => exact .flushing f (flushing ▸ here) same mem
    | written w here same mem => exact .written w (writes ▸ here) same mem

variable {it : Item}

theorem Grows.written (grows : Grows s t) (mem : it ∈ s.written) : it ∈ t.written := by
  obtain ⟨w, here, inside⟩ := mem_flatMap.mp mem
  exact mem_flatMap.mpr ⟨w, grows.writes w here, inside⟩

variable {i b lo : Nat} {c : Call ε}

theorem Grows.joined (grows : Grows s t) (joined : Joined s i c b lo) : Joined t i c b lo := by
  obtain ⟨some, before, located⟩ := joined
  exact ⟨some, fun pos x less found => grows.written (before pos x less found),
    fun pos x from_ less found => grows.located b _ (located pos x from_ less found)⟩

variable {p : Phase ε}

theorem PhaseInv.grows (grows : Grows s t) (inv : PhaseInv s i c p) : PhaseInv t i c p := by
  cases p with
  | joining | retrying => exact ⟨inv.1, fun pos x less found => grows.written (inv.2 pos x less found)⟩
  | filled b lo | waiting b lo => exact grows.joined inv
  | returned r =>
    cases r with
    | ok => exact fun pos x less found => grows.written (inv pos x less found)
    | failed e =>
      obtain ⟨w, here, rest⟩ := inv
      exact ⟨w, grows.writes w here, rest⟩
    | tenantRequired k metric => trivial
    | closed => trivial
    | canceled => trivial

theorem calls_set {s : BatchingWriter ε} (found : s.calls[i]? = some c)
    (after : (s.calls.set i d)[j]? = some e) : j = i ∧ e = d ∨ j ≠ i ∧ s.calls[j]? = some e := by
  by_cases same : j = i
  · subst same
    have bound : j < s.calls.length := (List.getElem?_eq_some_iff.mp found).1
    rw [getElem?_set_self bound] at after
    exact .inl ⟨rfl, (some.inj after).symm⟩
  · rw [getElem?_set_ne (Ne.symm same)] at after
    exact .inr ⟨same, after⟩

theorem taken_set {calls : List (Call ε)} (found : calls[i]? = some c)
    (more : c.taken ≤ d.taken) (taken : ∃ e, calls[it.call]? = some e ∧ it.pos < e.taken) :
    ∃ e, (calls.set i d)[it.call]? = some e ∧ it.pos < e.taken := by
  obtain ⟨e, there, less⟩ := taken
  by_cases same : it.call = i
  · rw [same] at there ⊢
    cases there.symm.trans found
    have bound : i < calls.length := (List.getElem?_eq_some_iff.mp found).1
    exact ⟨d, getElem?_set_self bound, lt_of_lt_of_le less more⟩
  · exact ⟨e, (getElem?_set_ne (Ne.symm same)).trans there, less⟩

namespace Inv

variable {s : BatchingWriter ε}

theorem setPhase (inv : s.Inv) (found : s.calls[i]? = some c) (phase : PhaseInv s i c p) : Inv (s.setPhase i c p) :=
  { inv with
    taken := fun it mem => taken_set found le_rfl (inv.taken it mem)
    taken_le := by
      intro j d after
      rcases calls_set found after with ⟨rfl, rfl⟩ | ⟨-, before⟩
      · exact inv.taken_le j c found
      · exact inv.taken_le j d before
    calls := by
      intro j d after
      have same : Grows s (s.setPhase i c p) := .same rfl rfl rfl rfl
      rcases calls_set found after with ⟨rfl, rfl⟩ | ⟨-, before⟩
      · exact PhaseInv.grows same phase
      · exact (inv.calls j d before).grows same }

theorem write (inv : s.Inv) (series : List Series) : Inv { s with calls := s.calls ++ [enter series] } := by
  have entered : (enter series : Call ε).taken = 0 ∧ PhaseInv s s.calls.length (enter series) (enter series).phase := by
    unfold enter
    split
    · rename_i empty
      subst empty
      exact ⟨rfl, fun pos x less => absurd less (not_lt_zero pos)⟩
    split
    · exact ⟨rfl, trivial⟩
    · rename_i some _ _
      exact ⟨rfl, length_pos_iff.mpr some, fun pos x less => absurd less (not_lt_zero pos)⟩
  have split : ∀ {j : Nat} {d : Call ε}, (s.calls ++ [enter series])[j]? = some d →
      s.calls[j]? = some d ∨ j = s.calls.length ∧ d = enter series := by
    intro j d after
    rcases lt_trichotomy j s.calls.length with less | rfl | more
    · rw [getElem?_append_left less] at after
      exact .inl after
    · rw [getElem?_concat_length] at after
      exact .inr ⟨rfl, (some.inj after).symm⟩
    · rw [getElem?_eq_none (by simp; omega)] at after
      cases after
  exact { inv with
    taken := by
      intro it mem
      obtain ⟨d, there, less⟩ := inv.taken it mem
      exact ⟨d, by rw [getElem?_append_left (List.getElem?_eq_some_iff.mp there).1]; exact there, less⟩
    taken_le := by
      intro j d after
      rcases split after with before | ⟨-, rfl⟩
      · exact inv.taken_le j d before
      · rw [entered.1]
        exact zero_le _
    calls := by
      intro j d after
      have same : Grows s { s with calls := s.calls ++ [enter series] } := .same rfl rfl rfl rfl
      rcases split after with before | ⟨rfl, rfl⟩
      · exact (inv.calls j d before).grows same
      · exact entered.2.grows same }

theorem openBatch (inv : s.Inv) : Inv s.openBatch := by
  unfold BatchingWriter.openBatch
  cases none : s.batch with
  | some b => exact inv
  | none =>
    have grows : Grows s { s with batch := some s.batches, batches := s.batches + 1 } := ⟨fun _ => id, fun b it located => by
      cases located with
      | pending here mem => cases none.symm.trans here
      | flushing f here same mem => exact .flushing f here same mem
      | written w here same mem => exact .written w here same mem⟩
    have ids : ids { s with batch := some s.batches, batches := s.batches + 1 } = s.ids ++ [s.batches] := by
      simp [ids, none]
    exact { inv with
      idle := nofun
      ids_nodup := by
        rw [ids, nodup_middle, append_nil]
        exact nodup_cons.mpr ⟨fun mem => lt_irrefl _ (inv.ids_lt _ mem), inv.ids_nodup⟩
      ids_lt := by
        rw [ids]
        exact forall_mem_snoc (fun b mem => lt_succ_of_lt (inv.ids_lt b mem)) (lt_succ_self _)
      calls := fun i c found => (inv.calls i c found).grows grows }

theorem swapped (inv : s.Inv) (here : s.batch = some b) (free : s.flushing = none) (owner : Owner) :
    Inv { s with flushing := some ⟨owner, b, s.pending⟩, pending := [], batch := none } := by
  have grows : Grows s { s with flushing := some ⟨owner, b, s.pending⟩, pending := [], batch := none } :=
    ⟨fun _ => id, fun b' it located => by
      cases located with
      | pending same mem => exact .flushing ⟨owner, b, s.pending⟩ rfl (some.inj (here.symm.trans same)) mem
      | flushing f same _ mem => cases free.symm.trans same
      | written w here same mem => exact .written w here same mem⟩
  have held : held { s with flushing := some ⟨owner, b, s.pending⟩, pending := [], batch := none } =
      s.held := by
    simp [held, inFlight, written, free]
  have ids : ids { s with flushing := some ⟨owner, b, s.pending⟩, pending := [], batch := none } =
      s.ids := by
    simp [ids, free, here]
  exact { inv with
    pending_le := zero_le _
    inFlight_le := inv.pending_le
    idle := fun _ => rfl
    ids_nodup := ids ▸ inv.ids_nodup
    ids_lt := fun b mem => inv.ids_lt b (ids ▸ mem)
    nodup := held ▸ inv.nodup
    taken := fun it mem => inv.taken it (held ▸ mem)
    calls := fun i c found => (inv.calls i c found).grows grows }

theorem wrote (inv : s.Inv) (under : s.flushing = some f) (r : FlushResult ε) :
    Inv { s with flushing := none, writes := s.writes ++ [⟨f.batch, f.items, r⟩] } := by
  have grows : Grows s { s with flushing := none, writes := s.writes ++ [⟨f.batch, f.items, r⟩] } :=
    ⟨fun w mem => mem_append_left _ mem, fun b it located => by
      cases located with
      | pending here mem => exact .pending here mem
      | flushing g here same mem =>
        cases under.symm.trans here
        exact .written ⟨f.batch, f.items, r⟩ (mem_append_right _ mem_cons_self) same mem
      | written w here same mem => exact .written w (mem_append_left _ here) same mem⟩
  have held : held { s with flushing := none, writes := s.writes ++ [⟨f.batch, f.items, r⟩] } = s.held := by
    simp [held, inFlight, written, under]
  have ids : ids { s with flushing := none, writes := s.writes ++ [⟨f.batch, f.items, r⟩] } = s.ids := by
    simp [ids, under]
  have size : f.items.length ≤ s.maxSeries := by
    have le := inv.inFlight_le
    rwa [inFlight, under] at le
  exact { inv with
    inFlight_le := zero_le _
    writes_le := forall_mem_snoc inv.writes_le size
    ids_nodup := ids ▸ inv.ids_nodup
    ids_lt := fun b mem => inv.ids_lt b (ids ▸ mem)
    nodup := held ▸ inv.nodup
    taken := fun it mem => inv.taken it (held ▸ mem)
    calls := fun i c found => (inv.calls i c found).grows grows }

end Inv

theorem mem_items :
    it ∈ items i lo n series ↔ it.call = i ∧ lo ≤ it.pos ∧ it.pos < lo + n ∧ series[it.pos]? = some it.series := by
  obtain ⟨call, pos, x⟩ := it
  unfold items
  rw [mem_iff_getElem?]
  simp only [getElem?_mapIdx, map_eq_some_iff, getElem?_take, getElem?_drop, Item.mk.injEq]
  constructor
  · rintro ⟨k, y, found, rfl, rfl, rfl⟩
    split at found
    · exact ⟨rfl, le_add_right lo k, by omega, found⟩
    · cases found
  · rintro ⟨rfl, above, below, found⟩
    have shift : lo + (pos - lo) = pos := by omega
    refine ⟨pos - lo, x, ?_, rfl, shift, rfl⟩
    rw [if_pos (by omega), shift, found]

theorem length_items (i lo n : Nat) (series : List Series) :
    (items i lo n series).length = min n (series.length - lo) := by
  simp [items]

theorem nodup_items (i lo n : Nat) (series : List Series) : (items i lo n series).Nodup := by
  unfold items List.Nodup
  rw [pairwise_iff_getElem]
  intro a b _ _ less same
  simp only [getElem_mapIdx, Item.mk.injEq] at same
  omega

section Chunk

variable {s : BatchingWriter ε} (chunk : List Item) (calls : List (Call ε))

theorem Grows.append : Grows s { s with pending := s.pending ++ chunk, calls := calls } where
  writes _ mem := mem
  located b it located := by
    cases located with
    | pending same mem => exact .pending same (mem_append_left _ mem)
    | flushing f here same mem => exact .flushing f here same mem
    | written w here same mem => exact .written w here same mem

theorem held_append : held { s with pending := s.pending ++ chunk, calls := calls } = s.held ++ chunk := by
  simp [held, inFlight, written]

end Chunk

namespace Inv

variable {s : BatchingWriter ε}

section
variable (inv : s.Inv)
include inv

theorem chunk_fresh (found : s.calls[i]? = some c) (n : Nat)
    (mem : it ∈ s.held) : it ∉ items i c.taken n c.series := by
  intro new
  obtain ⟨d, there, less⟩ := inv.taken it mem
  obtain ⟨same, above, -⟩ := mem_items.mp new
  rw [same] at there
  cases there.symm.trans found
  omega

theorem joined (here : s.batch = some b) (room : s.pending.length < s.maxSeries)
    (found : s.calls[i]? = some c) (rest : c.taken < c.series.length) (before : Written s i c c.taken)
    (phase : p = .filled b c.taken ∨ p = .waiting b c.taken) :
    let chunk := items i c.taken (s.maxSeries - s.pending.length) c.series
    Inv { s with pending := s.pending ++ chunk, calls := s.calls.set i ⟨c.series, c.taken + chunk.length, p⟩ } := by
  intro chunk
  have size : chunk.length = min (s.maxSeries - s.pending.length) (c.series.length - c.taken) := length_items _ _ _ _
  have grows := Grows.append (s := s) chunk (s.calls.set i ⟨c.series, c.taken + chunk.length, p⟩)
  exact { inv with
    pending_le := by
      simp only [length_append]
      omega
    idle := fun none => absurd (here.symm.trans none) nofun
    nodup := by
      rw [held_append, nodup_append]
      refine ⟨inv.nodup, nodup_items _ _ _ _, ?_⟩
      rintro it old _ new rfl
      exact inv.chunk_fresh found _ old new
    taken := by
      intro it mem
      rw [held_append] at mem
      rcases mem_append.mp mem with old | new
      · exact taken_set found (le_add_right _ _) (inv.taken it old)
      obtain ⟨same, -, below, at_⟩ := mem_items.mp new
      have inside : it.pos < c.series.length := (List.getElem?_eq_some_iff.mp at_).1
      have bound : i < s.calls.length := (List.getElem?_eq_some_iff.mp found).1
      exact ⟨_, by rw [same]; exact getElem?_set_self bound, by dsimp only; omega⟩
    taken_le := by
      intro j d after
      rcases calls_set found after with ⟨rfl, rfl⟩ | ⟨-, old⟩
      · dsimp only
        omega
      · exact inv.taken_le j d old
    calls := by
      intro j d after
      rcases calls_set found after with ⟨rfl, rfl⟩ | ⟨-, old⟩
      · have join : Joined { s with pending := s.pending ++ chunk, calls := s.calls.set j ⟨c.series, c.taken + chunk.length, p⟩ }
            j ⟨c.series, c.taken + chunk.length, p⟩ b c.taken := by
          refine ⟨by dsimp only; omega, fun pos x less at_ => grows.written (before pos x less at_), ?_⟩
          intro pos x above below at_
          dsimp only at below
          refine .pending here (mem_append_right _ (mem_items.mpr ⟨rfl, above, ?_, at_⟩))
          dsimp only
          omega
        rcases phase with rfl | rfl
        all_goals exact join
      · exact (inv.calls j d old).grows grows }

theorem joinBatch (found : s.calls[i]? = some c) (phase : c.phase = .joining) : Inv (s.joinBatch i c) := by
  have start := inv.calls i c found
  rw [phase] at start
  unfold BatchingWriter.joinBatch
  split
  · exact inv.setPhase found trivial
  have calls : s.openBatch.calls = s.calls := by
    unfold BatchingWriter.openBatch
    split <;> rfl
  have same : s.openBatch.written = s.written := by
    unfold BatchingWriter.openBatch BatchingWriter.written
    split <;> rfl
  obtain ⟨b, here⟩ : ∃ b, s.openBatch.batch = some b := by
    unfold BatchingWriter.openBatch
    split
    · rename_i b here
      exact ⟨b, here⟩
    · exact ⟨s.batches, rfl⟩
  have opened := inv.openBatch
  have before : Written s.openBatch i c c.taken := by
    unfold Written
    rw [same]
    exact start.2
  rw [← calls] at found
  dsimp only
  split
  · exact opened.setPhase found ⟨start.1, before⟩
  rename_i room
  have named : s.openBatch.batch.getD 0 = b := by rw [here, getD_some]
  apply opened.joined here (Nat.lt_of_not_le room) found start.1 before
  rw [named]
  split
  · exact .inl rfl
  · exact .inr rfl

theorem release (owner : Owner) : Inv (s.release owner) := by
  cases owner with
  | timer => exact inv
  | close => exact inv
  | call i =>
    unfold BatchingWriter.release
    dsimp only
    split
    · rename_i c found
      apply inv.setPhase found
      have now := inv.calls i c found
      generalize c.phase = p at now
      cases p with
      | _ => exact now
    · exact inv

theorem swap (free : s.flushing = none) (owner : Owner) : Inv (s.swap owner) := by
  unfold BatchingWriter.swap
  split
  · exact inv.release owner
  · rename_i b here
    exact inv.swapped here free owner

theorem located_written (done : w ∈ s.writes) (located : Located s w.batch it) : it ∈ w.items := by
  have ids := inv.ids_nodup
  obtain ⟨own, -, apart⟩ := nodup_append.mp ids
  cases located with
  | pending here mem =>
    exact absurd rfl (apart w.batch (mem_map_of_mem done) w.batch (by simp [here]))
  | flushing f here same mem =>
    exact absurd rfl (apart w.batch (mem_map_of_mem done) w.batch (by simp [here, same]))
  | written w' there same mem =>
    exact inj_on_of_nodup_map own there done same ▸ mem

theorem wakeUp (found : s.calls[i]? = some c) (phase : c.phase = .waiting b lo) (done : s.result b = some r) : Inv (s.wakeUp i c lo r) := by
  obtain ⟨w, first, rfl⟩ := map_eq_some_iff.mp done
  have written : w ∈ s.writes := mem_of_find?_eq_some first
  have batch : w.batch = b := by simpa using find?_some first
  have bounded := inv.taken_le i c found
  have start := inv.calls i c found
  rw [phase] at start
  obtain ⟨nonempty, before, located⟩ := start
  have chunk : ∀ pos x, lo ≤ pos → pos < c.taken → c.series[pos]? = some x → ⟨i, pos, x⟩ ∈ w.items := by
    intro pos x above below at_
    exact inv.located_written written (batch ▸ located pos x above below at_)
  have all : Written s i c c.taken := by
    intro pos x below at_
    by_cases above : lo ≤ pos
    · exact mem_flatMap.mpr ⟨w, written, chunk pos x above below at_⟩
    · exact before pos x (Nat.lt_of_not_le above) at_
  unfold BatchingWriter.wakeUp
  split
  · rename_i e failed
    exact inv.setPhase found ⟨w, written, lo, c.taken, nonempty, bounded, chunk, failed⟩
  apply inv.setPhase found
  split
  · rename_i through
    unfold PhaseInv
    rw [le_antisymm through bounded]
    exact all
  · rename_i more
    exact ⟨Nat.lt_of_not_le more, all⟩

theorem step (stepped : s.step a = some t) : t.Inv := by
  cases a with
  | write series =>
    cases stepped
    exact inv.write series
  | join i =>
    obtain ⟨c, found, rest⟩ := bind_eq_some_iff.mp stepped
    split at rest
    · rename_i phase
      cases rest
      exact inv.joinBatch found phase
    · cases rest
  | flush owner =>
    simp only [BatchingWriter.step] at stepped
    split at stepped
    · cases stepped
    rename_i free
    split at stepped
    · cases stepped
      exact inv.swap free owner
    · cases stepped
  | settle err fenced =>
    simp only [BatchingWriter.step] at stepped
    split at stepped
    · cases stepped
    · rename_i f under
      cases stepped
      exact (inv.wrote under ⟨err, fenced⟩).release f.owner
  | close =>
    simp only [BatchingWriter.step] at stepped
    split at stepped
    · cases stepped
    rename_i free
    cases stepped
    split
    · exact inv
    have same : Grows s { s with closed := true } := .same rfl rfl rfl rfl
    have shut : Inv { s with closed := true } :=
      { inv with calls := fun i c found => (inv.calls i c found).grows same }
    exact shut.swap free .close
  | wake i =>
    obtain ⟨c, found, rest⟩ := bind_eq_some_iff.mp stepped
    split at rest
    · rename_i b lo phase
      obtain ⟨r, done, rfl⟩ := map_eq_some_iff.mp rest
      exact inv.wakeUp found phase done
    · cases rest
  | cancel i =>
    obtain ⟨c, found, rest⟩ := bind_eq_some_iff.mp stepped
    split at rest
    · cases rest
      exact inv.setPhase found trivial
    · cases rest

end

end Inv

end Probectl.Tsdb.BatchingWriter
