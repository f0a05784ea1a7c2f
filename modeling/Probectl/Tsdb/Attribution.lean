import Probectl.Tsdb.BatchingInv

/-! What a caller of the batching writer learns: its series are written once, and
an error is one of its own batches' or of its own tenants'. -/
namespace Probectl.Tsdb

open Run List

variable {ε : Type}

namespace FlushResult

def unfence (r : FlushResult ε) (t : Bytes) : FlushResult ε := { r with fenced := r.fenced.erase t }

variable {chunk : List Series}

theorem resultFor_some {r : FlushResult ε} (failed : r.resultFor chunk = some e) :
    r.err = some e ∨ ∃ x ∈ chunk, r.fenced.lookup x.tenant = some e := by
  unfold resultFor at failed
  split at failed
  · rename_i ferr found
    cases failed
    obtain ⟨x, mem, fenced⟩ := exists_of_findSome?_eq_some found
    exact .inr ⟨x, mem, fenced⟩
  · exact .inl failed

theorem resultFor_unfence (r : FlushResult ε) (foreign : ∀ x ∈ chunk, x.tenant ≠ t) :
    (r.unfence t).resultFor chunk = r.resultFor chunk := by
  have same : (chunk.findSome? fun x => (r.unfence t).fenced.lookup x.tenant) =
      chunk.findSome? fun x => r.fenced.lookup x.tenant := by
    induction chunk with
    | nil => rfl
    | cons x rest ih =>
      have here : (r.unfence t).fenced.lookup x.tenant = r.fenced.lookup x.tenant :=
        AList.lookup_erase_ne (foreign x mem_cons_self)
      rw [findSome?_cons, findSome?_cons, here, ih fun y mem => foreign y (mem_cons_of_mem x mem)]
  unfold resultFor
  rw [same]
  rfl

end FlushResult

namespace BatchingWriter

def Carries (w : Underlying ε) (i : Nat) (c : Call ε) : Prop :=
  ∃ (pos : Nat) (x : Series), c.series[pos]? = some x ∧ ⟨i, pos, x⟩ ∈ w.items

/-- The call's error is the shared error of a write with its series, or the fence
error of one of its tenants there. -/
def Attributed (s : BatchingWriter ε) (i : Nat) (c : Call ε) (r : Outcome ε) : Prop :=
  ∃ e, r = .failed e ∧ ∃ w ∈ s.writes, Carries w i c ∧
    (w.result.err = some e ∨ ∃ (pos : Nat) (x : Series), c.series[pos]? = some x ∧ ⟨i, pos, x⟩ ∈ w.items ∧
      w.result.fenced.lookup x.tenant = some e)

structure Good (s : BatchingWriter ε) : Prop where
  capped : ∀ w ∈ s.writes, w.items.length ≤ s.maxSeries
  once : ∀ (i : Nat) (c : Call ε), s.calls[i]? = some c → c.phase = .returned .ok →
    ∀ (pos : Nat) (x : Series), c.series[pos]? = some x → s.written.count ⟨i, pos, x⟩ = 1
  attributed : ∀ (i : Nat) (c : Call ε) (r : Outcome ε), s.calls[i]? = some c → c.phase = .returned r →
    r ≠ .ok → r ≠ .closed → r ≠ .canceled → (∀ k metric, r ≠ .tenantRequired k metric) → Attributed s i c r
  unaffected : ∀ w ∈ s.writes, ∀ c ∈ s.calls, ∀ t, (∀ x ∈ c.series, x.tenant ≠ t) →
    ∀ lo hi, (w.result.unfence t).resultFor ((c.series.take hi).drop lo) = w.result.resultFor ((c.series.take hi).drop lo)

theorem mem_chunk {series : List Series} (mem : x ∈ (series.take hi).drop lo) :
    ∃ pos, lo ≤ pos ∧ pos < hi ∧ series[pos]? = some x := by
  obtain ⟨k, found⟩ := mem_iff_getElem?.mp mem
  rw [getElem?_drop, getElem?_take] at found
  split at found
  · rename_i less
    exact ⟨lo + k, Nat.le_add_right lo k, less, found⟩
  · cases found

theorem Reports.attributed (reports : Reports s i c e) :
    Attributed s i c (.failed e) := by
  obtain ⟨w, written, lo, hi, less, bounded, chunk, failed⟩ := reports
  have first : c.series[lo]? = some (c.series[lo]) := getElem?_eq_getElem (by omega)
  refine ⟨e, rfl, w, written, ⟨lo, _, first, chunk lo _ (Nat.le_refl lo) less first⟩, ?_⟩
  rcases FlushResult.resultFor_some failed with shared | ⟨x, mem, fenced⟩
  · exact .inl shared
  · obtain ⟨pos, above, below, found⟩ := mem_chunk mem
    exact .inr ⟨pos, x, found, chunk pos x above below found, fenced⟩

theorem Inv.good {s : BatchingWriter ε} (inv : s.Inv) : s.Good where
  capped := inv.writes_le
  once := by
    intro i c found ok pos x at_
    have written := inv.calls i c found
    rw [ok] at written
    have distinct : s.written.Nodup := (nodup_append.mp inv.nodup).1
    exact count_eq_one_of_mem distinct (written pos x (List.getElem?_eq_some_iff.mp at_).1 at_)
  attributed := by
    intro i c r found returned notOk notClosed notCanceled valid
    have phase := inv.calls i c found
    rw [returned] at phase
    cases r with
    | ok => exact absurd rfl notOk
    | closed => exact absurd rfl notClosed
    | canceled => exact absurd rfl notCanceled
    | tenantRequired k metric => exact absurd rfl (valid k metric)
    | failed e => exact Reports.attributed phase
  unaffected := by
    intro w _ c _ t foreign lo hi
    apply FlushResult.resultFor_unfence
    intro x mem
    exact foreign x (mem_of_mem_take (mem_of_mem_drop mem))

/-- In every interleaving of writes, flushes and `Close`. -/
theorem batching_attributes (ε : Type) (maxSeries : Int) (as : List (Action ε)) :
    Visits step Good (newBatchingWriter ε maxSeries) as := by
  have invs : Visits step Inv (newBatchingWriter ε maxSeries) as :=
    visits_invariant (fun s a t inv stepped => inv.step stepped) (inv_initial maxSeries) as
  intro pre post split t ran
  exact (invs pre post split t ran).good

-- two calls share a batch of two, and the second one flushes it
example : let x : Series := ⟨[], AList.singleton tenantLabel [116]⟩
    (run step (newBatchingWriter Unit 2) [.write [x], .write [x], .join 0, .join 1, .flush (.call 1), .settle none ∅,
      .wake 0, .wake 1]).map (fun s => (s.writes.map fun w => w.items.map Item.call)) = some [[0, 1]] := rfl

/-- A series without a tenant is refused before it joins any batch. -/
theorem refused_in_no_batch : ¬ Visits step (fun s : BatchingWriter Unit =>
    ∀ (i : Nat) (c : Call Unit) (r : Outcome Unit), s.calls[i]? = some c → c.phase = .returned r →
      r ≠ .ok → r ≠ .closed → r ≠ .canceled → Attributed s i c r) (newBatchingWriter Unit 0) [.write [⟨[], ∅⟩]] := by
  intro visits
  obtain ⟨e, same, -⟩ := visits [.write [⟨[], ∅⟩]] [] rfl _ rfl 0 _ (.tenantRequired 0 []) rfl rfl nofun nofun nofun
  cases same

end BatchingWriter

end Probectl.Tsdb
