import Probectl.Lib.Run
import Probectl.Lib.Strings

/-! `internal/store/tsdb/batching.go`: concurrent writes that share underlying
write requests. Errors of the underlying writer are values of any type. -/
namespace Probectl.Tsdb

open Strings

structure Series where
  metric : Bytes
  labels : AList (fun _ : Bytes => Bytes)
  deriving DecidableEq

def tenantLabel : Bytes := lit "tenant_id"

def Series.tenant (x : Series) : Bytes := (x.labels.lookup tenantLabel).getD []

/-- The first series without a tenant. -/
def validateTenantSeries (series : List Series) : Option (Nat × Bytes) :=
  (series.zipIdx.find? fun (x, _) => trimSpace x.tenant == []).map fun (x, i) => (i, x.metric)

structure Item where
  call : Nat
  pos : Nat
  series : Series
  deriving DecidableEq

structure FlushResult (ε : Type) where
  err : Option ε
  fenced : AList (fun _ : Bytes => ε)

def FlushResult.resultFor {ε : Type} (r : FlushResult ε) (chunk : List Series) : Option ε :=
  match chunk.findSome? fun x => r.fenced.lookup x.tenant with
  | some ferr => some ferr
  | none => r.err

inductive Outcome (ε : Type) where
  | ok
  | tenantRequired (i : Nat) (metric : Bytes)
  | closed
  | canceled
  | failed (e : ε)

/-- Where a call is. `filled` and `waiting` hold the batch that the chunk from
`lo` on has joined. -/
inductive Phase (ε : Type) where
  | joining
  | retrying
  | filled (batch lo : Nat)
  | waiting (batch lo : Nat)
  | returned (r : Outcome ε)

/-- A `Write` call; the first `taken` of its series have joined batches. -/
structure Call (ε : Type) where
  series : List Series
  taken : Nat
  phase : Phase ε

def Call.chunk {ε : Type} (c : Call ε) (lo : Nat) : List Series := (c.series.take c.taken).drop lo

inductive Owner where
  | call (i : Nat)
  | timer
  | close

/-- A batch that was swapped out; its flusher holds `flushMu`. -/
structure Flushing where
  owner : Owner
  batch : Nat
  items : List Item

structure Underlying (ε : Type) where
  batch : Nat
  items : List Item
  result : FlushResult ε

/-- The writer, the calls on it and the underlying writes so far. A batch is done
once its underlying write has returned. -/
structure BatchingWriter (ε : Type) where
  maxSeries : Nat
  pending : List Item := []
  batch : Option Nat := none
  closed : Bool := false
  flushing : Option Flushing := none
  batches : Nat := 0
  writes : List (Underlying ε) := []
  calls : List (Call ε) := []

def newBatchingWriter (ε : Type) (maxSeries : Int) : BatchingWriter ε :=
  { maxSeries := if maxSeries ≤ 0 then 500 else maxSeries.toNat }

/-- `settle` is the return of the underlying write; a writer that does not
partition fences nobody. `wake` and `cancel` are the two ways out of `waitFlush`. -/
inductive Action (ε : Type) where
  | write (series : List Series)
  | join (i : Nat)
  | flush (owner : Owner)
  | settle (err : Option ε) (fenced : AList (fun _ : Bytes => ε))
  | close
  | wake (i : Nat)
  | cancel (i : Nat)

variable {ε : Type}

def Phase.afterFlush : Phase ε → Phase ε
  | .retrying => .joining
  | .filled batch lo => .waiting batch lo
  | p => p

namespace BatchingWriter

def enter (series : List Series) : Call ε :=
  if series = [] then ⟨series, 0, .returned .ok⟩
  else
    match validateTenantSeries series with
    | some (i, metric) => ⟨series, 0, .returned (.tenantRequired i metric)⟩
    | none => ⟨series, 0, .joining⟩

def setPhase (s : BatchingWriter ε) (i : Nat) (c : Call ε) (phase : Phase ε) : BatchingWriter ε :=
  { s with calls := s.calls.set i { c with phase := phase } }

def items (i lo n : Nat) (series : List Series) : List Item :=
  ((series.drop lo).take n).mapIdx fun k x => ⟨i, lo + k, x⟩

def openBatch (s : BatchingWriter ε) : BatchingWriter ε :=
  match s.batch with
  | some _ => s
  | none => { s with batch := some s.batches, batches := s.batches + 1 }

def joinBatch (s : BatchingWriter ε) (i : Nat) (c : Call ε) : BatchingWriter ε :=
  if s.closed then s.setPhase i c (.returned .closed)
  else
    let s := s.openBatch
    if s.maxSeries ≤ s.pending.length then s.setPhase i c .retrying
    else
      let chunk := items i c.taken (s.maxSeries - s.pending.length) c.series
      let pending := s.pending ++ chunk
      let batch := s.batch.getD 0
      let phase := if s.maxSeries ≤ pending.length then .filled batch c.taken else .waiting batch c.taken
      { s with
        pending := pending
        calls := s.calls.set i ⟨c.series, c.taken + chunk.length, phase⟩ }

def release (s : BatchingWriter ε) : Owner → BatchingWriter ε
  | .call i =>
    match s.calls[i]? with
    | some c => s.setPhase i c c.phase.afterFlush
    | none => s
  | _ => s

/-- `flushLocked` up to the underlying write. -/
def swap (s : BatchingWriter ε) (owner : Owner) : BatchingWriter ε :=
  match s.batch with
  | none => s.release owner
  | some b => { s with flushing := some ⟨owner, b, s.pending⟩, pending := [], batch := none }

def settle (s : BatchingWriter ε) (f : Flushing) (r : FlushResult ε) : BatchingWriter ε :=
  release { s with flushing := none, writes := s.writes ++ [⟨f.batch, f.items, r⟩] } f.owner

def mayFlush (s : BatchingWriter ε) : Owner → Bool
  | .call i =>
    match (s.calls[i]?).map Call.phase with
    | some .retrying => true
    | some (.filled _ _) => true
    | _ => false
  | .timer => true
  | .close => false

def result (s : BatchingWriter ε) (batch : Nat) : Option (FlushResult ε) :=
  (s.writes.find? fun w => w.batch == batch).map Underlying.result

def wakeUp (s : BatchingWriter ε) (i : Nat) (c : Call ε) (lo : Nat) (r : FlushResult ε) : BatchingWriter ε :=
  match r.resultFor (c.chunk lo) with
  | some e => s.setPhase i c (.returned (.failed e))
  | none => s.setPhase i c (if c.series.length ≤ c.taken then .returned .ok else .joining)

def step (s : BatchingWriter ε) : Action ε → Option (BatchingWriter ε)
  | .write series => some { s with calls := s.calls ++ [enter series] }
  | .join i =>
    s.calls[i]?.bind fun c =>
      match c.phase with
      | .joining => some (s.joinBatch i c)
      | _ => none
  | .flush owner =>
    match s.flushing with
    | some _ => none
    | none => if s.mayFlush owner then some (s.swap owner) else none
  | .settle err fenced =>
    match s.flushing with
    | none => none
    | some f => some (s.settle f ⟨err, fenced⟩)
  | .close =>
    match s.flushing with
    | some _ => none
    | none => some (if s.closed then s else { s with closed := true }.swap .close)
  | .wake i =>
    s.calls[i]?.bind fun c =>
      match c.phase with
      | .waiting batch lo => (s.result batch).map fun r => s.wakeUp i c lo r
      | _ => none
  | .cancel i =>
    s.calls[i]?.bind fun c =>
      match c.phase with
      | .waiting _ _ => some (s.setPhase i c (.returned .canceled))
      | _ => none

end BatchingWriter

end Probectl.Tsdb
