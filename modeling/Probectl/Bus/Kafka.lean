import Probectl.Bus.Topics
import Probectl.Lib.Best
import Probectl.Lib.Run

/-! The consuming side of `internal/bus/kafka.go`: `Subscribe` and `markable`,
with the marks that the client library keeps for `AutoCommitMarks`. -/
namespace Probectl.Bus

structure TopicPartition where
  topic : Bytes
  partition : Int
  deriving DecidableEq

structure Record where
  topic : Bytes
  partition : Int
  offset : Int
  key : Bytes
  value : Bytes
  deriving DecidableEq

def Record.tp (r : Record) : TopicPartition := ⟨r.topic, r.partition⟩

structure RecordOutcome where
  record : Record
  ok : Bool
  deriving DecidableEq

abbrev Offsets := TopicPartition → Option Int

def markable (firstFail : Offsets) (outcomes : List RecordOutcome) : Offsets × List Record :=
  let firstFail := outcomes.foldl (fun firstFail o =>
    if o.ok then firstFail else Best.improve (fun a b => decide (a < b)) firstFail o.record.tp o.record.offset) firstFail
  let marks := outcomes.filterMap fun o =>
    if !o.ok then none
    else
      match firstFail o.record.tp with
      | some f => if o.record.offset ≥ f then none else some o.record
      | none => some o.record
  (firstFail, marks)

/-- `MarkCommitRecords`: each record moves the partition's head to the maximum of
the head and the offset behind the record. -/
def markCommitRecords (committed : Offsets) (marks : List Record) : Offsets :=
  Best.collect (fun a b => decide (a > b)) committed (marks.map fun r => (r.tp, r.offset + 1))

def shardKey (key : Bytes) : Nat := (fnv1a key).toNat

structure Batch where
  recs : List Record
  shards : List (List Nat)
  outcomes : List (Option Bool)

/-- One worker in the poll loop itself, or `workers` goroutines. -/
def shards (workers : Int) (recs : List Record) : List (List Nat) :=
  if workers ≤ 1 then [List.range recs.length]
  else (List.range workers.toNat).map fun s =>
    recs.zipIdx.filterMap fun (r, i) => if shardKey r.key % workers.toNat = s then some i else none

def newBatch (workers : Int) (recs : List Record) : Batch :=
  ⟨recs, shards workers recs, recs.map fun _ => none⟩

def Batch.recordOutcomes (b : Batch) : List RecordOutcome :=
  (b.recs.zip b.outcomes).filterMap fun (r, o) => o.map (RecordOutcome.mk r)

structure Subscription where
  firstFail : Offsets := fun _ => none
  committed : Offsets := fun _ => none
  batch : Option Batch := none
  history : List RecordOutcome := []
  marked : List Record := []

/-- `handle worker ok` is the next record of a worker with what its handler
returned, a recovered panic included. -/
inductive Consume where
  | poll (recs : List Record)
  | handle (worker : Nat) (ok : Bool)
  | mark

def Subscription.step (workers : Int) (s : Subscription) : Consume → Option Subscription
  | .poll recs =>
    match s.batch with
    | some _ => none
    | none => some (if recs = [] then s else { s with batch := some (newBatch workers recs) })
  | .handle worker ok =>
    match s.batch with
    | none => none
    | some b =>
      match b.shards[worker]? with
      | some (i :: rest) =>
        some { s with batch := some { b with
          shards := b.shards.set worker rest
          outcomes := b.outcomes.set i (some ok) } }
      | _ => none
  | .mark =>
    match s.batch with
    | none => none
    | some b =>
      if b.shards.all List.isEmpty then
        let (firstFail, marks) := markable s.firstFail b.recordOutcomes
        some {
          firstFail := firstFail
          committed := markCommitRecords s.committed marks
          batch := none
          history := s.history ++ b.recordOutcomes
          marked := s.marked ++ marks }
      else none

def Subscription.outcomes (s : Subscription) : List RecordOutcome :=
  s.history ++ (s.batch.map Batch.recordOutcomes).getD []

def Subscription.delivered (s : Subscription) : List Record :=
  s.history.map RecordOutcome.record ++ (s.batch.map Batch.recs).getD []

end Probectl.Bus
