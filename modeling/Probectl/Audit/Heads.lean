import Probectl.Audit.Chain

/-! The durable head of an audit stream: what the tenant and the provider stream of
`audit.go` share. A stream is the rows retained of it and its head row. -/
namespace Probectl.Audit

open Strings List HashChain Run

structure StreamHead where
  headSeq : Int
  headHash : Bytes
  prunedSeq : Int
  prunedHash : Bytes
  headSig : Bytes
  deriving DecidableEq

def StreamHead.empty : StreamHead := ⟨0, [], 0, [], []⟩

def StreamHead.validate (label : Bytes) (h : StreamHead) : Except Fault Unit :=
  if h.headSeq < 0 ∨ h.prunedSeq < 0 ∨ h.headSeq < h.prunedSeq then .error (.invalidSequenceBounds label)
  else if ¬(h.headSeq = 0 ↔ h.headHash = []) then .error (.invalidHeadHash label)
  else if ¬(h.prunedSeq = 0 ↔ h.prunedHash = []) then .error (.invalidPruneHash label)
  else .ok ()

structure StreamBounds where
  firstSeq : Int
  firstPrevHash : Bytes
  lastSeq : Int
  lastHash : Bytes
  deriving DecidableEq

structure Stream where
  rows : List Row
  head : Option StreamHead
  deriving DecidableEq

structure Database where
  accepts : Row → Bool
  jsonb : Bytes → Bytes

def openTables : Database := ⟨fun _ => true, id⟩

structure Entry (Data : Type) where
  createdAtMicros : Int
  actor : Bytes
  action : Bytes
  target : Bytes
  data : Option Data

/-- `ORDER BY seq`. -/
def ordered (rows : List Row) : List Row := rows.insertionSort fun a b => a.seq ≤ b.seq

/-- `WHERE seq > $1 ORDER BY seq`. -/
def after (seq : Int) (rows : List Row) : List Row := ordered (rows.filter fun r => seq < r.seq)

def readStreamHead (label : Bytes) (s : Stream) : Except Fault (Option StreamHead) :=
  match s.head with
  | none => .ok none
  | some head => (head.validate label).map fun _ => some head

def readStreamBounds (s : Stream) : Option StreamBounds :=
  match (ordered s.rows).head?, (ordered s.rows).getLast? with
  | some first, some last => some ⟨first.seq, first.prevHash, last.seq, last.hash⟩
  | _, _ => none

def inferredStreamHead (bounds : StreamBounds) : StreamHead :=
  if 1 < bounds.firstSeq then ⟨bounds.lastSeq, bounds.lastHash, bounds.firstSeq - 1, bounds.firstPrevHash, []⟩
  else ⟨bounds.lastSeq, bounds.lastHash, 0, [], []⟩

def insertRow (db : Database) (rows : List Row) (r : Row) : Except Fault (List Row) :=
  if db.accepts r = false ∨ r.seq ∈ rows.map Row.seq then .error .refusedRow else .ok (rows ++ [r])

def verifyReachedHead (label : Bytes) (head : StreamHead) (lastSeq : Int) (lastHash : Bytes) : Except Fault Unit :=
  if lastSeq ≠ head.headSeq then .error (.chainEnded label lastSeq head.headSeq)
  else if lastHash ≠ head.headHash then .error (.headHashMismatch label head.headSeq)
  else .ok ()

def verificationAnchor (label : Bytes) (rows : List Row) (head : StreamHead) (afterSeq : Int) :
    Except Fault (Int × Bytes) :=
  if afterSeq = 0 then .ok (head.prunedSeq, head.prunedHash)
  else if afterSeq < head.prunedSeq then .error (.anchorPruned label afterSeq head.prunedSeq)
  else if head.headSeq < afterSeq then .error (.anchorAbove label afterSeq head.headSeq)
  else if afterSeq = head.prunedSeq then .ok (afterSeq, head.prunedHash)
  else
    match rows.find? fun r => r.seq = afterSeq with
    | none => .error (.anchorUnread label afterSeq)
    | some r => .ok (afterSeq, r.hash)

section Walks
variable (c : Codec)

/-- `tenantAppendLocked` and `providerAppendLockedWith` write this row behind the head. -/
def nextRow (db : Database) (streamKey : Bytes) (head : StreamHead) (createdAtMicros : Int) (actor action target : Bytes)
    (canonical : Bytes) : Row :=
  { seq := head.headSeq + 1, actor, action, target, data := db.jsonb canonical, prevHash := head.headHash,
    hash := chainEventHash c streamKey (head.headSeq + 1) actor action target createdAtMicros canonical head.headHash,
    createdAtMicros, canonical }

def verifyExtension (label streamKey : Bytes) (rows : List Row) (head : StreamHead) (bounds : StreamBounds) :
    Except Fault Unit :=
  match verify c streamKey (head.headSeq + 1) head.headHash (after head.headSeq rows) with
  | .error cause => .error (.extension label cause)
  | .ok (lastSeq, lastHash) =>
    if lastSeq ≠ bounds.lastSeq ∨ lastHash ≠ bounds.lastHash then .error (.extensionShort label) else .ok ()

/-- The hash walk of `tenantVerifyFromLocked` and `providerVerifyFromLocked`. -/
def verifyFromLocked (label streamKey : Bytes) (rows : List Row) (head : StreamHead) (afterSeq : Int) :
    Except Fault Unit := do
  let (startSeq, prevHash) ← verificationAnchor label rows head afterSeq
  let (lastSeq, lastHash) ← verify c streamKey (startSeq + 1) prevHash (after startSeq rows)
  verifyReachedHead label head lastSeq lastHash

end Walks

/-! Reading rows in order. -/

instance seqTotal : Std.Total fun a b : Row => a.seq ≤ b.seq := ⟨fun a b => Int.le_total a.seq b.seq⟩

instance seqTrans : IsTrans Row fun a b : Row => a.seq ≤ b.seq := ⟨fun _ _ _ => Int.le_trans⟩

variable {rows : List Row} {r : Row}

theorem mem_ordered : r ∈ ordered rows ↔ r ∈ rows := mem_insertionSort _

variable {seq : Int}

theorem mem_after : r ∈ after seq rows ↔ r ∈ rows ∧ seq < r.seq := by
  rw [after, mem_ordered, mem_filter, decide_eq_true_eq]

variable {s : Stream}

theorem readStreamBounds_none : readStreamBounds s = none ↔ s.rows = [] := by
  have empty : ordered s.rows = [] ↔ s.rows = [] := by
    rw [← length_eq_zero_iff, ordered, length_insertionSort, length_eq_zero_iff]
  unfold readStreamBounds
  cases rows : ordered s.rows with
  | nil => simpa using empty.mp rows
  | cons first rest =>
    have filled : s.rows ≠ [] := fun none => by simp [empty.mpr none] at rows
    simp [getLast?_cons, filled]

theorem readStreamBounds_some (read : readStreamBounds s = some bounds) :
    (∃ first ∈ s.rows, bounds.firstSeq = first.seq ∧ bounds.firstPrevHash = first.prevHash) ∧
      (∃ last ∈ s.rows, bounds.lastSeq = last.seq ∧ bounds.lastHash = last.hash) ∧
      ∀ r ∈ s.rows, bounds.firstSeq ≤ r.seq ∧ r.seq ≤ bounds.lastSeq := by
  have sorted : (ordered s.rows).Pairwise fun a b => a.seq ≤ b.seq := pairwise_insertionSort _ _
  unfold readStreamBounds at read
  split at read
  · rename_i first last head tail
    cases read
    refine ⟨⟨first, mem_ordered.mp (mem_of_head? head), rfl, rfl⟩,
      ⟨last, mem_ordered.mp (mem_of_getLast? tail), rfl, rfl⟩, ?_⟩
    intro r mem
    rw [← mem_ordered] at mem
    constructor
    · obtain ⟨rest, split⟩ := head?_eq_some_iff.mp head
      rw [split] at mem sorted
      rcases mem_cons.mp mem with rfl | later
      · exact le_rfl
      · exact rel_of_pairwise_cons sorted later
    · obtain ⟨front, split⟩ := getLast?_eq_some_iff.mp tail
      rw [split] at mem sorted
      rcases mem_append.mp mem with earlier | here
      · exact (pairwise_append.mp sorted).2.2 r earlier last (mem_singleton_self _)
      · rw [mem_singleton.mp here]
  · cases read

variable {label : Bytes}

theorem validate_ok {h : StreamHead} : h.validate label = .ok () ↔
      0 ≤ h.prunedSeq ∧ h.prunedSeq ≤ h.headSeq ∧ (h.headSeq = 0 ↔ h.headHash = []) ∧
        (h.prunedSeq = 0 ↔ h.prunedHash = []) := by
  unfold StreamHead.validate
  constructor
  · intro ok
    obtain ⟨bounds, ok⟩ := guard_ok ok
    obtain ⟨head, ok⟩ := guard_ok ok
    obtain ⟨pruned, -⟩ := guard_ok ok
    exact ⟨by omega, by omega, not_not.mp head, not_not.mp pruned⟩
  · rintro ⟨low, high, head, pruned⟩
    rw [if_neg (by omega), if_neg (not_not.mpr head), if_neg (not_not.mpr pruned)]

variable {head : StreamHead}

theorem readStreamHead_some
    (read : readStreamHead label s = .ok (some head)) : s.head = some head ∧ head.validate label = .ok () := by
  unfold readStreamHead at read
  split at read
  · cases read
  rename_i h stored
  cases valid : h.validate label with
  | error fault =>
    rw [valid] at read
    cases read
  | ok value =>
    rw [valid] at read
    cases read
    exact ⟨stored, valid⟩

theorem readStreamHead_none (read : readStreamHead label s = .ok none) : s.head = none := by
  unfold readStreamHead at read
  split at read
  · assumption
  rename_i h stored
  cases valid : h.validate label with
  | error fault =>
    rw [valid] at read
    cases read
  | ok value =>
    rw [valid] at read
    cases read

section Walks
variable {c : Codec}

theorem verifyReachedHead_ok :
    verifyReachedHead label head lastSeq lastHash = .ok () ↔ lastSeq = head.headSeq ∧ lastHash = head.headHash := by
  unfold verifyReachedHead
  constructor
  · intro ok
    obtain ⟨seq, ok⟩ := guard_ok ok
    obtain ⟨hash, -⟩ := guard_ok ok
    exact ⟨not_not.mp seq, not_not.mp hash⟩
  · rintro ⟨seq, hash⟩
    rw [if_neg (not_not.mpr seq), if_neg (not_not.mpr hash)]

variable {streamKey : Bytes}

theorem verifyFromLocked_ok : verifyFromLocked c label streamKey rows head 0 = .ok () ↔
      (links c streamKey).Chain (head.prunedSeq + 1) head.prunedHash (after head.prunedSeq rows) ∧
        head.prunedSeq + (after head.prunedSeq rows).length = head.headSeq ∧
        (links c streamKey).tail head.prunedHash (after head.prunedSeq rows) = head.headHash := by
  unfold verifyFromLocked
  rw [verificationAnchor, if_pos rfl]
  constructor
  · intro ok
    obtain ⟨start, anchored, ok⟩ := bind_ok ok
    cases anchored
    obtain ⟨⟨lastSeq, lastHash⟩, walked, reached⟩ := bind_ok ok
    obtain ⟨chain, last, hash⟩ := verify_ok.mp walked
    obtain ⟨seq, same⟩ := verifyReachedHead_ok.mp reached
    exact ⟨chain, by omega, by rw [← hash, same]⟩
  · rintro ⟨chain, length, tail⟩
    have walked := verify_ok.mpr ⟨chain, rfl, rfl⟩
    simp only [Bind.bind, Except.bind, walked]
    exact verifyReachedHead_ok.mpr ⟨by omega, tail⟩

theorem bound_hash_ne_nil (bound : (links c streamKey).Bound r) : r.hash ≠ [] := by
  obtain ⟨ev, read, hashed⟩ := bound
  obtain ⟨f, bytes, held⟩ := hashedIn_of_event read hashed
  rw [held.hash]
  intro none
  exact c.digest _ (Text.hexEncode_injective none)

variable {start : Bytes} {want : Int}

theorem ordered_chain (chain : (links c streamKey).Chain want start rows) : ordered rows = rows := by
  apply List.Pairwise.insertionSort_eq
  induction rows generalizing want start with
  | nil => exact .nil
  | cons r rest ih =>
    obtain ⟨seq, -, -, later⟩ := chain_cons.mp chain
    refine .cons ?_ (ih later)
    intro q mem
    have := (chain_seq_bounds later mem).1
    omega

theorem after_chain (chain : (links c streamKey).Chain (seq + 1) start rows) : after seq rows = rows := by
  have all : (rows.filter fun r => seq < r.seq) = rows := by
    rw [filter_eq_self]
    intro r mem
    have := (chain_seq_bounds chain mem).1
    exact decide_eq_true (by omega)
  rw [after, all, ordered_chain chain]

theorem readStreamBounds_chain (chain : (links c streamKey).Chain want start s.rows) (filled : s.rows ≠ []) :
    readStreamBounds s =
      some ⟨want, start, want + s.rows.length - 1, (links c streamKey).tail start s.rows⟩ := by
  unfold readStreamBounds
  rw [ordered_chain chain]
  obtain none | ⟨front, last, split⟩ := s.rows.eq_nil_or_concat'
  · exact absurd none filled
  have ends := Links.tail_concat (l := links c streamKey) start front last
  rw [split] at chain ⊢
  obtain ⟨-, seq, -, -⟩ := chain_snoc.mp chain
  change _ = last.hash at ends
  obtain ⟨first, rest, cons⟩ := exists_cons_of_ne_nil (concat_ne_nil last front)
  have head : (front ++ [last]).head? = some first := by rw [cons, head?_cons]
  have reached : want + ((front ++ [last]).length : Int) - 1 = last.seq := by
    rw [length_append, length_singleton]
    omega
  rw [getLast?_concat, ends, head, reached]
  rw [cons] at chain
  obtain ⟨here, prev, -⟩ := chain_cons.mp chain
  rw [← here, ← prev]

theorem bound_current (stored : r.canonical ≠ [])
    (hash : r.hash = chainEventHash c streamKey r.seq r.actor r.action r.target r.createdAtMicros r.canonical r.prevHash) :
    (links c streamKey).Bound r ∧ r.InFormat c streamKey .current := by
  have filled : 0 < r.canonical.length := length_pos_iff.mpr stored
  constructor
  · refine ⟨_, by rw [Row.event, Row.decoded, if_neg (by omega)]; rfl, ?_⟩
    rw [eventHash, if_pos filled, hash]
  · exact ⟨r.canonical, by rw [Row.dataBytes, if_pos filled], hash, fields_current_plain _ _, fun old => by cases old⟩

theorem nextRow_bound (db : Database) (streamKey : Bytes) (head : StreamHead) (createdAtMicros : Int)
    (actor action target : Bytes) (stored : canonical ≠ []) :
    (links c streamKey).Bound (nextRow c db streamKey head createdAtMicros actor action target canonical) ∧
      (nextRow c db streamKey head createdAtMicros actor action target canonical).InFormat c streamKey .current :=
  bound_current stored rfl

end Walks

end Probectl.Audit
