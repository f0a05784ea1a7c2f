import Probectl.Lib.HashChain
import Probectl.Lib.Run
import Probectl.Lib.Text

/-! The audit hash chain of `internal/audit/audit.go`: the header encodings, the
hash of an event and the walk that verifies stored rows. -/
namespace Probectl.Audit

open Strings List Function HashChain Run Text

def backslash : UInt8 := 92
def newline : UInt8 := 10

/-- `strings.ReplaceAll` for a one-byte pattern. -/
def replaceAll (old : UInt8) (new : Bytes) (s : Bytes) : Bytes := s.flatMap fun b => if b = old then new else [b]

/-- `strings.ContainsAny(s, "\\\n")`. -/
def containsAny (s : Bytes) : Bool := s.any fun b => b = backslash || b = newline

def escapeHeaderField (s : Bytes) : Bytes :=
  if containsAny s = false then s
  else replaceAll newline [backslash, 110] (replaceAll backslash [backslash, backslash] s)

def auditHeader (streamKey : Bytes) (seq : Int) (actor action target : Bytes) (createdAtMicros : Int)
    (prevHash : Bytes) : Bytes :=
  lines newline
    [escapeHeaderField streamKey, decimalInt seq, escapeHeaderField actor, escapeHeaderField action,
      escapeHeaderField target, decimalInt createdAtMicros, escapeHeaderField prevHash]

/-- The header of v0.6.5: nothing escaped, no timestamp. -/
def legacyHeader (streamKey : Bytes) (seq : Int) (actor action target prevHash : Bytes) : Bytes :=
  lines newline [streamKey, decimalInt seq, actor, action, target, prevHash]

/-- Digest and JSON as the packages `crypto` and `encoding/json` provide them. A
marshalled object is compact, so it holds no line break. -/
structure Codec where
  Data : Type
  hash : Bytes → Bytes
  digest : ∀ bytes, hash bytes ≠ []
  unmarshal : Bytes → Except Bytes (Option Data)
  marshal : Data → Except Bytes Bytes
  compact : ∀ {data text}, marshal data = .ok text → newline ∉ text
  filled : ∀ {data text}, marshal data = .ok text → text ≠ []

/-- `Event`; a nil map of data is `none`. `canonicalData` is empty where the row has
no durable canonical bytes. -/
structure Event (Data : Type) where
  seq : Int
  actor : Bytes
  action : Bytes
  target : Bytes
  data : Option Data
  prevHash : Bytes
  hash : Bytes
  createdAtMicros : Int
  canonicalData : Bytes

/-- A stored row, with the columns the verifier selects. `created_at` has the
microseconds of a timestamptz. -/
structure Row where
  seq : Int
  actor : Bytes
  action : Bytes
  target : Bytes
  data : Bytes
  prevHash : Bytes
  hash : Bytes
  createdAtMicros : Int
  canonical : Bytes
  deriving DecidableEq

inductive Fault where
  | sequenceGap (seq want : Int)
  | prevHashMismatch (seq : Int)
  | decodeData (seq : Int) (text : Bytes)
  | canonicalize (text : Bytes)
  | hashMismatch (seq : Int)
  | invalidSequenceBounds (label : Bytes)
  | invalidHeadHash (label : Bytes)
  | invalidPruneHash (label : Bytes)
  | chainEnded (label : Bytes) (lastSeq headSeq : Int)
  | headHashMismatch (label : Bytes) (headSeq : Int)
  | anchorPruned (label : Bytes) (afterSeq prunedSeq : Int)
  | anchorAbove (label : Bytes) (afterSeq headSeq : Int)
  | anchorUnread (label : Bytes) (afterSeq : Int)
  | tailMissing (label : Bytes) (prunedSeq headSeq : Int)
  | tailDeleted (label : Bytes) (lastSeq headSeq : Int)
  | boundaryBroken (label : Bytes) (firstSeq prunedSeq : Int)
  | extension (label : Bytes) (cause : Fault)
  | extensionShort (label : Bytes)
  | nonMonotonic (label : Bytes)
  | concurrentChange (label : Bytes)
  | negativeCursor
  | unrecoverable (cursor : Int)
  | cursorAbove (cursor headSeq : Int)
  | cursorBehind (cursor prunedSeq : Int)
  | notReconstructed (cause : Fault)
  | anchorMissing (headSeq : Int)
  | anchorInvalid (headSeq : Int)
  | refusedRow
  | protectedAction (action : Bytes)
  | negativeWatermark
  | proofRequired
  | coverageMissing
  | coverageProofRequired
  | coverageExceeded (watermark covered : Int)
  | watermarkBehind (watermark prunedSeq : Int)
  | watermarkAbove (watermark headSeq : Int)
  deriving DecidableEq

section Hashing
variable (c : Codec)

/-- `canonicalAuditData`; a nil map is written as the empty object. -/
def canonicalAuditData : Option c.Data → Except Fault Bytes
  | none => .ok (lit "\x7b\x7d")
  | some data => (c.marshal data).mapError .canonicalize

def chainEventHash (streamKey : Bytes) (seq : Int) (actor action target : Bytes) (createdAtMicros : Int)
    (canonicalData prevHash : Bytes) : Bytes :=
  hexEncode (c.hash (auditHeader streamKey seq actor action target createdAtMicros prevHash ++ canonicalData))

def computeHash (streamKey : Bytes) (seq : Int) (actor action target : Bytes) (createdAtMicros : Int)
    (data : Option c.Data) (prevHash : Bytes) : Except Fault Bytes := do
  let canonical ← canonicalAuditData c data
  .ok (chainEventHash c streamKey seq actor action target createdAtMicros canonical prevHash)

def legacyEventHash (streamKey : Bytes) (ev : Event c.Data) (canonical : Bytes) : Bytes :=
  hexEncode (c.hash (legacyHeader streamKey ev.seq ev.actor ev.action ev.target ev.prevHash ++ canonical))

/-- The fields the v0.6.5 header joins must be free of `\` and line breaks. -/
def ambiguous (streamKey : Bytes) (ev : Event c.Data) : Bool :=
  [streamKey, ev.actor, ev.action, ev.target, ev.prevHash].any containsAny

def eventHash (streamKey : Bytes) (ev : Event c.Data) : Except Fault Bytes :=
  if 0 < ev.canonicalData.length then
    .ok (chainEventHash c streamKey ev.seq ev.actor ev.action ev.target ev.createdAtMicros ev.canonicalData ev.prevHash)
  else do
    let current ← computeHash c streamKey ev.seq ev.actor ev.action ev.target ev.createdAtMicros ev.data ev.prevHash
    if current = ev.hash then .ok current
    else if ambiguous c streamKey ev then .ok current
    else do
      let canonical ← canonicalAuditData c ev.data
      if legacyEventHash c streamKey ev canonical = ev.hash then .ok (legacyEventHash c streamKey ev canonical)
      else .ok current

def Row.decoded (r : Row) : Except Fault (Option c.Data) :=
  if r.canonical.length = 0 then (c.unmarshal r.data).mapError (.decodeData r.seq) else .ok none

def Row.event (r : Row) : Except Fault (Event c.Data) := do
  let data ← r.decoded c
  .ok
    { seq := r.seq, actor := r.actor, action := r.action, target := r.target, data, prevHash := r.prevHash,
      hash := r.hash, createdAtMicros := r.createdAtMicros, canonicalData := r.canonical }

/-- `verify` over the rows in sequence order: the sequence and hash reached. -/
def verify (streamKey : Bytes) : Int → Bytes → List Row → Except Fault (Int × Bytes)
  | wantSeq, prev, [] => .ok (wantSeq - 1, prev)
  | wantSeq, prev, r :: rest =>
    if r.seq ≠ wantSeq then .error (.sequenceGap r.seq wantSeq)
    else if r.prevHash ≠ prev then .error (.prevHashMismatch r.seq)
    else do
      let ev ← r.event c
      let want ← eventHash c streamKey ev
      if want ≠ r.hash then .error (.hashMismatch r.seq) else verify streamKey (wantSeq + 1) r.hash rest

end Hashing

/-! What the header encodings keep. -/

def escapeByte (b : UInt8) : Bytes :=
  if b = backslash then [backslash, backslash] else if b = newline then [backslash, 110] else [b]

theorem escapeByte_plain (plain : (b = backslash || b = newline) = false) : escapeByte b = [b] := by
  simp only [Bool.or_eq_false_iff, decide_eq_false_iff_not] at plain
  rw [escapeByte, if_neg plain.1, if_neg plain.2]

variable (s : Bytes)

theorem escapeHeaderField_eq : escapeHeaderField s = s.flatMap escapeByte := by
  unfold escapeHeaderField
  split
  · rename_i none
    induction s with
    | nil => rfl
    | cons b s ih =>
      simp only [containsAny, any_cons, Bool.or_eq_false_iff (x := _ || _)] at none
      rw [flatMap_cons, escapeByte_plain none.1, ← ih none.2]
      rfl
  · rw [replaceAll, replaceAll, flatMap_assoc]
    congr 1
    funext b
    unfold escapeByte
    by_cases slash : b = backslash
    · subst slash
      rfl
    · rw [if_neg slash, if_neg slash]
      simp

theorem escapeByte_cases (b : UInt8) :
    b = backslash ∧ escapeByte b = [backslash, backslash] ∨ b = newline ∧ escapeByte b = [backslash, 110] ∨
      b ≠ backslash ∧ escapeByte b = [b] := by
  by_cases slash : b = backslash
  · exact .inl ⟨slash, by rw [escapeByte, if_pos slash]⟩
  · by_cases line : b = newline
    · exact .inr (.inl ⟨line, by rw [escapeByte, if_neg slash, if_pos line]⟩)
    · exact .inr (.inr ⟨slash, by rw [escapeByte, if_neg slash, if_neg line]⟩)

theorem escapeByte_readable : Readable escapeByte := by
  constructor
  · intro b empty
    rcases escapeByte_cases b with ⟨-, code⟩ | ⟨-, code⟩ | ⟨-, code⟩
    all_goals
      rw [code] at empty
      cases empty
  · intro b d x y same
    -- an escape starts with the backslash, which no plain byte is
    rcases escapeByte_cases b with ⟨here, code⟩ | ⟨here, code⟩ | ⟨other, code⟩ <;>
      rcases escapeByte_cases d with ⟨here', code'⟩ | ⟨here', code'⟩ | ⟨other', code'⟩ <;>
      simp_all [backslash]

theorem escapeHeaderField_injective : Injective escapeHeaderField := by
  intro s t same
  rw [escapeHeaderField_eq, escapeHeaderField_eq] at same
  exact escapeByte_readable.flatMap_injective same

theorem newline_not_mem_escapeHeaderField : newline ∉ escapeHeaderField s := by
  rw [escapeHeaderField_eq, mem_flatMap]
  rintro ⟨b, -, mem⟩
  unfold escapeByte at mem
  split at mem
  · exact absurd mem (by decide)
  split at mem
  · exact absurd mem (by decide)
  · rename_i other
    exact other (mem_singleton.mp mem).symm

theorem newline_not_mem_plain (plain : containsAny s = false) : newline ∉ s := by
  intro mem
  have hit := any_eq_false.mp plain newline mem
  simp at hit

/-! The hash of a row commits to its content. -/

inductive Format where
  | current
  | legacy
  deriving DecidableEq

def Row.fields (streamKey : Bytes) (r : Row) : Format → List Bytes
  | .current =>
    [escapeHeaderField streamKey, decimalInt r.seq, escapeHeaderField r.actor, escapeHeaderField r.action,
      escapeHeaderField r.target, decimalInt r.createdAtMicros, escapeHeaderField r.prevHash]
  | .legacy => [streamKey, decimalInt r.seq, r.actor, r.action, r.target, r.prevHash]

section Commitment
variable (c : Codec)

/-- The data bytes a row stands for: the canonical bytes where they are stored, the
re-canonicalized data otherwise. -/
def Row.dataBytes (r : Row) : Option Bytes :=
  if 0 < r.canonical.length then some r.canonical
  else do
    let data ← (c.unmarshal r.data).toOption
    (canonicalAuditData c data).toOption

/-- The row's stored hash is that of its header and data bytes in a format. The
v0.6.5 format is open to rows without canonical bytes and without special bytes. -/
structure Row.HashedIn (streamKey : Bytes) (r : Row) (f : Format) (bytes : Bytes) : Prop where
  data : r.dataBytes c = some bytes
  hash : r.hash = hexEncode (c.hash (lines newline (r.fields streamKey f) ++ bytes))
  plain : ∀ field ∈ r.fields streamKey f, newline ∉ field
  compact : f = .legacy → newline ∉ bytes

variable {c}

theorem mapError_ok {x : Except ε α} (ok : x.mapError f = .ok a) : x = .ok a := by
  cases x with
  | error e => cases ok
  | ok b =>
    cases ok
    rfl

variable {bytes : Bytes}

theorem canonicalAuditData_compact (ok : canonicalAuditData c data = .ok bytes) :
    newline ∉ bytes := by
  cases data with
  | none =>
    cases ok
    decide
  | some data => exact c.compact (mapError_ok ok)

theorem canonicalAuditData_filled (ok : canonicalAuditData c data = .ok bytes) :
    bytes ≠ [] := by
  cases data with
  | none =>
    cases ok
    decide
  | some data => exact c.filled (mapError_ok ok)

theorem fields_current_plain (streamKey : Bytes) (r : Row) : ∀ field ∈ r.fields streamKey .current, newline ∉ field := by
  have low : newline.toNat < 45 := by decide
  simp [Row.fields, newline_not_mem_escapeHeaderField, decimalInt_avoids low]

variable {streamKey : Bytes} {r : Row}

theorem fields_legacy_plain (clear : [streamKey, r.actor, r.action, r.target, r.prevHash].any containsAny = false) :
    ∀ field ∈ r.fields streamKey .legacy, newline ∉ field := by
  have low : newline.toNat < 45 := by decide
  simp only [any_cons, Bool.or_eq_false_iff] at clear
  obtain ⟨key, actor, action, target, prev, -⟩ := clear
  simp [Row.fields, decimalInt_avoids low, newline_not_mem_plain, key, actor, action, target, prev]

theorem hashedIn_of_event (read : r.event c = .ok ev)
    (hashed : eventHash c streamKey ev = .ok r.hash) : ∃ f bytes, r.HashedIn c streamKey f bytes := by
  obtain ⟨data, decoded, built⟩ := bind_ok read
  obtain rfl := (Except.ok.inj built).symm
  unfold eventHash at hashed
  by_cases stored : 0 < r.canonical.length
  · rw [if_pos stored] at hashed
    exact ⟨.current, r.canonical, by rw [Row.dataBytes, if_pos stored], (Except.ok.inj hashed).symm,
      fields_current_plain _ _, nofun⟩
  · rw [Row.decoded, if_pos (by omega)] at decoded
    have found := mapError_ok decoded
    rw [if_neg stored] at hashed
    obtain ⟨current, computed, hashed⟩ := bind_ok hashed
    obtain ⟨canonical, bytes, made⟩ := bind_ok computed
    have held : r.dataBytes c = some canonical := by
      rw [Row.dataBytes, if_neg stored, found]
      simp [Except.toOption, bytes]
    have now : Row.HashedIn c streamKey r .current canonical ∨ current ≠ r.hash := by
      by_cases same : current = r.hash
      · exact .inl ⟨held, same.symm.trans (Except.ok.inj made).symm, fields_current_plain _ _, nofun⟩
      · exact .inr same
    rcases now with now | other
    · exact ⟨.current, canonical, now⟩
    rw [if_neg other] at hashed
    split at hashed
    · exact absurd (Except.ok.inj hashed) other
    rename_i clear
    rw [bytes] at hashed
    simp only [Bind.bind, Except.bind] at hashed
    split at hashed
    · exact ⟨.legacy, canonical, held, (Except.ok.inj hashed).symm,
        fields_legacy_plain (Bool.eq_false_iff.mpr clear), fun _ => canonicalAuditData_compact bytes⟩
    · exact absurd (Except.ok.inj hashed) other

variable {b a : Row} {bytes' : Bytes}

theorem formats_apart (injective : Injective c.hash)
    (current : a.HashedIn c streamKey .current bytes) (legacy : b.HashedIn c streamKey .legacy bytes') :
    a.hash ≠ b.hash := by
  intro same
  rw [current.hash, legacy.hash] at same
  have counts := congrArg (count newline) (injective (hexEncode_injective same))
  rw [count_append, count_append, count_lines current.plain, count_lines legacy.plain,
    count_eq_zero_of_not_mem (legacy.compact rfl)] at counts
  simp only [Row.fields, length_cons] at counts
  omega

variable {f : Format}

theorem Row.HashedIn.same (injective : Injective c.hash)
    (hashed : a.HashedIn c streamKey f bytes) (hashed' : b.HashedIn c streamKey f bytes')
    (same : a.hash = b.hash) : a.fields streamKey f = b.fields streamKey f ∧ bytes = bytes' := by
  rw [hashed.hash, hashed'.hash] at same
  have length : (a.fields streamKey f).length = (b.fields streamKey f).length := by cases f <;> rfl
  exact lines_injective hashed.plain hashed'.plain length (injective (hexEncode_injective same))

variable {g : Format}

theorem Row.HashedIn.format_unique (injective : Injective c.hash)
    (hashed : a.HashedIn c streamKey f bytes) (hashed' : b.HashedIn c streamKey g bytes')
    (same : a.hash = b.hash) : f = g := by
  cases f with
  | current =>
    cases g with
    | current => rfl
    | legacy => exact absurd same (formats_apart injective hashed hashed')
  | legacy =>
    cases g with
    | current => exact absurd same.symm (formats_apart injective hashed' hashed)
    | legacy => rfl

variable (c) in
def Row.InFormat (streamKey : Bytes) (r : Row) (f : Format) : Prop := ∃ bytes, r.HashedIn c streamKey f bytes

variable (c) in
/-- Two rows of one content. The timestamp is part of it in the current format only. -/
structure Agree (streamKey : Bytes) (a b : Row) : Prop where
  seq : a.seq = b.seq
  actor : a.actor = b.actor
  action : a.action = b.action
  target : a.target = b.target
  data : a.dataBytes c = b.dataBytes c
  format : ∀ f, a.InFormat c streamKey f ↔ b.InFormat c streamKey f
  createdAt : a.InFormat c streamKey .current → a.createdAtMicros = b.createdAtMicros

theorem agree_of_hash (injective : Injective c.hash)
    (hashed : a.HashedIn c streamKey f bytes) (hashed' : b.HashedIn c streamKey g bytes')
    (same : a.hash = b.hash) : a.prevHash = b.prevHash ∧ Agree c streamKey a b := by
  obtain rfl := hashed.format_unique injective hashed' same
  obtain ⟨fields, texts⟩ := hashed.same injective hashed' same
  have data : a.dataBytes c = b.dataBytes c := by rw [hashed.data, hashed'.data, texts]
  have format h : a.InFormat c streamKey h ↔ b.InFormat c streamKey h := by
    constructor
    · rintro ⟨text, held⟩
      obtain rfl := held.format_unique injective hashed' same
      exact ⟨_, hashed'⟩
    · rintro ⟨text, held⟩
      obtain rfl := held.format_unique injective hashed same.symm
      exact ⟨_, hashed⟩
  cases f with
  | current =>
    simp only [Row.fields, cons.injEq, escapeHeaderField_injective.eq_iff, decimalInt_injective.eq_iff]
      at fields
    obtain ⟨-, seq, actor, action, target, createdAt, prev, -⟩ := fields
    exact ⟨prev, seq, actor, action, target, data, format, fun _ => createdAt⟩
  | legacy =>
    simp only [Row.fields, cons.injEq, decimalInt_injective.eq_iff] at fields
    obtain ⟨-, seq, actor, action, target, prev, -⟩ := fields
    refine ⟨prev, seq, actor, action, target, data, format, ?_⟩
    rintro ⟨text, held⟩
    cases held.format_unique injective hashed rfl

/-! Accepted rows form a chain. -/

variable (c) in
def links (streamKey : Bytes) : Links Row Bytes where
  seq := Row.seq
  prev := Row.prevHash
  hash := Row.hash
  Bound r := ∃ ev, r.event c = .ok ev ∧ eventHash c streamKey ev = .ok r.hash

variable {start : Bytes} {rows : List Row} {want : Int}

theorem chain_cons : (links c streamKey).Chain want start (r :: rows) ↔
      r.seq = want ∧ r.prevHash = start ∧ (links c streamKey).Bound r ∧
        (links c streamKey).Chain (want + 1) r.hash rows := Iff.rfl

theorem chain_seq_bounds (chain : (links c streamKey).Chain want start rows) (mem : r ∈ rows) :
    want ≤ r.seq ∧ r.seq < want + rows.length :=
  (Links.chain_bound chain r mem).2

theorem chain_snoc : (links c streamKey).Chain want start (rows ++ [r]) ↔
      (links c streamKey).Chain want start rows ∧ r.seq = want + rows.length ∧
        r.prevHash = (links c streamKey).tail start rows ∧ (links c streamKey).Bound r :=
  Links.chain_concat

theorem verify_ok : verify c streamKey want start rows = .ok (last, reached) ↔
      (links c streamKey).Chain want start rows ∧ last = want + rows.length - 1 ∧
        reached = (links c streamKey).tail start rows := by
  induction rows generalizing want start with
  | nil =>
    simp only [verify, length_nil, Except.ok.injEq, Prod.mk.injEq]
    constructor
    · rintro ⟨rfl, rfl⟩
      exact ⟨trivial, by omega, rfl⟩
    · rintro ⟨-, rfl, rfl⟩
      exact ⟨by omega, rfl⟩
  | cons r rows ih =>
    rw [verify, chain_cons, length_cons]
    constructor
    · intro ok
      obtain ⟨seq, ok⟩ := guard_ok ok
      obtain ⟨prev, ok⟩ := guard_ok ok
      obtain ⟨ev, read, ok⟩ := bind_ok ok
      obtain ⟨expected, hashed, ok⟩ := bind_ok ok
      obtain ⟨same, rest⟩ := guard_ok ok
      rw [not_not] at seq prev same
      obtain ⟨chain, reach, hash⟩ := ih.mp rest
      exact ⟨⟨seq, prev, ⟨ev, read, by rw [hashed, same]⟩, chain⟩, by omega, hash⟩
    · rintro ⟨⟨seq, prev, ⟨ev, read, hashed⟩, chain⟩, reach, hash⟩
      rw [if_neg (not_not.mpr seq), if_neg (not_not.mpr prev), read]
      simp only [Bind.bind, Except.bind, hashed]
      rw [if_neg (not_not.mpr rfl)]
      exact ih.mpr ⟨chain, by omega, hash⟩

theorem links_commit (injective : Injective c.hash) (streamKey : Bytes) (a b : Row)
    (bound : (links c streamKey).Bound a) (bound' : (links c streamKey).Bound b) (same : a.hash = b.hash) :
    a.prevHash = b.prevHash ∧ Agree c streamKey a b := by
  obtain ⟨ev, read, hashed⟩ := bound
  obtain ⟨ev', read', hashed'⟩ := bound'
  obtain ⟨f, bytes, held⟩ := hashedIn_of_event read hashed
  obtain ⟨g, bytes', held'⟩ := hashedIn_of_event read' hashed'
  exact agree_of_hash injective held held' same

/-- The last hash commits to the whole sequence of rows, and the two formats never
share a hash. -/
theorem verify_commits (injective : Injective c.hash) {streamKey : Bytes} {want : Int} {start : Bytes}
    {rows rows' : List Row} {reached reached' : Int × Bytes} (ok : verify c streamKey want start rows = .ok reached)
    (ok' : verify c streamKey want start rows' = .ok reached')
    (ends : rows.getLast?.map Row.hash = rows'.getLast?.map Row.hash) :
    Forall₂ (Agree c streamKey) rows rows' ∧
      ∀ a b : Row, a.InFormat c streamKey .current → b.InFormat c streamKey .legacy → a.hash ≠ b.hash := by
  constructor
  · obtain ⟨chain, -, -⟩ := verify_ok.mp ok
    obtain ⟨chain', -, -⟩ := verify_ok.mp ok'
    obtain rfl | ⟨rows, a, rfl⟩ := rows.eq_nil_or_concat'
    · obtain rfl | ⟨rows', b, rfl⟩ := rows'.eq_nil_or_concat'
      · exact .nil
      · simp at ends
    · obtain rfl | ⟨rows', b, rfl⟩ := rows'.eq_nil_or_concat'
      · simp at ends
      rw [getLast?_concat, getLast?_concat] at ends
      have hashes : a.hash = b.hash := Option.some.inj ends
      -- the sequence number is part of the content, so equal last hashes fix the length
      obtain ⟨-, seq, -, bound⟩ := chain_snoc.mp chain
      obtain ⟨-, seq', -, bound'⟩ := chain_snoc.mp chain'
      obtain ⟨-, last⟩ := links_commit injective streamKey a b bound bound' hashes
      have together : rows.length = rows'.length := by
        have := last.seq
        omega
      obtain ⟨front, back, split, -, agree⟩ := Links.committed (links_commit injective streamKey) le_rfl
        chain chain' (by simp [together]) (by rw [Links.tail_concat, Links.tail_concat]; exact hashes)
      have lengths := congrArg length split
      have lengths' := agree.length_eq
      rw [length_append, length_append, length_singleton] at lengths
      rw [length_append, length_singleton] at lengths'
      have none : front = [] := length_eq_zero_iff.mp (by omega)
      rw [none] at split
      rwa [split]
  · rintro a b ⟨bytes, current⟩ ⟨bytes', legacy⟩
    exact formats_apart injective current legacy

end Commitment

/-- The digest kept symbolic: its preimage behind a mark. -/
def symbolic : Codec where
  Data := Unit
  hash := cons 0
  digest bytes := cons_ne_nil 0 bytes
  unmarshal _ := .ok none
  marshal _ := .ok (lit "\x7b\x7d")
  compact := by
    intro data text ok
    cases ok
    decide
  filled := by
    intro data text ok
    cases ok
    decide

def oldRow (seq : Int) (prevHash : Bytes) (createdAtMicros : Int) : Row :=
  { seq, actor := lit "a", action := lit "b", target := lit "c", data := lit "\x7b\x7d", prevHash,
    hash := hexEncode (symbolic.hash
      (legacyHeader (lit "t") seq (lit "a") (lit "b") (lit "c") prevHash ++ lit "\x7b\x7d")),
    createdAtMicros, canonical := [] }

def oldRows (createdAtMicros : Int) : List Row :=
  [oldRow 1 [] createdAtMicros, oldRow 2 (oldRow 1 [] createdAtMicros).hash createdAtMicros]

theorem verify_commits_old :
    Forall₂ (Agree symbolic (lit "t")) (oldRows 5) (oldRows 9) ∧
      ∀ a b : Row, a.InFormat symbolic (lit "t") .current → b.InFormat symbolic (lit "t") .legacy → a.hash ≠ b.hash := by
  have accepted : verify symbolic (lit "t") 1 [] (oldRows 5) = .ok _ := rfl
  have accepted' : verify symbolic (lit "t") 1 [] (oldRows 9) = .ok _ := rfl
  exact verify_commits cons_injective accepted accepted' rfl

end Probectl.Audit
