import Probectl.Audit.Heads

/-! The provider stream and its retention: the provider half of `audit.go` and
`pruneProviderWithProofReceipt` of `retention.go`, each call one transaction. -/
namespace Probectl.Audit

open Strings List HashChain Run Links

def providerLabel : Bytes := lit "provider"
def providerStream : Bytes := lit "provider"

/-- `strings.HasPrefix(action, "provider.breakglass_")`. -/
def isProtectedBreakGlassAction (action : Bytes) : Bool := (lit "provider.breakglass_").isPrefixOf action

/-- The upsert of the singleton head row, guarded by the head that was read. -/
def updateProviderHead (s : Stream) (old : StreamHead) (newSeq : Int) (newHash : Bytes) : Except Fault Stream :=
  match s.head with
  | none => .ok { s with head := some ⟨newSeq, newHash, old.prunedSeq, old.prunedHash, []⟩ }
  | some h =>
    if h.headSeq = old.headSeq ∧ h.headHash = old.headHash then
      .ok { s with head := some { h with headSeq := newSeq, headHash := newHash } }
    else .error (.nonMonotonic providerLabel)

section Provider
variable (c : Codec) (db : Database)

def extendProviderHead (s : Stream) (head : StreamHead) (bounds : StreamBounds) : Except Fault (StreamHead × Stream) := do
  verifyExtension c providerLabel providerStream s.rows head bounds
  let s ← updateProviderHead s head bounds.lastSeq bounds.lastHash
  .ok ({ head with headSeq := bounds.lastSeq, headHash := bounds.lastHash }, s)

def ensureProviderStreamHead (s : Stream) : Except Fault (StreamHead × Stream) := do
  let stored ← readStreamHead providerLabel s
  match readStreamBounds s, stored with
  | none, none => .ok (.empty, s)
  | none, some head =>
    if head.headSeq ≠ head.prunedSeq ∨ head.headHash ≠ head.prunedHash then
      .error (.tailMissing providerLabel head.prunedSeq head.headSeq)
    else .ok (head, s)
  | some bounds, none => .ok (inferredStreamHead bounds, { s with head := some (inferredStreamHead bounds) })
  | some bounds, some head =>
    if bounds.firstSeq ≠ head.prunedSeq + 1 ∨ bounds.firstPrevHash ≠ head.prunedHash then
      .error (.boundaryBroken providerLabel bounds.firstSeq head.prunedSeq)
    else if bounds.lastSeq < head.headSeq then .error (.tailDeleted providerLabel bounds.lastSeq head.headSeq)
    else if bounds.lastSeq = head.headSeq then
      if bounds.lastHash ≠ head.headHash then .error (.headHashMismatch providerLabel head.headSeq)
      else .ok (head, s)
    else extendProviderHead c s head bounds

/-- `afterInsert` stages encrypted attribution in the same transaction. -/
def providerAppendLockedWith (s : Stream) (e : Entry c.Data) (afterInsert : Row → Except Fault Unit) :
    Except Fault (Row × Stream) := do
  let (head, s) ← ensureProviderStreamHead c s
  let canonical ← canonicalAuditData c e.data
  let row := nextRow c db providerStream head e.createdAtMicros e.actor e.action e.target canonical
  let rows ← insertRow db s.rows row
  afterInsert row
  let s ← updateProviderHead { s with rows } head row.seq row.hash
  .ok (row, s)

def providerAppendLocked (s : Stream) (e : Entry c.Data) : Except Fault (Row × Stream) :=
  providerAppendLockedWith c db s e fun _ => .ok ()

def providerAppendTx (s : Stream) (e : Entry c.Data) : Except Fault (Row × Stream) :=
  if isProtectedBreakGlassAction e.action then .error (.protectedAction e.action) else providerAppendLocked c db s e

def providerVerify (s : Stream) : Except Fault Stream := do
  let (head, s) ← ensureProviderStreamHead c s
  verifyFromLocked c providerLabel providerStream s.rows head 0
  .ok s

/-! Retention. -/

/-- The encrypted attribution schema: the sequence its head row covers, and whether any
coverage row exists. -/
structure Coverage where
  coveredSeq : Option Int
  anyRow : Bool

structure Prune where
  window : Int
  watermark : Int
  verified : Bool
  irVerified : Bool
  coverage : Option Coverage
  now : Int
  stampMicros : Int

def Prune.cutoff (p : Prune) : Int := p.now - p.window

def Prune.cutoffMicros (p : Prune) : Int := p.cutoff / 1000

structure Receipt where
  pruned : Nat
  watermark : Int
  cutoff : Int
  window : Int

/-- `btrim(text)`. -/
def btrim (s : Bytes) : Bytes := ((s.dropWhile (· = 32)).reverse.dropWhile (· = 32)).reverse

/-- `LIKE '%part%'` for a part without wildcards. -/
def likeAround (part s : Bytes) : Bool := s.tails.any fun rest => part.isPrefixOf rest

def protectedEvents (lower : Bytes → Bytes) (rows : List Row) : Bool :=
  rows.any fun r =>
    likeAround (lit "breakglass") (lower (btrim r.action)) || likeAround (lit "break_glass") (lower (btrim r.action)) ||
      likeAround (lit "break-glass") (lower (btrim r.action))

def coverageGate (lower : Bytes → Bytes) (rows : List Row) (p : Prune) : Except Fault Unit :=
  match p.coverage with
  | none => .ok ()
  | some coverage =>
    if p.verified = false then .error .proofRequired
    else
      match coverage.coveredSeq with
      | none => .error .coverageMissing
      | some covered =>
        if (0 < covered ∨ coverage.anyRow = true ∨ protectedEvents lower rows = true) ∧ p.irVerified = false then
          .error .coverageProofRequired
        else if p.irVerified = true ∧ covered < p.watermark then .error (.coverageExceeded p.watermark covered)
        else .ok ()

def validateProviderPruneWatermark (watermark : Int) (head : StreamHead) : Except Fault Unit :=
  if watermark < head.prunedSeq then .error (.watermarkBehind watermark head.prunedSeq)
  else if head.headSeq < watermark then .error (.watermarkAbove watermark head.headSeq)
  else .ok ()

def Prune.eligible (p : Prune) (r : Row) : Bool := r.seq ≤ p.watermark && r.createdAtMicros < p.cutoffMicros

def Prune.cut (p : Prune) (rows : List Row) : Option Row := ((ordered rows).takeWhile p.eligible).getLast?

structure Deleted where
  cutSeq : Int
  cutHash : Bytes
  pruned : Nat
  rows : List Row

def deleteProviderPrefix (p : Prune) (rows : List Row) : Deleted :=
  match p.cut rows with
  | none => ⟨0, [], 0, rows⟩
  | some cut =>
    ⟨cut.seq, cut.hash, (rows.filter fun r => r.seq ≤ cut.seq).length, rows.filter fun r => ¬r.seq ≤ cut.seq⟩

def updateProviderPruneAnchor (s : Stream) (head : StreamHead) (cutSeq : Int) (cutHash : Bytes) : Except Fault Stream :=
  match s.head with
  | none => .error (.nonMonotonic providerLabel)
  | some h =>
    if h.headSeq = head.headSeq ∧ h.headHash = head.headHash ∧ h.prunedSeq < cutSeq then
      .ok { s with head := some { h with prunedSeq := cutSeq, prunedHash := cutHash } }
    else .error (.nonMonotonic providerLabel)

structure Retention where
  db : Database
  lower : Bytes → Bytes
  receiptData : Receipt → c.Data

variable {c} in
def Retention.receipt (env : Retention c) (p : Prune) (pruned : Nat) : Entry c.Data :=
  { createdAtMicros := p.stampMicros, actor := lit "system:audit-retention", action := lit "audit.retention_prune",
    target := lit "provider", data := some (env.receiptData ⟨pruned, p.watermark, p.cutoff, p.window⟩) }

structure Pruned where
  pruned : Nat
  stream : Stream
  receipt : Option Row

variable {c}

def prunePrefix (env : Retention c) (head : StreamHead) (s : Stream) (p : Prune) : Except Fault Pruned :=
  let deleted := deleteProviderPrefix p s.rows
  if deleted.pruned = 0 then .ok ⟨0, { s with rows := deleted.rows }, none⟩
  else do
    let s ← updateProviderPruneAnchor { s with rows := deleted.rows } head deleted.cutSeq deleted.cutHash
    let (row, s) ← providerAppendLocked c env.db s (env.receipt p deleted.pruned)
    .ok ⟨deleted.pruned, s, some row⟩

def pruneProvider (env : Retention c) (s : Stream) (p : Prune) : Except Fault Pruned :=
  if ¬0 < p.window then .ok ⟨0, s, none⟩
  else if p.watermark < 0 then .error .negativeWatermark
  else if p.watermark = 0 then .ok ⟨0, s, none⟩
  else do
    coverageGate env.lower s.rows p
    let (head, s) ← ensureProviderStreamHead c s
    validateProviderPruneWatermark p.watermark head
    verifyFromLocked c providerLabel providerStream s.rows head 0
    prunePrefix env head s p

end Provider

/-! A stream without tampering. -/

def Stream.anchor (s : Stream) : StreamHead := s.head.getD .empty

/-- The retained rows run from the prune anchor to the head. -/
structure Intact (c : Codec) (s : Stream) : Prop where
  covered : s.head = none → s.rows = []
  valid : s.anchor.validate providerLabel = .ok ()
  chain : (links c providerStream).Chain (s.anchor.prunedSeq + 1) s.anchor.prunedHash s.rows
  reached : s.anchor.prunedSeq + s.rows.length = s.anchor.headSeq
  ends : (links c providerStream).tail s.anchor.prunedHash s.rows = s.anchor.headHash

variable {s : Stream} {p : Prune} {out : Pruned}

section Intact
variable {c : Codec} {db : Database}

theorem intact_empty : Intact c ⟨[], none⟩ := ⟨fun _ => rfl, rfl, trivial, rfl, rfl⟩

theorem ensureProviderStreamHead_intact (intact : Intact c s) : ensureProviderStreamHead c s = .ok (s.anchor, s) := by
  obtain ⟨covered, valid, chain, reached, ends⟩ := intact
  obtain ⟨rows, head⟩ := s
  unfold ensureProviderStreamHead
  cases head with
  | none =>
    obtain rfl : rows = [] := covered rfl
    rfl
  | some h =>
    simp only [Stream.anchor, Option.getD_some] at *
    simp only [readStreamHead, valid, Except.map, Bind.bind, Except.bind]
    by_cases empty : rows = []
    · subst empty
      rw [readStreamBounds_none.mpr rfl]
      rw [length_nil] at reached
      dsimp only
      rw [if_neg]
      rw [not_or, not_not, not_not]
      exact ⟨by omega, ends.symm⟩
    · rw [readStreamBounds_chain chain empty]
      dsimp only
      rw [if_neg (by simp), if_neg (by omega), if_pos (by omega), if_neg (not_not.mpr ends)]

theorem verifyFromLocked_intact (intact : Intact c s) :
    verifyFromLocked c providerLabel providerStream s.rows s.anchor 0 = .ok () := by
  have rows := after_chain intact.chain
  rw [verifyFromLocked_ok, rows]
  exact ⟨intact.chain, intact.reached, intact.ends⟩

theorem providerVerify_intact (intact : Intact c s) : providerVerify c s = .ok s := by
  unfold providerVerify
  rw [ensureProviderStreamHead_intact intact]
  simp only [Bind.bind, Except.bind, verifyFromLocked_intact intact]

variable {s' : Stream}

theorem updateProviderHead_ok {rows : List Row} {newSeq : Int} {newHash : Bytes}
    (ok : updateProviderHead { s with rows } s.anchor newSeq newHash = .ok s') :
    s'.rows = rows ∧ s'.head ≠ none ∧ s'.anchor.headSeq = newSeq ∧ s'.anchor.headHash = newHash ∧
      s'.anchor.prunedSeq = s.anchor.prunedSeq ∧ s'.anchor.prunedHash = s.anchor.prunedHash := by
  obtain ⟨_, head⟩ := s
  unfold updateProviderHead Stream.anchor at *
  cases head with
  | none =>
    cases ok
    exact ⟨rfl, nofun, rfl, rfl, rfl, rfl⟩
  | some h =>
    dsimp only at ok
    split_ifs at ok
    cases ok
    exact ⟨rfl, nofun, rfl, rfl, rfl, rfl⟩

theorem append_intact {e : Entry c.Data} {hook : Row → Except Fault Unit} {row : Row} (intact : Intact c s)
    (ok : providerAppendLockedWith c db s e hook = .ok (row, s')) :
    Intact c s' ∧ s'.rows = s.rows ++ [row] ∧ s'.anchor.prunedSeq = s.anchor.prunedSeq ∧
      s'.anchor.prunedHash = s.anchor.prunedHash ∧ s'.anchor.headSeq = s.anchor.headSeq + 1 ∧
      (links c providerStream).Bound row ∧ row.seq = s.anchor.headSeq + 1 ∧ row.prevHash = s.anchor.headHash := by
  unfold providerAppendLockedWith at ok
  rw [ensureProviderStreamHead_intact intact] at ok
  obtain ⟨found, here, ok⟩ := bind_ok ok
  cases here
  obtain ⟨canonical, bytes, ok⟩ := bind_ok ok
  obtain ⟨rows, inserted, ok⟩ := bind_ok ok
  obtain ⟨⟨⟩, -, ok⟩ := bind_ok ok
  obtain ⟨moved, updated, ok⟩ := bind_ok ok
  obtain ⟨rfl, rfl⟩ := Prod.mk.inj (Except.ok.inj ok)
  obtain ⟨-, inserted⟩ := guard_ok inserted
  obtain rfl := (Except.ok.inj inserted).symm
  obtain ⟨bound, -⟩ := nextRow_bound db providerStream s.anchor e.createdAtMicros e.actor e.action e.target
    (canonicalAuditData_filled bytes)
  generalize nextRow_eq : nextRow c db providerStream s.anchor e.createdAtMicros e.actor e.action e.target canonical = row
    at *
  have seq : row.seq = s.anchor.headSeq + 1 := by rw [← nextRow_eq]; rfl
  have prev : row.prevHash = s.anchor.headHash := by rw [← nextRow_eq]; rfl
  obtain ⟨rows, stored, headSeq, headHash, prunedSeq, prunedHash⟩ := updateProviderHead_ok updated
  obtain ⟨low, high, -, pruned⟩ := validate_ok.mp intact.valid
  have filled := bound_hash_ne_nil bound
  have reached := intact.reached
  have intact' : Intact c moved := by
    refine ⟨fun none => absurd none stored, ?_, ?_, ?_, ?_⟩
    · rw [validate_ok, prunedSeq, prunedHash, headHash]
      exact ⟨low, by omega, ⟨fun zero => by omega, fun none => absurd none filled⟩, pruned⟩
    · rw [rows, prunedSeq, prunedHash]
      exact chain_snoc.mpr ⟨intact.chain, by omega, prev.trans intact.ends.symm, bound⟩
    · rw [rows, length_append, length_singleton]
      omega
    · rw [rows, headHash, tail_concat]
      rfl
  exact ⟨intact', rows, prunedSeq, prunedHash, by rw [headSeq, seq], bound, seq, prev⟩

theorem deleteProviderPrefix_chain {pruned : Int} {start : Bytes} {rows : List Row}
    (chain : (links c providerStream).Chain (pruned + 1) start rows) :
    ∃ removed kept, rows = removed ++ kept ∧ (∀ r ∈ removed, p.eligible r = true) ∧
      (removed = [] ∧ deleteProviderPrefix p rows = ⟨0, [], 0, rows⟩ ∨
        removed ≠ [] ∧
          deleteProviderPrefix p rows =
            ⟨pruned + removed.length, (links c providerStream).tail start removed, removed.length, kept⟩) := by
  refine ⟨rows.takeWhile p.eligible, rows.dropWhile p.eligible, takeWhile_append_dropWhile.symm,
    fun r mem => mem_takeWhile_imp mem, ?_⟩
  have split : rows = rows.takeWhile p.eligible ++ rows.dropWhile p.eligible := takeWhile_append_dropWhile.symm
  unfold deleteProviderPrefix Prune.cut
  rw [ordered_chain chain]
  generalize rows.takeWhile p.eligible = removed at *
  generalize rows.dropWhile p.eligible = kept at *
  subst split
  obtain rfl | ⟨front, cut, rfl⟩ := removed.eq_nil_or_concat'
  · exact .inl ⟨rfl, rfl⟩
  right
  obtain ⟨before, behind⟩ := chain_append.mp chain
  obtain ⟨-, seq, -, -⟩ := chain_snoc.mp before
  have reach : pruned + ((front ++ [cut]).length : Int) = cut.seq := by
    rw [length_append, length_singleton]
    omega
  have low r (mem : r ∈ front ++ [cut]) : r.seq ≤ cut.seq := by
    have := (chain_seq_bounds before mem).2
    omega
  have high r (mem : r ∈ kept) : ¬r.seq ≤ cut.seq := by
    have := (chain_seq_bounds behind mem).1
    omega
  have gone : ((front ++ [cut]) ++ kept).filter (fun r => r.seq ≤ cut.seq) = front ++ [cut] := by
    rw [filter_append, filter_eq_self.mpr fun r mem => decide_eq_true (low r mem),
      filter_eq_nil_iff.mpr fun r mem => by simpa using high r mem, append_nil]
  have left : ((front ++ [cut]) ++ kept).filter (fun r => ¬r.seq ≤ cut.seq) = kept := by
    rw [filter_append, filter_eq_nil_iff.mpr fun r mem => by simpa using low r mem,
      filter_eq_self.mpr fun r mem => decide_eq_true (high r mem), nil_append]
  refine ⟨by simp, ?_⟩
  rw [getLast?_concat, reach, tail_concat]
  dsimp only
  rw [gone, left]
  rfl

structure Cut (c : Codec) (p : Prune) (s : Stream) (out : Pruned) (removed kept : List Row) : Prop where
  split : s.rows = removed ++ kept
  eligible : ∀ r ∈ removed, p.eligible r = true
  intact : Intact c out.stream
  rows : out.stream.rows = kept ++ out.receipt.toList
  prunedSeq : out.stream.anchor.prunedSeq = s.anchor.prunedSeq + removed.length
  prunedHash : out.stream.anchor.prunedHash = (links c providerStream).tail s.anchor.prunedHash removed
  headSeq : out.stream.anchor.headSeq = s.anchor.headSeq + out.receipt.toList.length
  receipt : ∀ row ∈ out.receipt, (links c providerStream).Bound row ∧ row.seq = s.anchor.headSeq + 1 ∧
    row.prevHash = s.anchor.headHash

theorem cut_none (intact : Intact c s) : Cut c p s ⟨0, s, none⟩ [] s.rows where
  split := rfl
  eligible := nofun
  intact := intact
  rows := (append_nil _).symm
  prunedSeq := (Int.add_zero _).symm
  prunedHash := rfl
  headSeq := (Int.add_zero _).symm
  receipt := nofun

theorem updateProviderPruneAnchor_ok {cutSeq : Int} {cutHash : Bytes}
    (ok : updateProviderPruneAnchor s s.anchor cutSeq cutHash = .ok s') :
    s' = ⟨s.rows, some { s.anchor with prunedSeq := cutSeq, prunedHash := cutHash }⟩ := by
  unfold updateProviderPruneAnchor Stream.anchor at *
  split at ok
  · cases ok
  rename_i h here
  split_ifs at ok
  cases ok
  rw [here]
  rfl

theorem prunePrefix_cut {env : Retention c} (intact : Intact c s)
    (ok : prunePrefix env s.anchor s p = .ok out) : ∃ removed kept, Cut c p s out removed kept := by
  obtain ⟨removed, kept, split, eligible, cases⟩ := deleteProviderPrefix_chain intact.chain
  unfold prunePrefix at ok
  rcases cases with ⟨rfl, deleted⟩ | ⟨some, deleted⟩
  · rw [deleted] at ok
    cases ok
    exact ⟨[], s.rows, cut_none intact⟩
  · rw [deleted] at ok
    rw [if_neg (by simpa using some)] at ok
    obtain ⟨anchored, moved, ok⟩ := bind_ok ok
    obtain ⟨⟨row, done⟩, appended, ok⟩ := bind_ok ok
    obtain rfl := (Except.ok.inj ok).symm
    obtain rfl := updateProviderPruneAnchor_ok moved
    have chain := intact.chain
    have reached := intact.reached
    have ends := intact.ends
    rw [split] at chain reached ends
    obtain ⟨before, behind⟩ := chain_append.mp chain
    obtain ⟨low, -, head, -⟩ := validate_ok.mp intact.valid
    rw [length_append] at reached
    have count : 0 < removed.length := length_pos_iff.mpr some
    -- the anchor moves onto the last row removed
    have intact' : Intact c ⟨kept, Option.some { s.anchor with
        prunedSeq := s.anchor.prunedSeq + removed.length,
        prunedHash := (links c providerStream).tail s.anchor.prunedHash removed }⟩ := by
      refine ⟨nofun, validate_ok.mpr ⟨?_, ?_, head, ?_⟩, ?_, ?_, ?_⟩ <;> simp only [Stream.anchor, Option.getD_some] at *
      · omega
      · omega
      · obtain rfl | ⟨front, last, rfl⟩ := removed.eq_nil_or_concat'
        · exact absurd rfl some
        · rw [tail_concat]
          have filled := bound_hash_ne_nil (chain_snoc.mp before).2.2.2
          exact ⟨fun zero => by omega, fun none => absurd none filled⟩
      · rwa [Int.add_right_comm]
      · omega
      · rwa [← Links.tail_append]
    obtain ⟨done', rows, prunedSeq, prunedHash, headSeq, bound, seq, prev⟩ := append_intact intact' appended
    refine ⟨removed, kept, split, eligible, done', rows, prunedSeq, prunedHash, headSeq, ?_⟩
    intro r mem
    cases mem
    exact ⟨bound, seq, prev⟩

theorem pruneProvider_cut {env : Retention c} (intact : Intact c s)
    (ok : pruneProvider env s p = .ok out) : ∃ removed kept, Cut c p s out removed kept := by
  unfold pruneProvider at ok
  split at ok
  · cases ok
    exact ⟨[], s.rows, cut_none intact⟩
  obtain ⟨-, ok⟩ := guard_ok ok
  split at ok
  · cases ok
    exact ⟨[], s.rows, cut_none intact⟩
  obtain ⟨⟨⟩, -, ok⟩ := bind_ok ok
  rw [ensureProviderStreamHead_intact intact] at ok
  obtain ⟨found, here, ok⟩ := bind_ok ok
  cases here
  obtain ⟨⟨⟩, -, ok⟩ := bind_ok ok
  obtain ⟨⟨⟩, -, ok⟩ := bind_ok ok
  exact prunePrefix_cut intact ok

end Intact

/-! Whole runs. `history` keeps every row that was ever appended. -/

structure Provider where
  stream : Stream
  history : List Row

def Provider.initial : Provider := ⟨⟨[], none⟩, []⟩

inductive Call (Data : Type) where
  | append (e : Entry Data)
  | prune (p : Prune)
  | verify

section Runs
variable {c : Codec} (env : Retention c)

/-- Every call is one transaction; a failed one leaves nothing. -/
def Provider.step (s : Provider) : Call c.Data → Option Provider
  | .append e =>
    match providerAppendTx c env.db s.stream e with
    | .error _ => some s
    | .ok (row, stream) => some ⟨stream, s.history ++ [row]⟩
  | .prune p =>
    match pruneProvider env s.stream p with
    | .error _ => some s
    | .ok out => some ⟨out.stream, s.history ++ out.receipt.toList⟩
  | .verify =>
    match providerVerify c s.stream with
    | .error _ => some s
    | .ok stream => some { s with stream }

variable {env}

/-- The history is one chain, and what is retained is its back. -/
structure Held (c : Codec) (s : Provider) : Prop where
  intact : Intact c s.stream
  chain : (links c providerStream).Chain 1 [] s.history
  retained : ∃ gone, s.history = gone ++ s.stream.rows ∧ s.stream.anchor.prunedSeq = gone.length ∧
    s.stream.anchor.prunedHash = (links c providerStream).tail [] gone

theorem held_initial : Held c .initial := ⟨intact_empty, trivial, [], rfl, rfl, rfl⟩

structure Passes (s s' : Provider) (a : Call c.Data) : Prop where
  head : s.stream.anchor.headSeq ≤ s'.stream.anchor.headSeq
  rows : ∃ removed kept, s.stream.rows = removed ++ kept ∧ kept <+: s'.stream.rows ∧
    ∀ r ∈ removed, r ∉ s'.stream.rows ∧
      ∃ p, a = .prune p ∧ r.seq ≤ p.watermark ∧ r.createdAtMicros * 1000 < p.cutoff

theorem Held.headSeq {s : Provider} (held : Held c s) : s.stream.anchor.headSeq = s.history.length := by
  obtain ⟨gone, split, pruned, -⟩ := held.retained
  have reached := held.intact.reached
  rw [split, length_append]
  omega

theorem Held.headHash {s : Provider} (held : Held c s) :
    s.stream.anchor.headHash = (links c providerStream).tail [] s.history := by
  obtain ⟨gone, split, -, hash⟩ := held.retained
  rw [split, Links.tail_append, ← hash, held.intact.ends]

theorem Held.extend {s : Provider} (held : Held c s) {row : Row} (bound : (links c providerStream).Bound row)
    (seq : row.seq = s.stream.anchor.headSeq + 1) (prev : row.prevHash = s.stream.anchor.headHash) :
    (links c providerStream).Chain 1 [] (s.history ++ [row]) := by
  refine chain_snoc.mpr ⟨held.chain, ?_, prev.trans held.headHash, bound⟩
  rw [seq, held.headSeq, Int.add_comm]

theorem passes_same {s s' : Provider} {a : Call c.Data} (head : s.stream.anchor.headSeq ≤ s'.stream.anchor.headSeq)
    (rows : s.stream.rows <+: s'.stream.rows) : Passes s s' a :=
  ⟨head, [], s.stream.rows, rfl, rows, nofun⟩

theorem Cut.removed {removed kept : List Row} (intact : Intact c s)
    (cut : Cut c p s out removed kept) : ∀ r ∈ removed, r ∉ out.stream.rows := by
  intro r gone still
  have above := (chain_seq_bounds cut.intact.chain still).1
  have chain := intact.chain
  rw [cut.split] at chain
  have below := (chain_seq_bounds (chain_append.mp chain).1 gone).2
  have pruned := cut.prunedSeq
  omega

theorem Held.prune {s : Provider} (held : Held c s) {removed kept : List Row}
    (cut : Cut c p s.stream out removed kept) :
    Held c ⟨out.stream, s.history ++ out.receipt.toList⟩ ∧
      Passes s ⟨out.stream, s.history ++ out.receipt.toList⟩ (.prune p : Call c.Data) := by
  obtain ⟨gone, split, pruned, hash⟩ := held.retained
  have chain : (links c providerStream).Chain 1 [] (s.history ++ out.receipt.toList) := by
    cases receipt : out.receipt with
    | none => simpa using held.chain
    | some row =>
      obtain ⟨bound, seq, prev⟩ := cut.receipt row receipt
      exact held.extend bound seq prev
  refine ⟨⟨cut.intact, chain, gone ++ removed, ?_, ?_, ?_⟩, ?_, removed, kept, cut.split, ?_, ?_⟩
  · rw [split, cut.split, cut.rows]
    simp
  · rw [cut.prunedSeq, pruned, length_append]
    rfl
  · rw [cut.prunedHash, hash, Links.tail_append]
  · have := cut.headSeq
    change s.stream.anchor.headSeq ≤ out.stream.anchor.headSeq
    omega
  · rw [cut.rows]
    exact prefix_append _ _
  · intro r mem
    refine ⟨cut.removed held.intact r mem, p, rfl, ?_⟩
    have eligible := cut.eligible r mem
    simp only [Prune.eligible, Bool.and_eq_true, decide_eq_true_eq] at eligible
    obtain ⟨exported, aged⟩ := eligible
    unfold Prune.cutoffMicros at aged
    exact ⟨exported, by omega⟩

theorem Held.step {s s' : Provider} {a : Call c.Data} (held : Held c s) (stepped : s.step env a = some s') :
    Held c s' ∧ Passes s s' a := by
  have kept : Passes s s a := passes_same le_rfl (prefix_refl _)
  cases a with
  | append e =>
    dsimp only [Provider.step] at stepped
    split at stepped
    · cases stepped
      exact ⟨held, kept⟩
    rename_i row stream ok
    cases stepped
    obtain ⟨-, ok⟩ := guard_ok ok
    obtain ⟨intact, rows, prunedSeq, prunedHash, headSeq, bound, seq, prev⟩ := append_intact held.intact ok
    obtain ⟨gone, split, pruned, hash⟩ := held.retained
    refine ⟨⟨intact, held.extend bound seq prev, gone, ?_, ?_, ?_⟩, passes_same ?_ ?_⟩
    · rw [split, rows, append_assoc]
    · rw [prunedSeq, pruned]
    · rw [prunedHash, hash]
    · change s.stream.anchor.headSeq ≤ stream.anchor.headSeq
      omega
    · rw [rows]
      exact prefix_append _ _
  | prune p =>
    dsimp only [Provider.step] at stepped
    split at stepped
    · cases stepped
      exact ⟨held, kept⟩
    rename_i out ok
    cases stepped
    obtain ⟨removed, kept, cut⟩ := pruneProvider_cut held.intact ok
    exact held.prune cut
  | verify =>
    dsimp only [Provider.step] at stepped
    rw [providerVerify_intact held.intact] at stepped
    cases stepped
    exact ⟨held, kept⟩

/-- In every reachable state the stream verifies and holds exactly the rows between the prune
anchor and the head; a step never moves the head back and removes only a front of exported,
aged rows. -/
theorem retention_sound {acts : List (Call c.Data)} {s : Provider}
    (run : run (Provider.step env) .initial acts = some s) :
    providerVerify c s.stream = .ok s.stream ∧
      (∀ r, r ∈ s.stream.rows ↔
        r ∈ s.history ∧ s.stream.anchor.prunedSeq < r.seq ∧ r.seq ≤ s.stream.anchor.headSeq) ∧
      (∀ n, (∃ r ∈ s.stream.rows, r.seq = n) ↔
        s.stream.anchor.prunedSeq < n ∧ n ≤ s.stream.anchor.headSeq) ∧
      ∀ a s', s.step env a = some s' → Passes s s' a := by
  have held : Held c s :=
    run_invariant (fun _ _ _ before _ stepped => (before.step stepped).1) held_initial
      (along_of_forall (fun _ _ => trivial) _ _) run
  obtain ⟨gone, split, pruned, -⟩ := held.retained
  have reached := held.intact.reached
  have chain := held.chain
  rw [split] at chain
  have before := (chain_append.mp chain).1
  have between r (mem : r ∈ s.stream.rows) :
      s.stream.anchor.prunedSeq < r.seq ∧ r.seq ≤ s.stream.anchor.headSeq := by
    obtain ⟨low, high⟩ := chain_seq_bounds held.intact.chain mem
    exact ⟨by omega, by omega⟩
  refine ⟨providerVerify_intact held.intact, ?_, ?_, fun a s' stepped => (held.step stepped).2⟩
  · intro r
    constructor
    · intro mem
      exact ⟨by rw [split]; exact mem_append_right _ mem, between r mem⟩
    rintro ⟨mem, above, -⟩
    rw [split] at mem
    rcases mem_append.mp mem with early | late
    · have := (chain_seq_bounds before early).2
      omega
    · exact late
  · intro n
    constructor
    · rintro ⟨r, mem, rfl⟩
      exact between r mem
    rintro ⟨above, below⟩
    have inside : (n - s.stream.anchor.prunedSeq - 1).toNat < s.stream.rows.length := by omega
    obtain ⟨r, mem, seq⟩ := chain_seq held.intact.chain inside
    refine ⟨r, mem, ?_⟩
    change r.seq = _ at seq
    omega

end Runs

def plainRetention : Retention symbolic := ⟨openTables, id, fun _ => ()⟩

def agedCalls : List (Call symbolic.Data) :=
  [.append ⟨1, lit "alice", lit "login", [], none⟩, .append ⟨9, lit "bob", lit "login", [], none⟩,
    .prune { window := 1000, watermark := 2, verified := false, irVerified := false, coverage := none, now := 6000,
             stampMicros := 10 }]

def afterAged : Provider := (run (Provider.step plainRetention) .initial agedCalls).getD .initial

theorem retention_sound_aged :
    afterAged.stream.rows.map Row.seq = [2, 3] ∧ providerVerify symbolic afterAged.stream = .ok afterAged.stream ∧
      (∀ r, r ∈ afterAged.stream.rows ↔
        r ∈ afterAged.history ∧ afterAged.stream.anchor.prunedSeq < r.seq ∧ r.seq ≤ afterAged.stream.anchor.headSeq) ∧
      (∀ n, (∃ r ∈ afterAged.stream.rows, r.seq = n) ↔
        afterAged.stream.anchor.prunedSeq < n ∧ n ≤ afterAged.stream.anchor.headSeq) ∧
      ∀ a s', afterAged.step plainRetention a = some s' → Passes afterAged s' a := by
  have total : (run (Provider.step plainRetention) .initial agedCalls).isSome = true := by decide +kernel
  have run : run (Provider.step plainRetention) .initial agedCalls = some afterAged := by
    obtain ⟨s, ran⟩ := Option.isSome_iff_exists.mp total
    rw [afterAged, ran]
    rfl
  exact ⟨by decide +kernel, retention_sound run⟩

end Probectl.Audit
