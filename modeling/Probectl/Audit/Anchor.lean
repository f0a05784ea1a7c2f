import Probectl.Audit.Heads

/-! The tenant stream and the signature over its head: `headanchor.go`, and
the tenant half of `audit.go`. -/
namespace Probectl.Audit

open Strings List Function HashChain Run Text

structure Signer where
  sign : Bytes → Bytes
  verifies : Bytes → Bytes → Bool

/-- Tenant identifiers are UUID columns: no line break fits in one. -/
abbrev TenantID := { id : Bytes // newline ∉ id }

def tenantLabel : Bytes := lit "tenant"

def headAnchorMessage (t : TenantID) (headSeq : Int) (headHash : Bytes) : Bytes :=
  lines newline [lit "probectl.audit.tenant-head.v1", t.1, decimalInt headSeq, headHash]

def signTenantHead (anchor : Option Signer) (t : TenantID) (headSeq : Int) (headHash : Bytes) : Bytes × List Bytes :=
  match anchor with
  | none => ([], [])
  | some key => (key.sign (headAnchorMessage t headSeq headHash), [headAnchorMessage t headSeq headHash])

def verifyTenantHeadAnchor (anchor : Option Signer) (t : TenantID) (head : StreamHead) : Except Fault Unit :=
  if head.headSeq = 0 then .ok ()
  else
    match anchor with
    | none => .ok ()
    | some key =>
      if head.headSig.length = 0 then .error (.anchorMissing head.headSeq)
      else if key.verifies (headAnchorMessage t head.headSeq head.headHash) head.headSig = false then
        .error (.anchorInvalid head.headSeq)
      else .ok ()

def validateTenantCursorAgainstHead (cursor : Int) (head : StreamHead) : Except Fault Unit :=
  if head.headSeq < cursor then .error (.cursorAbove cursor head.headSeq)
  else if cursor < head.prunedSeq then .error (.cursorBehind cursor head.prunedSeq)
  else .ok ()

/-- `probectl_advance_tenant_audit_head`: the head row it leaves, or no row changed. -/
def advanceTenantAuditHead (stored : Option StreamHead) (newSeq : Int) (newHash : Bytes) (old : StreamHead) (sig : Bytes) :
    Option StreamHead :=
  match stored with
  | none => some ⟨newSeq, newHash, old.prunedSeq, old.prunedHash, sig⟩
  | some h =>
    if h.headSeq = old.headSeq ∧ h.headHash = old.headHash ∧ h.headSeq < newSeq then
      some { h with headSeq := newSeq, headHash := newHash, headSig := sig }
    else none

structure Reconciled where
  head : StreamHead
  stream : Stream
  signed : List Bytes

def updateTenantHead (anchor : Option Signer) (t : TenantID) (s : Stream) (old : StreamHead) (newSeq : Int)
    (newHash : Bytes) : Except Fault Reconciled :=
  match advanceTenantAuditHead s.head newSeq newHash old (signTenantHead anchor t newSeq newHash).1 with
  | none => .error (.nonMonotonic tenantLabel)
  | some head =>
    .ok
      ⟨{ old with headSeq := newSeq, headHash := newHash, headSig := (signTenantHead anchor t newSeq newHash).1 },
        { s with head := some head }, (signTenantHead anchor t newSeq newHash).2⟩

section Tenant
variable (c : Codec) (db : Database) (anchor : Option Signer) (t : TenantID)

def inferTenantHead (cursor : Int) (s : Stream) (bounds : StreamBounds) : Except Fault Reconciled :=
  match validateTenantCursorAgainstHead cursor (inferredStreamHead bounds) with
  | .error cause => .error (.notReconstructed cause)
  | .ok () =>
    let signature := signTenantHead anchor t bounds.lastSeq bounds.lastHash
    let head := { inferredStreamHead bounds with headSig := signature.1 }
    .ok ⟨head, { s with head := some head }, signature.2⟩

def extendTenantHead (cursor : Int) (s : Stream) (head : StreamHead) (bounds : StreamBounds) : Except Fault Reconciled := do
  verifyExtension c tenantLabel t.1 s.rows head bounds
  let out ← updateTenantHead anchor t s head bounds.lastSeq bounds.lastHash
  validateTenantCursorAgainstHead cursor out.head
  .ok out

def keepTenantHead (cursor : Int) (s : Stream) (head : StreamHead) : Except Fault Reconciled := do
  validateTenantCursorAgainstHead cursor head
  .ok ⟨head, s, []⟩

def ensureTenantStreamHeadAtCursor (cursor : Int) (s : Stream) : Except Fault Reconciled := do
  let stored ← readStreamHead tenantLabel s
  match readStreamBounds s, stored with
  | none, none => if 0 < cursor then .error (.unrecoverable cursor) else .ok ⟨.empty, s, []⟩
  | none, some head => do
    let kept ← keepTenantHead cursor s head
    if head.headSeq ≠ head.prunedSeq ∨ head.headHash ≠ head.prunedHash then
      .error (.tailMissing tenantLabel head.prunedSeq head.headSeq)
    else .ok kept
  | some bounds, none => inferTenantHead anchor t cursor s bounds
  | some bounds, some head =>
    if bounds.firstSeq ≠ head.prunedSeq + 1 ∨ bounds.firstPrevHash ≠ head.prunedHash then
      .error (.boundaryBroken tenantLabel bounds.firstSeq head.prunedSeq)
    else if bounds.lastSeq < head.headSeq then .error (.tailDeleted tenantLabel bounds.lastSeq head.headSeq)
    else if bounds.lastSeq = head.headSeq then
      if bounds.lastHash ≠ head.headHash then .error (.headHashMismatch tenantLabel head.headSeq)
      else keepTenantHead cursor s head
    else extendTenantHead c anchor t cursor s head bounds

/-- The cursor is the tenant's row of `siem_delivery`, zero without one. -/
def ensureTenantStreamHead (lastSeq : Option Int) (s : Stream) : Except Fault Reconciled :=
  if lastSeq.getD 0 < 0 then .error .negativeCursor else ensureTenantStreamHeadAtCursor c anchor t (lastSeq.getD 0) s

structure Appended where
  row : Row
  stream : Stream
  signed : List Bytes

def tenantAppend (lastSeq : Option Int) (e : Entry c.Data) (s : Stream) : Except Fault Appended := do
  let found ← ensureTenantStreamHead c anchor t lastSeq s
  let canonical ← canonicalAuditData c e.data
  let row := nextRow c db t.1 found.head e.createdAtMicros e.actor e.action e.target canonical
  let rows ← insertRow db found.stream.rows row
  let out ← updateTenantHead anchor t { found.stream with rows } found.head row.seq row.hash
  .ok ⟨row, out.stream, out.signed ++ found.signed⟩

def tenantVerify (lastSeq : Option Int) (s : Stream) : Except Fault Reconciled := do
  let found ← ensureTenantStreamHead c anchor t lastSeq s
  verifyFromLocked c tenantLabel t.1 found.stream.rows found.head 0
  verifyTenantHeadAnchor anchor t found.head
  .ok found

end Tenant

/-! The control plane and an adversary who edits both tables between its calls. -/

/-- `signed` and `written` remember what the key signed and what appends wrote. -/
structure Control where
  streams : TenantID → Stream
  signed : List Bytes
  written : TenantID → List Row

def Control.initial : Control := ⟨fun _ => ⟨[], none⟩, [], fun _ => []⟩

inductive Act (Data : Type) where
  | tamper (streams : TenantID → Stream)
  | append (t : TenantID) (lastSeq : Option Int) (e : Entry Data)
  | verify (t : TenantID) (lastSeq : Option Int)
  /-- A call that only reconciles, at the cursor it was given. -/
  | reconcile (t : TenantID) (cursor : Int)

section Runs
variable (c : Codec) (db : Database) (key : Signer)

def Control.settle (s : Control) (t : TenantID) (out : Except Fault Reconciled) : Control :=
  match out with
  | .error _ => s
  | .ok out => { s with streams := update s.streams t out.stream, signed := out.signed ++ s.signed }

def Control.record (s : Control) (t : TenantID) (out : Except Fault Appended) : Control :=
  match out with
  | .error _ => s
  | .ok out =>
    { streams := update s.streams t out.stream, signed := out.signed ++ s.signed,
      written := update s.written t (out.row :: s.written t) }

/-- A failed call is rolled back. -/
def Control.step (s : Control) : Act c.Data → Option Control
  | .tamper streams => some { s with streams }
  | .append t lastSeq e => some (s.record t (tenantAppend c db (some key) t lastSeq e (s.streams t)))
  | .verify t lastSeq => some (s.settle t (tenantVerify c (some key) t lastSeq (s.streams t)))
  | .reconcile t cursor => some (s.settle t (ensureTenantStreamHeadAtCursor c (some key) t cursor (s.streams t)))

def StreamHead.message (t : TenantID) (h : StreamHead) : Bytes := headAnchorMessage t h.headSeq h.headHash

/-- The adversary cannot sign: a signature it stores that verifies was made by the key. -/
def Unforged (s : Control) : Act c.Data → Prop
  | .tamper streams =>
    ∀ t h, (streams t).head = some h → key.verifies (h.message t) h.headSig = true → h.message t ∈ s.signed
  | _ => True

/-- No rows without a head row, and none beyond it. -/
structure Calm (s : Stream) : Prop where
  covered : s.head = none → s.rows = []
  within : ∀ h, s.head = some h → ∀ r ∈ s.rows, r.seq ≤ h.headSeq

/-- The calls are made on streams they need not reconcile, and an append on a head whose
signature holds. -/
def Settled (s : Control) : Act c.Data → Prop
  | .tamper _ => True
  | .append t _ _ =>
    Calm (s.streams t) ∧
      ∀ h, (s.streams t).head = some h → h.headSeq = 0 ∨ key.verifies (h.message t) h.headSig = true
  | .verify t _ => Calm (s.streams t)
  | .reconcile t _ => Calm (s.streams t)

end Runs

/-! Calls on calm streams. -/

variable {t : TenantID} {seq : Int} {hash : Bytes}

theorem headAnchorMessage_injective
    (same : headAnchorMessage t seq hash = headAnchorMessage t' seq' hash') : t = t' ∧ seq = seq' ∧ hash = hash' := by
  have low : newline.toNat < 45 := by decide
  have front u n text :
      headAnchorMessage u n text =
        lines newline [lit "probectl.audit.tenant-head.v1", u.1, decimalInt n] ++ (text ++ [newline]) := by
    simp [headAnchorMessage, lines]
  have absent (u : TenantID) n :
      ∀ f ∈ [lit "probectl.audit.tenant-head.v1", u.1, decimalInt n], newline ∉ f := by
    have label : newline ∉ lit "probectl.audit.tenant-head.v1" := by decide
    simp [label, u.2, decimalInt_avoids low]
  rw [front, front] at same
  obtain ⟨fields, hashes⟩ := lines_injective (absent t seq) (absent t' seq') rfl same
  simp only [cons.injEq, decimalInt_injective.eq_iff, Subtype.val_inj] at fields
  exact ⟨fields.2.1, fields.2.2.1, append_cancel_right hashes⟩

variable {head : StreamHead} {lastSeq : Option Int}

section Calls
variable {c : Codec} {db : Database} {anchor : Option Signer} {t : TenantID} {s : Stream} {found : Reconciled}
  {cursor : Int}

theorem keepTenantHead_ok (ok : keepTenantHead cursor s head = .ok found) : found = ⟨head, s, []⟩ := by
  obtain ⟨-, -, kept⟩ := bind_ok ok
  exact (Except.ok.inj kept).symm

theorem ensure_calm (calm : Calm s) (ok : ensureTenantStreamHeadAtCursor c anchor t cursor s = .ok found) :
    found.stream = s ∧ found.signed = [] ∧
      (s.head = none ∧ s.rows = [] ∧ found.head = .empty ∨
        s.head = some found.head ∧ found.head.validate tenantLabel = .ok () ∧
          ∀ r ∈ s.rows, found.head.prunedSeq < r.seq) := by
  obtain ⟨stored, read, ok⟩ := bind_ok ok
  split at ok
  · rename_i empty
    obtain ⟨-, ok⟩ := guard_ok ok
    cases ok
    exact ⟨rfl, rfl, .inl ⟨readStreamHead_none read, readStreamBounds_none.mp empty, rfl⟩⟩
  · rename_i head empty
    obtain ⟨kept, keep, ok⟩ := bind_ok ok
    obtain ⟨-, ok⟩ := guard_ok ok
    cases ok
    obtain rfl := keepTenantHead_ok keep
    obtain ⟨here, valid⟩ := readStreamHead_some read
    refine ⟨rfl, rfl, .inr ⟨here, valid, ?_⟩⟩
    rw [readStreamBounds_none.mp empty]
    exact fun r mem => absurd mem not_mem_nil
  · rename_i bounds rows
    -- a missing head row means no rows
    have none := calm.covered (readStreamHead_none read)
    rw [readStreamBounds_none.mpr none] at rows
    cases rows
  · rename_i bounds head rows
    obtain ⟨here, valid⟩ := readStreamHead_some read
    obtain ⟨-, ⟨last, mem, lastSeq, -⟩, between⟩ := readStreamBounds_some rows
    obtain ⟨first, ok⟩ := guard_ok ok
    obtain ⟨present, ok⟩ := guard_ok ok
    have reached := calm.within head here last mem
    split at ok
    · obtain ⟨-, ok⟩ := guard_ok ok
      obtain rfl := keepTenantHead_ok ok
      refine ⟨rfl, rfl, .inr ⟨here, valid, ?_⟩⟩
      intro r inside
      have := (between r inside).1
      show head.prunedSeq < r.seq
      omega
    · omega

theorem ensureTenantStreamHead_ok (ok : ensureTenantStreamHead c anchor t lastSeq s = .ok found) :
    ensureTenantStreamHeadAtCursor c anchor t (lastSeq.getD 0) s = .ok found :=
  (guard_ok ok).2

theorem updateTenantHead_ok
    (ok : updateTenantHead (some key) t s old newSeq newHash = .ok found) :
    found.signed = [headAnchorMessage t newSeq newHash] ∧ found.stream.rows = s.rows ∧
      ∃ h, found.stream.head = some h ∧ h.headSeq = newSeq ∧ h.headHash = newHash := by
  unfold updateTenantHead at ok
  split at ok
  · cases ok
  rename_i head advanced
  cases ok
  refine ⟨rfl, rfl, head, rfl, ?_⟩
  unfold advanceTenantAuditHead at advanced
  split at advanced
  · cases advanced
    exact ⟨rfl, rfl⟩
  split at advanced
  · cases advanced
    exact ⟨rfl, rfl⟩
  · cases advanced

end Calls

variable {s : Control}

section Safety
variable {c : Codec} {db : Database} {key : Signer}

def Grounded (c : Codec) (t : TenantID) (written : List Row) (seq : Int) (hash : Bytes) : Prop :=
  ∃ history : List Row,
    (links c t.1).Chain 1 [] history ∧ (history.length : Int) = seq ∧ (links c t.1).tail [] history = hash ∧
      ∀ r ∈ history, r ∈ written ∧ r.InFormat c t.1 .current

/-- Verifying signatures were made by the key, and what the key signed was written. -/
structure Inv (c : Codec) (key : Signer) (s : Control) : Prop where
  sealed :
    ∀ t h, (s.streams t).head = some h → key.verifies (h.message t) h.headSig = true → h.message t ∈ s.signed
  grounded : ∀ t seq hash, headAnchorMessage t seq hash ∈ s.signed → Grounded c t (s.written t) seq hash

theorem inv_initial : Inv c key .initial := ⟨nofun, nofun⟩

variable {written : List Row}

theorem Grounded.mono
    (ground : Grounded c t written seq hash) (grows : ∀ r ∈ written, r ∈ more) : Grounded c t more seq hash := by
  obtain ⟨history, chain, length, tail, wrote⟩ := ground
  exact ⟨history, chain, length, tail, fun r mem => ⟨grows r (wrote r mem).1, (wrote r mem).2⟩⟩

theorem grounded_zero (t : TenantID) (written : List Row) : Grounded c t written 0 [] :=
  ⟨[], trivial, rfl, rfl, nofun⟩

theorem Grounded.next
    (ground : Grounded c t written head.headSeq head.headHash) (seq : r.seq = head.headSeq + 1)
    (prev : r.prevHash = head.headHash) (bound : (links c t.1).Bound r) (current : r.InFormat c t.1 .current) :
    Grounded c t (r :: written) r.seq r.hash := by
  obtain ⟨history, chain, length, tail, wrote⟩ := ground
  refine ⟨history ++ [r], ?_, ?_, Links.tail_concat _ _ _, ?_⟩
  · exact chain_snoc.mpr ⟨chain, by omega, prev.trans tail.symm, bound⟩
  · rw [length_append, length_singleton]
    omega
  · exact forall_mem_append.mpr ⟨fun q earlier => ⟨mem_cons_of_mem _ (wrote q earlier).1, (wrote q earlier).2⟩,
      forall_mem_singleton.mpr ⟨mem_cons_self, current⟩⟩

theorem Inv.head_grounded (inv : Inv c key s)
    (found : (s.streams t).head = none ∧ (s.streams t).rows = [] ∧ head = .empty ∨
      (s.streams t).head = some head ∧ head.validate tenantLabel = .ok () ∧
        ∀ r ∈ (s.streams t).rows, head.prunedSeq < r.seq)
    (anchored : (s.streams t).head = some head → head.headSeq = 0 ∨ key.verifies (head.message t) head.headSig = true) :
    Grounded c t (s.written t) head.headSeq head.headHash := by
  rcases found with ⟨-, -, rfl⟩ | ⟨stored, valid, -⟩
  · exact grounded_zero t _
  rcases anchored stored with zero | verified
  · rw [(validate_ok.mp valid).2.2.1.mp zero, zero]
    exact grounded_zero t _
  · exact inv.grounded t _ _ (inv.sealed t head stored verified)

theorem Inv.settle (inv : Inv c key s)
    (quiet : ∀ found, out = .ok found → found.stream = s.streams t ∧ found.signed = []) : Inv c key (s.settle t out) := by
  unfold Control.settle
  split
  · exact inv
  rename_i found
  obtain ⟨stream, signed⟩ := quiet found rfl
  rw [stream, signed, update_eq_self]
  exact inv

theorem Inv.record (inv : Inv c key s) (wrote : ∀ done, out = .ok done →
      done.signed = [headAnchorMessage t done.row.seq done.row.hash] ∧
        (∃ h, done.stream.head = some h ∧ h.headSeq = done.row.seq ∧ h.headHash = done.row.hash) ∧
        Grounded c t (done.row :: s.written t) done.row.seq done.row.hash) : Inv c key (s.record t out) := by
  unfold Control.record
  split
  · exact inv
  rename_i done
  obtain ⟨signed, ⟨h, stored, seq, hash⟩, ground⟩ := wrote done rfl
  rw [signed]
  constructor
  · intro u g here verified
    dsimp only at here
    by_cases same : u = t
    · subst same
      rw [update_self, stored] at here
      cases here
      rw [StreamHead.message, seq, hash]
      exact mem_cons_self
    · rw [update_of_ne same] at here
      exact mem_cons_of_mem _ (inv.sealed u g here verified)
  · intro u n text mem
    dsimp only
    rcases mem_cons.mp mem with here | earlier
    · obtain ⟨rfl, rfl, rfl⟩ := headAnchorMessage_injective here
      rwa [update_self]
    by_cases same : u = t
    · subst same
      rw [update_self]
      exact (inv.grounded u n text earlier).mono fun r => mem_cons_of_mem _
    · rw [update_of_ne same]
      exact inv.grounded u n text earlier

theorem Inv.append (inv : Inv c key s) (settled : Settled c key s (.append t lastSeq e)) :
    Inv c key (s.record t (tenantAppend c db (some key) t lastSeq e (s.streams t))) := by
  apply inv.record
  intro done ok
  obtain ⟨found, reconciled, ok⟩ := bind_ok ok
  obtain ⟨canonical, bytes, ok⟩ := bind_ok ok
  obtain ⟨rows, -, ok⟩ := bind_ok ok
  obtain ⟨out, updated, ok⟩ := bind_ok ok
  obtain rfl := (Except.ok.inj ok).symm
  obtain ⟨-, unsigned, head⟩ := ensure_calm settled.1 (ensureTenantStreamHead_ok reconciled)
  obtain ⟨signed, -, stored⟩ := updateTenantHead_ok updated
  have ground := inv.head_grounded head fun here => settled.2 found.head here
  obtain ⟨bound, current⟩ := nextRow_bound db t.1 found.head e.createdAtMicros e.actor e.action e.target
    (canonicalAuditData_filled bytes)
  refine ⟨?_, stored, ground.next rfl rfl bound current⟩
  simp only [signed, unsigned, append_nil]

variable {found : Reconciled}

theorem tenantVerify_ok {s : Stream} (ok : tenantVerify c anchor t lastSeq s = .ok found) :
    ensureTenantStreamHeadAtCursor c anchor t (lastSeq.getD 0) s = .ok found ∧
      verifyFromLocked c tenantLabel t.1 found.stream.rows found.head 0 = .ok () ∧
      verifyTenantHeadAnchor anchor t found.head = .ok () := by
  obtain ⟨out, reconciled, ok⟩ := bind_ok ok
  obtain ⟨⟨⟩, walked, ok⟩ := bind_ok ok
  obtain ⟨⟨⟩, anchored, ok⟩ := bind_ok ok
  cases ok
  exact ⟨ensureTenantStreamHead_ok reconciled, walked, anchored⟩

theorem Inv.step (inv : Inv c key s) (honest : Unforged c key s a)
    (settled : Settled c key s a) (stepped : s.step c db key a = some s') : Inv c key s' := by
  cases a with
  | tamper streams =>
    cases stepped
    exact ⟨honest, inv.grounded⟩
  | append t lastSeq e =>
    cases stepped
    exact inv.append settled
  | verify t lastSeq =>
    cases stepped
    apply inv.settle
    intro found ok
    obtain ⟨stream, signed, -⟩ := ensure_calm settled (tenantVerify_ok ok).1
    exact ⟨stream, signed⟩
  | reconcile t cursor =>
    cases stepped
    apply inv.settle
    intro found ok
    obtain ⟨stream, signed, -⟩ := ensure_calm settled ok
    exact ⟨stream, signed⟩

theorem verifyTenantHeadAnchor_ok (ok : verifyTenantHeadAnchor (some key) t head = .ok ()) :
    head.headSeq = 0 ∨ key.verifies (head.message t) head.headSig = true := by
  unfold verifyTenantHeadAnchor at ok
  split at ok
  · exact .inl ‹_›
  · obtain ⟨-, ok⟩ := guard_ok ok
    obtain ⟨verified, -⟩ := guard_ok ok
    exact .inr (Bool.eq_false_imp_eq_true.mp fun refused => absurd refused verified)

theorem Inv.verified (injective : Injective c.hash) (inv : Inv c key s) (calm : Calm (s.streams t))
    (ok : tenantVerify c (some key) t lastSeq (s.streams t) = .ok found) :
    ∀ r ∈ (s.streams t).rows, ∃ w ∈ s.written t, Agree c t.1 w r ∧ w.createdAtMicros = r.createdAtMicros := by
  obtain ⟨reconciled, walked, anchored⟩ := tenantVerify_ok ok
  obtain ⟨stream, -, head⟩ := ensure_calm calm reconciled
  obtain ⟨history, chain, length, tail, wrote⟩ :=
    inv.head_grounded head fun _ => verifyTenantHeadAnchor_ok anchored
  rw [stream] at walked
  obtain ⟨retained, count, reached⟩ := verifyFromLocked_ok.mp walked
  rcases head with ⟨-, none, -⟩ | ⟨-, valid, behind⟩
  · rw [none]
    exact fun r mem => absurd mem not_mem_nil
  -- both chains end at the signed hash, so the retained rows are the back of the history
  have start := (validate_ok.mp valid).1
  obtain ⟨front, back, split, -, agree⟩ := Links.committed (links_commit injective t.1) (by omega) chain
    retained (by omega) (by rw [tail, reached])
  intro r mem
  obtain ⟨w, inside, same⟩ := exists_of_forall₂ agree (mem_after.mpr ⟨mem, behind r mem⟩)
  have held := wrote w (by rw [split]; exact mem_append_right _ inside)
  exact ⟨w, held.1, same, same.createdAt held.2⟩

/-- Along runs whose calls find no head to reconcile and append to signed heads only, a
successful verification means that every retained row was written by an append. -/
theorem anchor_detects (injective : Injective c.hash) {acts : List (Act c.Data)} {s : Control}
    (run : run (Control.step c db key) .initial acts = some s)
    (honest : Along (Control.step c db key) (Unforged c key) .initial acts)
    (settled : Along (Control.step c db key) (Settled c key) .initial acts) {t : TenantID} {lastSeq : Option Int}
    (last : Settled c key s (.verify t lastSeq)) {found : Reconciled}
    (ok : tenantVerify c (some key) t lastSeq (s.streams t) = .ok found) :
    ∀ r ∈ (s.streams t).rows, ∃ w ∈ s.written t, Agree c t.1 w r ∧ w.createdAtMicros = r.createdAtMicros := by
  have inv : Inv c key s :=
    run_invariant (fun _ _ _ held both stepped => held.step both.1 both.2 stepped) inv_initial
      (along_and honest settled) run
  exact inv.verified injective last ok

end Safety

/-! A stream of one tenant, with signatures kept symbolic: the message itself. -/

def clearKey : Signer := ⟨id, fun message sig => message = sig⟩

def tenantOne : TenantID := ⟨lit "t", by decide⟩

def genuine : Act symbolic.Data := .append tenantOne none ⟨7, lit "alice", lit "login", [], none⟩

def afterOne : Control := Control.record .initial tenantOne
  (tenantAppend symbolic openTables (some clearKey) tenantOne none ⟨7, lit "alice", lit "login", [], none⟩ ⟨[], none⟩)

def forgedRow (head : StreamHead) : Row :=
  nextRow symbolic openTables tenantOne.1 head 9 (lit "mallory") (lit "login") [] (lit "\x7b\x7d")

theorem unforged_update {s : Control} {streams : TenantID → Stream} {stream : Stream}
    (others : ∀ t h, (streams t).head = some h → clearKey.verifies (h.message t) h.headSig = true →
      h.message t ∈ s.signed)
    (own : ∀ h, stream.head = some h → clearKey.verifies (h.message tenantOne) h.headSig = true →
      h.message tenantOne ∈ s.signed) :
    Unforged symbolic clearKey s (.tamper (update streams tenantOne stream)) := by
  intro t h here verified
  by_cases same : t = tenantOne
  · subst same
    exact own h here verified
  · rw [update_of_ne same] at here
    exact others t h here verified

theorem initial_headless {t : TenantID} {h : StreamHead} (here : (Control.initial.streams t).head = some h) :
    False := by
  cases here

/-- The rows are replaced, put back, and appended to. -/
def restored : List (Act symbolic.Data) :=
  [genuine, .tamper (update Control.initial.streams tenantOne ⟨[forgedRow .empty], none⟩),
    .tamper (update Control.initial.streams tenantOne (afterOne.streams tenantOne)), genuine]

theorem anchor_detects_two :
    ∃ s, run (Control.step symbolic openTables clearKey) .initial restored = some s ∧
      (s.streams tenantOne).rows.length = 2 ∧ ∀ r ∈ (s.streams tenantOne).rows, ∃ w ∈ s.written tenantOne,
        Agree symbolic tenantOne.1 w r ∧ w.createdAtMicros = r.createdAtMicros := by
  have honest : Along (Control.step symbolic openTables clearKey) (Unforged symbolic clearKey) .initial restored := by
    refine fun _ first => ⟨trivial, fun _ second => ⟨?_, fun _ third => ⟨?_, fun _ _ => ⟨trivial, trivial⟩⟩⟩⟩
    · exact unforged_update (fun t h here => (initial_headless here).elim) nofun
    cases first
    cases second
    refine unforged_update (fun t h here => (initial_headless here).elim) fun h here verified => ?_
    cases here
    decide +kernel
  have settled : Along (Control.step symbolic openTables clearKey) (Settled symbolic clearKey) .initial restored := by
    refine fun _ first => ⟨⟨⟨fun _ => rfl, nofun⟩, nofun⟩, fun _ second => ⟨trivial, fun _ third => ⟨trivial, ?_⟩⟩⟩
    cases first
    cases second
    cases third
    refine fun _ _ => ⟨⟨⟨fun none => absurd none (by decide +kernel), fun h here => ?_⟩, fun h here => .inr ?_⟩, trivial⟩
    all_goals
      cases here
      decide +kernel
  obtain ⟨s, ran⟩ : ∃ s, run (Control.step symbolic openTables clearKey) .initial restored = some s := ⟨_, rfl⟩
  have passed : (tenantVerify symbolic (some clearKey) tenantOne none (s.streams tenantOne)).isOk = true := by
    cases ran
    decide +kernel
  cases ok : tenantVerify symbolic (some clearKey) tenantOne none (s.streams tenantOne) with
  | error e =>
    rw [ok] at passed
    cases passed
  | ok found =>
    refine ⟨s, ran, by cases ran; decide +kernel, anchor_detects cons_injective ran honest settled ?_ ok⟩
    cases ran
    refine ⟨fun none => absurd none (by decide +kernel), fun h here => ?_⟩
    cases here
    decide +kernel

def headless : List (Act symbolic.Data) :=
  [genuine, .tamper (update Control.initial.streams tenantOne ⟨[forgedRow .empty], none⟩)]

def signedHead : StreamHead := (afterOne.streams tenantOne).head.getD .empty

def extended : List (Act symbolic.Data) :=
  [genuine, .tamper (update afterOne.streams tenantOne
    ⟨(afterOne.streams tenantOne).rows ++ [forgedRow signedHead], some signedHead⟩)]

def resigned : List (Act symbolic.Data) :=
  [genuine, .tamper (update Control.initial.streams tenantOne
    ⟨[forgedRow .empty], some ⟨1, (forgedRow .empty).hash, 0, [], []⟩⟩), genuine]

/-- The run ends with a verification that passes over a row no append wrote. -/
def Undetected (acts : List (Act symbolic.Data)) : Prop :=
  ∃ s, run (Control.step symbolic openTables clearKey) .initial acts = some s ∧
    Along (Control.step symbolic openTables clearKey) (Unforged symbolic clearKey) .initial acts ∧
    (tenantVerify symbolic (some clearKey) tenantOne none (s.streams tenantOne)).isOk = true ∧
    ∃ r ∈ (s.streams tenantOne).rows, ∀ w ∈ s.written tenantOne, w.actor ≠ r.actor

theorem rewrites_undetected : Undetected headless ∧ Undetected extended ∧ Undetected resigned := by
  refine ⟨⟨_, rfl, ?_, by decide +kernel, forgedRow .empty, by decide +kernel, by decide +kernel⟩,
    ⟨_, rfl, ?_, by decide +kernel, forgedRow signedHead, by decide +kernel, by decide +kernel⟩,
    ⟨_, rfl, ?_, by decide +kernel, forgedRow .empty, by decide +kernel, by decide +kernel⟩⟩
  · intro s first
    refine ⟨trivial, fun _ _ => ⟨?_, trivial⟩⟩
    exact unforged_update (fun t h here => (initial_headless here).elim) nofun
  · intro s first
    cases first
    refine ⟨trivial, fun _ _ => ⟨?_, trivial⟩⟩
    apply unforged_update
    · intro t h here verified
      by_cases same : t = tenantOne
      · subst same
        cases here
        decide +kernel
      · change (update Control.initial.streams tenantOne _ t).head = some h at here
        rw [update_of_ne same] at here
        exact (initial_headless here).elim
    · intro h here verified
      cases here
      decide +kernel
  · intro s first
    refine ⟨trivial, fun _ second => ⟨?_, ?_⟩⟩
    · apply unforged_update (fun t h here => (initial_headless here).elim)
      intro h here verified
      cases here
      cases verified
    · exact fun _ _ => ⟨trivial, trivial⟩

end Probectl.Audit
