import Probectl.Flow.Decode
import Probectl.Wire.Reader

/-! `decodeData` of NetFlow v9 and IPFIX as it moves its cursor, and that it does what the
walk over the whole set does. -/
namespace Probectl.Flow

open Octets Checked Wire Template

/-! NetFlow v9: rows of fixed width. -/

def nf9OptionFields (learn : Tables → Nat → Tables) : List TemplateField → Tables → Nat → Parsing (Tables × Nat)
  | [], s, rate => pure (s, rate)
  | f :: fields, s, rate => do
    let val ← bytes f.length
    let learned := optionsSamplingRate f.id (val.getD [])
    if learned > 0 then nf9OptionFields learn fields (learn s learned) learned else nf9OptionFields learn fields s rate

def nf9FlowFields (clk : IEClock) : List TemplateField → Record → Nat → Parsing (Record × Nat)
  | [], rec', inline => pure (rec', inline)
  | f :: fields, rec', inline => do
    let val ← bytes f.length
    let (rec', rate) := applyIE rec' f.id (val.getD []) clk
    nf9FlowFields clk fields rec' (if rate > 0 then rate else inline)

structure DataWalk where
  tables : Tables
  recs : List Record
  n : Nat
  rate : Nat
  set : Cursor

def nf9DataRow (ctx : DataContext) (learn : Tables → Nat → Tables) (w : DataWalk) : Checked (DataWalk ⊕ (Tables × List Record × Nat)) :=
  let width := ctx.template.fixedWidth
  if w.set.remaining ≥ width ∧ w.recs.length < maxRecordsPerPacket then do
    let (row, set) ← sub width w.set
    if ctx.template.options then do
      let ((tables, rate), _) ← nf9OptionFields learn ctx.template.fields w.tables w.rate row
      pure (.inl ⟨tables, w.recs, w.n + 1, rate, set⟩)
    else do
      let ((rec', inline), _) ← nf9FlowFields ctx.clk ctx.template.fields (ctx.record .netflow9 w.rate) 0 row
      pure (.inl ⟨w.tables, w.recs ++ [ctx.finish rec' inline], w.n + 1, w.rate, set⟩)
  else pure (.inr (w.tables, w.recs, w.n))

def nf9Data (fuel : Nat) (ctx : DataContext) (learn : Tables → Nat → Tables) (s : Tables) (rate : Nat) (recs : List Record)
    (body : Bytes) : Checked (Tables × List Record × Nat) :=
  if ctx.template.fixedWidth = 0 then pure (s, recs, 0)
  else forever (nf9DataRow ctx learn) fuel ⟨s, recs, 0, rate, .new body⟩

/-! IPFIX: records whose fields may carry their length. -/

def ipfixFieldLength (f : TemplateField) : Parsing (Option Nat) :=
  if f.length = variableLength then do
    let left ← remaining
    if left = 0 then pure none
    else do
      let flen ← u8
      if flen = 255 then do
        let left ← remaining
        if left < 2 then pure none else some <$> u16
      else pure (some flen)
  else pure (some f.length)

def ipfixFieldValue (f : TemplateField) : Parsing (Option Bytes) := do
  let flen ← ipfixFieldLength f
  match flen with
  | none => pure none
  | some flen => do
    let left ← remaining
    if flen > left then pure none else bytes flen

structure FieldState where
  tables : Tables
  record : Record
  inline : Nat
  rate : Nat

def ipfixFieldApply (ctx : DataContext) (learn : Tables → Nat → Tables) (f : TemplateField) (val : Bytes) (st : FieldState) :
    FieldState :=
  if f.enterprise ≠ 0 then st
  else if ctx.template.options then
    let rate := optionsSamplingRate f.id val
    if rate > 0 then { st with tables := learn st.tables rate, rate := rate } else st
  else
    let (record, rate) := applyIE st.record f.id val ctx.clk
    { st with record := record, inline := if rate > 0 then rate else st.inline }

def ipfixFieldLoop (ctx : DataContext) (learn : Tables → Nat → Tables) :
    List TemplateField → FieldState → Parsing (FieldState × Bool)
  | [], st => pure (st, true)
  | f :: fields, st => do
    let val ← ipfixFieldValue f
    match val with
    | none => pure (st, false)
    | some val => ipfixFieldLoop ctx learn fields (ipfixFieldApply ctx learn f val st)

/-- IPFIX counts no rows. -/
def ipfixDataRecord (ctx : DataContext) (learn : Tables → Nat → Tables) (w : DataWalk) :
    Checked (DataWalk ⊕ (Tables × List Record × Nat)) :=
  let t := ctx.template
  if w.recs.length ≥ maxRecordsPerPacket ∨ (t.fixedWidth > 0 ∧ w.set.remaining < t.fixedWidth) ∨ w.set.remaining = 0 ∨
      w.set.remaining < t.fields.length then
    pure (.inr (w.tables, w.recs, w.n))
  else do
    let ((st, complete), set) ← ipfixFieldLoop ctx learn t.fields ⟨w.tables, ctx.record .ipfix w.rate, 0, w.rate⟩ w.set
    if ¬complete ∨ set.remaining = w.set.remaining then pure (.inr (st.tables, w.recs, w.n))
    else if t.options then pure (.inl ⟨st.tables, w.recs, w.n, st.rate, set⟩)
    else pure (.inl ⟨st.tables, w.recs ++ [ctx.finish st.record st.inline], w.n, st.rate, set⟩)

def ipfixData (fuel : Nat) (ctx : DataContext) (learn : Tables → Nat → Tables) (s : Tables) (rate : Nat) (recs : List Record)
    (body : Bytes) : Checked (Tables × List Record × Nat) :=
  forever (ipfixDataRecord ctx learn) fuel ⟨s, recs, 0, rate, .new body⟩

/-! The same as the walks over whole sets. -/

/-- The walk of the program that has come as far as `a`. -/
def Follows (learn : Tables → Nat → Tables) (s : Tables) (w : DataWalk) (a : Walk × Nat × Bytes) : Prop :=
  ∃ c, Ready c a.2.2 ∧ w = ⟨a.1.rates.foldl learn s, a.1.recs, a.1.rows, a.2.1, c⟩

def Finishes (learn : Tables → Nat → Tables) (s : Tables) (out : Tables × List Record × Nat) (walk : Walk) : Prop :=
  out = (walk.rates.foldl learn s, walk.recs, walk.rows)

variable {fuel : Nat}

section Netflow9
variable (learn : Tables → Nat → Tables) {c : Cursor} {row : Bytes} {fields : List TemplateField}

theorem fits_cons (fits : ((f :: fields).map (·.length)).sum ≤ row.length) :
    f.length ≤ row.length ∧ (fields.map (·.length)).sum ≤ (row.drop f.length).length := by
  rw [List.map_cons, List.sum_cons] at fits
  rw [List.length_drop]
  omega

theorem nf9OptionFields_ok (ready : Ready c row) (fits : (fields.map (·.length)).sum ≤ row.length) (s : Tables) (rate : Nat) :
    ∃ c', nf9OptionFields learn fields s rate c =
      .ok (((nf9Rates (nf9Values fields row)).foldl learn s, (nf9Rates (nf9Values fields row)).getLast?.getD rate), c') := by
  induction fields generalizing c row s rate with
  | nil => exact ⟨c, rfl⟩
  | cons f fields ih =>
    obtain ⟨here, later⟩ := fits_cons fits
    have further := ready.advance here
    unfold nf9OptionFields
    rw [Parsing.step (ready.bytes here), nf9Values]
    dsimp only [Option.getD_some]
    by_cases learned : optionsSamplingRate f.id (row.take f.length) > 0
    · obtain ⟨c', ran⟩ := ih further later (learn s (optionsSamplingRate f.id (row.take f.length)))
        (optionsSamplingRate f.id (row.take f.length))
      refine ⟨c', ?_⟩
      rw [if_pos learned, ran]
      simp only [nf9Rates, List.map_cons, List.filter_cons, decide_eq_true_eq, if_pos learned, List.foldl_cons,
        List.getLast?_cons, Option.getD_some]
    · obtain ⟨c', ran⟩ := ih further later s rate
      refine ⟨c', ?_⟩
      rw [if_neg learned, ran]
      simp only [nf9Rates, List.map_cons, List.filter_cons, decide_eq_true_eq, if_neg learned]

theorem nf9FlowFields_ok (clk : IEClock) (ready : Ready c row) (fits : (fields.map (·.length)).sum ≤ row.length) (rec' : Record)
    (inline : Nat) :
    ∃ c', nf9FlowFields clk fields rec' inline c =
      .ok ((nf9Values fields row).foldl (fun (rec', inline) (id, val) =>
        let (rec', rate) := applyIE rec' id val clk
        (rec', if rate > 0 then rate else inline)) (rec', inline), c') := by
  induction fields generalizing c row rec' inline with
  | nil => exact ⟨c, rfl⟩
  | cons f fields ih =>
    obtain ⟨here, later⟩ := fits_cons fits
    have further := ready.advance here
    unfold nf9FlowFields
    rw [Parsing.step (ready.bytes here)]
    exact ih further later _ _

theorem nf9Data_ok (ctx : DataContext) (s : Tables) (rate : Nat) (recs : List Record) (body : Bytes)
    (enough : body.length < fuel) :
    ∃ out, nf9Data fuel ctx learn s rate recs body = .ok out ∧ Finishes learn s out (nf9Walk ctx rate recs body) := by
  unfold nf9Data
  by_cases empty : ctx.template.fixedWidth = 0
  · have stops : (nf9Loop ctx).body (⟨recs, [], 0⟩, rate, body) = .inr ⟨recs, [], 0⟩ := if_pos (.inl empty)
    rw [if_pos empty, nf9Walk, Loop.run_exit stops]
    exact ⟨_, rfl, rfl⟩
  rw [if_neg empty]
  refine forever_simulates (nf9Loop ctx) (Follows learn s) (Finishes learn s) ?_ ⟨_, ready_new body, rfl⟩ enough
  rintro _ ⟨walk, rate, set⟩ ⟨c, ready, rfl⟩
  dsimp only [nf9Loop]
  unfold nf9DataRow
  rw [ready.remaining]
  dsimp only
  by_cases more : set.length ≥ ctx.template.fixedWidth ∧ walk.recs.length < maxRecordsPerPacket
  · obtain ⟨wide, room⟩ := more
    have whole : (set.take ctx.template.fixedWidth).length = ctx.template.fixedWidth := List.length_take_of_le wide
    have fits : (ctx.template.fields.map (·.length)).sum ≤ (set.take ctx.template.fixedWidth).length := by
      rw [whole, fixedWidth_eq empty]
    rw [if_pos ⟨wide, room⟩, if_neg (by omega), step (ready.sub wide)]
    unfold nf9Row
    split
    · obtain ⟨c', ran⟩ := nf9OptionFields_ok learn (ready_new _) fits (walk.rates.foldl learn s) rate
      rw [step ran]
      refine ⟨_, rfl, .inl ⟨_, ready.advance wide, ?_⟩⟩
      rw [List.foldl_append]
    · obtain ⟨c', ran⟩ := nf9FlowFields_ok ctx.clk (ready_new _) fits (ctx.record .netflow9 rate) 0
      rw [step ran]
      exact ⟨_, rfl, .inl ⟨_, ready.advance wide, rfl⟩⟩
  · rw [if_neg more, if_pos (by omega)]
    exact ⟨_, rfl, .inr rfl⟩

end Netflow9

section Ipfix
variable {c : Cursor} {raw : Bytes}

theorem cut_value (ready : Ready c raw) (n : Nat) :
    Parses (remaining >>= fun left => if n > left then pure none else bytes n) c (cutValue n raw) := by
  refine .step ready.left ?_
  unfold cutValue
  split
  · exact .none rfl
  · rename_i fits
    exact .some (ready.bytes (Nat.le_of_not_lt fits)) (ready.advance (Nat.le_of_not_lt fits))

theorem big_singleton (n : UInt8) : big [n] = n.toNat := by simp [big]

/-- The length of a value, and what follows it. -/
def ipfixLength (f : TemplateField) (raw : Bytes) : Option (Nat × Bytes) :=
  if f.length = variableLength then
    match raw with
    | [] => none
    | n :: rest =>
      if n = 255 then if rest.length < 2 then none else some (big (rest.take 2), rest.drop 2)
      else some (n.toNat, rest)
  else some (f.length, raw)

theorem ipfixValue_eq (f : TemplateField) (raw : Bytes) :
    ipfixValue f raw = (ipfixLength f raw).bind fun (n, rest) => cutValue n rest := by
  unfold ipfixValue ipfixLength
  cases raw with
  | nil => split_ifs <;> rfl
  | cons n rest =>
    dsimp only
    split_ifs <;> rfl

theorem ipfixFieldLength_ok (ready : Ready c raw) (f : TemplateField) : Parses (ipfixFieldLength f) c (ipfixLength f raw) := by
  unfold ipfixFieldLength ipfixLength
  split
  · refine .step ready.left ?_
    cases raw with
    | nil => exact .none rfl
    | cons n rest =>
      have further : Ready (c.advance 1) rest := ready.advance (show 1 ≤ (n :: rest).length by simp)
      have first : u8 c = .ok (n.toNat, c.advance 1) := by
        rw [ready.u8 (by simp), List.take_succ_cons, List.take_zero, big_singleton]
      refine .step first ?_
      dsimp only
      by_cases long : n = 255
      · subst long
        refine .step further.left ?_
        by_cases short : rest.length < 2
        · rw [if_pos short, if_pos short]
          exact .none rfl
        · have two : 2 ≤ rest.length := Nat.le_of_not_lt short
          rw [if_neg short, if_neg short, map_eq_pure_bind]
          exact .step (further.u16 two) (.some rfl (further.advance two))
      · have small : n.toNat ≠ 255 := fun same => long (UInt8.toNat_inj.mp same)
        rw [if_neg small, if_neg long]
        exact .some rfl further
  · exact .some rfl ready

theorem ipfixFieldValue_ok (ready : Ready c raw) (f : TemplateField) : Parses (ipfixFieldValue f) c (ipfixValue f raw) := by
  rw [ipfixValue_eq]
  exact (ipfixFieldLength_ok ready f).bind (fun _ => .none rfl) fun _ b further => cut_value further b.1

variable (learn : Tables → Nat → Tables) (s : Tables)

def FieldWalk.state (w : FieldWalk) : FieldState := ⟨w.rates.foldl learn s, w.record, w.inline, w.rate⟩

variable {w : FieldWalk}

theorem state_apply (ctx : DataContext) (f : TemplateField) (val rest : Bytes) :
    ipfixFieldApply ctx learn f val (w.state learn s) =
      FieldWalk.state learn s { ipfixApply ctx f val w with rest := rest } := by
  unfold ipfixFieldApply ipfixApply
  split
  · rfl
  split
  · dsimp only
    split
    · simp [FieldWalk.state]
    · rfl
  · rfl

theorem ipfixFieldLoop_ok (ctx : DataContext) (fields : List TemplateField) (ready : Ready c w.rest) :
    ∃ c', ipfixFieldLoop ctx learn fields (w.state learn s) c =
        .ok (((ipfixRecord ctx fields w).1.state learn s, (ipfixRecord ctx fields w).2), c') ∧
      ((ipfixRecord ctx fields w).2 = true → Ready c' (ipfixRecord ctx fields w).1.rest) := by
  induction fields generalizing c w with
  | nil => exact ⟨c, rfl, fun _ => ready⟩
  | cons f fields ih =>
    obtain ⟨c', ran, further⟩ := ipfixFieldValue_ok ready f
    unfold ipfixFieldLoop ipfixRecord
    rw [Parsing.step ran]
    cases read : ipfixValue f w.rest with
    | none => exact ⟨c', rfl, fun read => by cases read⟩
    | some pair =>
      dsimp only [Option.map_some]
      rw [state_apply]
      exact ih (further _ read)

theorem ipfixData_ok (ctx : DataContext) (rate : Nat) (recs : List Record) (body : Bytes)
    (enough : body.length < fuel) :
    ∃ out, ipfixData fuel ctx learn s rate recs body = .ok out ∧ Finishes learn s out (ipfixWalk ctx rate recs body) := by
  refine forever_simulates (ipfixLoop ctx) (Follows learn s) (Finishes learn s) ?_ ⟨_, ready_new body, rfl⟩ enough
  rintro _ ⟨walk, rate, set⟩ ⟨c, ready, rfl⟩
  have start : Ready c (⟨set, ctx.record .ipfix rate, 0, rate, []⟩ : FieldWalk).rest := ready
  obtain ⟨c', ran, further⟩ := ipfixFieldLoop_ok learn (walk.rates.foldl learn s) ctx ctx.template.fields start
  dsimp only [ipfixLoop]
  unfold ipfixDataRecord
  generalize ipfixRecord ctx ctx.template.fields ⟨set, ctx.record .ipfix rate, 0, rate, []⟩ = out at ran further
  dsimp only [FieldWalk.state, List.foldl_nil] at ran
  rw [← List.foldl_append] at ran
  have stuck : (¬out.2 = true ∨ c'.remaining = set.length) ↔ (¬out.2 = true ∨ out.1.rest.length = set.length) := by
    by_cases complete : out.2 = true
    · rw [(further complete).remaining]
    · exact iff_of_true (.inl complete) (.inl complete)
  simp only [ready.remaining, List.length_eq_zero_iff]
  split
  · exact ⟨_, rfl, .inr rfl⟩
  rw [step ran]
  by_cases gives : ¬out.2 = true ∨ c'.remaining = set.length
  · rw [if_pos gives, if_pos (stuck.mp gives)]
    exact ⟨_, rfl, .inr rfl⟩
  rw [if_neg gives, if_neg (mt stuck.mpr gives)]
  rw [not_or, not_not] at gives
  split <;> exact ⟨_, rfl, .inl ⟨c', further gives.1, rfl⟩⟩

end Ipfix

end Probectl.Flow
