import Probectl.Flow.Decode
import Probectl.Wire.Reader

/-! The template parsers of NetFlow v9 and IPFIX as they move their cursor, and that they
read what the readers of whole byte strings read. -/
namespace Probectl.Flow

open Octets Wire Parsing List

def nf9Fields : Nat → Parsing (List TemplateField)
  | 0 => pure []
  | n + 1 => do
    let id ← u16
    let length ← u16
    let rest ← nf9Fields n
    pure (⟨id, length, 0⟩ :: rest)

/-- One round of `parseTemplates` of NetFlow v9; `none` is its return. -/
def nf9Template : Parsing (Option (Nat × Template)) := do
  let left ← remaining
  if left < 4 then pure none
  else do
    let tid ← u16
    let fc ← u16
    let left ← remaining
    if tid < 256 ∨ fc = 0 ∨ fc > 512 ∨ fc * 4 > left then pure none
    else do
      let fields ← nf9Fields fc
      let bad ← failed
      if bad then pure none else pure (some (tid, ⟨fields, false, 0⟩))

def nf9OptionsTemplate : Parsing (Option (Nat × Template)) := do
  let left ← remaining
  if left < 6 then pure none
  else do
    let tid ← u16
    let scopeBytes ← u16
    let optionBytes ← u16
    let left ← remaining
    if tid < 256 ∨ scopeBytes + optionBytes > left ∨ scopeBytes + optionBytes = 0 ∨ scopeBytes % 4 ≠ 0 ∨
        optionBytes % 4 ≠ 0 then
      pure none
    else if scopeBytes / 4 + optionBytes / 4 > 512 then pure none
    else do
      let fields ← nf9Fields (scopeBytes / 4 + optionBytes / 4)
      let bad ← failed
      if bad then pure none else pure (some (tid, ⟨fields, true, scopeBytes / 4⟩))

def ipfixFieldSpecs : Nat → Parsing (Option (List TemplateField))
  | 0 => pure (some [])
  | n + 1 => do
    let left ← remaining
    if left < 4 then pure none
    else do
      let typ ← u16
      let length ← u16
      if typ ≥ 0x8000 then do
        let left ← remaining
        if left < 4 then pure none
        else do
          let enterprise ← u32
          let rest ← ipfixFieldSpecs n
          pure (rest.map (⟨typ % 0x8000, length, enterprise⟩ :: ·))
      else do
        let rest ← ipfixFieldSpecs n
        pure (rest.map (⟨typ, length, 0⟩ :: ·))

def ipfixScopeCount (options : Bool) : Parsing Nat := if options then u16 else pure 0

def ipfixTemplate (options : Bool) : Parsing (Option (Nat × Template)) := do
  let left ← remaining
  if left < ipfixTemplateHeader options then pure none
  else do
    let tid ← u16
    let fc ← u16
    let scope ← ipfixScopeCount options
    if tid < 256 ∨ fc = 0 ∨ fc > 512 ∨ scope > fc then pure none
    else do
      let fields ← ipfixFieldSpecs fc
      let bad ← failed
      if bad then pure none else pure (fields.map fun fields => (tid, ⟨fields, options, scope⟩))

/-! What they read. -/

theorem reads_of {r : Reader UInt8 (Nat × Template)}
    (both : ∀ {c raw}, Ready c raw → Parses x c (r.read raw)) : Reads x r := by
  constructor
  · intro c raw ready a rest found
    obtain ⟨c', ran, further⟩ := both ready
    rw [found] at ran
    exact ⟨c', ran, further _ found⟩
  · intro c raw ready missing
    obtain ⟨c', ran, -⟩ := both ready
    rw [missing] at ran
    exact ⟨c', ran⟩

variable {c : Cursor} {raw : Bytes}

theorem nf9Fields_ok (ready : Ready c raw) (fits : n * 4 ≤ raw.length) :
    ∃ c', nf9Fields n c = .ok (readFields n raw, c') ∧ Ready c' (raw.drop (n * 4)) := by
  induction n generalizing c raw with
  | zero =>
    refine ⟨c, rfl, ?_⟩
    exact ready
  | succ n ih =>
    obtain ⟨first, length, third⟩ := ready.words (by omega)
    obtain ⟨c', ran, further⟩ := ih third (by rw [length_drop]; omega)
    refine ⟨c', ?_, ?_⟩
    · unfold nf9Fields
      rw [step first, step length, step ran]
      rfl
    · rw [drop_drop] at further
      rw [show (n + 1) * 4 = 4 + n * 4 by omega]
      exact further

theorem nf9Template_reads : Reads nf9Template nf9Templates := by
  refine reads_of fun {c raw} ready => .step ready.left ?_
  dsimp only [nf9Templates]
  by_cases short : raw.length < 4
  · rw [if_pos short, if_pos short]
    exact .none rfl
  obtain ⟨first, count, third⟩ := ready.words (by omega)
  rw [if_neg short]
  refine .step first (.step count (.step third.left ?_))
  split
  · exact .none rfl
  · obtain ⟨c', ran, further⟩ := nf9Fields_ok third (show big (slice raw 2 4) * 4 ≤ (raw.drop 4).length by omega)
    exact .step ran (.step further.failed (.some rfl further))

theorem nf9OptionsTemplate_reads : Reads nf9OptionsTemplate nf9OptionsTemplates := by
  refine reads_of fun {c raw} ready => .step ready.left ?_
  dsimp only [nf9OptionsTemplates]
  by_cases short : raw.length < 6
  · rw [if_pos short, if_pos short]
    exact .none rfl
  obtain ⟨first, scope, third⟩ := ready.words (by omega)
  have fourth : Ready (((c.advance 2).advance 2).advance 2) (raw.drop 6) := third.past (by omega)
  have option : u16 ((c.advance 2).advance 2) = .ok (big (slice raw 4 6), _) := third.unsignedAt (by omega)
  rw [if_neg short]
  refine .step first (.step scope (.step option (.step fourth.left ?_)))
  split
  · exact .none rfl
  split
  · exact .none rfl
  have fits : (big (slice raw 2 4) / 4 + big (slice raw 4 6) / 4) * 4 ≤ (raw.drop 6).length := by omega
  obtain ⟨c', ran, further⟩ := nf9Fields_ok fourth fits
  rw [Nat.mul_comm] at further
  exact .step ran (.step further.failed (.some rfl further))

theorem ipfixFieldSpecs_ok (ready : Ready c raw) (n : Nat) : Parses (ipfixFieldSpecs n) c (ipfixFields n raw) := by
  induction n generalizing c raw with
  | zero => exact .some rfl ready
  | succ n ih =>
    unfold ipfixFieldSpecs ipfixFields
    refine .step ready.left ?_
    by_cases short : raw.length < 4
    · rw [if_pos short, if_pos short]
      exact .none rfl
    obtain ⟨first, length, third⟩ := ready.words (by omega)
    rw [if_neg short, if_neg short]
    refine .step first (.step length ?_)
    -- both branches go on with the fields that are left
    have rest {c₁ : Cursor} {raw₁ : Bytes} (here : Ready c₁ raw₁) field :
        Parses (ipfixFieldSpecs n >>= fun rest => pure (rest.map (field :: ·))) c₁
          ((ipfixFields n raw₁).map fun p => (field :: p.1, p.2)) := by
      rw [Option.map_eq_bind]
      exact (ih here).bind (fun _ => .none rfl) fun _ _ further => .some rfl further
    split
    · refine .step third.left ?_
      by_cases cut : (raw.drop 4).length < 4
      · rw [if_pos cut, if_pos cut]
        exact .none rfl
      rw [if_neg cut, if_neg cut]
      rw [length_drop] at cut
      exact .step (third.unsignedAt (show 4 + 4 ≤ raw.length by omega)) (rest (third.past (by omega)) _)
    · exact rest third _

theorem ipfixTemplate_reads (options : Bool) : Reads (ipfixTemplate options) (ipfixTemplates options) := by
  refine reads_of fun {c raw} ready => .step ready.left ?_
  dsimp only [ipfixTemplates]
  by_cases short : raw.length < ipfixTemplateHeader options
  · rw [if_pos short, if_pos short]
    exact .none rfl
  have header : 4 ≤ ipfixTemplateHeader options := by cases options <;> decide
  obtain ⟨first, count, third⟩ := ready.words (by omega)
  have scope : ∃ c', ipfixScopeCount options ((c.advance 2).advance 2) = .ok (ipfixScope options raw, c') ∧
      Ready c' (raw.drop (ipfixTemplateHeader options)) := by
    cases options with
    | false => exact ⟨_, rfl, third⟩
    | true =>
      have long : 4 + 2 ≤ raw.length := Nat.le_of_not_lt short
      exact ⟨_, third.unsignedAt long, third.past long⟩
  obtain ⟨c₁, counted, fourth⟩ := scope
  rw [if_neg short]
  refine .step first (.step count (.step counted ?_))
  split
  · exact .none rfl
  obtain ⟨c', ran, further⟩ := ipfixFieldSpecs_ok fourth (big (slice raw 2 4))
  refine .step ran ?_
  cases read : ipfixFields (big (slice raw 2 4)) (raw.drop (ipfixTemplateHeader options)) with
  | none =>
    -- what a cursor says that has given up makes no difference
    refine .step (show failed c' = .ok (c'.err.isSome, c') from rfl) ?_
    split <;> exact .none rfl
  | some pair => exact .step (further pair read).failed (.some rfl (further pair read))

end Probectl.Flow
