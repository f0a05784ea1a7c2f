import Probectl.Flow.Records

/-! How many records the decoders of NetFlow v9 and IPFIX take of a data set, and from
which octets. -/
namespace Probectl.Flow

open Octets List Template

def DataContext.flow (ctx : DataContext) (protocol : FlowProtocol) (rate : Nat) (values : List (Nat × Bytes)) : Record :=
  let applied := applyValues (ctx.record protocol rate) ctx.clk values
  ctx.finish applied.1 applied.2

/-- The values of a record of IPFIX that are not specific to an enterprise. -/
def ipfixValues : List TemplateField → Bytes → List (Nat × Bytes)
  | [], _ => []
  | f :: fields, raw =>
    match ipfixValue f raw with
    | none => []
    | some (val, rest) => (if f.enterprise = 0 then [(f.id, val)] else []) ++ ipfixValues fields rest

/-- One record for each whole row, up to the bound of the packet. -/
def rows (flow : Bytes → Record) (width : Nat) (recs : List Record) (set : Bytes) : List Record :=
  (range (min (maxRecordsPerPacket - recs.length) (set.length / width))).map fun i => flow (slice set (i * width) ((i + 1) * width))

variable {ctx : DataContext} {rate width : Nat} {recs : List Record} {set : Bytes} {flow : Bytes → Record}

theorem rows_end (stop : set.length < width ∨ maxRecordsPerPacket ≤ recs.length) : rows flow width recs set = [] := by
  have none : min (maxRecordsPerPacket - recs.length) (set.length / width) = 0 := by
    rcases stop with short | full
    · rw [Nat.div_eq_of_lt short, Nat.min_zero]
    · rw [Nat.sub_eq_zero_of_le full, Nat.zero_min]
  rw [rows, none]
  rfl

theorem rows_next (some : 0 < width) (whole : width ≤ set.length) (room : recs.length < maxRecordsPerPacket) :
    rows flow width recs set =
      flow (set.take width) :: rows flow width (recs ++ [flow (set.take width)]) (set.drop width) := by
  have count : min (maxRecordsPerPacket - recs.length) (set.length / width) =
      min (maxRecordsPerPacket - (recs.length + 1)) ((set.length - width) / width) + 1 := by
    have one : set.length / width = (set.length - width) / width + 1 := Nat.div_eq_sub_div some whole
    omega
  have shifted i : slice set ((i + 1) * width) ((i + 1 + 1) * width) =
      slice (set.drop width) (i * width) ((i + 1) * width) := by
    unfold slice
    rw [drop_drop, Nat.add_comm width, Nat.succ_mul, Nat.add_sub_cancel_left, Nat.succ_mul,
      Nat.add_sub_cancel_left]
  unfold rows
  rw [count, range_succ_eq_map, map_cons, map_map, length_append, length_drop]
  congr 1
  · simp [slice]
  · exact map_congr_left fun i _ => congrArg flow (shifted i)

/-- The rule for a loop that takes a row in each round. -/
theorem run_rows (l : Loop (Walk × Nat × Bytes) Walk) (some : 0 < width)
    (exit : ∀ walk set, set.length < width ∨ maxRecordsPerPacket ≤ walk.recs.length →
      ∃ walk', l.body (walk, rate, set) = .inr walk' ∧ walk'.recs = walk.recs)
    (next : ∀ walk set, width ≤ set.length → walk.recs.length < maxRecordsPerPacket →
      ∃ walk', l.body (walk, rate, set) = .inl (walk', rate, set.drop width) ∧
        walk'.recs = walk.recs ++ [flow (set.take width)]) (walk : Walk) (set : Bytes) :
    (l.run (walk, rate, set)).recs = walk.recs ++ rows flow width walk.recs set := by
  induction left : set.length using Nat.strongRecOn generalizing walk set with
  | ind n ih =>
    by_cases stop : set.length < width ∨ maxRecordsPerPacket ≤ walk.recs.length
    · obtain ⟨walk', body, same⟩ := exit walk set stop
      rw [Loop.run_exit body, same, rows_end stop, append_nil]
    obtain ⟨whole, room⟩ : width ≤ set.length ∧ walk.recs.length < maxRecordsPerPacket := by omega
    obtain ⟨walk', body, grown⟩ := next walk set whole room
    have shorter : (set.drop width).length < n := by
      rw [length_drop]
      omega
    rw [Loop.run_next body, ih _ shorter walk' _ rfl, grown, rows_next some whole room, append_assoc]
    rfl

/-! What a record of IPFIX is made of. -/

def applied (clk : IEClock) (start : Record × Nat) (values : List (Nat × Bytes)) : Record × Nat :=
  values.foldl (fun (record, inline) (id, val) =>
    let (record, rate) := applyIE record id val clk
    (record, if rate > 0 then rate else inline)) start

section Data
variable (data : ctx.template.options = false)
include data

theorem ipfixRecord_data (fields : List TemplateField) (s : FieldWalk) :
    (ipfixRecord ctx fields s).1.record = (applied ctx.clk (s.record, s.inline) (ipfixValues fields s.rest)).1 ∧
      (ipfixRecord ctx fields s).1.inline = (applied ctx.clk (s.record, s.inline) (ipfixValues fields s.rest)).2 ∧
      (ipfixRecord ctx fields s).1.rate = s.rate := by
  induction fields generalizing s with
  | nil => exact ⟨rfl, rfl, rfl⟩
  | cons f fields ih =>
    rw [ipfixRecord, ipfixValues]
    cases ipfixValue f s.rest with
    | none => exact ⟨rfl, rfl, rfl⟩
    | some read =>
      have further := ih { ipfixApply ctx f read.1 s with rest := read.2 }
      by_cases own : f.enterprise = 0
      · simpa [ipfixApply, own, data, applied] using further
      · simpa [ipfixApply, own] using further

end Data

variable {fields : List TemplateField}

theorem ipfixRecord_fixed (fixed : ∀ f ∈ fields, f.length ≠ variableLength) (s : FieldWalk)
    (whole : (fields.map (·.length)).sum ≤ s.rest.length) :
    (ipfixRecord ctx fields s).2 = true ∧ (ipfixRecord ctx fields s).1.rest = s.rest.drop (fields.map (·.length)).sum ∧
      ipfixValues fields s.rest = ipfixValues fields (s.rest.take (fields.map (·.length)).sum) := by
  induction fields generalizing s with
  | nil => exact ⟨rfl, rfl, rfl⟩
  | cons f fields ih =>
    obtain ⟨here, later⟩ := forall_mem_cons.mp fixed
    rw [map_cons, sum_cons] at whole ⊢
    have value raw (fits : f.length ≤ raw.length) :
        ipfixValue f raw = some (raw.take f.length, raw.drop f.length) := by
      unfold ipfixValue cutValue
      rw [if_neg here, if_neg (Nat.not_lt.mpr fits)]
    have left : (fields.map (·.length)).sum ≤ (s.rest.drop f.length).length := by
      rw [length_drop]
      omega
    obtain ⟨ok, rest, values⟩ := ih later { ipfixApply ctx f (s.rest.take f.length) s with rest := s.rest.drop f.length } left
    rw [ipfixRecord, ipfixValues, ipfixValues, value _ (by omega), value _ (by rw [length_take]; omega)]
    dsimp only at rest ⊢
    rw [rest, values, drop_drop, take_take, drop_take, Nat.min_eq_left (Nat.le_add_right _ _), Nat.add_sub_cancel_left]
    exact ⟨ok, rfl, rfl⟩

theorem width_fixed {t : Template} (fixed : t.isVariable = false) :
    (∀ f ∈ t.fields, f.length ≠ variableLength) ∧ t.width = (t.fields.map (·.length)).sum ∧ t.fixedWidth = t.width := by
  have lengths : ∀ f ∈ t.fields, f.length ≠ variableLength := by simpa [isVariable] using fixed
  refine ⟨lengths, ?_, by rw [fixedWidth, fixed]; rfl⟩
  rw [width, filter_eq_self.mpr]
  simpa using lengths

/-- Octets that make one row, but fewer than there are fields, are left over. -/
theorem ipfixWalk_few {ctx : DataContext} (few : set.length < ctx.template.fields.length) :
    (ipfixWalk ctx rate recs set).recs = recs := by
  have stops : (ipfixLoop ctx).body (⟨recs, [], 0⟩, rate, set) = .inr ⟨recs, [], 0⟩ :=
    if_pos (.inr (.inr (.inr few)))
  rw [ipfixWalk, Loop.run_exit stops]

/-- Every whole row of a data set gives its record, up to the bound of the packet; in IPFIX
exactly if a row has as many octets as it has fields. -/
theorem data_sets_whole (ctx : DataContext) (data : ctx.template.options = false)
    (fixed : ctx.template.isVariable = false) (some : 0 < ctx.template.width) :
    (∀ (rate : Nat) (recs : List Record) (set : Bytes), (nf9Walk ctx rate recs set).recs = recs ++
        rows (fun row => ctx.flow .netflow9 rate (nf9Values ctx.template.fields row)) ctx.template.width recs set) ∧
      ((∀ (rate : Nat) (recs : List Record) (set : Bytes), (ipfixWalk ctx rate recs set).recs = recs ++
        rows (fun row => ctx.flow .ipfix rate (ipfixValues ctx.template.fields row)) ctx.template.width recs set) ↔
        ctx.template.fields.length ≤ ctx.template.width) := by
  obtain ⟨lengths, sum, width⟩ := width_fixed fixed
  refine ⟨fun rate recs set => ?_, fun whole => ?_, fun few rate recs set => ?_⟩
  · refine run_rows (nf9Loop ctx) some ?_ ?_ ⟨recs, [], 0⟩ set
    · intro walk set stop
      exact ⟨walk, if_pos (by omega), rfl⟩
    intro walk set whole room
    refine ⟨{ walk with recs := walk.recs ++ [_], rows := walk.rows + 1 }, ?_, rfl⟩
    dsimp only [nf9Loop, nf9Row]
    rw [width, if_neg (by omega), data]
    rfl
  · -- One row of zeros is a record, unless it is shorter than the number of fields.
    by_contra few
    have one := whole 0 [] (replicate ctx.template.width 0)
    rw [ipfixWalk_few (by simpa using few)] at one
    simp [rows, Nat.div_self some, maxRecordsPerPacket] at one
  · refine run_rows (ipfixLoop ctx) some ?_ ?_ ⟨recs, [], 0⟩ set
    · intro walk set stop
      refine ⟨walk, if_pos ?_, rfl⟩
      rcases stop with short | full
      · exact .inr (.inl ⟨by omega, by omega⟩)
      · exact .inl full
    · intro walk set whole room
      let start : FieldWalk := ⟨set, ctx.record .ipfix rate, 0, rate, []⟩
      obtain ⟨ok, rest, values⟩ := @ipfixRecord_fixed ctx _ lengths start (sum ▸ whole)
      obtain ⟨record, inline, same⟩ := ipfixRecord_data data ctx.template.fields start
      have shorter : (set.drop ctx.template.width).length ≠ set.length := by
        rw [length_drop]
        omega
      have guard : ¬ (walk.recs.length ≥ maxRecordsPerPacket ∨
          (ctx.template.fixedWidth > 0 ∧ set.length < ctx.template.fixedWidth) ∨ set = [] ∨
          set.length < ctx.template.fields.length) := by
        rw [← length_eq_zero_iff]
        omega
      rw [← sum] at rest values
      refine ⟨{ walk with recs := walk.recs ++ [_], rates := walk.rates ++ (ipfixRecord ctx ctx.template.fields start).1.rates },
        (if_neg guard).trans ?_, rfl⟩
      rw [ok, rest, record, inline, same, values, data, if_neg (by simpa using shorter)]
      rfl

namespace DataSets

def protocolAnd (fields : List TemplateField) : DataContext :=
  { exporter := [10, 0, 0, 1], domain := 7, now := 0, clk := ⟨none, 0⟩, template := ⟨⟨4, 1, 0⟩ :: fields, false, 0⟩ }

theorem data_sets_two :
    (nf9Walk (protocolAnd [⟨5, 1, 0⟩]) 0 [] [6, 0, 17, 0, 9]).recs.length = 2 ∧
      (ipfixWalk (protocolAnd [⟨5, 1, 0⟩]) 0 [] [6, 0, 17, 0, 9]).recs.length = 2 := by
  obtain ⟨v9, ipfix⟩ := data_sets_whole (protocolAnd [⟨5, 1, 0⟩]) rfl rfl (by decide)
  rw [v9, ipfix.mpr (by decide)]
  exact ⟨rfl, rfl⟩

/-- Two fields of no octets make IPFIX drop a row that is whole. -/
theorem data_sets_short :
    TemplateCache.storable (protocolAnd [⟨6, 0, 0⟩, ⟨5, 0, 0⟩]).template = true ∧ (protocolAnd [⟨6, 0, 0⟩, ⟨5, 0, 0⟩]).template.width = 1 ∧
      (ipfixWalk (protocolAnd [⟨6, 0, 0⟩, ⟨5, 0, 0⟩]) 0 [] [17]).recs = [] := by
  exact ⟨rfl, rfl, ipfixWalk_few (by decide)⟩

end DataSets

end Probectl.Flow
