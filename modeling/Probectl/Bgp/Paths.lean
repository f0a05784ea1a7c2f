import Probectl.Bgp.Update

/-! Structured AS paths: `as_path_segments.go`, `as_path_reconstruction.go` and
`route_as_path.go`. -/
namespace Probectl.Bgp

open Octets List Run

inductive ASPathSegmentKind where
  | set | sequence | confedSequence | confedSet
  deriving DecidableEq

def ASPathSegmentKind.ofByte (b : UInt8) : Option ASPathSegmentKind :=
  if b = 1 then some .set
  else if b = 2 then some .sequence
  else if b = 3 then some .confedSequence
  else if b = 4 then some .confedSet
  else none

def ASPathSegmentKind.isConfed (kind : ASPathSegmentKind) : Bool := kind = .confedSequence ∨ kind = .confedSet

structure ASPathSegment where
  kind : ASPathSegmentKind
  values : List Nat
  deriving DecidableEq

def readASNs (width : Nat) : Nat → Bytes → List Nat
  | 0, _ => []
  | count + 1, bytes => big (bytes.take width) :: readASNs width count (bytes.drop width)

@[simp] theorem readASNs_length (width count : Nat) (bytes : Bytes) : (readASNs width count bytes).length = count := by
  induction count generalizing bytes with
  | zero => rfl
  | succ count ih => simp [readASNs, ih]

/-- The walk over the segments; the source makes it twice, once to count. -/
def segmentsLoop (width : Nat) : Loop (List ASPathSegment × Bytes) (Except Fault (List ASPathSegment)) where
  body := fun (out, value) =>
    match value with
    | [] => .inr (.ok out)
    | kind :: count :: rest =>
      match ASPathSegmentKind.ofByte kind with
      | none => .inr (.error [.asPathSyntax])
      | some kind =>
        if count.toNat = 0 ∨ count.toNat > rest.length / width then .inr (.error [.asPathSyntax])
        else .inl (out ++ [⟨kind, readASNs width count.toNat rest⟩], rest.drop (count.toNat * width))
    | _ => .inr (.error [.asPathSyntax])
  size := fun (_, value) => value.length
  shrinks := by
    rintro ⟨out, value⟩ t next
    dsimp only at next
    split at next
    · cases next
    · split at next
      · cases next
      split at next
      · cases next
      · cases next
        simp only [length_cons, length_drop]
        omega
    · cases next

def asPathEntries (path : List ASPathSegment) : Nat := (path.map (·.values.length)).sum

def parseASPathSegments (value : Bytes) (width : Nat) (budget : Budget) : Except Fault (List ASPathSegment) :=
  if width ≠ 2 ∧ width ≠ 4 then .error [.asPathSyntax]
  else if budget.memoryBytes ≤ 0 ∨ budget.workUnits ≤ 0 ∨ value.length > budget.workUnits / 2 then .error [.asPathBudget]
  else
    match (segmentsLoop width).run ([], value) with
    | .error e => .error e
    | .ok segments =>
      if segments.length > budget.memoryBytes / 32 ∨
          asPathEntries segments > (budget.memoryBytes - segments.length * 32) / 4 then
        .error [.asPathBudget]
      else .ok segments

/-- An attribute that is absent is `none`; one that is present may be empty. -/
structure ASPathAttributes where
  fourOctetSession : Bool
  path : Option Bytes
  as4Path : Option Bytes
  aggregatorPresent : Bool
  as4AggregatorPresent : Bool
  aggregatorASN : Nat

inductive AS4Action where
  | absent | ignoredFourOctetSession | ignoredLegacyAggregation | ignoredMalformed | ignoredLongerThanLegacy | reconstructed
  deriving DecidableEq

structure ASPathReconstruction where
  segments : List ASPathSegment
  as4Action : AS4Action
  as4ConfederationsDiscarded : Bool
  deriving DecidableEq

def asPathSelectionLength (path : List ASPathSegment) : Nat :=
  (path.map fun segment =>
    match segment.kind with
    | .set => 1
    | .sequence => segment.values.length
    | _ => 0).sum

def remainingASPathAdmission (budget : Budget) (path : List ASPathSegment) (work : Int) : Except Fault Budget :=
  if work < 0 ∨ work > budget.workUnits then .error [.asPathBudget]
  else
    path.foldlM (fun budget segment =>
      if budget.memoryBytes < 32 ∨ segment.values.length > (budget.memoryBytes - 32) / 4 then .error [.asPathBudget]
      else .ok { budget with memoryBytes := budget.memoryBytes - (32 + segment.values.length * 4) })
      { budget with workUnits := budget.workUnits - work }

def keepLegacy : Nat → List ASPathSegment → List ASPathSegment
  | _, [] => []
  | keep, segment :: rest =>
    if segment.kind.isConfed then segment :: keepLegacy keep rest
    else if keep = 0 then []
    else if segment.kind = .set then segment :: keepLegacy (keep - 1) rest
    else
      let take := min keep segment.values.length
      { segment with values := segment.values.take take } ::
        (if take < segment.values.length then [] else keepLegacy (keep - take) rest)

/-- `AS_TRANS`, which stands for a number that two octets cannot hold. -/
def asTrans : Nat := 23456

def mergeAS4Path (legacy extended : List ASPathSegment) (left : Budget) : Except Fault ASPathReconstruction :=
  let filtered := extended.filter (fun segment => ¬ segment.kind.isConfed)
  let discarded := extended.any (fun segment => segment.kind.isConfed)
  let oldLength := asPathSelectionLength legacy
  let newLength := asPathSelectionLength filtered
  if oldLength < newLength then .ok ⟨legacy, .ignoredLongerThanLegacy, discarded⟩
  else if (legacy.length + filtered.length : Int) > left.memoryBytes / 32 ∨
      (legacy.length + filtered.length : Int) > left.workUnits then
    .error [.asPathBudget]
  else .ok ⟨keepLegacy (oldLength - newLength) legacy ++ filtered, .reconstructed, discarded⟩

def reconstructAS4Path (input : ASPathAttributes) (legacy : List ASPathSegment) (as4Path : Bytes) (left : Budget) :
    Except Fault ASPathReconstruction :=
  if input.fourOctetSession then .ok ⟨legacy, .ignoredFourOctetSession, false⟩
  else if input.aggregatorPresent ∧ input.as4AggregatorPresent ∧ input.aggregatorASN ≠ asTrans then
    .ok ⟨legacy, .ignoredLegacyAggregation, false⟩
  else if as4Path.length < 6 ∨ as4Path.length % 2 ≠ 0 then .ok ⟨legacy, .ignoredMalformed, false⟩
  else
    match parseASPathSegments as4Path 4 left with
    | .error e => if .asPathSyntax ∈ e then .ok ⟨legacy, .ignoredMalformed, false⟩ else .error e
    | .ok extended =>
      match remainingASPathAdmission left extended (as4Path.length * 2) with
      | .error e => .error e
      | .ok left => mergeAS4Path legacy extended left

def reconstructASPath (input : ASPathAttributes) (budget : Budget) : Except Fault ASPathReconstruction :=
  match input.path with
  | none => .error [.asPathSyntax]
  | some path =>
    match parseASPathSegments path (if input.fourOctetSession then 4 else 2) budget with
    | .error e => .error e
    | .ok legacy =>
      match remainingASPathAdmission budget legacy (path.length * 2) with
      | .error e => .error e
      | .ok left =>
        match input.as4Path with
        | none => .ok ⟨legacy, .absent, false⟩
        | some as4Path => reconstructAS4Path input legacy as4Path left

structure RouteASPath where
  path : ASPathReconstruction
  ignoredAttributes : List UInt8
  deriving DecidableEq

structure PathScan where
  input : ASPathAttributes
  seen : List UInt8
  ignored : List UInt8

def scanPathAttribute (asnWidth : Nat) (s : PathScan) (attr : RouteAttribute) : Except Fault PathScan :=
  if attr.type ∉ [2, 7, 17, 18] then .ok s
  else if attr.type ∈ s.seen then .error [.routeASAttributes]
  else
    let s := { s with seen := attr.type :: s.seen }
    if attr.type = 2 then
      if attr.flags &&& 0xe0 ≠ 0x40 then .error [.routeASAttributes]
      else .ok { s with input.path := some attr.value }
    else if attr.type = 17 then
      if asnWidth ≠ 4 ∧ attr.flags &&& 0xc0 ≠ 0xc0 then .error [.routeASAttributes]
      else .ok { s with input.as4Path := some attr.value }
    else if attr.type = 7 then
      if attr.flags &&& 0xc0 ≠ 0xc0 ∨ attr.value.length ≠ asnWidth + 4 then .ok { s with ignored := 7 :: s.ignored }
      else .ok { s with input.aggregatorPresent := true, input.aggregatorASN := big (attr.value.take asnWidth) }
    else if asnWidth = 4 ∨ attr.flags &&& 0xc0 ≠ 0xc0 ∨ attr.value.length ≠ 8 then
      .ok { s with ignored := 18 :: s.ignored }
    else .ok { s with input.as4AggregatorPresent := true }

def chargeValues (budget : Budget) (attributes : List RouteAttribute) : Except Fault Budget :=
  attributes.foldlM (fun budget attr =>
    if attr.value.length > budget.workUnits then .error [.asPathBudget]
    else .ok { budget with workUnits := budget.workUnits - attr.value.length }) budget

def reconstructRouteASPath (attributes : List RouteAttribute) (asnWidth : Nat) (budget : Budget) : Except Fault RouteASPath := do
  if asnWidth ≠ 2 ∧ asnWidth ≠ 4 then .error [.routeASAttributes]
  else if budget.memoryBytes ≤ 0 ∨ budget.workUnits ≤ 0 ∨ attributes.length > budget.memoryBytes / 64 ∨
      attributes.length > budget.workUnits then
    .error [.asPathBudget]
  else
    let remaining ← chargeValues ⟨budget.memoryBytes - attributes.length * 64, budget.workUnits - attributes.length⟩ attributes
    let scan ← attributes.foldlM (scanPathAttribute asnWidth) ⟨⟨asnWidth = 4, none, none, false, false, 0⟩, [], []⟩
    if 2 ∉ scan.seen then .error [.routeASAttributes]
    else
      let path ← reconstructASPath scan.input remaining
      let unmerged := if 17 ∈ scan.seen ∧ path.as4Action ≠ .reconstructed then [17] else []
      let aggregator :=
        if scan.input.aggregatorPresent ∧ scan.input.as4AggregatorPresent then
          if scan.input.aggregatorASN = asTrans then [7] else [18]
        else []
      .ok ⟨path, [7, 17, 18].filter (· ∈ scan.ignored ++ unmerged ++ aggregator)⟩

def flatten (path : List ASPathSegment) : List Nat := path.flatMap (·.values)

/-! What an accepted path says about its octets. -/

variable {width : Nat} {segments : List ASPathSegment} {value : Bytes} {out : List ASPathSegment}

theorem segmentsLoop_ok (read : (segmentsLoop width).run (out, value) = .ok segments) :
    (value = [] ∧ segments = out) ∨
      ∃ kind count rest segment, value = kind :: count :: rest ∧ ASPathSegmentKind.ofByte kind = some segment ∧
        0 < count.toNat ∧ count.toNat ≤ rest.length / width ∧
        (segmentsLoop width).body (out, value) =
          .inl (out ++ [⟨segment, readASNs width count.toNat rest⟩], rest.drop (count.toNat * width)) ∧
        (segmentsLoop width).run (out ++ [⟨segment, readASNs width count.toNat rest⟩], rest.drop (count.toNat * width)) =
          .ok segments := by
  cases body : (segmentsLoop width).body (out, value) with
  | inr r =>
    rw [Loop.run_exit body] at read
    subst read
    simp only [segmentsLoop] at body
    split at body
    · cases body
      exact .inl ⟨rfl, rfl⟩
    · split at body
      · cases body
      split at body <;> cases body
    · cases body
  | inl t =>
    rw [Loop.run_next body] at read
    have next := body
    simp only [segmentsLoop] at next
    split at next
    · cases next
    · split at next
      · cases next
      rename_i kind count rest _ segment named
      split at next
      · cases next
      rename_i fits
      cases next
      simp only [not_or, not_lt] at fits
      exact .inr ⟨kind, count, rest, segment, rfl, named, Nat.pos_of_ne_zero fits.1, fits.2, rfl, read⟩
    · cases next

inductive Segments (width : Nat) : Bytes → List ASPathSegment → Prop
  | nil : Segments width [] []
  | cons {kind count : UInt8} {rest : Bytes} {segment : ASPathSegmentKind} {more : List ASPathSegment}
    (named : ASPathSegmentKind.ofByte kind = some segment) (nonempty : 0 < count.toNat)
    (fits : count.toNat ≤ rest.length / width) (tail : Segments width (rest.drop (count.toNat * width)) more) :
    Segments width (kind :: count :: rest) (⟨segment, readASNs width count.toNat rest⟩ :: more)

theorem segmentsLoop_segments (read : (segmentsLoop width).run (out, value) = .ok segments) :
    ∃ more, segments = out ++ more ∧ Segments width value more := by
  induction state : (out, value) using (segmentsLoop width).induct generalizing out value with
  | round s ih =>
    subst state
    obtain ⟨rfl, rfl⟩ | ⟨kind, count, rest, segment, rfl, named, nonempty, fits, next, read⟩ := segmentsLoop_ok read
    · exact ⟨[], by simp, .nil⟩
    · obtain ⟨more, rfl, tail⟩ := ih _ next read rfl
      exact ⟨⟨segment, readASNs width count.toNat rest⟩ :: more, by simp, .cons named nonempty fits tail⟩

variable {budget : Budget}

theorem parseASPathSegments_ok
    (read : parseASPathSegments value width budget = .ok segments) : Segments width value segments := by
  obtain ⟨-, read⟩ := guard_ok read
  obtain ⟨-, read⟩ := guard_ok read
  split at read
  · cases read
  rename_i walked
  obtain ⟨-, read⟩ := guard_ok read
  cases read
  obtain ⟨more, rfl, framed⟩ := segmentsLoop_segments walked
  exact framed

theorem Segments.lengths (framed : Segments width value segments) :
    segments.length ≤ asPathEntries segments ∧ value.length = 2 * segments.length + width * asPathEntries segments := by
  induction framed with
  | nil => exact ⟨le_rfl, rfl⟩
  | @cons kind count rest segment more named nonempty fits tail ih =>
    have room : count.toNat * width ≤ rest.length :=
      (Nat.mul_le_mul_right width fits).trans (Nat.div_mul_le_self rest.length width)
    obtain ⟨fewer, left⟩ := ih
    rw [length_drop] at left
    simp only [asPathEntries, map_cons, sum_cons, readASNs_length, length_cons] at fewer left ⊢
    refine ⟨by omega, ?_⟩
    calc rest.length + 1 + 1 = 2 * (more.length + 1) + (count.toNat * width + width * (more.map (·.values.length)).sum) := by
          omega
      _ = 2 * (more.length + 1) + width * (count.toNat + (more.map (·.values.length)).sum) := by ring

theorem flatten_length (path : List ASPathSegment) : (flatten path).length = asPathEntries path := by
  simp [flatten, asPathEntries]

/-! What the reconstruction takes from the attributes. -/

variable {input : ASPathAttributes}

/-- `front` ends where a segment of `legacy` ends and no confederation follows, or inside a sequence. -/
inductive Leading : List ASPathSegment → List ASPathSegment → Prop
  | whole (front : List ASPathSegment) {rest : List ASPathSegment} (last : ∀ next ∈ rest.head?, ¬ next.kind.isConfed) :
    Leading front (front ++ rest)
  | cut (front : List ASPathSegment) {rest : List ASPathSegment} {segment : ASPathSegment} {n : Nat}
    (sequence : segment.kind = .sequence) (inside : 0 < n ∧ n < segment.values.length) :
    Leading (front ++ [{ segment with values := segment.values.take n }]) (front ++ segment :: rest)

theorem Leading.cons (segment : ASPathSegment) (leads : Leading front legacy) :
    Leading (segment :: front) (segment :: legacy) := by
  cases leads with
  | whole front last => exact .whole (segment :: front) last
  | cut front sequence inside => exact .cut (segment :: front) sequence inside

theorem asPathSelectionLength_cons (segment : ASPathSegment) (path : List ASPathSegment) :
    asPathSelectionLength (segment :: path) =
      (if segment.kind.isConfed then 0 else if segment.kind = .set then 1 else segment.values.length) +
        asPathSelectionLength path := by
  obtain ⟨kind, values⟩ := segment
  cases kind <;> rfl

theorem keepLegacy_leading (within : keep ≤ asPathSelectionLength legacy) :
    Leading (keepLegacy keep legacy) legacy ∧ asPathSelectionLength (keepLegacy keep legacy) = keep := by
  induction legacy generalizing keep with
  | nil => exact ⟨.whole [] nofun, (Nat.le_zero.mp within).symm⟩
  | cons segment rest ih =>
    rw [asPathSelectionLength_cons] at within
    unfold keepLegacy
    split_ifs with confed none unordered
    · rw [if_pos confed, Nat.zero_add] at within
      obtain ⟨leads, length⟩ := ih within
      exact ⟨leads.cons segment, by rw [asPathSelectionLength_cons, if_pos confed, length, Nat.zero_add]⟩
    · exact ⟨.whole [] (by simpa using confed), none.symm⟩
    · rw [if_neg confed, if_pos unordered] at within
      obtain ⟨leads, length⟩ := @ih (keep - 1) (by omega)
      refine ⟨leads.cons segment, ?_⟩
      rw [asPathSelectionLength_cons, if_neg confed, if_pos unordered]
      omega
    rw [if_neg confed, if_neg unordered] at within
    dsimp only
    split_ifs with inside
    · have sequence : segment.kind = .sequence := by
        revert confed unordered
        cases segment.kind <;> simp [ASPathSegmentKind.isConfed]
      refine ⟨.cut [] sequence ⟨by omega, inside⟩, ?_⟩
      rw [asPathSelectionLength_cons, if_neg confed, if_neg unordered, length_take]
      exact (Nat.add_zero _).trans (by omega)
    · obtain ⟨leads, length⟩ := @ih (keep - min keep segment.values.length) (by omega)
      rw [take_of_length_le (by omega)]
      refine ⟨leads.cons segment, ?_⟩
      rw [asPathSelectionLength_cons, if_neg confed, if_neg unordered]
      dsimp only
      omega

variable {legacy : List ASPathSegment} {left : Budget} {out : ASPathReconstruction}

/-- What the merge keeps of a legacy path in front of the other one. -/
def legacyFront (legacy extended : List ASPathSegment) : List ASPathSegment :=
  keepLegacy (asPathSelectionLength legacy -
    asPathSelectionLength (extended.filter fun segment => ¬ segment.kind.isConfed)) legacy

/-- What became of a legacy path. -/
structure Reconstructs (input : ASPathAttributes) (legacy : List ASPathSegment) (out : ASPathReconstruction) : Prop where
  kept : out.as4Action ≠ .reconstructed → out.segments = legacy
  merged : out.as4Action = .reconstructed → input.fourOctetSession = false ∧
    ∃ as4Path extended front, input.as4Path = some as4Path ∧ Segments 4 as4Path extended ∧ Leading front legacy ∧
      out.segments = front ++ extended.filter (fun segment => ¬ segment.kind.isConfed) ∧
      asPathSelectionLength out.segments = asPathSelectionLength legacy ∧ front = legacyFront legacy extended

theorem Reconstructs.same (ignored : action ≠ .reconstructed) :
    Reconstructs input legacy ⟨legacy, action, discarded⟩ := ⟨fun _ => rfl, (absurd · ignored)⟩

theorem reconstructAS4Path_ok (present : input.as4Path = some as4Path)
    (read : reconstructAS4Path input legacy as4Path left = .ok out) : Reconstructs input legacy out := by
  unfold reconstructAS4Path at read
  split_ifs at read with session
  · cases read
    exact .same nofun
  · cases read
    exact .same nofun
  · cases read
    exact .same nofun
  split at read
  · split at read <;> cases read
    exact .same nofun
  rename_i extended parsed
  split at read
  · cases read
  unfold mergeAS4Path at read
  dsimp only at read
  split_ifs at read with longer
  · cases read
    exact .same nofun
  cases read
  obtain ⟨leads, length⟩ := keepLegacy_leading (Nat.sub_le (asPathSelectionLength legacy) (asPathSelectionLength
    (extended.filter fun segment => ¬ segment.kind.isConfed)))
  refine ⟨(absurd rfl ·), fun _ => ⟨eq_false_of_ne_true session, as4Path, extended, _, present, ?_, leads, rfl, ?_, rfl⟩⟩
  · exact parseASPathSegments_ok parsed
  · rw [asPathSelectionLength, map_append, sum_append]
    exact (congrArg (· + _) length).trans (Nat.sub_add_cancel (not_lt.mp longer))

theorem reconstructASPath_ok (read : reconstructASPath input budget = .ok out) :
    ∃ path legacy, input.path = some path ∧ Segments (if input.fourOctetSession then 4 else 2) path legacy ∧
      Reconstructs input legacy out := by
  unfold reconstructASPath at read
  split at read
  · cases read
  rename_i path present
  split at read
  · cases read
  rename_i legacy parsed
  split at read
  · cases read
  refine ⟨path, legacy, present, parseASPathSegments_ok parsed, ?_⟩
  split at read
  · cases read
    exact .same nofun
  · exact reconstructAS4Path_ok ‹_› read

/-- Whatever became of it, the path is as long as the legacy one. -/
theorem reconstruction_keeps_length (read : reconstructASPath input budget = .ok out) :
    ∃ path legacy, input.path = some path ∧ Segments (if input.fourOctetSession then 4 else 2) path legacy ∧
      Reconstructs input legacy out ∧ asPathSelectionLength out.segments = asPathSelectionLength legacy := by
  obtain ⟨path, legacy, present, framed, became⟩ := reconstructASPath_ok read
  refine ⟨path, legacy, present, framed, became, ?_⟩
  by_cases merged : out.as4Action = .reconstructed
  · obtain ⟨-, _, _, _, -, -, -, -, length, -⟩ := became.merged merged
    exact length
  · rw [became.kept merged]

/-- Behind a set and inside a sequence. -/
theorem reconstruction_keeps_length_cut :
    ∃ legacy, asPathSelectionLength [⟨.set, [1, 2]⟩, ⟨.sequence, [3]⟩, ⟨.sequence, [65537]⟩] = asPathSelectionLength legacy :=
  have ⟨_, legacy, _, _, _, length⟩ := @reconstruction_keeps_length ⟨1024, 1024⟩
    ⟨false, some [1, 2, 0, 1, 0, 2, 2, 2, 0, 3, 0x5b, 0xa0], some [2, 1, 0, 1, 0, 1], false, false, 0⟩
    ⟨_, .reconstructed, false⟩ (by decide +kernel)
  ⟨legacy, length⟩

variable {asnWidth : Nat} {s t : PathScan} {attr : RouteAttribute} {type : UInt8}

/-- The value that the scan keeps of an AS_PATH or an AS4_PATH. -/
def ASPathAttributes.kept (input : ASPathAttributes) (type : UInt8) : Option Bytes :=
  if type = 2 then input.path else input.as4Path

variable {attributes : List RouteAttribute}

end Probectl.Bgp
