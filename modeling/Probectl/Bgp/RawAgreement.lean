import Probectl.Bgp.RawLane

/-! The raw lane guesses the width of a path's AS numbers and reads no AS4_PATH
beside an AS_PATH; where its path is still the one that the structured decoder
reconstructs. -/
namespace Probectl.Bgp

open Octets Run List Loop Nat

/-! One attribute block, read by both lanes. -/

variable {length : Nat}

theorem rawAttribute_eq (read : routeAttributeLength raw = .ok (header, length)) :
    rawAttribute raw =
      .ok ((routeAttribute raw header length).type, (routeAttribute raw header length).value, raw.drop (header + length)) := by
  unfold routeAttributeLength at read
  split at read
  case h_2 => cases read
  split at read
  · rename_i extended
    split at read
    · cases read
    obtain ⟨fits, read⟩ := guard_ok read
    cases read
    simp [rawAttribute, routeAttribute, slice, extended, not_lt.mp fits, add_comm 4]
  · rename_i plain
    obtain ⟨fits, read⟩ := guard_ok read
    cases read
    simp [rawAttribute, routeAttribute, slice, plain, not_lt.mp fits, add_comm 3]

variable {attributes : List RouteAttribute} {attr : RouteAttribute}

theorem Attributes.asPath
    (block : Attributes raw attributes) (found : attributes.find? (fun attr => attr.type = 2) = some attr) (as4Path : List Nat) :
    asPathLoop.run (as4Path, raw) = parseBGPASPathValue attr.value := by
  induction block generalizing as4Path with
  | nil => cases found
  | @cons raw header length rest head tail ih =>
    have nonempty : raw ≠ [] := by
      rintro rfl
      cases head
    by_cases two : (routeAttribute raw header length).type = 2
    · rw [find?_cons_of_pos (by simpa using two)] at found
      cases found
      apply run_exit
      simp [asPathLoop, nonempty, rawAttribute_eq head, two, bgpPathAttrASPath]
    · rw [find?_cons_of_neg (by simpa using two)] at found
      -- whatever the round keeps of an AS4_PATH, the tail decides
      obtain ⟨kept, next⟩ : ∃ kept, asPathLoop.body (as4Path, raw) = .inl (kept, raw.drop (header + length)) := by
        simp only [asPathLoop, nonempty, if_false, rawAttribute_eq head, bgpPathAttrASPath, two]
        split
        · split
          all_goals exact ⟨_, rfl⟩
        · exact ⟨_, rfl⟩
      rw [run_next next]
      exact ih found kept

/-! What the raw lane reads off a path. -/

variable {width : Nat} {value : Bytes} {entries total : Nat}

theorem countEntriesLoop_ok (read : (countEntriesLoop width).run (entries, value) = some total) :
    (value = [] ∧ total = entries) ∨
      ∃ kind count rest, value = kind :: count :: rest ∧ count.toNat * width ≤ rest.length ∧
        (countEntriesLoop width).body (entries, value) = .inl (entries + count.toNat, rest.drop (count.toNat * width)) ∧
        (countEntriesLoop width).run (entries + count.toNat, rest.drop (count.toNat * width)) = some total := by
  cases body : (countEntriesLoop width).body (entries, value) with
  | inr r =>
    rw [run_exit body] at read
    subst read
    simp only [countEntriesLoop] at body
    split at body
    · cases body
      exact .inl ⟨rfl, rfl⟩
    · split at body
      · cases body
      split at body <;> cases body
    · cases body
  | inl t =>
    rw [run_next body] at read
    have next := body
    simp only [countEntriesLoop] at next
    split at next
    · cases next
    · rename_i kind count rest
      split at next
      · cases next
      split at next
      · cases next
      rename_i fits
      cases next
      have room := (mul_le_mul_right width (not_lt.mp fits)).trans (div_mul_le_self rest.length width)
      exact .inr ⟨kind, count, rest, rfl, room, rfl, read⟩
    · cases next

theorem decodeEntriesLoop_next {count : UInt8} (room : count.toNat * width ≤ rest.length)
    (path : List Nat) :
    (decodeEntriesLoop width).run (path, kind :: count :: rest) =
      (decodeEntriesLoop width).run (path ++ readASNs width count.toNat rest, rest.drop (count.toNat * width)) := by
  apply run_next
  simp [decodeEntriesLoop, not_lt.mpr room]

theorem decodeEntriesLoop_of_count (path : List Nat)
    (read : (countEntriesLoop width).run (entries, value) = some total) :
    ∃ more s, (decodeEntriesLoop width).run (path, value) = some (path ++ more) ∧
      value.length = 2 * s + width * more.length ∧ (s = 0 → more = []) := by
  induction state : (entries, value) using (countEntriesLoop width).induct generalizing entries value path with
  | round t ih =>
    subst state
    obtain ⟨rfl, rfl⟩ | ⟨kind, count, rest, rfl, room, next, read⟩ := countEntriesLoop_ok read
    · exact ⟨[], 0, by rw [append_nil]; exact run_exit rfl, rfl, fun _ => rfl⟩
    obtain ⟨more, s, decoded, lengths, -⟩ := ih _ next (path ++ readASNs width count.toNat rest) read rfl
    rw [length_drop] at lengths
    refine ⟨readASNs width count.toNat rest ++ more, s + 1, ?_, ?_, nofun⟩
    · rw [decodeEntriesLoop_next room, decoded, append_assoc]
    · rw [length_append, readASNs_length]
      calc rest.length + 1 + 1 = 2 * (s + 1) + (count.toNat * width + width * more.length) := by omega
        _ = 2 * (s + 1) + width * (count.toNat + more.length) := by ring

theorem ASPathSegmentKind.ofByte_range (named : ofByte b = some kind) :
    ¬ (b < 1 ∨ b > 4) := by
  unfold ofByte at named
  split at named
  · rename_i one
    rw [one]
    decide
  split at named
  · rename_i two
    rw [two]
    decide
  split at named
  · rename_i three
    rw [three]
    decide
  split at named
  · rename_i four
    rw [four]
    decide
  · cases named

variable {segments : List ASPathSegment}

theorem Segments.raw (framed : Segments width value segments) :
    (∀ entries, (countEntriesLoop width).run (entries, value) = some (entries + asPathEntries segments)) ∧
      ∀ path, (decodeEntriesLoop width).run (path, value) = some (path ++ flatten segments) := by
  induction framed with
  | nil =>
    refine ⟨fun entries => ?_, fun path => ?_⟩
    · exact run_exit rfl
    · rw [flatten, flatMap_nil, append_nil]
      exact run_exit rfl
  | @cons kind count rest segment more named nonempty fits tail ih =>
    obtain ⟨counted, decoded⟩ := ih
    refine ⟨fun entries => ?_, fun path => ?_⟩
    · have next : (countEntriesLoop width).body (entries, kind :: count :: rest) =
          .inl (entries + count.toNat, rest.drop (count.toNat * width)) := by
        simp only [countEntriesLoop, if_neg (ASPathSegmentKind.ofByte_range named), if_neg (not_lt.mpr fits)]
      rw [run_next next, counted]
      simp [asPathEntries, add_assoc]
    · have room := (mul_le_mul_right width fits).trans (div_mul_le_self rest.length width)
      rw [decodeEntriesLoop_next room, decoded]
      simp [flatten]

theorem Segments.counted (framed : Segments width value segments)
    (positive : 0 < width) : countBGPASPathEntries value width = some (asPathEntries segments) := by
  rw [countBGPASPathEntries, if_neg (by omega), framed.raw.1, zero_add]

variable {path : List Nat}

theorem Segments.valueWidth (framed : Segments width value segments) (positive : 0 < width)
    (read : parseBGPASPathValueWidth value width = some (.ok path)) : path = flatten segments := by
  rw [parseBGPASPathValueWidth, framed.counted positive] at read
  dsimp only at read
  split at read
  · cases read
  rw [framed.raw.2] at read
  cases read
  rfl

theorem Segments.misread (framed : Segments 2 value segments)
    (read : parseBGPASPathValueWidth value 4 = some (.ok path)) (nonempty : path ≠ []) : path ≠ flatten segments := by
  unfold parseBGPASPathValueWidth at read
  split at read
  · cases read
  rename_i total counted
  split at read
  · cases read
  obtain ⟨more, s, decoded, lengths, none⟩ := decodeEntriesLoop_of_count [] counted
  rw [decoded] at read
  cases read
  rw [nil_append]
  intro same
  -- as many numbers in twice the octets leave no room for the segments
  obtain ⟨fewer, wire⟩ := framed.lengths
  have count : more.length = asPathEntries segments := by rw [same, flatten_length]
  exact nonempty (none (by omega))

theorem Segments.wide (framed : Segments 4 value segments)
    (read : parseBGPASPathValue value = .ok path) : path = flatten segments := by
  unfold parseBGPASPathValue at read
  split at read
  · rename_i four
    subst read
    exact framed.valueWidth (by decide) four
  · rename_i none
    rw [parseBGPASPathValueWidth, framed.counted (by decide)] at none
    dsimp only at none
    split at none
    · cases none
    · rw [framed.raw.2] at none
      cases none

theorem Segments.narrow (framed : Segments 2 value segments)
    (read : parseBGPASPathValue value = .ok path) (nonempty : path ≠ []) :
    path = flatten segments ↔ countBGPASPathEntries value 4 = none := by
  unfold parseBGPASPathValue at read
  split at read
  · rename_i four
    subst read
    refine iff_of_false (framed.misread four nonempty) ?_
    intro none
    rw [parseBGPASPathValueWidth, none] at four
    cases four
  · rename_i guess
    have uncounted : countBGPASPathEntries value 4 = none := by
      unfold parseBGPASPathValueWidth at guess
      split at guess
      · assumption
      rename_i total counted
      split at guess
      · cases guess
      obtain ⟨more, -, decoded, -, -⟩ := decodeEntriesLoop_of_count [] counted
      rw [decoded] at guess
      cases guess
    refine iff_of_true ?_ uncounted
    split at read
    · rename_i two
      subst read
      exact framed.valueWidth (by decide) two
    · cases read

/-! Both lanes on one message. -/

variable {routes : List BMPRouteAnnouncement}

/-- The AS4_PATH repeats what the raw lane reads where it is merged: the end of the legacy
path that it replaces or, where the AS_PATH is also framed in four octets, what is left of
those numbers. -/
def Repeats (attributes : List RouteAttribute) (value : Bytes) : Prop :=
  ∃ as4 legacy extended, attributes.find? (fun attr => attr.type = 17) = some as4 ∧
    Segments 2 value legacy ∧ Segments 4 as4.value extended ∧
    let numbers := flatten (extended.filter fun segment => ¬ segment.kind.isConfed)
    let front := flatten (legacyFront legacy extended)
    countBGPASPathEntries value 4 = none ∧ numbers = (flatten legacy).drop front.length ∨
      countBGPASPathEntries value 4 ≠ none ∧ (decodeEntriesLoop 4).run ([], value) = some (front ++ numbers)

theorem Segments.unique (framed : Segments width value segments) {others : List ASPathSegment}
    (framed' : Segments width value others) : segments = others := by
  induction framed generalizing others with
  | nil =>
    cases framed'
    rfl
  | cons named nonempty fits tail ih =>
    cases framed' with
    | cons named' nonempty' fits' tail' =>
      obtain rfl := Option.some.inj (named.symm.trans named')
      rw [ih tail']

theorem Leading.flatten {front legacy : List ASPathSegment} (leads : Leading front legacy) :
    ∃ rest, Bgp.flatten legacy = Bgp.flatten front ++ rest := by
  cases leads with
  | whole front last => exact ⟨_, flatMap_append⟩
  | @cut front rest segment n sequence inside =>
    refine ⟨segment.values.drop n ++ Bgp.flatten rest, ?_⟩
    simp only [Bgp.flatten, flatMap_append, flatMap_cons, flatMap_nil, append_nil, append_assoc]
    rw [← append_assoc (segment.values.take n), take_append_drop]

def legacyUpdate (path : Bytes) : Bytes :=
  let attributes : Bytes := [0x40, 1, 1, 0] ++ path ++ [0x40, 3, 4, 10, 0, 0, 1]
  [3, 0, 0, 0, UInt8.ofNat (75 + attributes.length), 0] ++ (0 :: 0x20 :: replicate 40 0) ++ replicate 16 255 ++
    [0, UInt8.ofNat (27 + attributes.length), 2, 0, 0, 0, UInt8.ofNat attributes.length] ++ attributes ++ [24, 192, 0, 2]

def legacyHeader : BMPRouteViewHeader :=
  ⟨0, 0x20, replicate 8 0, .v4 [0, 0, 0, 0], 0, .v4 [0, 0, 0, 0], .adjRIBInPrePolicy, 2, false, none⟩

end Probectl.Bgp
