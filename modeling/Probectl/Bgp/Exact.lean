import Probectl.Bgp.Paths

/-! The octets that `as_path_segments.go` takes are the encodings of what it returns. -/
namespace Probectl.Bgp

open Octets List Run ASPathSegmentKind UInt8 Nat

def ASPathSegmentKind.byte : ASPathSegmentKind → UInt8
  | .set => 1
  | .sequence => 2
  | .confedSequence => 3
  | .confedSet => 4

namespace ASPathSegment

def encode (width : Nat) (segment : ASPathSegment) : Bytes :=
  segment.kind.byte :: UInt8.ofNat segment.values.length :: segment.values.flatMap (put width)

structure Fits (width : Nat) (segment : ASPathSegment) : Prop where
  nonempty : 0 < segment.values.length
  count : segment.values.length < 256
  numbers : ∀ asn ∈ segment.values, asn < 256 ^ width

end ASPathSegment

variable {width : Nat} {value : Bytes} {segments : List ASPathSegment}

theorem ofByte_eq_some : ofByte b = some kind ↔ b = kind.byte := by
  constructor
  · intro named
    unfold ofByte at named
    split_ifs at named <;> cases named <;> assumption
  · rintro rfl
    cases kind <;> rfl

theorem readASNs_put (small : ∀ asn ∈ values, asn < 256 ^ width) (rest : Bytes) :
    readASNs width values.length (values.flatMap (put width) ++ rest) = values := by
  induction values with
  | nil => rfl
  | cons asn values ih =>
    obtain ⟨first, later⟩ := forall_mem_cons.mp small
    have length : (put width asn).length = width := put_length width asn
    rw [flatMap_cons, append_assoc, length_cons, readASNs, take_left' length, drop_left' length, big_put first, ih later]

theorem readASNs_encodes {count : Nat} (room : count * width ≤ bytes.length) :
    (readASNs width count bytes).flatMap (put width) = bytes.take (count * width) ∧
      ∀ asn ∈ readASNs width count bytes, asn < 256 ^ width := by
  induction count generalizing bytes with
  | zero => simp [readASNs]
  | succ count ih =>
    rw [succ_mul] at room
    have whole : (bytes.take width).length = width := by
      rw [length_take]
      omega
    obtain ⟨same, small⟩ := @ih (bytes.drop width) (by rw [length_drop]; omega)
    have first : put width (big (bytes.take width)) = bytes.take width := by
      nth_rewrite 1 [← whole]
      exact put_big _
    refine ⟨?_, forall_mem_cons.mpr ⟨?_, small⟩⟩
    · rw [readASNs, flatMap_cons, first, same, succ_mul, add_comm, take_add]
    · have bound := big_lt (bytes.take width)
      rwa [whole] at bound

/-- The framing is the encoding. -/
theorem segments_iff_encode (some : 0 < width) :
    Segments width value segments ↔ (∀ segment ∈ segments, segment.Fits width) ∧ segments.flatMap (·.encode width) = value := by
  constructor
  · intro framed
    induction framed with
    | nil => exact ⟨nofun, rfl⟩
    | @cons kind count rest segment more named nonempty fits tail ih =>
      have room : count.toNat * width ≤ rest.length := (le_div_iff_mul_le some).mp fits
      obtain ⟨same, small⟩ := readASNs_encodes room
      refine ⟨forall_mem_cons.mpr ⟨⟨?_, ?_, small⟩, ih.1⟩, ?_⟩
      · rwa [readASNs_length]
      · rw [readASNs_length]
        exact count.toNat_lt
      · rw [flatMap_cons, ih.2, ASPathSegment.encode, same, ofByte_eq_some.mp named]
        simp
  · rintro ⟨fits, rfl⟩
    induction segments with
    | nil => exact .nil
    | cons segment more ih =>
      obtain ⟨⟨nonempty, count, numbers⟩, later⟩ := forall_mem_cons.mp fits
      have counted : (UInt8.ofNat segment.values.length).toNat = segment.values.length := by
        exact mod_eq_of_lt count
      have length : (segment.values.flatMap (put width)).length = segment.values.length * width := by
        simp [put_length]
      have framed := @Segments.cons width segment.kind.byte (UInt8.ofNat segment.values.length)
        (segment.values.flatMap (put width) ++ more.flatMap (·.encode width)) segment.kind more
        (ofByte_eq_some.mpr rfl) (counted.symm ▸ nonempty)
      rw [counted, readASNs_put numbers, drop_left' length] at framed
      refine framed ?_ (ih later)
      rw [le_div_iff_mul_le some, length_append, length]
      exact le_add_right _ _

theorem segmentsLoop_of_segments (framed : Segments width value segments) (out : List ASPathSegment) :
    (segmentsLoop width).run (out, value) = .ok (out ++ segments) := by
  induction framed generalizing out with
  | nil => exact (Loop.run_exit rfl).trans (by rw [append_nil])
  | @cons kind count rest segment more named nonempty fits tail ih =>
    have next : (segmentsLoop width).body (out, kind :: count :: rest) =
        .inl (out ++ [⟨segment, readASNs width count.toNat rest⟩], rest.drop (count.toNat * width)) := by
      simp only [segmentsLoop, named]
      rw [if_neg (by omega)]
    rw [Loop.run_next next, ih, append_assoc, singleton_append]

def affordsASPath (budget : Budget) (value : Bytes) (segments : List ASPathSegment) : Prop :=
  0 < budget.memoryBytes ∧ 0 < budget.workUnits ∧ value.length ≤ budget.workUnits / 2 ∧
    segments.length ≤ budget.memoryBytes / 32 ∧
    asPathEntries segments ≤ (budget.memoryBytes - segments.length * 32) / 4

/-- The decoder takes the encodings, and returns what was encoded. -/
theorem as_path_segments_exact (known : width = 2 ∨ width = 4) (value : Bytes) (budget : Budget)
    (segments : List ASPathSegment) :
    parseASPathSegments value width budget = .ok segments ↔
      (∀ segment ∈ segments, segment.Fits width) ∧ segments.flatMap (·.encode width) = value ∧
        affordsASPath budget value segments := by
  have some : 0 < width := by omega
  rw [← and_assoc, ← segments_iff_encode some]
  have priced (framed : Segments width value segments) :
      parseASPathSegments value width budget = .ok segments ↔ affordsASPath budget value segments := by
    unfold parseASPathSegments affordsASPath
    rw [segmentsLoop_of_segments framed []]
    split_ifs <;> simp <;> omega
  exact ⟨fun read => ⟨parseASPathSegments_ok read, (priced (parseASPathSegments_ok read)).mp read⟩,
    fun both => (priced both.1).mpr both.2⟩

theorem as_path_segments_exact_two : parseASPathSegments [1, 2, 0, 1, 0, 2, 2, 1, 0, 3] 2 ⟨1024, 1024⟩ =
    .ok [⟨.set, [1, 2]⟩, ⟨.sequence, [3]⟩] :=
  (as_path_segments_exact (.inl rfl) _ _ _).mpr
    ⟨forall_mem_cons.mpr ⟨⟨by decide, by decide, by decide⟩, forall_mem_singleton.mpr ⟨by decide, by decide, by decide⟩⟩,
      rfl, by unfold affordsASPath; decide⟩

end Probectl.Bgp
