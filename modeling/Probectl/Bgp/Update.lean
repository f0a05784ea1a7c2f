import Probectl.Lib.Loop
import Probectl.Lib.Octets
import Probectl.Lib.Run

/-! Framing of a BGP UPDATE: `update_frame.go`, `route_attributes.go` and
`end_of_rib.go` of `internal/bgp`. -/
namespace Probectl.Bgp

open Octets List Run

inductive Sentinel where
  | updateFrame | updateFrameBudget
  | routeAttributes | routeAttributeBudget
  | routeFrame | routeViewHeader
  | asPathSyntax | asPathBudget | routeASAttributes
  | routePrefix | routePrefixBudget
  | mpRouteAttributes | mpRouteBudget
  | routeCapabilities | sourceRoute | routeChanges
  deriving DecidableEq

/-- An error as `errors.Is` sees it: the sentinels that `errors.Join` joined. -/
abbrev Fault := List Sentinel

def bgpHeaderLen : Nat := 19
def bgpMessageTypeUpdate : UInt8 := 2

structure RouteAttribute where
  flags : UInt8
  type : UInt8
  value : Bytes
  deriving DecidableEq

structure RouteFamily where
  afi : Nat
  safi : UInt8
  deriving DecidableEq

def RouteAttribute.family (a : RouteAttribute) : RouteFamily := ⟨big (a.value.take 2), a.value.getD 2 0⟩

structure Budget where
  memoryBytes : Int
  workUnits : Int
  deriving DecidableEq

structure UpdateFrame where
  withdrawnIPv4 : Bytes
  reachableIPv4 : Bytes
  attributes : List RouteAttribute
  endOfRIB : Option RouteFamily
  deriving DecidableEq

def routeAttributeLength : Bytes → Except Fault (Nat × Nat)
  | flags :: _ :: first :: rest =>
    if flags &&& 0x10 ≠ 0 then
      match rest with
      | [] => .error [.routeAttributes]
      | second :: value =>
        if big [first, second] > value.length then .error [.routeAttributes] else .ok (4, big [first, second])
    else if first.toNat > rest.length then .error [.routeAttributes]
    else .ok (3, first.toNat)
  | _ => .error [.routeAttributes]

def routeAttribute (raw : Bytes) (header length : Nat) : RouteAttribute :=
  ⟨raw.getD 0 0, raw.getD 1 0, slice raw header (header + length)⟩

variable {header : Nat} {raw : Bytes} {length : Nat}

theorem routeAttributeLength_header
    (read : routeAttributeLength raw = .ok (header, length)) : 0 < header ∧ header + length ≤ raw.length := by
  unfold routeAttributeLength at read
  split at read
  case h_2 => cases read
  split at read
  · split at read
    · cases read
    obtain ⟨_, read⟩ := guard_ok read
    cases read
    simp only [length_cons]
    omega
  · obtain ⟨_, read⟩ := guard_ok read
    cases read
    simp only [length_cons]
    omega

/-- The walk over an attribute block; the source makes it twice, once to count. -/
def attributesLoop : Loop (List RouteAttribute × Bytes) (Except Fault (List RouteAttribute)) where
  body := fun (out, raw) =>
    if raw = [] then .inr (.ok out)
    else
      match routeAttributeLength raw with
      | .error e => .inr (.error e)
      | .ok (header, length) => .inl (out ++ [routeAttribute raw header length], raw.drop (header + length))
  size := fun (_, raw) => raw.length
  shrinks := by
    rintro ⟨out, raw⟩ t next
    dsimp only at next
    split at next
    · cases next
    split at next
    · cases next
    rename_i header length read
    cases next
    have positive := routeAttributeLength_header read
    simp only [length_drop]
    omega

def parseBGPRouteAttributes (raw : Bytes) (budget : Budget) : Except Fault (List RouteAttribute) :=
  if budget.memoryBytes ≤ 0 ∨ budget.workUnits ≤ 0 ∨ raw.length > budget.memoryBytes / 64 ∨
      raw.length > budget.workUnits / 2 then
    .error [.routeAttributeBudget]
  else attributesLoop.run ([], raw)

def endOfRIBMarker (flags kind : UInt8) (valueLength : Nat) (value : Bytes) : Except Fault (Option RouteFamily) :=
  if valueLength > value.length then .error [.routeFrame]
  else if valueLength ≠ value.length ∨ kind ≠ 15 then .ok none
  else if flags &&& 0xe0 ≠ 0x80 ∨ valueLength < 3 then .error [.routeFrame]
  else if valueLength ≠ 3 then .ok none
  else .ok (some ⟨big (value.take 2), value.getD 2 0⟩)

def endOfRIBAttribute : Bytes → Except Fault (Option RouteFamily)
  | flags :: kind :: first :: rest =>
    if flags &&& 0x10 ≠ 0 then
      match rest with
      | [] => .error [.routeFrame]
      | second :: value => endOfRIBMarker flags kind (big [first, second]) value
    else endOfRIBMarker flags kind first.toNat rest
  | _ => .error [.routeFrame]

def parseBGPEndOfRIB (raw : Bytes) : Except Fault (Option RouteFamily) :=
  if raw.length < bgpHeaderLen then .error [.routeFrame]
  else if (raw.take 16).any (· != 255) then .error [.routeFrame]
  else if big (slice raw 16 18) ≠ raw.length then .error [.routeFrame]
  else if raw.getD 18 0 ≠ 2 then .ok none
  else if raw.length < bgpHeaderLen + 4 then .error [.routeFrame]
  else
    let withdrawn := big (slice raw 19 21)
    if withdrawn > raw.length - bgpHeaderLen - 4 then .error [.routeFrame]
    else
      let offset := bgpHeaderLen + 2 + withdrawn
      let length := big (slice raw offset (offset + 2))
      let offset := offset + 2
      if length > raw.length - offset then .error [.routeFrame]
      else
        let bodyEnd := offset + length
        -- routes of any kind make it an ordinary UPDATE
        if bodyEnd ≠ raw.length ∨ withdrawn ≠ 0 then .ok none
        else if length = 0 then .ok (some ⟨1, 1⟩)
        else endOfRIBAttribute (slice raw offset bodyEnd)

def parseBGPUpdateFrame (raw : Bytes) (budget : Budget) : Except Fault UpdateFrame :=
  if budget.memoryBytes ≤ 0 ∨ budget.workUnits ≤ 0 ∨ raw.length > budget.memoryBytes / 128 ∨
      raw.length > budget.workUnits / 8 then
    .error [.updateFrameBudget]
  else if raw.length < bgpHeaderLen + 4 ∨ raw.getD 18 0 ≠ bgpMessageTypeUpdate ∨ big (slice raw 16 18) ≠ raw.length then
    .error [.updateFrame]
  else if (raw.take 16).any (· != 255) then .error [.updateFrame]
  else
    let withdrawnLength := big (slice raw 19 21)
    if withdrawnLength > raw.length - bgpHeaderLen - 4 then .error [.updateFrame]
    else
      let withdrawn := slice raw 21 (21 + withdrawnLength)
      let offset := 21 + withdrawnLength
      let attributeLength := big (slice raw offset (offset + 2))
      let offset := offset + 2
      if attributeLength > raw.length - offset then .error [.updateFrame]
      else
        match parseBGPRouteAttributes (slice raw offset (offset + attributeLength))
            ⟨budget.memoryBytes / 2, budget.workUnits / 4⟩ with
        | .error e => .error (.updateFrame :: e)
        | .ok attributes =>
          match parseBGPEndOfRIB raw with
          | .error e => .error (.updateFrame :: e)
          | .ok endOfRIB => .ok ⟨withdrawn, raw.drop (offset + attributeLength), attributes, endOfRIB⟩

/-! Writing a frame back. -/

def RouteAttribute.encode (a : RouteAttribute) : Bytes :=
  a.flags :: a.type :: (put (if a.flags &&& 0x10 ≠ 0 then 2 else 1) a.value.length ++ a.value)

def UpdateFrame.encode (frame : UpdateFrame) : Bytes :=
  let attributes := frame.attributes.flatMap RouteAttribute.encode
  let body := put 2 frame.withdrawnIPv4.length ++ (frame.withdrawnIPv4 ++
    (put 2 attributes.length ++ (attributes ++ frame.reachableIPv4)))
  replicate 16 255 ++ (put 2 (bgpHeaderLen + body.length) ++ (bgpMessageTypeUpdate :: body))

def UpdateFrame.IsMarker (frame : UpdateFrame) : Prop :=
  frame.withdrawnIPv4 = [] ∧ frame.reachableIPv4 = [] ∧
    (frame.attributes = [] ∨
      ∃ a, frame.attributes = [a] ∧ a.type = 15 ∧ a.flags &&& 0xe0 = 0x80 ∧ a.value.length = 3)

theorem put_two (first second : UInt8) : put 2 (big [first, second]) = [first, second] :=
  put_big [first, second]

theorem put_one (b : UInt8) : put 1 b.toNat = [b] := by
  simpa [big] using put_big [b]

theorem routeAttribute_encode (read : routeAttributeLength raw = .ok (header, length)) :
    (routeAttribute raw header length).encode ++ raw.drop (header + length) = raw := by
  unfold routeAttributeLength at read
  split at read
  case h_2 => cases read
  rename_i flags type first rest
  split at read
  · rename_i extended
    split at read
    · cases read
    rename_i second value
    obtain ⟨fits, read⟩ := guard_ok read
    cases read
    have long : ((value.take (big [first, second]))).length = big [first, second] := by
      rw [length_take]
      omega
    simp [RouteAttribute.encode, routeAttribute, slice, extended, long, put_two, Nat.add_comm 4]
  · rename_i plain
    obtain ⟨fits, read⟩ := guard_ok read
    cases read
    have short : (rest.take first.toNat).length = first.toNat := by
      rw [length_take]
      omega
    simp [RouteAttribute.encode, routeAttribute, slice, plain, short, put_one, Nat.add_comm 3]

variable {attributes : List RouteAttribute} {out : List RouteAttribute}

theorem attributesLoop_ok (read : attributesLoop.run (out, raw) = .ok attributes) : (raw = [] ∧ attributes = out) ∨
      ∃ header length, routeAttributeLength raw = .ok (header, length) ∧
        attributesLoop.body (out, raw) = .inl (out ++ [routeAttribute raw header length], raw.drop (header + length)) ∧
        attributesLoop.run (out ++ [routeAttribute raw header length], raw.drop (header + length)) = .ok attributes := by
  by_cases done : raw = []
  · have exit : attributesLoop.body (out, raw) = .inr (.ok out) := by simp [attributesLoop, done]
    rw [Loop.run_exit exit] at read
    exact .inl ⟨done, (Except.ok.inj read).symm⟩
  cases head : routeAttributeLength raw with
  | error e =>
    have exit : attributesLoop.body (out, raw) = .inr (.error e) := by simp [attributesLoop, done, head]
    rw [Loop.run_exit exit] at read
    cases read
  | ok lengths =>
    obtain ⟨header, length⟩ := lengths
    have next : attributesLoop.body (out, raw) =
        .inl (out ++ [routeAttribute raw header length], raw.drop (header + length)) := by
      simp [attributesLoop, done, head]
    exact .inr ⟨header, length, rfl, next, Loop.run_next next ▸ read⟩

inductive Attributes : Bytes → List RouteAttribute → Prop
  | nil : Attributes [] []
  | cons {raw : Bytes} {header length : Nat} {rest : List RouteAttribute}
    (head : routeAttributeLength raw = .ok (header, length)) (tail : Attributes (raw.drop (header + length)) rest) :
    Attributes raw (routeAttribute raw header length :: rest)

theorem attributesLoop_attributes
    (read : attributesLoop.run (out, raw) = .ok attributes) : ∃ more, attributes = out ++ more ∧ Attributes raw more := by
  induction state : (out, raw) using attributesLoop.induct generalizing out raw with
  | round s ih =>
    subst state
    obtain ⟨rfl, rfl⟩ | ⟨header, length, head, next, rest⟩ := attributesLoop_ok read
    · exact ⟨[], by simp, .nil⟩
    · obtain ⟨more, rfl, tail⟩ := ih _ next rest rfl
      exact ⟨routeAttribute raw header length :: more, by simp, .cons head tail⟩

theorem Attributes.encode (block : Attributes raw attributes) : attributes.flatMap RouteAttribute.encode = raw := by
  induction block with
  | nil => rfl
  | cons head tail ih => rw [flatMap_cons, ih, routeAttribute_encode head]

variable {budget : Budget}

theorem parseBGPRouteAttributes_ok (read : parseBGPRouteAttributes raw budget = .ok attributes) :
    attributesLoop.run ([], raw) = .ok attributes ∧ Attributes raw attributes := by
  obtain ⟨-, read⟩ := guard_ok read
  obtain ⟨more, rfl, block⟩ := attributesLoop_attributes read
  exact ⟨read, block⟩

theorem endOfRIBAttribute_eq (read : routeAttributeLength raw = .ok (header, length)) :
    endOfRIBAttribute raw = endOfRIBMarker (raw.getD 0 0) (raw.getD 1 0) length (raw.drop header) := by
  unfold routeAttributeLength at read
  split at read
  case h_2 => cases read
  split at read
  · rename_i extended
    split at read
    · cases read
    obtain ⟨-, read⟩ := guard_ok read
    cases read
    simp [endOfRIBAttribute, extended]
  · rename_i plain
    obtain ⟨-, read⟩ := guard_ok read
    cases read
    simp [endOfRIBAttribute, plain]

theorem endOfRIBMarker_iff (flags kind : UInt8) (valueLength : Nat) (value : Bytes) (family : RouteFamily) :
    endOfRIBMarker flags kind valueLength value = .ok (some family) ↔
      value.length = valueLength ∧ kind = 15 ∧ flags &&& 0xe0 = 0x80 ∧ valueLength = 3 ∧
        family = ⟨big (value.take 2), value.getD 2 0⟩ := by
  unfold endOfRIBMarker
  constructor
  · intro marker
    obtain ⟨-, marker⟩ := guard_ok marker
    split at marker
    · cases marker
    split at marker
    · cases marker
    split at marker
    · cases marker
    rename_i _ alone flagged three
    simp only [not_or, not_not] at alone flagged three
    cases marker
    exact ⟨alone.1.symm, alone.2, flagged.1, three, rfl⟩
  · rintro ⟨rfl, rfl, flagged, three, rfl⟩
    simp [flagged, three]

theorem RouteAttribute.encode_ne_nil (a : RouteAttribute) : a.encode ≠ [] := by
  simp [RouteAttribute.encode]

theorem endOfRIBAttribute_iff (nonempty : block ≠ [])
    (read : Attributes block attributes) :
    endOfRIBAttribute block = .ok (some family) ↔
      ∃ a, attributes = [a] ∧ a.type = 15 ∧ a.flags &&& 0xe0 = 0x80 ∧ a.value.length = 3 ∧ family = a.family := by
  cases read with
  | nil => exact absurd rfl nonempty
  | @cons _ header length more head tail =>
    have fits := (routeAttributeLength_header head).2
    have valueLength : (routeAttribute block header length).value.length = length := by
      rw [routeAttribute, slice_length]
      omega
    have alone : (block.drop header).length = length ↔ more = [] := by
      have left : more = [] ↔ block.drop (header + length) = [] := by
        rw [← tail.encode, flatMap_eq_nil_iff]
        refine ⟨fun none a mem => by simp [none] at mem, fun none => eq_nil_iff_forall_not_mem.mpr fun a mem => ?_⟩
        exact a.encode_ne_nil (none a mem)
      rw [left, drop_eq_nil_iff, length_drop]
      omega
    have whole (ends : (block.drop header).length = length) :
        (routeAttribute block header length).family = ⟨big ((block.drop header).take 2), (block.drop header).getD 2 0⟩ := by
      rw [RouteAttribute.family, routeAttribute, slice, Nat.add_sub_cancel_left, take_of_length_le ends.le]
    rw [endOfRIBAttribute_eq head, endOfRIBMarker_iff]
    constructor
    · rintro ⟨ends, kind, flags, three, rfl⟩
      exact ⟨routeAttribute block header length, by simp [alone.mp ends], kind, flags, valueLength.trans three, (whole ends).symm⟩
    rintro ⟨a, only, kind, flags, three, rfl⟩
    obtain ⟨rfl, rfl⟩ := cons.inj only
    have ends := alone.mpr rfl
    exact ⟨ends, kind, flags, valueLength.symm.trans three, whole ends⟩

structure Framed (raw : Bytes) (frame : UpdateFrame) (withdrawn length : Nat) : Prop where
  marked : raw.take 16 = replicate 16 255
  sized : big (slice raw 16 18) = raw.length
  typed : raw.getD 18 0 = bgpMessageTypeUpdate
  withdrawn_eq : big (slice raw 19 21) = withdrawn
  length_eq : big (slice raw (21 + withdrawn) (21 + withdrawn + 2)) = length
  fits : 21 + withdrawn + 2 + length ≤ raw.length
  withdrawnIPv4 : frame.withdrawnIPv4 = slice raw 21 (21 + withdrawn)
  attributes : Attributes (slice raw (21 + withdrawn + 2) (21 + withdrawn + 2 + length)) frame.attributes
  reachableIPv4 : frame.reachableIPv4 = raw.drop (21 + withdrawn + 2 + length)

theorem take_marker (long : 16 ≤ raw.length) (marked : ¬ (raw.take 16).any (· != 255) = true) :
    raw.take 16 = replicate 16 255 := by
  apply eq_replicate_iff.mpr
  refine ⟨by simpa using long, fun b mem => ?_⟩
  by_contra other
  exact marked (any_eq_true.mpr ⟨b, mem, by simpa using other⟩)

theorem parseBGPUpdateFrame_ok (read : parseBGPUpdateFrame raw budget = .ok frame) :
    (∃ withdrawn length, Framed raw frame withdrawn length) ∧ parseBGPEndOfRIB raw = .ok frame.endOfRIB := by
  obtain ⟨-, read⟩ := guard_ok read
  obtain ⟨header, read⟩ := guard_ok read
  simp only [bgpHeaderLen, not_or, not_not] at header
  obtain ⟨marker, read⟩ := guard_ok read
  obtain ⟨room, read⟩ := guard_ok read
  obtain ⟨inside, read⟩ := guard_ok read
  split at read
  · cases read
  rename_i attributes block
  split at read
  · cases read
  rename_i endOfRIB marked
  cases read
  simp only [bgpHeaderLen] at room
  refine ⟨⟨big (slice raw 19 21), big (slice raw (21 + big (slice raw 19 21)) (21 + big (slice raw 19 21) + 2)), ?_⟩, marked⟩
  exact {
    marked := take_marker (by omega) marker
    sized := header.2.2
    typed := header.2.1
    withdrawn_eq := rfl
    length_eq := rfl
    fits := by omega
    withdrawnIPv4 := rfl
    attributes := (parseBGPRouteAttributes_ok block).2
    reachableIPv4 := rfl }

namespace Framed

variable {raw : Bytes} {frame : UpdateFrame} {withdrawn length : Nat}

section
variable (framed : Framed raw frame withdrawn length)
include framed

theorem put_width : put 2 raw.length = slice raw 16 18 ∧ put 2 withdrawn = slice raw 19 21 ∧
      put 2 length = slice raw (21 + withdrawn) (21 + withdrawn + 2) := by
  have fits := framed.fits
  have two : ∀ lo, lo + 2 ≤ raw.length → put 2 (big (slice raw lo (lo + 2))) = slice raw lo (lo + 2) := by
    intro lo inside
    have width : (slice raw lo (lo + 2)).length = 2 := by
      rw [slice_length]
      omega
    simpa only [width] using put_big (slice raw lo (lo + 2))
  have whole := two 16 (by omega)
  have routes := two 19 (by omega)
  have block := two (21 + withdrawn) (by omega)
  rw [framed.sized] at whole
  rw [framed.withdrawn_eq] at routes
  rw [framed.length_eq] at block
  exact ⟨whole, routes, block⟩

theorem encode_eq : frame.encode = raw := by
  obtain ⟨whole, routes, block⟩ := framed.put_width
  have fits := framed.fits
  have attributes := framed.attributes.encode
  have attributesLength : (slice raw (21 + withdrawn + 2) (21 + withdrawn + 2 + length)).length = length := by
    rw [slice_length]
    omega
  have withdrawnLength : (slice raw 21 (21 + withdrawn)).length = withdrawn := by
    rw [slice_length]
    omega
  -- the body, from its end to its beginning
  have body : put 2 frame.withdrawnIPv4.length ++ (frame.withdrawnIPv4 ++
      (put 2 (frame.attributes.flatMap RouteAttribute.encode).length ++
        (frame.attributes.flatMap RouteAttribute.encode ++ frame.reachableIPv4))) = raw.drop 19 := by
    rw [attributes, attributesLength, framed.withdrawnIPv4, withdrawnLength, framed.reachableIPv4, routes, block,
      slice_append_drop raw (by omega), slice_append_drop raw (by omega), slice_append_drop raw (by omega),
      slice_append_drop raw (by omega)]
  have kind : bgpMessageTypeUpdate :: raw.drop 19 = raw.drop 18 := by
    have inside : 18 < raw.length := by omega
    rw [← framed.typed, getD_eq_getElem?_getD, getElem?_eq_getElem, Option.getD_some,
      drop_eq_getElem_cons inside]
  have size : bgpHeaderLen + (raw.drop 19).length = raw.length := by
    rw [length_drop, bgpHeaderLen]
    omega
  unfold UpdateFrame.encode
  dsimp only
  rw [body, size, whole, kind, slice_append_drop raw (by omega), ← framed.marked, take_append_drop]

theorem parseBGPEndOfRIB_eq : parseBGPEndOfRIB raw =
      if 21 + withdrawn + 2 + length ≠ raw.length ∨ withdrawn ≠ 0 then .ok none
      else if length = 0 then .ok (some ⟨1, 1⟩)
      else endOfRIBAttribute (slice raw (21 + withdrawn + 2) (21 + withdrawn + 2 + length)) := by
  have fits := framed.fits
  have long : ¬ raw.length < bgpHeaderLen + 4 := by
    rw [bgpHeaderLen]
    omega
  have typed : raw.getD 18 0 = 2 := framed.typed
  unfold parseBGPEndOfRIB
  rw [if_neg (by omega), if_neg (by rw [framed.marked]; decide), if_neg (by simp [framed.sized]),
    if_neg (not_not.mpr typed), if_neg long]
  dsimp only
  rw [framed.withdrawn_eq, if_neg (by rw [bgpHeaderLen]; omega), show bgpHeaderLen + 2 + withdrawn = 21 + withdrawn from rfl,
    framed.length_eq, if_neg (by omega)]

theorem empty_regions : (frame.withdrawnIPv4 = [] ∧ frame.reachableIPv4 = []) ↔
      ¬ (21 + withdrawn + 2 + length ≠ raw.length ∨ withdrawn ≠ 0) := by
  have fits := framed.fits
  rw [framed.withdrawnIPv4, framed.reachableIPv4, ← length_eq_zero_iff, slice_length, drop_eq_nil_iff]
  omega

theorem marker_family (family : RouteFamily) : parseBGPEndOfRIB raw = .ok (some family) ↔
      (frame.withdrawnIPv4 = [] ∧ frame.reachableIPv4 = []) ∧
        (frame.attributes = [] ∧ family = ⟨1, 1⟩ ∨
          ∃ a, frame.attributes = [a] ∧ a.type = 15 ∧ a.flags &&& 0xe0 = 0x80 ∧ a.value.length = 3 ∧ family = a.family) := by
  rw [framed.parseBGPEndOfRIB_eq, framed.empty_regions]
  by_cases routes : 21 + withdrawn + 2 + length ≠ raw.length ∨ withdrawn ≠ 0
  · simp [routes]
  rw [if_neg routes]
  have read := framed.attributes
  by_cases empty : length = 0
  · have none : frame.attributes = [] := by
      rw [empty, slice, Nat.sub_self] at read
      generalize frame.attributes = attributes at read
      cases read with
      | nil => rfl
      | cons head => cases head
    rw [if_pos empty]
    refine ⟨fun marker => ⟨routes, .inl ⟨none, ?_⟩⟩, fun marker => ?_⟩
    · cases marker
      rfl
    obtain ⟨-, rfl⟩ | ⟨a, some, -⟩ := marker.2
    · rfl
    · rw [none] at some
      cases some
  · have block : slice raw (21 + withdrawn + 2) (21 + withdrawn + 2 + length) ≠ [] := by
      rw [← length_pos_iff, slice_length]
      omega
    have some : frame.attributes ≠ [] := by
      intro none
      rw [← framed.attributes.encode, none] at block
      exact block rfl
    simp only [routes, not_false_eq_true, true_and, some, false_and, false_or, if_neg empty]
    exact endOfRIBAttribute_iff block read

theorem marker_iff : (∃ family, parseBGPEndOfRIB raw = .ok (some family)) ↔ frame.IsMarker := by
  constructor
  · rintro ⟨family, marker⟩
    obtain ⟨⟨withdrawn, reachable⟩, ⟨none, -⟩ | ⟨a, only, kind, flags, three, -⟩⟩ := (framed.marker_family family).mp marker
    · exact ⟨withdrawn, reachable, .inl none⟩
    · exact ⟨withdrawn, reachable, .inr ⟨a, only, kind, flags, three⟩⟩
  · rintro ⟨withdrawn, reachable, none | ⟨a, only, kind, flags, three⟩⟩
    · exact ⟨⟨1, 1⟩, (framed.marker_family _).mpr ⟨⟨withdrawn, reachable⟩, .inl ⟨none, rfl⟩⟩⟩
    · exact ⟨a.family, (framed.marker_family _).mpr ⟨⟨withdrawn, reachable⟩, .inr ⟨a, only, kind, flags, three, rfl⟩⟩⟩

end

end Framed

/-- An accepted frame, written back, is the message; a marker is reported exactly
for the frames that are one. -/
theorem update_frame_lossless (raw : Bytes) (budget : Budget) (frame : UpdateFrame)
    (read : parseBGPUpdateFrame raw budget = .ok frame) :
    frame.encode = raw ∧ ((∃ family, parseBGPEndOfRIB raw = .ok (some family)) ↔ frame.IsMarker) := by
  obtain ⟨⟨withdrawn, length, framed⟩, -⟩ := parseBGPUpdateFrame_ok read
  exact ⟨framed.encode_eq, framed.marker_iff⟩

theorem update_frame_lossless_ipv6End :
    let raw := replicate 16 255 ++ [0, 29, 2, 0, 0, 0, 6, 0x80, 15, 3, 0, 2, 1]
    let frame : UpdateFrame := ⟨[], [], [⟨0x80, 15, [0, 2, 1]⟩], some ⟨2, 1⟩⟩
    parseBGPUpdateFrame raw ⟨4096, 4096⟩ = .ok frame ∧
      frame.encode = raw ∧ ((∃ family, parseBGPEndOfRIB raw = .ok (some family)) ↔ frame.IsMarker) :=
  ⟨by decide +kernel, update_frame_lossless _ ⟨4096, 4096⟩ _ (by decide +kernel)⟩

end Probectl.Bgp
