import Probectl.Bgp.Families

/-! The raw lane's reading of a Route Monitoring message: `bmp.go` from
`parseBMPRouteMonitoring` on. -/
namespace Probectl.Bgp

open Octets List

inductive RawFault where
  | payloadTooShort (length : Nat)
  | peerHeaderLength (length : Nat)
  | messageTooShort (length : Nat)
  | invalidMarker
  | invalidLength (length : Nat)
  | notUpdate (kind : UInt8)
  | bodyTooShort
  | withdrawnLength
  | unsupportedUpdate
  | attributesLength
  | attributeHeader
  | extendedAttributeHeader
  | attributeLength
  | noASPath
  | malformedASPath
  | emptyASPath
  | asPathLimit (entries : Nat)
  | announcementLimit (announcements : Nat)
  | routePathWorkLimit (entries announcements : Nat)
  | ipv4PrefixLength (bits : Nat)
  | truncatedNLRI
  deriving DecidableEq

def bgpPathAttrASPath : UInt8 := 2
def bgpPathAttrAS4Path : UInt8 := 17
def bgpPathAttrMPReachNLRI : UInt8 := 14
def bgpPathAttrMPUnreachNLRI : UInt8 := 15
def maxBMPASPathEntries : Nat := 512
def maxBMPRouteAnnouncements : Nat := 4096
def maxBMPRoutePathEntries : Nat := 2 ^ 18

structure BMPPeer where
  asn : Nat
  address : Addr
  timestampUnixNano : Int
  deriving DecidableEq

structure BMPRouteAnnouncement where
  addr : Addr
  bits : Nat
  asPath : List Nat
  originASN : Nat
  deriving DecidableEq

structure BMPRouteMonitoringObservation where
  peer : BMPPeer
  routes : List BMPRouteAnnouncement
  deriving DecidableEq

def parseBMPPeer (header : Bytes) : Except RawFault BMPPeer :=
  if header.length ≠ bmpPeerHeaderLen then .error (.peerHeaderLength header.length)
  else
    let address : Addr :=
      if header.getD 1 0 &&& 0x80 ≠ 0 then .v6 (slice header 10 26) else .v4 (slice header 22 26)
    let seconds := big (slice header 34 38)
    let micros := big (slice header 38 42)
    .ok ⟨big (slice header 26 30), address, seconds * 1000000000 + micros * 1000⟩

/-! AS paths, with the width of the numbers guessed. -/

def countEntriesLoop (width : Nat) : Loop (Nat × Bytes) (Option Nat) where
  body := fun (entries, value) =>
    match value with
    | [] => .inr (some entries)
    | segType :: count :: rest =>
      if segType < 1 ∨ segType > 4 then .inr none
      else if count.toNat > rest.length / width then .inr none
      else .inl (entries + count.toNat, rest.drop (count.toNat * width))
    | _ => .inr none
  size := fun (_, value) => value.length
  shrinks := by
    rintro ⟨entries, value⟩ t next
    dsimp only at next
    split at next
    · cases next
    · split at next
      · cases next
      split at next
      · cases next
      · cases next
        simp only [length_cons, length_drop]
        omega
    · cases next

def countBGPASPathEntries (value : Bytes) (width : Nat) : Option Nat :=
  if width ≤ 0 then none else (countEntriesLoop width).run (0, value)

def decodeEntriesLoop (width : Nat) : Loop (List Nat × Bytes) (Option (List Nat)) where
  body := fun (path, value) =>
    match value with
    | [] => .inr (some path)
    | _ :: count :: rest =>
      if rest.length < count.toNat * width then .inr none
      else .inl (path ++ readASNs width count.toNat rest, rest.drop (count.toNat * width))
    | _ => .inr none
  size := fun (_, value) => value.length
  shrinks := by
    rintro ⟨path, value⟩ t next
    dsimp only at next
    split at next
    · cases next
    · split at next
      · cases next
      · cases next
        simp only [length_cons, length_drop]
        omega
    · cases next

/-- `none` where the value is not framed in numbers of this width. -/
def parseBGPASPathValueWidth (value : Bytes) (width : Nat) : Option (Except RawFault (List Nat)) :=
  match countBGPASPathEntries value width with
  | none => none
  | some entryCount =>
    if entryCount > maxBMPASPathEntries then some (.error (.asPathLimit entryCount))
    else ((decodeEntriesLoop width).run ([], value)).map .ok

def parseBGPASPathValue (value : Bytes) : Except RawFault (List Nat) :=
  match parseBGPASPathValueWidth value 4 with
  | some read => read
  | none =>
    match parseBGPASPathValueWidth value 2 with
    | some read => read
    | none => .error .malformedASPath

/-! Path attributes. -/

def rawAttribute : Bytes → Except RawFault (UInt8 × Bytes × Bytes)
  | flags :: typ :: first :: rest =>
    if flags &&& 0x10 ≠ 0 then
      match rest with
      | [] => .error .extendedAttributeHeader
      | second :: value =>
        let attrLen := big [first, second]
        if value.length < attrLen then .error .attributeLength else .ok (typ, value.take attrLen, value.drop attrLen)
    else if rest.length < first.toNat then .error .attributeLength
    else .ok (typ, rest.take first.toNat, rest.drop first.toNat)
  | _ => .error .attributeHeader

theorem rawAttribute_shorter
    (read : rawAttribute attrs = .ok (typ, value, rest)) : rest.length < attrs.length := by
  unfold rawAttribute at read
  split at read
  case h_2 => cases read
  split at read
  · split at read
    · cases read
    dsimp only at read
    split at read
    · cases read
    · cases read
      simp only [length_cons, length_drop]
      omega
  · split at read
    · cases read
    · cases read
      simp only [length_cons, length_drop]
      omega

/-- An AS_PATH ends the search; an AS4_PATH is kept in case there is none. -/
def asPathLoop : Loop (List Nat × Bytes) (Except RawFault (List Nat)) where
  body := fun (as4Path, attrs) =>
    if attrs = [] then .inr (if as4Path = [] then .error .noASPath else .ok as4Path)
    else
      match rawAttribute attrs with
      | .error e => .inr (.error e)
      | .ok (typ, value, rest) =>
        if typ = bgpPathAttrASPath then .inr (parseBGPASPathValue value)
        else if typ = bgpPathAttrAS4Path then
          match parseBGPASPathValue value with
          | .ok (first :: more) => .inl (first :: more, rest)
          | _ => .inl (as4Path, rest)
        else .inl (as4Path, rest)
  size := fun (_, attrs) => attrs.length
  shrinks := by
    rintro ⟨as4Path, attrs⟩ t next
    dsimp only at next
    split at next
    · cases next
    split at next
    · cases next
    rename_i typ value rest read
    have shorter := rawAttribute_shorter read
    split at next
    · cases next
    split at next
    · split at next
      all_goals
        cases next
        exact shorter
    · cases next
      exact shorter

def parseBGPASPath (attrs : Bytes) : Except RawFault (List Nat) := asPathLoop.run ([], attrs)

/-- Stops at a malformed tail; the type is compared before the length. -/
def containsTypeLoop (wanted : UInt8) : Loop Bytes Bool where
  body := fun attrs =>
    match attrs with
    | flags :: typ :: first :: rest =>
      if flags &&& 0x10 ≠ 0 then
        match rest with
        | [] => .inr false
        | second :: value =>
          if typ = wanted then .inr true
          else if value.length < big [first, second] then .inr false
          else .inl (value.drop (big [first, second]))
      else if typ = wanted then .inr true
      else if rest.length < first.toNat then .inr false
      else .inl (rest.drop first.toNat)
    | _ => .inr false
  size := length
  shrinks := by
    intro attrs t next
    split at next
    case h_2 => cases next
    split at next
    · split at next
      · cases next
      split at next
      · cases next
      split at next
      · cases next
      · cases next
        simp only [length_cons, length_drop]
        omega
    · split at next
      · cases next
      split at next
      · cases next
      · cases next
        simp only [length_cons, length_drop]
        omega

def bgpAttrsContainType (attrs : Bytes) (typ : UInt8) : Bool := (containsTypeLoop typ).run attrs

/-! Announced prefixes. -/

def countNLRILoop : Loop (Nat × Bytes) (Except RawFault Nat) where
  body := fun (count, raw) =>
    match raw with
    | [] => .inr (.ok count)
    | bits :: rest =>
      let n := (bits.toNat + 7) / 8
      if bits.toNat > 32 then .inr (.error (.ipv4PrefixLength bits.toNat))
      else if bits = 0 then .inr (.error .unsupportedUpdate)
      else if rest.length < n then .inr (.error .truncatedNLRI)
      else if count = maxBMPRouteAnnouncements then .inr (.error (.announcementLimit (count + 1)))
      else .inl (count + 1, rest.drop n)
  size := fun (_, raw) => raw.length
  shrinks := by
    rintro ⟨count, raw⟩ t next
    dsimp only at next
    split at next
    · cases next
    split at next
    · cases next
    split at next
    · cases next
    split at next
    · cases next
    split at next
    · cases next
    · cases next
      simp only [length_cons, length_drop]
      omega

def countIPv4NLRI (raw : Bytes) : Except RawFault Nat := countNLRILoop.run (0, raw)

def decodeNLRILoop : Loop (List (Addr × Nat) × Bytes) (List (Addr × Nat)) where
  body := fun (prefixes, raw) =>
    match raw with
    | [] => .inr prefixes
    | bits :: rest =>
      let n := (bits.toNat + 7) / 8
      .inl (prefixes ++ [(maskedAddress 1 bits.toNat (rest.take n), bits.toNat)], rest.drop n)
  size := fun (_, raw) => raw.length
  shrinks := by
    rintro ⟨prefixes, raw⟩ t next
    dsimp only at next
    split at next
    · cases next
    · cases next
      simp only [length_cons, length_drop]
      omega

def decodeIPv4NLRI (raw : Bytes) : List (Addr × Nat) := decodeNLRILoop.run ([], raw)

def validateBMPUpdateCardinality (asPathEntries announcements : Nat) : Except RawFault Unit :=
  if asPathEntries > maxBMPASPathEntries then .error (.asPathLimit asPathEntries)
  else if announcements > maxBMPRouteAnnouncements then .error (.announcementLimit announcements)
  else if asPathEntries ≠ 0 ∧ announcements > maxBMPRoutePathEntries / asPathEntries then
    .error (.routePathWorkLimit asPathEntries announcements)
  else .ok ()

def announcedRoutes (attrs nlri : Bytes) : Except RawFault (List BMPRouteAnnouncement) := do
  if nlri = [] then .ok []
  else
    let asPath ← parseBGPASPath attrs
    match asPath.getLast? with
    | none => .error .emptyASPath
    | some origin =>
      let prefixCount ← countIPv4NLRI nlri
      validateBMPUpdateCardinality asPath.length prefixCount
      .ok ((decodeIPv4NLRI nlri).map fun (addr, bits) => ⟨addr, bits, asPath, origin⟩)

def parseBGPUpdateRoutes (raw : Bytes) : Except RawFault (List BMPRouteAnnouncement) :=
  if raw.length < bgpHeaderLen then .error (.messageTooShort raw.length)
  else if (raw.take 16).any (· != 0xff) then .error .invalidMarker
  else
    let msgLen := big (slice raw 16 18)
    if msgLen < bgpHeaderLen ∨ msgLen > raw.length then .error (.invalidLength msgLen)
    else if raw.getD 18 0 ≠ bgpMessageTypeUpdate then .error (.notUpdate (raw.getD 18 0))
    else
      let body := slice raw bgpHeaderLen msgLen
      if body.length < 4 then .error .bodyTooShort
      else
        let withdrawnLen := big (body.take 2)
        if body.length < 2 + withdrawnLen + 2 then .error .withdrawnLength
        else if withdrawnLen > 0 then .error .unsupportedUpdate
        else
          let pos := 2 + withdrawnLen
          let attrLen := big (slice body pos (pos + 2))
          let pos := pos + 2
          if body.length < pos + attrLen then .error .attributesLength
          else
            let attrs := slice body pos (pos + attrLen)
            if bgpAttrsContainType attrs bgpPathAttrMPReachNLRI ∨ bgpAttrsContainType attrs bgpPathAttrMPUnreachNLRI then
              .error .unsupportedUpdate
            else announcedRoutes attrs (body.drop (pos + attrLen))

def parseBMPRouteMonitoring (payload : Bytes) : Except RawFault BMPRouteMonitoringObservation := do
  if payload.length < bmpPeerHeaderLen then .error (.payloadTooShort payload.length)
  else
    let peer ← parseBMPPeer (payload.take bmpPeerHeaderLen)
    let routes ← parseBGPUpdateRoutes (payload.drop bmpPeerHeaderLen)
    .ok ⟨peer, routes⟩

end Probectl.Bgp
