import Probectl.Bgp.Capabilities
import Probectl.Bgp.Paths

/-! Route changes of one message: `route_prefixes.go`, `multiprotocol_routes.go`,
`route_source_changes.go` and `bmp_routing_family.go`. -/
namespace Probectl.Bgp

open Octets List

structure RoutePrefix where
  addr : Addr
  bits : Nat
  pathID : Nat
  hasPathID : Bool
  deriving DecidableEq

/-- The bits behind the first `bits` cleared. -/
def maskBytes : Nat → Bytes → Bytes
  | _, [] => []
  | bits, b :: rest => UInt8.ofNat (b.toNat / 2 ^ (8 - bits) * 2 ^ (8 - bits)) :: maskBytes (bits - 8) rest

def maskedAddress (afi bits : Nat) (octets : Bytes) : Addr :=
  if afi = 1 then .v4 (maskBytes bits (octets ++ replicate (4 - octets.length) 0))
  else .v6 (maskBytes bits (octets ++ replicate (16 - octets.length) 0))

def pathIDOctets (addPath : Bool) : Nat := if addPath then 4 else 0

def maximumBits (afi : Nat) : Nat := if afi = 1 then 32 else 128

/-- The walk over a list of prefixes; the source makes it twice, once to count. -/
def routePrefixesLoop (afi : Nat) (addPath : Bool) : Loop (List RoutePrefix × Bytes) (Except Fault (List RoutePrefix)) where
  body := fun (out, raw) =>
    if raw = [] then .inr (.ok out)
    else if raw.length < pathIDOctets addPath then .inr (.error [.routePrefix])
    else
      match raw.drop (pathIDOctets addPath) with
      | [] => .inr (.error [.routePrefix])
      | bits :: rest =>
        let octets := (bits.toNat + 7) / 8
        if bits.toNat > maximumBits afi then .inr (.error [.routePrefix])
        else if octets > rest.length then .inr (.error [.routePrefix])
        else
          .inl (out ++ [⟨maskedAddress afi bits.toNat (rest.take octets), bits.toNat,
            big (raw.take (pathIDOctets addPath)), addPath⟩], rest.drop octets)
  size := fun (_, raw) => raw.length
  shrinks := by
    rintro ⟨out, raw⟩ t next
    dsimp only at next
    split at next
    · cases next
    split at next
    · cases next
    split at next
    · cases next
    rename_i bits rest behind
    have shorter := congrArg length behind
    simp only [length_drop, length_cons] at shorter
    split at next
    · cases next
    split at next
    · cases next
    · cases next
      simp only [length_drop]
      omega

def parseBGPRoutePrefixes (raw : Bytes) (afi : Nat) (addPath : Bool) (budget : Budget) : Except Fault (List RoutePrefix) :=
  if afi ≠ 1 ∧ afi ≠ 2 then .error [.routePrefix]
  else if budget.memoryBytes ≤ 0 ∨ budget.workUnits ≤ 0 ∨ raw.length > budget.workUnits / 2 then .error [.routePrefixBudget]
  else
    match (routePrefixesLoop afi addPath).run ([], raw) with
    | .error e => .error e
    | .ok routes => if routes.length > budget.memoryBytes / 64 then .error [.routePrefixBudget] else .ok routes

/-! Multiprotocol attributes. -/

structure MultiprotocolReach where
  family : RouteFamily
  nextHopAFI : Nat
  nextHops : List Addr
  prefixes : List RoutePrefix

structure MultiprotocolWithdraw where
  family : RouteFamily
  prefixes : List RoutePrefix

/-- An IPv4 address in IPv6 form counts as the IPv4 address it is. -/
def isLinkLocalUnicast (address : Bytes) : Bool :=
  if address.take 12 = replicate 10 0 ++ [255, 255] then address.getD 12 0 = 169 ∧ address.getD 13 0 = 254
  else address.getD 0 0 = 0xfe ∧ address.getD 1 0 &&& 0xc0 = 0x80

def reachNextHops (value : Bytes) (nextHopAFI length : Nat) : Except Fault (List Addr) :=
  if nextHopAFI = 1 then
    if length ≠ 4 then .error [.mpRouteAttributes] else .ok [.v4 (slice value 4 8)]
  else if nextHopAFI = 2 then
    if length ≠ 16 ∧ length ≠ 32 then .error [.mpRouteAttributes]
    else if length = 32 then
      if ¬ isLinkLocalUnicast (slice value 20 36) then .error [.mpRouteAttributes]
      else .ok [.v6 (slice value 4 20), .v6 (slice value 20 36)]
    else .ok [.v6 (slice value 4 20)]
  else .error [.mpRouteAttributes]

/-- An error of the prefixes, joined with the one of the attribute. -/
def multiprotocolFault (e : Fault) : Fault :=
  if .routePrefixBudget ∈ e then .mpRouteBudget :: e else .mpRouteAttributes :: e

def parseMPReachRoutes (value : Bytes) (nextHopAFI : Nat) (addPath : Bool) (budget : Budget) :
    Except Fault MultiprotocolReach := do
  if budget.memoryBytes ≤ 128 ∨ budget.workUnits ≤ value.length then .error [.mpRouteBudget]
  else if value.length < 5 then .error [.mpRouteAttributes]
  else
    let family : RouteFamily := ⟨big (value.take 2), value.getD 2 0⟩
    let length := (value.getD 3 0).toNat
    if family.safi ≠ 1 ∨ family.afi ≠ 1 ∧ family.afi ≠ 2 ∨ family.afi = 2 ∧ nextHopAFI ≠ 2 then .error [.mpRouteAttributes]
    else if length > value.length - 5 then .error [.mpRouteAttributes]
    else
      let hops ← reachNextHops value nextHopAFI length
      let prefixes ← (parseBGPRoutePrefixes (value.drop (5 + length)) family.afi addPath
        ⟨budget.memoryBytes - 128, budget.workUnits - value.length⟩).mapError multiprotocolFault
      .ok ⟨family, nextHopAFI, hops, prefixes⟩

def parseMPUnreachRoutes (value : Bytes) (addPath : Bool) (budget : Budget) : Except Fault MultiprotocolWithdraw := do
  if budget.memoryBytes ≤ 64 ∨ budget.workUnits ≤ value.length then .error [.mpRouteBudget]
  else if value.length < 3 then .error [.mpRouteAttributes]
  else
    let family : RouteFamily := ⟨big (value.take 2), value.getD 2 0⟩
    if family.safi ≠ 1 ∨ family.afi ≠ 1 ∧ family.afi ≠ 2 then .error [.mpRouteAttributes]
    else
      let prefixes ← (parseBGPRoutePrefixes (value.drop 3) family.afi addPath
        ⟨budget.memoryBytes - 64, budget.workUnits - value.length⟩).mapError multiprotocolFault
      .ok ⟨family, prefixes⟩

/-! The changes of a message. -/

structure RoutingChangeGroup where
  family : RouteFamily
  announced : List RoutePrefix
  withdrawn : List RoutePrefix
  nextHops : List Addr
  endOfRIB : Bool
  deriving DecidableEq

structure RoutingChanges where
  header : BMPRouteViewHeader
  attributes : List RouteAttribute
  /-- Only where something is announced. -/
  path : Option RouteASPath
  groups : List RoutingChangeGroup
  deriving DecidableEq

def sourceAttributeValid (attr : RouteAttribute) : Bool :=
  let flags := attr.flags &&& 0xe0
  if attr.type = 1 then flags = 0x40 ∧ attr.value.length = 1 ∧ attr.value.getD 0 0 ≤ 2
  else if attr.type = 2 then flags = 0x40
  else if attr.type = 3 ∨ attr.type = 5 then flags = 0x40 ∧ attr.value.length = 4
  else if attr.type = 6 then flags = 0x40 ∧ attr.value.length = 0
  else if attr.type = 4 then flags = 0x80 ∧ attr.value.length = 4
  else if attr.type = 14 ∨ attr.type = 15 then flags = 0x80
  else if attr.type = 7 ∨ attr.type = 17 ∨ attr.type = 18 then true
  else attr.flags &&& 0x80 ≠ 0

def validateSourceRouteAttributes (attributes : List RouteAttribute) : Except Fault Unit :=
  if attributes.all sourceAttributeValid ∧ ((attributes.map (·.type)).filter (· ∈ [1, 2, 3, 4, 5, 6, 14, 15])).Nodup then .ok ()
  else .error [.routeChanges]

def sourceHasOrigin (attributes : List RouteAttribute) : Bool := attributes.any (·.type = 1)

def sourceLegacyRouteChanges (frame : SourceRouteFrame) (peer : PeerUp) (budget : Budget) :
    Except Fault RoutingChangeGroup := do
  let family : RouteFamily := ⟨1, 1⟩
  if frame.update.withdrawnIPv4.length + frame.update.reachableIPv4.length = 0 then .ok ⟨family, [], [], [], false⟩
  else
    let add ← parseBMPRouteAddPath peer frame.header.view family
    let part : Budget := ⟨budget.memoryBytes / 2, budget.workUnits / 2⟩
    let withdrawn ← parseBGPRoutePrefixes frame.update.withdrawnIPv4 1 add part
    let announced ← parseBGPRoutePrefixes frame.update.reachableIPv4 1 add part
    if announced = [] then .ok ⟨family, announced, withdrawn, [], false⟩
    else
      match (frame.update.attributes.filter (·.type = 3)).getLast? with
      | none => .error [.routeChanges]
      | some attr => .ok ⟨family, announced, withdrawn, [.v4 attr.value], false⟩

def sourceMultiprotocolChanges (attr : RouteAttribute) (view : BMPRouteView) (peer : PeerUp) (budget : Budget) :
    Except Fault RoutingChangeGroup := do
  if attr.value.length < 3 then .error [.routeChanges]
  else
    let add ← parseBMPRouteAddPath peer view attr.family
    if attr.type = 15 then
      let unreach ← parseMPUnreachRoutes attr.value add budget
      if unreach.prefixes = [] then .error [.routeChanges] else .ok ⟨attr.family, [], unreach.prefixes, [], false⟩
    else if attr.value.length < 4 then .error [.routeChanges]
    else
      let nextAFI ← parseBMPRouteNextHopAFI peer view attr.family (attr.value.getD 3 0).toNat
      let reach ← parseMPReachRoutes attr.value nextAFI add budget
      if reach.prefixes = [] then .error [.routeChanges] else .ok ⟨attr.family, reach.prefixes, [], reach.nextHops, false⟩

def sourceUpdateChanges (frame : SourceRouteFrame) (peer : PeerUp) (part : Budget) : Except Fault RoutingChanges := do
  validateSourceRouteAttributes frame.update.attributes
  let legacy ← sourceLegacyRouteChanges frame peer part
  let multiprotocol ← (frame.update.attributes.filter (fun attr => attr.type = 14 ∨ attr.type = 15)).mapM
    (sourceMultiprotocolChanges · frame.header.view peer part)
  let groups := (if legacy.announced.length + legacy.withdrawn.length > 0 then [legacy] else []) ++ multiprotocol
  if groups.any (fun group => group.announced.length > 0) then
    if ¬ sourceHasOrigin frame.update.attributes then .error [.routeChanges]
    else
      let path ← reconstructRouteASPath frame.update.attributes frame.header.asnWidth part
      .ok ⟨frame.header, frame.update.attributes, some path, groups⟩
  else if groups = [] then .error [.routeChanges]
  else .ok ⟨frame.header, frame.update.attributes, none, groups⟩

def decodeRoutingChanges (raw : Bytes) (peer : PeerUp) (budget : Budget) : Except Fault RoutingChanges := do
  let weight : Int := raw.length + peer.sentOpen.length + peer.receivedOpen.length
  if budget.memoryBytes ≤ 8192 ∨ budget.workUnits ≤ 8192 ∨ weight > (budget.memoryBytes - 8192) / 512 ∨
      weight > (budget.workUnits - 8192) / 64 then
    .error [.updateFrameBudget]
  else
    let part : Budget := ⟨budget.memoryBytes / 4, budget.workUnits / 4⟩
    let frame ← parseBMPSourceRoute raw peer part
    match frame.update.endOfRIB with
    | some family =>
      let _ ← parseBMPRouteAddPath peer frame.header.view family
      .ok ⟨frame.header, frame.update.attributes, none, [⟨family, [], [], [], true⟩]⟩
    | none => sourceUpdateChanges frame peer part

/-! The families of a message, read off its attributes. -/

def routingAFIBit (family : Nat) (safi : UInt8) : Except Fault UInt8 :=
  if family < 1 ∨ family > 2 ∨ safi ≠ 1 then .error [.routeCapabilities] else .ok (UInt8.ofNat (2 ^ (family - 1)))

def maskAttribute (mask : UInt8) (attr : RouteAttribute) : Except Fault UInt8 := do
  if attr.type ≠ 14 ∧ attr.type ≠ 15 then .ok mask
  else if attr.value.length < 3 then .error [.updateFrame]
  else
    let bit ← routingAFIBit attr.family.afi attr.family.safi
    .ok (mask ||| bit)

/-- Legacy routes, the end of a family, then the attributes in their order. -/
def frameFamilyMask (frame : UpdateFrame) : Except Fault UInt8 := do
  let mask : UInt8 := if frame.withdrawnIPv4.length > 0 ∨ frame.reachableIPv4.length > 0 then 1 else 0
  match frame.endOfRIB with
  | none => frame.attributes.foldlM maskAttribute mask
  | some family =>
    let bit ← routingAFIBit family.afi family.safi
    frame.attributes.foldlM maskAttribute (mask ||| bit)

def parseRoutingMessageFamilyMask (raw : Bytes) (budget : Budget) : Except Fault UInt8 := do
  if budget.memoryBytes ≤ 0 ∨ budget.workUnits ≤ 0 ∨ raw.length > budget.memoryBytes / 128 ∨
      raw.length > budget.workUnits / 8 then
    .error [.updateFrameBudget]
  else if raw.length < bmpRouteOffset ∨ raw.getD 0 0 ≠ bmpVersion ∨ raw.getD 5 0 ≠ bmpRouteMonitoring ∨
      big (slice raw 1 5) ≠ raw.length then
    .error [.updateFrame]
  else
    let _ ← parseBMPRouteViewHeader (slice raw bmpCommonHeaderLen bmpRouteOffset)
    let frame ← parseBGPUpdateFrame (raw.drop bmpRouteOffset) budget
    frameFamilyMask frame

end Probectl.Bgp
