import Probectl.Bgp.Update

/-! Peer headers and what the two OPENs of a peer session negotiate:
`bmp_route_view.go`, `routing_source_profile.go`, `route_add_path.go`,
`route_next_hop.go`, `route_extended.go` and `route_source_message.go`. -/
namespace Probectl.Bgp

open Octets List

inductive Addr where
  | invalid
  | v4 (bytes : Bytes)
  | v6 (bytes : Bytes)
  deriving DecidableEq

def bmpVersion : UInt8 := 3
def bmpCommonHeaderLen : Nat := 6
def bmpPeerHeaderLen : Nat := 42
def bmpRouteMonitoring : UInt8 := 0

inductive BMPRouteView where
  | adjRIBInPrePolicy | adjRIBInPostPolicy | adjRIBOutPrePolicy | adjRIBOutPostPolicy | locRIB
  deriving DecidableEq

structure BMPRouteViewHeader where
  peerType : UInt8
  flags : UInt8
  distinguisher : Bytes
  peerAddress : Addr
  peerASN : Nat
  bgpIdentifier : Addr
  view : BMPRouteView
  asnWidth : Nat
  filtered : Bool
  /-- Seconds and microseconds, when the wire time is known. -/
  timestamp : Option (Nat × Nat)
  deriving DecidableEq

def adjacentView (flags : UInt8) : BMPRouteView :=
  if flags &&& 0x40 = 0 then
    if flags &&& 0x10 = 0 then .adjRIBInPrePolicy else .adjRIBOutPrePolicy
  else if flags &&& 0x10 = 0 then .adjRIBInPostPolicy
  else .adjRIBOutPostPolicy

def parseBMPRouteViewHeader (raw : Bytes) : Except Fault BMPRouteViewHeader :=
  if raw.length ≠ bmpPeerHeaderLen ∨ raw.getD 0 0 > 3 then .error [.routeViewHeader]
  else
    let seconds := big (slice raw 34 38)
    let micros := big (slice raw 38 42)
    if micros ≥ 1000000 then .error [.routeViewHeader]
    else
      let out : BMPRouteViewHeader :=
        { peerType := raw.getD 0 0
          flags := raw.getD 1 0
          distinguisher := slice raw 2 10
          peerAddress := .invalid
          peerASN := big (slice raw 26 30)
          bgpIdentifier := .v4 (slice raw 30 34)
          view := .locRIB
          asnWidth := 4
          filtered := false
          timestamp := if seconds ≠ 0 ∨ micros ≠ 0 then some (seconds, micros) else none }
      if out.peerType = 3 then
        if (slice raw 10 26).any (· != 0) then .error [.routeViewHeader]
        else .ok { out with filtered := decide (out.flags &&& 0x80 ≠ 0) }
      else if out.peerType = 0 ∧ out.distinguisher.any (· != 0) then .error [.routeViewHeader]
      else
        let width := if out.flags &&& 0x20 ≠ 0 then 2 else 4
        if out.flags &&& 0x80 ≠ 0 then
          .ok { out with peerAddress := .v6 (slice raw 10 26), asnWidth := width, view := adjacentView out.flags }
        else if (slice raw 10 22).any (· != 0) then .error [.routeViewHeader]
        else .ok { out with peerAddress := .v4 (slice raw 22 26), asnWidth := width, view := adjacentView out.flags }

/-! Operator configuration of a source's serializer. -/

inductive SourceFormat where
  | unset
  | frrLocRIBV1
  | other (name : String)
  deriving DecidableEq

structure RoutingSourceProfile where
  format : SourceFormat
  families : List RouteFamily
  deriving DecidableEq

def routingSourceProfile (profile : RoutingSourceProfile) : Except Fault RoutingSourceProfile :=
  if profile.format = .unset ∧ profile.families = [] then .ok ⟨.unset, []⟩
  else if profile.format ≠ .frrLocRIBV1 ∨ profile.families = [] ∨ profile.families.length > 2 then
    .error [.routeCapabilities]
  else if profile.families.all (fun f => f.safi = 1 ∧ 1 ≤ f.afi ∧ f.afi ≤ 2) ∧ (profile.families.map (·.afi)).Nodup then
    .ok ⟨profile.format, ([1, 2].filter (· ∈ profile.families.map (·.afi))).map (⟨·, 1⟩)⟩
  else .error [.routeCapabilities]

/-! Capabilities of one OPEN. -/

structure NextHopCapability where
  nlri : RouteFamily
  nextHopAFI : Nat
  deriving DecidableEq

structure RouteOpenCapabilities where
  families : List RouteFamily
  mpFamilies : List RouteFamily
  nextHops : List NextHopCapability
  addPath : List (RouteFamily × UInt8)
  extended : Bool
  fourAS : Bool
  asn : Nat
  deriving DecidableEq

def RouteOpenCapabilities.addPathMode (c : RouteOpenCapabilities) (family : RouteFamily) : UInt8 :=
  (c.addPath.lookup family).getD 0

def RoutingSourceProfile.applyFRRFamilies (profile : RoutingSourceProfile) (c : RouteOpenCapabilities) :
    RouteOpenCapabilities :=
  { c with families := profile.families, mpFamilies := profile.families.filter (·.afi = 2), nextHops := [] }

def nextHopTuples : Bytes → List NextHopCapability
  | a :: b :: c :: d :: e :: f :: rest =>
    if big [c, d] ≤ 255 then ⟨⟨big [a, b], d⟩, big [e, f]⟩ :: nextHopTuples rest else nextHopTuples rest
  | _ => []

def addPathTuples (c : RouteOpenCapabilities) : Bytes → Except Fault RouteOpenCapabilities
  | a :: b :: safi :: mode :: rest =>
    let family := ⟨big [a, b], safi⟩
    if mode < 1 ∨ mode > 3 ∨ c.addPathMode family ≠ 0 ∧ c.addPathMode family ≠ mode then .error [.routeCapabilities]
    else addPathTuples { c with addPath := (family, mode) :: c.addPath } rest
  | _ => .ok c

def capability (format : SourceFormat) (c : RouteOpenCapabilities) (seenAddPath : Bool) (kind : UInt8) (value : Bytes) :
    Except Fault (RouteOpenCapabilities × Bool) :=
  if kind = 1 then
    if value.length ≠ 4 then .error [.routeCapabilities]
    else
      let family := ⟨big (value.take 2), value.getD 3 0⟩
      .ok ({ c with families := family :: c.families, mpFamilies := family :: c.mpFamilies }, seenAddPath)
  else if kind = 5 then
    if value.length = 0 ∨ value.length % 6 ≠ 0 then .error [.routeCapabilities]
    else .ok ({ c with nextHops := nextHopTuples value ++ c.nextHops }, seenAddPath)
  else if kind = 6 then
    if value.length ≠ 0 then .error [.routeCapabilities] else .ok ({ c with extended := true }, seenAddPath)
  else if kind = 65 then
    if value.length ≠ 4 ∨ c.fourAS ∧ c.asn ≠ big value then .error [.routeCapabilities]
    else .ok ({ c with fourAS := true, asn := big value }, seenAddPath)
  else if kind = 69 then
    -- the FRR serializer announces an empty ADD-PATH capability
    if format = .frrLocRIBV1 then
      if seenAddPath ∨ value.length ≠ 0 then .error [.routeCapabilities] else .ok (c, true)
    else if seenAddPath ∨ value.length = 0 ∨ value.length % 4 ≠ 0 then .error [.routeCapabilities]
    else (addPathTuples c value).map (·, true)
  else .ok (c, seenAddPath)

def capabilitiesLoop (format : SourceFormat) :
    Loop (RouteOpenCapabilities × Bool × Bytes) (Except Fault (RouteOpenCapabilities × Bool)) where
  body := fun (c, seen, raw) =>
    match raw with
    | [] => .inr (.ok (c, seen))
    | kind :: length :: rest =>
      if length.toNat > rest.length then .inr (.error [.routeCapabilities])
      else
        match capability format c seen kind (rest.take length.toNat) with
        | .error e => .inr (.error e)
        | .ok (c, seen) => .inl (c, seen, rest.drop length.toNat)
    | _ => .inr (.error [.routeCapabilities])
  size := fun (_, _, raw) => raw.length
  shrinks := by
    rintro ⟨c, seen, raw⟩ t next
    dsimp only at next
    split at next
    · cases next
    · split at next
      · cases next
      split at next
      · cases next
      · cases next
        simp only [length_cons, length_drop]
        omega
    · cases next

def parameterHeader (wide : Bool) : Nat := if wide then 3 else 2

def parameterLength (wide : Bool) (raw : Bytes) : Nat := if wide then big (slice raw 1 3) else (raw.getD 1 0).toNat

def parametersLoop (wide : Bool) (format : SourceFormat) :
    Loop (RouteOpenCapabilities × Bool × Bytes) (Except Fault RouteOpenCapabilities) where
  body := fun (c, seen, raw) =>
    if raw = [] then .inr (.ok c)
    else if raw.length < parameterHeader wide then .inr (.error [.routeCapabilities])
    else
      let length := parameterLength wide raw
      let rest := raw.drop (parameterHeader wide)
      if length > rest.length then .inr (.error [.routeCapabilities])
      else if raw.getD 0 0 ≠ 2 then .inl (c, seen, rest.drop length)
      else
        match (capabilitiesLoop format).run (c, seen, rest.take length) with
        | .error e => .inr (.error e)
        | .ok (c, seen) => .inl (c, seen, rest.drop length)
  size := fun (_, _, raw) => raw.length
  shrinks := by
    rintro ⟨c, seen, raw⟩ t next
    have header : 0 < parameterHeader wide := by cases wide <;> decide
    dsimp only at next
    split at next
    · cases next
    rename_i more
    have left : 0 < raw.length := length_pos_iff.mpr more
    split at next
    · cases next
    split at next
    · cases next
    split at next
    · cases next
      simp only [length_drop]
      omega
    split at next
    · cases next
    · cases next
      simp only [length_drop]
      omega

def parseRouteOpenCapabilities (raw : Bytes) (profile : RoutingSourceProfile) : Except Fault RouteOpenCapabilities := do
  let profile ← routingSourceProfile profile
  if raw.length < 29 ∨ raw.length > 4096 ∨ raw.getD 18 0 ≠ 1 ∨ raw.getD 19 0 ≠ 4 ∨ big (slice raw 16 18) ≠ raw.length then
    .error [.routeCapabilities]
  else if (raw.take 16).any (· != 255) then .error [.routeCapabilities]
  else
    let wide := decide (raw.getD 28 0 ≠ 0 ∧ raw.length > 29 ∧ raw.getD 29 0 = 255)
    if wide ∧ raw.length < 32 then .error [.routeCapabilities]
    else
      let offset := if wide then 32 else 29
      let optionalLength := if wide then big (slice raw 30 32) else (raw.getD 28 0).toNat
      if optionalLength ≠ raw.length - offset then .error [.routeCapabilities]
      else
        let out ← (parametersLoop wide profile.format).run (⟨[⟨1, 1⟩], [], [], [], false, false, 0⟩, false, raw.drop offset)
        if profile.format = .frrLocRIBV1 then .ok (profile.applyFRRFamilies out) else .ok out

/-! The session. -/

structure PeerUp where
  sourceProfile : RoutingSourceProfile
  header : BMPRouteViewHeader
  sentOpen : Bytes
  receivedOpen : Bytes
  deriving DecidableEq

def parseBMPRouteAddPath (peer : PeerUp) (view : BMPRouteView) (family : RouteFamily) : Except Fault Bool := do
  match routingSourceProfile peer.sourceProfile with
  | .error _ => .error [.routeCapabilities]
  | .ok profile =>
    if profile.format ≠ .unset ∧ view ≠ .locRIB then .error [.routeCapabilities]
    else
      let sent ← parseRouteOpenCapabilities peer.sentOpen profile
      let received ← parseRouteOpenCapabilities peer.receivedOpen profile
      if family ∉ sent.families ∨ family ∉ received.families then .error [.routeCapabilities]
      else
        let sending := sent.addPathMode family
        let receiving := received.addPathMode family
        match view with
        | .adjRIBInPrePolicy | .adjRIBInPostPolicy => .ok (decide (receiving &&& 2 ≠ 0 ∧ sending &&& 1 ≠ 0))
        | .adjRIBOutPrePolicy | .adjRIBOutPostPolicy => .ok (decide (sending &&& 2 ≠ 0 ∧ receiving &&& 1 ≠ 0))
        | .locRIB =>
          if ¬ sent.fourAS ∨ peer.sentOpen ≠ peer.receivedOpen then .error [.routeCapabilities]
          else .ok (decide (sending ≠ 0))

def receiverCapabilities (peer : PeerUp) (view : BMPRouteView) (sent received : RouteOpenCapabilities) :
    Except Fault RouteOpenCapabilities :=
  match view with
  | .adjRIBInPrePolicy | .adjRIBInPostPolicy => .ok sent
  | .adjRIBOutPrePolicy | .adjRIBOutPostPolicy => .ok received
  | .locRIB =>
    if ¬ sent.fourAS ∨ peer.sentOpen ≠ peer.receivedOpen then .error [.routeCapabilities] else .ok sent

def parseBMPRouteNextHopAFI (peer : PeerUp) (view : BMPRouteView) (family : RouteFamily) (nextHopLength : Nat) :
    Except Fault Nat := do
  match routingSourceProfile peer.sourceProfile with
  | .error _ => .error [.routeCapabilities]
  | .ok profile =>
    if profile.format ≠ .unset ∧ view ≠ .locRIB then .error [.routeCapabilities]
    else
      let sent ← parseRouteOpenCapabilities peer.sentOpen profile
      let received ← parseRouteOpenCapabilities peer.receivedOpen profile
      if family.safi ≠ 1 ∨ family.afi ≠ 1 ∧ family.afi ≠ 2 ∨ family ∉ sent.mpFamilies ∨ family ∉ received.mpFamilies then
        .error [.routeCapabilities]
      else
        let receiver ← receiverCapabilities peer view sent received
        if nextHopLength = 4 then
          if family.afi = 1 then .ok 1 else .error [.routeCapabilities]
        else if nextHopLength = 16 ∨ nextHopLength = 32 then
          if family.afi = 2 ∨ ⟨family, 2⟩ ∈ receiver.nextHops then .ok 2 else .error [.routeCapabilities]
        else .error [.routeCapabilities]

def parseBMPRouteUpdateFrame (raw : Bytes) (source : PeerUp) (budget : Budget) : Except Fault UpdateFrame := do
  if source.sourceProfile.format ≠ .unset ∧ source.header.view ≠ .locRIB then .error [.routeCapabilities]
  else
    let openBytes : Int := source.sentOpen.length + source.receivedOpen.length
    if budget.memoryBytes ≤ 1024 ∨ budget.workUnits ≤ 0 ∨ openBytes > (budget.memoryBytes - 1024) / 128 ∨
        openBytes > budget.workUnits / 8 then
      .error [.updateFrameBudget]
    else
      let budget := ⟨budget.memoryBytes - (openBytes * 128 + 1024), budget.workUnits - openBytes * 8⟩
      let sent ← parseRouteOpenCapabilities source.sentOpen source.sourceProfile
      let received ← parseRouteOpenCapabilities source.receivedOpen source.sourceProfile
      let receiver ← receiverCapabilities source source.header.view sent received
      let maximum := if receiver.extended then 65535 else 4096
      if raw.length > maximum then .error [.updateFrame] else parseBGPUpdateFrame raw budget

structure SourceRouteFrame where
  header : BMPRouteViewHeader
  update : UpdateFrame
  deriving DecidableEq

def sameBMPRoutePeer (route peer : BMPRouteViewHeader) : Bool :=
  route.peerType = peer.peerType ∧ route.distinguisher = peer.distinguisher ∧ route.peerAddress = peer.peerAddress ∧
    route.peerASN = peer.peerASN ∧ route.bgpIdentifier = peer.bgpIdentifier ∧
    (route.peerType = 3 → route.filtered = peer.filtered)

def bmpRouteOffset : Nat := bmpCommonHeaderLen + bmpPeerHeaderLen

def parseBMPSourceRoute (raw : Bytes) (peer : PeerUp) (budget : Budget) : Except Fault SourceRouteFrame := do
  if budget.memoryBytes ≤ 512 ∨ budget.workUnits ≤ 384 ∨ raw.length > budget.memoryBytes / 128 ∨
      raw.length > budget.workUnits / 8 then
    .error [.updateFrameBudget]
  else if raw.length < bmpRouteOffset + bgpHeaderLen + 4 ∨ raw.getD 0 0 ≠ bmpVersion ∨ raw.getD 5 0 ≠ bmpRouteMonitoring ∨
      big (slice raw 1 5) ≠ raw.length then
    .error [.sourceRoute]
  else
    let route ← parseBMPRouteViewHeader (slice raw bmpCommonHeaderLen bmpRouteOffset)
    if ¬ sameBMPRoutePeer route peer.header then .error [.sourceRoute]
    else
      -- the view of this message, not the one of the Peer Up, says who receives
      let update ← parseBMPRouteUpdateFrame (raw.drop bmpRouteOffset) { peer with header := route }
        ⟨budget.memoryBytes - 512, budget.workUnits - 384⟩
      .ok ⟨route, update⟩

end Probectl.Bgp
