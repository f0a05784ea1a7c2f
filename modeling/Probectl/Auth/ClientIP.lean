import Probectl.Lib.Netip

/-! The address that the login limiters key on (`clientip.go`), up to its printing. -/
namespace Probectl.Auth

open Strings Netip List

/-- An IPv4 address in an IPv6 one loses its zone. -/
def unmap : Addr → Addr
  | .v4 n => .v4 n
  | .v6 n zone => if n / 2 ^ 32 = 0xFFFF then .v4 (n % 2 ^ 32) else .v6 n zone

def trim (s cutset : Bytes) : Bytes :=
  let inner := s.dropWhile (· ∈ cutset)
  (inner.reverse.dropWhile (· ∈ cutset)).reverse

def hostAddr (s : Bytes) : Option Addr := (parseAddr (trim ((splitHost s).getD s) (lit "[]"))).map unmap

/-- `none` is the zero address. -/
def peerAddr (remoteAddr : Bytes) : Option Addr := hostAddr remoteAddr

def parseForwarded (hop : Bytes) : Option Addr := hostAddr (trim hop (lit "\""))

def isTrusted (a : Option Addr) (trusted : List Prefix) : Bool :=
  match a with
  | none => false
  | some a => trusted.any fun p => p.contains a

/-- The hops of the header's lines, from left to right. -/
def hops (lines : List Bytes) : List Bytes :=
  lines.flatMap fun h => ((h.splitOn 44).map trimSpace).filter fun part => part ≠ []

/-- The walk, over the hops from right to left. -/
def nearest (trusted : List Prefix) : List Bytes → Option Addr
  | [] => none
  | hop :: rest =>
    match parseForwarded hop with
    | none => none
    | some addr => if isTrusted (some addr) trusted then nearest trusted rest else some addr

def clientIP (remoteAddr : Bytes) (forwardedFor : List Bytes) (realIP : Bytes) (trusted : List Prefix) : Option Addr :=
  let peer := peerAddr remoteAddr
  if trusted = [] ∨ isTrusted peer trusted = false then peer
  else
    match nearest trusted (hops forwardedFor).reverse with
    | some addr => some addr
    | none =>
      let realIP := trimSpace realIP
      if realIP ≠ [] ∧ parseForwarded realIP ≠ none ∧ isTrusted (parseForwarded realIP) trusted = false then
        parseForwarded realIP
      else peer

variable {trusted : List Prefix}

theorem nearest_passes {front : List Bytes}
    (proxies : ∀ h ∈ front, parseForwarded h ≠ none ∧ isTrusted (parseForwarded h) trusted = true) (rest : List Bytes) :
    nearest trusted (front ++ rest) = nearest trusted rest := by
  induction front with
  | nil => rfl
  | cons h front ih =>
    obtain ⟨⟨parses, inside⟩, later⟩ := forall_mem_cons.mp proxies
    obtain ⟨addr, parsed⟩ := Option.ne_none_iff_exists'.mp parses
    rw [parsed] at inside
    rw [cons_append, nearest, parsed]
    dsimp only
    rw [if_pos inside]
    exact ih later

/-- A separator in a line parts its hops as the end of a line does. -/
theorem hops_separated (lines : List Bytes) (left right : Bytes) (more : List Bytes) :
    hops (lines ++ (left ++ 44 :: right) :: more) = hops (lines ++ [left]) ++ hops (right :: more) := by
  have parts : (left ++ 44 :: right).splitOn 44 = left.splitOn 44 ++ right.splitOn 44 :=
    splitOnP_append_cons left right (beq_self_eq_true _)
  simp only [hops, flatMap_append, flatMap_cons, flatMap_nil, parts, map_append, filter_append, append_assoc, nil_append]

theorem clientIP_hop (peer : isTrusted (peerAddr remoteAddr) trusted = true) (list : hops lines = left ++ hop :: rest)
    (parsed : parseForwarded hop = some addr) (outside : isTrusted (some addr) trusted = false)
    (proxies : ∀ h ∈ rest, parseForwarded h ≠ none ∧ isTrusted (parseForwarded h) trusted = true) (realIP : Bytes) :
    clientIP remoteAddr lines realIP trusted = some addr := by
  have some : trusted ≠ [] := by
    rintro rfl
    unfold isTrusted at peer
    split at peer <;> cases peer
  have found : nearest trusted (hops lines).reverse = .some addr := by
    rw [list, reverse_append, reverse_cons, append_assoc, nearest_passes (by simpa using proxies), singleton_append,
      nearest, parsed]
    simp [outside]
  simp [clientIP, some, peer, found]

/-- Whatever stands to the left of the nearest untrusted hop, in its line or in lines before, and in the other
header changes nothing. -/
theorem client_not_chosen (remoteAddr : Bytes) (trusted : List Prefix) (lines more : List Bytes) (left right realIP : Bytes) :
    (isTrusted (peerAddr remoteAddr) trusted = false →
        clientIP remoteAddr lines realIP trusted = peerAddr remoteAddr) ∧
      (isTrusted (peerAddr remoteAddr) trusted = true → ∀ hop rest addr, hops (right :: more) = hop :: rest →
        parseForwarded hop = some addr → isTrusted (some addr) trusted = false →
        (∀ h ∈ rest, parseForwarded h ≠ none ∧ isTrusted (parseForwarded h) trusted = true) →
        clientIP remoteAddr (lines ++ right :: more) realIP trusted = some addr ∧
          clientIP remoteAddr (lines ++ (left ++ 44 :: right) :: more) realIP trusted = some addr) := by
  constructor
  · intro outside
    simp [clientIP, outside]
  intro peer hop rest addr list parsed outside proxies
  constructor
  · have split : hops (lines ++ right :: more) = hops lines ++ hop :: rest := by
      rw [← list, hops, flatMap_append]
      rfl
    exact clientIP_hop peer split parsed outside proxies realIP
  · have split := hops_separated lines left right more
    rw [list] at split
    exact clientIP_hop peer split parsed outside proxies realIP

end Probectl.Auth
