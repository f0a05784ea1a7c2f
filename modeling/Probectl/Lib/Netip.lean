import Probectl.Lib.Padded

/-! Addresses and prefixes as texts: `netip.ParseAddr`, `netip.ParsePrefix`,
`Prefix.Contains` and `net.SplitHostPort`. -/
namespace Probectl.Netip

open Strings Text

inductive Addr where
  | v4 (value : Nat)
  | v6 (value : Nat) (zone : Bytes)
  deriving DecidableEq

structure Prefix where
  addr : Addr
  bits : Nat
  deriving DecidableEq

def number (base : Nat) (digits : List Nat) : Nat := digits.foldl (fun acc d => acc * base + d) 0

/-- One octet: no sign, no leading zero. -/
def octet (s : Bytes) : Option Nat :=
  if s ≠ [] ∧ s.all isDigit ∧ (s.length = 1 ∨ s.head? ≠ some 48) ∧ digitsValue s ≤ 255 then
    some (digitsValue s)
  else none

def parseIPv4 (s : Bytes) : Option Nat :=
  match s.splitOn 46 with
  | [a, b, c, d] => do
    let a ← octet a
    let b ← octet b
    let c ← octet c
    let d ← octet d
    some (number 256 [a, b, c, d])
  | _ => none

def hexValue (b : UInt8) : Option Nat :=
  if within 48 57 b then some (b.toNat - 48)
  else if within 97 102 b then some (b.toNat - 87)
  else if within 65 70 b then some (b.toNat - 55)
  else none

/-- The 16-bit groups of an IPv6 address, up to `fuel` more of them, with the place of the
ellipsis and what is left of the text. -/
def groups : (fuel : Nat) → Bytes → List Nat → Option Nat → Option (List Nat × Option Nat × Bytes)
  | 0, s, read, ellipsis => some (read, ellipsis, s)
  | fuel + 1, s, read, ellipsis =>
    let digits := (s.takeWhile fun b => (hexValue b).isSome).filterMap hexValue
    if digits = [] ∨ 4 < digits.length then none
    else
      let next := read ++ [number 16 digits]
      match s.drop digits.length with
      | [] => some (next, ellipsis, [])
      | c :: more =>
        if c = 46 then
          -- an IPv4 address in the place of the last two groups
          if ellipsis = none ∧ read.length ≠ 6 ∨ 8 < read.length + 2 then none
          else (parseIPv4 s).map fun v => (read ++ [v / 65536, v % 65536], ellipsis, [])
        else if c ≠ 58 then none
        else
          match more with
          | [] => none
          | d :: rest =>
            if d = 58 then
              if ellipsis ≠ none then none
              else if rest = [] then some (next, some next.length, [])
              else groups fuel rest next (some next.length)
            else groups fuel (d :: rest) next ellipsis

/-- The eight groups; an ellipsis stands for at least one. -/
def expand (read : List Nat) : Option Nat → Option (List Nat)
  | none => if read.length = 8 then some read else none
  | some at_ =>
    if read.length < 8 then some (read.take at_ ++ List.replicate (8 - read.length) 0 ++ read.drop at_) else none

def parseIPv6 (s : Bytes) : Option Addr :=
  let (text, zone) := match cut 37 s with
    | some (text, zone) => (text, some zone)
    | none => (s, none)
  if zone = some [] then none
  else
    let zone := zone.getD []
    let read := match text with
      | 58 :: 58 :: rest => if rest = [] then some ([], some 0, []) else groups 8 rest [] (some 0)
      | _ => groups 8 text [] none
    match read with
    | some (read, ellipsis, []) => (expand read ellipsis).map fun all => .v6 (number 65536 all) zone
    | _ => none

/-- `ParseAddr`; the first of the three characters decides. -/
def parseAddr (s : Bytes) : Option Addr :=
  match s.find? fun b => b = 46 ∨ b = 58 ∨ b = 37 with
  | some 46 => (parseIPv4 s).map .v4
  | some 58 => parseIPv6 s
  | _ => none

def Addr.zone : Addr → Bytes
  | .v4 _ => []
  | .v6 _ zone => zone

def Addr.bitLen : Addr → Nat
  | .v4 _ => 32
  | .v6 _ _ => 128

/-- Cut around the last separator. -/
def cutLast (sep : UInt8) (s : Bytes) : Option (Bytes × Bytes) :=
  (cut sep s.reverse).map fun (behind, before) => (before.reverse, behind.reverse)

def parsePrefix (s : Bytes) : Option Prefix := do
  let (text, bits) ← cutLast 47 s
  let addr ← parseAddr text
  if addr.zone ≠ [] then none
  else if bits = [] ∨ !bits.all isDigit ∨ (1 < bits.length ∧ bits.head? = some 48) then none
  else if addr.bitLen < digitsValue bits then none
  else some ⟨addr, digitsValue bits⟩

def Prefix.contains (p : Prefix) (a : Addr) : Bool :=
  match p.addr, a with
  | .v4 m, .v4 n => m / 2 ^ (32 - p.bits) = n / 2 ^ (32 - p.bits)
  | .v6 m _, .v6 n zone => zone = [] && m / 2 ^ (128 - p.bits) = n / 2 ^ (128 - p.bits)
  | _, _ => false

/-- The host of `net.SplitHostPort`. -/
def splitHost (s : Bytes) : Option Bytes := do
  let (front, _) ← cutLast 58 s
  if s.head? = some 91 then
    let (before, _) ← cut 93 s
    if before.length + 1 ≠ front.length ∨ 91 ∈ s.drop 1 ∨ 93 ∈ s.drop (before.length + 1) then none
    else some (before.drop 1)
  else if 58 ∈ front ∨ 91 ∈ s ∨ 93 ∈ s then none
  else some front

variable {p : Prefix}

theorem contains_self (plain : p.addr.zone = []) : p.contains p.addr = true := by
  unfold Prefix.contains
  cases addr : p.addr with
  | v4 n => simp
  | v6 n zone =>
    rw [addr] at plain
    simp only [decide_true, Bool.and_true]
    exact decide_eq_true plain

theorem parsePrefix_plain (parsed : parsePrefix s = some p) : p.addr.zone = [] := by
  unfold parsePrefix at parsed
  simp only [Option.bind_eq_bind, Option.bind_eq_some_iff] at parsed
  obtain ⟨⟨text, bits⟩, -, addr, -, rest⟩ := parsed
  split at rest
  · cases rest
  rename_i plain
  split at rest
  · cases rest
  split at rest
  · cases rest
  · cases rest
    exact not_not.mp plain

example : parsePrefix (lit "10.0.0.128/25") = some ⟨.v4 167772288, 25⟩ := by decide +kernel

example : parseAddr (lit "fe80::1.2.3.4%eth0") = some (.v6 338288524927261089654018896841364603652 (lit "eth0")) := by
  decide +kernel

end Probectl.Netip
