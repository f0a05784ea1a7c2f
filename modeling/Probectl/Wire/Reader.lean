import Probectl.Lib.Checked
import Probectl.Lib.Records

/-! The cursor that all decoders of untrusted bytes read with (`wire.go`): the first read
past the end fails the cursor, and a failed cursor reads zeros. -/
namespace Probectl.Wire

open Octets Checked List Nat

inductive WireFault where
  | negative (n : Int)
  | exceeds (n : Int) (off length : Nat)
  | unavailable (n : Int)
  deriving DecidableEq

def WireFault.text : WireFault → String
  | .negative n => "wire: truncated input: negative read length " ++ toString n
  | .exceeds n off length =>
    "wire: truncated input: read of " ++ toString n ++ " bytes at offset " ++ toString off ++ " exceeds " ++ toString length ++
      "-byte input"
  | .unavailable n => "wire: truncated input: sub-reader of " ++ toString n ++ " bytes is not available"

structure Cursor where
  b : Bytes
  off : Nat
  err : Option WireFault
  deriving DecidableEq

namespace Cursor

def new (b : Bytes) : Cursor := ⟨b, 0, none⟩

def remaining (c : Cursor) : Nat := if c.err.isSome then 0 else c.b.length - c.off

def failf (c : Cursor) (fault : WireFault) : Cursor := { c with err := c.err.or (some fault) }

def advance (c : Cursor) (n : Nat) : Cursor := { c with off := c.off + n }

end Cursor

abbrev Parsing := StateT Cursor Checked

variable {c : Cursor} {c' : Cursor}

namespace Parsing

theorem step {x : Parsing α} (ran : x c = .ok (a, c')) :
    (x >>= f) c = f a c' := by
  change (x c >>= fun (a, c) => f a c) = _
  rw [ran]
  rfl

end Parsing

/-- `none` is the nil slice of a read that failed. -/
def take (n : Int) : Parsing (Option Bytes) := fun c =>
  if c.err.isSome then .ok (none, c)
  else if n < 0 then .ok (none, c.failf (.negative n))
  else if c.off + n > c.b.length then .ok (none, c.failf (.exceeds n c.off c.b.length))
  else (cut c.b c.off (c.off + n.toNat)).map fun v => (some v, c.advance n.toNat)

def unsigned (width : Nat) : Parsing Nat := fun c =>
  take width c >>= fun
    | (none, c) => .ok (0, c)
    | (some v, c) => (uint width v).map fun n => (n, c)

def u8 : Parsing Nat := unsigned 1
def u16 : Parsing Nat := unsigned 2
def u32 : Parsing Nat := unsigned 4

def bytes (n : Int) : Parsing (Option Bytes) := take n

def array4 : Parsing Bytes := fun c =>
  take 4 c >>= fun
    | (none, c) => .ok ([0, 0, 0, 0], c)
    | (some v, c) => (cut v 0 4).map fun a => (a, c)

def bytesAligned (n align : Int) : Parsing (Option Bytes) := fun c =>
  take n c >>= fun
    | (none, c) => .ok (none, c)
    | (some v, c) =>
      if align ≤ 1 then .ok (some v, c)
      else
        let pad := ((align - n % align) % align).toNat
        if pad > 0 ∧ c.off + pad ≤ c.b.length then .ok (some v, c.advance pad) else .ok (some v, c)

def skip (n : Int) : Parsing Unit := fun c => (take n c).map fun (_, c) => ((), c)

def sub (n : Int) : Parsing Cursor := fun c =>
  (take n c).map fun
    | (none, c) => (Cursor.failf (.new []) (.unavailable n), c)
    | (some v, c) => (.new v, c)

def failed : Parsing Bool := fun c => .ok (c.err.isSome, c)

def remaining : Parsing Nat := fun c => .ok (c.remaining, c)

def err : Parsing (Option WireFault) := fun c => .ok (c.err, c)

/-! Reads that fit. -/

/-- A cursor that has not failed, before the octets `raw`. -/
structure Ready (c : Cursor) (raw : Bytes) : Prop where
  err : c.err = none
  bound : c.off ≤ c.b.length
  rest : c.b.drop c.off = raw

theorem ready_new (b : Bytes) : Ready (.new b) b := ⟨rfl, zero_le _, rfl⟩

variable {width : Nat}

namespace Ready

variable {c : Cursor} {raw : Bytes}

theorem remaining (ready : Ready c raw) : c.remaining = raw.length := by
  rw [Cursor.remaining, ready.err, ← ready.rest, length_drop]
  rfl

theorem left (ready : Ready c raw) : Wire.remaining c = .ok (raw.length, c) := by
  rw [Wire.remaining, ready.remaining]

theorem failed (ready : Ready c raw) : Wire.failed c = .ok (false, c) := by
  rw [Wire.failed, ready.err]
  rfl

theorem room (ready : Ready c raw) : c.off + raw.length = c.b.length := by
  have bound := ready.bound
  rw [← ready.rest, length_drop]
  omega

variable {n : Nat}

section
variable (ready : Ready c raw)
include ready

theorem advance (fits : n ≤ raw.length) : Ready (c.advance n) (raw.drop n) := by
  have room := ready.room
  refine ⟨ready.err, ?_, ?_⟩
  · change c.off + n ≤ c.b.length
    omega
  · rw [← ready.rest, drop_drop]
    rfl

theorem take (fits : n ≤ raw.length) : take n c = .ok (some (raw.take n), c.advance n) := by
  have room := ready.room
  have inside : ¬(c.off : Int) + n > c.b.length := by omega
  have value : slice c.b c.off (c.off + n) = raw.take n := by
    rw [slice, ready.rest, Nat.add_sub_cancel_left]
  unfold Wire.take
  rw [if_neg (by simp [ready.err]), if_neg inside, Int.toNat_natCast,
    cut_ok (le_add_right _ _) (by omega), value]
  rfl

theorem unsigned (fits : width ≤ raw.length) :
    unsigned width c = .ok (big (raw.take width), c.advance width) := by
  have whole : (raw.take width).length = width := length_take_of_le fits
  unfold Wire.unsigned
  rw [ready.take fits]
  change (uint width (raw.take width)).map _ = _
  rw [uint_ok (le_of_eq whole.symm), take_of_length_le (le_of_eq whole)]
  rfl

theorem u8 (fits : 1 ≤ raw.length) : u8 c = .ok (big (raw.take 1), c.advance 1) :=
  ready.unsigned fits

theorem u16 (fits : 2 ≤ raw.length) : u16 c = .ok (big (raw.take 2), c.advance 2) :=
  ready.unsigned fits

end

/-! The same behind the first octets of `raw`. -/

variable {k : Nat}

theorem past (ready : Ready c (raw.drop k)) (fits : k + n ≤ raw.length) : Ready (c.advance n) (raw.drop (k + n)) := by
  rw [← drop_drop]
  exact ready.advance (by rw [length_drop]; omega)

theorem unsignedAt (ready : Ready c (raw.drop k)) (fits : k + width ≤ raw.length) :
    Wire.unsigned width c = .ok (big (slice raw k (k + width)), c.advance width) := by
  rw [slice, Nat.add_sub_cancel_left]
  exact ready.unsigned (by rw [length_drop]; omega)

theorem words (ready : Ready c raw) (fits : 4 ≤ raw.length) :
    Wire.u16 c = .ok (big (raw.take 2), c.advance 2) ∧
      Wire.u16 (c.advance 2) = .ok (big (slice raw 2 4), (c.advance 2).advance 2) ∧
      Ready ((c.advance 2).advance 2) (raw.drop 4) := by
  have second := ready.advance (show 2 ≤ raw.length by omega)
  exact ⟨ready.u16 (by omega), second.unsignedAt fits, second.past fits⟩

theorem skipAt (ready : Ready c (raw.drop k)) (fits : k + n ≤ raw.length) : skip n c = .ok ((), c.advance n) := by
  have enough : n ≤ (raw.drop k).length := by
    rw [length_drop]
    omega
  unfold skip
  rw [ready.take enough]
  rfl

theorem bytes (ready : Ready c raw) (fits : n ≤ raw.length) : bytes n c = .ok (some (raw.take n), c.advance n) :=
  ready.take fits

theorem sub (ready : Ready c raw) (fits : n ≤ raw.length) : sub n c = .ok (.new (raw.take n), c.advance n) := by
  unfold Wire.sub
  rw [ready.take fits]
  rfl

end Ready

/-! The same from the start of the octets. -/

section New

variable {b : Bytes} {k : Nat}

theorem unsigned_new (fits : k + width ≤ b.length) :
    unsigned width ((Cursor.new b).advance k) = .ok (big (slice b k (k + width)), (Cursor.new b).advance (k + width)) := by
  have ready : Ready ((Cursor.new b).advance k) (b.drop k) := (ready_new b).advance (by omega)
  rw [ready.unsignedAt fits]
  simp [Cursor.advance, add_assoc]

theorem skip_new (fits : k + n ≤ b.length) :
    skip n ((Cursor.new b).advance k) = .ok ((), (Cursor.new b).advance (k + n)) := by
  have ready : Ready ((Cursor.new b).advance k) (b.drop k) := (ready_new b).advance (by omega)
  rw [ready.skipAt fits]
  simp [Cursor.advance, add_assoc]

variable {β : Type}

theorem unsigned_bind (fits : k + width ≤ b.length) (f : Nat → Parsing β) :
    (unsigned width >>= f) ((Cursor.new b).advance k) = f (big (slice b k (k + width))) ((Cursor.new b).advance (k + width)) :=
  Parsing.step (unsigned_new fits)

theorem skip_bind (fits : k + OfNat.ofNat n ≤ b.length) (f : Unit → Parsing β) :
    (skip (no_index (OfNat.ofNat n)) >>= f) ((Cursor.new b).advance k) = f () ((Cursor.new b).advance (k + OfNat.ofNat n)) :=
  Parsing.step (skip_new fits)

end New

/-- The program reads what `read` says, and stands behind it. -/
def Parses {A : Type} (x : Parsing (Option A)) (c : Cursor) (read : Option (A × Bytes)) : Prop :=
  ∃ c', x c = .ok (read.map Prod.fst, c') ∧ ∀ found, read = some found → Ready c' found.2

namespace Parses

variable {A B : Type} {x : Parsing (Option A)}

theorem none (ran : x c = .ok (Option.none, c')) : Parses x c Option.none := ⟨c', ran, nofun⟩

theorem some (ran : x c = .ok (Option.some a, c')) (ready : Ready c' rest) :
    Parses x c (Option.some (a, rest)) :=
  ⟨c', ran, fun _ same => Option.some.inj same ▸ ready⟩

theorem step {read : Option (A × Bytes)} (ran : y c = .ok (b, c'))
    (rest : Parses (f b) c' read) : Parses (y >>= f) c read := by
  obtain ⟨c'', there, ready⟩ := rest
  exact ⟨c'', (Parsing.step ran).trans there, ready⟩

theorem bind
    {read : B × Bytes → Option (A × Bytes)} (ran : Parses y c first) (missing : ∀ c', Parses (f Option.none) c' Option.none)
    (found : ∀ c' b, Ready c' b.2 → Parses (f (Option.some b.1)) c' (read b)) : Parses (y >>= f) c (first.bind read) := by
  obtain ⟨c', here, ready⟩ := ran
  cases first with
  | none => exact .step here (missing c')
  | some b => exact .step here (found c' b (ready b rfl))

end Parses

/-! Records one after the other. -/

/-- The program reads what the reader reads, and goes on where that one goes on. -/
structure Reads {A : Type} (x : Parsing (Option A)) (r : Reader UInt8 A) : Prop where
  found : ∀ {c raw}, Ready c raw → ∀ {a rest}, r.read raw = some (a, rest) → ∃ c', x c = .ok (some a, c') ∧ Ready c' rest
  missing : ∀ {c raw}, Ready c raw → r.read raw = none → ∃ c', x c = .ok (none, c')

def eachRecord {A S : Type} (x : Parsing (Option A)) (put : S → A → S) (s : S × Cursor) : Checked ((S × Cursor) ⊕ S) :=
  x s.2 >>= fun
    | (none, _) => .ok (.inr s.1)
    | (some a, c) => .ok (.inl (put s.1 a, c))

theorem Reads.all {r : Reader UInt8 A} (reads : Reads x r) (put : S → A → S) (ready : Ready c raw) (enough : raw.length < fuel) (s : S) :
    forever (eachRecord x put) fuel (s, c) = .ok ((r.all raw).foldl put s) := by
  induction fuel generalizing c raw s with
  | zero => cases enough
  | succ fuel ih =>
    cases found : r.read raw with
    | none =>
      obtain ⟨c', ran⟩ := reads.missing ready found
      have exit : eachRecord x put (s, c) = .ok (.inr s) := step ran
      rw [forever_exit exit, Reader.all_end found]
      rfl
    | some first =>
      obtain ⟨a, rest⟩ := first
      obtain ⟨c', ran, further⟩ := reads.found ready found
      have next : eachRecord x put (s, c) = .ok (.inl (put s a, c')) := step ran
      have shorter := r.shrinks raw a rest found
      rw [forever_next next, ih further (by omega), Reader.all_next found]
      rfl

/-! Reads that may fail. -/

def Cursor.Valid (c : Cursor) : Prop := c.off ≤ c.b.length

theorem Cursor.valid_new (b : Bytes) : (Cursor.new b).Valid := zero_le _

structure Later (c c' : Cursor) : Prop where
  octets : c'.b = c.b
  forward : c.off ≤ c'.off
  valid : c'.Valid

theorem Later.trans (first : Later c c') (second : Later c' c'') : Later c c'' :=
  ⟨second.octets.trans first.octets, first.forward.trans second.forward, second.valid⟩

/-- From any cursor the program returns, with a result of which `post` holds. -/
def Yields {α : Type} (x : Parsing α) (post : α → Prop) : Prop :=
  ∀ c : Cursor, c.Valid → ∃ a c', x c = .ok (a, c') ∧ Later c c' ∧ post a

namespace Yields

variable {α β : Type} {post : α → Prop}

theorem pure (holds : post a) : Yields (Pure.pure a) post :=
  fun c valid => ⟨a, c, rfl, ⟨rfl, le_rfl, valid⟩, holds⟩

theorem bind (ran : Yields x first)
    (rest : ∀ a, first a → Yields (f a) post) : Yields (x >>= f) post := by
  intro c valid
  obtain ⟨a, c', here, later, holds⟩ := ran c valid
  obtain ⟨b, c'', there, further, ends⟩ := rest a holds c' later.valid
  exact ⟨b, c'', (Parsing.step here).trans there, later.trans further, ends⟩

theorem mono (ran : Yields x post) (weaken : ∀ a, post a → weaker a) :
    Yields x weaker := by
  intro c valid
  obtain ⟨a, c', here, later, holds⟩ := ran c valid
  exact ⟨a, c', here, later, weaken a holds⟩

theorem lift {x : Checked α} (ran : ∃ a, x = .ok a ∧ post a) : Yields (liftM x) post := by
  intro c valid
  obtain ⟨a, rfl, holds⟩ := ran
  exact ⟨a, c, rfl, ⟨rfl, le_rfl, valid⟩, holds⟩

end Yields

theorem take_total (valid : c.Valid) (n : Int) :
    ∃ v c', take n c = .ok (v, c') ∧ Later c c' ∧
      (∀ x ∈ v, c'.off = c.off + n.toNat ∧ x = slice c.b c.off (c.off + n.toNat)) ∧
      (c'.err = none → c.err = none ∧ v.isSome = true) := by
  unfold take
  split
  · rename_i bad
    refine ⟨none, c, rfl, ⟨rfl, le_rfl, valid⟩, nofun, ?_⟩
    intro intact
    rw [intact] at bad
    cases bad
  · rename_i intact
    have unfailed : c.err = none := by simpa using intact
    split
    · refine ⟨none, _, rfl, ⟨rfl, le_rfl, valid⟩, nofun, ?_⟩
      simp [Cursor.failf]
    split
    · refine ⟨none, _, rfl, ⟨rfl, le_rfl, valid⟩, nofun, ?_⟩
      simp [Cursor.failf]
    have bound : c.off + n.toNat ≤ c.b.length := by omega
    rw [cut_ok (le_add_right _ _) bound]
    refine ⟨_, _, rfl, ⟨rfl, le_add_right _ _, bound⟩, ?_, fun _ => ⟨unfailed, rfl⟩⟩
    intro x mem
    exact ⟨rfl, (Option.some.inj mem).symm⟩

theorem skip_total (valid : c.Valid) (n : Int) :
    ∃ c', skip n c = .ok ((), c') ∧ Later c c' ∧ (c'.err = none → c.err = none ∧ c'.off = c.off + n.toNat) := by
  obtain ⟨v, c', ran, later, value, intact⟩ := take_total valid n
  refine ⟨c', ?_, later, ?_⟩
  · unfold skip
    rw [ran]
    rfl
  · intro unfailed
    obtain ⟨before, read⟩ := intact unfailed
    obtain ⟨x, found⟩ := Option.isSome_iff_exists.mp read
    exact ⟨before, (value x found).1⟩

theorem yields_skip (n : Int) : Yields (skip n) fun _ => True := by
  intro c valid
  obtain ⟨c', ran, later, -⟩ := skip_total valid n
  exact ⟨(), c', ran, later, trivial⟩

theorem unsigned_total (valid : c.Valid) (width : Nat) :
    ∃ n c', unsigned width c = .ok (n, c') ∧ Later c c' ∧
      (c'.err = none → c.err = none ∧ c'.off = c.off + width ∧ n = big (slice c.b c.off (c.off + width))) := by
  obtain ⟨v, c', ran, later, value, intact⟩ := take_total valid width
  unfold unsigned
  rw [ran]
  cases v with
  | none => exact ⟨0, c', rfl, later, fun unfailed => nomatch (intact unfailed).2⟩
  | some v =>
    obtain ⟨moved, octets⟩ := value v rfl
    have within := later.valid
    rw [Cursor.Valid, later.octets] at within
    have whole : v.length = width := by
      rw [octets, slice_length]
      omega
    change ∃ a c'', (uint width v).map _ = _ ∧ _
    rw [uint_ok (le_of_eq whole.symm), take_of_length_le (le_of_eq whole), octets]
    exact ⟨_, c', rfl, later, fun unfailed => ⟨(intact unfailed).1, moved, rfl⟩⟩

theorem yields_unsigned (width : Nat) : Yields (unsigned width) fun _ => True := by
  intro c valid
  obtain ⟨n, c', ran, later, -⟩ := unsigned_total valid width
  exact ⟨n, c', ran, later, trivial⟩

theorem yields_array4 : Yields array4 fun _ => True := by
  intro c valid
  obtain ⟨v, c', ran, later, value, -⟩ := take_total valid 4
  unfold array4
  rw [ran]
  cases v with
  | none => exact ⟨_, c', rfl, later, trivial⟩
  | some v =>
    obtain ⟨moved, octets⟩ := value v rfl
    have within := later.valid
    rw [Cursor.Valid, later.octets] at within
    have long : 4 ≤ v.length := by
      rw [octets, slice_length]
      omega
    change ∃ a c'', (cut v 0 4).map _ = _ ∧ _
    rw [cut_ok (zero_le _) long]
    exact ⟨_, c', rfl, later, trivial⟩

theorem yields_err : Yields err fun _ => True :=
  fun c valid => ⟨_, c, rfl, ⟨rfl, le_rfl, valid⟩, trivial⟩

theorem bytesAligned_total (valid : c.Valid) (n align : Int) :
    ∃ v c', bytesAligned n align c = .ok (v, c') ∧ Later c c' ∧
      (∀ x ∈ v, c.off + n.toNat ≤ c'.off ∧ x = slice c.b c.off (c.off + n.toNat)) ∧ (c'.err = none → v.isSome = true) := by
  obtain ⟨v, c', ran, later, value, intact⟩ := take_total valid n
  unfold bytesAligned
  rw [ran]
  cases v with
  | none => exact ⟨none, c', rfl, later, nofun, fun unfailed => (intact unfailed).2⟩
  | some v =>
    obtain ⟨moved, octets⟩ := value v rfl
    have stays : ∀ x ∈ some v, c.off + n.toNat ≤ c'.off ∧ x = slice c.b c.off (c.off + n.toNat) := by
      intro x mem
      exact ⟨le_of_eq moved.symm, (Option.some.inj mem).symm.trans octets⟩
    change ∃ w c'', (if align ≤ 1 then _ else _) = _ ∧ _
    split
    · exact ⟨_, _, rfl, later, stays, fun _ => rfl⟩
    split
    · rename_i padded
      refine ⟨_, _, rfl, later.trans ⟨rfl, le_add_right _ _, padded.2⟩, ?_, fun _ => rfl⟩
      intro x mem
      exact ⟨(stays x mem).1.trans (le_add_right _ _), (stays x mem).2⟩
    · exact ⟨_, _, rfl, later, stays, fun _ => rfl⟩

theorem yields_bytesAligned (n align : Int) : Yields (bytesAligned n align) fun _ => True := by
  intro c valid
  obtain ⟨v, c', ran, later, -⟩ := bytesAligned_total valid n align
  exact ⟨v, c', ran, later, trivial⟩

theorem yields_failed : Yields failed fun _ => True :=
  fun c valid => ⟨_, c, rfl, ⟨rfl, le_rfl, valid⟩, trivial⟩

end Probectl.Wire
