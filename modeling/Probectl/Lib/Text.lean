import Probectl.Lib.Strings

/-! Texts built from fields: decimal and hexadecimal numbers, codes read
byte by byte, and fields that each end in a separator. -/
namespace Probectl.Text

open List Function Strings UInt8 Nat

universe u v

section Codes
variable {α : Type u} {β : Type v}

/-- A code whose words are never confused, whatever follows them. -/
structure Readable (code : α → List β) : Prop where
  filled : ∀ c, code c ≠ []
  unique : ∀ c d x y, code c ++ x = code d ++ y → c = d ∧ x = y

theorem Readable.flatMap_injective (readable : Readable code) :
    Injective (flatMap code) := by
  intro xs
  induction xs with
  | nil =>
    intro ys same
    cases ys with
    | nil => rfl
    | cons d ys =>
      exact absurd (append_eq_nil_iff.mp same.symm).1 (readable.filled d)
  | cons c xs ih =>
    intro ys same
    cases ys with
    | nil =>
      exact absurd (append_eq_nil_iff.mp same).1 (readable.filled c)
    | cons d ys =>
      obtain ⟨heads, tails⟩ := readable.unique _ _ _ _ same
      rw [heads, ih tails]

end Codes

/-- `strconv.Itoa` of a natural number. -/
def decimal (n : Nat) : Bytes :=
  if n = 0 then [48] else ((digits 10 n).reverse).map fun d => ofNat (48 + d)

/-- `strconv.FormatInt` in base ten. -/
def decimalInt : Int → Bytes
  | .ofNat n => decimal n
  | .negSucc n => 45 :: decimal (n + 1)

def digitsOf (n : Nat) : List Nat := if n = 0 then [0] else digits 10 n

theorem digitsOf_lt (n : Nat) : ∀ d ∈ digitsOf n, d < 10 := by
  intro d mem
  unfold digitsOf at mem
  split at mem
  · rw [mem_singleton.mp mem]
    decide
  · exact digits_lt_base (by decide) mem

theorem ofDigits_digitsOf (n : Nat) : ofDigits 10 (digitsOf n) = n := by
  unfold digitsOf
  split
  · rename_i zero
    rw [zero]
    rfl
  · exact ofDigits_digits 10 n

theorem decimal_eq (n : Nat) : decimal n = ((digitsOf n).reverse).map fun d => ofNat (48 + d) := by
  unfold decimal digitsOf
  split <;> rfl

variable {n : Nat} {m : Nat}

theorem digit_injective (small : m < 10) (small' : n < 10)
    (same : ofNat (48 + m) = ofNat (48 + n)) : m = n := by
  have values := congrArg toNat same
  rw [toNat_ofNat', toNat_ofNat'] at values
  omega

theorem digits_injective {ys : List Nat} (small : ∀ d ∈ xs, d < 10) (small' : ∀ d ∈ ys, d < 10)
    (same : (xs.map fun d => ofNat (48 + d)) = ys.map fun d => ofNat (48 + d)) : xs = ys := by
  induction xs generalizing ys with
  | nil => exact (map_eq_nil_iff.mp same.symm).symm
  | cons x xs ih =>
    cases ys with
    | nil => cases same
    | cons y ys =>
      obtain ⟨head, tail⟩ := cons.inj same
      rw [forall_mem_cons] at small small'
      rw [digit_injective small.1 small'.1 head, ih small.2 small'.2 tail]

theorem decimal_injective : Injective decimal := by
  intro m n same
  rw [decimal_eq, decimal_eq] at same
  have small k : ∀ d ∈ (digitsOf k).reverse, d < 10 := fun d mem => digitsOf_lt k d (mem_reverse.mp mem)
  have digits := reverse_injective (digits_injective (small m) (small n) same)
  have values := congrArg (ofDigits 10) digits
  rwa [ofDigits_digitsOf, ofDigits_digitsOf] at values

variable {b : UInt8}

theorem decimal_digit (mem : b ∈ decimal n) : 48 ≤ b.toNat ∧ b.toNat < 58 := by
  rw [decimal_eq] at mem
  obtain ⟨d, inside, rfl⟩ := mem_map.mp mem
  have small := digitsOf_lt n d (mem_reverse.mp inside)
  rw [toNat_ofNat']
  omega

theorem decimal_ne_negative (m : Nat) (text : Bytes) : decimal m ≠ 45 :: text := by
  intro same
  have dash : 45 ∈ decimal m := same ▸ mem_cons_self
  exact absurd (decimal_digit dash).1 (by decide)

theorem decimalInt_injective : Injective decimalInt := by
  intro m n same
  cases m with
  | ofNat m =>
    cases n with
    | ofNat n => exact congrArg Int.ofNat (decimal_injective same)
    | negSucc n => exact absurd same (decimal_ne_negative m _)
  | negSucc m =>
    cases n with
    | ofNat n => exact absurd same.symm (decimal_ne_negative n _)
    | negSucc n =>
      have values := decimal_injective (cons.inj same).2
      rw [succ.inj values]

theorem decimalInt_avoids (low : b.toNat < 45) : b ∉ decimalInt z := by
  intro mem
  cases z with
  | ofNat n =>
    have := (decimal_digit mem).1
    omega
  | negSucc n =>
    rcases mem_cons.mp mem with rfl | inside
    · exact absurd low (by decide)
    · have := (decimal_digit inside).1
      omega

/-- One digit of `encoding/hex`. -/
def hexDigit (n : Nat) : UInt8 := if n < 10 then ofNat (48 + n) else ofNat (87 + n)

/-- `hex.EncodeToString`. -/
def hexEncode (bytes : Bytes) : Bytes := bytes.flatMap fun b => [hexDigit (b.toNat / 16), hexDigit (b.toNat % 16)]

theorem hexDigit_toNat (small : n < 16) : (hexDigit n).toNat = if n < 10 then 48 + n else 87 + n := by
  unfold hexDigit
  split
  all_goals
    rw [toNat_ofNat']
    omega

theorem hexDigit_injective (small : m < 16) (small' : n < 16) (same : hexDigit m = hexDigit n) : m = n := by
  have values := congrArg toNat same
  rw [hexDigit_toNat small, hexDigit_toNat small'] at values
  split at values <;> split at values <;> omega

theorem hexEncode_injective : Injective hexEncode := by
  apply Readable.flatMap_injective
  constructor
  · intro b empty
    cases empty
  intro b c x y same
  obtain ⟨high, rest⟩ := cons.inj same
  obtain ⟨low, tails⟩ := cons.inj rest
  have bound := b.toNat_lt
  have bound' := c.toNat_lt
  have highs := hexDigit_injective (by omega) (by omega) high
  have lows := hexDigit_injective (by omega) (by omega) low
  exact ⟨UInt8.toNat_inj.mp (by omega), tails⟩

section Lines
variable {α : Type u} [DecidableEq α]

def lines (sep : α) (fields : List (List α)) : List α := fields.flatMap fun field => field ++ [sep]

omit [DecidableEq α] in
theorem lines_cons (sep : α) (field : List α) (rest : List (List α)) :
    lines sep (field :: rest) = field ++ sep :: lines sep rest := by simp [lines]

theorem lines_injective {sep : α} (absent : ∀ f ∈ fields, sep ∉ f)
    (absent' : ∀ f ∈ others, sep ∉ f) (length : fields.length = others.length)
    (same : lines sep fields ++ x = lines sep others ++ y) : fields = others ∧ x = y := by
  induction fields generalizing others with
  | nil =>
    obtain rfl := length_eq_zero_iff.mp length.symm
    exact ⟨rfl, same⟩
  | cons f fields ih =>
    cases others with
    | nil => cases length
    | cons g others =>
      rw [forall_mem_cons] at absent absent'
      rw [lines_cons, lines_cons, append_assoc, append_assoc] at same
      obtain ⟨heads, behind⟩ := separated_injective absent.1 absent'.1 same
      obtain ⟨rest, tails⟩ := ih absent.2 absent'.2 (succ.inj length) behind
      exact ⟨by rw [heads, rest], tails⟩

theorem pairs_injective {ys : List (List α × List α)} (plain : ∀ e ∈ xs, sep ∉ e.1) (plain' : ∀ e ∈ ys, sep ∉ e.1)
    (same : (xs.map fun e => e.1 ++ sep :: e.2) = ys.map fun e => e.1 ++ sep :: e.2) : xs = ys := by
  induction xs generalizing ys with
  | nil => exact (map_eq_nil_iff.mp same.symm).symm
  | cons x xs ih =>
    cases ys with
    | nil => cases same
    | cons y ys =>
      rw [forall_mem_cons] at plain plain'
      obtain ⟨head, tail⟩ := cons.inj same
      obtain ⟨keys, values⟩ := separated_injective plain.1 plain'.1 head
      rw [ih plain.2 plain'.2 tail, Prod.ext keys values]

theorem count_lines {sep : α} (absent : ∀ f ∈ fields, sep ∉ f) :
    (lines sep fields).count sep = fields.length := by
  induction fields with
  | nil => rfl
  | cons f fields ih =>
    rw [forall_mem_cons] at absent
    rw [lines_cons, count_append, count_eq_zero_of_not_mem absent.1, count_cons_self, ih absent.2,
      length_cons, zero_add]

end Lines

end Probectl.Text
