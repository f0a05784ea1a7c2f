import Probectl.Lib.Text

/-! Decimal numbers padded with zeros to a width: the order of the texts is the
order of the numbers that fit, and reading gives the number back. -/
namespace Probectl.Text

open Strings List UInt8 Nat

/-- `%0*d` for a natural number. -/
def zeroPad (width n : Nat) : Bytes := replicate (width - (decimal n).length) 48 ++ decimal n

/-- The digits of the last `width` places. -/
def fixed : Nat → Nat → Bytes
  | 0, _ => []
  | width + 1, n => fixed width (n / 10) ++ [ofNat (48 + n % 10)]

def digitsValue (digits : Bytes) : Nat := digits.foldl (fun n b => n * 10 + (b.toNat - 48)) 0

variable {width n : Nat}

theorem digitsValue_concat (digits : Bytes) (b : UInt8) :
    digitsValue (digits ++ [b]) = digitsValue digits * 10 + (b.toNat - 48) := by
  rw [digitsValue, foldl_append]
  rfl

theorem decimal_step (large : 10 ≤ n) : decimal n = decimal (n / 10) ++ [ofNat (48 + n % 10)] := by
  rw [decimal, if_neg (by omega), decimal, if_neg (by omega), digits_def' (by decide) (by omega)]
  simp

theorem decimal_small (small : n < 10) : decimal n = [ofNat (48 + n)] := by
  by_cases zero : n = 0
  · subst zero
    rfl
  · rw [decimal, if_neg zero, digits_of_lt 10 n zero small]
    rfl

theorem decimal_length_le (wide : 0 < width) (fits : n < 10 ^ width) : (decimal n).length ≤ width := by
  induction width generalizing n with
  | zero => cases wide
  | succ width ih =>
    by_cases small : n < 10
    · rw [decimal_small small]
      simp
    have positive : 0 < width := by
      by_contra none
      rw [show width = 0 by omega] at fits
      omega
    rw [decimal_step (by omega), length_append]
    exact succ_le_succ (ih positive (by omega))

theorem fixed_zero (width : Nat) : fixed width 0 = replicate width 48 := by
  induction width with
  | zero => rfl
  | succ width ih =>
    rw [fixed, ih, replicate_succ']
    rfl

theorem zeroPad_eq_fixed (wide : 0 < width) (fits : n < 10 ^ width) : zeroPad width n = fixed width n := by
  induction width generalizing n with
  | zero => cases wide
  | succ width ih =>
    by_cases small : n < 10
    · rw [zeroPad, decimal_small small, fixed, div_eq_of_lt small, fixed_zero, mod_eq_of_lt small]
      simp
    have positive : 0 < width := by
      by_contra none
      rw [show width = 0 by omega] at fits
      omega
    rw [fixed, ← ih positive (by omega), zeroPad, zeroPad, decimal_step (by omega), length_append,
      length_singleton, ← append_assoc, Nat.add_sub_add_right]

theorem digitsValue_decimal (n : Nat) : digitsValue (decimal n) = n := by
  induction n using Nat.strongRecOn with
  | ind n ih =>
    by_cases small : n < 10
    · rw [decimal_small small, digitsValue, foldl_cons, foldl_nil, toNat_ofNat']
      omega
    · rw [decimal_step (by omega), digitsValue_concat, ih (n / 10) (by omega), toNat_ofNat']
      omega

theorem digitsValue_zeroPad (width n : Nat) : digitsValue (zeroPad width n) = n := by
  have zeros k : digitsValue (replicate k 48 ++ decimal n) = digitsValue (decimal n) := by
    induction k with
    | zero => rfl
    | succ k ih => exact ih
  rw [zeroPad, zeros, digitsValue_decimal]

theorem zeroPad_digit (mem : b ∈ zeroPad width n) : isDigit b = true := by
  rcases mem_append.mp mem with zero | digit
  · rw [eq_of_mem_replicate zero]
    rfl
  · obtain ⟨low, high⟩ := decimal_digit digit
    rw [isDigit, Bool.and_eq_true, decide_eq_true_eq, decide_eq_true_eq]
    exact ⟨low, le_of_lt_succ high⟩

theorem zeroPad_ne_nil (width n : Nat) : zeroPad width n ≠ [] := by
  intro none
  have value := digitsValue_zeroPad width n
  have empty := (append_eq_nil_iff.mp none).2
  rw [none] at value
  subst value
  exact absurd empty (by decide)

theorem takeWhile_zeroPad (width n : Nat) (stops : ∀ b ∈ rest.head?, isDigit b = false) :
    (zeroPad width n ++ rest).takeWhile isDigit = zeroPad width n ∧
      (zeroPad width n ++ rest).dropWhile isDigit = rest := by
  have digits b (mem : b ∈ zeroPad width n) : isDigit b = true := zeroPad_digit mem
  rw [takeWhile_append_of_pos digits, dropWhile_append_of_pos digits]
  cases rest with
  | nil => simp
  | cons b rest =>
    have other : ¬isDigit b = true := by simp [stops b rfl]
    rw [takeWhile_cons_of_neg other, dropWhile_cons_of_neg other, append_nil]
    exact ⟨rfl, rfl⟩

theorem less_append (front x y : Bytes) : less (front ++ x) (front ++ y) = less x y := by
  induction front with
  | nil => rfl
  | cons a front ih => simp [less, ih]

theorem less_fixed (lt : m < n) (fits : n < 10 ^ width) (x y : Bytes) :
    less (fixed width m ++ x) (fixed width n ++ y) = true := by
  induction width generalizing m n x y with
  | zero =>
    omega
  | succ width ih =>
    rw [fixed, fixed, append_assoc, append_assoc]
    by_cases high : m / 10 < n / 10
    · exact ih high (by omega) _ _
    have same : m / 10 = n / 10 := by omega
    have digit : ofNat (48 + m % 10) < ofNat (48 + n % 10) := by
      rw [lt_iff_toNat_lt, toNat_ofNat', toNat_ofNat']
      omega
    rw [same, less_append, singleton_append, singleton_append, less, decide_eq_true digit, Bool.true_or]

variable {y : Bytes}

theorem less_asymm (before : less x y = true) : less y x = false := by
  induction x generalizing y with
  | nil =>
    cases y with
    | nil => rfl
    | cons b y => rfl
  | cons a x ih =>
    cases y with
    | nil => cases before
    | cons b y =>
      simp only [less, Bool.or_eq_true, decide_eq_true_eq, Bool.and_eq_true] at before
      rcases before with lt | ⟨rfl, later⟩
      · have after : ¬b < a := fun gt => absurd (UInt8.lt_trans lt gt) (UInt8.lt_irrefl a)
        have other : b ≠ a := fun same => UInt8.lt_irrefl a (same ▸ lt)
        simp [less, after, other]
      · simp [less, ih later]

theorem less_longer (x : Bytes) (filled : y ≠ []) : less x (x ++ y) = true := by
  have base : less ([]) y = true := by
    cases y with
    | nil => exact absurd rfl filled
    | cons b y => rfl
  have := less_append x [] y
  rwa [append_nil, base] at this

theorem sort_eq (ascending : texts.Pairwise fun a b => less a b = true) : Strings.sort texts = texts := by
  apply List.Pairwise.insertionSort_eq
  exact ascending.imp less_asymm

end Probectl.Text
