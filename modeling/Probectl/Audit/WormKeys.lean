import Probectl.Audit.Worm

/-! The names of the exported objects: a segment's name reads back, the names of later
segments come later, and no two objects share one. -/
namespace Probectl.Audit

open Strings List Text Option

theorem trimPrefix_append (front s : Bytes) : trimPrefix front (front ++ s) = s := by
  rw [trimPrefix, cutPrefix_append]
  rfl

theorem trimSuffix_append (suffix s : Bytes) : trimSuffix suffix (s ++ suffix) = s := by
  have ends : suffix.isSuffixOf (s ++ suffix) = true := isSuffixOf_iff_suffix.mpr ⟨s, rfl⟩
  rw [trimSuffix, if_pos ends, length_append, Nat.add_sub_cancel, take_left]

theorem segmentKey_eq (m n : Nat) :
    segmentKey m n = wormPrefix ++ ((lit "segment-" ++ (zeroPad 12 m ++ (45 :: zeroPad 12 n))) ++ lit ".json") := by
  simp [segmentKey, pad12]

variable {n : Nat}

theorem scanDigits_zeroPad (fits : n < 2 ^ 63) (stops : ∀ b ∈ rest.head?, isDigit b = false) :
    scanDigits (zeroPad 12 n ++ rest) = some ((n : Int), rest) := by
  obtain ⟨digits, left⟩ := takeWhile_zeroPad 12 n stops
  unfold scanDigits
  simp only [digits, left, digitsValue_zeroPad]
  rw [if_neg]
  exact not_or.mpr ⟨zeroPad_ne_nil 12 n, by omega⟩

variable {m : Nat}

theorem scanSegmentName_eq (low : m < 2 ^ 63) (high : n < 2 ^ 63) :
    scanSegmentName (lit "segment-" ++ (zeroPad 12 m ++ (45 :: zeroPad 12 n))) = some ((m : Int), (n : Int)) := by
  have dash : ∀ b ∈ (45 :: zeroPad 12 n).head?, isDigit b = false := by
    intro b mem
    obtain rfl := mem_some.mp mem
    rfl
  have behind : scanDigits (zeroPad 12 n) = some ((n : Int), []) := by
    have whole : scanDigits (zeroPad 12 n ++ []) = some ((n : Int), []) := scanDigits_zeroPad high (by simp)
    rwa [append_nil] at whole
  unfold scanSegmentName
  rw [cutPrefix_append]
  simp only [bind_eq_bind, bind_some, scanDigits_zeroPad low dash]
  have cutDash : cutPrefix (45 :: zeroPad 12 n) [45] = some (zeroPad 12 n) := cutPrefix_append [45] _
  simp only [cutDash, bind_some, behind]

theorem segmentRange_segmentKey (low : m < 2 ^ 63) (high : n < 2 ^ 63) :
    segmentRange (segmentKey m n) = some ((m : Int), (n : Int)) := by
  have base : trimSuffix (lit ".json") (trimPrefix wormPrefix (segmentKey m n)) =
      lit "segment-" ++ (zeroPad 12 m ++ (45 :: zeroPad 12 n)) := by
    rw [segmentKey_eq, trimPrefix_append, trimSuffix_append]
  unfold segmentRange
  rw [base, scanSegmentName_eq low high]
  simp

theorem sigSuffix_segmentKey (m n : Nat) : sigSuffix.isSuffixOf (segmentKey m n) = false := by
  by_contra ends
  obtain ⟨front, split⟩ := isSuffixOf_iff_suffix.mp (Bool.not_eq_false _ ▸ ends)
  have last := congrArg getLast? split
  rw [segmentKey_eq, ← append_assoc, getLast?_append_of_ne_nil, getLast?_append_of_ne_nil] at last
  · exact absurd last (by decide)
  all_goals decide

theorem canonical_json (positive : 0 < m) (range : m ≤ n) (high : n < 2 ^ 63) :
    canonicalWORMSegmentArtifactKey (segmentKey m n) = some (segmentKey m n, false) := by
  unfold canonicalWORMSegmentArtifactKey
  simp only [trimSuffix, sigSuffix_segmentKey, Bool.false_eq_true, ↓reduceIte,
    segmentRange_segmentKey (Nat.lt_of_le_of_lt range high) high, bind_eq_bind, bind_some]
  rw [if_neg (by omega)]

theorem canonical_sig (positive : 0 < m) (range : m ≤ n) (high : n < 2 ^ 63) :
    canonicalWORMSegmentArtifactKey (segmentKey m n ++ sigSuffix) = some (segmentKey m n, true) := by
  have ends : sigSuffix.isSuffixOf (segmentKey m n ++ sigSuffix) = true := isSuffixOf_iff_suffix.mpr ⟨_, rfl⟩
  unfold canonicalWORMSegmentArtifactKey
  simp only [trimSuffix_append, ends, segmentRange_segmentKey (Nat.lt_of_le_of_lt range high) high, bind_eq_bind,
    bind_some]
  rw [if_neg (by omega)]

variable {m' n' : Nat}

theorem less_segmentKey (later : m < m') (fits : m' < 10 ^ 12) (x y : Bytes) :
    less (segmentKey m n ++ x) (segmentKey m' n' ++ y) = true := by
  simp only [segmentKey, pad12, append_assoc]
  rw [zeroPad_eq_fixed (by decide) (later.trans fits),
    zeroPad_eq_fixed (by decide) fits]
  exact less_fixed later fits _ _

theorem segmentKey_injective (same : segmentKey m n ++ x = segmentKey m' n' ++ y) : m = m' := by
  simp only [segmentKey, pad12, append_assoc, append_cancel_left_eq, cons_append] at same
  have dash rest : ∀ b ∈ (45 :: rest).head?, isDigit b = false := by
    intro b mem
    obtain rfl := mem_some.mp mem
    rfl
  have digits := congrArg (takeWhile isDigit) same
  rw [(takeWhile_zeroPad 12 m (dash _)).1, (takeWhile_zeroPad 12 m' (dash _)).1] at digits
  have values := congrArg digitsValue digits
  rwa [digitsValue_zeroPad, digitsValue_zeroPad] at values

theorem segmentKey_ne_sig (m n m' n' : Nat) : segmentKey m n ≠ segmentKey m' n' ++ sigSuffix := by
  intro same
  have plain := sigSuffix_segmentKey m n
  rw [same, isSuffixOf_iff_suffix.mpr ⟨_, rfl⟩] at plain
  cases plain

theorem segmentPath (m n : Nat) (x : Bytes) : (wormPrefix ++ lit "segment-").isPrefixOf (segmentKey m n ++ x) = true := by
  rw [ isPrefixOf_iff_prefix]
  exact ⟨pad12 m ++ (45 :: (pad12 n ++ lit ".json")) ++ x, by simp [segmentKey]⟩

theorem segmentPath_pubKey : (wormPrefix ++ lit "segment-").isPrefixOf pubKey = false := by decide

theorem pubKey_ne_segmentKey (m n : Nat) (x : Bytes) : pubKey ≠ segmentKey m n ++ x := by
  intro same
  have inside := segmentPath m n x
  rw [← same] at inside
  cases inside

end Probectl.Audit
