import Probectl.Lib.Strings

/-! Numbers in network byte order, and parts of a byte string. -/
namespace Probectl.Octets

open List UInt8

def big (bytes : Bytes) : Nat := bytes.foldl (fun n b => n * 256 + b.toNat) 0

def put : Nat → Nat → Bytes
  | 0, _ => []
  | width + 1, n => put width (n / 256) ++ [ofNat n]

/-- `bytes[lo:hi]`. -/
def slice (bytes : Bytes) (lo hi : Nat) : Bytes := (bytes.drop lo).take (hi - lo)

variable (bytes : Bytes)

theorem big_append_singleton (b : UInt8) : big (bytes ++ [b]) = big bytes * 256 + b.toNat := by
  simp [big]

theorem put_big : put bytes.length (big bytes) = bytes := by
  induction bytes using reverseRecOn with
  | nil => rfl
  | append_singleton bytes b ih =>
    have small := b.toNat_lt
    have front : (big bytes * 256 + b.toNat) / 256 = big bytes := by omega
    have last : ofNat (big bytes * 256 + b.toNat) = b := by
      apply UInt8.toNat_inj.mp
      rw [UInt8.toNat_ofNat']
      omega
    rw [length_append, length_singleton, put, big_append_singleton, front, last, ih]

theorem put_length (width n : Nat) : (put width n).length = width := by
  induction width generalizing n with
  | zero => rfl
  | succ width ih => rw [put, length_append, ih, length_singleton]

theorem big_lt : big bytes < 256 ^ bytes.length := by
  induction bytes using reverseRecOn with
  | nil => decide
  | append_singleton bytes b ih =>
    have small := b.toNat_lt
    rw [big_append_singleton, length_append, length_singleton]
    omega

theorem big_put (small : n < 256 ^ width) : big (put width n) = n := by
  induction width generalizing n with
  | zero => exact (Nat.lt_one_iff.mp small).symm
  | succ width ih =>
    rw [put, big_append_singleton, ih (by omega), toNat_ofNat']
    omega

theorem slice_length (lo hi : Nat) : (slice bytes lo hi).length = min (hi - lo) (bytes.length - lo) := by
  simp [slice]

theorem slice_append_drop (le : lo ≤ hi) : slice bytes lo hi ++ bytes.drop hi = bytes.drop lo := by
  have shift : bytes.drop hi = (bytes.drop lo).drop (hi - lo) := by
    rw [drop_drop, Nat.add_sub_cancel' le]
  rw [slice, shift, take_append_drop]

end Probectl.Octets
