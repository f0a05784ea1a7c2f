import Probectl.Flow.DataSets

/-! The correction for sampling that `ToProto` of `model.go` makes: the counters of a
record times its rate, as numbers of 64 bits. -/
namespace Probectl.Flow

open Octets List

namespace Record

def rate (r : Record) : Nat := if r.samplingRate = 0 then 1 else r.samplingRate

def bytesScaled (r : Record) : Nat := r.bytes * r.rate % 2 ^ 64

def packetsScaled (r : Record) : Nat := r.packets * r.rate % 2 ^ 64

theorem rate_pos (r : Record) : 0 < r.rate := by
  unfold rate
  split <;> omega

end Record

/-- A counter of a record: the elements that add to it, and its corrected value. -/
structure Counter where
  elements : List Nat
  raw : Record → Nat
  scaled : Record → Nat

def counters : List Counter :=
  [⟨[ieInBytes, ieOutBytes], Record.bytes, Record.bytesScaled⟩,
    ⟨[ieInPackets, ieOutPackets], Record.packets, Record.packetsScaled⟩]

def saturated (n : Nat) : Nat := min n (2 ^ 64 - 1)

namespace Counter

/-- What the elements of a record add up to. -/
def total (k : Counter) (values : List (Nat × Bytes)) : Nat :=
  ((values.filter (·.1 ∈ k.elements)).map (readUint ·.2)).sum

structure Spec (k : Counter) : Prop where
  scaled : ∀ r, k.scaled r = k.raw r * r.rate % 2 ^ 64
  finish : ∀ (ctx : DataContext) r inline, k.raw (ctx.finish r inline) = k.raw r
  start : ∀ (ctx : DataContext) protocol rate, k.raw (ctx.record protocol rate) = 0
  adds : ∀ r val clk, ∀ id ∈ k.elements, k.raw (applyIE r id val clk).1 = (k.raw r + readUint val) % 2 ^ 64
  keeps : ∀ r val clk, ∀ id ∉ k.elements, k.raw (applyIE r id val clk).1 = k.raw r

theorem spec : ∀ k ∈ counters, k.Spec := by
  refine forall_mem_cons.mpr ⟨⟨fun _ => rfl, fun _ _ _ => rfl, fun _ _ _ => rfl, ?_, fun r val clk id other => ?_⟩,
    forall_mem_singleton.mpr ⟨fun _ => rfl, fun _ _ _ => rfl, fun _ _ _ => rfl, ?_, fun r val clk id other => ?_⟩⟩
  · exact fun r val clk => forall_mem_cons.mpr ⟨rfl, forall_mem_singleton.mpr rfl⟩
  · simp only [mem_cons, not_mem_nil, or_false] at other
    simp only [applyIE, apply_ite Prod.fst, apply_ite Record.bytes, other, if_false, ite_self]
  · exact fun r val clk => forall_mem_cons.mpr ⟨rfl, forall_mem_singleton.mpr rfl⟩
  · simp only [mem_cons, not_mem_nil, or_false] at other
    simp only [applyIE, apply_ite Prod.fst, apply_ite Record.packets, other, if_false, ite_self]

theorem Spec.applied {k : Counter} (spec : k.Spec) (clk : IEClock) (values : List (Nat × Bytes)) (start : Record × Nat)
    (small : k.raw start.1 < 2 ^ 64) : k.raw (applied clk start values).1 = (k.raw start.1 + k.total values) % 2 ^ 64 := by
  induction values generalizing start with
  | nil => exact (Nat.mod_eq_of_lt small).symm
  | cons v rest ih =>
    by_cases mine : v.1 ∈ k.elements
    · have added := spec.adds start.1 v.2 clk v.1 mine
      refine (ih _ (added ▸ Nat.mod_lt _ (by decide))).trans ?_
      rw [added, Nat.mod_add_mod, Nat.add_assoc]
      simp [total, mine]
    · have kept := spec.keeps start.1 v.2 clk v.1 mine
      refine (ih _ (kept ▸ small)).trans ?_
      rw [kept]
      simp [total, mine]

end Counter

/-- A product that 64 bits hold, or whose low 64 bits are all set. -/
def Fits (n : Nat) : Prop := n < 2 ^ 64 ∨ n % 2 ^ 64 = 2 ^ 64 - 1

theorem saturated_iff_fits (n : Nat) : n % 2 ^ 64 = saturated n ↔ Fits n := by
  unfold saturated Fits
  omega

/-- A saturated factor saturates the product. -/
theorem saturated_mul {rate : Nat} (n : Nat) (some : 0 < rate) :
    saturated (saturated n * rate) = saturated (n * rate) := by
  by_cases small : n < 2 ^ 64
  · have kept : saturated n = n := Nat.min_eq_left (Nat.le_pred_of_lt small)
    rw [kept]
  have large : 2 ^ 64 - 1 ≤ n := by omega
  have grown : 2 ^ 64 - 1 ≤ (2 ^ 64 - 1) * rate := Nat.le_mul_of_pos_right _ some
  unfold saturated
  rw [Nat.min_eq_right large, Nat.min_eq_right grown, Nat.min_eq_right (grown.trans (Nat.mul_le_mul_right _ large))]

theorem Fits.ge_factor {n rate : Nat} (fits : Fits (n * rate)) (some : 0 < rate) :
    n % 2 ^ 64 ≤ n * rate % 2 ^ 64 := by
  have factor : n ≤ n * rate := Nat.le_mul_of_pos_right _ some
  unfold Fits at fits
  omega

/-- A counter is corrected exactly where the product fits, and is then never below what was
counted; in a record of NetFlow v9 or IPFIX it is what its elements add up to. -/
theorem scaled_exact (k : Counter) (mem : k ∈ counters) :
    (∀ r : Record, k.raw r < 2 ^ 64 →
      (k.scaled r = saturated (k.raw r * r.rate) ↔ Fits (k.raw r * r.rate)) ∧
        (Fits (k.raw r * r.rate) → k.raw r ≤ k.scaled r)) ∧
    ∀ (ctx : DataContext) (protocol : FlowProtocol) (rate : Nat) (values : List (Nat × Bytes)) (r : Record),
      r = ctx.flow protocol rate values →
      (k.scaled r = saturated (saturated (k.total values) * r.rate) ↔ Fits (k.total values * r.rate)) ∧
        (Fits (k.total values * r.rate) → k.raw r ≤ k.scaled r) ∧
        (k.raw r = saturated (k.total values) ↔ Fits (k.total values)) := by
  have spec := Counter.spec k mem
  refine ⟨fun r small => ?_, ?_⟩
  · rw [spec.scaled r]
    refine ⟨saturated_iff_fits _, fun fits => ?_⟩
    have counted := fits.ge_factor r.rate_pos
    rwa [Nat.mod_eq_of_lt small] at counted
  · rintro ctx protocol rate values r rfl
    have raw : k.raw (ctx.flow protocol rate values) = k.total values % 2 ^ 64 := by
      rw [DataContext.flow, spec.finish]
      refine (spec.applied ctx.clk values _ (by rw [spec.start]; decide)).trans ?_
      rw [spec.start, Nat.zero_add]
    have some := (ctx.flow protocol rate values).rate_pos
    rw [spec.scaled, raw, Nat.mod_mul_mod, saturated_mul _ some]
    exact ⟨saturated_iff_fits _, fun fits => fits.ge_factor some, saturated_iff_fits _⟩

namespace Scaling

def ctx : DataContext := ⟨[], 0, 0, ⟨none, 0⟩, ⟨[], false, 0⟩⟩

/-- A record of which every second packet was sampled. -/
def halved (octets : Bytes) : Record := ctx.flow .ipfix 2 [(ieInBytes, octets)]

theorem scaled_exact_halved : (halved [7]).bytesScaled = 14 := by
  have corrected := ((scaled_exact _ mem_cons_self).2 ctx .ipfix 2 [(ieInBytes, [7])] (halved [7]) rfl).1.mpr
  exact (corrected (.inl (by decide +kernel))).trans (by decide +kernel)

/-- Twice `2 ^ 63` octets come out as none. -/
theorem scaled_wraps : (halved (128 :: replicate 7 0)).bytes = 2 ^ 63 ∧ (halved (128 :: replicate 7 0)).bytesScaled = 0 := by
  decide +kernel

end Scaling

end Probectl.Flow
