import PseudocodeTools.Json.Basic
/-!
# Finite numbers

An integer of the range of 64-bit words lies far inside the range of finite
floating-point numbers, so rounding it never gives an infinity.
-/

namespace PseudocodeTools
namespace Binary64

theorem magnitude_ofMagnitude (negative : Bool) {m : Nat}
    (h : m < 0x8000000000000000) :
    (ofMagnitude negative m).magnitude = m := by
  unfold ofMagnitude magnitude
  cases negative with
  | false =>
      simp only [Bool.false_eq_true, if_false, Nat.add_zero]
      rw [UInt64.toNat_ofNat_of_lt' (by simp [UInt64.size]; omega)]
      omega
  | true =>
      simp only [if_true]
      rw [UInt64.toNat_ofNat_of_lt' (by simp [UInt64.size]; omega)]
      omega

theorem isFinite_ofMagnitude (negative : Bool) {m : Nat}
    (h : m < infiniteMagnitude) :
    (ofMagnitude negative m).isFinite = true := by
  have hword : m < 0x8000000000000000 := Nat.lt_trans h (by decide)
  unfold isFinite
  rw [magnitude_ofMagnitude negative hword]
  exact decide_eq_true h

theorem roundDiv_le (n d : Nat) : roundDiv n d ≤ n / d + 1 := by
  unfold roundDiv
  dsimp only
  repeat' split
  all_goals omega

theorem floorLog2_one {n : Nat} (h : n ≠ 0) : floorLog2 n 1 = n.log2 := by
  have hle : 1 <<< n.log2 ≤ n := by
    rw [Nat.one_shiftLeft]
    exact Nat.log2_self_le h
  have hnot : ¬ n < 1 <<< n.log2 := Nat.not_lt.mpr hle
  have hone : Nat.log2 1 = 0 := rfl
  have hneg : (-(n.log2 : Int)).toNat = 0 := by omega
  unfold floorLog2 shiftRatio
  simp only [hone, hneg, Int.ofNat_zero, Int.sub_zero, Int.toNat_natCast,
    Nat.shiftLeft_zero, if_neg hnot]

/-- A natural number shifted so that its highest bit is bit 52. -/
theorem shiftRatio_lt {n : Nat} :
    let ratio := shiftRatio n 1 (n.log2 - 52 : Int)
    ratio.1 / ratio.2 < 0x20000000000000 := by
  have hlt : n < 2 ^ (n.log2 + 1) := Nat.lt_log2_self
  have hbound : 0x20000000000000 = 2 ^ 53 := rfl
  unfold shiftRatio
  rw [hbound]
  dsimp only
  rw [Nat.shiftLeft_eq, Nat.one_shiftLeft]
  by_cases hsmall : n.log2 ≤ 52
  · have hup : (-(n.log2 - 52 : Int)).toNat = 52 - n.log2 := by omega
    have hdown : (n.log2 - 52 : Int).toNat = 0 := by omega
    rw [hup, hdown, Nat.pow_zero, Nat.div_one]
    calc
      n * 2 ^ (52 - n.log2) < 2 ^ (n.log2 + 1) * 2 ^ (52 - n.log2) :=
        Nat.mul_lt_mul_of_pos_right hlt (Nat.two_pow_pos _)
      _ = 2 ^ 53 := by
        rw [← Nat.pow_add]
        congr 1
        omega
  · have hup : (-(n.log2 - 52 : Int)).toNat = 0 := by omega
    have hdown : (n.log2 - 52 : Int).toNat = n.log2 - 52 := by omega
    rw [hup, hdown, Nat.pow_zero, Nat.mul_one]
    apply Nat.div_lt_of_lt_mul
    rw [← Nat.pow_add]
    have hexp : n.log2 - 52 + 53 = n.log2 + 1 := by omega
    rw [hexp]
    exact hlt

theorem isFinite_ofInt {n : Int} (h : n.natAbs < 0x10000000000000000) :
    (ofInt n).isFinite = true := by
  unfold ofInt ofRatio
  split
  · exact isFinite_ofMagnitude _ (by decide)
  · rename_i hne
    have hlog : n.natAbs.log2 ≤ 63 := by
      have hword : n.natAbs < 2 ^ 64 := h
      have hlt := (Nat.log2_lt hne).mpr hword
      omega
    rw [floorLog2_one hne]
    have hmax : max (-1074) ((n.natAbs.log2 : Int) - 52) =
        n.natAbs.log2 - 52 := by
      omega
    rw [hmax]
    have hquotient := shiftRatio_lt (n := n.natAbs)
    have hround := roundDiv_le
      (shiftRatio n.natAbs 1 (n.natAbs.log2 - 52 : Int)).1
      (shiftRatio n.natAbs 1 (n.natAbs.log2 - 52 : Int)).2
    dsimp only at hquotient ⊢
    refine isFinite_ofMagnitude _ ?_
    have hexponent : ((n.natAbs.log2 : Int) - 52 + 1074).toNat ≤ 1085 := by
      omega
    have hbits := Nat.mul_le_mul_right 0x10000000000000 hexponent
    unfold infiniteMagnitude
    omega

end Binary64

/-- Every number of a JSON value is finite. -/
theorem JsonNumber.isFinite_toBinary64 (n : JsonNumber) :
    n.toBinary64.isFinite = true := by
  cases n with
  | integer value inRange =>
      exact Binary64.isFinite_ofInt (by omega)
  | real value finite =>
      exact finite

end PseudocodeTools
