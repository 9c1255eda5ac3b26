import PseudocodeTools.Text.Basic
/-!
# Decimal digits

A natural number is written with digits only and without a zero in front, and is
known from its digits.
-/

namespace PseudocodeTools
namespace Text

theorem ofNat_injective {m n : Nat} (h : ofNat m = ofNat n) :
    m = n := by
  have hm := @Nat.ofDigitChars_ten_toDigits m
  have hn := @Nat.ofDigitChars_ten_toDigits n
  unfold ofNat at h
  rw [h, hn] at hm
  exact hm.symm

theorem isDigit_of_mem_ofNat {n : Nat} {c : Char} (h : c ∈ ofNat n) :
    c.isDigit = true :=
  Nat.isDigit_of_mem_toDigits (by decide) (by decide) h

theorem exists_digitChar_of_isDigit {c : Char} (h : c.isDigit = true) :
    exists n, n < 10 ∧ n.digitChar = c := by
  have hrange : 48 ≤ c.toNat ∧ c.toNat ≤ 57 := Char.isDigit_iff_toNat.mp h
  refine ⟨c.toNat - 48, by omega, Char.toNat_inj.mp ?_⟩
  rw [Nat.toNat_digitChar_of_lt_ten (by omega)]
  omega

/-- The first digit is the first one of a tenth of the number, as long as there
is one. -/
theorem head?_ofNat_ne_zero {n : Nat} (h : 0 < n) :
    (ofNat n).head? ≠ some '0' := by
  have hdigit : forall n, n < 10 -> 0 < n -> n.digitChar ≠ '0' := by
    decide
  induction n using Nat.strongRecOn with
  | ind n ih =>
      unfold ofNat
      by_cases hsmall : n < 10
      · rw [Nat.toDigits_of_lt_base hsmall]
        exact fun hzero => hdigit n hsmall h (Option.some.inj hzero)
      · have hsome : (Nat.toDigits 10 (n / 10)).head?.isSome = true :=
          List.isSome_head?.mpr Nat.toDigits_ne_nil
        rw [Nat.toDigits_of_base_le (by decide) (Nat.not_lt.mp hsmall),
          List.head?_append, Option.or_of_isSome hsome]
        exact ih (n / 10) (Nat.div_lt_self h (by decide)) (by omega)

theorem ofNat_ne_nil (n : Nat) : ofNat n ≠ [] :=
  Nat.toDigits_ne_nil

theorem exists_cons_ofNat (n : Nat) :
    exists c t, ofNat n = c :: t ∧ c.isDigit = true := by
  rcases List.exists_cons_of_ne_nil (ofNat_ne_nil n) with ⟨c, t, ht⟩
  exact ⟨c, t, ht, isDigit_of_mem_ofNat (ht ▸ List.mem_cons_self)⟩

/-- A zero stands alone. -/
theorem ofNat_ne_zero_cons (n : Nat) (c : Char) (t : Text) :
    ofNat n ≠ '0' :: c :: t := by
  intro h
  rcases Nat.eq_zero_or_pos n with rfl | hpos
  · cases h
  · exact head?_ofNat_ne_zero hpos (congrArg List.head? h)

end Text
end PseudocodeTools
