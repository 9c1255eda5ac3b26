import Mathlib.Tactic.SplitIfs
import PseudocodeTools.JsonText.Printer
import PseudocodeTools.JsonText.Scalar
import PseudocodeTools.Proofs.Text.Decimal
import PseudocodeTools.Proofs.Text.Run
/-!
# Printed strings and numbers

A printed string is read back from behind its opening quote, whatever follows
it.  A printed integer is read back if what follows does not go on with it.
-/

namespace PseudocodeTools
namespace Reader

/-!
# Characters
-/

theorem stringRest_escaped {c : Char} (x : Char) (h : escaped? x = some c)
    (t : Text) :
    stringRest ('\\' :: x :: t) = withChar c (stringRest t) := by
  unfold escaped? at h
  split at h <;> cases h <;> rfl

theorem stringRest_codeUnit {a b c d : Char} {n : Nat}
    (h : codeUnit? a b c d = some n) (hn : n < 0xD800) (t : Text) :
    stringRest ('\\' :: 'u' :: a :: b :: c :: d :: t) =
      withChar (Char.ofNat n) (stringRest t) := by
  have hleading : isLeadingSurrogate n = false := by
    unfold isLeadingSurrogate
    rw [decide_eq_false (by omega)]
    rfl
  have htrailing : isTrailingSurrogate n = false := by
    unfold isTrailingSurrogate
    rw [decide_eq_false (by omega)]
    rfl
  rw [stringRest, h]
  simp only [htrailing, hleading, Bool.false_eq_true, if_false]

theorem stringRest_plain {c : Char} (hquote : c ≠ '"') (hslash : c ≠ '\\')
    (hcontrol : ¬c.toNat < 0x20) (t : Text) :
    stringRest (c :: t) = withChar c (stringRest t) := by
  rw [stringRest, if_neg hcontrol]
  · exact hquote
  · exact fun h _ => hslash h
  · exact fun _ _ _ _ _ h _ => hslash h
  · exact fun _ h _ => hslash h
  · exact fun _ _ h _ => hslash h

theorem codeUnit?_digitChar :
    forall m, m < 2 -> forall n, n < 0x10 ->
      codeUnit? '0' '0' m.digitChar n.digitChar = some (m * 0x10 + n) := by
  decide

theorem stringRest_control {c : Char} {m n : Nat} (hm : m < 2) (hn : n < 0x10)
    (hc : c.toNat = m * 0x10 + n) (t : Text) :
    stringRest ('\\' :: 'u' :: '0' :: '0' :: m.digitChar :: n.digitChar :: t) =
      withChar c (stringRest t) := by
  rw [stringRest_codeUnit (codeUnit?_digitChar m hm n hn) (by omega), ← hc,
    Char.ofNat_toNat]

/-- A printed character is read back as the one that it was. -/
theorem stringRest_printedChar (c : Char) (t : Text) :
    stringRest (Json.printedChar c ++ t) = withChar c (stringRest t) := by
  unfold Json.printedChar
  split_ifs with hquote hslash hb hf hn hr ht hlow hcontrol
  · rw [hquote]
    exact stringRest_escaped '"' rfl t
  · rw [hslash]
    exact stringRest_escaped '\\' rfl t
  · rw [hb]
    exact stringRest_escaped 'b' rfl t
  · rw [hf]
    exact stringRest_escaped 'f' rfl t
  · rw [hn]
    exact stringRest_escaped 'n' rfl t
  · rw [hr]
    exact stringRest_escaped 'r' rfl t
  · rw [ht]
    exact stringRest_escaped 't' rfl t
  · unfold Text.ofNatHex
    rw [Nat.toDigits_of_lt_base hlow]
    exact stringRest_control (m := 0) (by decide) hlow (by omega) t
  · unfold Text.ofNatHex
    rw [Nat.toDigits_of_base_le (by decide) (Nat.not_lt.mp hlow),
      Nat.toDigits_of_lt_base (by omega)]
    exact stringRest_control (by omega) (Nat.mod_lt _ (by decide)) (by omega) t
  · exact stringRest_plain hquote hslash hcontrol t

/-!
# Strings
-/

theorem stringRest_printed (s rest : Text) :
    stringRest (s.flatMap Json.printedChar ++ '"' :: rest) = .ok (s, rest) := by
  induction s with
  | nil =>
      rfl
  | cons c s ih =>
      rw [List.flatMap_cons, List.append_assoc, stringRest_printedChar, ih]
      rfl

theorem string_printed (s : String) (rest : Text) :
    string (s.toList.flatMap Json.printedChar ++ '"' :: rest) =
      .ok (s, rest) := by
  unfold string
  rw [stringRest_printed]
  exact congrArg (fun s => Except.ok (s, rest)) s.ofList_toList

/-!
# Numbers
-/

theorem digitsValue_ofNat (n : Nat) : digitsValue (Text.ofNat n) = n := by
  have hstep : (fun (value : Nat) c => value * 10 + digitValue c) =
      fun value c => 10 * value + (c.toNat - '0'.toNat) := by
    funext value c
    rw [Nat.mul_comm]
    rfl
  unfold digitsValue
  rw [hstep]
  exact Nat.ofDigitChars_ten_toDigits

/-- The text does not go on with a number that ends before it. -/
def EndsNumber (rest : Text) : Prop :=
  forall c, rest.head? = some c ->
    c.isDigit = false ∧ c ≠ '.' ∧ c ≠ 'e' ∧ c ≠ 'E'

theorem numberRest_ofNat (negative : Bool) (n : Nat) {rest : Text}
    (hrest : EndsNumber rest) :
    numberRest negative (Text.ofNat n ++ rest) =
      wholeNumber negative n rest := by
  have hdigits : forall c, c ∈ Text.ofNat n -> c.isDigit = true :=
    fun _ => Text.isDigit_of_mem_ofNat
  have hstop : forall c, rest.head? = some c -> c.isDigit = false :=
    fun c hc => (hrest c hc).1
  unfold numberRest
  dsimp only
  rw [takeWhile_run_append hdigits hstop, dropWhile_run_append hdigits hstop,
    digitsValue_ofNat]
  split
  · rename_i hnil
    exact absurd hnil (Text.ofNat_ne_nil n)
  · rename_i hnil _
    exact absurd hnil (Text.ofNat_ne_nil n)
  · rename_i hzero
    exact absurd hzero (Text.ofNat_ne_zero_cons n _ _)
  · exact absurd rfl (hrest '.' rfl).2.1
  · exact absurd rfl (hrest 'e' rfl).2.2.1
  · exact absurd rfl (hrest 'E' rfl).2.2.2
  · rfl

/-!
# Integers

The bounds of the range are those that a number keeps itself.
-/

theorem wholeNumber_natAbs {n : Int}
    (hn : -0x8000000000000000 ≤ n ∧ n < 0x10000000000000000) (rest : Text) :
    wholeNumber (decide (n < 0)) n.natAbs rest =
      .ok (.integer n hn, rest) := by
  unfold wholeNumber
  by_cases hneg : n < 0
  · have hrange : 0 < n.natAbs ∧ n.natAbs ≤ 0x8000000000000000 := by omega
    have habs : -(n.natAbs : Int) = n := by omega
    rw [decide_eq_true hneg, if_pos rfl, dif_pos hrange]
    simp only [habs]
  · have hrange : n.natAbs < 0x10000000000000000 := by omega
    have habs : (n.natAbs : Int) = n := by omega
    rw [decide_eq_false hneg, if_neg Bool.false_ne_true, dif_pos hrange]
    simp only [habs]

end Reader
end PseudocodeTools
