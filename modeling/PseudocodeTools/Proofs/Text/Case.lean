import Mathlib.Data.List.TakeWhile
import PseudocodeTools.Proofs.Text.Lines
import PseudocodeTools.Text.Blank
import PseudocodeTools.Text.Letter
/-!
# The case of letters

Changing the case of some ASCII letters leaves the lower-case form of a text as
it is.  So whatever is found in every text as in its lower-case form does not
depend on the case of letters.
-/

namespace PseudocodeTools

/-!
# Texts in other cases
-/

/-- An ASCII letter in the other case; any other character as it is. -/
def switchCase (c : Char) : Char :=
  if c.isUpper then c.toLower else c.toUpper

namespace Text

/-- The text with the case of its ASCII letters changed at the chosen places. -/
def switchCaseAt (places : Nat -> Bool) (t : Text) : Text :=
  t.mapIdx fun i c => if places i then switchCase c else c

/-- The text with its ASCII letters in lower case. -/
def toLower (t : Text) : Text :=
  t.map Char.toLower

end Text

theorem forall_ascii {P : Char -> Prop}
    (h : forall n, n < 0x80 -> P (Char.ofNat n)) {c : Char}
    (hc : c.toNat < 0x80) :
    P c := by
  have hchar := h c.toNat hc
  rw [Char.ofNat_toNat] at hchar
  exact hchar

theorem toLower_beyond_ascii {c : Char} (h : ¬ c.toNat < 0x80) :
    c.toLower = c := by
  refine dif_neg ?_
  rintro ⟨_, hle⟩
  exact h ((UInt32.le_iff_toNat_le.mp hle).trans_lt (by decide))

theorem toUpper_beyond_ascii {c : Char} (h : ¬ c.toNat < 0x80) :
    c.toUpper = c := by
  refine dif_neg ?_
  rintro ⟨_, hle⟩
  exact h ((UInt32.le_iff_toNat_le.mp hle).trans_lt (by decide))

theorem toLower_switchCase (c : Char) : (switchCase c).toLower = c.toLower := by
  by_cases hascii : c.toNat < 0x80
  · exact forall_ascii (P := fun c => (switchCase c).toLower = c.toLower)
      (by decide) hascii
  · have hsame : switchCase c = c := by
      unfold switchCase
      rw [toLower_beyond_ascii hascii, toUpper_beyond_ascii hascii, ite_self]
    rw [hsame]

theorem toLower_switchCaseAt (places : Nat -> Bool) (t : Text) :
    (t.switchCaseAt places).toLower = t.toLower := by
  unfold Text.toLower Text.switchCaseAt
  apply List.ext_getElem
  · simp only [List.length_map, List.length_mapIdx]
  · intro i hi hi'
    simp only [List.getElem_map, List.getElem_mapIdx]
    split
    · exact toLower_switchCase _
    · rfl

/-!
# Functions of characters
-/

/-- The function makes no difference between the two cases of a letter. -/
def CaseBlind {α : Type} (f : Char -> α) : Prop :=
  forall c, f c.toLower = f c

theorem caseBlind_of_ascii {α : Type} {f : Char -> α}
    (h : forall n, n < 0x80 -> f (Char.ofNat n).toLower = f (Char.ofNat n)) :
    CaseBlind f := by
  intro c
  by_cases hascii : c.toNat < 0x80
  · exact forall_ascii (P := fun c => f c.toLower = f c) h hascii
  · rw [toLower_beyond_ascii hascii]

theorem caseBlind_utf8Size : CaseBlind Char.utf8Size :=
  caseBlind_of_ascii (by decide)

theorem caseBlind_isBlank : CaseBlind isBlank :=
  caseBlind_of_ascii (by decide)

/-!
# Texts in lower case
-/

theorem Text.toLower_append (s t : Text) :
    Text.toLower (s ++ t) = s.toLower ++ t.toLower :=
  List.map_append

section Lower

variable {P : Char -> Bool}

theorem takeWhile_toLower (hP : CaseBlind P) (t : Text) :
    t.toLower.takeWhile P = Text.toLower (t.takeWhile P) := by
  have hsame : P ∘ Char.toLower = P := funext hP
  rw [Text.toLower, List.takeWhile_map, hsame]
  rfl

theorem dropWhile_toLower (hP : CaseBlind P) (t : Text) :
    t.toLower.dropWhile P = Text.toLower (t.dropWhile P) := by
  have hsame : P ∘ Char.toLower = P := funext hP
  rw [Text.toLower, List.dropWhile_map, hsame]
  rfl

theorem Text.toLower_toLower (t : Text) : Text.toLower t.toLower = t.toLower := by
  have hidem : CaseBlind Char.toLower := caseBlind_of_ascii (by decide)
  unfold Text.toLower
  rw [List.map_map]
  exact List.map_congr_left fun c _ => hidem c

theorem equalIgnoringCase_toLower (t word : Text) :
    Text.equalIgnoringCase t.toLower word = Text.equalIgnoringCase t word :=
  congrArg (· == word.toLower) t.toLower_toLower

theorem startsIgnoringCase_toLower (t word : Text) :
    Text.startsIgnoringCase t.toLower word =
      Text.startsIgnoringCase t word := by
  have htake : t.toLower.take word.length =
      Text.toLower (t.take word.length) := List.map_take.symm
  rw [Text.startsIgnoringCase, htake, equalIgnoringCase_toLower]
  rfl

theorem byteLength_toLower (t : Text) : t.toLower.byteLength = t.byteLength := by
  induction t with
  | nil =>
      rfl
  | cons c t ih =>
      exact congrArg₂ (· + ·) (caseBlind_utf8Size c) ih

theorem trimStart_toLower (t : Text) :
    t.toLower.trimStart = t.trimStart.toLower :=
  dropWhile_toLower caseBlind_isBlank t

theorem lineFeed_notMem_toLower {t : Text} (h : '\n' ∉ t) :
    '\n' ∉ t.toLower := by
  have hfeed : CaseBlind (· = '\n') := caseBlind_of_ascii (by decide)
  intro hmem
  rcases List.mem_map.mp hmem with ⟨c, hc, hlower⟩
  rw [(hfeed c).mp hlower] at hc
  exact h hc

theorem lines_toLower (t : Text) :
    t.toLower.lines = t.lines.map Text.toLower := by
  induction t using lines_induction with
  | last line hline =>
      rw [lines_of_notMem hline, lines_of_notMem (lineFeed_notMem_toLower hline)]
      rfl
  | cons line u hline ih =>
      have hlines := lines_append_lineFeed (lineFeed_notMem_toLower hline)
        (Text.toLower u)
      rw [lines_append_lineFeed hline, List.map_cons, ← ih, ← hlines,
        Text.toLower_append]
      rfl

theorem dropReturn_toLower (line : Text) :
    line.toLower.dropReturn = line.dropReturn.toLower := by
  fun_induction Text.dropReturn line with
  | case1 =>
      rfl
  | case2 =>
      rfl
  | case3 c t hreturn ih =>
      have hcons : Text.toLower (c :: t) = c.toLower :: Text.toLower t := rfl
      rw [hcons, Text.dropReturn.eq_3, ih]
      · rfl
      · intro hc ht
        have hblind : CaseBlind (· = '\r') := caseBlind_of_ascii (by decide)
        exact hreturn ((hblind c).mp hc) (List.map_eq_nil_iff.mp ht)

end Lower

end PseudocodeTools
