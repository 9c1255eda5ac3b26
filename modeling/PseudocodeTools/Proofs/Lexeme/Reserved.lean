import PseudocodeTools.Proofs.Lexeme.Language
import PseudocodeTools.Proofs.Text.Letter
/-!
# Reserved words

A reserved word is found at the head of a text unless a symbol blurs it.  Its
letters are those of a word, so the word rule matches it as well.
-/

namespace PseudocodeTools

/-- The text begins with a symbol beyond ASCII that shares its first byte with
some letter. -/
def Blurs (t : Text) : Prop :=
  exists c rest, t = c :: rest ∧ 0x80 ≤ c.toNat ∧ isLetter c = false ∧
    exists d, isLetter d = true ∧ firstByte d = firstByte c

theorem blursWord_iff {t : Text} : Rule.blursWord t = true ↔ Blurs t := by
  cases t with
  | nil =>
      constructor
      · intro h
        cases h
      · intro h
        rcases h with ⟨c, rest, heq, _⟩
        cases heq
  | cons c rest =>
      simp only [Rule.blursWord, Bool.and_eq_true, decide_eq_true_eq,
        Bool.not_eq_true']
      constructor
      · intro h
        rcases h with ⟨⟨hascii, hletter⟩, hstarts⟩
        exact ⟨c, rest, rfl, hascii, hletter,
          (startsLikeLetter_iff hascii).mp hstarts⟩
      · intro h
        rcases h with ⟨_, _, heq, hascii, hletter, hstarts⟩
        cases heq
        exact ⟨⟨hascii, hletter⟩, (startsLikeLetter_iff hascii).mpr hstarts⟩

/-!
# Extents
-/

section Extent

variable {words : List Text} {t : Text}

theorem length_of_equalIgnoringCase {s word : Text}
    (h : Text.equalIgnoringCase s word = true) :
    s.length = word.length := by
  have hlen := congrArg List.length (beq_iff_eq.mp h)
  rw [List.length_map, List.length_map] at hlen
  exact hlen

theorem reservedExtent_eq_some {n : Nat}
    (h : Rule.reservedExtent words t = some n) :
    n ≤ t.length ∧ t.take n ∈ reservedLanguage words ∧ ¬ Blurs (t.drop n) := by
  unfold Rule.reservedExtent at h
  have hmem := (List.max?_eq_some_iff.mp h).1
  rcases List.mem_map.mp hmem with ⟨word, hword, rfl⟩
  rcases List.mem_filter.mp hword with ⟨hin, hkeep⟩
  simp only [Bool.and_eq_true, Bool.not_eq_true', Bool.eq_false_iff,
    ne_eq, blursWord_iff] at hkeep
  have hlen := length_of_equalIgnoringCase hkeep.1
  rw [List.length_take] at hlen
  exact ⟨by omega, ⟨word, hin, hkeep.1⟩, hkeep.2⟩

theorem le_reservedExtent {p after : Text} (hp : p ∈ reservedLanguage words)
    (hclear : ¬ Blurs after) :
    exists n, Rule.reservedExtent words (p ++ after) = some n ∧
      p.length ≤ n := by
  rcases hp with ⟨word, hword, hequal⟩
  have hlen := length_of_equalIgnoringCase hequal
  have hkeep : (Text.startsIgnoringCase (p ++ after) word &&
      !Rule.blursWord ((p ++ after).drop word.length)) = true := by
    rw [Text.startsIgnoringCase, ← hlen, List.take_left, List.drop_left, hequal]
    simpa [blursWord_iff, ← Bool.not_eq_true] using hclear
  have hmem : p.length ∈ (words.filter fun w =>
      Text.startsIgnoringCase (p ++ after) w &&
        !Rule.blursWord ((p ++ after).drop w.length)).map List.length := by
    rw [hlen]
    exact List.mem_map_of_mem (List.mem_filter.mpr ⟨hword, hkeep⟩)
  unfold Rule.reservedExtent
  dsimp only
  exact ⟨_, (Option.some_get (List.isSome_max?_of_mem hmem)).symm,
    List.le_max?_get_of_mem hmem⟩

end Extent

/-!
# Reserved words as words
-/

theorem isWordStart_of_isAlpha {c : Char} (h : c.isAlpha = true) :
    isWordStart c = true := by
  have hascii : c.toNat < 0x80 := by
    have hrange := isAlpha_iff.mp h
    omega
  simp [isWordStart, isLetter, hascii, h]

/-- Every reserved word is a nonempty run of ASCII letters. -/
def allAlphabetic (words : List Text) : Bool :=
  words.all fun word => !word.isEmpty && word.all fun c => c.toLower.isAlpha

theorem allAlphabetic_iff {words : List Text} :
    allAlphabetic words = true ↔
      forall word, word ∈ words ->
        word ≠ [] ∧ forall c, c ∈ word -> c.toLower.isAlpha = true := by
  simp [allAlphabetic]

theorem isAlpha_of_reserved {words : List Text}
    (hwords : allAlphabetic words = true)
    {p : Text} (hp : p ∈ reservedLanguage words) :
    p ≠ [] ∧ forall c, c ∈ p -> c.isAlpha = true := by
  rcases hp with ⟨word, hword, hequal⟩
  rcases allAlphabetic_iff.mp hwords word hword with ⟨hne, halpha⟩
  have hmap : p.map Char.toLower = word.map Char.toLower := beq_iff_eq.mp hequal
  constructor
  · intro hnil
    rw [hnil] at hmap
    exact hne (List.map_eq_nil_iff.mp hmap.symm)
  · intro c hc
    have hlower : c.toLower ∈ word.map Char.toLower := by
      rw [← hmap]
      exact List.mem_map_of_mem hc
    rcases List.mem_map.mp hlower with ⟨d, hd, heq⟩
    have hd' := halpha d hd
    rw [heq] at hd'
    exact isAlpha_of_isAlpha_toLower hd'

theorem mem_letteredLanguage_of_reserved {words : List Text}
    (hwords : allAlphabetic words = true)
    {p : Text} (hp : p ∈ reservedLanguage words) :
    p ∈ letteredLanguage := by
  rcases isAlpha_of_reserved hwords hp with ⟨hne, halpha⟩
  have hall : forall c, c ∈ p -> isWordStart c = true := fun c hc =>
    isWordStart_of_isAlpha (halpha c hc)
  cases p with
  | nil =>
      exact absurd rfl hne
  | cons c t =>
      refine mem_letteredLanguage_iff.mpr
        ⟨c, t, rfl, hall c List.mem_cons_self, ?_⟩
      intro d hd
      simp [isWordChar, hall d (List.mem_cons_of_mem c hd)]

theorem mem_letteredLanguage_of_keyword {p : Text}
    (hp : p ∈ reservedLanguage keywords) :
    p ∈ letteredLanguage :=
  mem_letteredLanguage_of_reserved rfl hp

theorem mem_letteredLanguage_of_boolean {p : Text}
    (hp : p ∈ reservedLanguage booleanWords) :
    p ∈ letteredLanguage :=
  mem_letteredLanguage_of_reserved rfl hp

end PseudocodeTools
