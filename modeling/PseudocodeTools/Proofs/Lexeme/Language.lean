import Mathlib.Computability.Language
import PseudocodeTools.Lexeme
/-!
# Languages of lexemes

The rules of the token grammar as regular languages, with their members spelled
out for later use.
-/

namespace PseudocodeTools

open Computability

/-!
# Characters
-/

/-- The words of one character with the property. -/
def oneOf (P : Char -> Prop) : Language Char :=
  fun w => exists c, P c ∧ w = [c]

def character (c : Char) : Language Char :=
  oneOf (· = c)

def digit : Language Char :=
  oneOf (·.isDigit = true)

def wordStart : Language Char :=
  oneOf fun c => c = '_' ∨ isLetter c = true

def wordChar : Language Char :=
  oneOf fun c => c = '_' ∨ isLetter c = true ∨ c.isDigit = true

def operatorChar : Language Char :=
  oneOf (· ∈ ['+', '-', '*', '/', '=', '%', '<', '>', '!'])

def notLineFeed : Language Char :=
  oneOf (· ≠ '\n')

/-!
# Rules
-/

/-- The given words, in any case of their ASCII letters. -/
def reservedLanguage (words : List Text) : Language Char :=
  fun w => exists word, word ∈ words ∧ Text.equalIgnoringCase w word = true

def numberLanguage : Language Char :=
  (1 + character '-') * (digit * digit∗)

/-- One character between quotes, or one after a backslash. -/
def quotedItem (quote : Char) : Language Char :=
  oneOf (fun c => c ≠ quote ∧ c ≠ '\\' ∧ c ≠ '\n') +
    character '\\' * notLineFeed

def quotedLanguage (quote : Char) : Language Char :=
  character quote * ((quotedItem quote)∗ * character quote)

def commentLanguage : Language Char :=
  character '/' * (character '/' * notLineFeed∗)

def operatorLanguage : Language Char :=
  operatorChar * operatorChar∗

def wordLanguage : Language Char :=
  (character '-' * (digit * digit∗) + digit∗) * (wordStart * wordChar∗)

def identifierLanguage : Language Char :=
  oneOf (fun c => c.isAlpha = true ∨ c = '_') *
    (oneOf fun c => c.isAlphanum = true ∨ c = '_')∗

def Rule.language : Rule -> Language Char
  | keyword => reservedLanguage keywords
  | boolean => reservedLanguage booleanWords
  | number => numberLanguage
  | quoted quote => quotedLanguage quote
  | comment => commentLanguage
  | operator => operatorLanguage
  | word => wordLanguage

/-!
# Members
-/

section Member

variable {P Q : Char -> Prop} {w : Text}

theorem mem_oneOf_mul_iff {L : Language Char} :
    w ∈ oneOf P * L ↔ exists c t, w = c :: t ∧ P c ∧ t ∈ L := by
  rw [Language.mem_mul]
  constructor
  · intro h
    rcases h with ⟨_, ⟨c, hc, rfl⟩, t, ht, rfl⟩
    exact ⟨c, t, rfl, hc, ht⟩
  · intro h
    rcases h with ⟨c, t, rfl, hc, ht⟩
    exact ⟨[c], ⟨c, hc, rfl⟩, t, ht, rfl⟩

theorem mem_star_oneOf_iff : w ∈ (oneOf P)∗ ↔ forall c, c ∈ w -> P c := by
  rw [Language.mem_kstar]
  constructor
  · intro h
    rcases h with ⟨pieces, rfl, hpieces⟩
    intro c hc
    rcases List.mem_flatten.mp hc with ⟨piece, hpiece, hmem⟩
    rcases hpieces piece hpiece with ⟨d, hd, rfl⟩
    rw [List.mem_singleton.mp hmem]
    exact hd
  · intro h
    refine ⟨w.map fun c => [c], ?_, ?_⟩
    · exact (List.flatMap_singleton' w).symm
    · intro piece hpiece
      rcases List.mem_map.mp hpiece with ⟨c, hc, rfl⟩
      exact ⟨c, h c hc, rfl⟩

theorem mem_plus_oneOf_iff :
    w ∈ oneOf P * (oneOf P)∗ ↔ w ≠ [] ∧ forall c, c ∈ w -> P c := by
  rw [mem_oneOf_mul_iff]
  cases w with
  | nil =>
      simp
  | cons c t =>
      simp [mem_star_oneOf_iff]

end Member

theorem mem_digits_iff {w : Text} :
    w ∈ digit * digit∗ ↔ w ≠ [] ∧ forall c, c ∈ w -> c.isDigit = true :=
  mem_plus_oneOf_iff

theorem mem_operatorLanguage_iff {w : Text} :
    w ∈ operatorLanguage ↔
      w ≠ [] ∧ forall c, c ∈ w -> isOperatorChar c = true := by
  have h : w ∈ operatorLanguage ↔ w ≠ [] ∧ forall c, c ∈ w ->
      c ∈ ['+', '-', '*', '/', '=', '%', '<', '>', '!'] := mem_plus_oneOf_iff
  rw [h]
  simp [isOperatorChar]

theorem mem_commentLanguage_iff {w : Text} :
    w ∈ commentLanguage ↔
      exists body, w = '/' :: '/' :: body ∧ forall c, c ∈ body -> c ≠ '\n' := by
  unfold commentLanguage character notLineFeed
  simp only [mem_oneOf_mul_iff, mem_star_oneOf_iff]
  constructor
  · intro h
    rcases h with ⟨_, _, rfl, rfl, _, body, rfl, rfl, hbody⟩
    exact ⟨body, rfl, hbody⟩
  · intro h
    rcases h with ⟨body, rfl, hbody⟩
    exact ⟨_, _, rfl, rfl, _, body, rfl, rfl, hbody⟩

theorem mem_numberLanguage_iff {w : Text} :
    w ∈ numberLanguage ↔
      w ∈ digit * digit∗ ∨ exists digits, w = '-' :: digits ∧
        digits ∈ digit * digit∗ := by
  unfold numberLanguage character
  rw [add_mul, one_mul, Language.mem_add, mem_oneOf_mul_iff]
  simp

theorem mem_identifierLanguage_iff {w : Text} :
    w ∈ identifierLanguage ↔ isIdentifier w = true := by
  unfold identifierLanguage
  rw [mem_oneOf_mul_iff]
  cases w with
  | nil =>
      simp [isIdentifier]
  | cons c t =>
      simp [mem_star_oneOf_iff, isIdentifier, isIdentifierStart,
        isIdentifierChar]

/-- A word without the digits before it. -/
def letteredLanguage : Language Char :=
  wordStart * wordChar∗

theorem mem_letteredLanguage_iff {w : Text} :
    w ∈ letteredLanguage ↔
      exists c t, w = c :: t ∧ isWordStart c = true ∧
        forall d, d ∈ t -> isWordChar d = true := by
  unfold letteredLanguage wordStart wordChar
  simp [mem_oneOf_mul_iff, mem_star_oneOf_iff, isWordStart, isWordChar,
    or_assoc]

theorem mem_wordLanguage_iff {w : Text} :
    w ∈ wordLanguage ↔
      exists digits t, t ∈ letteredLanguage ∧
        ((w = digits ++ t ∧ digits ∈ digit∗) ∨
          (w = '-' :: (digits ++ t) ∧ digits ∈ digit * digit∗)) := by
  have hsplit : wordLanguage =
      (character '-' * (digit * digit∗) + digit∗) * letteredLanguage := rfl
  rw [hsplit, Language.mem_mul]
  constructor
  · intro h
    rcases h with ⟨lead, hlead, t, ht, rfl⟩
    rcases (Language.mem_add _ _ _).mp hlead with hminus | hdigits
    · rcases mem_oneOf_mul_iff.mp hminus with ⟨_, digits, rfl, rfl, hdigits⟩
      exact ⟨digits, t, ht, Or.inr ⟨rfl, hdigits⟩⟩
    · exact ⟨lead, t, ht, Or.inl ⟨rfl, hdigits⟩⟩
  · intro h
    rcases h with ⟨digits, t, ht, ⟨rfl, hdigits⟩ | ⟨rfl, hdigits⟩⟩
    · exact ⟨digits, Or.inr hdigits, t, ht, rfl⟩
    · refine ⟨'-' :: digits, Or.inl ?_, t, ht, rfl⟩
      exact mem_oneOf_mul_iff.mpr ⟨'-', digits, rfl, rfl, hdigits⟩

end PseudocodeTools
