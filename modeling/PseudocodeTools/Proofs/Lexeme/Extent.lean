import Mathlib.Data.List.TakeWhile
import PseudocodeTools.Proofs.Lexeme.Language
import PseudocodeTools.Proofs.Text.Letter
import PseudocodeTools.Proofs.Text.Run
/-!
# Extents

The extent of each rule is the length of the longest prefix in its language.
For reserved words this leaves out the words that a symbol blurs.
-/

namespace PseudocodeTools

open Computability

/-!
# Longest prefixes
-/

/-- A word is the longest prefix of a text in a language. -/
structure LongestIn (L : Language Char) (t p : Text) : Prop where
  isPrefix : p <+: t
  mem : p ∈ L
  longest : forall q, q <+: t -> q ∈ L -> q.length ≤ p.length

/-- The length of the longest prefix in a language, if there is one. -/
def Measures (L : Language Char) (t : Text) : Option Nat -> Prop
  | none => forall p, p <+: t -> p ∉ L
  | some n => exists p, LongestIn L t p ∧ p.length = n

/-- Prefixes that all begin alike are measured behind their common front. -/
theorem Measures.append {L L' : Language Char} (front : Text) {t : Text}
    {n? : Option Nat} (h : Measures L' t n?)
    (hmem : forall p, p <+: front ++ t ->
      (p ∈ L ↔ exists q, p = front ++ q ∧ q ∈ L')) :
    Measures L (front ++ t) (n?.map (· + front.length)) := by
  cases n? with
  | none =>
      intro p hp hL
      rcases (hmem p hp).mp hL with ⟨q, rfl, hq⟩
      exact h q ((List.prefix_append_right_inj front).mp hp) hq
  | some n =>
      rcases h with ⟨q, hq, rfl⟩
      have hfront : front ++ q <+: front ++ t :=
        (List.prefix_append_right_inj front).mpr hq.isPrefix
      refine ⟨front ++ q, ⟨hfront, ?_, ?_⟩, ?_⟩
      · exact (hmem _ hfront).mpr ⟨q, rfl, hq.mem⟩
      · intro p hp hL
        rcases (hmem p hp).mp hL with ⟨q', rfl, hq'⟩
        have hbehind := (List.prefix_append_right_inj front).mp hp
        have hlen := hq.longest q' hbehind hq'
        simp only [List.length_append]
        omega
      · rw [List.length_append, Nat.add_comm]

theorem Measures.congr {L L' : Language Char} {t : Text} {n? : Option Nat}
    (h : Measures L' t n?) (hmem : forall p, p <+: t -> (p ∈ L ↔ p ∈ L')) :
    Measures L t n? := by
  have hempty : forall p, p <+: [] ++ t ->
      (p ∈ L ↔ exists q, p = [] ++ q ∧ q ∈ L') := by
    simpa using hmem
  cases n? <;> exact h.append [] hempty

/-!
# Runs of characters
-/

section Run

variable {P : Char -> Bool} {L : Language Char}

theorem isPrefix_takeWhile {p t : Text} (h : p <+: t)
    (hp : forall c, c ∈ p -> P c = true) :
    p <+: t.takeWhile P := by
  rcases h with ⟨rest, rfl⟩
  rw [List.takeWhile_append_of_pos hp]
  exact List.prefix_append p _

theorem measures_run (hL : forall w, w ∈ L ↔ forall c, c ∈ w -> P c = true)
    (t : Text) :
    Measures L t (some (t.takeWhile P).length) := by
  refine ⟨t.takeWhile P, ⟨List.takeWhile_prefix P, ?_, ?_⟩, rfl⟩
  · rw [hL]
    exact fun c => List.mem_takeWhile_imp
  · intro q hq hmem
    exact (isPrefix_takeWhile hq ((hL q).mp hmem)).length_le

theorem measures_nonempty_run
    (hL : forall w, w ∈ L ↔ w ≠ [] ∧ forall c, c ∈ w -> P c = true) (t : Text) :
    Measures L t (if (t.takeWhile P).length = 0 then none
      else some (t.takeWhile P).length) := by
  split
  · rename_i hzero
    intro p hp hmem
    rcases (hL p).mp hmem with ⟨hne, hall⟩
    have hlen := (isPrefix_takeWhile hp hall).length_le
    exact hne (List.eq_nil_of_length_eq_zero (by omega))
  · rename_i hpos
    refine ⟨t.takeWhile P, ⟨List.takeWhile_prefix P, ?_, ?_⟩, rfl⟩
    · rw [hL]
      constructor
      · intro hnil
        exact hpos (congrArg List.length hnil)
      · exact fun c => List.mem_takeWhile_imp
    · intro q hq hmem
      exact (isPrefix_takeWhile hq ((hL q).mp hmem).2).length_le

end Run

/-!
# Operators, comments and numbers
-/

theorem measures_operatorExtent (t : Text) :
    Measures operatorLanguage t (Rule.operatorExtent t) := by
  have h := measures_nonempty_run (P := isOperatorChar)
    (fun w => mem_operatorLanguage_iff) t
  unfold Rule.operatorExtent
  cases hlen : (t.takeWhile isOperatorChar).length with
  | zero =>
      rw [hlen] at h
      exact h
  | succ n =>
      rw [hlen] at h
      exact h

theorem measures_commentExtent (t : Text) :
    Measures commentLanguage t (Rule.commentExtent t) := by
  have hnone : forall t : Text, (forall rest, t ≠ '/' :: '/' :: rest) ->
      Measures commentLanguage t none := by
    intro t hhead p hp hmem
    rcases mem_commentLanguage_iff.mp hmem with ⟨body, rfl, _⟩
    rcases hp with ⟨rest, rfl⟩
    exact hhead (body ++ rest) rfl
  unfold Rule.commentExtent
  split
  · rename_i rest
    have hbody : forall w : Text, w ∈ notLineFeed∗ ↔
        forall c, c ∈ w -> decide (c ≠ '\n') = true := by
      intro w
      simp only [decide_eq_true_eq]
      exact mem_star_oneOf_iff
    refine (measures_run hbody rest).append ['/', '/'] ?_
    intro p hp
    rw [mem_commentLanguage_iff]
    simp only [mem_star_oneOf_iff, notLineFeed]
    rfl
  · rename_i hother
    exact hnone t hother

theorem not_isWordStart_of_isDigit {c : Char} (h : c.isDigit = true) :
    isWordStart c = false := by
  have hrange : 48 ≤ c.toNat ∧ c.toNat ≤ 57 := by
    simpa [Char.isDigit, UInt32.le_iff_toNat_le] using h
  have halpha : c.isAlpha = false := by
    rw [← Bool.not_eq_true, isAlpha_iff]
    omega
  have hunderscore : c ≠ '_' := by
    intro heq
    rw [heq] at hrange
    exact absurd hrange (by decide)
  have hascii : c.toNat < 0x80 := by omega
  simp [isWordStart, isLetter, hascii, halpha, hunderscore]

theorem measures_digitCount (t : Text) :
    Measures (digit * digit∗) t (if Rule.digitCount t = 0 then none
      else some (Rule.digitCount t)) :=
  measures_nonempty_run (fun _ => mem_digits_iff) t

theorem measures_numberExtent (t : Text) :
    Measures numberLanguage t (Rule.numberExtent t) := by
  unfold Rule.numberExtent
  split
  · rename_i rest
    have hmem : forall p, p <+: ['-'] ++ rest ->
        (p ∈ numberLanguage ↔
          exists q, p = ['-'] ++ q ∧ q ∈ digit * digit∗) := by
      intro p hp
      rw [mem_numberLanguage_iff]
      constructor
      · intro h
        rcases h with hdigits | hminus
        · rcases mem_digits_iff.mp hdigits with ⟨hne, hall⟩
          rcases List.prefix_cons_iff.mp hp with rfl | ⟨q, rfl, _⟩
          · exact absurd rfl hne
          · exact absurd (hall '-' List.mem_cons_self) (by decide)
        · exact hminus
      · exact Or.inr
    have h := (measures_digitCount rest).append ['-'] hmem
    by_cases hzero : Rule.digitCount rest = 0
    · rw [if_pos hzero] at h ⊢
      exact h
    · rw [if_neg hzero] at h ⊢
      exact h
  · rename_i hother
    refine (measures_digitCount t).congr ?_
    intro p hp
    rw [mem_numberLanguage_iff]
    constructor
    · intro h
      rcases h with hdigits | ⟨digits, rfl, _⟩
      · exact hdigits
      · rcases hp with ⟨rest, rfl⟩
        exact absurd rfl (hother (digits ++ rest))
    · exact Or.inl

/-!
# Words
-/

theorem measures_letteredExtent (t : Text) :
    Measures letteredLanguage t (Rule.letteredExtent t) := by
  cases t with
  | nil =>
      intro p hp hmem
      rcases mem_letteredLanguage_iff.mp hmem with ⟨c, rest, rfl, _, _⟩
      exact absurd (List.prefix_nil.mp hp) (List.cons_ne_nil c rest)
  | cons c t =>
      simp only [Rule.letteredExtent]
      by_cases hstart : isWordStart c = true
      · rw [if_pos hstart]
        have hrun : forall w : Text,
            w ∈ (oneOf fun c => isWordChar c = true)∗ ↔
              forall d, d ∈ w -> isWordChar d = true := fun _ =>
          mem_star_oneOf_iff
        refine (measures_run hrun t).append [c] ?_
        intro p hp
        rw [mem_letteredLanguage_iff]
        constructor
        · intro h
          rcases h with ⟨d, rest, rfl, _, hrest⟩
          cases (List.cons_prefix_cons.mp hp).1
          exact ⟨rest, rfl, (hrun rest).mpr hrest⟩
        · intro h
          rcases h with ⟨rest, rfl, hrest⟩
          exact ⟨c, rest, rfl, hstart, (hrun rest).mp hrest⟩
      · rw [if_neg hstart]
        intro p hp hmem
        rcases mem_letteredLanguage_iff.mp hmem with ⟨d, rest, rfl, hd, _⟩
        cases (List.cons_prefix_cons.mp hp).1
        exact hstart hd

/-- Digits before a word are all digits that the text begins with. -/
theorem eq_takeWhile_isDigit {digits w t : Text}
    (hhead : digits ++ w <+: t)
    (hdigits : forall c, c ∈ digits -> c.isDigit = true)
    (hw : w ∈ letteredLanguage) :
    digits = t.takeWhile Char.isDigit := by
  rcases hhead with ⟨rest, rfl⟩
  rcases mem_letteredLanguage_iff.mp hw with ⟨c, u, rfl, hc, _⟩
  have hdigit : c.isDigit = false := by
    refine Bool.eq_false_iff.mpr fun h => ?_
    rw [not_isWordStart_of_isDigit h] at hc
    cases hc
  rw [List.append_assoc, List.cons_append]
  refine (takeWhile_run_append hdigits fun d hd => ?_).symm
  cases hd
  exact hdigit

theorem takeWhile_append_drop_digitCount (t : Text) :
    t.takeWhile Char.isDigit ++ t.drop (Rule.digitCount t) = t := by
  have htake : t.takeWhile Char.isDigit = t.take (Rule.digitCount t) :=
    List.prefix_iff_eq_take.mp (List.takeWhile_prefix Char.isDigit)
  rw [htake]
  exact List.take_append_drop _ t

/-- A word in a text stands behind the digits that the text begins with. -/
theorem measures_word_of_digits (front : Text) {t : Text}
    (hword : forall w, w ∈ letteredLanguage ->
      front ++ t.takeWhile Char.isDigit ++ w ∈ wordLanguage)
    (hdigits : forall p, p <+: front ++ t -> p ∈ wordLanguage ->
      exists digits w, p = front ++ (digits ++ w) ∧
        (forall c, c ∈ digits -> c.isDigit = true) ∧ w ∈ letteredLanguage) :
    Measures wordLanguage (front ++ t)
      ((Rule.letteredExtent (t.drop (Rule.digitCount t))).map
        (· + (front ++ t.takeWhile Char.isDigit).length)) := by
  have hsplit : front ++ t =
      front ++ t.takeWhile Char.isDigit ++ t.drop (Rule.digitCount t) := by
    rw [List.append_assoc, takeWhile_append_drop_digitCount]
  rw [hsplit]
  refine (measures_letteredExtent _).append _ ?_
  intro p hp
  rw [← hsplit] at hp
  constructor
  · intro hmem
    rcases hdigits p hp hmem with ⟨digits, w, rfl, hall, hw⟩
    have hbehind : digits ++ w <+: t :=
      (List.prefix_append_right_inj front).mp hp
    rw [← eq_takeWhile_isDigit hbehind hall hw]
    exact ⟨w, (List.append_assoc _ _ _).symm, hw⟩
  · intro h
    rcases h with ⟨w, rfl, hw⟩
    exact hword w hw

theorem not_digits_prefix_minus {digits w t : Text}
    (hdigits : forall c, c ∈ digits -> c.isDigit = true)
    (hw : w ∈ letteredLanguage) :
    ¬ digits ++ w <+: '-' :: t := by
  intro hp
  cases digits with
  | nil =>
      rcases mem_letteredLanguage_iff.mp hw with ⟨c, u, rfl, hc, _⟩
      rw [(List.cons_prefix_cons.mp hp).1] at hc
      exact absurd hc (by decide)
  | cons c digits =>
      have hc := hdigits c List.mem_cons_self
      rw [(List.cons_prefix_cons.mp hp).1] at hc
      exact absurd hc (by decide)

theorem measures_wordExtent (t : Text) :
    Measures wordLanguage t (Rule.wordExtent t) := by
  unfold Rule.wordExtent
  split
  · rename_i rest
    have hminus : forall p, p <+: '-' :: rest -> p ∈ wordLanguage ->
        exists digits w, p = '-' :: (digits ++ w) ∧
          digits ∈ digit * digit∗ ∧ w ∈ letteredLanguage := by
      intro p hp hmem
      rcases mem_wordLanguage_iff.mp hmem with
        ⟨digits, w, hw, ⟨rfl, hdigits⟩ | ⟨rfl, hdigits⟩⟩
      · exact absurd hp
          (not_digits_prefix_minus (mem_star_oneOf_iff.mp hdigits) hw)
      · exact ⟨digits, w, rfl, hdigits, hw⟩
    have hrun := measures_digitCount rest
    by_cases hzero : Rule.digitCount rest = 0
    · rw [if_pos hzero] at hrun ⊢
      intro p hp hmem
      rcases hminus p hp hmem with ⟨digits, w, rfl, hdigits, _⟩
      have hbehind := (List.cons_prefix_cons.mp hp).2
      exact hrun digits ((List.prefix_append digits w).trans hbehind) hdigits
    · rw [if_neg hzero] at hrun ⊢
      refine measures_word_of_digits ['-'] ?_ ?_
      · intro w hw
        have hne : rest.takeWhile Char.isDigit ≠ [] := by
          intro hnil
          exact hzero (congrArg List.length hnil)
        exact mem_wordLanguage_iff.mpr ⟨_, w, hw, Or.inr ⟨rfl,
          mem_digits_iff.mpr ⟨hne, fun c => List.mem_takeWhile_imp⟩⟩⟩
      · intro p hp hmem
        rcases hminus p hp hmem with ⟨digits, w, rfl, hdigits, hw⟩
        exact ⟨digits, w, rfl, (mem_digits_iff.mp hdigits).2, hw⟩
  · rename_i hother
    refine measures_word_of_digits [] ?_ ?_
    · intro w hw
      exact mem_wordLanguage_iff.mpr ⟨_, w, hw, Or.inl ⟨rfl,
        mem_star_oneOf_iff.mpr fun c => List.mem_takeWhile_imp⟩⟩
    · intro p hp hmem
      rcases mem_wordLanguage_iff.mp hmem with
        ⟨digits, w, hw, ⟨rfl, hdigits⟩ | ⟨rfl, _⟩⟩
      · exact ⟨digits, w, rfl, mem_star_oneOf_iff.mp hdigits, hw⟩
      · rcases hp with ⟨rest, rfl⟩
        exact absurd rfl (hother _)

end PseudocodeTools
