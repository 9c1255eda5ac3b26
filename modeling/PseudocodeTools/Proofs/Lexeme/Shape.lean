import PseudocodeTools.Proofs.Lexeme.Munch
import PseudocodeTools.Proofs.Text.Run
/-!
# Shapes of lexemes

The characters of a matched text tell which rules can match it, so no text has
two kinds and no text begins with two segments.
-/

namespace PseudocodeTools

open Computability

/-!
# Shapes
-/

inductive LexemeShape where
  | quoted
  | symbols
  | digits
  | lettered
deriving DecidableEq

def LexemeShape.ofText : Text -> LexemeShape
  | [] => symbols
  | c :: t =>
      if c = '"' ∨ c = '\'' then quoted
      else if c = '/' ∨ (c :: t).all isOperatorChar = true then symbols
      else if (c :: t).all (fun d => d == '-' || d.isDigit) = true then digits
      else lettered

def LexemeShape.ofKind : TokenKind -> LexemeShape
  | .string => quoted
  | .comment | .operator => symbols
  | .number => digits
  | .keyword | .boolean | .identifier | .invalid => lettered

section Characters

variable {c : Char}

theorem not_isDigit_of_isOperatorChar (h : isOperatorChar c = true) :
    c.isDigit = false := by
  simp only [isOperatorChar, List.contains_iff_mem, List.mem_cons,
    List.not_mem_nil, or_false] at h
  rcases h with rfl | rfl | rfl | rfl | rfl | rfl | rfl | rfl | rfl <;> decide

theorem not_isWordStart_of_isOperatorChar (h : isOperatorChar c = true) :
    isWordStart c = false := by
  simp only [isOperatorChar, List.contains_iff_mem, List.mem_cons,
    List.not_mem_nil, or_false] at h
  rcases h with rfl | rfl | rfl | rfl | rfl | rfl | rfl | rfl | rfl <;> decide

end Characters

namespace LexemeShape

variable {p : Text}

theorem ofText_quoted {quote : Char} (hquote : quote = '"' ∨ quote = '\'')
    (h : p ∈ quotedLanguage quote) :
    ofText p = quoted := by
  rcases mem_oneOf_mul_iff.mp h with ⟨_, t, rfl, rfl, _⟩
  exact if_pos hquote

theorem ofText_comment (h : p ∈ commentLanguage) :
    ofText p = symbols := by
  rcases mem_commentLanguage_iff.mp h with ⟨body, rfl, _⟩
  rfl

theorem ofText_operator (h : p ∈ operatorLanguage) :
    ofText p = symbols := by
  rcases mem_operatorLanguage_iff.mp h with ⟨hne, hall⟩
  cases p with
  | nil =>
      rfl
  | cons c t =>
      have hhead := hall c List.mem_cons_self
      have hquote : ¬ (c = '"' ∨ c = '\'') := by
        intro hc
        rcases hc with rfl | rfl <;> exact absurd hhead (by decide)
      have hsymbols : (c :: t).all isOperatorChar = true :=
        List.all_eq_true.mpr hall
      rw [ofText, if_neg hquote, if_pos (Or.inr hsymbols)]

/-- A text that is led by a minus sign, a digit or the start of a word, and has
a digit or the start of a word in it, is no quoted text and no run of
symbols. -/
theorem ofText_of_lead {c : Char} {t : Text}
    (hlead : c = '-' ∨ c.isDigit = true ∨ isWordStart c = true) {d : Char}
    (hd : d ∈ c :: t) (hmark : d.isDigit = true ∨ isWordStart d = true) :
    ofText (c :: t) =
      if (c :: t).all (fun d => d == '-' || d.isDigit) = true then digits
      else lettered := by
  have hnot : forall e, e = '"' ∨ e = '\'' ∨ e = '/' -> c ≠ e := by
    intro e he heq
    rw [heq] at hlead
    rcases he with rfl | rfl | rfl <;> exact absurd hlead (by decide)
  have hquote : ¬ (c = '"' ∨ c = '\'') := by
    intro hc
    rcases hc with heq | heq
    · exact hnot _ (Or.inl rfl) heq
    · exact hnot _ (Or.inr (Or.inl rfl)) heq
  have hsymbols : ¬ (c = '/' ∨ (c :: t).all isOperatorChar = true) := by
    intro hc
    rcases hc with heq | hall
    · exact hnot _ (Or.inr (Or.inr rfl)) heq
    · have hoperator := List.all_eq_true.mp hall d hd
      rcases hmark with hdigit | hstart
      · rw [not_isDigit_of_isOperatorChar hoperator] at hdigit
        cases hdigit
      · rw [not_isWordStart_of_isOperatorChar hoperator] at hstart
        cases hstart
  rw [ofText, if_neg hquote, if_neg hsymbols]

theorem ofText_number (h : p ∈ numberLanguage) :
    ofText p = digits := by
  rcases mem_numberLanguage_iff.mp h with hdigits | ⟨run, rfl, hdigits⟩
  · rcases mem_digits_iff.mp hdigits with ⟨hne, hall⟩
    cases p with
    | nil =>
        exact absurd rfl hne
    | cons c t =>
        have hc := hall c List.mem_cons_self
        rw [ofText_of_lead (Or.inr (Or.inl hc)) List.mem_cons_self (Or.inl hc)]
        refine if_pos (List.all_eq_true.mpr ?_)
        intro d hd
        rw [hall d hd, Bool.or_true]
  · rcases mem_digits_iff.mp hdigits with ⟨hne, hall⟩
    rcases List.exists_mem_of_ne_nil run hne with ⟨d, hd⟩
    rw [ofText_of_lead (Or.inl rfl) (List.mem_cons_of_mem '-' hd)
      (Or.inl (hall d hd))]
    refine if_pos (List.all_eq_true.mpr ?_)
    intro e he
    rcases List.mem_cons.mp he with rfl | hrun
    · rfl
    · rw [hall e hrun, Bool.or_true]

theorem not_all_of_isWordStart {c : Char} {t : Text} (hc : c ∈ t)
    (h : isWordStart c = true) :
    ¬ t.all (fun d => d == '-' || d.isDigit) = true := by
  intro hall
  have hin := List.all_eq_true.mp hall c hc
  rw [Bool.or_eq_true, beq_iff_eq] at hin
  rcases hin with rfl | hdigit
  · exact absurd h (by decide)
  · rw [not_isWordStart_of_isDigit hdigit] at h
    cases h

theorem ofText_word (h : p ∈ wordLanguage) :
    ofText p = lettered := by
  rcases mem_wordLanguage_iff.mp h with
    ⟨run, w, hw, ⟨rfl, hdigits⟩ | ⟨rfl, _⟩⟩
  · rcases mem_letteredLanguage_iff.mp hw with ⟨e, u, rfl, he, _⟩
    have hin : e ∈ run ++ e :: u := List.mem_append_right run List.mem_cons_self
    cases run with
    | nil =>
        rw [List.nil_append] at hin ⊢
        rw [ofText_of_lead (Or.inr (Or.inr he)) hin (Or.inr he)]
        exact if_neg (not_all_of_isWordStart hin he)
    | cons c t =>
        have hc := mem_star_oneOf_iff.mp hdigits c List.mem_cons_self
        rw [List.cons_append] at hin ⊢
        rw [ofText_of_lead (Or.inr (Or.inl hc)) hin (Or.inr he)]
        exact if_neg (not_all_of_isWordStart hin he)
  · rcases mem_letteredLanguage_iff.mp hw with ⟨e, u, rfl, he, _⟩
    have hin : e ∈ '-' :: (run ++ e :: u) :=
      List.mem_cons_of_mem '-' (List.mem_append_right run List.mem_cons_self)
    rw [ofText_of_lead (Or.inl rfl) hin (Or.inr he)]
    exact if_neg (not_all_of_isWordStart hin he)

theorem ofText_of_hasKind {after : Text} {kind : TokenKind}
    (h : HasKind p after kind) :
    ofText p = ofKind kind := by
  cases h with
  | keyword matched clear =>
      exact ofText_word
        (mem_wordLanguage_of_lettered (mem_letteredLanguage_of_keyword matched))
  | boolean matched clear =>
      exact ofText_word
        (mem_wordLanguage_of_lettered (mem_letteredLanguage_of_boolean matched))
  | number matched =>
      exact ofText_number matched
  | doubleQuoted matched =>
      exact ofText_quoted (Or.inl rfl) matched
  | singleQuoted matched =>
      exact ofText_quoted (Or.inr rfl) matched
  | comment matched =>
      exact ofText_comment matched
  | operator matched uncommented =>
      exact ofText_operator matched
  | identifier matched unreserved wellFormed =>
      exact ofText_word matched
  | invalid matched unreserved malformed =>
      exact ofText_word matched

end LexemeShape

/-!
# One kind, one segment
-/

theorem not_mem_both_reserved {p : Text}
    (hkeyword : p ∈ reservedLanguage keywords) :
    p ∉ reservedLanguage booleanWords := by
  intro hboolean
  rcases hkeyword with ⟨word, hword, hequal⟩
  rcases hboolean with ⟨word', hword', hequal'⟩
  have hmap : word.map Char.toLower = word'.map Char.toLower :=
    (beq_iff_eq.mp hequal).symm.trans (beq_iff_eq.mp hequal')
  have hdiffer : forall w, w ∈ keywords -> forall w', w' ∈ booleanWords ->
      w.map Char.toLower ≠ w'.map Char.toLower := by
    decide
  exact hdiffer word hword word' hword' hmap

theorem HasKind.unique {p after : Text} {kind kind' : TokenKind}
    (h : HasKind p after kind) (h' : HasKind p after kind') :
    kind = kind' := by
  have hshape : LexemeShape.ofKind kind = LexemeShape.ofKind kind' :=
    (LexemeShape.ofText_of_hasKind h).symm.trans
      (LexemeShape.ofText_of_hasKind h')
  cases h with
  | keyword matched clear =>
      cases h' with
      | keyword => rfl
      | boolean matched' clear' =>
          exact absurd matched' (not_mem_both_reserved matched)
      | identifier _ unreserved | invalid _ unreserved =>
          exact absurd (unreserved (Or.inl matched)) clear
      | number | doubleQuoted | singleQuoted | comment | operator =>
          cases hshape
  | boolean matched clear =>
      cases h' with
      | boolean => rfl
      | keyword matched' clear' =>
          exact absurd matched (not_mem_both_reserved matched')
      | identifier _ unreserved | invalid _ unreserved =>
          exact absurd (unreserved (Or.inr matched)) clear
      | number | doubleQuoted | singleQuoted | comment | operator =>
          cases hshape
  | number matched =>
      cases h' <;> first | rfl | cases hshape
  | doubleQuoted matched =>
      cases h' <;> first | rfl | cases hshape
  | singleQuoted matched =>
      cases h' <;> first | rfl | cases hshape
  | comment matched =>
      cases h' with
      | comment => rfl
      | operator _ uncommented =>
          exact absurd matched uncommented
      | _ => cases hshape
  | operator matched uncommented =>
      cases h' with
      | operator => rfl
      | comment matched' =>
          exact absurd matched' uncommented
      | _ => cases hshape
  | identifier matched unreserved wellFormed =>
      cases h' with
      | identifier => rfl
      | invalid _ _ malformed =>
          exact absurd wellFormed malformed
      | keyword matched' clear =>
          exact absurd (unreserved (Or.inl matched')) clear
      | boolean matched' clear =>
          exact absurd (unreserved (Or.inr matched')) clear
      | _ => cases hshape
  | invalid matched unreserved malformed =>
      cases h' with
      | invalid => rfl
      | identifier _ _ wellFormed =>
          exact absurd wellFormed malformed
      | keyword matched' clear =>
          exact absurd (unreserved (Or.inl matched')) clear
      | boolean matched' clear =>
          exact absurd (unreserved (Or.inr matched')) clear
      | _ => cases hshape

theorem isDigit_head?_of_stop {after : Text}
    (hstop : forall c rest, after = c :: rest -> c.isDigit = false) :
    forall c, after.head? = some c -> c.isDigit = false := by
  intro c hhead
  rcases List.head?_eq_some_iff.mp hhead with ⟨rest, hafter⟩
  exact hstop c rest hafter

theorem not_fraction_of_stop {digits after : Text}
    (hdigits : digits ∈ digit * digit∗)
    (hstop : forall c rest, '.' :: (digits ++ after) = '.' :: c :: rest ->
      c.isDigit = false) :
    False := by
  rcases mem_digits_iff.mp hdigits with ⟨hne, hall⟩
  cases digits with
  | nil =>
      exact hne rfl
  | cons d rest =>
      have hd := hall d List.mem_cons_self
      rw [hstop d (rest ++ after) rfl] at hd
      cases hd

theorem GoesOn.unique {kind : TokenKind} {tail after tail' after' : Text}
    (h : GoesOn kind tail after) (h' : GoesOn kind tail' after')
    (heq : tail ++ after = tail' ++ after') :
    tail = tail' := by
  cases h with
  | @fraction digits _ matched stop =>
      cases h' with
      | @fraction digits' _ matched' stop' =>
          have hrest : digits ++ after = digits' ++ after' :=
            (List.cons.inj heq).2
          have hdigits := (run_append_inj (mem_digits_iff.mp matched).2
            (mem_digits_iff.mp matched').2 (isDigit_head?_of_stop stop)
            (isDigit_head?_of_stop stop') hrest).1
          rw [hdigits]
      | integer stop' =>
          rw [List.nil_append] at heq
          rw [← heq] at stop'
          exact (not_fraction_of_stop matched stop').elim
      | other hkind =>
          exact absurd rfl hkind
  | integer stop =>
      cases h' with
      | fraction matched' stop' =>
          rw [List.nil_append] at heq
          rw [heq] at stop
          exact (not_fraction_of_stop matched' stop).elim
      | integer => rfl
      | other hkind => rfl
  | other hkind =>
      cases h' with
      | fraction =>
          exact absurd rfl hkind
      | integer => rfl
      | other => rfl

theorem LongestIn.unique {L : Language Char} {t p p' : Text}
    (h : LongestIn L t p) (h' : LongestIn L t p') :
    p = p' := by
  have hlen : p.length = p'.length :=
    Nat.le_antisymm (h'.longest p h.isPrefix h.mem)
      (h.longest p' h'.isPrefix h'.mem)
  rw [List.prefix_iff_eq_take.mp h.isPrefix,
    List.prefix_iff_eq_take.mp h'.isPrefix, hlen]

theorem Munches.unique {t s s' : Text} {kind? kind?' : Option TokenKind}
    (h : Munches t kind? s) (h' : Munches t kind?' s') :
    kind? = kind?' ∧ s = s' := by
  cases h with
  | @matched p tail after kind split longest hasKind goesOn =>
      cases h' with
      | @matched p' tail' after' kind' split' longest' hasKind' goesOn' =>
          have hp := longest.unique longest'
          subst hp
          have hrest : tail ++ after = tail' ++ after' :=
            List.append_cancel_left (split.trans split'.symm)
          rw [hrest] at hasKind
          have hkind := hasKind.unique hasKind'
          subst hkind
          rw [goesOn.unique goesOn' hrest]
          exact ⟨rfl, rfl⟩
      | plain _ unmatched =>
          exact absurd longest.mem (unmatched p longest.isPrefix)
  | @plain c rest split unmatched =>
      cases h' with
      | @matched p _ _ _ _ longest _ _ =>
          exact absurd longest.mem (unmatched p longest.isPrefix)
      | plain split' =>
          cases split.trans split'.symm
          exact ⟨rfl, rfl⟩

end PseudocodeTools
