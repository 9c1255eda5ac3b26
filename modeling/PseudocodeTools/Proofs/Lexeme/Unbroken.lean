import PseudocodeTools.Proofs.Lexeme.Munch
import PseudocodeTools.Proofs.Text.Lines
/-!
# Lexemes within a line

No rule matches the empty text or a text with a line feed in it.  So every
segment makes progress, and only a plain one can be a line feed.
-/

namespace PseudocodeTools

open Computability

/-- A text that is not empty and has no line feed in it. -/
def Unbroken (p : Text) : Prop :=
  p ≠ [] ∧ '\n' ∉ p

theorem Unbroken.of_forall {P : Char -> Prop} {p : Text}
    (hfeed : ¬ P '\n') (hne : p ≠ []) (hall : forall c, c ∈ p -> P c) :
    Unbroken p :=
  ⟨hne, fun hmem => hfeed (hall '\n' hmem)⟩

theorem Unbroken.cons {c : Char} {p : Text} (hc : c ≠ '\n')
    (hp : '\n' ∉ p) :
    Unbroken (c :: p) := by
  refine ⟨List.cons_ne_nil c p, ?_⟩
  intro hmem
  rcases List.mem_cons.mp hmem with heq | hrest
  · exact hc heq.symm
  · exact hp hrest

/-!
# Rules
-/

section Rules

variable {p : Text}

theorem unbroken_of_digits (h : p ∈ digit * digit∗) : Unbroken p := by
  rcases mem_digits_iff.mp h with ⟨hne, hall⟩
  exact .of_forall (by decide) hne hall

theorem unbroken_of_lettered (h : p ∈ letteredLanguage) : Unbroken p := by
  rcases mem_letteredLanguage_iff.mp h with ⟨c, t, rfl, hc, ht⟩
  refine .cons ?_ ?_
  · intro heq
    rw [heq] at hc
    exact absurd hc (by decide)
  · intro hmem
    exact absurd (ht '\n' hmem) (by decide)

theorem unbroken_of_number (h : p ∈ numberLanguage) : Unbroken p := by
  rcases mem_numberLanguage_iff.mp h with hdigits | ⟨run, rfl, hdigits⟩
  · exact unbroken_of_digits hdigits
  · exact .cons (by decide) (unbroken_of_digits hdigits).2

theorem unbroken_of_word (h : p ∈ wordLanguage) : Unbroken p := by
  rcases mem_wordLanguage_iff.mp h with
    ⟨run, t, ht, ⟨rfl, hdigits⟩ | ⟨rfl, hdigits⟩⟩
  · rcases unbroken_of_lettered ht with ⟨hne, hfeed⟩
    have hrun : '\n' ∉ run := fun hmem =>
      absurd (mem_star_oneOf_iff.mp hdigits '\n' hmem) (by decide)
    exact ⟨fun hnil => hne (List.append_eq_nil_iff.mp hnil).2,
      lineFeed_notMem_append hrun hfeed⟩
  · exact .cons (by decide) (lineFeed_notMem_append
      (unbroken_of_digits hdigits).2 (unbroken_of_lettered ht).2)

theorem unbroken_of_comment (h : p ∈ commentLanguage) : Unbroken p := by
  rcases mem_commentLanguage_iff.mp h with ⟨body, rfl, hbody⟩
  have hfeed : '\n' ∉ body := fun hmem => hbody '\n' hmem rfl
  exact .cons (by decide) (Unbroken.cons (by decide) hfeed).2

theorem unbroken_of_operator (h : p ∈ operatorLanguage) : Unbroken p := by
  rcases mem_operatorLanguage_iff.mp h with ⟨hne, hall⟩
  exact .of_forall (by decide) hne hall

theorem unbroken_of_closing {quote : Char} (hquote : quote ≠ '\n')
    (h : p ∈ closingLanguage quote) : Unbroken p := by
  induction hlen : p.length using Nat.strongRecOn generalizing p with
  | ind n ih =>
      rcases mem_closingLanguage_iff.mp h with
        rfl | ⟨c, t, rfl, ⟨_, _, hfeed⟩, ht⟩ | ⟨c, t, rfl, hfeed, ht⟩
      · exact .cons hquote (List.not_mem_nil)
      · rw [List.length_cons] at hlen
        exact .cons hfeed (ih t.length (by omega) ht rfl).2
      · rw [List.length_cons, List.length_cons] at hlen
        have hrest := (ih t.length (by omega) ht rfl).2
        exact .cons (by decide) (Unbroken.cons hfeed hrest).2

theorem unbroken_of_quoted {quote : Char} (hquote : quote ≠ '\n')
    (h : p ∈ quotedLanguage quote) : Unbroken p := by
  rcases mem_oneOf_mul_iff.mp h with ⟨_, t, rfl, rfl, ht⟩
  exact .cons hquote (unbroken_of_closing hquote ht).2

theorem unbroken_of_rule {rule : Rule} (hrule : rule ∈ Rule.all)
    (h : p ∈ rule.language) : Unbroken p := by
  cases rule with
  | keyword =>
      exact unbroken_of_lettered (mem_letteredLanguage_of_keyword h)
  | boolean =>
      exact unbroken_of_lettered (mem_letteredLanguage_of_boolean h)
  | number =>
      exact unbroken_of_number h
  | quoted quote =>
      rcases Rule.quote_of_mem_all hrule with rfl | rfl
      · exact unbroken_of_quoted (by decide) h
      · exact unbroken_of_quoted (by decide) h
  | comment =>
      exact unbroken_of_comment h
  | operator =>
      exact unbroken_of_operator h
  | word =>
      exact unbroken_of_word h

end Rules

/-!
# Segments that rules call for
-/

section Segment

variable {t s : Text}

theorem GoesOn.lineFeed_notMem {kind : TokenKind} {tail after : Text}
    (h : GoesOn kind tail after) :
    '\n' ∉ tail := by
  cases h with
  | fraction matched stop =>
      exact (Unbroken.cons (by decide) (unbroken_of_digits matched).2).2
  | integer stop =>
      exact List.not_mem_nil
  | other hkind =>
      exact List.not_mem_nil

theorem Munches.unbroken {kind : TokenKind} (h : Munches t (some kind) s) :
    Unbroken s := by
  cases h with
  | matched split longest hasKind goesOn =>
      rcases mem_tokenLanguage_iff.mp longest.mem with ⟨rule, hrule, hmem⟩
      rcases unbroken_of_rule hrule hmem with ⟨hne, hfeed⟩
      exact ⟨fun hnil => hne (List.append_eq_nil_iff.mp hnil).1,
        lineFeed_notMem_append hfeed goesOn.lineFeed_notMem⟩

theorem Munches.exists_eq_singleton (h : Munches t none s) :
    exists c, s = [c] := by
  cases h with
  | plain split unmatched =>
      exact ⟨_, rfl⟩

theorem Munches.text_ne_nil {kind? : Option TokenKind}
    (h : Munches t kind? s) :
    s ≠ [] := by
  cases kind? with
  | none =>
      rcases h.exists_eq_singleton with ⟨c, rfl⟩
      exact List.cons_ne_nil c []
  | some kind =>
      exact h.unbroken.1

theorem Munches.isPrefix {kind? : Option TokenKind} (h : Munches t kind? s) :
    s <+: t := by
  cases h with
  | @matched p tail after kind split _ _ _ =>
      rw [← split, ← List.append_assoc]
      exact List.prefix_append _ after
  | @plain c rest split _ =>
      rw [← split]
      exact ⟨rest, rfl⟩

end Segment

end PseudocodeTools
