import PseudocodeTools.Proofs.Lexeme.Extent
/-!
# Quoted texts

A quoted text ends at the first quote that no backslash stands before, so all
ends of a quoted text in a text are the same.
-/

namespace PseudocodeTools

open Computability

def closingLanguage (quote : Char) : Language Char :=
  (quotedItem quote)∗ * character quote

/-- What closes a quoted text: the quote, or one more item before it. -/
theorem mem_closingLanguage_iff {quote : Char} {w : Text} :
    w ∈ closingLanguage quote ↔
      w = [quote] ∨
        (exists c t, w = c :: t ∧ (c ≠ quote ∧ c ≠ '\\' ∧ c ≠ '\n') ∧
          t ∈ closingLanguage quote) ∨
        exists c t, w = '\\' :: c :: t ∧ c ≠ '\n' ∧
          t ∈ closingLanguage quote := by
  have hunfold : closingLanguage quote =
      character quote +
        (oneOf (fun c => c ≠ quote ∧ c ≠ '\\' ∧ c ≠ '\n') *
            closingLanguage quote +
          character '\\' * (notLineFeed * closingLanguage quote)) := by
    unfold closingLanguage
    conv_lhs => rw [← Language.one_add_self_mul_kstar_eq_kstar]
    rw [add_mul, one_mul, mul_assoc, ← mul_assoc (character '\\'), ← add_mul]
    rfl
  have hmem : w ∈ closingLanguage quote ↔ _ :=
    iff_of_eq (congrArg (w ∈ ·) hunfold)
  rw [hmem, Language.mem_add, Language.mem_add]
  unfold character notLineFeed
  simp only [mem_oneOf_mul_iff]
  constructor
  · intro h
    rcases h with ⟨c, rfl, rfl⟩ | hplain |
      ⟨_, _, rfl, rfl, c, t, rfl, hc, ht⟩
    · exact Or.inl rfl
    · exact Or.inr (Or.inl hplain)
    · exact Or.inr (Or.inr ⟨c, t, rfl, hc, ht⟩)
  · intro h
    rcases h with rfl | hplain | ⟨c, t, rfl, hc, ht⟩
    · exact Or.inl ⟨quote, rfl, rfl⟩
    · exact Or.inr (Or.inl hplain)
    · exact Or.inr (Or.inr ⟨_, _, rfl, rfl, c, t, rfl, hc, ht⟩)

theorem exists_of_closingExtent {quote : Char} {t : Text} {n : Nat}
    (h : Rule.closingExtent quote t = some n) :
    exists p, p <+: t ∧ p ∈ closingLanguage quote ∧ p.length = n := by
  fun_induction Rule.closingExtent quote t generalizing n with
  | case1 | case2 | case3 | case6 =>
      cases h
  | case4 c t hc ih =>
      rcases Option.map_eq_some_iff.mp h with ⟨m, hm, rfl⟩
      rcases ih hm with ⟨p, hp, hmem, rfl⟩
      refine ⟨'\\' :: c :: p, ?_, ?_, rfl⟩
      · exact List.cons_prefix_cons.mpr
          ⟨rfl, List.cons_prefix_cons.mpr ⟨rfl, hp⟩⟩
      · exact mem_closingLanguage_iff.mpr
          (Or.inr (Or.inr ⟨c, p, rfl, hc, hmem⟩))
  | case5 t =>
      cases h
      refine ⟨[quote], ?_, mem_closingLanguage_iff.mpr (Or.inl rfl), rfl⟩
      exact List.cons_prefix_cons.mpr ⟨rfl, List.nil_prefix⟩
  | case7 c t hend hescape hquote hfeed ih =>
      rcases Option.map_eq_some_iff.mp h with ⟨m, hm, rfl⟩
      rcases ih hm with ⟨p, hp, hmem, rfl⟩
      have hslash : c ≠ '\\' := by
        intro heq
        cases t with
        | nil =>
            exact hend heq rfl
        | cons d t =>
            exact hescape d t heq rfl
      refine ⟨c :: p, List.cons_prefix_cons.mpr ⟨rfl, hp⟩, ?_, rfl⟩
      exact mem_closingLanguage_iff.mpr
        (Or.inr (Or.inl ⟨c, p, rfl, ⟨hquote, hslash, hfeed⟩, hmem⟩))

theorem closingExtent_append {quote : Char} (hquote : quote ≠ '\\') {p : Text}
    (hmem : p ∈ closingLanguage quote) (rest : Text) :
    Rule.closingExtent quote (p ++ rest) = some p.length := by
  induction hlen : p.length using Nat.strongRecOn generalizing p with
  | ind n ih =>
      rcases mem_closingLanguage_iff.mp hmem with
        rfl | ⟨c, t, rfl, ⟨hc, hslash, hfeed⟩, ht⟩ | ⟨c, t, rfl, hfeed, ht⟩
      · rw [← hlen]
        simp [Rule.closingExtent, hquote]
      · rw [List.length_cons] at hlen
        have hrest := ih t.length (by omega) ht rfl
        simp [Rule.closingExtent, hc, hslash, hfeed, hrest, ← hlen]
      · rw [List.length_cons, List.length_cons] at hlen
        have hrest := ih t.length (by omega) ht rfl
        simp [Rule.closingExtent, hfeed, hrest, ← hlen]

theorem measures_closingExtent {quote : Char} (hquote : quote ≠ '\\')
    (t : Text) :
    Measures (closingLanguage quote) t (Rule.closingExtent quote t) := by
  have hmeasure : forall p, p <+: t -> p ∈ closingLanguage quote ->
      Rule.closingExtent quote t = some p.length := by
    intro p hp hmem
    rcases hp with ⟨rest, rfl⟩
    exact closingExtent_append hquote hmem rest
  cases hextent : Rule.closingExtent quote t with
  | none =>
      intro p hp hmem
      rw [hmeasure p hp hmem] at hextent
      cases hextent
  | some n =>
      rcases exists_of_closingExtent hextent with ⟨p, hp, hmem, rfl⟩
      refine ⟨p, ⟨hp, hmem, ?_⟩, rfl⟩
      intro q hq hmemq
      rw [hmeasure q hq hmemq, Option.some.injEq] at hextent
      exact hextent.le

theorem measures_quotedExtent {quote : Char} (hquote : quote ≠ '\\')
    (t : Text) :
    Measures (quotedLanguage quote) t (Rule.quotedExtent quote t) := by
  have hmem : forall p, p ∈ quotedLanguage quote ↔
      exists w, p = quote :: w ∧ w ∈ closingLanguage quote := by
    intro p
    change p ∈ character quote * closingLanguage quote ↔ _
    unfold character
    rw [mem_oneOf_mul_iff]
    constructor
    · intro h
      rcases h with ⟨_, w, rfl, rfl, hw⟩
      exact ⟨w, rfl, hw⟩
    · intro h
      rcases h with ⟨w, rfl, hw⟩
      exact ⟨quote, w, rfl, rfl, hw⟩
  cases t with
  | nil =>
      intro p hp hp'
      rcases (hmem p).mp hp' with ⟨w, rfl, _⟩
      exact absurd (List.prefix_nil.mp hp) (List.cons_ne_nil quote w)
  | cons c t =>
      simp only [Rule.quotedExtent]
      by_cases hc : c = quote
      · rw [if_pos hc, hc]
        exact (measures_closingExtent hquote t).append [quote] fun p _ => hmem p
      · rw [if_neg hc]
        intro p hp hp'
        rcases (hmem p).mp hp' with ⟨w, rfl, _⟩
        exact hc (List.cons_prefix_cons.mp hp).1.symm

end PseudocodeTools
