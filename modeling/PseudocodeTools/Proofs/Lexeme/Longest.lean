import PseudocodeTools.Proofs.Lexeme.Quoted
import PseudocodeTools.Proofs.Lexeme.Reserved
/-!
# The longest lexeme

The extent of the chosen rule is the length of the longest prefix that any rule
matches, and no stronger rule matches that prefix.
-/

namespace PseudocodeTools
namespace Rule

/-!
# Choice among rules
-/

/-- The rule has the longest extent, and comes first among the rules with this
extent. -/
structure Leads (t : Text) (rules : List Rule) (rule : Rule) (n : Nat) :
    Prop where
  mem : rule ∈ rules
  extent_eq : rule.extent t = some n
  le : forall other, other ∈ rules -> forall m, other.extent t = some m -> m ≤ n
  first : forall other, other ∈ rules -> other.extent t = some n ->
    rules.idxOf rule ≤ rules.idxOf other

section Choice

variable {t : Text} {rules : List Rule} {rule : Rule} {n : Nat}

theorem leads_cons_self {first : Rule} (hfirst : first.extent t = some n)
    (hrest : forall other, other ∈ rules ->
      forall m, other.extent t = some m -> m ≤ n) :
    Leads t (first :: rules) first n where
  mem := List.mem_cons_self
  extent_eq := hfirst
  le := by
    intro other hother m hm
    rcases List.mem_cons.mp hother with rfl | hin
    · rw [hfirst, Option.some.injEq] at hm
      exact hm.ge
    · exact hrest other hin m hm
  first := by
    intro other _ _
    rw [List.idxOf_cons_self]
    exact Nat.zero_le _

theorem Leads.cons (h : Leads t rules rule n) {first : Rule}
    (hfirst : forall m, first.extent t = some m -> m < n) :
    Leads t (first :: rules) rule n where
  mem := List.mem_cons_of_mem first h.mem
  extent_eq := h.extent_eq
  le := by
    intro other hother m hm
    rcases List.mem_cons.mp hother with rfl | hin
    · exact (hfirst m hm).le
    · exact h.le other hin m hm
  first := by
    have hne : forall other, other.extent t = some n -> first ≠ other := by
      intro other hother heq
      rw [← heq] at hother
      exact Nat.lt_irrefl n (hfirst n hother)
    intro other hother hm
    rcases List.mem_cons.mp hother with heq | hin
    · exact absurd heq.symm (hne other hm)
    · rw [List.idxOf_cons_ne rules (hne rule h.extent_eq),
        List.idxOf_cons_ne rules (hne other hm)]
      exact Nat.succ_le_succ (h.first other hin hm)

theorem extent_eq_none_of_longest (h : longest t rules = none) :
    forall rule, rule ∈ rules -> rule.extent t = none := by
  induction rules with
  | nil =>
      intro rule hrule
      cases hrule
  | cons first rest ih =>
      unfold longest at h
      split at h
      · rename_i hnone
        intro rule hrule
        rcases List.mem_cons.mp hrule with rfl | hrest
        · exact hnone
        · exact ih h rule hrest
      · cases h
      · split at h <;> cases h

theorem leads_of_longest (h : longest t rules = some (rule, n)) :
    Leads t rules rule n := by
  induction rules generalizing rule n with
  | nil =>
      cases h
  | cons first rest ih =>
      unfold longest at h
      split at h
      · rename_i hnone
        refine (ih h).cons ?_
        intro m hm
        rw [hnone] at hm
        cases hm
      · rename_i k hfirst hrest
        cases h
        refine leads_cons_self hfirst ?_
        intro other hother m hm
        rw [extent_eq_none_of_longest hrest other hother] at hm
        cases hm
      · rename_i k second l hfirst hrest
        have hsecond := ih hrest
        split at h
        · rename_i hle
          cases h
          refine leads_cons_self hfirst ?_
          intro other hother m hm
          exact Nat.le_trans (hsecond.le other hother m hm) hle
        · rename_i hlt
          cases h
          refine hsecond.cons ?_
          intro m hm
          rw [hfirst, Option.some.injEq] at hm
          omega

end Choice

end Rule

/-!
# Prefixes that rules match
-/

/-- All words that some rule matches. -/
def tokenLanguage : Language Char :=
  reservedLanguage keywords + reservedLanguage booleanWords + numberLanguage +
    quotedLanguage '"' + quotedLanguage '\'' + commentLanguage +
    operatorLanguage + wordLanguage

theorem mem_tokenLanguage_iff {w : Text} :
    w ∈ tokenLanguage ↔ exists rule, rule ∈ Rule.all ∧ w ∈ rule.language := by
  unfold tokenLanguage Rule.all
  simp only [Language.mem_add, List.exists_mem_cons_iff, Rule.language]
  simp [or_assoc]

theorem Measures.le_extent {L : Language Char} {t p : Text} {n? : Option Nat}
    (h : Measures L t n?) (hp : p <+: t) (hmem : p ∈ L) :
    exists n, n? = some n ∧ p.length ≤ n := by
  cases n? with
  | none =>
      exact absurd hmem (h p hp)
  | some n =>
      rcases h with ⟨q, hq, rfl⟩
      exact ⟨q.length, rfl, hq.longest p hp hmem⟩

theorem Measures.take_mem {L : Language Char} {t : Text} {n : Nat}
    (h : Measures L t (some n)) :
    n ≤ t.length ∧ t.take n ∈ L := by
  rcases h with ⟨p, hp, rfl⟩
  refine ⟨hp.isPrefix.length_le, ?_⟩
  rw [← List.prefix_iff_eq_take.mp hp.isPrefix]
  exact hp.mem

theorem mem_wordLanguage_of_lettered {p : Text} (h : p ∈ letteredLanguage) :
    p ∈ wordLanguage :=
  mem_wordLanguage_iff.mpr ⟨[], p, h, Or.inl ⟨rfl, Language.nil_mem_kstar _⟩⟩

theorem Rule.quote_of_mem_all {quote : Char}
    (h : Rule.quoted quote ∈ Rule.all) :
    quote = '"' ∨ quote = '\'' := by
  simpa [Rule.all] using h

/-- The extent of a rule without reserved words is the measure of its
language. -/
theorem Rule.measures_extent {rule : Rule} (hrule : rule ∈ Rule.all)
    (hkeyword : rule ≠ .keyword) (hboolean : rule ≠ .boolean) (t : Text) :
    Measures rule.language t (rule.extent t) := by
  cases rule with
  | keyword =>
      exact absurd rfl hkeyword
  | boolean =>
      exact absurd rfl hboolean
  | number =>
      exact measures_numberExtent t
  | quoted quote =>
      rcases Rule.quote_of_mem_all hrule with rfl | rfl
      · exact measures_quotedExtent (by decide) t
      · exact measures_quotedExtent (by decide) t
  | comment =>
      exact measures_commentExtent t
  | operator =>
      exact measures_operatorExtent t
  | word =>
      exact measures_wordExtent t

theorem Rule.take_mem_of_extent {rule : Rule} (hrule : rule ∈ Rule.all)
    {t : Text} {n : Nat} (h : rule.extent t = some n) :
    n ≤ t.length ∧ t.take n ∈ rule.language := by
  by_cases hkeyword : rule = .keyword
  · rw [hkeyword] at h ⊢
    rcases reservedExtent_eq_some h with ⟨hle, hmem, _⟩
    exact ⟨hle, hmem⟩
  · by_cases hboolean : rule = .boolean
    · rw [hboolean] at h ⊢
      rcases reservedExtent_eq_some h with ⟨hle, hmem, _⟩
      exact ⟨hle, hmem⟩
    · have hmeasure := Rule.measures_extent hrule hkeyword hboolean t
      rw [h] at hmeasure
      exact hmeasure.take_mem

/-- A prefix that some rule matches is no longer than some extent. -/
theorem exists_extent_of_mem {t p : Text} (hp : p <+: t)
    (hmem : p ∈ tokenLanguage) :
    exists rule, rule ∈ Rule.all ∧
      exists n, rule.extent t = some n ∧ p.length ≤ n := by
  rcases mem_tokenLanguage_iff.mp hmem with ⟨rule, hrule, hmem⟩
  have hword : p ∈ letteredLanguage -> exists rule, rule ∈ Rule.all ∧
      exists n, rule.extent t = some n ∧ p.length ≤ n := by
    intro h
    exact ⟨.word, by decide,
      (measures_wordExtent t).le_extent hp (mem_wordLanguage_of_lettered h)⟩
  by_cases hkeyword : rule = .keyword
  · rw [hkeyword] at hmem
    exact hword (mem_letteredLanguage_of_keyword hmem)
  · by_cases hboolean : rule = .boolean
    · rw [hboolean] at hmem
      exact hword (mem_letteredLanguage_of_boolean hmem)
    · exact ⟨rule, hrule,
        (Rule.measures_extent hrule hkeyword hboolean t).le_extent hp hmem⟩

end PseudocodeTools
