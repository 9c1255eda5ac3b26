import PseudocodeTools.Grading.Request
/-!
# Answers that are graded alike

Two answers are the same if they name the same class, or if they are the same
text but for the blanks around it.  An answer is compared with the key by classes
or by texts, depending on what both sides name.  Blanks do not count for the class
that a text names, so neither way of comparing contradicts the other, and a key
accepts what is the same as one of its answers.
-/

namespace PseudocodeTools

/-!
# Blanks around an answer
-/

theorem Text.filter_trim (t : Text) :
    t.trim.filter (fun c => !isBlank c) = t.filter fun c => !isBlank c := by
  have hstart : forall s : Text,
      (s.dropWhile isBlank).filter (fun c => !isBlank c) =
        s.filter fun c => !isBlank c := by
    intro s
    induction s with
    | nil =>
        rfl
    | cons c s ih =>
        cases hblank : isBlank c with
        | true =>
            rw [List.dropWhile_cons_of_pos hblank, ih,
              List.filter_cons_of_neg (by simp [hblank])]
        | false =>
            rw [List.dropWhile_cons_of_neg (by simp [hblank])]
  unfold Text.trim Text.trimEnd Text.trimStart
  rw [List.filter_reverse, hstart, List.filter_reverse, List.reverse_reverse,
    hstart]

theorem ComplexityClass.parse?_trim (t : Text) :
    parse? t.trim = parse? t := by
  have hcompact : compact t.trim = compact t := by
    unfold compact
    rw [Text.filter_trim]
  unfold parse? normalForm
  rw [hcompact]

/-!
# Sameness of answers
-/

/-- The answers name the same class, or are the same text but for the blanks
around it. -/
def SameAnswer (s t : Text) : Prop :=
  (exists c, ComplexityClass.parse? s = some c ∧
    ComplexityClass.parse? t = some c) ∨ s.trim = t.trim

namespace SameAnswer

variable {s t u : Text}

/-- The same answer names the same class, or none both times. -/
theorem parse?_eq (h : SameAnswer s t) :
    ComplexityClass.parse? s = ComplexityClass.parse? t := by
  rcases h with ⟨c, hs, ht⟩ | htrim
  · rw [hs, ht]
  · rw [← ComplexityClass.parse?_trim s, htrim, ComplexityClass.parse?_trim]

theorem refl (t : Text) : SameAnswer t t :=
  Or.inr rfl

theorem symm (h : SameAnswer s t) : SameAnswer t s := by
  rcases h with ⟨c, hs, ht⟩ | htrim
  · exact Or.inl ⟨c, ht, hs⟩
  · exact Or.inr htrim.symm

/-- One comparison of texts is enough to carry a class over. -/
theorem trans (h : SameAnswer s t) (h' : SameAnswer t u) : SameAnswer s u := by
  rcases h with ⟨c, hs, ht⟩ | htrim
  · exact Or.inl ⟨c, hs, h'.parse?_eq ▸ ht⟩
  · rcases h' with ⟨c, ht, hu⟩ | htrim'
    · have hsame : SameAnswer s t := Or.inr htrim
      exact Or.inl ⟨c, hsame.parse?_eq ▸ ht, hu⟩
    · exact Or.inr (htrim.trans htrim')

theorem equivalence : Equivalence SameAnswer :=
  ⟨refl, symm, trans⟩

end SameAnswer

/-- Where both sides name a class the texts are not compared, and need not be:
if they are the same, so are the classes. -/
theorem answersAgree_iff {s t : Text} :
    answersAgree s t = true ↔ SameAnswer t s := by
  unfold answersAgree
  split
  · rename_i a b hs ht
    rw [beq_iff_eq]
    constructor
    · intro hab
      exact Or.inl ⟨b, ht, hab ▸ hs⟩
    · intro hsame
      have hclasses := hsame.parse?_eq
      rw [hs, ht] at hclasses
      exact (Option.some.inj hclasses).symm
  · rename_i hclasses
    rw [beq_iff_eq]
    constructor
    · intro htrim
      exact Or.inr htrim.symm
    · rintro (⟨c, ht, hs⟩ | htrim)
      · exact (hclasses c c hs ht).elim
      · exact htrim.symm

/-!
# Accepted answers
-/

/-- What is accepted is what is the same as the expected answer or as one of the
alternatives to it. -/
structure AcceptsSame (expected : String) (alternatives : List String)
    (accepts : Text -> Bool) : Prop where
  accepts_iff (answer : Text) :
    accepts answer = true ↔
      SameAnswer answer expected.toList ∨
        exists s, s ∈ alternatives ∧ SameAnswer answer s.toList
  accepts_expected : accepts expected.toList = true
  accepts_alternative (s : String) (h : s ∈ alternatives) :
    accepts s.toList = true
  alike (s t : Text) (h : SameAnswer s t) : accepts s = accepts t

theorem acceptsSame_any (expected : String) (alternatives : List String) :
    AcceptsSame expected alternatives fun answer =>
      (expected :: alternatives).any fun s => answersAgree s.toList answer := by
  have hiff : forall answer : Text,
      ((expected :: alternatives).any fun s =>
          answersAgree s.toList answer) = true ↔
        SameAnswer answer expected.toList ∨
          exists s, s ∈ alternatives ∧ SameAnswer answer s.toList := by
    intro answer
    rw [List.any_cons, Bool.or_eq_true, List.any_eq_true, answersAgree_iff]
    simp only [answersAgree_iff]
  exact
    { accepts_iff := hiff
      accepts_expected := (hiff _).mpr (Or.inl (SameAnswer.refl _))
      accepts_alternative := fun s hs =>
        (hiff _).mpr (Or.inr ⟨s, hs, SameAnswer.refl _⟩)
      alike := by
        intro s t hsame
        have hcongr : forall u : Text, SameAnswer s u ↔ SameAnswer t u :=
          fun u => ⟨hsame.symm.trans, hsame.trans⟩
        rw [Bool.eq_iff_iff, hiff s, hiff t]
        simp only [hcongr] }

/-- Only what is in the list counts for what a list of answers accepts. -/
theorem any_congr_mem {xs ys : List String} {accepts : String -> Bool}
    (h : forall s, s ∈ xs ↔ s ∈ ys) :
    xs.any accepts = ys.any accepts := by
  rw [Bool.eq_iff_iff, List.any_eq_true, List.any_eq_true]
  simp only [h]

/-- A key accepts for the time, and likewise for the space, the answers that are
the same as the expected one or as an alternative to it.  Keys with the same
answers, in any order and any number of times, accept the same. -/
theorem accepts_up_to_sameness :
    Equivalence SameAnswer ∧
    forall key : AnswerKey,
      AcceptsSame key.expectedTime key.timeAlternatives key.acceptsTime ∧
      AcceptsSame key.expectedSpace key.spaceAlternatives key.acceptsSpace ∧
      forall other : AnswerKey,
        ((forall s, s ∈ key.expectedTime :: key.timeAlternatives ↔
            s ∈ other.expectedTime :: other.timeAlternatives) ->
          forall answer, key.acceptsTime answer = other.acceptsTime answer) ∧
        ((forall s, s ∈ key.expectedSpace :: key.spaceAlternatives ↔
            s ∈ other.expectedSpace :: other.spaceAlternatives) ->
          forall answer, key.acceptsSpace answer = other.acceptsSpace answer) := by
  refine ⟨SameAnswer.equivalence, fun key => ⟨?_, ?_, fun other => ⟨?_, ?_⟩⟩⟩
  · exact acceptsSame_any key.expectedTime key.timeAlternatives
  · exact acceptsSame_any key.expectedSpace key.spaceAlternatives
  · intro hlisted answer
    exact any_congr_mem hlisted
  · intro hlisted answer
    exact any_congr_mem hlisted

/-- The key to an exercise with a quadratic answer.  The alternative names no
class, so it is compared as a text. -/
def quadraticKey : AnswerKey :=
  { expectedTime := "O(n²)", timeAlternatives := ["O(n*n)"] }

/-- Compared as texts, as classes, and with the alternatives written twice. -/
theorem quadraticKey_accepts :
    quadraticKey.acceptsTime "  O(n*n)".toList = true ∧
    quadraticKey.acceptsTime "o(N^2)".toList =
      quadraticKey.acceptsTime "O(n**2)".toList ∧
    quadraticKey.acceptsTime "O(n*n)".toList =
      { quadraticKey with timeAlternatives := ["O(n*n)", "O(n*n)"] }.acceptsTime
        "O(n*n)".toList := by
  have hkey := (accepts_up_to_sameness.2 quadraticKey)
  refine ⟨?_, ?_, ?_⟩
  · exact (hkey.1.accepts_iff _).mpr
      (Or.inr ⟨"O(n*n)", List.mem_singleton_self _, Or.inr (by decide +kernel)⟩)
  · exact hkey.1.alike _ _
      (Or.inl ⟨.quadratic, by decide +kernel, by decide +kernel⟩)
  · refine (hkey.2.2 _).1 (fun s => ?_) _
    simp [quadraticKey]

end PseudocodeTools
