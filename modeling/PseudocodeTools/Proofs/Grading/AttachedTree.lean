import PseudocodeTools.Grading.Verdict
import PseudocodeTools.Proofs.Codec.FreeMember
/-!
# Attached trees

The syntax tree in a result is kept as it is, so whatever is sent in its place
spoils nothing else: only the program that is asked for later depends on it.
-/

namespace PseudocodeTools

open Codec (agree_ofJson_packed optional_readsAll raw_readsAll)
open Codec.Fields (SameBut)
open Codec.Field (required omittable withDefault frees_of_ne frees_of_readsAll)

/-- The outcome is the program that the value spells as a value of its own; null
spells no program. -/
def IsProgramOf (value : Json) (outcome : Except TreeFault (Option Node)) :
    Prop :=
  (outcome = .ok none ↔ value = .null) ∧
    (value ≠ .null ->
      outcome = (Tree.decode (.only .program) value).map some)

theorem isProgramOf_of_read {value : Json} {tree : Option Json}
    (h : Codec.raw.optional.ofJson value = .ok tree) :
    IsProgramOf value (programOf? tree) := by
  by_cases hnull : value = .null
  · subst hnull
    cases h
    exact ⟨iff_of_true rfl rfl, fun hne => absurd rfl hne⟩
  · rw [Codec.ofJson_optional hnull] at h
    cases h
    have hprogram : programOf? (some value) =
        (Tree.decode (.only .program) value).map some := by
      cases value with
      | null => exact absurd rfl hnull
      | _ => rfl
    refine ⟨iff_of_false ?_ hnull, fun _ => hprogram⟩
    rw [hprogram, Except.map_eq_ok_iff]
    rintro ⟨node, _, hnode⟩
    cases hnode

/-!
# Two readings
-/

theorem Verdict.agree_ofJson (members : Json.Members) (value value' : Json) :
    AgreeUpTo
      (fun first second =>
        { first with tree := none } = { second with tree := none } ∧
          IsProgramOf value first.program?)
      (codec.ofJson (.object (members.insert "ast" value)))
      (codec.ofJson (.object (members.insert "ast" value'))) := by
  apply agree_ofJson_packed
  case h =>
    exact
      ⟨frees_of_ne (by decide),
        frees_of_ne (by decide),
        frees_of_ne (by decide),
        frees_of_ne (by decide),
        frees_of_ne (by decide),
        frees_of_readsAll (optional_readsAll raw_readsAll),
        frees_of_ne (by decide),
        frees_of_ne (by decide),
        frees_of_ne (by decide),
        frees_of_ne (by decide),
        frees_of_ne (by decide),
        trivial⟩
  case hpack =>
    rintro ⟨_, _, _, _, _, tree, _, _, _, _, _, _⟩
      ⟨_, _, _, _, _, tree', _, _, _, _, _, _⟩ h
    simp only [SameBut, required, omittable, withDefault, String.reduceEq,
      if_true, if_false, and_true] at h
    rcases h with
      ⟨rfl, rfl, rfl, rfl, rfl, ⟨htree, _⟩, rfl, rfl, rfl, rfl, rfl⟩
    exact ⟨rfl, isProgramOf_of_read htree⟩

theorem ParseOutcome.agree_ofJson (members : Json.Members)
    (value value' : Json) :
    AgreeUpTo
      (fun first second =>
        { first with tree := none } = { second with tree := none } ∧
          IsProgramOf value first.program?)
      (codec.ofJson (.object (members.insert "ast" value)))
      (codec.ofJson (.object (members.insert "ast" value'))) := by
  apply agree_ofJson_packed
  case h =>
    exact
      ⟨frees_of_ne (by decide),
        frees_of_readsAll (optional_readsAll raw_readsAll),
        frees_of_ne (by decide),
        frees_of_ne (by decide),
        frees_of_ne (by decide),
        trivial⟩
  case hpack =>
    rintro ⟨_, tree, _, _, _, _⟩ ⟨_, tree', _, _, _, _⟩ h
    simp only [SameBut, required, omittable, withDefault, String.reduceEq,
      if_true, if_false, and_true] at h
    rcases h with ⟨rfl, ⟨htree, _⟩, rfl, rfl, rfl⟩
    exact ⟨rfl, isProgramOf_of_read htree⟩

/-- Only the program depends on the tree. -/
theorem Verdict.validate_eq_of_sameButTree {first second : Verdict}
    (h : { first with tree := none } = { second with tree := none }) :
    first.validate = second.validate := by
  have hvalid := congrArg validate h
  exact hvalid

/-- Whatever two values are sent for the tree, a verdict is refused with the same
mismatch both times, or it is read both times: then the two verdicts are equal
but for the tree and equally valid, and the program of the first is what the
first value spells.  The same holds for outcomes of parsing. -/
theorem attached_tree_spoils_nothing (members : Json.Members) (x y : Json) :
    AgreeUpTo
        (fun first second : Verdict =>
          { first with tree := none } = { second with tree := none } ∧
            first.validate = second.validate ∧ IsProgramOf x first.program?)
        (Verdict.codec.ofJson (.object (members.insert "ast" x)))
        (Verdict.codec.ofJson (.object (members.insert "ast" y))) ∧
      AgreeUpTo
        (fun first second : ParseOutcome =>
          { first with tree := none } = { second with tree := none } ∧
            IsProgramOf x first.program?)
        (ParseOutcome.codec.ofJson (.object (members.insert "ast" x)))
        (ParseOutcome.codec.ofJson (.object (members.insert "ast" y))) := by
  refine ⟨?_, ParseOutcome.agree_ofJson members x y⟩
  apply (Verdict.agree_ofJson members x y).imp
  rintro first second ⟨hsame, hprogram⟩
  exact ⟨hsame, Verdict.validate_eq_of_sameButTree hsame, hprogram⟩

end PseudocodeTools
