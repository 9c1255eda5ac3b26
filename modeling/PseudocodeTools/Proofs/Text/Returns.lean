import Mathlib.Data.List.Forall2
import PseudocodeTools.Proofs.Text.Cut
import PseudocodeTools.Proofs.Text.Lines
/-!
# Two-character line breaks

A text has a copy in which every line break is a carriage return and a line
feed.  The copy is made piece by piece, so what stands at a place of the text
stands in the copy behind the copy of the text before that place.
-/

namespace PseudocodeTools
namespace Text

/-- The copy of a text in which a carriage return stands before each line
feed. -/
def withReturns (t : Text) : Text :=
  t.flatMap fun c => if c = '\n' then ['\r', '\n'] else [c]

theorem withReturns_append (s t : Text) :
    withReturns (s ++ t) = s.withReturns ++ t.withReturns :=
  List.flatMap_append

theorem withReturns_of_notMem {t : Text} (h : '\n' ∉ t) :
    t.withReturns = t := by
  induction t with
  | nil =>
      rfl
  | cons c t ih =>
      have hc : c ≠ '\n' := (List.ne_of_not_mem_cons h).symm
      have hrest := ih (List.not_mem_of_not_mem_cons h)
      rw [withReturns, List.flatMap_cons, if_neg hc, ← withReturns, hrest]
      rfl

theorem withReturns_line {line : Text} (h : '\n' ∉ line) (t : Text) :
    withReturns (line ++ '\n' :: t) =
      (line ++ ['\r']) ++ '\n' :: t.withReturns := by
  rw [withReturns_append, withReturns_of_notMem h, List.append_assoc]
  rfl

end Text

/-- Where a byte offset of the text comes to lie in the copy. -/
def Text.offsetWithReturns (source : Text) (n : Nat) : Nat :=
  (source.before? n).elim 0 fun front => front.withReturns.byteLength

theorem offsetWithReturns_append (front rest : Text) :
    Text.offsetWithReturns (front ++ rest) front.byteLength =
      front.withReturns.byteLength := by
  rw [Text.offsetWithReturns, before?_eq_some_iff.mpr ⟨rest, rfl, rfl⟩]
  rfl

end PseudocodeTools
