import PseudocodeTools.Codec.Basic
import PseudocodeTools.Text.Blank
import PseudocodeTools.Text.Lowercase
/-!
# Complexity classes

Answers are graded by the class of growth that they name.  A class has one
formula, but is recognized in several spellings: blanks and case do not matter,
and exponents and the argument of a logarithm may be written in plain ASCII.
-/

namespace PseudocodeTools

/-- Classes of growth, from the slowest on. -/
inductive ComplexityClass where
  | constant
  | logarithmic
  | linear
  | linearithmic
  | quadratic
  | cubic
  | exponential
  | factorial
deriving DecidableEq, Repr

namespace ComplexityClass

def all : List ComplexityClass :=
  [constant, logarithmic, linear, linearithmic, quadratic, cubic, exponential,
    factorial]

def formula : ComplexityClass -> String
  | constant => "O(1)"
  | logarithmic => "O(log n)"
  | linear => "O(n)"
  | linearithmic => "O(n log n)"
  | quadratic => "O(n²)"
  | cubic => "O(n³)"
  | exponential => "O(2ⁿ)"
  | factorial => "O(n!)"

theorem mem_all (c : ComplexityClass) : c ∈ all := by
  cases c <;> simp [all]

/-!
# Growth
-/

/-- The place of a class in the order of growth. -/
def rank (c : ComplexityClass) : Nat :=
  all.idxOf c

/-- The classes by growth; equal ones keep their order. -/
def sort (classes : List ComplexityClass) : List ComplexityClass :=
  classes.mergeSort fun a b => a.rank ≤ b.rank

end ComplexityClass

/-!
# Spellings
-/

namespace Text

/-- The text with each occurrence of `old` replaced, from the left on, after as
many characters are passed over as given. -/
def replaceAfter (old new : Text) : Nat -> Text -> Text
  | _, [] => []
  | skip + 1, _ :: t => replaceAfter old new skip t
  | 0, c :: t =>
      if old.isPrefixOf (c :: t) then
        new ++ replaceAfter old new (old.length - 1) t
      else
        c :: replaceAfter old new 0 t

/-- The text with each occurrence of `old` replaced, from the left on. -/
def replaceAll (t old new : Text) : Text :=
  replaceAfter old new 0 t

end Text

namespace ComplexityClass

/-- A text without blanks and in lower case. -/
def compact (t : Text) : Text :=
  Text.lowercase (t.filter fun c => !isBlank c)

/-- What stands for what in a spelling; the replacements are made in turn. -/
def replacements : List (Text × Text) :=
  [(['*', '*'], ['^']), (['^', '2'], ['²']), (['^', '3'], ['³']),
    (['2', '^', 'n'], ['2', 'ⁿ']),
    (['l', 'o', 'g', '(', 'n', ')'], ['l', 'o', 'g', 'n'])]

/-- What all spellings of a class have in common. -/
def normalForm (t : Text) : Text :=
  replacements.foldl (fun t (old, new) => t.replaceAll old new) (compact t)

/-- The class that a text spells. -/
def parse? (t : Text) : Option ComplexityClass :=
  all.find? fun c => normalForm c.formula.toList == normalForm t

/-- In bundles a class is written as its formula, which is the only spelling
there. -/
def codec : Codec ComplexityClass :=
  .choice all formula

end ComplexityClass
end PseudocodeTools
