import PseudocodeTools.Binary64.Digits
/-!
# Quantities with a range

A bundle may be well formed and still hold a number that is out of range.  Each
quantity that is checked has a name and bounds, which are allowed themselves.
-/

namespace PseudocodeTools

/-- Numbers in bundles that are checked. -/
inductive Quantity where
  | timeWeight
  | spaceWeight
  | nestingDepth
  | timeout
  | expectedTimeWeight
  | expectedSpaceWeight
  | score
  | confidence
  | timeConfidence
  | spaceConfidence
deriving DecidableEq, Repr

namespace Quantity

def name : Quantity -> String
  | timeWeight => "time_weight"
  | spaceWeight => "space_weight"
  | nestingDepth => "max_nesting_depth"
  | timeout => "timeout_seconds"
  | expectedTimeWeight => "time_complexity_weight"
  | expectedSpaceWeight => "space_complexity_weight"
  | score => "score"
  | confidence => "analysis.confidence"
  | timeConfidence => "analysis.time_complexity.confidence"
  | spaceConfidence => "analysis.space_complexity.confidence"

def lower : Quantity -> Binary64
  | nestingDepth => .one
  | timeout => .ofRatio false 1 10
  | _ => .zero

def upper : Quantity -> Binary64
  | nestingDepth => .ofInt 50
  | timeout => .ofInt 60
  | _ => .one

end Quantity

/-- Why a bundle or an answer cannot be used. -/
inductive GradingFault where
  | outOfRange (quantity : Quantity) (value : Binary64)
  | emptyPseudocode
  | unknownComplexity (found : Text)
deriving DecidableEq, Repr

def GradingFault.message : GradingFault -> Text
  | outOfRange quantity value =>
      quantity.name.toList ++ " must be between ".toList ++
        quantity.lower.plainText ++ " and ".toList ++ quantity.upper.plainText ++
        ", got ".toList ++ value.plainText
  | emptyPseudocode => "pseudocode cannot be empty".toList
  | unknownComplexity found =>
      "unknown complexity class ".toList ++ '\x60' :: (found ++ ['\x60'])

/-- Whether a number is within the bounds of a quantity. -/
def Quantity.allows (quantity : Quantity) (value : Binary64) : Bool :=
  quantity.lower.atMost value && value.atMost quantity.upper

def Quantity.check (quantity : Quantity) (value : Binary64) :
    Except GradingFault Unit :=
  if quantity.allows value then .ok ()
  else .error (.outOfRange quantity value)

/-- Checks a number if there is one. -/
def Quantity.checkOption (quantity : Quantity) :
    Option Binary64 -> Except GradingFault Unit
  | none => .ok ()
  | some value => quantity.check value

end PseudocodeTools
