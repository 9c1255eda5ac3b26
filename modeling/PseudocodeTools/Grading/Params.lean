import PseudocodeTools.Codec.Record
import PseudocodeTools.Grading.Fault
/-!
# Parameters of grading

What is graded, how strictly, how the parts are weighted and what the feedback
may show.
-/

namespace PseudocodeTools

/-- The dialect in which a submission is expected. -/
inductive PseudocodeStyle where
  | auto
  | python
  | pascal
  | c
deriving DecidableEq, Repr

namespace PseudocodeStyle

def name : PseudocodeStyle -> String
  | auto => "auto"
  | python => "python"
  | pascal => "pascal"
  | c => "c"

def codec : Codec PseudocodeStyle :=
  .choice [auto, python, pascal, c] name

end PseudocodeStyle

structure GradingParams where
  analyzePseudocode : Bool := true
  requireTimeComplexity : Bool := true
  requireSpaceComplexity : Bool := true
  partialCredit : Bool := true
  timeWeight : Binary64 := .half
  spaceWeight : Binary64 := .half
  complexityEquivalence : Bool := true
  caseSensitive : Bool := false
  strictSpelling : Bool := false
  showDetailedFeedback : Bool := true
  showCorrectAnswer : Bool := true
  showDetectedComplexity : Bool := true
  showTree : Bool := false
  pseudocodeStyle : PseudocodeStyle := .auto
  strictParsing : Bool := false
  maxNestingDepth : UInt32 := 10
  timeoutSeconds : Binary64 := .ofInt 5
deriving DecidableEq, Repr

namespace GradingParams

def codec : Codec GradingParams :=
  let default : GradingParams := {}
  (Codec.record "EvaluationParams" <|
    .cons (.withDefault "analyze_pseudocode" .flag default.analyzePseudocode) <|
    .cons (.withDefault "require_time_complexity" .flag
      default.requireTimeComplexity) <|
    .cons (.withDefault "require_space_complexity" .flag
      default.requireSpaceComplexity) <|
    .cons (.withDefault "partial_credit" .flag default.partialCredit) <|
    .cons (.withDefault "time_weight" .number default.timeWeight) <|
    .cons (.withDefault "space_weight" .number default.spaceWeight) <|
    .cons (.withDefault "complexity_equivalence" .flag
      default.complexityEquivalence) <|
    .cons (.withDefault "case_sensitive" .flag default.caseSensitive) <|
    .cons (.withDefault "strict_notation" .flag default.strictSpelling) <|
    .cons (.withDefault "show_detailed_feedback" .flag
      default.showDetailedFeedback) <|
    .cons (.withDefault "show_correct_answer" .flag default.showCorrectAnswer) <|
    .cons (.withDefault "show_detected_complexity" .flag
      default.showDetectedComplexity) <|
    .cons (.withDefault "show_ast" .flag default.showTree) <|
    .cons (.withDefault "pseudocode_style" PseudocodeStyle.codec
      default.pseudocodeStyle) <|
    .cons (.withDefault "strict_parsing" .flag default.strictParsing) <|
    .cons (.withDefault "max_nesting_depth" .word32 default.maxNestingDepth) <|
    .cons (.withDefault "timeout_seconds" .number default.timeoutSeconds) <|
    .nil).iso
    (fun (analyzePseudocode, requireTimeComplexity, requireSpaceComplexity,
        partialCredit, timeWeight, spaceWeight, complexityEquivalence,
        caseSensitive, strictSpelling, showDetailedFeedback, showCorrectAnswer,
        showDetectedComplexity, showTree, pseudocodeStyle, strictParsing,
        maxNestingDepth, timeoutSeconds, ()) =>
      { analyzePseudocode, requireTimeComplexity, requireSpaceComplexity,
        partialCredit, timeWeight, spaceWeight, complexityEquivalence,
        caseSensitive, strictSpelling, showDetailedFeedback, showCorrectAnswer,
        showDetectedComplexity, showTree, pseudocodeStyle, strictParsing,
        maxNestingDepth, timeoutSeconds })
    (fun p =>
      (p.analyzePseudocode, p.requireTimeComplexity, p.requireSpaceComplexity,
        p.partialCredit, p.timeWeight, p.spaceWeight, p.complexityEquivalence,
        p.caseSensitive, p.strictSpelling, p.showDetailedFeedback,
        p.showCorrectAnswer, p.showDetectedComplexity, p.showTree,
        p.pseudocodeStyle, p.strictParsing, p.maxNestingDepth, p.timeoutSeconds,
        ()))

/-- Checks the numbers that have a range, in the order of the fields. -/
def validate (params : GradingParams) : Except GradingFault Unit := do
  Quantity.timeWeight.check params.timeWeight
  Quantity.spaceWeight.check params.spaceWeight
  Quantity.nestingDepth.check (.ofInt params.maxNestingDepth.toNat)
  Quantity.timeout.check params.timeoutSeconds

end GradingParams
end PseudocodeTools
