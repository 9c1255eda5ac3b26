import PseudocodeTools.Codec.Record
import PseudocodeTools.Grading.Complexity
import PseudocodeTools.Tree.Decode
/-!
# Analyses of a submission

An analysis gives the cost of a submission in time and in space, the parts of
it that contribute to the cost, and the outcome of parsing it.  A syntax tree in
a bundle is kept as it is and read only when it is asked for.
-/

namespace PseudocodeTools

/-!
# Costs
-/

structure TimeCost where
  overall : ComplexityClass
  expression : String
  explanation : Option String := none
  dominantTerm : Option String := none
  confidence : Option Binary64 := none
deriving DecidableEq, Repr

def TimeCost.codec : Codec TimeCost :=
  (Codec.record "TimeComplexity" <|
    .cons (.required "overall" ComplexityClass.codec) <|
    .cons (.required "expression" .text) <|
    .cons (.omittable "explanation" .text) <|
    .cons (.omittable "dominant_term" .text) <|
    .cons (.omittable "confidence" .number) <|
    .nil).iso
    (fun (overall, expression, explanation, dominantTerm, confidence, ()) =>
      { overall, expression, explanation, dominantTerm, confidence })
    (fun c =>
      (c.overall, c.expression, c.explanation, c.dominantTerm, c.confidence, ()))

structure SpaceCost where
  overall : ComplexityClass
  expression : String
  explanation : Option String := none
  auxiliarySpace : Option String := none
  confidence : Option Binary64 := none
deriving DecidableEq, Repr

def SpaceCost.codec : Codec SpaceCost :=
  (Codec.record "SpaceComplexity" <|
    .cons (.required "overall" ComplexityClass.codec) <|
    .cons (.required "expression" .text) <|
    .cons (.omittable "explanation" .text) <|
    .cons (.omittable "auxiliary_space" .text) <|
    .cons (.omittable "confidence" .number) <|
    .nil).iso
    (fun (overall, expression, explanation, auxiliarySpace, confidence, ()) =>
      { overall, expression, explanation, auxiliarySpace, confidence })
    (fun c =>
      (c.overall, c.expression, c.explanation, c.auxiliarySpace, c.confidence,
        ()))

/-!
# Constructs
-/

/-- A part of a submission with what it contributes to the cost. -/
structure Construct where
  type : String
  description : String := ""
  location : Option String := none
  contribution : ComplexityClass := .constant
  details : Json.Members := []
deriving DecidableEq

def Construct.codec : Codec Construct :=
  (Codec.record "ConstructAnalysis" <|
    .cons (.required "construct_type" .text) <|
    .cons (.withDefault "description" .text "") <|
    .cons (.omittable "location" .text) <|
    .cons (.withDefault "complexity_contribution" ComplexityClass.codec
      .constant) <|
    .cons (.withDefault "details" .object []) <|
    .nil).iso
    (fun (type, description, location, contribution, details, ()) =>
      { type, description, location, contribution, details })
    (fun c =>
      (c.type, c.description, c.location, c.contribution, c.details, ()))

/-!
# Outcomes of parsing
-/

/-- The program that a value spells, if it is not null. -/
def programOf? : Option Json -> Except TreeFault (Option Node)
  | none | some .null => .ok none
  | some value => (Tree.decode (.only .program) value).map some

structure ParseOutcome where
  success : Bool
  tree : Option Json := none
  errors : List String := []
  warnings : List String := []
  normalizedCode : Option String := none
deriving DecidableEq

namespace ParseOutcome

def codec : Codec ParseOutcome :=
  (Codec.record "ParseResult" <|
    .cons (.required "success" .flag) <|
    .cons (.omittable "ast" .raw) <|
    .cons (.withDefault "errors" Codec.text.list []) <|
    .cons (.withDefault "warnings" Codec.text.list []) <|
    .cons (.omittable "normalized_code" .text) <|
    .nil).iso
    (fun (success, tree, errors, warnings, normalizedCode, ()) =>
      { success, tree, errors, warnings, normalizedCode })
    (fun o => (o.success, o.tree, o.errors, o.warnings, o.normalizedCode, ()))

/-- The syntax tree of the submission, if one is attached. -/
def program? (outcome : ParseOutcome) : Except TreeFault (Option Node) :=
  programOf? outcome.tree

end ParseOutcome

/-!
# Analyses
-/

structure Analysis where
  time : TimeCost
  space : SpaceCost
  constructs : List Construct := []
  algorithmType : Option String := none
  confidence : Binary64 := .one
  parseOutcome : Option ParseOutcome := none
deriving DecidableEq

def Analysis.codec : Codec Analysis :=
  (Codec.record "ComplexityAnalysis" <|
    .cons (.required "time_complexity" TimeCost.codec) <|
    .cons (.required "space_complexity" SpaceCost.codec) <|
    .cons (.withDefault "constructs" Construct.codec.list []) <|
    .cons (.omittable "algorithm_type" .text) <|
    .cons (.withDefault "confidence" .number .one) <|
    .cons (.omittable "parse_result" ParseOutcome.codec) <|
    .nil).iso
    (fun (time, space, constructs, algorithmType, confidence, parseOutcome,
        ()) =>
      { time, space, constructs, algorithmType, confidence, parseOutcome })
    (fun a =>
      (a.time, a.space, a.constructs, a.algorithmType, a.confidence,
        a.parseOutcome, ()))

end PseudocodeTools
