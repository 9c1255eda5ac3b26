import PseudocodeTools.Grading.Complexity
import PseudocodeTools.Grading.Params
/-!
# Requests for grading

A request holds what a student submitted, the key to the exercise and the
parameters of grading.
-/

namespace PseudocodeTools

/-!
# Submissions
-/

/-- What a student hands in. -/
structure Submission where
  pseudocode : String := ""
  timeComplexity : Option String := none
  spaceComplexity : Option String := none
  explanation : Option String := none
deriving DecidableEq, Repr

namespace Submission

def codec : Codec Submission :=
  (Codec.record "StudentResponse" <|
    .cons (.required "pseudocode" .text) <|
    .cons (.nullable "time_complexity" .text) <|
    .cons (.nullable "space_complexity" .text) <|
    .cons (.nullable "explanation" .text) <|
    .nil).iso
    (fun (pseudocode, timeComplexity, spaceComplexity, explanation, ()) =>
      { pseudocode, timeComplexity, spaceComplexity, explanation })
    (fun s =>
      (s.pseudocode, s.timeComplexity, s.spaceComplexity, s.explanation, ()))

/-- A submission must not be blank. -/
def validate (submission : Submission) : Except GradingFault Unit :=
  if (Text.trim submission.pseudocode.toList).isEmpty then .error .emptyPseudocode
  else .ok ()

/-- The class that the student names for the running time, if it is one. -/
def timeClass? (submission : Submission) : Option ComplexityClass :=
  submission.timeComplexity.bind fun s => ComplexityClass.parse? s.toList

/-- The class that the student names for the space, if it is one. -/
def spaceClass? (submission : Submission) : Option ComplexityClass :=
  submission.spaceComplexity.bind fun s => ComplexityClass.parse? s.toList

end Submission

/-!
# Keys

A complexity in a key is a text, which need not name a known class.
-/

/-- The expected answers of an exercise. -/
structure AnswerKey where
  expectedTime : String := ""
  expectedSpace : String := ComplexityClass.constant.formula
  timeAlternatives : List String := []
  spaceAlternatives : List String := []
  algorithmDescription : Option String := none
  algorithmType : Option String := none
  expectedConstructs : List String := []
  timeWeight : Binary64 := .half
  spaceWeight : Binary64 := .half
  params : GradingParams := {}
deriving DecidableEq, Repr

/-- Whether two answers name the same class, or are the same text up to the
blanks around it where one of them names none. -/
def answersAgree (s t : Text) : Bool :=
  match ComplexityClass.parse? s, ComplexityClass.parse? t with
  | some a, some b => a == b
  | _, _ => s.trim == t.trim

namespace AnswerKey

def codec : Codec AnswerKey :=
  let default : AnswerKey := {}
  (Codec.record "ExpectedAnswer" <|
    .cons (.withDefault "expected_time_complexity" .text
      ComplexityClass.constant.formula) <|
    .cons (.withDefault "expected_space_complexity" .text
      ComplexityClass.constant.formula) <|
    .cons (.withDefault "acceptable_time_alternatives" Codec.text.list
      default.timeAlternatives) <|
    .cons (.withDefault "acceptable_space_alternatives" Codec.text.list
      default.spaceAlternatives) <|
    .cons (.omittable "algorithm_description" .text) <|
    .cons (.omittable "algorithm_type" .text) <|
    .cons (.withDefault "expected_constructs" Codec.text.list
      default.expectedConstructs) <|
    .cons (.withDefault "time_complexity_weight" .number default.timeWeight) <|
    .cons (.withDefault "space_complexity_weight" .number default.spaceWeight) <|
    .cons (.withDefault "evaluation_params" GradingParams.codec default.params) <|
    .nil).iso
    (fun (expectedTime, expectedSpace, timeAlternatives, spaceAlternatives,
        algorithmDescription, algorithmType, expectedConstructs, timeWeight,
        spaceWeight, params, ()) =>
      { expectedTime, expectedSpace, timeAlternatives, spaceAlternatives,
        algorithmDescription, algorithmType, expectedConstructs, timeWeight,
        spaceWeight, params })
    (fun key =>
      (key.expectedTime, key.expectedSpace, key.timeAlternatives,
        key.spaceAlternatives, key.algorithmDescription, key.algorithmType,
        key.expectedConstructs, key.timeWeight, key.spaceWeight, key.params, ()))

def validate (key : AnswerKey) : Except GradingFault Unit := do
  Quantity.expectedTimeWeight.check key.timeWeight
  Quantity.expectedSpaceWeight.check key.spaceWeight
  key.params.validate

/-- Whether an answer agrees with the expected running time or with one of the
alternatives to it. -/
def acceptsTime (key : AnswerKey) (answer : Text) : Bool :=
  (key.expectedTime :: key.timeAlternatives).any fun s =>
    answersAgree s.toList answer

/-- Whether an answer agrees with the expected space or with one of the
alternatives to it. -/
def acceptsSpace (key : AnswerKey) (answer : Text) : Bool :=
  (key.expectedSpace :: key.spaceAlternatives).any fun s =>
    answersAgree s.toList answer

end AnswerKey

/-!
# Requests
-/

structure GradingRequest where
  submission : Submission
  key : AnswerKey
  params : GradingParams := {}
deriving DecidableEq, Repr

namespace GradingRequest

/-- The request to grade a submission by the parameters of the key. -/
def ofKey (submission : Submission) (key : AnswerKey) : GradingRequest :=
  { submission := submission, key := key, params := key.params }

def codec : Codec GradingRequest :=
  (Codec.record "EvaluationRequest" <|
    .cons (.required "response" Submission.codec) <|
    .cons (.required "answer" AnswerKey.codec) <|
    .cons (.withDefault "params" GradingParams.codec {}) <|
    .nil).iso
    (fun (submission, key, params, ()) => { submission, key, params })
    (fun r => (r.submission, r.key, r.params, ()))

def validate (request : GradingRequest) : Except GradingFault Unit := do
  request.submission.validate
  request.key.validate
  request.params.validate

end GradingRequest
end PseudocodeTools
