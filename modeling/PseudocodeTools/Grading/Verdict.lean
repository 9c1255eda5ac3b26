import PseudocodeTools.Grading.Analysis
import PseudocodeTools.Grading.Fault
import PseudocodeTools.Grading.Feedback
/-!
# Verdicts

A verdict is the answer to a request for grading: whether the submission is
correct, how its answers on time and space compare with the key, a score, the
analysis behind it and feedback for the student.
-/

namespace PseudocodeTools

/-!
# Grades of single answers
-/

/-- The grade of the answer on the running time. -/
structure TimeGrade where
  isCorrect : Bool
  studentAnswer : Option String := none
  expectedAnswer : String
  detectedComplexity : Option String := none
  studentClass : Option ComplexityClass := none
  expectedClass : ComplexityClass
  analysis : Option TimeCost := none
  feedback : String := ""
deriving DecidableEq, Repr

def TimeGrade.codec : Codec TimeGrade :=
  (Codec.record "TimeComplexityResult" <|
    .cons (.required "is_correct" .flag) <|
    .cons (.omittable "student_answer" .text) <|
    .cons (.required "expected_answer" .text) <|
    .cons (.omittable "detected_complexity" .text) <|
    .cons (.omittable "student_normalized" ComplexityClass.codec) <|
    .cons (.required "expected_normalized" ComplexityClass.codec) <|
    .cons (.omittable "analysis" TimeCost.codec) <|
    .cons (.withDefault "feedback" .text "") <|
    .nil).iso
    (fun (isCorrect, studentAnswer, expectedAnswer, detectedComplexity,
        studentClass, expectedClass, analysis, feedback, ()) =>
      { isCorrect, studentAnswer, expectedAnswer, detectedComplexity,
        studentClass, expectedClass, analysis, feedback })
    (fun g =>
      (g.isCorrect, g.studentAnswer, g.expectedAnswer, g.detectedComplexity,
        g.studentClass, g.expectedClass, g.analysis, g.feedback, ()))

/-- The grade of the answer on the space. -/
structure SpaceGrade where
  isCorrect : Bool
  studentAnswer : Option String := none
  expectedAnswer : String
  detectedComplexity : Option String := none
  studentClass : Option ComplexityClass := none
  expectedClass : ComplexityClass
  analysis : Option SpaceCost := none
  feedback : String := ""
deriving DecidableEq, Repr

def SpaceGrade.codec : Codec SpaceGrade :=
  (Codec.record "SpaceComplexityResult" <|
    .cons (.required "is_correct" .flag) <|
    .cons (.omittable "student_answer" .text) <|
    .cons (.required "expected_answer" .text) <|
    .cons (.omittable "detected_complexity" .text) <|
    .cons (.omittable "student_normalized" ComplexityClass.codec) <|
    .cons (.required "expected_normalized" ComplexityClass.codec) <|
    .cons (.omittable "analysis" SpaceCost.codec) <|
    .cons (.withDefault "feedback" .text "") <|
    .nil).iso
    (fun (isCorrect, studentAnswer, expectedAnswer, detectedComplexity,
        studentClass, expectedClass, analysis, feedback, ()) =>
      { isCorrect, studentAnswer, expectedAnswer, detectedComplexity,
        studentClass, expectedClass, analysis, feedback })
    (fun g =>
      (g.isCorrect, g.studentAnswer, g.expectedAnswer, g.detectedComplexity,
        g.studentClass, g.expectedClass, g.analysis, g.feedback, ()))

/-!
# Verdicts
-/

structure Verdict where
  isCorrect : Bool := false
  timeGrade : Option TimeGrade := none
  spaceGrade : Option SpaceGrade := none
  score : Binary64 := .zero
  analysis : Option Analysis := none
  tree : Option Json := none
  feedback : String := ""
  feedbackItems : List FeedbackItem := []
  warnings : List String := []
  errors : List String := []
  metadata : Json.Members := []
deriving DecidableEq

namespace Verdict

def codec : Codec Verdict :=
  (Codec.record "EvaluationResult" <|
    .cons (.required "is_correct" .flag) <|
    .cons (.omittable "time_complexity_result" TimeGrade.codec) <|
    .cons (.omittable "space_complexity_result" SpaceGrade.codec) <|
    .cons (.withDefault "score" .number .zero) <|
    .cons (.omittable "analysis" Analysis.codec) <|
    .cons (.omittable "ast" .raw) <|
    .cons (.withDefault "feedback" .text "") <|
    .cons (.withDefault "feedback_items" FeedbackItem.codec.list []) <|
    .cons (.withDefault "warnings" Codec.text.list []) <|
    .cons (.withDefault "errors" Codec.text.list []) <|
    .cons (.withDefault "metadata" .object []) <|
    .nil).iso
    (fun (isCorrect, timeGrade, spaceGrade, score, analysis, tree, feedback,
        feedbackItems, warnings, errors, metadata, ()) =>
      { isCorrect, timeGrade, spaceGrade, score, analysis, tree, feedback,
        feedbackItems, warnings, errors, metadata })
    (fun v =>
      (v.isCorrect, v.timeGrade, v.spaceGrade, v.score, v.analysis, v.tree,
        v.feedback, v.feedbackItems, v.warnings, v.errors, v.metadata, ()))

/-- The syntax tree of the submission, if one is attached. -/
def program? (verdict : Verdict) : Except TreeFault (Option Node) :=
  programOf? verdict.tree

/-- The feedback of a level, in the order in which it was given. -/
def itemsAt (verdict : Verdict) (level : FeedbackLevel) : List FeedbackItem :=
  verdict.feedbackItems.filter fun item => item.level == level

/-- Checks the score, and in the analysis of the submission its confidence and
that of both costs. -/
def validate (verdict : Verdict) : Except GradingFault Unit := do
  Quantity.score.check verdict.score
  match verdict.analysis with
  | none => return ()
  | some analysis =>
      Quantity.confidence.check analysis.confidence
      Quantity.timeConfidence.checkOption analysis.time.confidence
      Quantity.spaceConfidence.checkOption analysis.space.confidence

end Verdict
end PseudocodeTools
