import PseudocodeTools.EditorSettings
import PseudocodeTools.Grading.Request
import PseudocodeTools.Grading.Verdict
import PseudocodeTools.Proofs.Codec.Record
/-!
# Bundles survive the exchange

Every bundle that is exchanged is a record of lawful fields under different
keys, so a bundle that was read is the same after it is written and read again.
-/

namespace PseudocodeTools

open Codec (choice_lawful packed_lawful list_lawful flag_lawful text_lawful
  number_lawful word32_lawful raw_lawful object_lawful returns_number
  returns_word32)
open Codec.Field (required_lawful withDefault_lawful nullable_lawful
  omittable_lawful)

/-!
# Requests
-/

theorem PseudocodeStyle.codec_lawful : codec.Lawful :=
  choice_lawful _ _

theorem GradingParams.codec_lawful : codec.Lawful :=
  packed_lawful
    ⟨withDefault_lawful _ flag_lawful rfl,
      withDefault_lawful _ flag_lawful rfl,
      withDefault_lawful _ flag_lawful rfl,
      withDefault_lawful _ flag_lawful rfl,
      withDefault_lawful _ number_lawful (returns_number rfl),
      withDefault_lawful _ number_lawful (returns_number rfl),
      withDefault_lawful _ flag_lawful rfl,
      withDefault_lawful _ flag_lawful rfl,
      withDefault_lawful _ flag_lawful rfl,
      withDefault_lawful _ flag_lawful rfl,
      withDefault_lawful _ flag_lawful rfl,
      withDefault_lawful _ flag_lawful rfl,
      withDefault_lawful _ flag_lawful rfl,
      withDefault_lawful _ PseudocodeStyle.codec_lawful rfl,
      withDefault_lawful _ flag_lawful rfl,
      withDefault_lawful _ word32_lawful (returns_word32 _),
      withDefault_lawful _ number_lawful (returns_number rfl),
      trivial⟩
    (by decide)
    fun _ => rfl

/-- The default parameters are what is read from an object without members. -/
theorem GradingParams.returns_default : codec.Returns {} :=
  codec_lawful.returns (show codec.ofJson (.object []) = .ok {} from rfl)

theorem Submission.codec_lawful : codec.Lawful :=
  packed_lawful
    ⟨required_lawful _ text_lawful,
      nullable_lawful _ text_lawful,
      nullable_lawful _ text_lawful,
      nullable_lawful _ text_lawful,
      trivial⟩
    (by decide)
    fun _ => rfl

theorem AnswerKey.codec_lawful : codec.Lawful :=
  packed_lawful
    ⟨withDefault_lawful _ text_lawful rfl,
      withDefault_lawful _ text_lawful rfl,
      withDefault_lawful _ (list_lawful text_lawful) rfl,
      withDefault_lawful _ (list_lawful text_lawful) rfl,
      omittable_lawful _ text_lawful,
      omittable_lawful _ text_lawful,
      withDefault_lawful _ (list_lawful text_lawful) rfl,
      withDefault_lawful _ number_lawful (returns_number rfl),
      withDefault_lawful _ number_lawful (returns_number rfl),
      withDefault_lawful _ GradingParams.codec_lawful
        GradingParams.returns_default,
      trivial⟩
    (by decide)
    fun _ => rfl

theorem GradingRequest.codec_lawful : codec.Lawful :=
  packed_lawful
    ⟨required_lawful _ Submission.codec_lawful,
      required_lawful _ AnswerKey.codec_lawful,
      withDefault_lawful _ GradingParams.codec_lawful
        GradingParams.returns_default,
      trivial⟩
    (by decide)
    fun _ => rfl

/-!
# Verdicts
-/

theorem ComplexityClass.codec_lawful : codec.Lawful :=
  choice_lawful _ _

theorem TimeCost.codec_lawful : codec.Lawful :=
  packed_lawful
    ⟨required_lawful _ ComplexityClass.codec_lawful,
      required_lawful _ text_lawful,
      omittable_lawful _ text_lawful,
      omittable_lawful _ text_lawful,
      omittable_lawful _ number_lawful,
      trivial⟩
    (by decide)
    fun _ => rfl

theorem SpaceCost.codec_lawful : codec.Lawful :=
  packed_lawful
    ⟨required_lawful _ ComplexityClass.codec_lawful,
      required_lawful _ text_lawful,
      omittable_lawful _ text_lawful,
      omittable_lawful _ text_lawful,
      omittable_lawful _ number_lawful,
      trivial⟩
    (by decide)
    fun _ => rfl

theorem Construct.codec_lawful : codec.Lawful :=
  packed_lawful
    ⟨required_lawful _ text_lawful,
      withDefault_lawful _ text_lawful rfl,
      omittable_lawful _ text_lawful,
      withDefault_lawful _ ComplexityClass.codec_lawful rfl,
      withDefault_lawful _ object_lawful rfl,
      trivial⟩
    (by decide)
    fun _ => rfl

theorem ParseOutcome.codec_lawful : codec.Lawful :=
  packed_lawful
    ⟨required_lawful _ flag_lawful,
      omittable_lawful _ raw_lawful,
      withDefault_lawful _ (list_lawful text_lawful) rfl,
      withDefault_lawful _ (list_lawful text_lawful) rfl,
      omittable_lawful _ text_lawful,
      trivial⟩
    (by decide)
    fun _ => rfl

theorem Analysis.codec_lawful : codec.Lawful :=
  packed_lawful
    ⟨required_lawful _ TimeCost.codec_lawful,
      required_lawful _ SpaceCost.codec_lawful,
      withDefault_lawful _ (list_lawful Construct.codec_lawful) rfl,
      omittable_lawful _ text_lawful,
      withDefault_lawful _ number_lawful (returns_number rfl),
      omittable_lawful _ ParseOutcome.codec_lawful,
      trivial⟩
    (by decide)
    fun _ => rfl

theorem TimeGrade.codec_lawful : codec.Lawful :=
  packed_lawful
    ⟨required_lawful _ flag_lawful,
      omittable_lawful _ text_lawful,
      required_lawful _ text_lawful,
      omittable_lawful _ text_lawful,
      omittable_lawful _ ComplexityClass.codec_lawful,
      required_lawful _ ComplexityClass.codec_lawful,
      omittable_lawful _ TimeCost.codec_lawful,
      withDefault_lawful _ text_lawful rfl,
      trivial⟩
    (by decide)
    fun _ => rfl

theorem SpaceGrade.codec_lawful : codec.Lawful :=
  packed_lawful
    ⟨required_lawful _ flag_lawful,
      omittable_lawful _ text_lawful,
      required_lawful _ text_lawful,
      omittable_lawful _ text_lawful,
      omittable_lawful _ ComplexityClass.codec_lawful,
      required_lawful _ ComplexityClass.codec_lawful,
      omittable_lawful _ SpaceCost.codec_lawful,
      withDefault_lawful _ text_lawful rfl,
      trivial⟩
    (by decide)
    fun _ => rfl

theorem FeedbackLevel.codec_lawful : codec.Lawful :=
  choice_lawful _ _

theorem FeedbackItem.codec_lawful : codec.Lawful :=
  packed_lawful
    ⟨withDefault_lawful _ FeedbackLevel.codec_lawful rfl,
      required_lawful _ text_lawful,
      omittable_lawful _ text_lawful,
      omittable_lawful _ text_lawful,
      omittable_lawful _ text_lawful,
      trivial⟩
    (by decide)
    fun _ => rfl

theorem Verdict.codec_lawful : codec.Lawful :=
  packed_lawful
    ⟨required_lawful _ flag_lawful,
      omittable_lawful _ TimeGrade.codec_lawful,
      omittable_lawful _ SpaceGrade.codec_lawful,
      withDefault_lawful _ number_lawful (returns_number rfl),
      omittable_lawful _ Analysis.codec_lawful,
      omittable_lawful _ raw_lawful,
      withDefault_lawful _ text_lawful rfl,
      withDefault_lawful _ (list_lawful FeedbackItem.codec_lawful) rfl,
      withDefault_lawful _ (list_lawful text_lawful) rfl,
      withDefault_lawful _ (list_lawful text_lawful) rfl,
      withDefault_lawful _ object_lawful rfl,
      trivial⟩
    (by decide)
    fun _ => rfl

/-!
# Settings
-/

theorem FoldStrategy.codec_lawful : codec.Lawful :=
  choice_lawful _ _

theorem EditorSettings.codec_lawful : codec.Lawful :=
  packed_lawful
    ⟨withDefault_lawful _ FoldStrategy.codec_lawful rfl,
      withDefault_lawful _ text_lawful rfl,
      trivial⟩
    (by decide)
    fun (strategy, unit, _) => by
      rw [String.ofList_toList]


/-!
# All bundles
-/

/-- The sorts of bundles that are exchanged. -/
inductive BundleKind where
  | params
  | submission
  | key
  | request
  | verdict
  | parseOutcome
  | feedbackItem
  | analysis
  | construct
  | timeCost
  | spaceCost
  | timeGrade
  | spaceGrade
  | settings

namespace BundleKind

def Bundle : BundleKind -> Type
  | params => GradingParams
  | submission => Submission
  | key => AnswerKey
  | request => GradingRequest
  | verdict => Verdict
  | parseOutcome => ParseOutcome
  | feedbackItem => FeedbackItem
  | analysis => Analysis
  | construct => Construct
  | timeCost => TimeCost
  | spaceCost => SpaceCost
  | timeGrade => TimeGrade
  | spaceGrade => SpaceGrade
  | settings => EditorSettings

def codec : (kind : BundleKind) -> Codec kind.Bundle
  | params => GradingParams.codec
  | submission => Submission.codec
  | key => AnswerKey.codec
  | request => GradingRequest.codec
  | verdict => Verdict.codec
  | parseOutcome => ParseOutcome.codec
  | feedbackItem => FeedbackItem.codec
  | analysis => Analysis.codec
  | construct => Construct.codec
  | timeCost => TimeCost.codec
  | spaceCost => SpaceCost.codec
  | timeGrade => TimeGrade.codec
  | spaceGrade => SpaceGrade.codec
  | settings => EditorSettings.codec

theorem codec_lawful : (kind : BundleKind) -> kind.codec.Lawful
  | params => GradingParams.codec_lawful
  | submission => Submission.codec_lawful
  | key => AnswerKey.codec_lawful
  | request => GradingRequest.codec_lawful
  | verdict => Verdict.codec_lawful
  | parseOutcome => ParseOutcome.codec_lawful
  | feedbackItem => FeedbackItem.codec_lawful
  | analysis => Analysis.codec_lawful
  | construct => Construct.codec_lawful
  | timeCost => TimeCost.codec_lawful
  | spaceCost => SpaceCost.codec_lawful
  | timeGrade => TimeGrade.codec_lawful
  | spaceGrade => SpaceGrade.codec_lawful
  | settings => EditorSettings.codec_lawful

/-- A bundle that was read, be it from an object or from an array, is read back
from what is written for it, and what is then written is the same again. -/
theorem survives_exchange (kind : BundleKind) {value : Json}
    {bundle : kind.Bundle} (hread : kind.codec.ofJson value = .ok bundle) :
    kind.codec.ofJson (kind.codec.toJson bundle) = .ok bundle ∧
      (kind.codec.ofJson (kind.codec.toJson bundle)).map kind.codec.toJson =
        .ok (kind.codec.toJson bundle) := by
  have hback : kind.codec.ofJson (kind.codec.toJson bundle) = .ok bundle :=
    kind.codec_lawful.returns hread
  refine ⟨hback, ?_⟩
  rw [hback]
  rfl

/-- A grade in array form: it has no detected complexity, and it ends before the
analysis and the feedback. -/
def gradeInArray : Json :=
  .array [.boolean true, .string "O(n)", .string "O(n)", .null, .string "O(n)",
    .object [("O(n)", .null)]]

def grade : TimeGrade where
  isCorrect := true
  studentAnswer := some "O(n)"
  expectedAnswer := "O(n)"
  studentClass := some .linear
  expectedClass := .linear

theorem grade_survives_exchange :
    TimeGrade.codec.ofJson gradeInArray = .ok grade ∧
    TimeGrade.codec.ofJson (TimeGrade.codec.toJson grade) = .ok grade ∧
    (TimeGrade.codec.ofJson (TimeGrade.codec.toJson grade)).map
      TimeGrade.codec.toJson = .ok (TimeGrade.codec.toJson grade) := by
  have hread : TimeGrade.codec.ofJson gradeInArray = .ok grade := rfl
  exact ⟨hread, survives_exchange .timeGrade hread⟩

end BundleKind
end PseudocodeTools
