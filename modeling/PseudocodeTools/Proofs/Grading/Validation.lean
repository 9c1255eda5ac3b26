import PseudocodeTools.Grading.Verdict
/-!
# What the check of a verdict covers

A verdict holds confidences in five places: that of the analysis, those of both
costs in the analysis, and those of the costs in both grades.  The check goes
through the score and the first three.
-/

namespace PseudocodeTools

/-!
# Numbers from zero to one
-/

def Binary64.InUnit (x : Binary64) : Prop :=
  zero.atMost x = true ∧ x.atMost one = true

/-- The bounds of the quantity are zero and one. -/
def Quantity.IsFraction (quantity : Quantity) : Prop :=
  quantity.lower = .zero ∧ quantity.upper = .one

theorem Quantity.IsFraction.allows_iff {quantity : Quantity}
    (h : quantity.IsFraction) {x : Binary64} :
    quantity.allows x = true ↔ x.InUnit := by
  unfold allows Binary64.InUnit
  rw [h.1, h.2, Bool.and_eq_true]

/-!
# Checks in turn
-/

/-- A number that is to be checked, as the quantity that it is. -/
abbrev Check :=
  Quantity × Binary64

namespace Check

def Passes (check : Check) : Prop :=
  check.1.allows check.2 = true

def fault (check : Check) : GradingFault :=
  .outOfRange check.1 check.2

def run (check : Check) : Except GradingFault Unit :=
  check.1.check check.2

/-- Runs the checks up to the first that fails. -/
def runAll (checks : List Check) : Except GradingFault Unit :=
  checks.forM run

theorem run_of_passes {check : Check} (h : check.Passes) :
    check.run = .ok () :=
  if_pos h

theorem run_of_not_passes {check : Check} (h : ¬ check.Passes) :
    check.run = .error check.fault :=
  if_neg h

theorem runAll_cons (check : Check) (checks : List Check) :
    runAll (check :: checks) = check.run >>= fun _ => runAll checks := rfl

theorem runAll_singleton (check : Check) :
    runAll [check] = check.run :=
  bind_pure_unit

theorem runAll_append (front checks : List Check) :
    runAll (front ++ checks) = runAll front >>= fun _ => runAll checks :=
  List.forM_append

theorem runAll_eq_ok_iff {checks : List Check} :
    runAll checks = .ok () ↔ forall check, check ∈ checks -> check.Passes := by
  induction checks with
  | nil =>
      exact iff_of_true rfl (List.forall_mem_nil _)
  | cons check rest ih =>
      rw [runAll_cons, List.forall_mem_cons]
      by_cases hpasses : check.Passes
      · rw [run_of_passes hpasses, ← ih]
        exact (and_iff_right hpasses).symm
      · rw [run_of_not_passes hpasses]
        constructor
        · intro h
          cases h
        · intro h
          exact absurd h.1 hpasses

/-- The fault that is reported is that of the first check that fails. -/
theorem runAll_eq_error_iff {checks : List Check} {fault : GradingFault} :
    runAll checks = .error fault ↔
      exists front check rest, checks = front ++ check :: rest ∧
        (forall passed, passed ∈ front -> passed.Passes) ∧
        ¬ check.Passes ∧ fault = check.fault := by
  constructor
  · intro h
    induction checks with
    | nil =>
        cases h
    | cons check rest ih =>
        rw [runAll_cons] at h
        by_cases hpasses : check.Passes
        · rw [run_of_passes hpasses] at h
          rcases ih h with ⟨front, failed, back, hsplit, hfront, hfailed⟩
          refine ⟨check :: front, failed, back, ?_, ?_, hfailed⟩
          · rw [hsplit]
            rfl
          · exact List.forall_mem_cons.mpr ⟨hpasses, hfront⟩
        · rw [run_of_not_passes hpasses] at h
          cases h
          refine ⟨[], check, rest, rfl, ?_, hpasses, rfl⟩
          intro passed hmem
          cases hmem
  · intro h
    rcases h with ⟨front, check, rest, hsplit, hfront, hfailed, hfault⟩
    rw [hsplit, runAll_append, runAll_eq_ok_iff.mpr hfront, hfault]
    change runAll (check :: rest) = _
    rw [runAll_cons, run_of_not_passes hfailed]
    rfl

end Check

theorem Quantity.checkOption_eq_runAll (quantity : Quantity)
    (value? : Option Binary64) :
    quantity.checkOption value? =
      Check.runAll (value?.toList.map fun value => (quantity, value)) := by
  cases value? with
  | none =>
      rfl
  | some value =>
      exact (Check.runAll_singleton (quantity, value)).symm

/-!
# The checks of a verdict
-/

def Analysis.checks (analysis : Analysis) : List Check :=
  [(.confidence, analysis.confidence)] ++
    ((analysis.time.confidence.toList.map fun x => (.timeConfidence, x)) ++
      analysis.space.confidence.toList.map fun x => (.spaceConfidence, x))

def Verdict.checks (verdict : Verdict) : List Check :=
  (.score, verdict.score) :: verdict.analysis.toList.flatMap Analysis.checks

theorem Verdict.validate_eq_runAll (verdict : Verdict) :
    verdict.validate = Check.runAll verdict.checks := by
  unfold validate checks
  rw [Check.runAll_cons]
  cases verdict.analysis with
  | none =>
      rfl
  | some analysis =>
      rw [Option.toList_some, List.flatMap_singleton]
      unfold Analysis.checks
      rw [Check.runAll_append, Check.runAll_append, Check.runAll_singleton,
        ← Quantity.checkOption_eq_runAll, ← Quantity.checkOption_eq_runAll]
      rfl

/-- The fault of a verdict is that of the first number out of range. -/
theorem Verdict.validate_eq_error_iff {verdict : Verdict}
    {fault : GradingFault} :
    verdict.validate = .error fault ↔
      exists front check rest, verdict.checks = front ++ check :: rest ∧
        (forall passed, passed ∈ front -> passed.Passes) ∧
        ¬ check.Passes ∧ fault = check.fault := by
  rw [validate_eq_runAll]
  exact Check.runAll_eq_error_iff

/-!
# The confidences of a verdict
-/

def TimeCost.confidences (cost : TimeCost) : List Binary64 :=
  cost.confidence.toList

def SpaceCost.confidences (cost : SpaceCost) : List Binary64 :=
  cost.confidence.toList

def Analysis.confidences (analysis : Analysis) : List Binary64 :=
  analysis.confidence ::
    (analysis.time.confidences ++ analysis.space.confidences)

def TimeGrade.confidences (grade : TimeGrade) : List Binary64 :=
  grade.analysis.toList.flatMap TimeCost.confidences

def SpaceGrade.confidences (grade : SpaceGrade) : List Binary64 :=
  grade.analysis.toList.flatMap SpaceCost.confidences

namespace Verdict

def analysisConfidences (verdict : Verdict) : List Binary64 :=
  verdict.analysis.toList.flatMap Analysis.confidences

def gradeConfidences (verdict : Verdict) : List Binary64 :=
  verdict.timeGrade.toList.flatMap TimeGrade.confidences ++
    verdict.spaceGrade.toList.flatMap SpaceGrade.confidences

/-- The score and all confidences of the verdict are in range. -/
def InRange (verdict : Verdict) : Prop :=
  verdict.score.InUnit ∧
    forall x, x ∈ verdict.analysisConfidences ++ verdict.gradeConfidences ->
      x.InUnit

end Verdict

theorem Analysis.map_checks (analysis : Analysis) :
    analysis.checks.map Prod.snd = analysis.confidences := by
  simp [checks, confidences, TimeCost.confidences, SpaceCost.confidences,
    Function.comp_def]

theorem Analysis.isFraction_of_mem_checks {analysis : Analysis} {check : Check}
    (h : check ∈ analysis.checks) :
    check.1.IsFraction := by
  unfold checks at h
  simp only [List.mem_append, List.mem_singleton, List.mem_map] at h
  rcases h with rfl | ⟨x, _, rfl⟩ | ⟨x, _, rfl⟩
  all_goals exact ⟨rfl, rfl⟩

namespace Verdict

theorem map_checks (verdict : Verdict) :
    verdict.checks.map Prod.snd =
      verdict.score :: verdict.analysisConfidences := by
  unfold checks analysisConfidences
  rw [List.map_cons, List.map_flatMap]
  simp only [Analysis.map_checks]

theorem isFraction_of_mem_checks {verdict : Verdict} {check : Check}
    (h : check ∈ verdict.checks) :
    check.1.IsFraction := by
  rcases List.mem_cons.mp h with rfl | h
  · exact ⟨rfl, rfl⟩
  · rcases List.mem_flatMap.mp h with ⟨analysis, _, hcheck⟩
    exact Analysis.isFraction_of_mem_checks hcheck

theorem validate_eq_ok_iff {verdict : Verdict} :
    verdict.validate = .ok () ↔
      verdict.score.InUnit ∧
        forall x, x ∈ verdict.analysisConfidences -> x.InUnit := by
  have hpasses {check : Check} (h : check ∈ verdict.checks) :
      check.Passes ↔ check.2.InUnit :=
    (isFraction_of_mem_checks h).allows_iff
  rw [validate_eq_runAll, Check.runAll_eq_ok_iff, ← List.forall_mem_cons,
    ← map_checks, List.forall_mem_map]
  constructor
  · intro h check hmem
    exact (hpasses hmem).mp (h check hmem)
  · intro h check hmem
    exact (hpasses hmem).mpr (h check hmem)

/-- A verdict is valid if its score and the confidences of its analysis are in
range.  For all confidences to be in range those of the grades must be as well,
which the check leaves out. -/
theorem validate_covers_analysis (verdict : Verdict) :
    (verdict.validate = .ok () ↔
      verdict.score.InUnit ∧
        forall x, x ∈ verdict.analysisConfidences -> x.InUnit) ∧
    (verdict.InRange ↔
      verdict.validate = .ok () ∧
        forall x, x ∈ verdict.gradeConfidences -> x.InUnit) := by
  refine ⟨validate_eq_ok_iff, ?_⟩
  unfold InRange
  rw [validate_eq_ok_iff, List.forall_mem_append, and_assoc]

/-- A result in which the grade on the running time is made with a confidence of
two. -/
def overconfidentResult : Json :=
  .object [("is_correct", .boolean true),
    ("time_complexity_result", .object [
      ("analysis", .object [("confidence", .ofInt 2), ("expression", .string "n"),
        ("overall", .string "O(n)")]),
      ("expected_answer", .string "O(n)"),
      ("expected_normalized", .string "O(n)"),
      ("is_correct", .boolean true)])]

def overconfident : Verdict where
  isCorrect := true
  timeGrade := some {
    isCorrect := true
    expectedAnswer := "O(n)"
    expectedClass := .linear
    analysis := some
      { overall := .linear, expression := "n", confidence := some (.ofInt 2) } }

theorem overconfident_is_valid :
    codec.ofJson overconfidentResult = .ok overconfident ∧
      overconfident.validate = .ok () ∧ ¬ overconfident.InRange := by
  refine ⟨rfl, rfl, ?_⟩
  intro h
  have htwo : Binary64.InUnit (.ofInt 2) := h.2 _ (by decide)
  exact absurd htwo.2 (by decide)

end Verdict

end PseudocodeTools
