import Mathlib.Data.List.TakeWhile
import PseudocodeTools.Text.Basic
/-!
# Runs of characters

A run of characters of a class that ends before a character of another class is
found again by the class alone.
-/

namespace PseudocodeTools

section Run

variable {P : Char -> Bool} {run after run' after' : Text}

theorem eq_false_of_head?_dropWhile {t : Text} {c : Char}
    (h : (t.dropWhile P).head? = some c) :
    P c = false := by
  have hhead := List.head?_dropWhile_not P t
  rw [h] at hhead
  simpa using hhead

theorem takeWhile_run_append (hrun : forall c, c ∈ run -> P c = true)
    (hstop : forall c, after.head? = some c -> P c = false) :
    (run ++ after).takeWhile P = run := by
  rw [List.takeWhile_append_of_pos hrun]
  cases after with
  | nil =>
      exact List.append_nil run
  | cons c rest =>
      rw [List.takeWhile_cons, hstop c rfl]
      exact List.append_nil run

theorem dropWhile_run_append (hrun : forall c, c ∈ run -> P c = true)
    (hstop : forall c, after.head? = some c -> P c = false) :
    (run ++ after).dropWhile P = after := by
  rw [List.dropWhile_append_of_pos hrun]
  cases after with
  | nil =>
      rfl
  | cons c rest =>
      rw [List.dropWhile_cons, hstop c rfl]
      rfl

theorem takeWhile_append_of_stop
    (hstop : forall c, after.head? = some c -> P c = false) (t : Text) :
    (t ++ after).takeWhile P = t.takeWhile P := by
  have hrest : after.takeWhile P = [] := by
    cases after with
    | nil =>
        rfl
    | cons c rest =>
        rw [List.takeWhile_cons, hstop c rfl]
        rfl
  rw [List.takeWhile_append, hrest]
  split
  · rename_i hlength
    rw [List.append_nil]
    exact ((List.takeWhile_prefix P).eq_of_length hlength).symm
  · rfl

/-- Two texts that begin with a run of one class begin with the same one. -/
theorem run_append_inj (hrun : forall c, c ∈ run -> P c = true)
    (hrun' : forall c, c ∈ run' -> P c = true)
    (hstop : forall c, after.head? = some c -> P c = false)
    (hstop' : forall c, after'.head? = some c -> P c = false)
    (h : run ++ after = run' ++ after') :
    run = run' ∧ after = after' := by
  have hsame : run = run' := by
    rw [← takeWhile_run_append hrun hstop, h,
      takeWhile_run_append hrun' hstop']
  rw [hsame] at h
  exact ⟨hsame, List.append_cancel_left h⟩

end Run

end PseudocodeTools
