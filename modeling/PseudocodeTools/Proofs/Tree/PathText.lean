import PseudocodeTools.Proofs.Text.Decimal
import PseudocodeTools.Proofs.Text.Run
import PseudocodeTools.Tree.Fault
/-!
# Written paths

A key may hold a dot or a bracket, so a written path does not tell in general
which steps it is made of.  The keys of the grammar hold neither, and paths with
such keys only are told apart by how they are written.
-/

namespace PseudocodeTools

/-!
# Separators
-/

/-- The characters at which a step is read to begin. -/
def startsStep (c : Char) : Bool :=
  c == '.' || c == '['

/-- A step that does not hold the beginning of another one. -/
def Step.IsPlain : Step -> Prop
  | .key name => forall c, c ∈ name.toList -> startsStep c = false
  | .index _ => True

theorem Step.isPlain_key {name : String}
    (h : name.toList.any startsStep = false) :
    (Step.key name).IsPlain := by
  intro c hc
  exact Bool.eq_false_iff.mpr (List.any_eq_false.mp h c hc)

def Path.IsPlain (path : Path) : Prop :=
  forall step, step ∈ path -> step.IsPlain

/-!
# Steps
-/

/-- The steps of a path as they are written, without the dollar sign. -/
def Path.stepsText (path : Path) : Text :=
  path.flatMap Step.text

theorem Path.stepsText_key (name : String) (path : Path) :
    stepsText (.key name :: path) = '.' :: (name.toList ++ path.stepsText) :=
  rfl

theorem Path.stepsText_index (position : Nat) (path : Path) :
    stepsText (.index position :: path) =
      '[' :: (Text.ofNat position ++ ']' :: path.stepsText) := by
  simp [stepsText, Step.text]

theorem Path.head?_stepsText (path : Path) :
    forall c, path.stepsText.head? = some c -> startsStep c = true := by
  intro c hc
  cases path with
  | nil =>
      cases hc
  | cons step rest =>
      cases step with
      | key name =>
          cases hc
          decide
      | index position =>
          cases hc
          decide

/-- A plain key and what is written behind it are told apart. -/
theorem Path.key_append_inj {name other : String} {path rest : Path}
    (hname : (Step.key name).IsPlain) (hother : (Step.key other).IsPlain)
    (h : name.toList ++ path.stepsText = other.toList ++ rest.stepsText) :
    name = other ∧ path.stepsText = rest.stepsText := by
  have hplain : forall {name : String}, (Step.key name).IsPlain ->
      forall c, c ∈ name.toList -> (!startsStep c) = true := by
    intro name hname c hc
    rw [hname c hc]
    rfl
  have hsteps : forall path : Path,
      forall c, path.stepsText.head? = some c -> (!startsStep c) = false := by
    intro path c hc
    rw [path.head?_stepsText c hc]
    rfl
  rcases run_append_inj (hplain hname) (hplain hother) (hsteps path)
    (hsteps rest) h with ⟨hkeys, hrest⟩
  exact ⟨String.toList_inj.mp hkeys, hrest⟩

theorem Path.index_append_inj {m n : Nat} {path rest : Path}
    (h : Text.ofNat m ++ ']' :: path.stepsText =
      Text.ofNat n ++ ']' :: rest.stepsText) :
    m = n ∧ path.stepsText = rest.stepsText := by
  have hbracket : forall t : Text,
      forall c, (']' :: t).head? = some c -> c.isDigit = false := by
    intro t c hc
    cases hc
    decide
  rcases run_append_inj (fun _ => Text.isDigit_of_mem_ofNat)
    (fun _ => Text.isDigit_of_mem_ofNat) (hbracket _) (hbracket _) h with
    ⟨hdigits, hrest⟩
  exact ⟨Text.ofNat_injective hdigits, List.tail_eq_of_cons_eq hrest⟩

/-!
# Paths
-/

theorem Path.eq_of_stepsText_eq {path other : Path} (hpath : path.IsPlain)
    (hother : other.IsPlain) (h : path.stepsText = other.stepsText) :
    path = other := by
  induction path generalizing other with
  | nil =>
      cases other with
      | nil =>
          rfl
      | cons step rest =>
          cases step <;> cases h
  | cons step path ih =>
      rcases List.forall_mem_cons.mp hpath with ⟨hstep, hbelow⟩
      cases other with
      | nil =>
          cases step <;> cases h
      | cons other rest =>
          rcases List.forall_mem_cons.mp hother with ⟨hfirst, hrest⟩
          -- A key begins with a dot and an index with a bracket.
          cases step with
          | key name =>
              cases other with
              | key name' =>
                  rw [stepsText_key, stepsText_key] at h
                  rcases key_append_inj hstep hfirst
                    (List.tail_eq_of_cons_eq h) with ⟨rfl, hsteps⟩
                  rw [ih hbelow hrest hsteps]
              | index position =>
                  rw [stepsText_key, stepsText_index] at h
                  cases List.head_eq_of_cons_eq h
          | index position =>
              cases other with
              | key name =>
                  rw [stepsText_key, stepsText_index] at h
                  cases List.head_eq_of_cons_eq h
              | index position' =>
                  rw [stepsText_index, stepsText_index] at h
                  rcases index_append_inj (List.tail_eq_of_cons_eq h) with
                    ⟨rfl, hsteps⟩
                  rw [ih hbelow hrest hsteps]

/-- Paths with plain keys are told apart by how they are written. -/
theorem Path.eq_of_text_eq {path other : Path} (hpath : path.IsPlain)
    (hother : other.IsPlain) (h : path.text = other.text) :
    path = other :=
  Path.eq_of_stepsText_eq hpath hother (List.tail_eq_of_cons_eq h)

end PseudocodeTools
