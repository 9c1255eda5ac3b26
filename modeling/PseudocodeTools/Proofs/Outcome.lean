import Mathlib.Data.List.Forall2
/-!
# Outcomes of steps

A chain of steps succeeds when each of them does, and fails with the fault of
the first that does not.
-/

namespace PseudocodeTools

theorem Except.bind_eq_ok_iff {ε α β : Type} {first : Except ε α}
    {next : α -> Except ε β} {y : β} :
    (first >>= next) = .ok y ↔ exists x, first = .ok x ∧ next x = .ok y := by
  cases first with
  | error fault =>
      constructor
      · intro h
        cases h
      · intro h
        rcases h with ⟨x, hx, _⟩
        cases hx
  | ok x =>
      constructor
      · intro h
        exact ⟨x, rfl, h⟩
      · intro h
        rcases h with ⟨x', hx, hy⟩
        cases hx
        exact hy

theorem Except.bind_eq_error_iff {ε α β : Type} {first : Except ε α}
    {next : α -> Except ε β} {fault : ε} :
    (first >>= next) = .error fault ↔
      first = .error fault ∨ exists x, first = .ok x ∧ next x = .error fault := by
  cases first with
  | error fault' =>
      constructor
      · intro h
        cases h
        exact Or.inl rfl
      · intro h
        rcases h with h | ⟨x, hx, _⟩
        · cases h
          rfl
        · cases hx
  | ok x =>
      constructor
      · intro h
        exact Or.inr ⟨x, rfl, h⟩
      · intro h
        rcases h with h | ⟨x', hx, hfault⟩
        · cases h
        · cases hx
          exact hfault

theorem Except.map_eq_ok_iff {ε α β : Type} {outcome : Except ε α}
    {f : α -> β} {y : β} :
    outcome.map f = .ok y ↔ exists x, outcome = .ok x ∧ f x = y := by
  cases outcome with
  | error fault =>
      simp [Except.map]
  | ok x =>
      simp [Except.map]

theorem Except.map_eq_error_iff {ε α β : Type} {outcome : Except ε α}
    {f : α -> β} {fault : ε} :
    outcome.map f = .error fault ↔ outcome = .error fault := by
  cases outcome with
  | error fault' =>
      simp [Except.map]
  | ok x =>
      simp [Except.map]

theorem Except.mapError_eq_error_iff {ε ε' α : Type} {outcome : Except ε α}
    {f : ε -> ε'} {fault : ε'} :
    outcome.mapError f = .error fault ↔
      exists inner, outcome = .error inner ∧ f inner = fault := by
  cases outcome with
  | error inner =>
      constructor
      · intro h
        cases h
        exact ⟨inner, rfl, rfl⟩
      · intro h
        rcases h with ⟨_, hinner, hfault⟩
        cases hinner
        exact congrArg Except.error hfault
  | ok x =>
      constructor
      · intro h
        cases h
      · intro h
        rcases h with ⟨_, hinner, _⟩
        cases hinner

/-!
# Two outcomes
-/

/-- Both fail with the same fault, or both succeed with related results. -/
inductive AgreeUpTo {ε α β : Type} (R : α -> β -> Prop) :
    Except ε α -> Except ε β -> Prop where
  | ok {x : α} {y : β} (h : R x y) : AgreeUpTo R (.ok x) (.ok y)
  | error (fault : ε) : AgreeUpTo R (.error fault) (.error fault)

namespace AgreeUpTo

variable {ε α β α' β' : Type} {R : α -> β -> Prop} {S : α' -> β' -> Prop}
  {first : Except ε α} {second : Except ε β}

theorem bind (h : AgreeUpTo R first second) {next : α -> Except ε α'}
    {next' : β -> Except ε β'}
    (hnext : forall x y, R x y -> AgreeUpTo S (next x) (next' y)) :
    AgreeUpTo S (first >>= next) (second >>= next') := by
  cases h with
  | ok h => exact hnext _ _ h
  | error fault => exact .error fault

theorem map (h : AgreeUpTo R first second) {pack : α -> α'} {pack' : β -> β'}
    (hpack : forall x y, R x y -> S (pack x) (pack' y)) :
    AgreeUpTo S (first.map pack) (second.map pack') := by
  cases h with
  | ok h => exact .ok (hpack _ _ h)
  | error fault => exact .error fault

theorem imp {R' : α -> β -> Prop} (h : AgreeUpTo R first second)
    (himp : forall x y, R x y -> R' x y) : AgreeUpTo R' first second := by
  cases h with
  | ok h => exact .ok (himp _ _ h)
  | error fault => exact .error fault

theorem of_eq {outcome outcome' : Except ε α} (h : outcome = outcome') :
    AgreeUpTo Eq outcome outcome' := by
  rw [h]
  cases outcome' with
  | ok x => exact .ok rfl
  | error fault => exact .error fault

end AgreeUpTo

/-!
# Lists
-/

theorem exists_mem_of_forall₂ {α β : Type} {R : α -> β -> Prop}
    {xs : List α} {ys : List β} (h : List.Forall₂ R xs ys) {y : β}
    (hy : y ∈ ys) :
    exists x, x ∈ xs ∧ R x y := by
  induction h with
  | nil =>
      cases hy
  | cons hhead _ ih =>
      rcases List.mem_cons.mp hy with heq | htail
      · exact ⟨_, List.mem_cons_self, heq ▸ hhead⟩
      · rcases ih htail with ⟨x, hx, hR⟩
        exact ⟨x, List.mem_cons_of_mem _ hx, hR⟩

theorem mapM_eq_ok_iff {ε α β : Type} {step : α -> Except ε β} {xs : List α}
    {ys : List β} :
    xs.mapM step = .ok ys ↔ List.Forall₂ (fun x y => step x = .ok y) xs ys := by
  induction xs generalizing ys with
  | nil =>
      rw [List.mapM_nil, List.forall₂_nil_left_iff]
      constructor
      · intro h
        cases h
        rfl
      · intro h
        rw [h]
        rfl
  | cons x rest ih =>
      rw [List.mapM_cons, Except.bind_eq_ok_iff, List.forall₂_cons_left_iff]
      constructor
      · intro h
        rcases h with ⟨y, hy, htail⟩
        rcases Except.bind_eq_ok_iff.mp htail with ⟨tail, hrest, hpure⟩
        cases hpure
        exact ⟨y, tail, hy, ih.mp hrest, rfl⟩
      · intro h
        rcases h with ⟨y, tail, hy, hrest, heq⟩
        refine ⟨y, hy, Except.bind_eq_ok_iff.mpr ⟨tail, ih.mpr hrest, ?_⟩⟩
        rw [heq]
        rfl

end PseudocodeTools
