import PseudocodeTools.Grading.Complexity
/-!
# Spellings of complexity classes

A replacement can be undone: there are only finitely many texts from which it
can have made a given text.  Going back from the normal form of a formula
through all the replacements gives the spellings of the class and no others.
-/

namespace PseudocodeTools

/-!
# Undoing a replacement
-/

namespace Text

/-- The texts from which the replacement of `old` by `new` can have made a text,
after as many characters are passed over as given.  Each `new` in it may have
stood there before. -/
def originsAfter (old new : Text) : Nat -> Text -> List Text
  | _, [] => [[]]
  | skip + 1, _ :: t => originsAfter old new skip t
  | 0, c :: t =>
      let kept := (originsAfter old new 0 t).map (c :: ·)
      if new.isPrefixOf (c :: t) then
        kept ++ (originsAfter old new (new.length - 1) t).map (old ++ ·)
      else
        kept

/-- The texts from which the replacement of `old` by `new` can have made a
text. -/
def origins (old new t : Text) : List Text :=
  originsAfter old new 0 t

section Origins

variable {old new s t : Text}

theorem originsAfter_eq (old new : Text) (skip : Nat) (t : Text) :
    originsAfter old new skip t = origins old new (t.drop skip) := by
  induction t generalizing skip with
  | nil =>
      cases skip <;> rfl
  | cons c t ih =>
      cases skip with
      | zero =>
          rfl
      | succ skip =>
          exact ih skip

theorem cons_mem_origins (h : s ∈ origins old new t) (c : Char) :
    c :: s ∈ origins old new (c :: t) := by
  have hkept : c :: s ∈ (originsAfter old new 0 t).map (c :: ·) :=
    List.mem_map_of_mem h
  unfold origins originsAfter
  split
  · exact List.mem_append_left _ hkept
  · exact hkept

theorem append_mem_origins (hnew : new ≠ []) (h : s ∈ origins old new t) :
    old ++ s ∈ origins old new (new ++ t) := by
  cases new with
  | nil =>
      exact absurd rfl hnew
  | cons c rest =>
      have hprefix : (c :: rest).isPrefixOf (c :: (rest ++ t)) = true :=
        List.isPrefixOf_iff_prefix.mpr (List.prefix_append (c :: rest) t)
      have hbehind : originsAfter old (c :: rest) rest.length (rest ++ t) =
          origins old (c :: rest) t := by
        rw [originsAfter_eq, List.drop_left]
      rw [List.cons_append, origins, originsAfter, if_pos hprefix]
      refine List.mem_append_right _ (List.mem_map_of_mem ?_)
      rw [List.length_cons, Nat.add_sub_cancel, hbehind]
      exact h

/-- What a replacement passes over and what it is made from are the two parts of
a text. -/
theorem drop_mem_origins (hold : old ≠ []) (hnew : new ≠ []) (skip : Nat)
    (t : Text) :
    t.drop skip ∈ origins old new (replaceAfter old new skip t) := by
  fun_induction replaceAfter old new skip t with
  | case1 skip =>
      rw [List.drop_nil]
      exact List.mem_singleton_self []
  | case2 skip c t ih =>
      exact ih
  | case3 c t hprefix ih =>
      rcases List.isPrefixOf_iff_prefix.mp hprefix with ⟨rest, happend⟩
      cases old with
      | nil =>
          exact absurd rfl hold
      | cons d old =>
          have hrest : t.drop ((d :: old).length - 1) = rest := by
            rw [← (List.cons.inj happend).2]
            exact List.drop_left
          rw [hrest] at ih
          rw [List.drop_zero, ← happend]
          exact append_mem_origins hnew ih
  | case4 c t hprefix ih =>
      exact cons_mem_origins ih c

theorem mem_origins_replaceAll (hold : old ≠ []) (hnew : new ≠ []) (t : Text) :
    t ∈ origins old new (t.replaceAll old new) :=
  drop_mem_origins hold hnew 0 t

end Origins

/-- The text with the replacements made in turn. -/
def replaceEach (replacements : List (Text × Text)) (t : Text) : Text :=
  replacements.foldl (fun t (old, new) => t.replaceAll old new) t

/-- The texts from which the replacements in turn can have made a text. -/
def originsOfEach : List (Text × Text) -> Text -> List Text
  | [], t => [t]
  | (old, new) :: rest, t => (originsOfEach rest t).flatMap (origins old new)

theorem mem_originsOfEach {replacements : List (Text × Text)}
    (h : forall pair, pair ∈ replacements -> pair.1 ≠ [] ∧ pair.2 ≠ [])
    (t : Text) :
    t ∈ originsOfEach replacements (t.replaceEach replacements) := by
  induction replacements generalizing t with
  | nil =>
      exact List.mem_singleton_self t
  | cons pair rest ih =>
      rcases pair with ⟨old, new⟩
      rcases List.forall_mem_cons.mp h with ⟨⟨hold, hnew⟩, hrest⟩
      exact List.mem_flatMap.mpr ⟨t.replaceAll old new,
        ih hrest (t.replaceAll old new), mem_origins_replaceAll hold hnew t⟩

end Text

/-!
# Spellings
-/

namespace ComplexityClass

/-- The spellings of a class, without blanks and in lower case. -/
def spellings : ComplexityClass -> List Text
  | constant => ["o(1)".toList]
  | logarithmic => ["o(logn)".toList, "o(log(n))".toList]
  | linear => ["o(n)".toList]
  | linearithmic => ["o(nlogn)".toList, "o(nlog(n))".toList]
  | quadratic => ["o(n²)".toList, "o(n^2)".toList, "o(n**2)".toList]
  | cubic => ["o(n³)".toList, "o(n^3)".toList, "o(n**3)".toList]
  | exponential => ["o(2ⁿ)".toList, "o(2^n)".toList, "o(2**n)".toList]
  | factorial => ["o(n!)".toList]

/-- The first spelling of a class is the normal form of its formula. -/
theorem head?_spellings (c : ComplexityClass) :
    c.spellings.head? = some (normalForm c.formula.toList) := by
  cases c <;> decide +kernel

theorem normalForm_formula_inj {c d : ComplexityClass}
    (h : normalForm c.formula.toList = normalForm d.formula.toList) :
    c = d := by
  have hfirst : c.spellings.head? = d.spellings.head? := by
    rw [head?_spellings, head?_spellings, h]
  revert hfirst
  cases c <;> cases d <;> decide

/-- Nothing but the spellings of a class can have become the first of them. -/
theorem originsOfEach_first {c : ComplexityClass} {s : Text}
    (h : c.spellings.head? = some s) :
    Text.originsOfEach replacements s = c.spellings := by
  cases c <;> cases h <;> decide +kernel

theorem replaceEach_of_mem_spellings {c : ComplexityClass} {s : Text}
    (h : s ∈ c.spellings) :
    c.spellings.head? = some (s.replaceEach replacements) := by
  revert s
  cases c <;> decide +kernel

theorem normalForm_eq_iff {c : ComplexityClass} {t : Text} :
    normalForm t = normalForm c.formula.toList ↔ compact t ∈ c.spellings := by
  constructor
  · intro h
    have hnonempty : forall pair, pair ∈ replacements ->
        pair.1 ≠ [] ∧ pair.2 ≠ [] := by
      decide
    have hmem := Text.mem_originsOfEach hnonempty (compact t)
    have hfirst : c.spellings.head? = some (normalForm t) := by
      rw [h, head?_spellings]
    rw [← originsOfEach_first hfirst]
    exact hmem
  · intro h
    have hfirst := replaceEach_of_mem_spellings h
    rw [head?_spellings, Option.some.injEq] at hfirst
    exact hfirst.symm

theorem parse?_eq_some_iff {c : ComplexityClass} {t : Text} :
    parse? t = some c ↔ compact t ∈ c.spellings := by
  rw [← normalForm_eq_iff]
  constructor
  · intro h
    have hfound := List.find?_some h
    exact (beq_iff_eq.mp hfound).symm
  · intro h
    cases hparse : parse? t with
    | none =>
        have hnone := List.find?_eq_none.mp hparse c (mem_all c)
        exact absurd (beq_iff_eq.mpr h.symm) hnone
    | some d =>
        have hfound := List.find?_some hparse
        rw [normalForm_formula_inj ((beq_iff_eq.mp hfound).trans h)]

/-- A text names a class exactly if it is one of its spellings, blanks and case
aside, and names none if it is no spelling of any. -/
theorem parse?_accepts_spellings (t : Text) :
    (forall c, parse? t = some c ↔ compact t ∈ c.spellings) ∧
      (parse? t = none ↔ forall c : ComplexityClass,
        compact t ∉ c.spellings) := by
  refine ⟨fun c => parse?_eq_some_iff, ?_⟩
  rw [Option.eq_none_iff_forall_ne_some]
  exact forall_congr' fun c => not_congr parse?_eq_some_iff

end ComplexityClass
end PseudocodeTools
