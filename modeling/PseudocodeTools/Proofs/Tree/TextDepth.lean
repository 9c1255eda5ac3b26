import PseudocodeTools.Proofs.JsonText.Printed
import PseudocodeTools.Proofs.Tree.Parts
import PseudocodeTools.Tree.Build
/-!
# Depth of trees in text

The grammar of trees sets no bound on the depth of a value, but the reader of
the text does.  Up to that bound it makes no difference whether a tree is read
from a value or from its compact text; beyond it the text holds no tree.
-/

namespace PseudocodeTools
namespace Tree

section Text

variable {value : Json}

theorem decodeText_print_of_le (hordered : value.Ordered)
    (hintegral : value.Integral) (hdepth : value.depth ≤ nestingLimit) :
    decodeText value.print = (decode .any value).mapError .structural := by
  unfold decodeText
  rw [(Json.read_print hordered hintegral nestingLimit).1 hdepth]
  dsimp only
  cases decode .any value <;> rfl

theorem decodeText_print_of_lt (hordered : value.Ordered)
    (hintegral : value.Integral) (hdepth : nestingLimit < value.depth) :
    exists fault, decodeText value.print = .error (.syntactic fault) ∧
      fault.cause = .tooDeep := by
  rcases (Json.read_print hordered hintegral nestingLimit).2 hdepth with
    ⟨fault, hread, hcause⟩
  refine ⟨fault, ?_, hcause⟩
  unfold decodeText
  rw [hread]

/-- No fault of the text is one of the value. -/
theorem syntactic_ne_decode (fault : Placed SyntaxFault) :
    (.error (.syntactic fault) : Except TreeTextFault Node) ≠
      (decode .any value).mapError .structural := by
  cases decode .any value <;> nofun

end Text

/-!
# Expressions of any depth
-/

/-- A variable behind the given number of minus signs. -/
def negated : Nat -> Json
  | 0 => .object [("name", .string "x"), ("node_type", .string "variable")]
  | n + 1 =>
      .object [("node_type", .string "unary_op"), ("operand", negated n),
        ("operator", .string "-")]

theorem depth_negated (n : Nat) : (negated n).depth = n + 1 := by
  induction n with
  | zero =>
      rfl
  | succ n ih =>
      simp [negated, Json.depth, Json.depthMembers, ih]

theorem ordered_negated (n : Nat) : (negated n).Ordered := by
  induction n with
  | zero =>
      simp only [negated, Json.Ordered, Json.OrderedMembers]
      decide
  | succ n ih =>
      have hkeys : ["node_type", "operand", "operator"].Pairwise (· < ·) := by
        decide
      refine Json.ordered_object_iff.mpr ⟨List.pairwise_map.mp hkeys, ?_⟩
      refine List.forall_mem_cons.mpr ⟨True.intro, ?_⟩
      exact List.forall_mem_cons.mpr
        ⟨ih, List.forall_mem_singleton.mpr True.intro⟩

theorem integral_negated (n : Nat) : (negated n).Integral := by
  induction n with
  | zero =>
      refine .object (List.forall_mem_cons.mpr ⟨.string "x", ?_⟩)
      exact List.forall_mem_singleton.mpr (.string "variable")
  | succ n ih =>
      refine .object (List.forall_mem_cons.mpr ⟨.string "unary_op", ?_⟩)
      refine List.forall_mem_cons.mpr ⟨ih, ?_⟩
      exact List.forall_mem_singleton.mpr (.string "-")

/-- What stands behind a minus sign is an expression, and so is the whole. -/
theorem exists_decodes_negated (n : Nat) :
    exists node, Decodes .expression (negated n) node ∧
      Decodes .any (negated n) node := by
  induction n with
  | zero =>
      exact ⟨_, rfl, rfl⟩
  | succ n ih =>
      rcases ih with ⟨operand, hoperand, _⟩
      have hnull : (negated n).isNull = false := by
        cases n <;> rfl
      have hgiven : present?
          [("node_type", .string "unary_op"), ("operand", negated n),
            ("operator", .string "-")] "operand" = some (negated n) :=
        present?_of_get? rfl hnull
      have hspells : forall role : Role, role.admits .unary = true ->
          SpellsNode role
            [("node_type", .string "unary_op"), ("operand", negated n),
              ("operator", .string "-")]
            Frame.empty .unary (.subtract, some operand, ()) :=
        fun role hrole =>
          { kind := rfl
            admitted := hrole
            location := Or.inl ⟨rfl, rfl⟩
            metadata := Or.inl ⟨rfl, rfl⟩
            extra := rfl
            fields := ⟨rfl,
              Content.reads_iff.mpr
                (Or.inr ⟨negated n, hgiven, operand, rfl, hoperand⟩),
              True.intro⟩ }
      refine ⟨.mk Frame.empty (.ofRow .unary (.subtract, some operand, ())),
        ?_, ?_⟩
      · exact decodes_object_iff.mpr ⟨_, _, _, rfl, hspells .expression rfl⟩
      · exact decodes_object_iff.mpr ⟨_, _, _, rfl, hspells .any rfl⟩

/-!
# Depth
-/

/-- A value without floating-point numbers and its compact text spell the same
tree or have the same fault exactly if the value is not nested too deep; if it
is, that is the fault of the text. -/
theorem decodeText_print_iff {value : Json} (hordered : value.Ordered)
    (hintegral : value.Integral) :
    (decodeText value.print = (decode .any value).mapError .structural ↔
      value.depth ≤ nestingLimit) ∧
    (nestingLimit < value.depth -> exists fault,
      decodeText value.print = .error (.syntactic fault) ∧
        fault.cause = .tooDeep) := by
  refine ⟨⟨fun hsame => ?_, decodeText_print_of_le hordered hintegral⟩,
    decodeText_print_of_lt hordered hintegral⟩
  rw [← Nat.not_lt]
  intro hdeep
  rcases decodeText_print_of_lt hordered hintegral hdeep with ⟨fault, hfault, _⟩
  exact syntactic_ne_decode fault (hfault.symm.trans hsame)

/-- Behind 126 signs the variable is as deep as the text may go. -/
theorem decodeText_print_negated :
    (negated 126).Ordered ∧ (negated 126).Integral ∧
    decodeText (negated 126).print =
      (decode .any (negated 126)).mapError .structural := by
  have hdepth : (negated 126).depth ≤ nestingLimit := by
    rw [depth_negated]
    decide
  exact ⟨ordered_negated 126, integral_negated 126,
    (decodeText_print_iff (ordered_negated 126)
      (integral_negated 126)).1.mpr hdepth⟩

/-- Behind 127 signs the variable is one level too deep for the text, though the
value is an expression like any other. -/
theorem decodeText_negated :
    (negated 127).Ordered ∧ (negated 127).Integral ∧
    (exists node, decode .any (negated 127) = .ok node) ∧
    (exists fault, decodeText (negated 127).print = .error (.syntactic fault) ∧
      fault.cause = .tooDeep) ∧
    decodeText (negated 127).print ≠
      (decode .any (negated 127)).mapError .structural := by
  have hdeep : nestingLimit < (negated 127).depth := by
    rw [depth_negated]
    decide
  rcases exists_decodes_negated 127 with ⟨node, _, hnode⟩
  rcases decodeText_print_of_lt (ordered_negated 127) (integral_negated 127)
    hdeep with ⟨fault, hfault, hcause⟩
  refine ⟨ordered_negated 127, integral_negated 127, ⟨node, hnode⟩,
    ⟨fault, hfault, hcause⟩, ?_⟩
  rw [hfault]
  exact syntactic_ne_decode fault

end Tree
end PseudocodeTools
