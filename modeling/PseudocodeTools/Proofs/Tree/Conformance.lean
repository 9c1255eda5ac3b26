import Mathlib.Data.List.Basic
import PseudocodeTools.Proofs.Tree.Parts
/-!
# Conformance

The grammar of exchanged trees, kind by kind and without the table that the
reader follows.  A value can be read as a tree in a role exactly when it
conforms to the grammar in that role.
-/

namespace PseudocodeTools
namespace Tree

/-!
# Members

A member that is null counts as absent.
-/

def Present (members : Json.Members) (key : String) (value : Json) : Prop :=
  members.get? key = some value ∧ value ≠ .null

def Required (members : Json.Members) (key : String) (P : Json -> Prop) :
    Prop :=
  exists value, Present members key value ∧ P value

def Optional (members : Json.Members) (key : String) (P : Json -> Prop) :
    Prop :=
  forall value, Present members key value -> P value

/-!
# Leaves
-/

def IsString (value : Json) : Prop :=
  exists s, value = .string s

def IsBoolean (value : Json) : Prop :=
  exists b, value = .boolean b

def IsNumber (value : Json) : Prop :=
  exists m, value = .number m

def IsObject (value : Json) : Prop :=
  exists members, value = .object members

/-- An integer that fits a word of 32 bits. -/
def IsCount (value : Json) : Prop :=
  exists n inRange, value = .number (.integer n inRange) ∧
    0 ≤ n ∧ n < 0x100000000

def IsWordOf (words : List String) (value : Json) : Prop :=
  exists s, s ∈ words ∧ value = .string s

def operatorWords : List String :=
  ["+", "-", "*", "/", "%", "^", "//", "==", "!=", "<", "<=", ">", ">=", "and",
    "or", "not", "=", "+=", "-=", "*=", "/="]

def loopTypeWords : List String :=
  ["for", "for_each", "while", "do_while", "repeat_until", "unknown"]

def IsLocation (value : Json) : Prop :=
  exists members, value = .object members ∧
    Required members "line" IsCount ∧ Required members "column" IsCount ∧
    Optional members "end_line" IsCount ∧ Optional members "end_column" IsCount

/-!
# Nodes
-/

/-- The kinds of nodes that may stand in a role. -/
def admittedKinds : Role -> List String
  | .any =>
      ["program", "function", "block", "loop", "conditional", "assignment",
        "return", "function_call", "recursive_call", "variable", "literal",
        "binary_op", "unary_op", "array_access"]
  | .expression =>
      ["variable", "literal", "binary_op", "unary_op", "array_access"]
  | .target => ["variable", "array_access"]
  | .only .program => ["program"]
  | .only .function => ["function"]
  | .only .block => ["block"]
  | .only .loop => ["loop"]
  | .only .conditional => ["conditional"]
  | .only .assignment => ["assignment"]
  | .only .returning => ["return"]
  | .only .call => ["function_call"]
  | .only .recursiveCall => ["recursive_call"]
  | .only .var => ["variable"]
  | .only .literal => ["literal"]
  | .only .binary => ["binary_op"]
  | .only .unary => ["unary_op"]
  | .only .access => ["array_access"]

/-- The members that nodes of all kinds have, of a node of the given kind. -/
structure Header (role : Role) (kind : String) (members : Json.Members) :
    Prop where
  tagged : members.get? "node_type" = some (.string kind)
  admitted : kind ∈ admittedKinds role
  location : Optional members "location" IsLocation
  metadata : Optional members "metadata" IsObject

mutual
/-- A value spells a node that may stand in the role. -/
inductive Conforms : Role -> Json -> Prop where
  | program {role : Role} {members : Json.Members}
      (header : Header role "program" members)
      (functions : Optional members "functions" (ConformsAll (.only .function)))
      (globals : Optional members "global_statements"
        (Conforms (.only .block))) :
      Conforms role (.object members)
  | function {role : Role} {members : Json.Members}
      (header : Header role "function" members)
      (name : Required members "name" IsString)
      (parameters : Optional members "parameters" (ConformsAll (.only .var)))
      (body : Optional members "body" (Conforms (.only .block)))
      (returnType : Optional members "return_type" IsString)
      (isRecursive : Optional members "is_recursive" IsBoolean) :
      Conforms role (.object members)
  | block {role : Role} {members : Json.Members}
      (header : Header role "block" members)
      (statements : Optional members "statements" (ConformsAll .any)) :
      Conforms role (.object members)
  | loop {role : Role} {members : Json.Members} {block : Json}
      (header : Header role "loop" members)
      (loopType : Optional members "loop_type" (IsWordOf loopTypeWords))
      (iterator : Optional members "iterator" (Conforms (.only .var)))
      (start : Optional members "start" (Conforms .expression))
      (stop : Optional members "end" (Conforms .expression))
      (step : Optional members "step" (Conforms .expression))
      (collection : Optional members "collection" (Conforms .expression))
      (condition : Optional members "condition" (Conforms .expression))
      (hasBody : Present members "body" block)
      (body : Conforms (.only .block) block)
      (estimated : Optional members "estimated_iterations" IsString)
      (nestingLevel : Optional members "nesting_level" IsCount) :
      Conforms role (.object members)
  | conditional {role : Role} {members : Json.Members} {test block : Json}
      (header : Header role "conditional" members)
      (hasCondition : Present members "condition" test)
      (condition : Conforms .expression test)
      (hasThenBranch : Present members "then_branch" block)
      (thenBranch : Conforms (.only .block) block)
      (elseBranch : Optional members "else_branch" (Conforms (.only .block)))
      (elifBranches : Optional members "elif_branches"
        (ConformsAll (.only .conditional))) :
      Conforms role (.object members)
  | assignment {role : Role} {members : Json.Members}
      (header : Header role "assignment" members)
      (target : Optional members "target" (Conforms .target))
      (value : Optional members "value" (Conforms .expression))
      (operator : Optional members "operator" (IsWordOf operatorWords)) :
      Conforms role (.object members)
  | returning {role : Role} {members : Json.Members}
      (header : Header role "return" members)
      (value : Optional members "value" (Conforms .expression)) :
      Conforms role (.object members)
  | call {role : Role} {members : Json.Members}
      (header : Header role "function_call" members)
      (functionName : Required members "function_name" IsString)
      (arguments : Optional members "arguments" (ConformsAll .expression))
      (isRecursive : Optional members "is_recursive" IsBoolean) :
      Conforms role (.object members)
  | recursiveCall {role : Role} {members : Json.Members}
      (header : Header role "recursive_call" members)
      (functionName : Required members "function_name" IsString)
      (arguments : Optional members "arguments" (ConformsAll .expression))
      (isRecursive : Optional members "is_recursive" IsBoolean)
      (pattern : Optional members "reduction_pattern" IsString)
      (branchingFactor : Optional members "branching_factor" IsNumber) :
      Conforms role (.object members)
  | var {role : Role} {members : Json.Members}
      (header : Header role "variable" members)
      (name : Required members "name" IsString) :
      Conforms role (.object members)
  | literal {role : Role} {members : Json.Members}
      (header : Header role "literal" members)
      (literalType : Optional members "literal_type" IsString) :
      Conforms role (.object members)
  | binary {role : Role} {members : Json.Members}
      (header : Header role "binary_op" members)
      (operator : Required members "operator" (IsWordOf operatorWords))
      (left : Optional members "left" (Conforms .expression))
      (right : Optional members "right" (Conforms .expression)) :
      Conforms role (.object members)
  | unary {role : Role} {members : Json.Members}
      (header : Header role "unary_op" members)
      (operator : Required members "operator" (IsWordOf operatorWords))
      (operand : Optional members "operand" (Conforms .expression)) :
      Conforms role (.object members)
  | access {role : Role} {members : Json.Members}
      (header : Header role "array_access" members)
      (array : Optional members "array" (Conforms .expression))
      (index : Optional members "index" (Conforms .expression)) :
      Conforms role (.object members)

/-- A value spells a list of nodes that may stand in the role. -/
inductive ConformsAll : Role -> Json -> Prop where
  | array {role : Role} {items : List Json}
      (each : forall item, item ∈ items -> Conforms role item) :
      ConformsAll role (.array items)
end

/-!
# Members that are read
-/

section Member

variable {members : Json.Members} {key : String} {P : Json -> Prop}

theorem present_iff {value : Json} :
    Present members key value ↔ present? members key = some value := by
  unfold Present present?
  rw [Option.filter_eq_some_iff]
  cases value <;> simp [Json.isNull]

theorem required_iff :
    Required members key P ↔ (present? members key).elim False P := by
  unfold Required
  simp only [present_iff]
  cases present? members key <;> simp

theorem optional_iff :
    Optional members key P ↔ (present? members key).elim True P := by
  unfold Optional
  simp only [present_iff]
  cases present? members key <;> simp

end Member

/-!
# Leaves that are read
-/

theorem isCount_iff {value : Json} :
    IsCount value ↔ exists n, value = .number (.ofUInt32 n) := by
  constructor
  · intro h
    rcases h with ⟨n, inRange, rfl, hlow, hhigh⟩
    refine ⟨UInt32.ofNat n.toNat, congrArg Json.number ?_⟩
    rw [← JsonNumber.toUInt32?_eq_some_iff]
    exact if_pos ⟨hlow, hhigh⟩
  · intro h
    rcases h with ⟨n, rfl⟩
    have hlt := n.toNat_lt
    exact ⟨n.toNat, _, rfl, by omega, by omega⟩

theorem required_count_iff {members : Json.Members} {key : String} :
    Required members key IsCount ↔
      exists n, present? members key = some (.number (.ofUInt32 n)) := by
  rw [required_iff]
  cases present? members key with
  | none =>
      simp
  | some value =>
      simp [isCount_iff]

theorem optional_count_iff {members : Json.Members} {key : String} :
    Optional members key IsCount ↔
      exists n? : Option UInt32,
        present? members key = n?.map fun n => .number (.ofUInt32 n) := by
  rw [optional_iff]
  cases present? members key with
  | none =>
      exact iff_of_true trivial ⟨none, rfl⟩
  | some value =>
      constructor
      · intro h
        rcases isCount_iff.mp h with ⟨n, rfl⟩
        exact ⟨some n, rfl⟩
      · intro h
        rcases h with ⟨n?, heq⟩
        rcases Option.map_eq_some_iff.mp heq.symm with ⟨n, _, rfl⟩
        exact isCount_iff.mpr ⟨n, rfl⟩

theorem isWordOf_map_iff {α : Type} {all : List α} {name : α -> String}
    (hall : forall x, x ∈ all) {value : Json} :
    IsWordOf (all.map name) value ↔ exists x, value = .string (name x) := by
  constructor
  · intro h
    rcases h with ⟨s, hs, rfl⟩
    rcases List.mem_map.mp hs with ⟨x, _, rfl⟩
    exact ⟨x, rfl⟩
  · intro h
    rcases h with ⟨x, rfl⟩
    exact ⟨name x, List.mem_map_of_mem (hall x), rfl⟩

theorem isWordOf_operatorWords_iff {value : Json} :
    IsWordOf operatorWords value ↔
      exists op : Operator, value = .string op.name := by
  have hwords : operatorWords = Operator.all.map Operator.name := rfl
  rw [hwords]
  exact isWordOf_map_iff Operator.mem_all

theorem isWordOf_loopTypeWords_iff {value : Json} :
    IsWordOf loopTypeWords value ↔
      exists type : LoopType, value = .string type.name := by
  have hwords : loopTypeWords = LoopType.all.map LoopType.name := rfl
  rw [hwords]
  exact isWordOf_map_iff LoopType.mem_all

theorem isLocation_iff {value : Json} :
    IsLocation value ↔
      exists members location, value = .object members ∧
        SpellsLocation members location := by
  constructor
  · intro h
    rcases h with ⟨members, hvalue, hline, hcolumn, hendLine, hendColumn⟩
    rcases required_count_iff.mp hline with ⟨line, hline⟩
    rcases required_count_iff.mp hcolumn with ⟨column, hcolumn⟩
    rcases optional_count_iff.mp hendLine with ⟨endLine, hendLine⟩
    rcases optional_count_iff.mp hendColumn with ⟨endColumn, hendColumn⟩
    exact ⟨members, ⟨line, column, endLine, endColumn⟩, hvalue, hline, hcolumn,
      hendLine, hendColumn⟩
  · intro h
    rcases h with ⟨members, location, hvalue, hline, hcolumn, hendLine,
      hendColumn⟩
    exact ⟨members, hvalue,
      required_count_iff.mpr ⟨_, hline⟩, required_count_iff.mpr ⟨_, hcolumn⟩,
      optional_count_iff.mpr ⟨_, hendLine⟩,
      optional_count_iff.mpr ⟨_, hendColumn⟩⟩

theorem mem_kinds_iff {role : Role} {type : NodeType} :
    type.name ∈ admittedKinds role ↔ role.admits type = true := by
  cases role with
  | any => cases type <;> decide
  | expression => cases type <;> decide
  | target => cases type <;> decide
  | only expected => cases expected <;> cases type <;> decide

/-!
# Fields that are read
-/

/-- The member of a field is one that the grammar allows, given what it allows
for children. -/
def Accepts (members : Json.Members) (key : String) : Content -> Prop
  | .text none => Required members key IsString
  | .text (some _) | .optionalText => Optional members key IsString
  | .flag _ => Optional members key IsBoolean
  | .count _ => Optional members key IsCount
  | .factor _ => Optional members key IsNumber
  | .operator none => Required members key (IsWordOf operatorWords)
  | .operator (some _) => Optional members key (IsWordOf operatorWords)
  | .loopType _ => Optional members key (IsWordOf loopTypeWords)
  | .raw => True
  | .child role => Required members key (Conforms role)
  | .optionalChild role => Optional members key (Conforms role)
  | .children role => Optional members key (ConformsAll role)

/-- A member gives some value when its fallback does, if it is missing, and when
it is spelled right otherwise. -/
theorem exists_elim_iff {α : Type} {member : Option Json} {fallback : α -> Prop}
    {spells : Json -> α -> Prop} {missing : Prop} {allowed : Json -> Prop}
    (hmissing : (exists x, fallback x) ↔ missing)
    (hallowed : forall value, member = some value ->
      ((exists x, spells value x) ↔ allowed value)) :
    (exists x, member.elim (fallback x) fun value => spells value x) ↔
      member.elim missing allowed := by
  cases member with
  | none =>
      exact hmissing
  | some value =>
      exact hallowed value rfl

section Reads

variable {members : Json.Members} {key : String}
  (ih : forall role part, members.Holds part ->
    ((exists node, Decodes role part node) ↔ Conforms role part))

include ih

theorem exists_decodes_present_iff {role : Role} {value : Json}
    (hvalue : present? members key = some value) :
    (exists node, Decodes role value node) ↔ Conforms role value :=
  ih role value ⟨key, value, get?_of_present? hvalue, Or.inl rfl⟩

theorem exists_decodesAll_present_iff {role : Role} {value : Json}
    (hvalue : present? members key = some value) :
    (exists nodes items, value = .array items ∧
      List.Forall₂ (Decodes role) items nodes) ↔ ConformsAll role value := by
  have hitem : forall items, value = .array items ->
      forall item, item ∈ items ->
        ((exists node, Decodes role item node) ↔ Conforms role item) := by
    intro items heq item hmem
    exact ih role item ⟨key, value, get?_of_present? hvalue,
      Or.inr ⟨items, heq, hmem⟩⟩
  constructor
  · intro h
    rcases h with ⟨nodes, items, heq, hnodes⟩
    rw [heq]
    refine .array fun item hmem => (hitem items heq item hmem).mp ?_
    exact exists_forall₂_iff.mp ⟨nodes, hnodes⟩ item hmem
  · intro h
    cases h with
    | @array _ items each =>
        have hexists : forall item, item ∈ items ->
            exists node, Decodes role item node := by
          intro item hmem
          exact (hitem items rfl item hmem).mpr (each item hmem)
        rcases exists_forall₂_iff.mpr hexists with ⟨nodes, hnodes⟩
        exact ⟨nodes, items, rfl, hnodes⟩

/-- A field can be read from a member that the grammar allows. -/
theorem exists_reads_iff {content : Content} :
    (exists x, content.Reads Decodes members key x) ↔
      Accepts members key content := by
  unfold Content.Reads Content.given
  cases content with
  | text fallback =>
      cases fallback with
      | none =>
          rw [Accepts, required_iff]
          refine exists_elim_iff ?_ ?_
          · simp [Content.Fallback]
          · exact fun _ _ => Iff.rfl
      | some s =>
          rw [Accepts, optional_iff]
          refine exists_elim_iff ?_ ?_
          · exact iff_true_intro ⟨s, rfl⟩
          · exact fun _ _ => Iff.rfl
  | optionalText =>
      rw [Accepts, optional_iff]
      refine exists_elim_iff ?_ ?_
      · exact iff_true_intro ⟨none, rfl⟩
      · intro value _
        constructor
        · intro h
          rcases h with ⟨_, s, _, hvalue⟩
          exact ⟨s, hvalue⟩
        · intro h
          rcases h with ⟨s, hvalue⟩
          exact ⟨some s, s, rfl, hvalue⟩
  | flag fallback =>
      rw [Accepts, optional_iff]
      refine exists_elim_iff ?_ ?_
      · exact iff_true_intro ⟨fallback, rfl⟩
      · exact fun _ _ => Iff.rfl
  | count fallback =>
      rw [Accepts, optional_iff]
      refine exists_elim_iff ?_ ?_
      · exact iff_true_intro ⟨fallback, rfl⟩
      · exact fun _ _ => isCount_iff.symm
  | factor fallback =>
      rw [Accepts, optional_iff]
      refine exists_elim_iff ?_ ?_
      · exact iff_true_intro ⟨fallback, rfl⟩
      · intro value _
        constructor
        · intro h
          rcases h with ⟨_, m, hvalue, _⟩
          exact ⟨m, hvalue⟩
        · intro h
          rcases h with ⟨m, hvalue⟩
          exact ⟨m.toBinary64, m, hvalue, rfl⟩
  | operator fallback =>
      cases fallback with
      | none =>
          rw [Accepts, required_iff]
          refine exists_elim_iff ?_ ?_
          · simp [Content.Fallback]
          · exact fun _ _ => isWordOf_operatorWords_iff.symm
      | some op =>
          rw [Accepts, optional_iff]
          refine exists_elim_iff ?_ ?_
          · exact iff_true_intro ⟨op, rfl⟩
          · exact fun _ _ => isWordOf_operatorWords_iff.symm
  | loopType fallback =>
      rw [Accepts, optional_iff]
      refine exists_elim_iff ?_ ?_
      · exact iff_true_intro ⟨fallback, rfl⟩
      · exact fun _ _ => isWordOf_loopTypeWords_iff.symm
  | raw =>
      refine iff_true_intro ⟨members.get? key, ?_⟩
      cases members.get? key <;> exact rfl
  | child role =>
      rw [Accepts, required_iff]
      refine exists_elim_iff ?_ ?_
      · simp [Content.Fallback]
      · exact fun _ hvalue => exists_decodes_present_iff ih hvalue
  | optionalChild role =>
      rw [Accepts, optional_iff]
      refine exists_elim_iff ?_ ?_
      · exact iff_true_intro ⟨none, rfl⟩
      · intro value hvalue
        rw [← exists_decodes_present_iff ih hvalue]
        constructor
        · intro h
          rcases h with ⟨_, node, _, hnode⟩
          exact ⟨node, hnode⟩
        · intro h
          rcases h with ⟨node, hnode⟩
          exact ⟨some node, node, rfl, hnode⟩
  | children role =>
      rw [Accepts, optional_iff]
      refine exists_elim_iff ?_ ?_
      · exact iff_true_intro ⟨[], rfl⟩
      · exact fun _ hvalue => exists_decodesAll_present_iff ih hvalue

end Reads

/-!
# Nodes that are read
-/

theorem conforms_object_iff {role : Role} {members : Json.Members} :
    Conforms role (.object members) ↔
      exists type : NodeType, Header role type.name members ∧
        type.fields.Forall fun field =>
          Accepts members field.key field.content := by
  constructor
  · intro h
    cases h with
    | program header functions globals =>
        exact ⟨.program, header, functions, globals⟩
    | function header name parameters body returnType isRecursive =>
        exact ⟨.function, header, name, parameters, body, returnType,
          isRecursive⟩
    | block header statements =>
        exact ⟨.block, header, statements⟩
    | loop header loopType iterator start stop step collection condition hasBody
        body estimated nestingLevel =>
        exact ⟨.loop, header, loopType, iterator, start, stop, step,
          collection, condition, ⟨_, hasBody, body⟩, estimated, nestingLevel⟩
    | conditional header hasCondition condition hasThenBranch thenBranch
        elseBranch elifBranches =>
        exact ⟨.conditional, header, ⟨_, hasCondition, condition⟩, ⟨_,
          hasThenBranch, thenBranch⟩, elseBranch, elifBranches⟩
    | assignment header target value operator =>
        exact ⟨.assignment, header, target, value, operator⟩
    | returning header value =>
        exact ⟨.returning, header, value⟩
    | call header functionName arguments isRecursive =>
        exact ⟨.call, header, functionName, arguments, isRecursive⟩
    | recursiveCall header functionName arguments isRecursive pattern
        branchingFactor =>
        exact ⟨.recursiveCall, header, functionName, arguments, isRecursive,
          pattern, branchingFactor⟩
    | var header name =>
        exact ⟨.var, header, name⟩
    | literal header literalType =>
        exact ⟨.literal, header, True.intro, literalType⟩
    | binary header operator left right =>
        exact ⟨.binary, header, operator, left, right⟩
    | unary header operator operand =>
        exact ⟨.unary, header, operator, operand⟩
    | access header array index =>
        exact ⟨.access, header, array, index⟩
  · intro h
    rcases h with ⟨type, header, haccepts⟩
    cases type with
    | program =>
        rcases haccepts with ⟨functions, globals⟩
        exact .program header functions globals
    | function =>
        rcases haccepts with ⟨name, parameters, body, returnType, isRecursive⟩
        exact .function header name parameters body returnType isRecursive
    | block =>
        exact .block header haccepts
    | loop =>
        rcases haccepts with ⟨loopType, iterator, start, stop, step, collection,
          condition, ⟨_, hasBody, body⟩, estimated, nestingLevel⟩
        exact .loop header loopType iterator start stop step collection
          condition hasBody body estimated nestingLevel
    | conditional =>
        rcases haccepts with ⟨⟨_, hasCondition, condition⟩,
          ⟨_, hasThenBranch, thenBranch⟩, elseBranch, elifBranches⟩
        exact .conditional header hasCondition condition hasThenBranch
          thenBranch elseBranch elifBranches
    | assignment =>
        rcases haccepts with ⟨target, value, operator⟩
        exact .assignment header target value operator
    | returning =>
        exact .returning header haccepts
    | call =>
        rcases haccepts with ⟨functionName, arguments, isRecursive⟩
        exact .call header functionName arguments isRecursive
    | recursiveCall =>
        rcases haccepts with ⟨functionName, arguments, isRecursive, pattern,
          branchingFactor⟩
        exact .recursiveCall header functionName arguments isRecursive pattern
          branchingFactor
    | var =>
        exact .var header haccepts
    | literal =>
        rcases haccepts with ⟨_, literalType⟩
        exact .literal header literalType
    | binary =>
        rcases haccepts with ⟨operator, left, right⟩
        exact .binary header operator left right
    | unary =>
        rcases haccepts with ⟨operator, operand⟩
        exact .unary header operator operand
    | access =>
        rcases haccepts with ⟨array, index⟩
        exact .access header array index

theorem optional_location_iff {members : Json.Members} :
    Optional members "location" IsLocation ↔
      exists location? : Option Location,
        (present? members "location" = none ∧ location? = none) ∨
          exists inner location,
            present? members "location" = some (.object inner) ∧
              location? = some location ∧ SpellsLocation inner location := by
  rw [optional_iff]
  cases hgiven : present? members "location" with
  | none =>
      exact iff_of_true True.intro ⟨none, Or.inl ⟨rfl, rfl⟩⟩
  | some value =>
      rw [Option.elim_some, isLocation_iff]
      constructor
      · intro h
        rcases h with ⟨inner, location, rfl, hspells⟩
        exact ⟨some location, Or.inr ⟨inner, location, rfl, rfl, hspells⟩⟩
      · intro h
        rcases h with ⟨_, ⟨hnone, _⟩ | ⟨inner, location, hsome, _, hspells⟩⟩
        · cases hnone
        · exact ⟨inner, location, Option.some.inj hsome, hspells⟩

theorem optional_metadata_iff {members : Json.Members} :
    Optional members "metadata" IsObject ↔
      exists annotations : Json.Members,
        (present? members "metadata" = none ∧ annotations = []) ∨
          present? members "metadata" = some (.object annotations) := by
  rw [optional_iff]
  cases present? members "metadata" with
  | none =>
      exact iff_of_true True.intro ⟨[], Or.inl ⟨rfl, rfl⟩⟩
  | some value =>
      simp [IsObject]

/-!
# Acceptance
-/

theorem exists_decodes_object_iff {role : Role} {members : Json.Members}
    (ih : forall role part, members.Holds part ->
      ((exists node, Decodes role part node) ↔ Conforms role part)) :
    (exists node, Decodes role (.object members) node) ↔
      Conforms role (.object members) := by
  rw [conforms_object_iff]
  constructor
  · intro h
    rcases h with ⟨node, hnode⟩
    rcases decodes_object_iff.mp hnode with ⟨frame, type, row, _, h⟩
    refine ⟨type, ?_, List.forall_iff_forall_mem.mpr ?_⟩
    · exact
        { tagged := h.kind
          admitted := mem_kinds_iff.mpr h.admitted
          location := optional_location_iff.mpr ⟨frame.location, h.location⟩
          metadata := optional_metadata_iff.mpr ⟨frame.metadata, h.metadata⟩ }
    · intro field hfield
      have hread := Row.exists_forall_iff.mp ⟨row, h.fields⟩ field hfield
      exact (exists_reads_iff ih).mp hread
  · intro h
    rcases h with ⟨type, header, haccepts⟩
    rw [List.forall_iff_forall_mem] at haccepts
    rcases optional_location_iff.mp header.location with ⟨location, hlocation⟩
    rcases optional_metadata_iff.mp header.metadata with ⟨metadata, hmetadata⟩
    have hreads : forall field, field ∈ type.fields ->
        exists x, field.content.Reads Decodes members field.key x := by
      intro field hfield
      exact (exists_reads_iff ih).mpr (haccepts field hfield)
    rcases Row.exists_forall_iff.mpr hreads with ⟨row, hrow⟩
    exact ⟨_, decodes_object_iff.mpr
      ⟨⟨location, metadata, extraMembers type members⟩, type, row, rfl,
        { kind := header.tagged
          admitted := mem_kinds_iff.mp header.admitted
          location := hlocation
          metadata := hmetadata
          extra := rfl
          fields := hrow }⟩⟩

/-- A value of any depth is accepted in a role exactly when it conforms to the
grammar in that role. -/
theorem decode_ok_iff_conforms (role : Role) (value : Json) :
    (exists node, decode role value = .ok node) ↔ Conforms role value := by
  change (exists node, Decodes role value node) ↔ Conforms role value
  induction hsize : sizeOf value using Nat.strongRecOn
    generalizing role value with
  | ind size ih =>
      cases value with
      | object members =>
          apply exists_decodes_object_iff
          intro role' part hheld
          exact ih (sizeOf part) (hsize ▸ hheld.sizeOf_lt) role' part rfl
      | null | boolean _ | number _ | string _ | array _ =>
          constructor
          · intro h
            rcases h with ⟨node, hnode⟩
            cases hnode
          · intro h
            cases h

end Tree
end PseudocodeTools
