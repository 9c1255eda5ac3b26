import PseudocodeTools.Tree.Node
/-!
# Rows of field values

Payloads of all kinds are treated alike as rows.  A property of a payload that
is stated kind by kind is turned into one of its row here, and is used field by
field after that.
-/

namespace PseudocodeTools

variable {ν μ : Type}

/-!
# Properties of fields
-/

/-- Every field of a row has the property. -/
def Row.Forall (P : (field : Field) -> field.content.Value ν -> Prop) :
    (fields : List Field) -> Row ν fields -> Prop
  | [], () => True
  | field :: rest, (x, xs) => P field x ∧ Row.Forall P rest xs

theorem Row.Forall.imp {P Q : (field : Field) -> field.content.Value ν -> Prop}
    {fields : List Field} {row : Row ν fields} (h : Row.Forall P fields row)
    (himp : forall field x, field ∈ fields -> P field x -> Q field x) :
    Row.Forall Q fields row := by
  induction fields with
  | nil =>
      exact True.intro
  | cons field rest ih =>
      rcases row with ⟨x, xs⟩
      constructor
      · exact himp field x List.mem_cons_self h.1
      · exact ih h.2 fun field x hmem =>
          himp field x (List.mem_cons_of_mem _ hmem)

theorem Row.Forall.and {P Q : (field : Field) -> field.content.Value ν -> Prop}
    {fields : List Field} {row : Row ν fields} (hP : Row.Forall P fields row)
    (hQ : Row.Forall Q fields row) :
    Row.Forall (fun field x => P field x ∧ Q field x) fields row := by
  induction fields with
  | nil =>
      exact True.intro
  | cons field rest ih =>
      exact ⟨⟨hP.1, hQ.1⟩, ih hP.2 hQ.2⟩

theorem Row.exists_forall_iff
    {P : (field : Field) -> field.content.Value ν -> Prop}
    {fields : List Field} :
    (exists row, Row.Forall P fields row) ↔
      forall field, field ∈ fields -> exists x, P field x := by
  induction fields with
  | nil =>
      constructor
      · intro _ field hfield
        cases hfield
      · intro _
        exact ⟨(), True.intro⟩
  | cons field rest ih =>
      rw [List.forall_mem_cons, ← ih]
      constructor
      · intro h
        rcases h with ⟨⟨x, xs⟩, hhead, hrest⟩
        exact ⟨⟨x, hhead⟩, ⟨xs, hrest⟩⟩
      · intro h
        rcases h with ⟨⟨x, hhead⟩, ⟨xs, hrest⟩⟩
        exact ⟨(x, xs), hhead, hrest⟩

theorem Payload.forall_toRow_ofRow_iff
    {P : (field : Field) -> field.content.Value ν -> Prop} (type : NodeType)
    (row : Row ν type.fields) :
    Row.Forall P _ (ofRow type row).toRow ↔ Row.Forall P type.fields row := by
  cases type <;> exact Iff.rfl

/-!
# Rows with changed children
-/

/-- The value of a field with its children changed. -/
def Content.map (f : ν -> μ) : (content : Content) -> content.Value ν ->
    content.Value μ
  | text _, s => s
  | optionalText, s? => s?
  | flag _, b => b
  | count _, n => n
  | factor _, x => x
  | operator _, op => op
  | loopType _, type => type
  | raw, value? => value?
  | child _, x => f x
  | optionalChild _, x? => x?.map f
  | children _, xs => xs.map f

def Row.map (f : ν -> μ) : (fields : List Field) -> Row ν fields -> Row μ fields
  | [], () => ()
  | field :: rest, (x, xs) => (field.content.map f x, Row.map f rest xs)

theorem Row.forall_map {f : ν -> μ}
    {P : (field : Field) -> field.content.Value μ -> Prop}
    {fields : List Field} {row : Row ν fields} :
    Row.Forall P fields (Row.map f fields row) ↔
      Row.Forall (fun field x => P field (field.content.map f x))
        fields row := by
  induction fields with
  | nil =>
      exact Iff.rfl
  | cons field rest ih =>
      exact and_congr Iff.rfl ih

/-!
# Children
-/

/-- The children in a field, each with the role of its place. -/
def Content.places : (content : Content) -> content.Value ν -> List (Role × ν)
  | child role, x => [(role, x)]
  | optionalChild role, x? => x?.toList.map fun x => (role, x)
  | children role, xs => xs.map fun x => (role, x)
  | text _, _ | optionalText, _ | flag _, _ | count _, _ | factor _, _ => []
  | operator _, _ | loopType _, _ | raw, _ => []

def Row.places : (fields : List Field) -> Row ν fields -> List (Role × ν)
  | [], () => []
  | field :: rest, (x, xs) => field.content.places x ++ Row.places rest xs

def Payload.places (payload : Payload ν) : List (Role × ν) :=
  Row.places _ payload.toRow

theorem Payload.places_ofRow (type : NodeType) (row : Row ν type.fields) :
    (ofRow type row).places = Row.places type.fields row := by
  cases type <;> rfl

theorem Content.places_map (f : ν -> μ) {content : Content}
    (x : content.Value ν) :
    content.places (content.map f x) =
      (content.places x).map fun place => (place.1, f place.2) := by
  cases content with
  | text _ | optionalText | flag _ | count _ | factor _ | operator _
  | loopType _ | raw | child _ =>
      rfl
  | optionalChild role =>
      change Option ν at x
      cases x <;> rfl
  | children role =>
      change List ν at x
      show (x.map f).map _ = (x.map _).map _
      rw [List.map_map, List.map_map]
      rfl

theorem Row.places_map (f : ν -> μ) {fields : List Field}
    (row : Row ν fields) :
    Row.places fields (Row.map f fields row) =
      (Row.places fields row).map fun place => (place.1, f place.2) := by
  induction fields with
  | nil =>
      rfl
  | cons field rest ih =>
      rcases row with ⟨x, xs⟩
      rw [Row.map, Row.places, Row.places, Content.places_map, ih,
        List.map_append]

theorem Row.forall_places_iff {P : Role × ν -> Prop} {fields : List Field}
    {row : Row ν fields} :
    (forall place, place ∈ Row.places fields row -> P place) ↔
      Row.Forall
        (fun field x => forall place, place ∈ field.content.places x -> P place)
        fields row := by
  induction fields with
  | nil =>
      constructor
      · intro _
        exact True.intro
      · intro _ place hplace
        cases hplace
  | cons field rest ih =>
      rcases row with ⟨x, xs⟩
      simp only [Row.places, List.mem_append, Row.Forall, ← ih]
      constructor
      · intro h
        exact ⟨fun place hplace => h place (Or.inl hplace),
          fun place hplace => h place (Or.inr hplace)⟩
      · intro h place hplace
        rcases hplace with hhead | hrest
        · exact h.1 place hhead
        · exact h.2 place hrest

/-!
# Numbers and raw values
-/

/-- A number in the field is finite. -/
def Content.HasFiniteFactor : (content : Content) -> content.Value ν -> Prop
  | factor _, x => x.isFinite = true
  | _, _ => True

/-- The branching factor, if the payload has one, is finite. -/
def Payload.HasFiniteFactor : Payload ν -> Prop
  | recursiveCall _ _ _ _ branchingFactor => branchingFactor.isFinite = true
  | _ => True

theorem Payload.hasFiniteFactor_ofRow_iff (type : NodeType)
    (row : Row ν type.fields) :
    (ofRow type row).HasFiniteFactor ↔
      Row.Forall (fun field x => field.content.HasFiniteFactor x)
        type.fields row := by
  rw [← forall_toRow_ofRow_iff]
  generalize ofRow type row = payload
  cases payload <;>
    simp [toRow, HasFiniteFactor, Row.Forall, Payload.type, NodeType.fields,
      Content.HasFiniteFactor]

/-- The raw values in a field. -/
def Content.rawValues : (content : Content) -> content.Value ν -> List Json
  | raw, value? => value?.toList
  | _, _ => []

/-- The value of a literal, if there is one. -/
def Payload.rawValues : Payload ν -> List Json
  | literal value _ => value.toList
  | _ => []

def Row.rawValues : (fields : List Field) -> Row ν fields -> List Json
  | [], () => []
  | field :: rest, (x, xs) => field.content.rawValues x ++ Row.rawValues rest xs

theorem Payload.rawValues_ofRow (type : NodeType) (row : Row ν type.fields) :
    (ofRow type row).rawValues = Row.rawValues type.fields row := by
  cases type with
  | literal =>
      exact (List.append_nil _).symm
  | program | function | block | loop | conditional | assignment | returning
  | call | recursiveCall | var | binary | unary | access =>
      rfl

theorem Row.rawValues_map (f : ν -> μ) {fields : List Field}
    (row : Row ν fields) :
    Row.rawValues fields (Row.map f fields row) = Row.rawValues fields row := by
  induction fields with
  | nil =>
      rfl
  | cons field rest ih =>
      rcases row with ⟨x, xs⟩
      rcases field with ⟨key, content⟩
      rw [Row.map, Row.rawValues, Row.rawValues, ih]
      cases content <;> rfl

theorem Payload.forall_rawValues_ofRow_iff {P : Json -> Prop} (type : NodeType)
    (row : Row ν type.fields) :
    (forall value, value ∈ (ofRow type row).rawValues -> P value) ↔
      Row.Forall
        (fun field x =>
          forall value, value ∈ field.content.rawValues x -> P value)
        type.fields row := by
  rw [← forall_toRow_ofRow_iff]
  generalize ofRow type row = payload
  cases payload <;>
    simp [toRow, rawValues, Row.Forall, Payload.type, NodeType.fields,
      Content.rawValues]

end PseudocodeTools
