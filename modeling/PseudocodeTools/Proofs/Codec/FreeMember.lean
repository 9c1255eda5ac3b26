import PseudocodeTools.Proofs.Codec.Record
/-!
# Members that may be anything

A field whose codec takes every value never makes a record fail.  So when a
record is read from two objects that differ in the member of this field only,
both readings fail with the same mismatch or give the same values for all other
fields.
-/

namespace PseudocodeTools
namespace Codec

/-- Every value is read. -/
def ReadsAll {α : Type} (codec : Codec α) : Prop :=
  forall value, exists x, codec.ofJson value = .ok x

theorem raw_readsAll : raw.ReadsAll :=
  fun value => ⟨value, rfl⟩

theorem optional_readsAll {α : Type} {codec : Codec α} (h : codec.ReadsAll) :
    codec.optional.ReadsAll := by
  intro value
  by_cases hnull : value = .null
  · exact ⟨none, hnull ▸ rfl⟩
  · rcases h value with ⟨x, hx⟩
    refine ⟨some x, ?_⟩
    rw [ofJson_optional hnull, hx]
    rfl

namespace Field

variable {α : Type} {field : Field α} {members : Json.Members} {key : String}

/-- The field has another key, or it reads every value. -/
def Frees (key : String) (field : Field α) : Prop :=
  field.key = key -> field.codec.ReadsAll

theorem frees_of_ne (h : field.key ≠ key) : field.Frees key :=
  fun heq => absurd heq h

theorem frees_of_readsAll (h : field.codec.ReadsAll) : field.Frees key :=
  fun _ => h

theorem valueIn_insert_self (field : Field α) (members : Json.Members)
    (value : Json) :
    field.valueIn (members.insert field.key value) =
      field.codec.ofJson value := by
  unfold valueIn
  rw [Json.Members.get?_insert, if_pos rfl]

theorem valueIn_insert_of_ne (h : field.key ≠ key) (value : Json) :
    field.valueIn (members.insert key value) = field.valueIn members := by
  unfold valueIn
  rw [Json.Members.get?_insert, if_neg h]

end Field

namespace Fields

variable {ρ : Type} {fields : Fields ρ} {key : String}

/-- The fields with the key read every value. -/
def Frees {ρ : Type} (key : String) : Fields ρ -> Prop
  | nil => True
  | cons field rest => field.Frees key ∧ rest.Frees key

/-- Two rows differ at most in the values for the key, which come from the two
given values. -/
def SameBut {ρ : Type} (key : String) (value value' : Json) :
    Fields ρ -> ρ -> ρ -> Prop
  | nil, (), () => True
  | cons field rest, (x, row), (x', row') =>
      (if field.key = key then
        field.codec.ofJson value = .ok x ∧ field.codec.ofJson value' = .ok x'
      else x = x') ∧
        rest.SameBut key value value' row row'

theorem Frees.check_eq_ok (h : fields.Frees key) (value : Json) :
    fields.check key value = .ok () := by
  induction fields with
  | nil =>
      rfl
  | cons field rest ih =>
      rcases h with ⟨hfield, hrest⟩
      rw [check]
      by_cases hkey : key = field.key
      · rcases hfield hkey.symm value with ⟨x, hx⟩
        rw [if_pos hkey, hx]
      · rw [if_neg hkey]
        exact ih hrest

theorem Frees.checkAll_insert (h : fields.Frees key) (members : Json.Members)
    (value value' : Json) :
    fields.checkAll (members.insert key value) =
      fields.checkAll (members.insert key value') := by
  have hfree (rest : Json.Members) :
      fields.checkAll ((key, value) :: rest) =
        fields.checkAll ((key, value') :: rest) := by
    rw [checkAll, checkAll, h.check_eq_ok, h.check_eq_ok]
  induction members with
  | nil =>
      exact hfree []
  | cons member members ih =>
      rcases member with ⟨k, v⟩
      unfold Json.Members.insert
      by_cases hlt : key < k
      · rw [if_pos hlt, if_pos hlt]
        exact hfree ((k, v) :: members)
      · rw [if_neg hlt, if_neg hlt]
        by_cases heq : key = k
        · rw [if_pos heq, if_pos heq]
          exact hfree members
        · rw [if_neg heq, if_neg heq, checkAll, checkAll, ih]

theorem Frees.agree_fill (h : fields.Frees key) (members : Json.Members)
    (value value' : Json) :
    AgreeUpTo (fields.SameBut key value value')
      (fields.fill (members.insert key value))
      (fields.fill (members.insert key value')) := by
  induction fields with
  | nil =>
      exact .ok trivial
  | cons field rest ih =>
      rcases h with ⟨hfield, hrest⟩
      rw [fill_cons, fill_cons]
      by_cases hkey : field.key = key
      · subst hkey
        rcases hfield rfl value with ⟨x, hx⟩
        rcases hfield rfl value' with ⟨x', hx'⟩
        rw [Field.valueIn_insert_self, Field.valueIn_insert_self, hx, hx']
        apply (ih hrest).bind
        intro row row' hrow
        refine .ok ⟨?_, hrow⟩
        rw [if_pos rfl]
        exact ⟨hx, hx'⟩
      · rw [Field.valueIn_insert_of_ne hkey, Field.valueIn_insert_of_ne hkey]
        apply (AgreeUpTo.of_eq rfl).bind
        rintro x _ rfl
        apply (ih hrest).bind
        intro row row' hrow
        refine .ok ⟨?_, hrow⟩
        rw [if_neg hkey]

theorem Frees.agree_ofMembers (h : fields.Frees key) (members : Json.Members)
    (value value' : Json) :
    AgreeUpTo (fields.SameBut key value value')
      (fields.ofMembers (members.insert key value))
      (fields.ofMembers (members.insert key value')) := by
  unfold ofMembers
  apply (AgreeUpTo.of_eq (h.checkAll_insert members value value')).bind
  intro _ _ _
  exact h.agree_fill members value value'

end Fields

/-- A record that is kept as a structure, read from two objects that differ in a
free member only. -/
theorem agree_ofJson_packed {ρ α : Type} {fields : Fields ρ} {key : String}
    (h : fields.Frees key) (name : String) {pack : ρ -> α} {unpack : α -> ρ}
    {R : α -> α -> Prop} {value value' : Json}
    (hpack : forall row row', fields.SameBut key value value' row row' ->
      R (pack row) (pack row')) (members : Json.Members) :
    AgreeUpTo R
      (((record name fields).iso pack unpack).ofJson
        (.object (members.insert key value)))
      (((record name fields).iso pack unpack).ofJson
        (.object (members.insert key value'))) :=
  (h.agree_ofMembers members value value').map hpack

end Codec
end PseudocodeTools
