import PseudocodeTools.Codec.Record
import PseudocodeTools.Proofs.Codec.Laws
import PseudocodeTools.Proofs.Json.Members
/-!
# Records that survive writing

A field that is not written must be one that may be missing, and its value the
one that is put in for a missing field.  With that, and with different keys for
the fields, a record that was read from an object or from an array is read back
from the object that is written for it.
-/

namespace PseudocodeTools
namespace Codec

/-!
# Fields
-/

namespace Field

variable {α : Type}

/-- The value is found again: one that is left out is the fallback of the field,
and one that is written is read back. -/
def Returns (field : Field α) (x : α) : Prop :=
  if field.omits x then field.fallback = some x else field.codec.Returns x

/-- Every value that the field can come to hold by reading is found again. -/
structure Lawful (field : Field α) : Prop where
  returns_of_read : forall {value : Json} {x : α},
    field.codec.ofJson value = .ok x -> field.Returns x
  returns_of_fallback : forall {x : α},
    field.fallback = some x -> field.Returns x

theorem whenMissing_eq_ok_iff {field : Field α} {fault : Mismatch} {x : α} :
    field.whenMissing fault = .ok x ↔ field.fallback = some x := by
  unfold whenMissing
  cases field.fallback with
  | none =>
      simp
  | some y =>
      simp

/-- What an object with the given members has for the field. -/
def valueIn (field : Field α) (members : Json.Members) : Except Mismatch α :=
  match members.get? field.key with
  | some value => field.codec.ofJson value
  | none => field.whenMissing (.missingField field.key)

theorem Lawful.returns_of_valueIn {field : Field α} (h : field.Lawful)
    {members : Json.Members} {x : α} (hx : field.valueIn members = .ok x) :
    field.Returns x := by
  unfold valueIn at hx
  split at hx
  · exact h.returns_of_read hx
  · exact h.returns_of_fallback (whenMissing_eq_ok_iff.mp hx)

theorem fallback_of_returns {field : Field α} {x : α} (h : field.Returns x)
    (homits : field.omits x = true) :
    field.fallback = some x := by
  unfold Returns at h
  rwa [if_pos homits] at h

theorem returns_codec {field : Field α} {x : α} (h : field.Returns x)
    (homits : ¬ field.omits x = true) :
    field.codec.ofJson (field.codec.toJson x) = .ok x := by
  unfold Returns at h
  rwa [if_neg homits] at h

/-- A value that is found again is found in what is written for it. -/
theorem valueIn_eq_ok {field : Field α} {x : α} (h : field.Returns x)
    {members : Json.Members}
    (hget : members.get? field.key =
      if field.omits x then none else some (field.codec.toJson x)) :
    field.valueIn members = .ok x := by
  unfold valueIn
  rw [hget]
  by_cases homits : field.omits x = true
  · rw [if_pos homits]
    exact whenMissing_eq_ok_iff.mpr (fallback_of_returns h homits)
  · rw [if_neg homits]
    exact returns_codec h homits

variable {codec : Codec α}

theorem required_lawful (key : String) (h : codec.Lawful) :
    (required key codec).Lawful where
  returns_of_read hread := h.returns hread
  returns_of_fallback hfallback := nomatch hfallback

theorem withDefault_lawful (key : String) {value : α} (h : codec.Lawful)
    (hvalue : codec.Returns value) :
    (withDefault key codec value).Lawful where
  returns_of_read hread := h.returns hread
  returns_of_fallback hfallback := by
    cases hfallback
    exact hvalue

theorem nullable_lawful (key : String) (h : codec.Lawful) :
    (nullable key codec).Lawful :=
  withDefault_lawful key (optional_lawful h) rfl

theorem omittable_lawful (key : String) (h : codec.Lawful) :
    (omittable key codec).Lawful where
  returns_of_read {_ x} hread := by
    cases x with
    | none =>
        rfl
    | some y =>
        exact (optional_lawful h).returns hread
  returns_of_fallback hfallback := by
    cases hfallback
    rfl

end Field

/-!
# Rows
-/

namespace Fields

variable {ρ : Type} {fields : Fields ρ}

def keys {ρ : Type} : Fields ρ -> List String
  | nil => []
  | cons field rest => field.key :: rest.keys

/-- Each of the fields is lawful. -/
def Lawful {ρ : Type} : Fields ρ -> Prop
  | nil => True
  | cons field rest => field.Lawful ∧ rest.Lawful

/-- Each value of the row is found again by its field. -/
def Returns {ρ : Type} : Fields ρ -> ρ -> Prop
  | nil, () => True
  | cons field rest, (x, row) => field.Returns x ∧ rest.Returns row

/-!
# Rows that are read
-/

theorem fill_cons {α : Type} (field : Field α) (members : Json.Members) :
    (cons field fields).fill members =
      field.valueIn members >>= fun x =>
        fields.fill members >>= fun row => .ok (x, row) := by
  unfold Field.valueIn
  rw [fill]
  cases members.get? field.key with
  | none =>
      rfl
  | some value =>
      rfl

theorem returns_of_fill {members : Json.Members} {row : ρ}
    (h : fields.Lawful) (hfill : fields.fill members = .ok row) :
    fields.Returns row := by
  induction fields with
  | nil =>
      trivial
  | cons field rest ih =>
      rcases h with ⟨hfield, hrest⟩
      rw [fill_cons] at hfill
      rcases Except.bind_eq_ok_iff.mp hfill with ⟨x, hx, hfill⟩
      rcases Except.bind_eq_ok_iff.mp hfill with ⟨others, hothers, hrow⟩
      cases hrow
      exact ⟨hfield.returns_of_valueIn hx, ih hrest hothers⟩

theorem returns_of_takeItems {tooShort : Nat -> Mismatch} {position : Nat}
    {items left : List Json} {row : ρ} (h : fields.Lawful)
    (htake : fields.takeItems tooShort position items = .ok (row, left)) :
    fields.Returns row := by
  induction fields generalizing position items with
  | nil =>
      trivial
  | cons field rest ih =>
      rcases h with ⟨hfield, hrest⟩
      cases items with
      | nil =>
          rcases Except.bind_eq_ok_iff.mp htake with ⟨x, hx, htake⟩
          rcases Except.bind_eq_ok_iff.mp htake with
            ⟨⟨others, left'⟩, hothers, hrow⟩
          cases hrow
          exact ⟨hfield.returns_of_fallback (Field.whenMissing_eq_ok_iff.mp hx),
            ih hrest hothers⟩
      | cons item items =>
          rcases Except.bind_eq_ok_iff.mp htake with ⟨x, hx, htake⟩
          rcases Except.bind_eq_ok_iff.mp htake with
            ⟨⟨others, left'⟩, hothers, hrow⟩
          cases hrow
          exact ⟨hfield.returns_of_read hx, ih hrest hothers⟩

/-!
# Rows that are written
-/

theorem toMembers_cons_of_omits {α : Type} {field : Field α} {x : α} (row : ρ)
    (h : field.omits x = true) :
    (cons field fields).toMembers (x, row) = fields.toMembers row :=
  if_pos h

theorem toMembers_cons_of_not_omits {α : Type} {field : Field α} {x : α}
    (row : ρ) (h : ¬ field.omits x = true) :
    (cons field fields).toMembers (x, row) =
      (field.key, field.codec.toJson x) :: fields.toMembers row :=
  if_neg h

/-- Only keys of the fields are written, each at most once. -/
theorem keys_toMembers (fields : Fields ρ) (row : ρ) :
    List.Sublist ((fields.toMembers row).map Prod.fst) fields.keys := by
  induction fields with
  | nil =>
      exact List.Sublist.slnil
  | cons field rest ih =>
      rcases row with ⟨x, row⟩
      by_cases homits : field.omits x = true
      · rw [toMembers_cons_of_omits row homits]
        exact (ih row).cons field.key
      · rw [toMembers_cons_of_not_omits row homits]
        exact (ih row).cons_cons field.key

theorem get?_toMembers_of_not_mem {key : String} (row : ρ)
    (h : key ∉ fields.keys) :
    Json.Members.get? (fields.toMembers row) key = none :=
  Json.Members.get?_eq_none_iff.mpr fun hmem =>
    h ((fields.keys_toMembers row).subset hmem)

/-- Each member that is written passes the check for its key. -/
theorem check_toMembers (hkeys : fields.keys.Nodup) {row : ρ}
    (h : fields.Returns row) {member : String × Json}
    (hmem : member ∈ fields.toMembers row) :
    fields.check member.1 member.2 = .ok () := by
  induction fields with
  | nil =>
      cases hmem
  | cons field rest ih =>
      rcases row with ⟨x, row⟩
      rcases h with ⟨hfield, hrest⟩
      rcases List.nodup_cons.mp hkeys with ⟨hnew, hkeys⟩
      have htail (htail : member ∈ rest.toMembers row) :
          (cons field rest).check member.1 member.2 = .ok () := by
        have hkey : member.1 ∈ rest.keys :=
          (rest.keys_toMembers row).subset (List.mem_map_of_mem htail)
        have hne : member.1 ≠ field.key := fun heq => hnew (heq ▸ hkey)
        exact (if_neg hne).trans (ih hkeys hrest htail)
      by_cases homits : field.omits x = true
      · rw [toMembers_cons_of_omits row homits] at hmem
        exact htail hmem
      · rw [toMembers_cons_of_not_omits row homits] at hmem
        rcases List.mem_cons.mp hmem with heq | hmem
        · have hreturns := Field.returns_codec hfield homits
          subst heq
          unfold check
          rw [if_pos rfl, hreturns]
        · exact htail hmem

theorem checkAll_eq_ok {members : Json.Members}
    (h : forall member, member ∈ members ->
      fields.check member.1 member.2 = .ok ()) :
    fields.checkAll members = .ok () := by
  induction members with
  | nil =>
      rfl
  | cons member rest ih =>
      rcases List.forall_mem_cons.mp h with ⟨hmember, hrest⟩
      unfold checkAll
      rw [hmember]
      exact ih hrest

/-- What is written under the key of a field is the value of the field, if that
is written at all. -/
theorem get?_toMembers_key {α : Type} {field : Field α}
    (hnew : field.key ∉ fields.keys) (x : α) (row : ρ) :
    Json.Members.get? ((cons field fields).toMembers (x, row)) field.key =
      if field.omits x then none else some (field.codec.toJson x) := by
  by_cases homits : field.omits x = true
  · rw [toMembers_cons_of_omits row homits, if_pos homits]
    exact get?_toMembers_of_not_mem row hnew
  · rw [toMembers_cons_of_not_omits row homits, if_neg homits,
      Json.Members.get?_cons, if_pos rfl]

theorem get?_toMembers_of_ne {α : Type} {field : Field α} {key : String}
    (hne : key ≠ field.key) (x : α) (row : ρ) :
    Json.Members.get? ((cons field fields).toMembers (x, row)) key =
      Json.Members.get? (fields.toMembers row) key := by
  by_cases homits : field.omits x = true
  · rw [toMembers_cons_of_omits row homits]
  · rw [toMembers_cons_of_not_omits row homits, Json.Members.get?_cons,
      if_neg hne]

/-- Members that have under the keys of the fields what is written for a row
give the row. -/
theorem fill_eq_ok (hkeys : fields.keys.Nodup) {row : ρ} (h : fields.Returns row)
    {members : Json.Members}
    (hget : forall key, key ∈ fields.keys ->
      members.get? key = Json.Members.get? (fields.toMembers row) key) :
    fields.fill members = .ok row := by
  induction fields with
  | nil =>
      rfl
  | cons field rest ih =>
      rcases row with ⟨x, row⟩
      rcases h with ⟨hfield, hrest⟩
      rcases List.nodup_cons.mp hkeys with ⟨hnew, hkeys⟩
      rcases List.forall_mem_cons.mp hget with ⟨hhead, htail⟩
      have hx : field.valueIn members = .ok x :=
        Field.valueIn_eq_ok hfield (hhead.trans (get?_toMembers_key hnew x row))
      have hothers : rest.fill members = .ok row := by
        refine ih hkeys hrest ?_
        intro key hkey
        have hne : key ≠ field.key := fun heq => hnew (heq ▸ hkey)
        exact (htail key hkey).trans (get?_toMembers_of_ne hne x row)
      rw [fill_cons, hx]
      change (rest.fill members >>= fun row => .ok (x, row)) = _
      rw [hothers]
      rfl

theorem ofMembers_toMembers (hkeys : fields.keys.Nodup) {row : ρ}
    (h : fields.Returns row) :
    fields.ofMembers (Json.Members.insertAll [] (fields.toMembers row)) =
      .ok row := by
  have hwritten : ((fields.toMembers row).map Prod.fst).Nodup :=
    hkeys.sublist (fields.keys_toMembers row)
  refine Except.bind_eq_ok_iff.mpr ⟨(), checkAll_eq_ok ?_, ?_⟩
  · intro member hmem
    rcases Json.Members.mem_insertAll hmem with hnone | hmem
    · cases hnone
    · exact check_toMembers hkeys h hmem
  · refine fill_eq_ok hkeys h ?_
    intro key _
    rw [Json.Members.get?_insertAll hwritten, Json.Members.get?_nil,
      Option.or_none]

end Fields

/-!
# Records
-/

variable {ρ : Type} {fields : Fields ρ}

theorem returns_of_ofJson_record {name : String} (h : fields.Lawful)
    {value : Json} {row : ρ} (hread : (record name fields).ofJson value = .ok row) :
    fields.Returns row := by
  cases value with
  | object members =>
      rcases Except.bind_eq_ok_iff.mp hread with ⟨_, _, hfill⟩
      exact Fields.returns_of_fill h hfill
  | array items =>
      rcases Except.bind_eq_ok_iff.mp hread with ⟨⟨row', left⟩, htake, hrow⟩
      change (if left.isEmpty then _ else _) = _ at hrow
      split at hrow
      · cases hrow
        exact Fields.returns_of_takeItems h htake
      · cases hrow
  | _ =>
      cases hread

theorem record_lawful (name : String) (h : fields.Lawful)
    (hkeys : fields.keys.Nodup) :
    (record name fields).Lawful where
  returns hread :=
    Fields.ofMembers_toMembers hkeys (returns_of_ofJson_record h hread)
  eq_null _ hnull := nomatch hnull

/-- A record that is kept as a structure with the row for its fields. -/
theorem packed_lawful {α : Type} {name : String} {pack : ρ -> α}
    {unpack : α -> ρ} (h : fields.Lawful) (hkeys : fields.keys.Nodup)
    (hunpack : forall row, unpack (pack row) = row) :
    ((record name fields).iso pack unpack).Lawful :=
  iso_lawful (record_lawful name h hkeys) hunpack

end Codec
end PseudocodeTools
