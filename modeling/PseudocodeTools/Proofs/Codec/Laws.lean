import PseudocodeTools.Codec.Basic
import PseudocodeTools.Proofs.Binary64.Finite
import PseudocodeTools.Proofs.Outcome
/-!
# Values that survive writing

A codec need not read back every value of its type: an infinity is written as
null, and so is the value that null itself stands for when it is optional.  What
was read from JSON in the first place is read back from what is written for it,
and this law passes from codecs to the codecs that are built from them.
-/

namespace PseudocodeTools
namespace Codec

variable {α β : Type}

/-- What is written for the value stands for the value. -/
def Returns (codec : Codec α) (x : α) : Prop :=
  codec.ofJson (codec.toJson x) = .ok x

/-- Whatever is read is read back from what is written for it.  The second law
is what an optional value needs, which would take a null for no value. -/
structure Lawful (codec : Codec α) : Prop where
  returns : forall {value : Json} {x : α},
    codec.ofJson value = .ok x -> codec.Returns x
  eq_null : forall {value : Json} {x : α},
    codec.ofJson value = .ok x -> codec.toJson x = .null -> value = .null

/-!
# Scalars
-/

theorem flag_lawful : flag.Lawful where
  returns _ := rfl
  eq_null _ hnull := nomatch hnull

theorem text_lawful : text.Lawful where
  returns _ := rfl
  eq_null _ hnull := nomatch hnull

theorem raw_lawful : raw.Lawful where
  returns _ := rfl
  eq_null hread hnull := by
    cases hread
    exact hnull

theorem object_lawful : object.Lawful where
  returns _ := rfl
  eq_null _ hnull := nomatch hnull

/-- Only finite numbers are read. -/
theorem isFinite_of_number {value : Json} {x : Binary64}
    (h : number.ofJson value = .ok x) :
    x.isFinite = true := by
  cases value with
  | number n =>
      cases h
      exact n.isFinite_toBinary64
  | _ =>
      cases h

theorem toJson_number {x : Binary64} (h : x.isFinite = true) :
    number.toJson x = .number (.real x h) :=
  dif_pos h

theorem returns_number {x : Binary64} (h : x.isFinite = true) :
    number.Returns x := by
  unfold Returns
  rw [toJson_number h]
  rfl

theorem number_lawful : number.Lawful where
  returns hread := returns_number (isFinite_of_number hread)
  eq_null hread hnull := by
    rw [toJson_number (isFinite_of_number hread)] at hnull
    cases hnull

theorem word32OfNumber_of_some {n : JsonNumber} {k : UInt32}
    (h : n.toUInt32? = some k) :
    word32OfNumber n = .ok k := by
  unfold word32OfNumber
  rw [h]

theorem ofJson_word32 (n : JsonNumber) :
    word32.ofJson (.number n) = word32OfNumber n := rfl

theorem toJson_word32 (k : UInt32) :
    word32.toJson k = .number (.ofUInt32 k) := rfl

theorem returns_word32 (k : UInt32) : word32.Returns k := by
  unfold Returns
  rw [toJson_word32, ofJson_word32]
  exact word32OfNumber_of_some (JsonNumber.toUInt32?_ofUInt32 k)

theorem word32_lawful : word32.Lawful where
  returns _ := returns_word32 _
  eq_null {_ k} _ hnull := by
    rw [toJson_word32] at hnull
    exact Json.noConfusion hnull

/-!
# Compound values
-/

variable {codec : Codec α}

theorem ofJson_optional {value : Json} (h : value ≠ .null) :
    codec.optional.ofJson value = (codec.ofJson value).map some := by
  cases value with
  | null =>
      exact absurd rfl h
  | _ =>
      rfl

theorem returns_some {x : α} (h : codec.Returns x)
    (hnull : codec.toJson x ≠ .null) :
    codec.optional.Returns (some x) := by
  change codec.optional.ofJson (codec.toJson x) = .ok (some x)
  rw [ofJson_optional hnull, h]
  rfl

theorem optional_lawful (h : codec.Lawful) : codec.optional.Lawful where
  returns {value x} hread := by
    by_cases hvalue : value = .null
    · subst hvalue
      cases hread
      rfl
    · rw [ofJson_optional hvalue] at hread
      rcases Except.map_eq_ok_iff.mp hread with ⟨y, hy, rfl⟩
      exact returns_some (h.returns hy) fun hnull => hvalue (h.eq_null hy hnull)
  eq_null {value x} hread hnull := by
    by_cases hvalue : value = .null
    · exact hvalue
    · rw [ofJson_optional hvalue] at hread
      rcases Except.map_eq_ok_iff.mp hread with ⟨y, hy, rfl⟩
      exact h.eq_null hy hnull

theorem returns_list {xs : List α} (h : forall x, x ∈ xs -> codec.Returns x) :
    codec.list.Returns xs := by
  change (xs.map codec.toJson).mapM codec.ofJson = .ok xs
  rw [mapM_eq_ok_iff, List.forall₂_map_left_iff]
  exact List.forall₂_same.mpr h

theorem list_lawful (h : codec.Lawful) : codec.list.Lawful where
  returns {value xs} hread := by
    cases value with
    | array items =>
        refine returns_list ?_
        intro x hx
        rcases exists_mem_of_forall₂ (mapM_eq_ok_iff.mp hread) hx with
          ⟨item, _, hitem⟩
        exact h.returns hitem
    | _ =>
        cases hread
  eq_null _ hnull := nomatch hnull

theorem iso_lawful {pack : α -> β} {unpack : β -> α} (h : codec.Lawful)
    (hunpack : forall x, unpack (pack x) = x) :
    (codec.iso pack unpack).Lawful where
  returns hread := by
    rcases Except.map_eq_ok_iff.mp hread with ⟨x, hx, rfl⟩
    change (codec.ofJson (codec.toJson (unpack (pack x)))).map pack = .ok (pack x)
    rw [hunpack, h.returns hx]
    rfl
  eq_null hread hnull := by
    rcases Except.map_eq_ok_iff.mp hread with ⟨x, hx, rfl⟩
    change codec.toJson (unpack (pack x)) = .null at hnull
    rw [hunpack] at hnull
    exact h.eq_null hx hnull

/-!
# Choices
-/

section Choice

variable {all : List α} {name : α -> String}

theorem find?_of_chosen {found : String} {x : α}
    (h : chosen all name found = .ok x) :
    (all.find? fun y => name y == found) = some x := by
  unfold chosen at h
  split at h
  · rename_i y hfind
    cases h
    exact hfind
  · cases h

/-- A value that was found by a name has that name, so its name finds it
again. -/
theorem returns_of_chosen {found : String} {x : α}
    (h : chosen all name found = .ok x) :
    (choice all name).Returns x := by
  have hfound := List.find?_some (find?_of_chosen h)
  have hname : name x = found := beq_iff_eq.mp hfound
  change chosen all name (name x) = .ok x
  rw [hname]
  exact h

theorem choice_lawful (all : List α) (name : α -> String) :
    (choice all name).Lawful where
  returns {value x} hread := by
    cases value with
    | string found =>
        exact returns_of_chosen hread
    | object members =>
        change choiceOfMembers (chosen all name) members = .ok x at hread
        unfold choiceOfMembers at hread
        split at hread
        · rcases Except.bind_eq_ok_iff.mp hread with ⟨y, hy, hrest⟩
          split at hrest
          · cases hrest
            exact returns_of_chosen hy
          · cases hrest
        · cases hread
    | _ =>
        cases hread
  eq_null _ hnull := nomatch hnull

end Choice

end Codec
end PseudocodeTools
