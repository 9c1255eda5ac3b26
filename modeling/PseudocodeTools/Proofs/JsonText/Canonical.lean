import PseudocodeTools.JsonText.Value
import PseudocodeTools.Proofs.Json.Members
/-!
# Values that are read from text

A reader puts the members of an object in the order of their keys, so every
value that a text spells is in canonical form, whatever the order in the text.
-/

namespace PseudocodeTools
namespace Reader

variable {ε α β : Type}

/-- Whatever the reader takes from a text has the property. -/
def Yields (P : α -> Prop) (read : Reader ε α) : Prop :=
  forall t x rest, read t = .ok (x, rest) -> P x

/-!
# Readers put together
-/

theorem yields_any (read : Reader ε α) : Yields (fun _ => True) read := by
  intro _ _ _ _
  exact True.intro

theorem yields_pure {P : α -> Prop} {x : α} (h : P x) :
    Yields P (pure x : Reader ε α) := by
  intro t y rest hread
  cases hread
  exact h

theorem Yields.bind {P : α -> Prop} {Q : β -> Prop} {first : Reader ε α}
    {next : α -> Reader ε β} (hfirst : Yields P first)
    (hnext : forall x, P x -> Yields Q (next x)) :
    Yields Q (first >>= next) := by
  intro t y rest hread
  change (first t >>= fun result => next result.1 result.2) = .ok (y, rest)
    at hread
  cases hresult : first t with
  | error fault =>
      rw [hresult] at hread
      cases hread
  | ok result =>
      rcases result with ⟨x, t'⟩
      rw [hresult] at hread
      exact hnext x (hfirst t x t' hresult) t' y rest hread

/-- What the first reader takes has no influence on the property. -/
theorem yields_bind {Q : β -> Prop} {first : Reader ε α}
    {next : α -> Reader ε β} (h : forall x, Yields Q (next x)) :
    Yields Q (first >>= next) :=
  (yields_any first).bind fun x _ => h x

theorem yields_failHere {P : α -> Prop} (cause : ε) :
    Yields P (failHere cause : Reader ε α) := by
  intro t x rest hread
  cases hread

theorem yields_failAhead {P : α -> Prop} (cause : ε) :
    Yields P (failAhead cause : Reader ε α) := by
  intro t x rest hread
  cases hread

theorem yields_itemsWithin {P : α -> Prop} {item : Reader ε α}
    (hitem : Yields P item) (more : Bool -> Reader ε Bool) (rounds : Nat)
    (isFirst : Bool) :
    Yields (fun xs => forall x, x ∈ xs -> P x)
      (itemsWithin item more rounds isFirst) := by
  induction rounds generalizing isFirst with
  | zero =>
      apply yields_pure
      intro x hx
      cases hx
  | succ rounds ih =>
      apply yields_bind
      intro goesOn
      cases goesOn with
      | false =>
          apply yields_pure
          intro x hx
          cases hx
      | true =>
          refine hitem.bind fun x hx => (ih false).bind fun xs hxs => ?_
          apply yields_pure
          intro y hy
          rcases List.mem_cons.mp hy with heq | hrest
          · rw [heq]
            exact hx
          · exact hxs y hrest

theorem yields_items {P : α -> Prop} {item : Reader ε α}
    (hitem : Yields P item) (more : Bool -> Reader ε Bool) :
    Yields (fun xs => forall x, x ∈ xs -> P x) (items item more) := by
  intro t xs rest hread
  exact yields_itemsWithin hitem more _ true t xs rest hread

/-!
# Values
-/

section Value

variable {item : Reader SyntaxFault Json}

theorem yields_array (hitem : Yields Json.Ordered item) :
    Yields Json.Ordered (array item) := by
  apply yields_bind
  intro _
  refine (yields_items hitem moreItems).bind fun xs hxs => ?_
  apply yields_bind
  intro _
  exact yields_pure (Json.ordered_array_iff.mpr hxs)

theorem yields_member (hitem : Yields Json.Ordered item) :
    Yields (fun pair => pair.2.Ordered) (member item) := by
  apply yields_bind
  intro key
  apply yields_bind
  intro _
  exact hitem.bind fun x hx => yields_pure hx

theorem yields_object (hitem : Yields Json.Ordered item) :
    Yields Json.Ordered (object item) := by
  apply yields_bind
  intro _
  refine (yields_items (yields_member hitem) moreMembers).bind
    fun members hmembers => ?_
  apply yields_bind
  intro _
  exact yields_pure (Json.ordered_ofPairs hmembers)

theorem yields_valueWith {list object : Reader SyntaxFault Json}
    (hlist : Yields Json.Ordered list) (hobject : Yields Json.Ordered object) :
    Yields Json.Ordered (valueWith list object) := by
  apply yields_bind
  intro next
  split
  · exact yields_failHere _
  · exact yields_bind fun _ => yields_bind fun _ => yields_pure True.intro
  · exact yields_bind fun _ => yields_bind fun _ => yields_pure True.intro
  · exact yields_bind fun _ => yields_bind fun _ => yields_pure True.intro
  · exact yields_bind fun _ => yields_bind fun _ => yields_pure True.intro
  · exact yields_bind fun _ => yields_bind fun _ => yields_pure True.intro
  · exact hlist
  · exact hobject
  · split
    · exact yields_bind fun _ => yields_pure True.intro
    · exact yields_failAhead _

theorem yields_value (depth : Nat) : Yields Json.Ordered (value depth) := by
  induction depth with
  | zero =>
      exact yields_valueWith (yields_failAhead _) (yields_failAhead _)
  | succ depth ih =>
      exact yields_valueWith (yields_array ih) (yields_object ih)

end Value

theorem yields_document (depth : Nat) :
    Yields Json.Ordered (document depth) :=
  (yields_value depth).bind fun _ hvalue =>
    yields_bind fun _ => yields_pure hvalue

end Reader

/-- What reading and writing trees asks of a value holds of every value that a
text spells. -/
theorem Json.ordered_of_read {depth : Nat} {source : Text} {value : Json}
    (h : Json.read depth source = .ok value) :
    value.Ordered := by
  unfold Json.read at h
  cases hresult : Reader.document depth source with
  | error fault =>
      rw [hresult] at h
      cases h
  | ok result =>
      rcases result with ⟨found, rest⟩
      rw [hresult] at h
      cases h
      exact Reader.yields_document depth source value rest hresult

end PseudocodeTools
