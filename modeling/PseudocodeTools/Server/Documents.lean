import PseudocodeTools.Text.Basic
/-!
# Open documents

The documents that an editor has open, by their addresses.  What is stored for
one address does not depend on what happens to another.
-/

namespace PseudocodeTools

structure Document where
  content : Text
  version : Int
deriving DecidableEq, Repr

/-- Open documents by their addresses; each address occurs once. -/
abbrev Documents :=
  List (String × Document)

namespace Documents

def get? (documents : Documents) (uri : String) : Option Document :=
  documents.lookup uri

def erase (documents : Documents) (uri : String) : Documents :=
  documents.filter fun entry => entry.1 != uri

def put (documents : Documents) (uri : String) (document : Document) :
    Documents :=
  (uri, document) :: documents.erase uri

/-- Puts a document in the place of an open one. -/
def update (documents : Documents) (uri : String) (document : Document) :
    Documents :=
  match documents.get? uri with
  | none => documents
  | some _ => documents.put uri document

/-!
# What is stored
-/

theorem get?_cons (documents : Documents) (uri other : String)
    (document : Document) :
    get? ((uri, document) :: documents) other =
      if other = uri then some document else documents.get? other := by
  by_cases h : other = uri
  · simp [get?, h]
  · have hne : (other == uri) = false := by simpa using h
    simp [get?, List.lookup_cons, hne, h]

theorem get?_erase (documents : Documents) (uri other : String) :
    (documents.erase uri).get? other =
      if other = uri then none else documents.get? other := by
  induction documents with
  | nil =>
      simp [erase, get?]
  | cons entry rest ih =>
      obtain ⟨key, document⟩ := entry
      by_cases hkey : key = uri
      · have herase : erase ((key, document) :: rest) uri = erase rest uri := by
          simp [erase, hkey]
        rw [herase, ih, get?_cons]
        by_cases hother : other = uri
        · simp [hother]
        · rw [if_neg hother, if_neg hother, if_neg (hkey ▸ hother)]
      · have herase : erase ((key, document) :: rest) uri =
            (key, document) :: erase rest uri := by
          simp [erase, hkey]
        rw [herase, get?_cons, get?_cons, ih]
        by_cases hother : other = key
        · rw [if_pos hother, if_pos hother, if_neg (hother ▸ hkey)]
        · rw [if_neg hother, if_neg hother]

theorem get?_put (documents : Documents) (uri other : String)
    (document : Document) :
    (documents.put uri document).get? other =
      if other = uri then some document else documents.get? other := by
  rw [put, get?_cons, get?_erase]
  by_cases h : other = uri
  · rw [if_pos h, if_pos h]
  · rw [if_neg h, if_neg h, if_neg h]

theorem get?_update (documents : Documents) (uri other : String)
    (document : Document) :
    (documents.update uri document).get? other =
      if other = uri then (documents.get? uri).map fun _ => document
      else documents.get? other := by
  unfold update
  cases hopen : documents.get? uri with
  | none =>
      by_cases h : other = uri
      · simp [h, hopen]
      · simp [h]
  | some _ =>
      simp [get?_put]

end Documents
end PseudocodeTools
