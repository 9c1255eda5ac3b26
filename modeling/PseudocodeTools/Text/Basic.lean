/-!
# Texts and byte offsets

A text is a list of characters.  Positions in a text are byte offsets into its
UTF-8 form, so every cut is made by counting the width of the characters it
passes; an offset beyond the end or inside a character cuts nothing.
-/

namespace PseudocodeTools

abbrev Text :=
  List Char

namespace Text

/-- Number of bytes of the UTF-8 form. -/
def byteLength : Text -> Nat
  | [] => 0
  | c :: t => c.utf8Size + byteLength t

@[simp] theorem byteLength_nil : byteLength [] = 0 := rfl

@[simp] theorem byteLength_cons (c : Char) (t : Text) :
    byteLength (c :: t) = c.utf8Size + byteLength t := rfl

@[simp] theorem byteLength_append (s t : Text) :
    byteLength (s ++ t) = byteLength s + byteLength t := by
  induction s with
  | nil =>
      simp
  | cons c s ih =>
      simp [ih, Nat.add_assoc]

/-!
# Cutting at an offset
-/

/-- The two sides of byte offset `n`, when a character starts or the text ends
there. -/
def cut? : Text -> Nat -> Option (Text × Text)
  | t, 0 => some ([], t)
  | [], _ + 1 => none
  | c :: t, n + 1 =>
      if c.utf8Size ≤ n + 1 then
        (cut? t (n + 1 - c.utf8Size)).map fun (head, tail) => (c :: head, tail)
      else
        none

@[simp] theorem cut?_zero (t : Text) : cut? t 0 = some ([], t) := by
  cases t <;> rfl

theorem append_of_cut? {t head tail : Text} {n : Nat}
    (h : cut? t n = some (head, tail)) :
    head ++ tail = t ∧ byteLength head = n := by
  induction t generalizing n head with
  | nil =>
      cases n with
      | zero =>
          cases h
          exact ⟨rfl, rfl⟩
      | succ n =>
          cases h
  | cons c t ih =>
      cases n with
      | zero =>
          cases h
          exact ⟨rfl, rfl⟩
      | succ n =>
          simp only [cut?] at h
          split at h
          · obtain ⟨⟨a, b⟩, hcut, heq⟩ := Option.map_eq_some_iff.mp h
            cases heq
            obtain ⟨happ, hlen⟩ := ih hcut
            constructor
            · simp [happ]
            · simp [hlen]
              omega
          · cases h

theorem cut?_append (head tail : Text) :
    cut? (head ++ tail) (byteLength head) = some (head, tail) := by
  induction head with
  | nil =>
      simp
  | cons c head ih =>
      have hpos : 0 < c.utf8Size := Char.utf8Size_pos c
      have hne : byteLength (c :: head) =
          (c.utf8Size + byteLength head - 1) + 1 := by
        simp only [byteLength_cons]
        omega
      rw [hne, List.cons_append]
      simp only [cut?]
      have hback : c.utf8Size + byteLength head - 1 + 1 - c.utf8Size =
          byteLength head := by omega
      rw [if_pos (by omega), hback, ih]
      rfl

theorem cut?_eq_some_iff {t head tail : Text} {n : Nat} :
    cut? t n = some (head, tail) ↔ head ++ tail = t ∧ byteLength head = n := by
  constructor
  · exact append_of_cut?
  · rintro ⟨rfl, rfl⟩
    exact cut?_append head tail

/-- The text before offset `n`. -/
def before? (t : Text) (n : Nat) : Option Text :=
  (cut? t n).map Prod.fst

/-- The text from offset `n` on. -/
def after? (t : Text) (n : Nat) : Option Text :=
  (cut? t n).map Prod.snd

/-- The text between two offsets. -/
def slice? (t : Text) (first last : Nat) : Option Text :=
  if first ≤ last then
    (after? t first).bind fun rest => before? rest (last - first)
  else
    none

/-!
# Lines

A text is split at its line feeds.  A line of a document may still end in the
carriage return of a two-character line break; `dropReturn` takes that one
character away.
-/

/-- The pieces between line feeds: one more than there are line feeds. -/
def lines : Text -> List Text
  | [] => [[]]
  | c :: t =>
      if c = '\n' then
        [] :: lines t
      else
        match lines t with
        | [] => [[c]]
        | line :: rest => (c :: line) :: rest

/-- What follows the last line feed. -/
def lastLine (t : Text) : Text :=
  (t.reverse.takeWhile (· ≠ '\n')).reverse

/-- The text without one carriage return at its end. -/
def dropReturn : Text -> Text
  | [] => []
  | ['\r'] => []
  | c :: t => c :: dropReturn t

/-!
# Case and decimal digits
-/

/-- Equality up to the case of ASCII letters. -/
def equalIgnoringCase (s t : Text) : Bool :=
  s.map Char.toLower == t.map Char.toLower

/-- Whether `t` begins with `word`, up to the case of ASCII letters. -/
def startsIgnoringCase (t word : Text) : Bool :=
  equalIgnoringCase (t.take word.length) word

/-- Whether `t` ends with `suffix`, and what stands before it. -/
def dropSuffix? (t suffix : Text) : Option Text :=
  if suffix.isSuffixOf t then
    some (t.take (t.length - suffix.length))
  else
    none

/-- Decimal digits of a natural number. -/
def ofNat (n : Nat) : Text :=
  Nat.toDigits 10 n

end Text
end PseudocodeTools
