import PseudocodeTools.Proofs.Server.Conversion
import PseudocodeTools.Proofs.Server.Highlight
/-!
# Columns in code units

An editor that agrees on nothing else counts columns and lengths in code units
of 16 bits, of which a character beyond the basic plane takes two.  The server
counts characters.  So what it tells falls short by the characters of two units
in the stretch that is counted, and a column that it is told leads it further to
the right by as many characters, but not beyond the end of the line.
-/

namespace PseudocodeTools

/-!
# Code units
-/

/-- Characters beyond the basic plane, each of which takes two code units. -/
def isSupplementary (c : Char) : Bool :=
  decide (0x10000 ≤ c.toNat)

namespace Text

/-- Number of code units of 16 bits. -/
def unitLength : Text -> Nat
  | [] => 0
  | c :: t => (if isSupplementary c then 2 else 1) + unitLength t

/-- Number of characters that take two code units. -/
def supplements (t : Text) : Nat :=
  t.countP isSupplementary

theorem unitLength_eq (t : Text) :
    t.unitLength = t.length + t.supplements := by
  unfold supplements
  induction t with
  | nil =>
      rfl
  | cons c t ih =>
      rw [unitLength, ih, List.length_cons, List.countP_cons]
      by_cases hc : isSupplementary c = true
      · rw [if_pos hc, if_pos hc]
        omega
      · rw [if_neg hc, if_neg hc]
        omega

end Text

/-!
# Positions
-/

namespace Position

/-- The characters by which the server goes too far to the right when it is told
the column between two texts in code units. -/
def overshoot (front rest : Text) : Text :=
  (rest.takeWhile (· ≠ '\n')).take front.lastLine.supplements

/-- A place on the first line of a text is a place on the line at whose end the
text is put. -/
theorem StandsAt.onward {character : Nat} {middle rest : Text}
    (h : StandsAt 0 character middle rest) (front : Text) :
    StandsAt (front.count '\n') (front.lastLine.length + character)
      (front ++ middle) rest := by
  rcases h with ⟨hline, hcharacter⟩
  have hfeed := List.count_eq_zero.mp hline
  have hmiddle := lastLine_append [] hfeed
  rw [List.nil_append] at hmiddle
  rw [hmiddle] at hcharacter
  unfold StandsAt
  rw [List.count_append, hline, lastLine_append front hfeed, List.length_append,
    Nat.add_right_inj, Nat.add_lt_add_iff_left]
  exact ⟨rfl, hcharacter⟩

/-- The column of an offset in code units leads to the end of the overshoot. -/
theorem toOffset?_of_unitLength {p : Position} {front : Text}
    (hline : p.line.toNat = front.count '\n')
    (hcharacter : p.character.toNat = front.lastLine.unitLength)
    (rest : Text) :
    p.toOffset? (front ++ rest) =
      some (front.byteLength + (overshoot front rest).byteLength) := by
  have hends : rest.dropWhile (· ≠ '\n') = [] ∨
      (rest.dropWhile (· ≠ '\n')).head? = some '\n' :=
    (dropWhile_lineFeed rest).imp_right fun ⟨_, hfeed⟩ =>
      congrArg List.head? hfeed
  have hstands := (standsAt_take (lineFeed_notMem_takeWhile rest) hends
    front.lastLine.supplements).onward front
  rw [← Text.unitLength_eq, ← hline, ← hcharacter] at hstands
  have hsource := toOffset?_of_standsFor hstands
  rw [List.append_assoc, ← List.append_assoc _ _ (rest.dropWhile _),
    List.take_append_drop, List.takeWhile_append_dropWhile,
    Text.byteLength_append] at hsource
  exact hsource

end Position

/-!
# Documents
-/

/-- Lines are as the protocol counts them.  The column of a token falls short by
the characters of two code units before it on its line, its length by those in
it, and the column of an offset by those before it on its line; the column in
code units of an offset leads to an offset that is as many characters further to
the right, or at the end of the line. -/
theorem columns_count_characters {source : Text} (hcount : source.Countable) :
    (exists entries, highlight source = some entries ∧
      List.Forall₂ (fun token mark => exists front after : Text,
          front ++ (token.text ++ after) = source ∧
          token.start = front.byteLength ∧
          mark.position.line.toNat = front.count '\n' ∧
          front.lastLine.unitLength =
            mark.position.character.toNat + front.lastLine.supplements ∧
          token.text.unitLength =
            mark.length.toNat + token.text.supplements)
        (tokens source)
        (readTokens .origin (entries.flatMap RelativeToken.numbers))) ∧
    forall front rest : Text, front ++ rest = source ->
      (Position.ofOffset source front.byteLength).line.toNat =
        front.count '\n' ∧
      front.lastLine.unitLength =
        (Position.ofOffset source front.byteLength).character.toNat +
          front.lastLine.supplements ∧
      forall p : Position, p.line.toNat = front.count '\n' ->
        p.character.toNat = front.lastLine.unitLength ->
        p.toOffset? source =
          some (front.byteLength +
            (Position.overshoot front rest).byteLength) := by
  constructor
  · refine ⟨_, highlight_eq source, ?_⟩
    rw [RelativeToken.readTokens_describe, List.forall₂_map_right_iff]
    apply List.forall₂_same.mpr
    intro token hmem
    rcases marksEnd_of_mem_tokens hcount hmem with
      ⟨front, after, hsplit, hstart, _, hline, hcharacter⟩
    refine ⟨front, after, hsplit, hstart, hline, ?_, ?_⟩
    · rw [hcharacter, Text.unitLength_eq]
    · rw [toNat_length_ofToken hcount hmem, Text.unitLength_eq]
  · rintro front rest rfl
    have hends := Position.marksEnd_of_countable hcount
    rw [Position.ofOffset_append, hends.1, hends.2]
    exact ⟨rfl, front.lastLine.unitLength_eq, fun p hline hcharacter =>
      Position.toOffset?_of_unitLength hline hcharacter rest⟩

/-- Behind a quoted character beyond the basic plane, the column in code units
leads over the variable that stands there. -/
theorem columns_count_characters_behind_quotes :
    let source : Text := "\"😀\" x".toList
    let front : Text := "\"😀\" ".toList
    source.Countable ∧
      front.lastLine.unitLength =
        (Position.ofOffset source front.byteLength).character.toNat + 1 ∧
      Position.toOffset? source { line := 0, character := 5 } =
        some (front.byteLength + 1) := by
  intro source front
  have hcount : source.Countable := ⟨by decide, by decide⟩
  rcases (columns_count_characters hcount).2 front "x".toList rfl with
    ⟨_, hcolumn, hoffset⟩
  exact ⟨hcount, hcolumn,
    hoffset { line := 0, character := 5 } (by decide) (by decide)⟩

/-- A quoted character beyond the basic plane has four code units, and five stand
before the variable behind it; the fifth column is taken for the end of the
text. -/
theorem columns_ne_code_units :
    let source : Text := "\"😀\" x".toList
    let front : Text := "\"😀\" ".toList
    let quoted : ReadToken := ⟨⟨0, 0⟩, 3, TokenKind.string.legendIndex⟩
    let name : ReadToken := ⟨⟨0, 4⟩, 1, TokenKind.identifier.legendIndex⟩
    readHighlighting source = some [quoted, name] ∧
      Text.unitLength "\"😀\"".toList = 4 ∧
      front.lastLine.unitLength = 5 ∧
      Position.ofOffset source front.byteLength = ⟨0, 4⟩ ∧
      Position.toOffset? source ⟨0, 5⟩ ≠ some front.byteLength := by
  decide +kernel

end PseudocodeTools
