import PseudocodeTools.Proofs.Block.Marks
import PseudocodeTools.Proofs.Lexeme.Returns
import PseudocodeTools.Proofs.Server.Folding
import PseudocodeTools.Proofs.Server.Inspection
/-!
# Documents with two-character line breaks

A carriage return before each line feed moves what follows to greater byte
offsets and leaves it at the same lines and characters.  So blocks and
diagnostics stay as they are; of the highlighting, only comments that end before
a line break become longer.
-/

namespace PseudocodeTools

/-!
# Positions
-/

namespace Position

theorem behind_withReturns (t : Text) :
    origin.behind t.withReturns = origin.behind t := by
  have hsame : t.withReturns.count '\n' = t.count '\n' ∧
      t.withReturns.lastLine = t.lastLine := by
    induction t using lines_induction with
    | last line hline =>
        rw [Text.withReturns_of_notMem hline]
        exact ⟨rfl, rfl⟩
    | cons line u hline ih =>
        rw [Text.withReturns_line hline]
        constructor
        · simp only [List.count_append, List.count_cons_self, ih.1]
          rfl
        · rw [lastLine_behind_lineFeed, lastLine_behind_lineFeed, ih.2]
  rw [behind_origin, behind_origin, hsame.1, hsame.2]

theorem ofOffset_withReturns {source : Text} {n : Nat}
    (h : IsBoundary source n) :
    ofOffset source.withReturns (source.offsetWithReturns n) =
      ofOffset source n := by
  rcases h with ⟨front, rest, rfl, rfl⟩
  rw [offsetWithReturns_append, Text.withReturns_append, ofOffset_append,
    ofOffset_append, behind_withReturns]

end Position

/-!
# Diagnostics
-/

/-- The entry of a token that is so many characters longer. -/
def RelativeToken.lengthen (entry : RelativeToken) (n : UInt32) :
    RelativeToken :=
  { entry with length := entry.length + n }

def ReadToken.lengthen (mark : ReadToken) (n : UInt32) : ReadToken :=
  { mark with length := mark.length + n }

/-- Longer tokens are read at the same positions. -/
theorem readTokens_lengthen (more : Token -> UInt32) (found : List Token)
    (previous : Position) (entries : List RelativeToken) :
    readTokens previous ((List.zipWith (fun token entry =>
        RelativeToken.lengthen entry (more token)) found entries).flatMap
          RelativeToken.numbers) =
      List.zipWith (fun token mark => ReadToken.lengthen mark (more token))
        found (readTokens previous
          (entries.flatMap RelativeToken.numbers)) := by
  induction found generalizing previous entries with
  | nil =>
      rfl
  | cons token found ih =>
      cases entries with
      | nil =>
          rfl
      | cons entry entries =>
          exact congrArg (List.cons _) (ih _ entries)

/-- How many carriage returns the token takes in: one, if it is a comment that
does not end the text. -/
def Token.returns (source : Text) (token : Token) : UInt32 :=
  if token.kind = .comment ∧ token.stop < source.byteLength then 1 else 0

theorem ofToken_withReturns {source : Text} {token : Token}
    (hmem : token ∈ tokens source) :
    ReadToken.ofToken source.withReturns (token.withReturns source) =
      (ReadToken.ofToken source token).lengthen (token.returns source) := by
  have hposition := Position.ofOffset_withReturns
    (isBoundary_of_mem_tokens hmem).1
  have hlength : UInt32.ofNat (token.withReturns source).text.length =
      .ofNat token.text.length + token.returns source := by
    unfold Token.withReturns Token.returns
    by_cases hcomment : token.kind = .comment ∧ token.stop < source.byteLength
    · simp only [if_pos hcomment, List.length_append, UInt32.ofNat_add]
      rfl
    · simp only [if_neg hcomment, UInt32.add_zero]
  rw [ReadToken.ofToken, hlength]
  exact congrArg (fun p => ReadToken.mk p _ _) hposition

section Longer

variable {source : Text} {entries : List RelativeToken}

/-- The entries of a highlighting, made longer by the carriage returns that the
tokens take in. -/
def lengthened (source : Text) (entries : List RelativeToken) :
    List RelativeToken :=
  List.zipWith (fun token entry => entry.lengthen (token.returns source))
    (tokens source) entries

theorem readTokens_lengthened (h : highlight source = some entries) :
    readTokens .origin ((lengthened source entries).flatMap
        RelativeToken.numbers) =
      (tokens source).map fun token =>
        (ReadToken.ofToken source token).lengthen (token.returns source) := by
  rw [lengthened, readTokens_lengthen, readTokens_of_highlight h,
    List.zipWith_map_right, List.zipWith_self]

/-- An editor reads the tokens of the copy at the same positions, and so many
characters longer. -/
theorem highlight_withReturns_eq (h : highlight source = some entries) :
    highlight source.withReturns = some (lengthened source entries) := by
  obtain ⟨entries', hentries⟩ : exists entries',
      highlight source.withReturns = some entries' := ⟨_, highlight_eq _⟩
  -- The two walks pass different gaps between the tokens, so they are compared
  -- by what an editor reads from them.
  have hsame : readTokens .origin (entries'.flatMap RelativeToken.numbers) =
      readTokens .origin ((lengthened source entries).flatMap
        RelativeToken.numbers) := by
    rw [readTokens_of_highlight hentries, readTokens_lengthened h,
      tokens_withReturns, List.map_map]
    exact List.map_congr_left fun token => ofToken_withReturns
  rw [hentries, RelativeToken.readTokens_injective hsame]

theorem lengthen_eq_self_iff {mark : ReadToken} {n : UInt32} :
    mark.lengthen n = mark ↔ n = 0 := by
  rcases mark with ⟨position, length, legendIndex⟩
  simp [ReadToken.lengthen]

theorem lengthened_eq_self_iff (h : highlight source = some entries) :
    lengthened source entries = entries ↔
      forall token, token ∈ tokens source -> token.returns source = 0 := by
  have hread := readTokens_of_highlight h
  have hlonger := readTokens_lengthened h
  constructor
  · intro heq
    rw [heq, hread, List.map_inj_left] at hlonger
    intro token hmem
    exact lengthen_eq_self_iff.mp (hlonger token hmem).symm
  · intro hall
    refine RelativeToken.readTokens_injective (hlonger.trans ?_)
    rw [hread]
    exact List.map_congr_left fun token hmem =>
      lengthen_eq_self_iff.mpr (hall token hmem)

end Longer

theorem returns_eq_zero_iff {source : Text} {token : Token}
    (hmem : token ∈ tokens source) :
    token.returns source = 0 ↔
      (token.kind = .comment -> token.stop = source.byteLength) := by
  have hle := (isBoundary_of_mem_tokens hmem).2.le
  unfold Token.returns
  by_cases hcomment : token.kind = .comment ∧ token.stop < source.byteLength
  · rw [if_pos hcomment]
    constructor
    · intro hone
      cases hone
    · intro hends
      rw [hends hcomment.1] at hcomment
      exact absurd hcomment.2 (Nat.lt_irrefl _)
  · rw [if_neg hcomment]
    refine ⟨fun _ hkind => Nat.le_antisymm hle ?_, fun _ => rfl⟩
    exact Nat.le_of_not_lt fun hlt => hcomment ⟨hkind, hlt⟩

/-- With two-character line breaks, a document has the same highlighting but for
the comments before a line break, each of which is one character longer.  So the
highlighting stays as it is exactly if no comment but one at the end of the
document is in it. -/
theorem highlight_withReturns (source : Text) :
    exists entries, highlight source = some entries ∧
      highlight source.withReturns =
        some (List.zipWith (fun token entry =>
          entry.lengthen (token.returns source)) (tokens source) entries) ∧
      (highlight source.withReturns = highlight source ↔
        forall token, token ∈ tokens source -> token.kind = .comment ->
          token.stop = source.byteLength) := by
  have hentries := highlight_eq source
  have hlonger := highlight_withReturns_eq hentries
  refine ⟨_, hentries, hlonger, ?_⟩
  rw [hlonger, hentries, Option.some.injEq, lengthened_eq_self_iff hentries]
  exact forall₂_congr fun token => returns_eq_zero_iff

/-- A comment on a line of its own is two characters long, and three with the
carriage return. -/
theorem highlight_withReturns_ne_of_comment :
    let source : Text := "//\nx".toList
    '\r' ∉ source ∧
      highlight source = some [⟨0, 0, 2, .comment⟩, ⟨1, 0, 1, .identifier⟩] ∧
      highlight source.withReturns =
        some [⟨0, 0, 3, .comment⟩, ⟨1, 0, 1, .identifier⟩] ∧
      highlight source.withReturns ≠ highlight source := by
  decide +kernel

end PseudocodeTools
