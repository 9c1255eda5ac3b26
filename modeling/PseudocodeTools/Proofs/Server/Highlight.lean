import PseudocodeTools.Proofs.Lexeme.Tokens
import PseudocodeTools.Proofs.Server.Position
import PseudocodeTools.Server.Highlight
/-!
# Reading a highlighting

An editor that adds up the numbers of a highlighting comes to the position of
each token of the document.
-/

namespace PseudocodeTools

/-!
# Numbers
-/

/-- A token as an editor reads it from a highlighting. -/
structure ReadToken where
  position : Position
  length : UInt32
  legendIndex : UInt32
deriving DecidableEq, Repr

/-- The position so many lines further down, and so many characters further
right: from the given position on the same line, and from the start of any other
line. -/
def Position.move (p : Position) (lines characters : UInt32) : Position :=
  { line := p.line + lines
    character := if lines = 0 then p.character + characters else characters }

theorem Position.move_inj {p : Position}
    {lines characters lines' characters' : UInt32}
    (h : p.move lines characters = p.move lines' characters') :
    lines = lines' ∧ characters = characters' := by
  rw [move, move, Position.mk.injEq, UInt32.add_right_inj] at h
  rcases h with ⟨rfl, hcharacters⟩
  refine ⟨rfl, ?_⟩
  split at hcharacters
  · exact (UInt32.add_right_inj _).mp hcharacters
  · exact hcharacters

theorem legendIndex_eq_iff {kind kind' : TokenKind} :
    kind.legendIndex = kind'.legendIndex ↔ kind = kind' := by
  cases kind <;> cases kind' <;> decide

/-- Reads tokens from five numbers each, of which the first two lead on from the
position of the token before. -/
def readTokens (previous : Position) : List UInt32 -> List ReadToken
  | lines :: characters :: length :: legendIndex :: _ :: rest =>
      let position := previous.move lines characters
      { position := position, length := length, legendIndex := legendIndex } ::
        readTokens position rest
  | _ => []

def ReadToken.ofToken (source : Text) (token : Token) : ReadToken :=
  { position := .ofOffset source token.start
    length := .ofNat token.text.length
    legendIndex := token.kind.legendIndex }

namespace RelativeToken

/-- Moving on by the description of a token leads to the token. -/
theorem move_ofPositions (previous here : Position) (token : Token) :
    previous.move (ofPositions previous here token).lines
      (ofPositions previous here token).characters = here := by
  have hsub : forall m n : UInt32, m + (n - m) = n := by
    intro m n
    rw [UInt32.add_comm, UInt32.sub_add_cancel]
  unfold Position.move ofPositions
  by_cases hlines : here.line - previous.line = 0
  · simp only [if_pos hlines, hsub]
  · simp only [if_neg hlines, hsub]

theorem readTokens_numbers (previous : Position) (relative : RelativeToken)
    (rest : List UInt32) :
    readTokens previous (relative.numbers ++ rest) =
      { position := previous.move relative.lines relative.characters
        length := relative.length
        legendIndex := relative.kind.legendIndex } ::
          readTokens (previous.move relative.lines relative.characters) rest :=
  rfl

/-- A highlighting can be read in one way only. -/
theorem readTokens_injective {previous : Position}
    {entries entries' : List RelativeToken}
    (h : readTokens previous (entries.flatMap numbers) =
      readTokens previous (entries'.flatMap numbers)) :
    entries = entries' := by
  induction entries generalizing previous entries' with
  | nil =>
      cases entries' with
      | nil =>
          rfl
      | cons entry' entries' =>
          cases h
  | cons entry entries ih =>
      cases entries' with
      | nil =>
          cases h
      | cons entry' entries' =>
          simp only [List.flatMap_cons, readTokens_numbers, List.cons.injEq,
            ReadToken.mk.injEq] at h
          rcases h with ⟨⟨hposition, hlength, hkind⟩, hrest⟩
          rw [hposition] at hrest
          rcases Position.move_inj hposition with ⟨hlines, hcharacters⟩
          have hentry : entry = entry' := by
            rw [RelativeToken.mk.injEq]
            exact ⟨hlines, hcharacters, hlength, legendIndex_eq_iff.mp hkind⟩
          rw [hentry, ih hrest]

/-- The entries of tokens, each described from the position of the one before
it. -/
def describe (source : Text) (previous : Position) :
    List Token -> List RelativeToken
  | [] => []
  | token :: rest =>
      let here := Position.ofOffset source token.start
      ofPositions previous here token :: describe source here rest

/-- From a boundary on, the walk comes to each token in turn, at the position of
its start. -/
theorem chain?_eq {source front : Text} (previous : Position)
    {found : List Token} (hfront : front <+: source)
    (hboundary : forall token, token ∈ found ->
      IsBoundary source token.start)
    (hsorted : (front.byteLength :: found.map Token.start).Pairwise (· ≤ ·)) :
    chain? source front.byteLength (Position.origin.behind front) previous
      found = some (describe source previous found) := by
  induction found generalizing front previous with
  | nil =>
      rfl
  | cons token found ih =>
      rcases hfront with ⟨rest, hsource⟩
      rcases hboundary token List.mem_cons_self with
        ⟨front', rest', hsource', hstart⟩
      rw [List.map_cons] at hsorted
      rcases List.pairwise_cons.mp hsorted with ⟨hle, hsorted'⟩
      have hbefore := hle token.start List.mem_cons_self
      rw [← hstart] at hbefore
      rcases exists_gap (hsource.trans hsource'.symm) hbefore with
        ⟨gap, rfl, rfl⟩
      have hslice : source.slice? front.byteLength token.start = some gap := by
        rw [← hsource, ← hstart, Text.byteLength_append]
        exact slice?_append front gap rest'
      have hwalk := Position.behind_append Position.origin front gap
      have hposition : Position.ofOffset source token.start =
          Position.origin.behind (front ++ gap) := by
        rw [← hsource', ← hstart]
        exact Position.ofOffset_append _ _
      rw [← hstart] at hsorted'
      have hrest := ih (Position.origin.behind (front ++ gap))
        ⟨rest', hsource'⟩
        (fun other hother => hboundary other (List.mem_cons_of_mem _ hother))
        hsorted'
      rw [hstart] at hrest
      rw [chain?, describe, hslice, hposition]
      simp only [Option.bind_eq_bind, Option.bind_some, ← hwalk, hrest]
      rfl

/-- Adding up the numbers of the entries leads to each token in turn. -/
theorem readTokens_describe (source : Text) (previous : Position)
    (found : List Token) :
    readTokens previous ((describe source previous found).flatMap numbers) =
      found.map (ReadToken.ofToken source) := by
  induction found generalizing previous with
  | nil =>
      rfl
  | cons token found ih =>
      rw [describe, List.flatMap_cons, readTokens_numbers, move_ofPositions, ih]
      rfl

end RelativeToken

/-!
# Documents
-/

theorem highlight_eq (source : Text) :
    highlight source =
      some (RelativeToken.describe source .origin (tokens source)) := by
  have hboundary : forall token, token ∈ tokens source ->
      IsBoundary source token.start :=
    fun token hmem => (isBoundary_of_mem_tokens hmem).1
  have hsorted : (0 :: (tokens source).map Token.start).Pairwise (· ≤ ·) := by
    refine List.pairwise_cons.mpr ⟨fun n _ => Nat.zero_le n, ?_⟩
    refine List.pairwise_map.mpr ((inOrder_tokens source).pairwise.imp ?_)
    exact fun hbefore => hbefore.1.le
  exact RelativeToken.chain?_eq .origin List.nil_prefix hboundary hsorted

/-- The tokens that an editor reads from the highlighting of a document. -/
def readHighlighting (source : Text) : Option (List ReadToken) :=
  (highlight source).map fun relative =>
    readTokens .origin (relative.flatMap RelativeToken.numbers)

theorem readHighlighting_eq (source : Text) :
    readHighlighting source =
      some ((tokens source).map (ReadToken.ofToken source)) := by
  rw [readHighlighting, highlight_eq, Option.map_some,
    RelativeToken.readTokens_describe]

theorem readTokens_of_highlight {source : Text} {entries : List RelativeToken}
    (h : highlight source = some entries) :
    readTokens .origin (entries.flatMap RelativeToken.numbers) =
      (tokens source).map (ReadToken.ofToken source) := by
  have hread := readHighlighting_eq source
  rw [readHighlighting, h] at hread
  exact Option.some.inj hread

section Countable

variable {source : Text} (hcount : source.Countable)
include hcount

/-- A token stands between two parts of the document, and has the position at
the end of the first. -/
theorem marksEnd_of_mem_tokens {token : Token} (h : token ∈ tokens source) :
    exists front after, front ++ (token.text ++ after) = source ∧
      token.start = front.byteLength ∧ '\n' ∉ token.text ∧
      (ReadToken.ofToken source token).position.MarksEnd front := by
  rcases exists_split_of_mem_tokens h with
    ⟨front, after, rfl, hstart, hunbroken⟩
  refine ⟨front, after, rfl, hstart, hunbroken.2, ?_⟩
  rw [ReadToken.ofToken, hstart, Position.ofOffset_append]
  exact Position.marksEnd_of_countable hcount

/-- The extent of a token lies on one line of the document. -/
theorem exists_line_of_mem_tokens {token : Token} (h : token ∈ tokens source) :
    exists line : Text,
      source.lines[(ReadToken.ofToken source token).position.line.toNat]? =
          some line ∧
        (ReadToken.ofToken source token).position.character.toNat +
          token.text.length ≤ line.length := by
  rcases marksEnd_of_mem_tokens hcount h with
    ⟨front, after, rfl, _, hfeed, hposition⟩
  exact hposition.exists_line hfeed after

theorem toNat_length_ofToken {token : Token} (h : token ∈ tokens source) :
    (ReadToken.ofToken source token).length.toNat = token.text.length := by
  rcases exists_line_of_mem_tokens hcount h with ⟨line, hline, hwithin⟩
  have hlength := hcount.characters line (List.mem_of_getElem? hline)
  refine UInt32.toNat_ofNat_of_lt' (Nat.lt_of_le_of_lt ?_ hlength)
  exact Nat.le_of_add_left_le hwithin

theorem precedes_ofOffset {m n : Nat} (hm : IsBoundary source m)
    (hn : IsBoundary source n) (hle : m ≤ n) :
    (Position.ofOffset source m).Precedes (Position.ofOffset source n) := by
  rcases hm with ⟨front, rest, rfl, rfl⟩
  rcases hn with ⟨front', rest', hsplit, rfl⟩
  rcases exists_gap hsplit.symm hle with ⟨gap, rfl, rfl⟩
  have hfirst := Position.marksEnd_of_countable hcount
  rw [← hsplit] at hcount
  have hlast := Position.marksEnd_of_countable hcount
  rw [Position.ofOffset_append, ← hsplit, Position.ofOffset_append]
  exact hfirst.precedes hlast

/-- No token has a position before that of the token from which it is
described. -/
theorem pairwise_precedes_tokens :
    (Position.origin :: (tokens source).map fun token =>
      Position.ofOffset source token.start).Pairwise Position.Precedes := by
  have hboundary : forall token, token ∈ tokens source ->
      IsBoundary source token.start :=
    fun token hmem => (isBoundary_of_mem_tokens hmem).1
  have horigin : Position.ofOffset source 0 = .origin := by
    cases source <;> rfl
  rw [List.pairwise_cons, List.forall_mem_map, List.pairwise_map]
  constructor
  · intro token hmem
    rw [← horigin]
    exact precedes_ofOffset hcount ⟨[], source, rfl, rfl⟩
      (hboundary token hmem) (Nat.zero_le _)
  · refine (inOrder_tokens source).pairwise.imp_of_mem ?_
    intro token token' hmem hmem' hbefore
    exact precedes_ofOffset hcount (hboundary token hmem)
      (hboundary token' hmem') hbefore.1.le

/-- Each entry of a highlighting is described from the position of the token
before it, which never comes later, so that no counter is taken from a smaller
one.  Adding up the numbers gives the position of each token, its length in
characters and the place of its kind in the legend.  None of these numbers is
greater than the lines of the document and the characters of a line. -/
theorem readHighlighting_tokens :
    exists relative, highlight source = some relative ∧
      relative = RelativeToken.describe source .origin (tokens source) ∧
      (Position.origin :: (tokens source).map fun token =>
        Position.ofOffset source token.start).Pairwise Position.Precedes ∧
      readTokens .origin (relative.flatMap RelativeToken.numbers) =
        (tokens source).map (fun token =>
          { position := .ofOffset source token.start
            length := .ofNat token.text.length
            legendIndex := token.kind.legendIndex }) ∧
      forall token, token ∈ tokens source ->
        (UInt32.ofNat token.text.length).toNat = token.text.length ∧
        exists line : Text,
          source.lines[(Position.ofOffset source token.start).line.toNat]? =
            some line ∧
          (Position.ofOffset source token.start).character.toNat +
            token.text.length ≤ line.length := by
  refine ⟨_, highlight_eq source, rfl, pairwise_precedes_tokens hcount,
    RelativeToken.readTokens_describe _ _ _, ?_⟩
  intro token hmem
  exact ⟨toNat_length_ofToken hcount hmem,
    exists_line_of_mem_tokens hcount hmem⟩

end Countable

/-- A comment with an accent, and on the next line a name behind a quoted
character of four bytes. -/
theorem readHighlighting_tokens_behind_comment :
    let source : Text := "// é\n \"😀\" x".toList
    source.Countable ∧
      exists relative, highlight source = some relative ∧
        readTokens .origin (relative.flatMap RelativeToken.numbers) =
          [⟨⟨0, 0⟩, 4, TokenKind.comment.legendIndex⟩,
            ⟨⟨1, 1⟩, 3, TokenKind.string.legendIndex⟩,
            ⟨⟨1, 5⟩, 1, TokenKind.identifier.legendIndex⟩] := by
  intro source
  have hcount : source.Countable := ⟨by decide, by decide⟩
  have htokens : (tokens source).map (ReadToken.ofToken source) =
      [⟨⟨0, 0⟩, 4, TokenKind.comment.legendIndex⟩,
        ⟨⟨1, 1⟩, 3, TokenKind.string.legendIndex⟩,
        ⟨⟨1, 5⟩, 1, TokenKind.identifier.legendIndex⟩] := by
    decide +kernel
  rcases readHighlighting_tokens hcount with
    ⟨relative, hrelative, _, _, hread, _⟩
  exact ⟨hcount, relative, hrelative, hread.trans htokens⟩

end PseudocodeTools
