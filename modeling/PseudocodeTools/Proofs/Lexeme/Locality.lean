import PseudocodeTools.Proofs.Lexeme.Tokens
/-!
# Tokens line by line

To every rule a line feed is the same as the end of the text.  So the two sides
of a line feed may be tokenized apart, and the tokens from the start of any line
or segment on are found without what stands before.
-/

namespace PseudocodeTools

/-!
# Lexemes before a line feed
-/

section LineFeed

variable {t p after : Text}

theorem unbroken_of_token (h : p ∈ tokenLanguage) : Unbroken p := by
  rcases mem_tokenLanguage_iff.mp h with ⟨rule, hrule, hmatch⟩
  exact unbroken_of_rule hrule hmatch

/-- What a rule matches reaches no further than to the first line feed. -/
theorem isPrefix_of_append_lineFeed {rest : Text}
    (h : p <+: t ++ '\n' :: rest) (hmem : p ∈ tokenLanguage) :
    p <+: t := by
  rcases List.prefix_or_prefix_of_prefix h (List.prefix_append t _) with
    hin | ⟨gap, rfl⟩
  · exact hin
  · have hgap : gap <+: '\n' :: rest :=
      (List.prefix_append_right_inj t).mp h
    rcases List.prefix_cons_iff.mp hgap with rfl | ⟨gap, rfl, _⟩
    · rw [List.append_nil]
    · exact absurd (List.mem_append_right t List.mem_cons_self)
        (unbroken_of_token hmem).2

end LineFeed

/-!
# Lexemes before a plain character
-/

section Behind

variable {t p after : Text} {d : Char}

/-- An ASCII character does not blur the word before it. -/
theorem blurs_append_iff (hascii : d.toNat < 0x80) (rest : Text) :
    Blurs (t ++ d :: rest) ↔ Blurs t := by
  cases t with
  | nil =>
      constructor
      · rintro ⟨_, _, heq, hle, _⟩
        cases heq
        exact absurd hle (Nat.not_le_of_lt hascii)
      · rintro ⟨_, _, heq, _⟩
        cases heq
  | cons c t =>
      constructor
      · rintro ⟨_, _, heq, hblurs⟩
        cases heq
        exact ⟨c, t, rfl, hblurs⟩
      · rintro ⟨_, _, heq, hblurs⟩
        cases heq
        exact ⟨c, t ++ d :: rest, rfl, hblurs⟩

theorem HasKind.append {kind : TokenKind} (h : HasKind p after kind)
    (hascii : d.toNat < 0x80) (rest : Text) :
    HasKind p (after ++ d :: rest) kind := by
  have hblurs := blurs_append_iff (t := after) hascii rest
  cases h with
  | keyword matched clear =>
      exact .keyword matched (hblurs.not.mpr clear)
  | boolean matched clear =>
      exact .boolean matched (hblurs.not.mpr clear)
  | number matched =>
      exact .number matched
  | doubleQuoted matched =>
      exact .doubleQuoted matched
  | singleQuoted matched =>
      exact .singleQuoted matched
  | comment matched =>
      exact .comment matched
  | operator matched uncommented =>
      exact .operator matched uncommented
  | identifier matched unreserved wellFormed =>
      exact .identifier matched (fun h => hblurs.mpr (unreserved h)) wellFormed
  | invalid matched unreserved malformed =>
      exact .invalid matched (fun h => hblurs.mpr (unreserved h)) malformed

/-- Only a digit, or a digit behind a point, begins or continues a fraction. -/
theorem GoesOn.append {kind : TokenKind} {tail : Text}
    (h : GoesOn kind tail after) (hdigit : d.isDigit = false)
    (hpoint : d ≠ '.') (rest : Text) :
    GoesOn kind tail (after ++ d :: rest) := by
  cases h with
  | fraction matched stop =>
      refine .fraction matched ?_
      intro c behind heq
      cases after with
      | nil =>
          cases heq
          exact hdigit
      | cons e after =>
          cases heq
          exact stop c after rfl
  | integer stop =>
      refine .integer ?_
      intro c behind heq
      cases after with
      | nil =>
          cases heq
          exact absurd rfl hpoint
      | cons point after =>
          cases after with
          | nil =>
              cases heq
              exact hdigit
          | cons e after =>
              cases heq
              exact stop c after rfl
  | other hkind =>
      exact .other hkind

/-- A segment stays as it is when something is put behind the text that no rule
goes on over. -/
theorem Munches.append {kind? : Option TokenKind} (h : Munches t kind? p)
    (hascii : d.toNat < 0x80) (hdigit : d.isDigit = false) (hpoint : d ≠ '.')
    {rest : Text}
    (hrest : forall q, q <+: t ++ d :: rest -> q ∈ tokenLanguage -> q <+: t) :
    Munches (t ++ d :: rest) kind? p := by
  cases h with
  | @matched p tail after kind split longest hasKind goesOn =>
      have hkind := hasKind.append hascii rest
      rw [List.append_assoc] at hkind
      have hlongest : LongestIn tokenLanguage (t ++ d :: rest) p :=
        ⟨longest.isPrefix.trans (List.prefix_append t _), longest.mem,
          fun q hq hmem => longest.longest q (hrest q hq hmem) hmem⟩
      refine .matched ?_ hlongest hkind (goesOn.append hdigit hpoint rest)
      rw [← split]
      simp only [List.append_assoc]
  | @plain c behind split unmatched =>
      refine .plain (congrArg (· ++ d :: rest) split) ?_
      intro q hq hmem
      exact unmatched q (hrest q hq hmem) hmem

theorem Munches.append_lineFeed {kind? : Option TokenKind}
    (h : Munches t kind? p) (rest : Text) :
    Munches (t ++ '\n' :: rest) kind? p :=
  h.append (by decide) (by decide) (by decide)
    fun _ => isPrefix_of_append_lineFeed

/-- No rule matches a line feed. -/
theorem munches_lineFeed (rest : Text) :
    Munches ('\n' :: rest) none ['\n'] := by
  refine .plain rfl ?_
  intro q hq hmem
  have hempty : q <+: [] := isPrefix_of_append_lineFeed hq hmem
  exact (unbroken_of_token hmem).1 (List.prefix_nil.mp hempty)

end Behind

/-!
# Both sides of a line feed
-/

theorem Tiles.append_lineFeed {start : Nat} {t : Text} {run : List Segment}
    (h : Tiles start t run) (rest : Text) :
    Tiles start (t ++ '\n' :: rest)
      (run ++ segmentsFrom (start + t.byteLength) ('\n' :: rest)) := by
  induction h with
  | nil =>
      exact tiles_segmentsFrom _ _
  | @cons start kind? s after run munches tiles ih =>
      rw [Nat.add_assoc, ← Text.byteLength_append] at ih
      have hmunch := munches.append_lineFeed rest
      rw [List.append_assoc] at hmunch ⊢
      exact .cons hmunch ih

/-- The segment in a text that stands `n` bytes later. -/
def Segment.shift (n : Nat) (segment : Segment) : Segment :=
  { segment with start := segment.start + n }

/-- The token in a text that stands `n` bytes later. -/
def Token.shift (n : Nat) (token : Token) : Token :=
  { token with start := token.start + n }

theorem token?_shift (n : Nat) (segment : Segment) :
    (segment.shift n).token? = segment.token?.map (Token.shift n) := by
  unfold Segment.token?
  rw [Option.map_map]
  rfl

theorem Tiles.shift {start : Nat} {t : Text} {run : List Segment}
    (h : Tiles start t run) (n : Nat) :
    Tiles (start + n) t (run.map (Segment.shift n)) := by
  induction h with
  | nil =>
      exact .nil
  | @cons start kind? s after run munches tiles ih =>
      rw [Nat.add_right_comm] at ih
      exact .cons munches ih

theorem tokensFrom_nil (start : Nat) : tokensFrom start [] = [] := by
  rw [tokensFrom, segmentsFrom]
  rfl

theorem tokensFrom_add (start n : Nat) (t : Text) :
    tokensFrom (start + n) t = (tokensFrom start t).map (Token.shift n) := by
  have hsegments := ((tiles_segmentsFrom start t).shift n).eq_segmentsFrom
  have htoken : Segment.token? ∘ Segment.shift n =
      fun segment => segment.token?.map (Token.shift n) :=
    funext (token?_shift n)
  unfold tokensFrom
  rw [← hsegments, List.filterMap_map, htoken, List.map_filterMap]

theorem tokensFrom_append_lineFeed (start : Nat) (s t : Text) :
    tokensFrom start (s ++ '\n' :: t) =
      tokensFrom start s ++ tokensFrom (start + (s.byteLength + 1)) t := by
  have hsegments :=
    ((tiles_segmentsFrom start s).append_lineFeed t).eq_segmentsFrom
  have hfeed : segmentsFrom (start + s.byteLength) ('\n' :: t) =
      { kind := none, start := start + s.byteLength, text := ['\n'] } ::
        segmentsFrom (start + (s.byteLength + 1)) t :=
    @segmentsFrom_of_munches _ ['\n'] t none (munches_lineFeed t)
  unfold tokensFrom
  rw [← hsegments, hfeed, List.filterMap_append]
  rfl

/-- A line of the text begins at the byte offset. -/
def StartsLine (source : Text) (cursor : Nat) : Prop :=
  exists front rest : Text, front ++ rest = source ∧
    front.byteLength = cursor ∧
    (front = [] ∨ exists line, front = line ++ ['\n'])

/-- A segment of the text begins or ends at the byte offset. -/
def BoundsSegment (source : Text) (cursor : Nat) : Prop :=
  exists segment, segment ∈ segments source ∧
    (segment.start = cursor ∨ segment.stop = cursor)

/-- What is cut off at the byte offset has the last ones of the segments of the
whole text, and the others end before it. -/
def CutsSegments (source : Text) (cursor : Nat) : Prop :=
  exists front rest : Text, front ++ rest = source ∧
    front.byteLength = cursor ∧
    exists before, segments source = before ++ segmentsFrom cursor rest ∧
      forall segment, segment ∈ before -> segment.stop ≤ cursor

/-- What stands before a segment of a tiling, and what tiles the rest. -/
theorem Tiles.exists_append_of_mem {start : Nat} {t : Text}
    {run : List Segment} (h : Tiles start t run) {segment : Segment}
    (hmem : segment ∈ run) :
    exists front rest before after, front ++ (segment.text ++ rest) = t ∧
      run = before ++ segment :: after ∧
      start + front.byteLength = segment.start ∧
      Tiles segment.start (segment.text ++ rest) (segment :: after) ∧
      Tiles segment.stop rest after ∧
      forall other, other ∈ before -> other.stop ≤ segment.start := by
  induction h with
  | nil =>
      cases hmem
  | @cons start kind? s behind run munches tiles ih =>
      rcases List.mem_cons.mp hmem with rfl | hrest
      · exact ⟨[], behind, [], run, rfl, rfl, rfl, .cons munches tiles, tiles,
          fun _ hin => absurd hin List.not_mem_nil⟩
      · rcases ih hrest with ⟨front, rest, before, after, rfl, rfl, hstart,
          hself, hafter, hbefore⟩
        have hoffset : start + Text.byteLength (s ++ front) =
            segment.start := by
          rw [Text.byteLength_append, ← Nat.add_assoc]
          exact hstart
        refine ⟨s ++ front, rest,
          { kind := kind?, start := start, text := s } :: before, after,
          List.append_assoc _ _ _, rfl, hoffset, hself, hafter, ?_⟩
        intro other hin
        rcases List.mem_cons.mp hin with rfl | htail
        · rw [← hstart]
          exact Nat.le_add_right _ _
        · exact hbefore other htail

theorem cutsSegments_of_startsLine {source : Text} {cursor : Nat}
    (h : StartsLine source cursor) :
    CutsSegments source cursor := by
  rcases h with ⟨front, rest, rfl, rfl, rfl | ⟨line, rfl⟩⟩
  · exact ⟨[], rest, rfl, rfl, [], rfl,
      fun _ hmem => absurd hmem List.not_mem_nil⟩
  · have hlength : Text.byteLength (line ++ ['\n']) =
        0 + (line.byteLength + 1) := by
      rw [Nat.zero_add]
      exact Text.byteLength_append line ['\n']
    rcases (tiles_segmentsFrom 0
      (line ++ '\n' :: rest)).exists_append_lineFeed with
        ⟨before, hrun, hbefore⟩
    rw [← hlength] at hrun hbefore
    refine ⟨line ++ ['\n'], rest, rfl, rfl, before, ?_, hbefore⟩
    rw [List.append_assoc]
    exact hrun

theorem cutsSegments_of_boundsSegment {source : Text} {cursor : Nat}
    (h : BoundsSegment source cursor) :
    CutsSegments source cursor := by
  rcases h with ⟨segment, hmem, hcursor⟩
  rcases (tiles_segmentsFrom 0 source).exists_append_of_mem hmem with
    ⟨front, rest, before, after, rfl, hrun, hstart, hself, hafter, hbefore⟩
  rw [Nat.zero_add] at hstart
  rcases hcursor with rfl | rfl
  · refine ⟨front, segment.text ++ rest, rfl, hstart, before, ?_, hbefore⟩
    rw [← hself.eq_segmentsFrom]
    exact hrun
  · refine ⟨front ++ segment.text, rest, List.append_assoc _ _ _, ?_,
      before ++ [segment], ?_, ?_⟩
    · rw [Text.byteLength_append, hstart]
      rfl
    · rw [← hafter.eq_segmentsFrom, List.append_assoc]
      exact hrun
    · intro other hin
      rcases List.mem_append.mp hin with hfront | hlast
      · exact (hbefore other hfront).trans (Nat.le_add_right _ _)
      · rw [List.mem_singleton.mp hlast]

/-- The tokens behind a cut between segments are those that start there or
later. -/
theorem CutsSegments.tokensStartingAt_eq {source : Text} {cursor : Nat}
    (h : CutsSegments source cursor) :
    tokensStartingAt source cursor =
      (tokens source).filter (cursor ≤ ·.start) := by
  rcases h with ⟨front, rest, hsource, hcursor, before, hrun, hbefore⟩
  have hafter : source.after? cursor = some rest :=
    after?_eq_some_iff.mpr ⟨front, hsource, hcursor⟩
  have htokens : tokens source =
      before.filterMap Segment.token? ++ tokensFrom cursor rest := by
    rw [tokens, tokensFrom, ← segments, hrun, List.filterMap_append]
    rfl
  -- No token is empty, so one that ends before the cut starts before it.
  have hdropped : (before.filterMap Segment.token?).filter
      (cursor ≤ ·.start) = [] := by
    apply List.filter_eq_nil_iff.mpr
    intro token hmem hle
    have hin : token ∈ tokens source := by
      rw [htokens]
      exact List.mem_append_left _ hmem
    have hlt := ((inOrder_tokens source).isSlice token hin).1
    rcases List.mem_filterMap.mp hmem with ⟨segment, hsegment, htoken⟩
    have hstop := hbefore segment hsegment
    rw [stop_eq_of_token? htoken] at hstop
    exact Nat.not_le_of_lt (hlt.trans_le hstop) (of_decide_eq_true hle)
  have hkept : (tokensFrom cursor rest).filter (cursor ≤ ·.start) =
      tokensFrom cursor rest := by
    apply List.filter_eq_self.mpr
    intro token hmem
    rcases exists_split_of_mem_tokensFrom hmem with ⟨_, _, _, hstart, _⟩
    apply decide_eq_true
    rw [hstart]
    exact Nat.le_add_right _ _
  rw [tokensStartingAt, hafter, htokens, List.filter_append, hdropped, hkept]
  rfl

/-- The two sides of a line feed have the tokens that they have as texts of
their own, and tokenizing from the start of a line or from either end of a
segment on finds exactly the tokens of the whole text that start there or
later. -/
theorem tokens_by_line (s t source : Text) (cursor : Nat) :
    tokens (s ++ '\n' :: t) =
        tokens s ++ (tokens t).map (Token.shift (s.byteLength + 1)) ∧
      (StartsLine source cursor ∨ BoundsSegment source cursor ->
        tokensStartingAt source cursor =
          (tokens source).filter (cursor ≤ ·.start)) := by
  constructor
  · unfold tokens
    rw [tokensFrom_append_lineFeed, tokensFrom_add]
  · intro hcursor
    rcases hcursor with hline | hsegment
    · exact (cutsSegments_of_startsLine hline).tokensStartingAt_eq
    · exact (cutsSegments_of_boundsSegment hsegment).tokensStartingAt_eq

/-- A quote that is left open, and another one on the next line. -/
theorem tokens_by_line_behind_open_quote :
    let source : Text := "x = \"é\n-2.5\"".toList
    StartsLine source 8 ∧
      tokens source = tokens "x = \"é".toList ++
        (tokens "-2.5\"".toList).map (Token.shift 8) ∧
      tokensStartingAt source 8 = (tokens source).filter (8 ≤ ·.start) := by
  intro source
  have hline : StartsLine source 8 :=
    ⟨"x = \"é\n".toList, "-2.5\"".toList, rfl, rfl,
      Or.inr ⟨"x = \"é".toList, rfl⟩⟩
  rcases tokens_by_line "x = \"é".toList "-2.5\"".toList source 8 with
    ⟨hsides, hrest⟩
  exact ⟨hline, hsides, hrest (Or.inl hline)⟩

end PseudocodeTools
