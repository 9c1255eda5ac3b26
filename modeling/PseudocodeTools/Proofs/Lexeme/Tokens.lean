import PseudocodeTools.Proofs.Lexeme.Cover
import PseudocodeTools.Proofs.Text.Lines
/-!
# Tokens of a document

Each token lies within a line and stands in the document where its offset says.
The token at an offset is the one among all tokens that covers it.
-/

namespace PseudocodeTools

theorem inOrder_tokens (source : Text) : InOrder source (tokens source) := by
  have hcovers : Covers ([] ++ source) 0 (segmentsFrom 0 source) :=
    @Tiles.covers [] source _ (tiles_segmentsFrom 0 source)
  exact hcovers.inOrder_tokens

/-- Where a token stands, and that the rules call for it there. -/
theorem exists_munches_of_mem_tokensFrom {start : Nat} {t : Text}
    {token : Token} (h : token ∈ tokensFrom start t) :
    exists front after, front ++ (token.text ++ after) = t ∧
      token.start = start + front.byteLength ∧
      Munches (token.text ++ after) (some token.kind) token.text := by
  rcases List.mem_filterMap.mp h with ⟨segment, hsegment, htoken⟩
  rcases token?_eq_some_iff.mp htoken with ⟨hkind, hstart, htext⟩
  rcases (tiles_segmentsFrom start t).exists_split hsegment with
    ⟨front, after, hsplit, hoffset, hmunch⟩
  rw [htext] at hsplit hmunch
  rw [hstart] at hoffset
  rw [hkind] at hmunch
  exact ⟨front, after, hsplit, hoffset, hmunch⟩

theorem exists_split_of_mem_tokensFrom {start : Nat} {t : Text} {token : Token}
    (h : token ∈ tokensFrom start t) :
    exists front after, front ++ (token.text ++ after) = t ∧
      token.start = start + front.byteLength ∧ Unbroken token.text := by
  rcases exists_munches_of_mem_tokensFrom h with
    ⟨front, after, hsplit, hstart, hmunch⟩
  exact ⟨front, after, hsplit, hstart, hmunch.unbroken⟩

theorem exists_split_of_mem_tokens {source : Text} {token : Token}
    (h : token ∈ tokens source) :
    exists front after, front ++ (token.text ++ after) = source ∧
      token.start = front.byteLength ∧ Unbroken token.text := by
  rcases exists_split_of_mem_tokensFrom h with
    ⟨front, after, hsplit, hstart, hunbroken⟩
  rw [Nat.zero_add] at hstart
  exact ⟨front, after, hsplit, hstart, hunbroken⟩

theorem isBoundary_of_mem_tokens {source : Text} {token : Token}
    (h : token ∈ tokens source) :
    IsBoundary source token.start ∧ IsBoundary source token.stop := by
  rcases exists_split_of_mem_tokens h with ⟨front, after, rfl, hstart, _⟩
  rw [Token.stop, hstart]
  exact isBoundary_append front token.text after

/-!
# Tokens of the last lines
-/

/-- A segment is the line feed itself or lies before it. -/
theorem Munches.eq_lineFeed_or_exists_append {line t s after : Text}
    {kind? : Option TokenKind} (h : Munches (s ++ after) kind? s)
    (htext : line ++ '\n' :: t = s ++ after) :
    (line = [] ∧ s = ['\n'] ∧ after = t) ∨
      exists gap, line = s ++ gap ∧ after = gap ++ '\n' :: t := by
  rcases List.append_eq_append_iff.mp htext with
    ⟨gap, hs, hgap⟩ | hbefore
  · cases gap with
    | nil =>
        rw [List.append_nil] at hs
        exact Or.inr ⟨[], by rw [hs, List.append_nil], hgap.symm⟩
    | cons c gap =>
        rw [List.cons_append, List.cons.injEq] at hgap
        rcases hgap with ⟨rfl, ht⟩
        cases kind? with
        | some kind =>
            refine absurd ?_ h.unbroken.2
            rw [hs]
            exact List.mem_append_right line List.mem_cons_self
        | none =>
            rcases h.exists_eq_singleton with ⟨c, hc⟩
            rw [hc] at hs
            cases line with
            | nil =>
                cases hs
                exact Or.inl ⟨rfl, hc, ht.symm⟩
            | cons d line =>
                rw [List.cons_append, List.cons.injEq] at hs
                exact absurd hs.2.symm (List.append_ne_nil_of_right_ne_nil line
                  (List.cons_ne_nil _ _))
  · exact Or.inr hbefore

/-- The segments behind a line feed are those of the text that begins there. -/
theorem Tiles.exists_append_lineFeed {start : Nat} {line t : Text}
    {run : List Segment} (h : Tiles start (line ++ '\n' :: t) run) :
    exists before,
      run = before ++ segmentsFrom (start + (line.byteLength + 1)) t ∧
      forall segment, segment ∈ before ->
        segment.stop ≤ start + (line.byteLength + 1) := by
  generalize htext : line ++ '\n' :: t = text at h
  induction h generalizing line with
  | nil =>
      cases line <;> cases htext
  | @cons start kind? s after run munches tiles ih =>
      rcases munches.eq_lineFeed_or_exists_append htext with
        ⟨rfl, rfl, rfl⟩ | ⟨gap, rfl, hafter⟩
      · refine ⟨[_], congrArg _ tiles.eq_segmentsFrom, ?_⟩
        intro segment hmem
        rw [List.mem_singleton.mp hmem]
        exact Nat.le_refl _
      · rcases ih hafter.symm with ⟨before, hrun, hstop⟩
        have hback : start + (Text.byteLength (s ++ gap) + 1) =
            start + s.byteLength + (gap.byteLength + 1) := by
          rw [Text.byteLength_append]
          omega
        rw [hback]
        refine ⟨{ kind := kind?, start := start, text := s } :: before,
          congrArg _ hrun, ?_⟩
        intro segment hmem
        rcases List.mem_cons.mp hmem with rfl | hbefore
        · exact Nat.le_add_right _ _
        · exact hstop segment hbefore

/-- The tokens from the start of the last line of `front` on are the last ones
of the whole text; the others end before that line. -/
theorem exists_tokens_append (front rest : Text) :
    exists before, tokens (front ++ rest) = before ++
        tokensFrom (front.byteLength - front.lastLine.byteLength)
          (front.lastLine ++ rest) ∧
      forall token, token ∈ before -> token.stop ≤ front.byteLength := by
  rcases lastLine_eq_or_exists_append front with hall | ⟨line, hline⟩
  · rw [hall, Nat.sub_self]
    exact ⟨[], rfl, fun _ hmem => absurd hmem List.not_mem_nil⟩
  · generalize front.lastLine = last at hline ⊢
    subst hline
    have hlength : Text.byteLength (line ++ '\n' :: last) =
        line.byteLength + 1 + last.byteLength := byteLength_line line last
    have hback : Text.byteLength (line ++ '\n' :: last) - last.byteLength =
        0 + (line.byteLength + 1) := by omega
    rcases (tiles_segmentsFrom 0
      (line ++ '\n' :: (last ++ rest))).exists_append_lineFeed with
        ⟨before, hrun, hstop⟩
    refine ⟨before.filterMap Segment.token?, ?_, ?_⟩
    · rw [hback, List.append_assoc, List.cons_append, tokens, tokensFrom, hrun,
        List.filterMap_append]
      rfl
    · intro token hmem
      rcases List.mem_filterMap.mp hmem with ⟨segment, hsegment, htoken⟩
      have hle := hstop segment hsegment
      rw [stop_eq_of_token? htoken] at hle
      omega

theorem covers_iff {token : Token} {n : Nat} :
    token.covers n = true ↔ token.start ≤ n ∧ n < token.stop := by
  unfold Token.covers
  rw [Bool.and_eq_true, decide_eq_true_iff, decide_eq_true_iff]

/-- A segment that ends at the offset or before is passed by, and those that
start behind the offset are not reached. -/
theorem tokenCovering_eq_find? {n start : Nat} {t : Text} (h : start ≤ n) :
    tokenCovering n start t = (tokensFrom start t).find? (·.covers n) := by
  fun_induction tokenCovering n start t with
  | case1 start =>
      rw [tokensFrom, segmentsFrom]
      rfl
  | case2 start c t segment hlt =>
      have hstart : segment.start = start := start_segmentAt start c t
      have hrest : (tokensFrom segment.stop
          (t.drop (segment.text.length - 1))).find? (·.covers n) = none := by
        refine List.find?_eq_none.mpr fun token hmem hcovers => ?_
        rcases exists_split_of_mem_tokensFrom hmem with ⟨_, _, _, hbehind, _⟩
        have hle := (covers_iff.mp hcovers).1
        omega
      rw [tokensFrom, segmentsFrom]
      cases htoken : segment.token? with
      | none =>
          rw [List.filterMap_cons_none htoken]
          exact hrest.symm
      | some token =>
          have hcovers : token.covers n = true := by
            rw [covers_iff, ← start_eq_of_token? htoken,
              ← stop_eq_of_token? htoken, hstart]
            exact ⟨h, hlt⟩
          rw [List.filterMap_cons_some htoken, List.find?_cons, hcovers]
  | case3 start c t segment hlt ih =>
      have hstop := Nat.le_of_not_lt hlt
      rw [ih hstop, tokensFrom, tokensFrom, segmentsFrom]
      cases htoken : segment.token? with
      | none =>
          rw [List.filterMap_cons_none htoken]
      | some token =>
          have hcovers : token.covers n = false := by
            rw [Bool.eq_false_iff, ne_eq, covers_iff,
              ← stop_eq_of_token? htoken]
            exact fun hcovers => hlt hcovers.2
          rw [List.filterMap_cons_some htoken, List.find?_cons, hcovers]

/-- The text from the start of the line of an offset on. -/
theorem after?_lastLine (front rest : Text) :
    Text.after? (front ++ rest)
        (front.byteLength - front.lastLine.byteLength) =
      some (front.lastLine ++ rest) := by
  rcases lastLine_suffix front with ⟨head, hhead⟩
  have hlength := congrArg Text.byteLength hhead
  rw [Text.byteLength_append] at hlength
  refine after?_eq_some_iff.mpr ⟨head, ?_, Nat.eq_sub_of_add_eq hlength⟩
  rw [← List.append_assoc, hhead]

/-- The token at an offset is looked for among those from the start of the line
on. -/
theorem tokenAt_eq_find?_tokensStartingAt (front rest : Text) :
    tokenAt (front ++ rest) front.byteLength =
      (tokensStartingAt (front ++ rest)
        (front.byteLength - front.lastLine.byteLength)).find?
          (·.covers front.byteLength) := by
  have hline := after?_lastLine front rest
  rw [tokensStartingAt, hline, tokenAt,
    before?_eq_some_iff.mpr ⟨rest, rfl, rfl⟩]
  simp only [Option.bind_eq_bind, Option.bind_some, hline]
  exact tokenCovering_eq_find? (Nat.sub_le _ _)

/-- Looking for a token from the start of the line finds the one among all
tokens that covers the offset. -/
theorem tokenAt_append (front rest : Text) :
    tokenAt (front ++ rest) front.byteLength =
      (tokens (front ++ rest)).find? (·.covers front.byteLength) := by
  rcases exists_tokens_append front rest with ⟨before, htokens, hstop⟩
  have hbefore : before.find? (·.covers front.byteLength) = none := by
    refine List.find?_eq_none.mpr fun token hmem hcovers => ?_
    exact Nat.not_lt_of_le (hstop token hmem) (covers_iff.mp hcovers).2
  rw [htokens, List.find?_append, hbefore, Option.none_or,
    tokenAt_eq_find?_tokensStartingAt, tokensStartingAt,
    after?_lastLine front rest]

/-- No two tokens in order cover one offset. -/
theorem InOrder.find?_covers_eq_some_iff {source : Text} {found : List Token}
    (h : InOrder source found) {n : Nat} {token : Token} :
    found.find? (·.covers n) = some token ↔
      token ∈ found ∧ token.covers n = true := by
  constructor
  · intro hfind
    have hcovers := List.find?_some hfind
    exact ⟨List.mem_of_find?_eq_some hfind, hcovers⟩
  · intro ⟨hmem, hcovers⟩
    rcases List.append_of_mem hmem with ⟨before, after, rfl⟩
    refine List.find?_eq_some_iff_append.mpr ⟨hcovers, before, after, rfl, ?_⟩
    intro other hother
    have hpair := (List.pairwise_append.mp h.pairwise).2.2 other hother token
      List.mem_cons_self
    rw [Bool.not_eq_true', Bool.eq_false_iff]
    intro hcovers'
    have hstart := (covers_iff.mp hcovers).1
    have hstop := (covers_iff.mp hcovers').2
    omega

theorem tokenAt_eq_some_iff {front rest : Text} {token : Token} :
    tokenAt (front ++ rest) front.byteLength = some token ↔
      token ∈ tokens (front ++ rest) ∧
        token.covers front.byteLength = true := by
  rw [tokenAt_append]
  exact (inOrder_tokens _).find?_covers_eq_some_iff

/-!
# Point queries
-/

theorem tokenAt_eq_none_of_not_isBoundary {source : Text} {n : Nat}
    (h : ¬ IsBoundary source n) :
    tokenAt source n = none := by
  have hbefore : source.before? n = none := by
    refine Option.eq_none_iff_forall_ne_some.mpr fun front hfront => ?_
    rcases before?_eq_some_iff.mp hfront with ⟨rest, hcut⟩
    exact h ⟨front, rest, hcut⟩
  rw [tokenAt, hbefore]
  rfl

theorem inOrder_tokensStartingAt (source : Text) (cursor : Nat) :
    InOrder source (tokensStartingAt source cursor) := by
  unfold tokensStartingAt
  cases hafter : source.after? cursor with
  | none =>
      exact ⟨List.Pairwise.nil, fun _ hmem => absurd hmem List.not_mem_nil⟩
  | some rest =>
      rcases after?_eq_some_iff.mp hafter with ⟨front, rfl, rfl⟩
      exact (tiles_segmentsFrom front.byteLength rest).covers.inOrder_tokens

/-- From the first token that starts behind the offset on, none covers it. -/
theorem find?_covers_takeWhile {found : List Token} {n : Nat}
    (h : found.Pairwise fun a b => a.start < b.start) :
    (found.takeWhile (·.start ≤ n)).find? (·.covers n) =
      found.find? (·.covers n) := by
  induction found with
  | nil =>
      rfl
  | cons token found ih =>
      rcases List.pairwise_cons.mp h with ⟨hbehind, hfound⟩
      by_cases hle : token.start ≤ n
      · rw [List.takeWhile_cons, if_pos (decide_eq_true hle), List.find?_cons,
          List.find?_cons, ih hfound]
      · rw [List.takeWhile_cons, if_neg (decide_eq_true_iff.not.mpr hle)]
        symm
        refine List.find?_eq_none.mpr fun other hother hcovers => ?_
        have hstart := (covers_iff.mp hcovers).1
        rcases List.mem_cons.mp hother with rfl | hmem
        · exact hle hstart
        · exact hle ((hbehind other hmem).le.trans hstart)

/-- No two tokens in order cover one offset. -/
theorem InOrder.not_covers_both {source : Text} {found : List Token}
    (h : InOrder source found) (n : Nat) :
    found.Pairwise fun token other =>
      ¬ (token.covers n = true ∧ other.covers n = true) := by
  refine h.pairwise.imp ?_
  intro token other hbefore ⟨hcovers, hcovers'⟩
  have hstop := (covers_iff.mp hcovers).2
  have hstart := (covers_iff.mp hcovers').1
  exact absurd (hbefore.2.trans hstart) (Nat.not_le_of_lt hstop)

/-- At an offset where the text cannot be cut there is no token.  At any other
offset there is the token of the whole text that covers it, if there is one; no
two tokens cover the same offset.  The search may start at the line of the
offset and stop at the first token that starts behind it. -/
theorem tokenAt_point_query (source : Text) (n : Nat) :
    (¬ IsBoundary source n -> tokenAt source n = none) ∧
      (IsBoundary source n -> forall token,
        tokenAt source n = some token ↔
          token ∈ tokens source ∧ token.start ≤ n ∧ n < token.stop) ∧
      (tokens source).Pairwise (fun token other =>
        ¬ (token.covers n = true ∧ other.covers n = true)) ∧
      (forall before, source.before? n = some before ->
        tokenAt source n =
          ((tokensStartingAt source
            (n - before.lastLine.byteLength)).takeWhile
              (·.start ≤ n)).find? (·.covers n)) := by
  refine ⟨tokenAt_eq_none_of_not_isBoundary, ?_,
    (inOrder_tokens source).not_covers_both n, ?_⟩
  · rintro ⟨front, rest, rfl, rfl⟩ token
    rw [tokenAt_eq_some_iff, covers_iff]
  · intro before hbefore
    rcases before?_eq_some_iff.mp hbefore with ⟨rest, rfl, rfl⟩
    have horder := (inOrder_tokensStartingAt (before ++ rest)
      (before.byteLength - before.lastLine.byteLength)).pairwise
    rw [find?_covers_takeWhile (horder.imp And.left)]
    exact tokenAt_eq_find?_tokensStartingAt before rest

end PseudocodeTools
