import PseudocodeTools.Proofs.Lexeme.Scan
import PseudocodeTools.Proofs.Lexeme.Unbroken
/-!
# Covering a text

Scanning on and on from a boundary comes to the end of the text.  The segments
that are passed on the way cover what stands behind the boundary exactly once,
and the tokens among them stand in order.
-/

namespace PseudocodeTools

/-!
# Runs of scans
-/

/-- The segments that are taken when each scan starts where the one before it
ended, until nothing can be scanned. -/
inductive Scans (source : Text) : Nat -> List Segment -> Prop where
  | done {cursor : Nat} (stops : scan source cursor = none) :
      Scans source cursor []
  | step {cursor : Nat} {segment : Segment} {run : List Segment}
      (scanned : scan source cursor = some segment)
      (goesOn : Scans source segment.stop run) :
      Scans source cursor (segment :: run)

theorem Scans.unique {source : Text} {cursor : Nat} {run run' : List Segment}
    (h : Scans source cursor run) (h' : Scans source cursor run') :
    run = run' := by
  induction h generalizing run' with
  | done stops =>
      cases h' with
      | done => rfl
      | step scanned =>
          rw [stops] at scanned
          cases scanned
  | step scanned goesOn ih =>
      cases h' with
      | done stops =>
          rw [stops] at scanned
          cases scanned
      | step scanned' goesOn' =>
          rw [scanned, Option.some.injEq] at scanned'
          rw [← scanned'] at goesOn' ⊢
          rw [ih goesOn']

/-!
# Tilings
-/

/-- Segments that spell out a text which stands at byte offset `start`, each of
them the one that the rules call for where it begins. -/
inductive Tiles : Nat -> Text -> List Segment -> Prop where
  | nil {start : Nat} : Tiles start [] []
  | cons {start : Nat} {kind? : Option TokenKind} {s after : Text}
      {run : List Segment} (munches : Munches (s ++ after) kind? s)
      (tiles : Tiles (start + s.byteLength) after run) :
      Tiles start (s ++ after)
        ({ kind := kind?, start := start, text := s } :: run)

theorem segmentAt_eq_of_munches {start : Nat} {c : Char} {t s : Text}
    {kind? : Option TokenKind} (h : Munches (c :: t) kind? s) :
    segmentAt start c t = { kind := kind?, start := start, text := s } := by
  rcases (munches_segmentAt start c t).unique h with ⟨hkind, htext⟩
  rw [Segment.mk.injEq]
  exact ⟨hkind, start_segmentAt start c t, htext⟩

/-- A segment takes at least the first character, so the recursion over a text
goes on behind all of it. -/
theorem segmentsFrom_of_munches {start : Nat} {s after : Text}
    {kind? : Option TokenKind} (h : Munches (s ++ after) kind? s) :
    segmentsFrom start (s ++ after) =
      { kind := kind?, start := start, text := s } ::
        segmentsFrom (start + s.byteLength) after := by
  cases s with
  | nil =>
      exact absurd rfl h.text_ne_nil
  | cons c s =>
      have hsegment : segmentAt start c (s ++ after) =
          { kind := kind?, start := start, text := c :: s } :=
        segmentAt_eq_of_munches h
      rw [List.cons_append, segmentsFrom, hsegment]
      have hdrop : (s ++ after).drop ((c :: s).length - 1) = after :=
        List.drop_left
      rw [hdrop]
      rfl

theorem tiles_segmentsFrom (start : Nat) (t : Text) :
    Tiles start t (segmentsFrom start t) := by
  induction hlen : t.length using Nat.strongRecOn generalizing start t with
  | ind n ih =>
      cases t with
      | nil =>
          rw [segmentsFrom]
          exact .nil
      | cons c t =>
          have hmunch := munches_segmentAt start c t
          generalize (segmentAt start c t).kind = kind? at hmunch
          generalize (segmentAt start c t).text = s at hmunch
          rcases hmunch.isPrefix with ⟨after, hsplit⟩
          rw [← hsplit] at hmunch hlen ⊢
          have hpos := List.length_pos_iff.mpr hmunch.text_ne_nil
          rw [List.length_append] at hlen
          rw [segmentsFrom_of_munches hmunch]
          exact .cons hmunch (ih after.length (by omega) _ after rfl)

namespace Tiles

variable {start : Nat} {t : Text} {run : List Segment}

theorem eq_segmentsFrom (h : Tiles start t run) :
    run = segmentsFrom start t := by
  induction h with
  | nil =>
      rw [segmentsFrom]
  | cons munches tiles ih =>
      rw [segmentsFrom_of_munches munches, ← ih]

theorem flatten_text (h : Tiles start t run) :
    (run.map Segment.text).flatten = t := by
  induction h with
  | nil =>
      rfl
  | cons munches tiles ih =>
      rw [List.map_cons, List.flatten_cons, ih]

/-- Where a segment of a tiling stands, and that the rules call for it there. -/
theorem exists_split (h : Tiles start t run) {segment : Segment}
    (hmem : segment ∈ run) :
    exists front after, front ++ (segment.text ++ after) = t ∧
      segment.start = start + front.byteLength ∧
      Munches (segment.text ++ after) segment.kind segment.text := by
  induction h with
  | nil =>
      cases hmem
  | @cons start kind? s after run munches tiles ih =>
      rcases List.mem_cons.mp hmem with rfl | hrest
      · exact ⟨[], after, rfl, rfl, munches⟩
      · rcases ih hrest with ⟨front, after', rfl, hstart, hmunch⟩
        refine ⟨s ++ front, after', List.append_assoc _ _ _, ?_, hmunch⟩
        rw [hstart, Text.byteLength_append, Nat.add_assoc]

/-- Scanning takes the tiles one after the other and then stops. -/
theorem scans (h : Tiles start t run) {front : Text}
    (hstart : front.byteLength = start) :
    Scans (front ++ t) start run := by
  induction h generalizing front with
  | nil =>
      refine .done (scan_eq_none_iff.mpr (Or.inl ?_))
      rw [List.append_nil, hstart]
  | @cons start kind? s after run munches tiles ih =>
      have hafter : Text.after? (front ++ (s ++ after)) start =
          some (s ++ after) :=
        after?_eq_some_iff.mpr ⟨front, rfl, hstart⟩
      have hscan : scan (front ++ (s ++ after)) start =
          some { kind := kind?, start := start, text := s } := by
        cases s with
        | nil =>
            exact absurd rfl munches.text_ne_nil
        | cons c s =>
            unfold scan
            rw [hafter]
            exact congrArg some (segmentAt_eq_of_munches munches)
      have hbehind : Text.byteLength (front ++ s) = start + s.byteLength := by
        rw [Text.byteLength_append, hstart]
      have hrest := ih hbehind
      rw [List.append_assoc] at hrest
      exact .step hscan hrest

end Tiles

/-!
# Covers
-/

/-- Segments that follow each other without a gap from one byte offset to
another, none of them empty. -/
inductive Contiguous : Nat -> List Segment -> Nat -> Prop where
  | nil {cursor : Nat} : Contiguous cursor [] cursor
  | cons {segment : Segment} {run : List Segment} {last : Nat}
      (nonempty : segment.start < segment.stop)
      (rest : Contiguous segment.stop run last) :
      Contiguous segment.start (segment :: run) last

/-- Segments that cover a text exactly once from a byte offset to its end. -/
structure Covers (source : Text) (cursor : Nat) (run : List Segment) :
    Prop where
  contiguous : Contiguous cursor run source.byteLength
  flatten_text : source.after? cursor = some (run.map Segment.text).flatten
  onBoundary : forall segment, segment ∈ run ->
    IsBoundary source segment.start ∧ IsBoundary source segment.stop
  isSlice : forall segment, segment ∈ run ->
    source.slice? segment.start segment.stop = some segment.text
  oneLine : forall segment, segment ∈ run ->
    segment.kind ≠ none -> '\n' ∉ segment.text
  oneCharacter : forall segment, segment ∈ run ->
    segment.kind = none -> segment.text.length = 1

theorem Contiguous.first_le_start {first last : Nat} {run : List Segment}
    (h : Contiguous first run last) {segment : Segment}
    (hmem : segment ∈ run) :
    first ≤ segment.start := by
  induction h with
  | nil =>
      cases hmem
  | cons nonempty rest ih =>
      rcases List.mem_cons.mp hmem with rfl | hrest
      · exact Nat.le_refl _
      · exact Nat.le_trans (Nat.le_of_lt nonempty) (ih hrest)

theorem Contiguous.start_lt_stop {first last : Nat} {run : List Segment}
    (h : Contiguous first run last) {segment : Segment}
    (hmem : segment ∈ run) :
    segment.start < segment.stop := by
  induction h with
  | nil =>
      cases hmem
  | cons nonempty rest ih =>
      rcases List.mem_cons.mp hmem with rfl | hrest
      · exact nonempty
      · exact ih hrest

theorem Contiguous.pairwise {first last : Nat} {run : List Segment}
    (h : Contiguous first run last) :
    run.Pairwise fun s t => s.start < t.start ∧ s.stop ≤ t.start := by
  induction h with
  | nil =>
      exact .nil
  | cons nonempty rest ih =>
      refine .cons ?_ ih
      intro segment hmem
      have hle := rest.first_le_start hmem
      exact ⟨Nat.lt_of_lt_of_le nonempty hle, hle⟩

theorem Tiles.contiguous {start : Nat} {t : Text} {run : List Segment}
    (h : Tiles start t run) :
    Contiguous start run (start + t.byteLength) := by
  induction h with
  | nil =>
      exact .nil
  | @cons start kind? s after run munches tiles ih =>
      have hnonempty : start < start + s.byteLength :=
        Nat.lt_add_of_pos_right (byteLength_pos munches.text_ne_nil)
      rw [Text.byteLength_append, ← Nat.add_assoc]
      exact @Contiguous.cons ⟨kind?, start, s⟩ run _ hnonempty ih

theorem Tiles.covers {front t : Text} {run : List Segment}
    (h : Tiles front.byteLength t run) :
    Covers (front ++ t) front.byteLength run where
  contiguous := by
    rw [Text.byteLength_append]
    exact h.contiguous
  flatten_text := by
    rw [h.flatten_text]
    exact after?_eq_some_iff.mpr ⟨front, rfl, rfl⟩
  onBoundary := by
    intro segment hmem
    rcases h.exists_split hmem with ⟨front', after, rfl, hstart, _⟩
    rw [Segment.stop, hstart, ← Text.byteLength_append, ← List.append_assoc]
    exact isBoundary_append _ _ _
  isSlice := by
    intro segment hmem
    rcases h.exists_split hmem with ⟨front', after, rfl, hstart, _⟩
    rw [Segment.stop, hstart, ← Text.byteLength_append, ← List.append_assoc]
    exact slice?_append _ _ _
  oneLine := by
    intro segment hmem hkind
    rcases h.exists_split hmem with ⟨_, _, _, _, hmunch⟩
    rcases Option.ne_none_iff_exists'.mp hkind with ⟨kind, heq⟩
    rw [heq] at hmunch
    exact hmunch.unbroken.2
  oneCharacter := by
    intro segment hmem hkind
    rcases h.exists_split hmem with ⟨_, _, _, _, hmunch⟩
    rw [hkind] at hmunch
    rcases hmunch.exists_eq_singleton with ⟨c, hc⟩
    rw [hc]
    rfl

/-!
# Tokens of a cover
-/

/-- Tokens that stand in a text one after the other, none of them empty. -/
structure InOrder (source : Text) (found : List Token) : Prop where
  pairwise : found.Pairwise fun a b => a.start < b.start ∧ a.stop ≤ b.start
  isSlice : forall token, token ∈ found -> token.start < token.stop ∧
    source.slice? token.start token.stop = some token.text

theorem token?_eq_some_iff {segment : Segment} {token : Token} :
    segment.token? = some token ↔
      segment.kind = some token.kind ∧ segment.start = token.start ∧
        segment.text = token.text := by
  unfold Segment.token?
  rw [Option.map_eq_some_iff]
  constructor
  · intro h
    rcases h with ⟨kind, hkind, rfl⟩
    exact ⟨hkind, rfl, rfl⟩
  · intro h
    rcases h with ⟨hkind, hstart, htext⟩
    refine ⟨token.kind, hkind, ?_⟩
    rw [hstart, htext]

theorem start_eq_of_token? {segment : Segment} {token : Token}
    (h : segment.token? = some token) :
    segment.start = token.start :=
  (token?_eq_some_iff.mp h).2.1

theorem stop_eq_of_token? {segment : Segment} {token : Token}
    (h : segment.token? = some token) :
    segment.stop = token.stop := by
  rcases token?_eq_some_iff.mp h with ⟨_, hstart, htext⟩
  rw [Segment.stop, Token.stop, hstart, htext]

theorem Covers.inOrder_tokens {source : Text} {cursor : Nat}
    {run : List Segment} (h : Covers source cursor run) :
    InOrder source (run.filterMap Segment.token?) where
  pairwise := by
    refine h.contiguous.pairwise.filterMap Segment.token? ?_
    intro s t hbefore a ha b hb
    rcases token?_eq_some_iff.mp ha with ⟨_, hstart, htext⟩
    rcases token?_eq_some_iff.mp hb with ⟨_, hstart', _⟩
    rw [Segment.stop, hstart, htext, hstart'] at hbefore
    exact hbefore
  isSlice := by
    intro token hmem
    rcases List.mem_filterMap.mp hmem with ⟨segment, hsegment, htoken⟩
    rcases token?_eq_some_iff.mp htoken with ⟨_, hstart, htext⟩
    have hlt := h.contiguous.start_lt_stop hsegment
    have hslice := h.isSlice segment hsegment
    rw [Segment.stop, hstart, htext] at hlt hslice
    exact ⟨hlt, hslice⟩

/-- From every boundary of a text, scanning comes to an end after one run of
segments, which cover the rest of the text exactly once; the tokens from that
boundary on are those of the run, and stand in order. -/
theorem scans_cover_once (source : Text) (cursor : Nat)
    (hcursor : IsBoundary source cursor) :
    exists run, (forall run', Scans source cursor run' ↔ run' = run) ∧
      (forall rest, source.after? cursor = some rest ->
        segmentsFrom cursor rest = run) ∧
      Covers source cursor run ∧
      tokensStartingAt source cursor = run.filterMap Segment.token? ∧
      InOrder source (tokensStartingAt source cursor) := by
  rcases hcursor with ⟨front, rest, rfl, rfl⟩
  have htiles := tiles_segmentsFrom front.byteLength rest
  have hscans : Scans (front ++ rest) front.byteLength
      (segmentsFrom front.byteLength rest) := htiles.scans rfl
  have htokens : tokensStartingAt (front ++ rest) front.byteLength =
      (segmentsFrom front.byteLength rest).filterMap Segment.token? := by
    unfold tokensStartingAt
    rw [after?_eq_some_iff.mpr ⟨front, rfl, rfl⟩]
    rfl
  refine ⟨segmentsFrom front.byteLength rest, ?_, ?_, htiles.covers, htokens,
    ?_⟩
  · intro run'
    constructor
    · exact fun hrun' => hrun'.unique hscans
    · intro heq
      rw [heq]
      exact hscans
  · intro rest' hrest'
    rw [after?_eq_some_iff.mpr ⟨front, rfl, rfl⟩, Option.some.injEq] at hrest'
    rw [hrest']
  · rw [htokens]
    exact htiles.covers.inOrder_tokens

/-- An accented letter before the cursor, and a string that is never closed
behind it. -/
theorem scans_cover_once_behind_accent :
    IsBoundary "é\"a\n7.5".toList 2 ∧
      exists run,
        (forall run', Scans "é\"a\n7.5".toList 2 run' ↔ run' = run) ∧
        (forall rest, Text.after? "é\"a\n7.5".toList 2 = some rest ->
          segmentsFrom 2 rest = run) ∧
        Covers "é\"a\n7.5".toList 2 run ∧
        tokensStartingAt "é\"a\n7.5".toList 2 =
          run.filterMap Segment.token? ∧
        InOrder "é\"a\n7.5".toList
          (tokensStartingAt "é\"a\n7.5".toList 2) := by
  have hcursor : IsBoundary "é\"a\n7.5".toList 2 :=
    ⟨['é'], "\"a\n7.5".toList, rfl, rfl⟩
  exact ⟨hcursor, scans_cover_once _ _ hcursor⟩

end PseudocodeTools
