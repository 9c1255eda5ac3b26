import PseudocodeTools.Proofs.Indent
import PseudocodeTools.Typing
/-!
# Typing nested headers

Whoever types one header after the other, each with a line break behind it, gets
a document in which every header stands one indent unit deeper than the one
before it.  The invariant of a round is that the cursor stands at the end, behind
the indentation that the headers so far call for.
-/

namespace PseudocodeTools

/-- One line of text that starts with no blank and whose last word, but for
blanks behind it, is the marker. -/
structure IsHeader (header : Text) : Prop where
  lineFeed_notMem : '\n' ∉ header
  unindented : forall c, header.head? = some c -> isBlank c = false
  marked : exists head : Text, head ++ entryMarker = header.trimEnd ∧
    forall c, head.getLast? = some c -> joinsMarker c = false

/-- Blanks on one line, possibly none. -/
structure IsIndentUnit (unit : Text) : Prop where
  lineFeed_notMem : '\n' ∉ unit
  blank : forall c, c ∈ unit -> isBlank c = true

theorem isHeader_iff {header : Text} :
    IsHeader header ↔
      '\n' ∉ header ∧ (header.head?.any isBlank) = false ∧
        endsWithMarker header.trimEnd = true := by
  have hhead : (header.head?.any isBlank) = false ↔
      forall c, header.head? = some c -> isBlank c = false := by
    cases header.head? <;> simp
  rw [hhead, endsWithMarker_iff]
  exact ⟨fun h => ⟨h.lineFeed_notMem, h.unindented, h.marked⟩,
    fun ⟨hfeed, hblank, hmarked⟩ => ⟨hfeed, hblank, hmarked⟩⟩

instance : DecidablePred IsHeader := fun _ =>
  decidable_of_iff _ isHeader_iff.symm

theorem isIndentUnit_iff {unit : Text} :
    IsIndentUnit unit ↔ '\n' ∉ unit ∧ unit.all isBlank = true := by
  rw [List.all_eq_true]
  exact ⟨fun h => ⟨h.lineFeed_notMem, h.blank⟩,
    fun ⟨hfeed, hblank⟩ => ⟨hfeed, hblank⟩⟩

instance : DecidablePred IsIndentUnit := fun _ =>
  decidable_of_iff _ isIndentUnit_iff.symm

/-- What a line below that many headers begins with. -/
def indentation (unit : Text) (depth : Nat) : Text :=
  (List.replicate depth unit).flatten

/-- Each header on a line of its own, one unit deeper than the one before it, and
the start of a further line. -/
def nestedText (unit : Text) : Nat -> List Text -> Text
  | depth, [] => indentation unit depth
  | depth, header :: headers =>
      indentation unit depth ++ (header ++
        '\n' :: nestedText unit (depth + 1) headers)

namespace Typing

/-- The states in which headers are typed, each with an indented line break
behind it: the first state, and those after each header and after each line
break.  There are none when a line break is left to the editor. -/
def rounds? (unit : Text) : Typing -> List Text -> Option (List Typing)
  | state, [] => some [state]
  | state, header :: headers => do
      let typed := state.write header
      let broken ← typed.indented? unit
      let later ← rounds? unit broken headers
      some (state :: typed :: later)

end Typing

/-!
# Indentation
-/

section Unit

variable {unit : Text}

theorem mem_of_mem_indentation {depth : Nat} {c : Char}
    (h : c ∈ indentation unit depth) : c ∈ unit := by
  rcases List.mem_flatten.mp h with ⟨copy, hcopy, hc⟩
  rw [List.eq_of_mem_replicate hcopy] at hc
  exact hc

theorem IsIndentUnit.lineFeed_notMem_indentation (h : IsIndentUnit unit)
    (depth : Nat) : '\n' ∉ indentation unit depth :=
  fun hmem => h.lineFeed_notMem (mem_of_mem_indentation hmem)

theorem IsIndentUnit.indentation_blank (h : IsIndentUnit unit) (depth : Nat) :
    forall c, c ∈ indentation unit depth -> isBlank c = true :=
  fun c hmem => h.blank c (mem_of_mem_indentation hmem)

theorem indentation_append (unit : Text) (depth : Nat) :
    indentation unit depth ++ unit = indentation unit (depth + 1) := by
  unfold indentation
  rw [List.replicate_succ', List.flatten_append, List.flatten_singleton]

/-- Behind a header that stands at some depth, the new line goes one unit
deeper. -/
theorem insertionBehind?_header (hunit : IsIndentUnit unit) {before header : Text}
    (hbefore : before.lastLine = []) (hheader : IsHeader header) (depth : Nat) :
    insertionBehind? (before ++ (indentation unit depth ++ header)) unit =
      some ('\n' :: indentation unit (depth + 1)) := by
  have hblank := hunit.indentation_blank depth
  have hmarker : endsWithMarker header.trimEnd = true :=
    endsWithMarker_iff.mpr hheader.marked
  have hline : Text.lastLine (before ++ (indentation unit depth ++ header)) =
      indentation unit depth ++ header :=
    lastLine_append_of_eq_nil hbefore (lineFeed_notMem_append
      (hunit.lineFeed_notMem_indentation depth) hheader.lineFeed_notMem)
  have htrim : Text.trimEnd (indentation unit depth ++ header) =
      indentation unit depth ++ header.trimEnd :=
    trimEnd_append_of_ne_nil _ (ne_nil_of_endsWithMarker hmarker)
  have hleading : Text.leadingBlanks (indentation unit depth ++ header) =
      indentation unit depth :=
    takeWhile_run_append hblank hheader.unindented
  unfold insertionBehind?
  rw [hline, htrim, hleading,
    if_pos (endsWithMarker_append_of_blanks hblank hmarker),
    indentation_append]

/-!
# The blank line at the end
-/

/-- On a line of blanks only, the editor is left alone. -/
theorem autoIndent_blank_line {before blanks : Text}
    (hbefore : before.lastLine = []) (hfeed : '\n' ∉ blanks)
    (hblanks : forall c, c ∈ blanks -> isBlank c = true) {cursor : Nat}
    (hcursor : before.byteLength ≤ cursor) (unit : Text) :
    autoIndent (before ++ blanks) cursor unit = none := by
  cases hcut : Text.before? (before ++ blanks) cursor with
  | none =>
      unfold autoIndent
      rw [hcut]
      rfl
  | some front =>
      -- What stands before the cursor ends in the first part of the blank line.
      rcases before?_eq_some_iff.mp hcut with ⟨rest, happend, rfl⟩
      rcases exists_gap happend.symm hcursor with ⟨gap, rfl, hgap⟩
      rw [hgap] at hfeed hblanks
      have hline : Text.lastLine (before ++ gap) = gap :=
        lastLine_append_of_eq_nil hbefore fun hmem =>
          hfeed (List.mem_append_left rest hmem)
      have htrim : gap.trimEnd = [] := trimEnd_eq_nil_iff.mpr
        fun c hmem => hblanks c (List.mem_append_left rest hmem)
      have hmarker : ¬ endsWithMarker ([] : Text) = true := by
        decide
      rw [← happend, autoIndent_append]
      unfold insertionBehind?
      rw [hline, htrim, if_neg hmarker]
      rfl

/-- The text ends in a line with nothing but the indentation under all its
headers. -/
theorem exists_nestedText_eq (unit : Text) (depth : Nat) (headers : List Text) :
    exists before : Text, before.lastLine = [] ∧
      before ++ indentation unit (depth + headers.length) =
        nestedText unit depth headers := by
  induction headers generalizing depth with
  | nil =>
      exact ⟨[], rfl, rfl⟩
  | cons header headers ih =>
      rcases ih (depth + 1) with ⟨before, hbefore, happend⟩
      refine ⟨indentation unit depth ++ (header ++ '\n' :: before), ?_, ?_⟩
      · rw [← List.append_assoc, lastLine_behind_lineFeed]
        exact hbefore
      · rw [nestedText, ← happend, List.length_cons, Nat.add_comm headers.length,
          ← Nat.add_assoc, List.append_assoc, List.append_assoc]
        rfl

end Unit

namespace Typing

/-!
# Rounds
-/

theorem perform_atEnd (source insert : Text) :
    (atEnd source).perform
        { offset := source.byteLength
          insert := insert
          cursor := source.byteLength + insert.byteLength } =
      atEnd (source ++ insert) := by
  have happly := apply_at_end source [] insert
    (source.byteLength + insert.byteLength)
  rw [List.append_nil, List.append_nil] at happly
  unfold perform atEnd
  rw [happly, Text.byteLength_append]
  rfl

theorem write_atEnd (source t : Text) :
    (atEnd source).write t = atEnd (source ++ t) :=
  perform_atEnd source t

theorem indented?_atEnd (source unit : Text) :
    (atEnd source).indented? unit =
      (insertionBehind? source unit).map fun insert =>
        atEnd (source ++ insert) := by
  have hindent := autoIndent_append source [] unit
  rw [List.append_nil] at hindent
  show (autoIndent source source.byteLength unit).map (atEnd source).perform = _
  rw [hindent, Option.map_map]
  exact congrArg (fun f => (insertionBehind? source unit).map f)
    (funext (perform_atEnd source))

variable {unit : Text}

/-- One round takes the cursor from the indentation of one depth to that of the
next. -/
theorem indented?_header (hunit : IsIndentUnit unit) {before header : Text}
    (hbefore : before.lastLine = []) (hheader : IsHeader header) (depth : Nat) :
    ((atEnd (before ++ indentation unit depth)).write header).indented? unit =
      some (atEnd (before ++ (indentation unit depth ++ (header ++ ['\n'])) ++
        indentation unit (depth + 1))) := by
  rw [write_atEnd, indented?_atEnd, List.append_assoc,
    insertionBehind?_header hunit hbefore hheader, Option.map_some]
  simp only [List.append_assoc, List.singleton_append]

theorem rounds?_nested (hunit : IsIndentUnit unit) {headers : List Text}
    (hheaders : forall header, header ∈ headers -> IsHeader header)
    {before : Text} (hbefore : before.lastLine = []) (depth : Nat) :
    exists states : List Typing,
      rounds? unit (atEnd (before ++ indentation unit depth)) headers =
        some states ∧
      (forall state, state ∈ states ->
        state.cursor = state.source.byteLength) ∧
      states.getLast? =
        some (atEnd (before ++ nestedText unit depth headers)) := by
  induction headers generalizing before depth with
  | nil =>
      refine ⟨[atEnd (before ++ indentation unit depth)], rfl, ?_, rfl⟩
      intro state hmem
      rw [List.mem_singleton.mp hmem]
      rfl
  | cons header headers ih =>
      have hheader := hheaders header List.mem_cons_self
      have hround := indented?_header hunit hbefore hheader depth
      -- The next header starts a line again, behind the whole line of this one.
      have hnext : Text.lastLine
          (before ++ (indentation unit depth ++ (header ++ ['\n']))) = [] := by
        rw [← List.append_assoc, ← List.append_assoc, lastLine_behind_lineFeed]
        rfl
      rcases ih (fun later hmem => hheaders later (List.mem_cons_of_mem _ hmem))
        hnext (depth + 1) with ⟨later, hlater, hcursors, hlast⟩
      refine ⟨atEnd (before ++ indentation unit depth) ::
        (atEnd (before ++ indentation unit depth)).write header :: later,
        ?_, ?_, ?_⟩
      · rw [rounds?, hround, Option.bind_eq_bind, Option.bind_some, hlater]
        rfl
      · intro state hmem
        rcases List.mem_cons.mp hmem with rfl | hmem
        · rfl
        · rcases List.mem_cons.mp hmem with rfl | hmem
          · rw [write_atEnd]
            rfl
          · exact hcursors state hmem
      · rw [List.getLast?_cons, List.getLast?_cons, hlast, nestedText]
        simp only [Option.getD_some, List.append_assoc, List.singleton_append]

/-- Typed into an empty document, headers nest: no line break behind one is left
to the editor, the cursor stays at the end, every line is one unit deeper than
the one before it, and on the blank line that is left a further line break is
not indented, wherever on it the cursor is. -/
theorem rounds_indent_by_depth (unit : Text) (headers : List Text)
    (hunit : IsIndentUnit unit)
    (hheaders : forall header, header ∈ headers -> IsHeader header) :
    exists states : List Typing,
      rounds? unit (atEnd []) headers = some states ∧
      (forall state, state ∈ states ->
        state.cursor = state.source.byteLength) ∧
      states.getLast? = some (atEnd (nestedText unit 0 headers)) ∧
      forall cursor, (nestedText unit 0 headers).byteLength ≤
          cursor + (indentation unit headers.length).byteLength ->
        ((atEnd (nestedText unit 0 headers)).moveTo cursor).indented? unit =
          none := by
  have hempty : Text.lastLine [] = [] := rfl
  rcases rounds?_nested hunit hheaders hempty 0 with
    ⟨states, hstates, hcursors, hlast⟩
  refine ⟨states, hstates, hcursors, hlast, ?_⟩
  intro cursor hcursor
  rcases exists_nestedText_eq unit 0 headers with ⟨before, hbefore, happend⟩
  rw [Nat.zero_add] at happend
  rw [← happend, Text.byteLength_append] at hcursor
  have hdecline := autoIndent_blank_line hbefore
    (hunit.lineFeed_notMem_indentation headers.length)
    (hunit.indentation_blank headers.length)
    (Nat.le_of_add_le_add_right hcursor) unit
  rw [happend] at hdecline
  show (autoIndent (nestedText unit 0 headers) cursor unit).map _ = none
  rw [hdecline]
  rfl

theorem rounds_indent_by_depth_beyond_ascii :
    IsIndentUnit ['\t', '\u00a0'] ∧
    (forall header, header ∈ ["FÜR é DO ".toList, "DO".toList] ->
      IsHeader header) ∧
    exists states : List Typing,
      rounds? ['\t', '\u00a0'] (atEnd [])
          ["FÜR é DO ".toList, "DO".toList] = some states ∧
      states.getLast? = some
        { source := "FÜR é DO \n\t\u00a0DO\n\t\u00a0\t\u00a0".toList
          cursor := 24 } := by
  have hunit : IsIndentUnit ['\t', '\u00a0'] := by
    decide +kernel
  have hheaders : forall header,
      header ∈ ["FÜR é DO ".toList, "DO".toList] -> IsHeader header := by
    decide +kernel
  rcases rounds_indent_by_depth _ _ hunit hheaders with
    ⟨states, hstates, _, hlast, _⟩
  exact ⟨hunit, hheaders, states, hstates, hlast⟩

end Typing
end PseudocodeTools
