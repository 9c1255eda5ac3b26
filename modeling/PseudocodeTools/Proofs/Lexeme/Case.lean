import PseudocodeTools.Proofs.Lexeme.Cover
import PseudocodeTools.Proofs.Text.Case
/-!
# Segments without case

The languages of all rules are closed under changes of case, so the segments of
a text in lower case are those of the text, in lower case.
-/

namespace PseudocodeTools

open Computability

/-!
# Languages without case
-/

/-- Whether a word is in the language does not depend on the case of its
letters. -/
def IgnoresCase (L : Language Char) : Prop :=
  forall w : Text, w.toLower ∈ L ↔ w ∈ L

section Closure

variable {L M : Language Char}

theorem ignoresCase_oneOf {P : Char -> Prop} (hP : CaseBlind P) :
    IgnoresCase (oneOf P) := by
  intro w
  constructor
  · rintro ⟨_, hc, hw⟩
    rcases List.map_eq_singleton_iff.mp hw with ⟨c, rfl, rfl⟩
    exact ⟨c, (hP c).mp hc, rfl⟩
  · rintro ⟨c, hc, rfl⟩
    exact ⟨c.toLower, (hP c).mpr hc, rfl⟩

theorem ignoresCase_one : IgnoresCase 1 := by
  intro w
  rw [Language.mem_one, Language.mem_one]
  exact List.map_eq_nil_iff

theorem IgnoresCase.add (hL : IgnoresCase L) (hM : IgnoresCase M) :
    IgnoresCase (L + M) := by
  intro w
  rw [Language.mem_add, Language.mem_add, hL w, hM w]

theorem IgnoresCase.mul (hL : IgnoresCase L) (hM : IgnoresCase M) :
    IgnoresCase (L * M) := by
  intro w
  rw [Language.mem_mul, Language.mem_mul]
  constructor
  · rintro ⟨_, ha, _, hb, heq⟩
    rcases List.append_eq_map_iff.mp heq with ⟨a, b, rfl, rfl, rfl⟩
    exact ⟨a, (hL a).mp ha, b, (hM b).mp hb, rfl⟩
  · rintro ⟨a, ha, b, hb, rfl⟩
    exact ⟨_, (hL a).mpr ha, _, (hM b).mpr hb, List.map_append.symm⟩

theorem IgnoresCase.pow (h : IgnoresCase L) (n : Nat) : IgnoresCase (L ^ n) := by
  induction n with
  | zero =>
      rw [pow_zero]
      exact ignoresCase_one
  | succ n ih =>
      rw [pow_succ]
      exact ih.mul h

theorem IgnoresCase.kstar (h : IgnoresCase L) : IgnoresCase L∗ := by
  intro w
  rw [Language.kstar_eq_iSup_pow, Language.mem_iSup, Language.mem_iSup]
  exact exists_congr fun n => h.pow n w

end Closure

/-!
# Languages of the rules
-/

theorem ignoresCase_reserved (words : List Text) :
    IgnoresCase (reservedLanguage words) := by
  intro w
  exact exists_congr fun word => and_congr_right fun _ =>
    Bool.eq_iff_iff.mp (equalIgnoringCase_toLower w word)

theorem ignoresCase_minus : IgnoresCase (character '-') :=
  ignoresCase_oneOf (caseBlind_of_ascii (by decide))

theorem ignoresCase_digit : IgnoresCase digit :=
  ignoresCase_oneOf (caseBlind_of_ascii (by decide))

theorem ignoresCase_notLineFeed : IgnoresCase notLineFeed :=
  ignoresCase_oneOf (caseBlind_of_ascii (by decide))

theorem ignoresCase_digits : IgnoresCase (digit * digit∗) :=
  ignoresCase_digit.mul ignoresCase_digit.kstar

theorem ignoresCase_number : IgnoresCase numberLanguage :=
  (ignoresCase_one.add ignoresCase_minus).mul ignoresCase_digits

theorem ignoresCase_quoted {quote : Char}
    (h : quote = '"' ∨ quote = '\'') :
    IgnoresCase (quotedLanguage quote) := by
  have hquote : CaseBlind (· = quote) := by
    rcases h with rfl | rfl <;> exact caseBlind_of_ascii (by decide)
  have hslash : IgnoresCase (character '\\') :=
    ignoresCase_oneOf (caseBlind_of_ascii (by decide))
  have hclose : IgnoresCase (character quote) := ignoresCase_oneOf hquote
  have hplain : CaseBlind fun c => c ≠ quote ∧ c ≠ '\\' ∧ c ≠ '\n' := by
    have hothers : CaseBlind fun c => c ≠ '\\' ∧ c ≠ '\n' :=
      caseBlind_of_ascii (by decide)
    exact fun c => congrArg₂ (¬ · ∧ ·) (hquote c) (hothers c)
  have hitem : IgnoresCase (quotedItem quote) :=
    (ignoresCase_oneOf hplain).add (hslash.mul ignoresCase_notLineFeed)
  exact hclose.mul (hitem.kstar.mul hclose)

theorem ignoresCase_comment : IgnoresCase commentLanguage :=
  have hslash : IgnoresCase (character '/') :=
    ignoresCase_oneOf (caseBlind_of_ascii (by decide))
  hslash.mul (hslash.mul ignoresCase_notLineFeed.kstar)

theorem ignoresCase_operator : IgnoresCase operatorLanguage :=
  have hoperator : IgnoresCase operatorChar :=
    ignoresCase_oneOf (caseBlind_of_ascii (by decide))
  hoperator.mul hoperator.kstar

theorem ignoresCase_word : IgnoresCase wordLanguage :=
  have hstart : IgnoresCase wordStart :=
    ignoresCase_oneOf (caseBlind_of_ascii (by decide))
  have hchar : IgnoresCase wordChar :=
    ignoresCase_oneOf (caseBlind_of_ascii (by decide))
  ((ignoresCase_minus.mul ignoresCase_digits).add ignoresCase_digit.kstar).mul
    (hstart.mul hchar.kstar)

theorem ignoresCase_identifier : IgnoresCase identifierLanguage :=
  have hstart : IgnoresCase (oneOf fun c => c.isAlpha = true ∨ c = '_') :=
    ignoresCase_oneOf (caseBlind_of_ascii (by decide))
  have hchar : IgnoresCase (oneOf fun c => c.isAlphanum = true ∨ c = '_') :=
    ignoresCase_oneOf (caseBlind_of_ascii (by decide))
  hstart.mul hchar.kstar

theorem ignoresCase_token : IgnoresCase tokenLanguage := by
  have hrule : forall rule, rule ∈ Rule.all -> IgnoresCase rule.language := by
    intro rule hmem
    cases rule with
    | keyword | boolean =>
        exact ignoresCase_reserved _
    | number =>
        exact ignoresCase_number
    | quoted quote =>
        exact ignoresCase_quoted (Rule.quote_of_mem_all hmem)
    | comment =>
        exact ignoresCase_comment
    | operator =>
        exact ignoresCase_operator
    | word =>
        exact ignoresCase_word
  intro w
  rw [mem_tokenLanguage_iff, mem_tokenLanguage_iff]
  exact exists_congr fun rule => and_congr_right fun hmem => hrule rule hmem w

/-!
# Segments in lower case
-/

section Lower

variable {t p after : Text}

theorem exists_of_isPrefix_toLower (h : p <+: t.toLower) :
    exists q : Text, q <+: t ∧ q.toLower = p := by
  rcases h with ⟨rest, heq⟩
  rcases List.append_eq_map_iff.mp heq with ⟨q, rest, rfl, hq, _⟩
  exact ⟨q, List.prefix_append q rest, hq⟩

theorem LongestIn.toLower {L : Language Char} (hL : IgnoresCase L)
    (h : LongestIn L t p) :
    LongestIn L t.toLower p.toLower where
  isPrefix := h.isPrefix.map Char.toLower
  mem := (hL p).mpr h.mem
  longest := by
    intro q hq hmem
    rcases exists_of_isPrefix_toLower hq with ⟨q, hprefix, rfl⟩
    have hle := h.longest q hprefix ((hL q).mp hmem)
    unfold Text.toLower
    rw [List.length_map, List.length_map]
    exact hle

theorem blurs_toLower (t : Text) : Blurs t.toLower ↔ Blurs t := by
  rw [← blursWord_iff, ← blursWord_iff]
  cases t with
  | nil =>
      exact Iff.rfl
  | cons c t =>
      have hblind : CaseBlind fun c => Rule.blursWord [c] :=
        caseBlind_of_ascii (by decide)
      exact Bool.eq_iff_iff.mp (hblind c)

theorem HasKind.toLower {kind : TokenKind} (h : HasKind p after kind) :
    HasKind p.toLower after.toLower kind := by
  have hblurs := blurs_toLower after
  have hreserved : p.toLower ∈ reservedLanguage keywords ∨
        p.toLower ∈ reservedLanguage booleanWords ↔
      p ∈ reservedLanguage keywords ∨ p ∈ reservedLanguage booleanWords :=
    or_congr (ignoresCase_reserved _ p) (ignoresCase_reserved _ p)
  cases h with
  | keyword matched clear =>
      exact .keyword ((ignoresCase_reserved _ p).mpr matched)
        (hblurs.not.mpr clear)
  | boolean matched clear =>
      exact .boolean ((ignoresCase_reserved _ p).mpr matched)
        (hblurs.not.mpr clear)
  | number matched =>
      exact .number ((ignoresCase_number p).mpr matched)
  | doubleQuoted matched =>
      exact .doubleQuoted ((ignoresCase_quoted (Or.inl rfl) p).mpr matched)
  | singleQuoted matched =>
      exact .singleQuoted ((ignoresCase_quoted (Or.inr rfl) p).mpr matched)
  | comment matched =>
      exact .comment ((ignoresCase_comment p).mpr matched)
  | operator matched uncommented =>
      exact .operator ((ignoresCase_operator p).mpr matched)
        ((ignoresCase_comment p).not.mpr uncommented)
  | identifier matched unreserved wellFormed =>
      exact .identifier ((ignoresCase_word p).mpr matched)
        (fun h => hblurs.mpr (unreserved (hreserved.mp h)))
        ((ignoresCase_identifier p).mpr wellFormed)
  | invalid matched unreserved malformed =>
      exact .invalid ((ignoresCase_word p).mpr matched)
        (fun h => hblurs.mpr (unreserved (hreserved.mp h)))
        ((ignoresCase_identifier p).not.mpr malformed)

theorem GoesOn.toLower {kind : TokenKind} {tail : Text}
    (h : GoesOn kind tail after) :
    GoesOn kind tail.toLower after.toLower := by
  have hdigit : CaseBlind Char.isDigit := caseBlind_of_ascii (by decide)
  have hpoint : CaseBlind (· = '.') := caseBlind_of_ascii (by decide)
  cases h with
  | fraction matched stop =>
      refine .fraction ((ignoresCase_digits _).mpr matched) ?_
      intro c rest heq
      rcases List.map_eq_cons_iff.mp heq with ⟨d, rest, rfl, rfl, _⟩
      rw [hdigit d]
      exact stop d rest rfl
  | integer stop =>
      refine .integer ?_
      intro c rest heq
      rcases List.map_eq_cons_iff.mp heq with ⟨point, _, rfl, hlower, heq⟩
      rcases List.map_eq_cons_iff.mp heq with ⟨d, rest, rfl, rfl, _⟩
      rw [hdigit d]
      exact stop d rest (congrArg (· :: d :: rest) ((hpoint point).mp hlower))
  | other hkind =>
      exact .other hkind

theorem Munches.toLower {kind? : Option TokenKind} (h : Munches t kind? p) :
    Munches t.toLower kind? p.toLower := by
  cases h with
  | @matched p tail after kind split longest hasKind goesOn =>
      have hkind := hasKind.toLower
      have hsplit := congrArg Text.toLower split
      simp only [Text.toLower_append] at hkind hsplit ⊢
      exact .matched hsplit (longest.toLower ignoresCase_token) hkind
        goesOn.toLower
  | @plain c rest split unmatched =>
      refine .plain (congrArg Text.toLower split) ?_
      intro q hq hmem
      rcases exists_of_isPrefix_toLower hq with ⟨q, hprefix, rfl⟩
      exact unmatched q hprefix ((ignoresCase_token q).mp hmem)

end Lower

/-- The segment with its text in lower case. -/
def Segment.toLower (segment : Segment) : Segment :=
  { segment with text := segment.text.toLower }

theorem Tiles.toLower {start : Nat} {t : Text} {run : List Segment}
    (h : Tiles start t run) :
    Tiles start t.toLower (run.map Segment.toLower) := by
  induction h with
  | nil =>
      exact .nil
  | @cons start kind? s after run munches tiles ih =>
      have hmunch := munches.toLower
      rw [Text.toLower_append] at hmunch ⊢
      rw [← byteLength_toLower] at ih
      exact .cons hmunch ih

theorem segments_toLower (source : Text) :
    segments source.toLower = (segments source).map Segment.toLower :=
  (tiles_segmentsFrom 0 source).toLower.eq_segmentsFrom.symm

/-!
# Outlines
-/

/-- What a segment shows of a text without its letters: the kind, and the byte
offsets of both ends. -/
structure Segment.Outline where
  kind : Option TokenKind
  start : Nat
  stop : Nat
deriving DecidableEq, Repr

def Segment.outline (segment : Segment) : Segment.Outline :=
  { kind := segment.kind, start := segment.start, stop := segment.stop }

theorem outline_toLower (segment : Segment) :
    segment.toLower.outline = segment.outline := by
  have hstop : segment.toLower.stop = segment.stop :=
    congrArg (segment.start + ·) (byteLength_toLower segment.text)
  unfold Segment.outline
  rw [hstop]
  rfl

theorem outlines_toLower (source : Text) :
    (segments source.toLower).map Segment.outline =
      (segments source).map Segment.outline := by
  rw [segments_toLower, List.map_map]
  exact List.map_congr_left fun segment _ => outline_toLower segment

end PseudocodeTools
