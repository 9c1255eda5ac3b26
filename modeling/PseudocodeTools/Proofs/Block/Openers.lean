import PseudocodeTools.Block.Line
import PseudocodeTools.Proofs.Lexeme.WholeWords
/-!
# Openers and keywords

The word that a line opens a block with is a run of ASCII characters, whereas
the words of tokens go on over every letter.  The two can differ only where the
run ends before a character beyond ASCII.
-/

namespace PseudocodeTools

/-- Behind the blanks of the line, a scan takes a keyword that opens blocks. -/
def BeginsWithOpener (line : Text) : Prop :=
  exists segment, scan line.trimStart 0 = some segment ∧
    segment.kind = some .keyword ∧
    segment.text ∈ reservedLanguage blockOpeners

/-- The text begins with a character beyond ASCII that shares its first byte with
some letter, as each such letter does with itself. -/
def MeetsLetter (t : Text) : Prop :=
  exists c rest, t = c :: rest ∧ 0x80 ≤ c.toNat ∧
    exists d, isLetter d = true ∧ firstByte d = firstByte c

/-- What stands behind the leading word of a line. -/
def behindLeadingWord (line : Text) : Text :=
  line.trimStart.dropWhile isIdentifierChar

/-!
# Characters of both kinds of words
-/

section Character

variable {c : Char} {after : Text}

theorem isWordChar_of_isIdentifierChar (h : isIdentifierChar c = true) :
    isWordChar c = true := by
  simp only [isIdentifierChar, Char.isAlphanum, Bool.or_eq_true,
    beq_iff_eq] at h
  rcases h with (halpha | hdigit) | rfl
  · exact isWordChar_of_isWordStart (isWordStart_of_isAlpha halpha)
  · exact isWordChar_of_isDigit hdigit
  · rfl

/-- A word character that no identifier has is a letter beyond ASCII. -/
theorem isLetter_of_isWordChar (h : isWordChar c = true)
    (hplain : isIdentifierChar c = false) :
    0x80 ≤ c.toNat ∧ isLetter c = true := by
  simp only [isIdentifierChar, Char.isAlphanum, Bool.or_eq_false_iff] at hplain
  rcases hplain with ⟨⟨halpha, hdigit⟩, hunderscore⟩
  rw [isWordChar, isWordStart, hdigit, hunderscore, Bool.false_or,
    Bool.or_false] at h
  refine ⟨?_, h⟩
  by_contra hascii
  rw [isLetter, if_pos (Nat.lt_of_not_le hascii), halpha] at h
  cases h

/-- Behind a run of identifier characters, a word goes on or is blurred exactly
where a letter is met. -/
theorem meetsLetter_iff
    (hstop : forall c, after.head? = some c -> isIdentifierChar c = false) :
    MeetsLetter after ↔ BeginsAsWord after ∨ Blurs after := by
  constructor
  · rintro ⟨c, rest, rfl, hascii, hletters⟩
    by_cases hletter : isLetter c = true
    · refine Or.inl ⟨c, rest, rfl, isWordChar_of_isWordStart ?_⟩
      rw [isWordStart, hletter, Bool.or_true]
    · exact Or.inr ⟨c, rest, rfl, hascii, Bool.eq_false_of_not_eq_true hletter,
        hletters⟩
  · rintro (⟨c, rest, rfl, hc⟩ | ⟨c, rest, rfl, hascii, _, hletters⟩)
    · rcases isLetter_of_isWordChar hc (hstop c rfl) with ⟨hascii, hletter⟩
      exact ⟨c, rest, rfl, hascii, c, hletter, rfl⟩
    · exact ⟨c, rest, rfl, hascii, hletters⟩

end Character

/-!
# Leading words
-/

section Line

variable {line p after : Text}

theorem leadingWord_append (line : Text) :
    leadingWord line ++ behindLeadingWord line = line.trimStart :=
  List.takeWhile_append_dropWhile

theorem isIdentifierChar_of_mem_leadingWord {c : Char}
    (h : c ∈ leadingWord line) :
    isIdentifierChar c = true :=
  List.mem_takeWhile_imp h

theorem head?_behindLeadingWord (line : Text) :
    forall c, (behindLeadingWord line).head? = some c ->
      isIdentifierChar c = false :=
  fun _ hc => eq_false_of_head?_dropWhile hc

theorem isIdentifierChar_of_opener (h : p ∈ reservedLanguage blockOpeners) :
    forall c, c ∈ p -> isIdentifierChar c = true := by
  intro c hc
  have halpha := (isAlpha_of_reserved rfl h).2 c hc
  simp [isIdentifierChar, Char.isAlphanum, halpha]

theorem opensBlock_iff :
    opensBlock line = true ↔
      leadingWord line ∈ reservedLanguage blockOpeners := by
  unfold opensBlock
  rw [List.any_eq_true]
  constructor
  · rintro ⟨word, hword, hequal⟩
    exact ⟨word, hword, beq_iff_eq.mpr (beq_iff_eq.mp hequal).symm⟩
  · rintro ⟨word, hword, hequal⟩
    exact ⟨word, hword, beq_iff_eq.mpr (beq_iff_eq.mp hequal).symm⟩

theorem keyword_of_opener (h : p ∈ reservedLanguage blockOpeners) :
    p ∈ reservedLanguage keywords := by
  have hsubset : forall word, word ∈ blockOpeners -> word ∈ keywords := by
    decide
  rcases h with ⟨word, hword, hequal⟩
  exact ⟨word, hsubset word hword, hequal⟩

theorem beginsWithOpener_iff :
    BeginsWithOpener line ↔
      exists p after, p ++ after = line.trimStart ∧
        p ∈ reservedLanguage blockOpeners ∧ ¬ BeginsAsWord after ∧
        ¬ Blurs after := by
  unfold BeginsWithOpener
  generalize line.trimStart = t
  constructor
  · rintro ⟨segment, hscan, hkind, hopener⟩
    cases t with
    | nil =>
        cases hscan
    | cons c t =>
        cases hscan
        have hmunch := munches_segmentAt 0 c t
        rcases hmunch.isPrefix with ⟨after, hsplit⟩
        rw [hkind, ← hsplit] at hmunch
        exact ⟨_, after, hsplit, hopener, (munches_keyword_iff.mp hmunch).2⟩
  · rintro ⟨p, after, rfl, hopener, hstop, hclear⟩
    have hmunch := munches_keyword_iff.mpr
      ⟨keyword_of_opener hopener, hstop, hclear⟩
    cases p with
    | nil =>
        exact absurd rfl hmunch.text_ne_nil
    | cons c p =>
        have hsegment : segmentAt 0 c (p ++ after) =
            { kind := some .keyword, start := 0, text := c :: p } :=
          segmentAt_eq_of_munches hmunch
        exact ⟨_, congrArg some hsegment, rfl, hopener⟩

/-- No opener is the beginning of another one. -/
theorem opener_unique {s : Text} (hp : p ∈ reservedLanguage blockOpeners)
    (hs : p ++ s ∈ reservedLanguage blockOpeners) :
    s = [] := by
  have hfree : forall a, a ∈ blockOpeners -> forall b, b ∈ blockOpeners ->
      a.map Char.toLower <+: b.map Char.toLower -> a = b := by
    decide
  rcases hp with ⟨a, ha, hequal⟩
  rcases hs with ⟨b, hb, hequal'⟩
  have hmap := beq_iff_eq.mp hequal'
  rw [List.map_append, beq_iff_eq.mp hequal] at hmap
  have hsame := hfree a ha b hb ⟨_, hmap⟩
  rw [← hsame] at hmap
  exact List.map_eq_nil_iff.mp (List.append_right_eq_self.mp hmap)

end Line

/-- A line begins with a keyword that opens blocks exactly if it opens one and
its leading word does not stop at a letter beyond ASCII or at a symbol that
starts like one.  No line opens a block whose leading word is longer than an
opener that it begins with. -/
theorem opensBlock_by_scan (line : Text) :
    (BeginsWithOpener line ↔
      opensBlock line = true ∧ ¬ MeetsLetter (behindLeadingWord line)) ∧
    forall word c rest, word ∈ reservedLanguage blockOpeners ->
      line.trimStart = word ++ c :: rest -> isIdentifierChar c = true ->
      opensBlock line = false := by
  constructor
  · rw [beginsWithOpener_iff, opensBlock_iff,
      meetsLetter_iff (head?_behindLeadingWord line), not_or]
    constructor
    · rintro ⟨p, after, hsplit, hopener, hstop, hclear⟩
      have hhead : forall c, after.head? = some c ->
          isIdentifierChar c = false := by
        intro c hc
        rcases List.head?_eq_some_iff.mp hc with ⟨rest, hafter⟩
        by_contra hplain
        exact hstop ⟨c, rest, hafter, isWordChar_of_isIdentifierChar
          (Bool.eq_true_of_not_eq_false hplain)⟩
      rw [← leadingWord_append] at hsplit
      rcases run_append_inj (isIdentifierChar_of_opener hopener)
        (fun c => isIdentifierChar_of_mem_leadingWord) hhead
        (head?_behindLeadingWord line) hsplit with ⟨rfl, rfl⟩
      exact ⟨hopener, hstop, hclear⟩
    · rintro ⟨hopener, hstop, hclear⟩
      exact ⟨_, _, leadingWord_append line, hopener, hstop, hclear⟩
  · intro word c rest hopener hsplit hc
    have hlonger : leadingWord line =
        word ++ (c :: rest).takeWhile isIdentifierChar := by
      rw [leadingWord, hsplit]
      exact List.takeWhile_append_of_pos (isIdentifierChar_of_opener hopener)
    rw [← Bool.not_eq_true, opensBlock_iff, hlonger]
    intro hopens
    have hnil := opener_unique hopener hopens
    rw [List.takeWhile_cons_of_pos hc] at hnil
    cases hnil

/-- A variable behind blanks whose name begins with an opener. -/
theorem opensBlock_by_scan_format :
    let line : Text := "\t format = 1".toList
    (BeginsWithOpener line ↔
      opensBlock line = true ∧ ¬ MeetsLetter (behindLeadingWord line)) ∧
    "for".toList ∈ reservedLanguage blockOpeners ∧
      line.trimStart = "for".toList ++ 'm' :: "at = 1".toList ∧
      isIdentifierChar 'm' = true ∧ opensBlock line = false := by
  intro line
  rcases opensBlock_by_scan line with ⟨hscan, hlonger⟩
  have hopener : "for".toList ∈ reservedLanguage blockOpeners :=
    ⟨"FOR".toList, by decide, by decide⟩
  have hsplit : line.trimStart = "for".toList ++ 'm' :: "at = 1".toList := by
    decide
  exact ⟨hscan, hopener, hsplit, by decide,
    hlonger _ _ _ hopener hsplit (by decide)⟩

/-- An accented letter ends the leading word, but not the word that a scan
takes. -/
theorem opensBlock_of_accented_word :
    opensBlock "FORêt = 1".toList = true ∧
      ¬ BeginsWithOpener "FORêt = 1".toList := by
  constructor
  · decide
  · rintro ⟨segment, hscan, hkind, _⟩
    have hword : scan (Text.trimStart "FORêt = 1".toList) 0 =
        some { kind := some .invalid, start := 0, text := "FORêt".toList } :=
      rfl
    rw [hword, Option.some.injEq] at hscan
    rw [← hscan] at hkind
    cases hkind

end PseudocodeTools
