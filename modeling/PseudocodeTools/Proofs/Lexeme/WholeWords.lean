import PseudocodeTools.Proofs.Lexeme.Tokens
/-!
# Whole words

What a rule matches up to a word character, some rule matches over a further
word character as well.  So a longest match never ends between two word
characters; only the digits behind a point, which a number takes without a rule,
may end there.
-/

namespace PseudocodeTools

open Computability

def BeginsAsWord (t : Text) : Prop :=
  exists c rest, t = c :: rest ∧ isWordChar c = true

def EndsAsWord (t : Text) : Prop :=
  exists front c, t = front ++ [c] ∧ isWordChar c = true

section Ends

variable {s t : Text}

theorem EndsAsWord.behind (h : EndsAsWord t) (s : Text) :
    EndsAsWord (s ++ t) := by
  rcases h with ⟨front, c, rfl, hc⟩
  exact ⟨s ++ front, c, (List.append_assoc _ _ _).symm, hc⟩

theorem EndsAsWord.ne_nil (h : EndsAsWord t) : t ≠ [] := by
  rcases h with ⟨front, c, rfl, _⟩
  exact List.append_ne_nil_of_right_ne_nil front (List.cons_ne_nil c [])

theorem endsAsWord_of_append (ht : t ≠ []) (h : EndsAsWord (s ++ t)) :
    EndsAsWord t := by
  rcases h with ⟨front, c, heq, hc⟩
  rcases List.eq_nil_or_concat t with hnil | ⟨before, d, rfl⟩
  · exact absurd hnil ht
  · rw [List.concat_eq_append, ← List.append_assoc] at heq
    rcases List.append_inj' heq rfl with ⟨_, hlast⟩
    rw [List.concat_eq_append, hlast]
    exact ⟨before, c, rfl, hc⟩

theorem endsAsWord_of_forall (hne : t ≠ [])
    (hall : forall c, c ∈ t -> isWordChar c = true) :
    EndsAsWord t :=
  ⟨t.dropLast, t.getLast hne, (List.dropLast_append_getLast hne).symm,
    hall _ (List.getLast_mem hne)⟩

theorem isWordChar_of_endsAsWord {c : Char} (h : EndsAsWord [c]) :
    isWordChar c = true := by
  rcases h with ⟨front, d, heq, hd⟩
  rw [← List.nil_append [c]] at heq
  rw [List.singleton_inj.mp (List.append_inj' heq rfl).2]
  exact hd

theorem isWordChar_of_isDigit {c : Char} (h : c.isDigit = true) :
    isWordChar c = true := by
  rw [isWordChar, h, Bool.or_true]

theorem isWordChar_of_isWordStart {c : Char} (h : isWordStart c = true) :
    isWordChar c = true := by
  rw [isWordChar, h, Bool.true_or]

theorem endsAsWord_of_digits (h : t ∈ digit * digit∗) : EndsAsWord t := by
  rcases mem_digits_iff.mp h with ⟨hne, hall⟩
  exact endsAsWord_of_forall hne fun c hc => isWordChar_of_isDigit (hall c hc)

theorem forall_isWordChar_of_lettered (h : t ∈ letteredLanguage) :
    forall c, c ∈ t -> isWordChar c = true := by
  rcases mem_letteredLanguage_iff.mp h with ⟨c, rest, rfl, hc, hrest⟩
  intro d hd
  rcases List.mem_cons.mp hd with rfl | hd
  · exact isWordChar_of_isWordStart hc
  · exact hrest d hd

theorem beginsAsWord_of_lettered (h : t ∈ letteredLanguage) (after : Text) :
    BeginsAsWord (t ++ after) := by
  rcases mem_letteredLanguage_iff.mp h with ⟨c, rest, rfl, hc, _⟩
  exact ⟨c, rest ++ after, rfl, isWordChar_of_isWordStart hc⟩

theorem endsAsWord_of_lettered (h : t ∈ letteredLanguage) : EndsAsWord t :=
  endsAsWord_of_forall (unbroken_of_lettered h).1
    (forall_isWordChar_of_lettered h)

theorem endsAsWord_of_number (h : t ∈ numberLanguage) : EndsAsWord t := by
  rcases mem_numberLanguage_iff.mp h with hdigits | ⟨digits, rfl, hdigits⟩
  · exact endsAsWord_of_digits hdigits
  · exact (endsAsWord_of_digits hdigits).behind ['-']

theorem endsAsWord_of_word (h : t ∈ wordLanguage) : EndsAsWord t := by
  rcases mem_wordLanguage_iff.mp h with
    ⟨digits, w, hw, ⟨rfl, _⟩ | ⟨rfl, _⟩⟩
  · exact (endsAsWord_of_lettered hw).behind digits
  · exact (endsAsWord_of_lettered hw).behind ('-' :: digits)

end Ends

/-!
# Matches that go on
-/

section Match

variable {p : Text} {c d : Char}

theorem singleton_mem_letteredLanguage (hd : isWordStart d = true) :
    [d] ∈ letteredLanguage :=
  mem_letteredLanguage_iff.mpr ⟨d, [], rfl, hd, List.forall_mem_nil _⟩

theorem append_mem_letteredLanguage (h : p ∈ letteredLanguage)
    (hd : isWordChar d = true) :
    p ++ [d] ∈ letteredLanguage := by
  rcases mem_letteredLanguage_iff.mp h with ⟨c, t, rfl, hc, ht⟩
  exact mem_letteredLanguage_iff.mpr ⟨c, t ++ [d], rfl, hc,
    List.forall_mem_append.mpr ⟨ht, List.forall_mem_singleton.mpr hd⟩⟩

theorem append_mem_wordLanguage (h : p ∈ wordLanguage)
    (hd : isWordChar d = true) :
    p ++ [d] ∈ wordLanguage := by
  rcases mem_wordLanguage_iff.mp h with
    ⟨run, t, ht, ⟨rfl, hrun⟩ | ⟨rfl, hrun⟩⟩
  · exact mem_wordLanguage_iff.mpr ⟨run, t ++ [d],
      append_mem_letteredLanguage ht hd,
      Or.inl ⟨List.append_assoc _ _ _, hrun⟩⟩
  · refine mem_wordLanguage_iff.mpr ⟨run, t ++ [d],
      append_mem_letteredLanguage ht hd, Or.inr ⟨?_, hrun⟩⟩
    rw [List.cons_append, List.append_assoc]

theorem append_mem_digits (h : p ∈ digit * digit∗) (hd : d.isDigit = true) :
    p ++ [d] ∈ digit * digit∗ := by
  rcases mem_digits_iff.mp h with ⟨_, hall⟩
  exact mem_digits_iff.mpr ⟨List.concat_ne_nil d p,
    List.forall_mem_append.mpr ⟨hall, List.forall_mem_singleton.mpr hd⟩⟩

theorem append_mem_numberLanguage (h : p ∈ numberLanguage)
    (hd : d.isDigit = true) :
    p ++ [d] ∈ numberLanguage := by
  rcases mem_numberLanguage_iff.mp h with hdigits | ⟨run, rfl, hdigits⟩
  · exact mem_numberLanguage_iff.mpr (Or.inl (append_mem_digits hdigits hd))
  · exact mem_numberLanguage_iff.mpr
      (Or.inr ⟨run ++ [d], rfl, append_mem_digits hdigits hd⟩)

/-- The start of a word makes a word of the number before it. -/
theorem append_mem_wordLanguage_of_number (h : p ∈ numberLanguage)
    (hd : isWordStart d = true) :
    p ++ [d] ∈ wordLanguage := by
  have hstart := singleton_mem_letteredLanguage hd
  rcases mem_numberLanguage_iff.mp h with hdigits | ⟨run, rfl, hdigits⟩
  · rcases mem_digits_iff.mp hdigits with ⟨_, hall⟩
    exact mem_wordLanguage_iff.mpr ⟨p, [d], hstart,
      Or.inl ⟨rfl, mem_star_oneOf_iff.mpr hall⟩⟩
  · exact mem_wordLanguage_iff.mpr ⟨run, [d], hstart, Or.inr ⟨rfl, hdigits⟩⟩

theorem append_mem_commentLanguage (h : p ∈ commentLanguage)
    (hd : d ≠ '\n') :
    p ++ [d] ∈ commentLanguage := by
  rcases mem_commentLanguage_iff.mp h with ⟨body, rfl, hbody⟩
  exact mem_commentLanguage_iff.mpr ⟨body ++ [d], rfl,
    List.forall_mem_append.mpr ⟨hbody, List.forall_mem_singleton.mpr hd⟩⟩

theorem eq_quote_of_quoted {quote : Char}
    (h : p ++ [c] ∈ quotedLanguage quote) :
    c = quote := by
  have hquoted : quotedLanguage quote =
      character quote * (quotedItem quote)∗ * character quote :=
    (mul_assoc _ _ _).symm
  rw [hquoted] at h
  rcases (Language.mem_mul).mp h with ⟨front, _, _, ⟨_, rfl, rfl⟩, heq⟩
  exact (List.singleton_inj.mp (List.append_inj' heq rfl).2).symm

/-- What a rule matches up to a word character, some rule matches over the next
word character too. -/
theorem append_mem_tokenLanguage (h : p ∈ tokenLanguage) (hp : EndsAsWord p)
    (hd : isWordChar d = true) :
    p ++ [d] ∈ tokenLanguage := by
  rcases mem_tokenLanguage_iff.mp h with ⟨rule, hrule, hmem⟩
  have hword : p ∈ wordLanguage -> p ++ [d] ∈ tokenLanguage := fun hword =>
    mem_tokenLanguage_iff.mpr
      ⟨.word, by decide, append_mem_wordLanguage hword hd⟩
  rcases hp with ⟨front, c, rfl, hc⟩
  cases rule with
  | keyword =>
      exact hword (mem_wordLanguage_of_lettered
        (mem_letteredLanguage_of_keyword hmem))
  | boolean =>
      exact hword (mem_wordLanguage_of_lettered
        (mem_letteredLanguage_of_boolean hmem))
  | number =>
      rcases Bool.or_eq_true_iff.mp hd with hstart | hdigit
      · exact mem_tokenLanguage_iff.mpr ⟨.word, by decide,
          append_mem_wordLanguage_of_number hmem hstart⟩
      · exact mem_tokenLanguage_iff.mpr
          ⟨.number, by decide, append_mem_numberLanguage hmem hdigit⟩
  | quoted quote =>
      rw [eq_quote_of_quoted hmem] at hc
      rcases Rule.quote_of_mem_all hrule with rfl | rfl <;>
        exact absurd hc (by decide)
  | comment =>
      refine mem_tokenLanguage_iff.mpr
        ⟨.comment, by decide, append_mem_commentLanguage hmem ?_⟩
      rintro rfl
      exact absurd hd (by decide)
  | operator =>
      have hsymbol := (mem_operatorLanguage_iff.mp hmem).2 c (by simp)
      rw [isWordChar, not_isWordStart_of_isOperatorChar hsymbol,
        not_isDigit_of_isOperatorChar hsymbol] at hc
      cases hc
  | word =>
      exact hword hmem

end Match

/-!
# Segments before a word character
-/

section Segment

variable {s p after : Text}

theorem LongestIn.append_notMem {L : Language Char} {d : Char} {rest : Text}
    (h : LongestIn L (p ++ d :: rest) p) :
    p ++ [d] ∉ L := by
  intro hmem
  have hprefix : p ++ [d] <+: p ++ d :: rest :=
    (List.prefix_append_right_inj p).mpr ⟨rest, rfl⟩
  have hle := h.longest _ hprefix hmem
  rw [List.length_append] at hle
  exact Nat.not_succ_le_self _ hle

theorem LongestIn.not_beginsAsWord
    (h : LongestIn tokenLanguage (p ++ after) p) (hp : EndsAsWord p) :
    ¬ BeginsAsWord after := by
  rintro ⟨d, rest, rfl, hd⟩
  exact h.append_notMem (append_mem_tokenLanguage h.mem hp hd)

theorem singleton_mem_tokenLanguage {c : Char} (h : isWordChar c = true) :
    [c] ∈ tokenLanguage := by
  rcases Bool.or_eq_true_iff.mp h with hstart | hdigit
  · exact mem_tokenLanguage_iff.mpr ⟨.word, by decide,
      mem_wordLanguage_of_lettered (singleton_mem_letteredLanguage hstart)⟩
  · refine mem_tokenLanguage_iff.mpr
      ⟨.number, by decide, mem_numberLanguage_iff.mpr (Or.inl ?_)⟩
    exact mem_digits_iff.mpr
      ⟨List.cons_ne_nil c [], List.forall_mem_singleton.mpr hdigit⟩

theorem Munches.notMem_tokenLanguage {t : Text} (h : Munches t none s) :
    s ∉ tokenLanguage := by
  cases h with
  | plain split unmatched =>
      rw [← split] at unmatched
      exact unmatched _ ⟨_, rfl⟩

/-- A token is a longest match, or a number with a fraction. -/
theorem Munches.longestIn_or_fraction {t : Text} {kind : TokenKind}
    (h : Munches t (some kind) s) :
    LongestIn tokenLanguage t s ∨ kind = .number ∧ '.' ∈ s := by
  cases h with
  | @matched p tail behind kind split longest hasKind goesOn =>
      cases goesOn with
      | fraction matched stop =>
          exact Or.inr ⟨rfl, by simp⟩
      | integer stop =>
          rw [List.append_nil]
          exact Or.inl longest
      | other hkind =>
          rw [List.append_nil]
          exact Or.inl longest

/-- Where a segment ends between two word characters, it is a number with a
fraction. -/
theorem Munches.fraction_of_wordChars {kind? : Option TokenKind}
    (h : Munches (s ++ after) kind? s) (hs : EndsAsWord s)
    (hafter : BeginsAsWord after) :
    kind? = some .number ∧ '.' ∈ s := by
  cases kind? with
  | none =>
      rcases h.exists_eq_singleton with ⟨c, rfl⟩
      exact absurd (singleton_mem_tokenLanguage (isWordChar_of_endsAsWord hs))
        h.notMem_tokenLanguage
  | some kind =>
      rcases h.longestIn_or_fraction with hlongest | ⟨rfl, hpoint⟩
      · exact absurd hafter (hlongest.not_beginsAsWord hs)
      · exact ⟨rfl, hpoint⟩

theorem Munches.longestIn_and_hasKind {kind : TokenKind}
    (h : Munches (s ++ after) (some kind) s) (hkind : kind ≠ .number) :
    LongestIn tokenLanguage (s ++ after) s ∧ HasKind s after kind := by
  generalize ht : s ++ after = t at h
  cases h with
  | @matched p tail behind kind split longest hasKind goesOn =>
      cases goesOn with
      | fraction | integer =>
          exact absurd rfl hkind
      | other _ =>
          rw [List.append_nil] at ht ⊢
          rw [List.nil_append] at split hasKind
          rw [List.append_cancel_left (ht.trans split.symm)]
          exact ⟨longest, hasKind⟩

theorem Munches.lettered_of_reserved {kind : TokenKind}
    (h : Munches (s ++ after) (some kind) s)
    (hkind : kind = .keyword ∨ kind = .boolean) :
    s ∈ letteredLanguage := by
  rcases hkind with rfl | rfl
  · rcases h.longestIn_and_hasKind (by decide) with ⟨_, hasKind⟩
    cases hasKind with
    | keyword matched _ =>
        exact mem_letteredLanguage_of_keyword matched
  · rcases h.longestIn_and_hasKind (by decide) with ⟨_, hasKind⟩
    cases hasKind with
    | boolean matched _ =>
        exact mem_letteredLanguage_of_boolean matched

theorem Munches.endsAsWord_of_number {t : Text}
    (h : Munches t (some .number) s) :
    EndsAsWord s := by
  cases h with
  | @matched p tail behind kind split longest hasKind goesOn =>
      cases hasKind with
      | number matched =>
          cases goesOn with
          | fraction digits stop =>
              rw [List.append_cons]
              exact (endsAsWord_of_digits digits).behind _
          | integer stop =>
              rw [List.append_nil]
              exact endsAsWord_of_number matched
          | other hkind =>
              exact absurd rfl hkind

/-- A match that begins with the start of a word is a word. -/
theorem lettered_of_isWordStart {c : Char} {t : Text}
    (h : c :: t ∈ tokenLanguage) (hc : isWordStart c = true) :
    c :: t ∈ letteredLanguage := by
  have hdigit : ¬ c.isDigit = true := by
    intro hdigit
    rw [not_isWordStart_of_isDigit hdigit] at hc
    cases hc
  rcases mem_tokenLanguage_iff.mp h with ⟨rule, hrule, hmem⟩
  cases rule with
  | keyword =>
      exact mem_letteredLanguage_of_keyword hmem
  | boolean =>
      exact mem_letteredLanguage_of_boolean hmem
  | number =>
      rcases mem_numberLanguage_iff.mp hmem with hdigits | ⟨run, heq, _⟩
      · exact absurd ((mem_digits_iff.mp hdigits).2 c List.mem_cons_self)
          hdigit
      · cases heq
        exact absurd hc (by decide)
  | quoted quote =>
      rcases mem_oneOf_mul_iff.mp hmem with ⟨_, _, heq, rfl, _⟩
      cases heq
      rcases Rule.quote_of_mem_all hrule with rfl | rfl <;>
        exact absurd hc (by decide)
  | comment =>
      rcases mem_commentLanguage_iff.mp hmem with ⟨body, heq, _⟩
      cases heq
      exact absurd hc (by decide)
  | operator =>
      have hsymbol := (mem_operatorLanguage_iff.mp hmem).2 c List.mem_cons_self
      rw [not_isWordStart_of_isOperatorChar hsymbol] at hc
      cases hc
  | word =>
      rcases mem_wordLanguage_iff.mp hmem with
        ⟨run, word, hword, ⟨heq, hrun⟩ | ⟨heq, _⟩⟩
      · cases run with
        | nil =>
            rw [heq]
            exact hword
        | cons d run =>
            cases heq
            exact absurd (mem_star_oneOf_iff.mp hrun c List.mem_cons_self)
              hdigit
      · cases heq
        exact absurd hc (by decide)

/-- A word that no word character follows is matched as a whole. -/
theorem longestIn_of_lettered (hp : p ∈ letteredLanguage)
    (hafter : ¬ BeginsAsWord after) :
    LongestIn tokenLanguage (p ++ after) p where
  isPrefix := List.prefix_append p after
  mem := mem_tokenLanguage_iff.mpr
    ⟨.word, by decide, mem_wordLanguage_of_lettered hp⟩
  longest := by
    intro q hq hmem
    rcases List.prefix_or_prefix_of_prefix hq (List.prefix_append p after) with
      hin | ⟨gap, rfl⟩
    · exact hin.length_le
    · rcases mem_letteredLanguage_iff.mp hp with ⟨c, t, rfl, hc, _⟩
      have hlettered : c :: (t ++ gap) ∈ letteredLanguage :=
        lettered_of_isWordStart hmem hc
      cases gap with
      | nil =>
          rw [List.append_nil]
      | cons d gap =>
          rcases (List.prefix_append_right_inj (c :: t)).mp hq with
            ⟨rest, hrest⟩
          have hd : isWordChar d = true :=
            forall_isWordChar_of_lettered hlettered d (by simp)
          exact absurd ⟨d, gap ++ rest, hrest.symm, hd⟩ hafter

/-- A keyword is found where neither a word character nor a symbol that blurs it
follows. -/
theorem munches_keyword_iff :
    Munches (p ++ after) (some .keyword) p ↔
      p ∈ reservedLanguage keywords ∧ ¬ BeginsAsWord after ∧
        ¬ Blurs after := by
  constructor
  · intro h
    rcases h.longestIn_and_hasKind (by decide) with ⟨hlongest, hasKind⟩
    cases hasKind with
    | keyword matched clear =>
        have hends :=
          endsAsWord_of_lettered (mem_letteredLanguage_of_keyword matched)
        exact ⟨matched, hlongest.not_beginsAsWord hends, clear⟩
  · rintro ⟨hmem, hstop, hclear⟩
    have hlongest :=
      longestIn_of_lettered (mem_letteredLanguage_of_keyword hmem) hstop
    have hsplit : p ++ ([] ++ after) = p ++ after := rfl
    have hmunch := Munches.matched hsplit hlongest (.keyword hmem hclear)
      (.other (by decide))
    rw [List.append_nil] at hmunch
    exact hmunch

end Segment

/-!
# Adjacent segments
-/

/-- Directly before the byte offset stands a word character. -/
def WordBefore (source : Text) (cursor : Nat) : Prop :=
  exists front rest : Text, front ++ rest = source ∧
    front.byteLength = cursor ∧ EndsAsWord front

/-- Directly behind the byte offset stands a word character. -/
def WordBehind (source : Text) (cursor : Nat) : Prop :=
  exists front rest : Text, front ++ rest = source ∧
    front.byteLength = cursor ∧ BeginsAsWord rest

/-- A segment of a tiling is the first one or stands directly behind another
one. -/
theorem Tiles.first_or_follows {start : Nat} {t : Text} {run : List Segment}
    (h : Tiles start t run) {segment : Segment} (hmem : segment ∈ run) :
    (segment.start = start ∧ exists after, segment.text ++ after = t) ∨
      exists previous, previous ∈ run ∧
        exists front after,
          front ++ (previous.text ++ (segment.text ++ after)) = t ∧
          previous.start = start + front.byteLength ∧
          previous.stop = segment.start ∧
          Munches (previous.text ++ (segment.text ++ after)) previous.kind
            previous.text := by
  induction h with
  | nil =>
      cases hmem
  | @cons start kind? s behind run munches tiles ih =>
      rcases List.mem_cons.mp hmem with rfl | hrest
      · exact Or.inl ⟨rfl, behind, rfl⟩
      · refine Or.inr ?_
        rcases ih hrest with ⟨hstart, after, rfl⟩ |
          ⟨previous, hprevious, front, after, rfl, hstart, hstop, hmunch⟩
        · exact ⟨{ kind := kind?, start := start, text := s },
            List.mem_cons_self, [], after, rfl, rfl, hstart.symm, munches⟩
        · refine ⟨previous, List.mem_cons_of_mem _ hprevious, s ++ front,
            after, List.append_assoc _ _ _, ?_, hstop, hmunch⟩
          rw [hstart, Text.byteLength_append, Nat.add_assoc]

section Adjacent

variable {source : Text} {token : Token}

/-- Behind a word character, a token that begins as a word stands directly behind
a number with a fraction. -/
theorem exists_fraction_before (h : token ∈ tokens source)
    (hbegins : forall after, BeginsAsWord (token.text ++ after))
    (hbefore : WordBefore source token.start) :
    exists number, number ∈ tokens source ∧ number.kind = .number ∧
      '.' ∈ number.text ∧ number.stop = token.start := by
  rcases hbefore with ⟨front, rest, hsource, hlen, hends⟩
  rcases List.mem_filterMap.mp h with ⟨segment, hsegment, htoken⟩
  rcases token?_eq_some_iff.mp htoken with ⟨_, hstart, htext⟩
  rcases (tiles_segmentsFrom 0 source).first_or_follows hsegment with
    ⟨hfirst, _⟩ | ⟨previous, hprevious, before, after, hsplit, hoffset, hstop,
      hmunch⟩
  · rw [hstart, ← hlen] at hfirst
    exact absurd hfirst (byteLength_pos hends.ne_nil).ne'
  · -- The word character before the token is the last one of that segment.
    have hgap : front.byteLength =
        Text.byteLength (before ++ previous.text) := by
      rw [Segment.stop, hoffset, Nat.zero_add, hstart] at hstop
      rw [Text.byteLength_append, hstop, hlen]
    have hcut : front ++ rest =
        (before ++ previous.text) ++ (segment.text ++ after) := by
      rw [hsource, ← hsplit, List.append_assoc]
    rw [(append_inj_of_byteLength hcut hgap).1] at hends
    have hlast := endsAsWord_of_append hmunch.text_ne_nil hends
    rw [htext] at hmunch
    rcases hmunch.fraction_of_wordChars hlast (hbegins after) with
      ⟨hkind, hpoint⟩
    have hnumber : previous.token? =
        some { kind := .number, start := previous.start,
               text := previous.text } :=
      token?_eq_some_iff.mpr ⟨hkind, rfl, rfl⟩
    exact ⟨_, List.mem_filterMap.mpr ⟨previous, hprevious, hnumber⟩, rfl,
      hpoint, hstop.trans hstart⟩

theorem wordBefore_stop_of_number (h : token ∈ tokens source)
    (hkind : token.kind = .number) :
    WordBefore source token.stop := by
  rcases exists_munches_of_mem_tokensFrom h with
    ⟨front, after, hsplit, hstart, hmunch⟩
  rw [hkind] at hmunch
  refine ⟨front ++ token.text, after, ?_, ?_, ?_⟩
  · rw [List.append_assoc, hsplit]
  · rw [Text.byteLength_append, Token.stop, hstart, Nat.zero_add]
  · exact hmunch.endsAsWord_of_number.behind front

/-- In front of a word character, a token that ends as a word is a number with a
fraction. -/
theorem fraction_of_wordBehind (h : token ∈ tokens source)
    (hends : EndsAsWord token.text)
    (hbehind : WordBehind source token.stop) :
    token.kind = .number ∧ '.' ∈ token.text := by
  rcases exists_munches_of_mem_tokensFrom h with
    ⟨before, after, hsplit, hstart, hmunch⟩
  rcases hbehind with ⟨front, rest, hsource, hlen, hbegins⟩
  have hgap : front.byteLength = Text.byteLength (before ++ token.text) := by
    rw [Text.byteLength_append, hlen, Token.stop, hstart, Nat.zero_add]
  have hcut : front ++ rest = (before ++ token.text) ++ after := by
    rw [hsource, ← hsplit, List.append_assoc]
  rw [(append_inj_of_byteLength hcut hgap).2] at hbegins
  rcases hmunch.fraction_of_wordChars hends hbegins with ⟨hkind, hpoint⟩
  exact ⟨Option.some.inj hkind, hpoint⟩

theorem lettered_of_reserved (h : token ∈ tokens source)
    (hkind : token.kind = .keyword ∨ token.kind = .boolean) :
    token.text ∈ letteredLanguage := by
  rcases exists_munches_of_mem_tokensFrom h with ⟨_, _, _, _, hmunch⟩
  exact hmunch.lettered_of_reserved hkind

end Adjacent

/-- Reserved words and numbers are whole words, but for the fraction of a number:
no word character stands directly behind a reserved word, or directly before it
unless that is the last digit of a fraction; and none stands directly behind a
number that has no fraction. -/
theorem tokens_whole_words (source : Text) (token : Token)
    (h : token ∈ tokens source) :
    (token.kind = .keyword ∨ token.kind = .boolean ->
      ¬ WordBehind source token.stop ∧
        (WordBefore source token.start ↔
          exists number, number ∈ tokens source ∧ number.kind = .number ∧
            '.' ∈ number.text ∧ number.stop = token.start)) ∧
      (token.kind = .number -> WordBehind source token.stop ->
        '.' ∈ token.text) := by
  constructor
  · intro hreserved
    have hlettered := lettered_of_reserved h hreserved
    constructor
    · intro hbehind
      rcases fraction_of_wordBehind h (endsAsWord_of_lettered hlettered)
        hbehind with ⟨hkind, _⟩
      rw [hkind] at hreserved
      rcases hreserved with heq | heq <;> cases heq
    · constructor
      · exact exists_fraction_before h (beginsAsWord_of_lettered hlettered)
      · rintro ⟨number, hnumber, hkind, _, hstop⟩
        rw [← hstop]
        exact wordBefore_stop_of_number hnumber hkind
  · intro hkind hbehind
    rcases exists_munches_of_mem_tokensFrom h with ⟨_, _, _, _, hmunch⟩
    rw [hkind] at hmunch
    exact (fraction_of_wordBehind h hmunch.endsAsWord_of_number hbehind).2

/-- A reserved word behind a fraction, and a number in front of it. -/
theorem tokens_whole_words_behind_fraction :
    let source : Text := "2.5to -7".toList
    let word : Token := { kind := .keyword, start := 3, text := "to".toList }
    let number : Token :=
      { kind := .number, start := 0, text := "2.5".toList }
    (word ∈ tokens source ∧ ¬ WordBehind source word.stop ∧
        (WordBefore source word.start ↔
          exists number, number ∈ tokens source ∧ number.kind = .number ∧
            '.' ∈ number.text ∧ number.stop = word.start)) ∧
      number ∈ tokens source ∧ WordBehind source number.stop ∧
        '.' ∈ number.text := by
  intro source word number
  have hword : word ∈ tokens source := by
    decide +kernel
  have hnumber : number ∈ tokens source := by
    decide +kernel
  have hbehind : WordBehind source number.stop :=
    ⟨"2.5".toList, "to -7".toList, rfl, rfl, 't', _, rfl, rfl⟩
  exact ⟨⟨hword, (tokens_whole_words source word hword).1 (Or.inl rfl)⟩,
    hnumber, hbehind,
    (tokens_whole_words source number hnumber).2 rfl hbehind⟩

/-- A number goes on over its fraction whatever stands behind it, so it may end
inside what would be a longer word. -/
theorem fraction_joins_keyword :
    let source : Text := "1.5IF".toList
    exists number word, number ∈ tokens source ∧ word ∈ tokens source ∧
      number.kind = .number ∧ WordBehind source number.stop ∧
      word.kind = .keyword ∧ WordBefore source word.start := by
  intro source
  refine ⟨{ kind := .number, start := 0, text := "1.5".toList },
    { kind := .keyword, start := 3, text := "IF".toList },
    by decide +kernel, by decide +kernel, rfl, ?_, rfl, ?_⟩
  · exact ⟨"1.5".toList, "IF".toList, rfl, rfl, 'I', _, rfl, rfl⟩
  · exact ⟨"1.5".toList, "IF".toList, rfl, rfl, "1.".toList, '5', rfl, rfl⟩

end PseudocodeTools
