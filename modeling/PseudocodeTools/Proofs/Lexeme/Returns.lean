import PseudocodeTools.Proofs.Lexeme.Locality
import PseudocodeTools.Proofs.Lexeme.WholeWords
import PseudocodeTools.Proofs.Text.Returns
/-!
# Tokens before a carriage return

A comment goes on up to the line feed, and so over the carriage return of a
two-character line break.  No other rule goes on over it, so with such line
breaks a text has the same tokens but for its comments.
-/

namespace PseudocodeTools

open Computability

/-!
# Comments
-/

section Comment

variable {t s after : Text}

theorem mem_tokenLanguage_of_comment (h : t ∈ commentLanguage) :
    t ∈ tokenLanguage :=
  mem_tokenLanguage_iff.mpr ⟨.comment, by decide, h⟩

/-- A text that is a comment is one segment. -/
theorem munches_comment (h : t ∈ commentLanguage) :
    Munches t (some .comment) t := by
  have hlongest : LongestIn tokenLanguage t t :=
    ⟨List.prefix_rfl, mem_tokenLanguage_of_comment h,
      fun _ hq _ => hq.length_le⟩
  have hmunch := @Munches.matched t t [] [] .comment (List.append_nil t)
    hlongest (.comment h) (.other (by decide))
  rw [List.append_nil] at hmunch
  exact hmunch

/-- A comment goes on up to a line feed or the end of the text. -/
theorem Munches.head?_of_comment
    (h : Munches (s ++ after) (some .comment) s) :
    s ∈ commentLanguage ∧ forall c, after.head? = some c -> c = '\n' := by
  rcases h.longestIn_and_hasKind (by decide) with ⟨hlongest, hkind⟩
  cases hkind with
  | comment matched =>
      refine ⟨matched, ?_⟩
      intro c hhead
      rcases List.head?_eq_some_iff.mp hhead with ⟨rest, rfl⟩
      by_contra hc
      exact hlongest.append_notMem (mem_tokenLanguage_of_comment
        (append_mem_commentLanguage matched hc))

/-- A comment is all that is left of its line. -/
theorem Munches.eq_nil_of_comment
    (h : Munches (s ++ after) (some .comment) s) (hline : '\n' ∉ after) :
    after = [] := by
  cases after with
  | nil =>
      rfl
  | cons c after =>
      rw [h.head?_of_comment.2 c rfl] at hline
      exact absurd List.mem_cons_self hline

end Comment

/-!
# Matches up to a carriage return
-/

section Return

variable {t s : Text}

/-- Of the texts that rules match, only comments end in a carriage return. -/
theorem mem_commentLanguage_of_append_return
    (h : t ++ ['\r'] ∈ tokenLanguage) :
    t ∈ commentLanguage := by
  have hword : ¬ EndsAsWord (t ++ ['\r']) := by
    intro hends
    have hreturn := isWordChar_of_endsAsWord
      (endsAsWord_of_append (List.cons_ne_nil '\r' []) hends)
    exact absurd hreturn (by decide)
  rcases mem_tokenLanguage_iff.mp h with ⟨rule, hrule, hmatch⟩
  cases rule with
  | keyword =>
      exact absurd (endsAsWord_of_lettered
        (mem_letteredLanguage_of_keyword hmatch)) hword
  | boolean =>
      exact absurd (endsAsWord_of_lettered
        (mem_letteredLanguage_of_boolean hmatch)) hword
  | number =>
      exact absurd (endsAsWord_of_number hmatch) hword
  | quoted quote =>
      have hquote := eq_quote_of_quoted hmatch
      rcases Rule.quote_of_mem_all hrule with rfl | rfl <;>
        exact absurd hquote (by decide)
  | comment =>
      rcases mem_commentLanguage_iff.mp hmatch with ⟨body, heq, hbody⟩
      rcases t with _ | ⟨c, _ | ⟨d, t⟩⟩
      · cases heq
      · cases heq
      · cases heq
        exact mem_commentLanguage_iff.mpr ⟨t, rfl,
          fun c hc => hbody c (List.mem_append_left _ hc)⟩
  | operator =>
      have hreturn := (mem_operatorLanguage_iff.mp hmatch).2 '\r'
        (List.mem_append_right t List.mem_cons_self)
      exact absurd hreturn (by decide)
  | word =>
      exact absurd (endsAsWord_of_word hmatch) hword

/-- What a rule matches stops before a carriage return at the end of the text,
unless the text is a comment. -/
theorem isPrefix_of_append_return {p : Text} (h : p <+: t ++ ['\r'])
    (hmem : p ∈ tokenLanguage) (ht : t ∉ commentLanguage) :
    p <+: t := by
  rcases List.prefix_concat_iff.mp h with rfl | hin
  · exact absurd (mem_commentLanguage_of_append_return hmem) ht
  · exact hin

theorem Munches.append_return {kind? : Option TokenKind}
    (h : Munches t kind? s) (ht : t ∉ commentLanguage) :
    Munches (t ++ ['\r']) kind? s :=
  h.append (by decide) (by decide) (by decide)
    fun _ hp hmem => isPrefix_of_append_return hp hmem ht

/-- No rule matches a carriage return. -/
theorem munches_return : Munches ['\r'] none ['\r'] := by
  refine .plain rfl ?_
  intro p hp hmem
  have hnil : [] ∉ commentLanguage := by
    intro hcomment
    rcases mem_commentLanguage_iff.mp hcomment with ⟨_, heq, _⟩
    cases heq
  have hempty : p <+: [] := isPrefix_of_append_return hp hmem hnil
  exact (unbroken_of_token hmem).1 (List.prefix_nil.mp hempty)

end Return

/-!
# Tokens of a line
-/

/-- The tokens of a text are that of its first segment, if there is one, and
those of the rest. -/
theorem tokensFrom_of_munches {start : Nat} {s after : Text}
    {kind? : Option TokenKind} (h : Munches (s ++ after) kind? s) :
    tokensFrom start (s ++ after) =
      (kind?.map fun kind => { kind := kind, start := start, text := s }).toList
        ++ tokensFrom (start + s.byteLength) after := by
  unfold tokensFrom
  rw [segmentsFrom_of_munches h]
  cases kind? <;> rfl

theorem tokensFrom_comment (start : Nat) {t : Text}
    (h : t ∈ commentLanguage) :
    tokensFrom start t = [{ kind := .comment, start := start, text := t }] := by
  have hmunch : Munches (t ++ []) (some .comment) t := by
    rw [List.append_nil]
    exact munches_comment h
  have htokens := @tokensFrom_of_munches start t [] _ hmunch
  rw [List.append_nil, tokensFrom_nil] at htokens
  exact htokens

/-- The token with the carriage return behind its line, if it is a comment. -/
def Token.withReturn (token : Token) : Token :=
  if token.kind = .comment then { token with text := token.text ++ ['\r'] }
  else token

theorem withReturn_of_ne {token : Token} (h : token.kind ≠ .comment) :
    token.withReturn = token :=
  if_neg h

theorem tokensFrom_append_return (start : Nat) {line : Text}
    (hline : '\n' ∉ line) :
    tokensFrom start (line ++ ['\r']) =
      (tokensFrom start line).map Token.withReturn := by
  have htiles := tiles_segmentsFrom start line
  generalize segmentsFrom start line = run at htiles
  induction htiles with
  | @nil start =>
      have hreturn := @tokensFrom_of_munches start ['\r'] [] none munches_return
      rw [List.nil_append, tokensFrom_nil]
      exact hreturn.trans (tokensFrom_nil _)
  | @cons start kind? s after run munches tiles ih =>
      have hafter : '\n' ∉ after :=
        fun hmem => hline (List.mem_append_right s hmem)
      -- A comment is the last segment of its line.  Before any other segment
      -- the rest of the line decides.
      by_cases hcomment : s ++ after ∈ commentLanguage
      · have hlonger : s ++ after ++ ['\r'] ∈ commentLanguage :=
          append_mem_commentLanguage hcomment (by decide)
        rw [tokensFrom_comment start hcomment,
          tokensFrom_comment start hlonger]
        rfl
      · have hmunch := munches.append_return hcomment
        rw [List.append_assoc] at hmunch ⊢
        rw [tokensFrom_of_munches hmunch, tokensFrom_of_munches munches,
          ih hafter, List.map_append, ← Option.toList_map, Option.map_map]
        cases kind? with
        | none =>
            rfl
        | some kind =>
            have hkind : kind ≠ .comment := by
              rintro rfl
              rw [munches.eq_nil_of_comment hafter, List.append_nil] at hcomment
              exact hcomment munches.head?_of_comment.1
            have hsame := @withReturn_of_ne ⟨kind, start, s⟩ hkind
            rw [Option.map_some, Option.map_some, Function.comp_apply, hsame]

/-!
# Tokens of a document
-/

namespace Token

/-- The token in the copy with two-character line breaks.  A comment that does
not end the text ends before a line feed, and takes in the carriage return. -/
def withReturns (source : Text) (token : Token) : Token where
  kind := token.kind
  start := source.offsetWithReturns token.start
  text :=
    if token.kind = .comment ∧ token.stop < source.byteLength then
      token.text ++ ['\r']
    else token.text

theorem stop_lt_iff {front rest : Text} {token : Token}
    (h : token.start = front.byteLength) :
    token.stop < Text.byteLength (front ++ (token.text ++ rest)) ↔
      rest ≠ [] := by
  rw [stop, h, Text.byteLength_append, Text.byteLength_append,
    ← Nat.add_assoc]
  constructor
  · rintro hlt rfl
    exact Nat.lt_irrefl _ hlt
  · intro hne
    exact Nat.lt_add_of_pos_right (byteLength_pos hne)

theorem withReturns_append {front rest : Text} {token : Token}
    (h : token.start = front.byteLength) :
    token.withReturns (front ++ (token.text ++ rest)) =
      { kind := token.kind
        start := front.withReturns.byteLength
        text :=
          if token.kind = .comment ∧ rest ≠ [] then token.text ++ ['\r']
          else token.text } := by
  simp only [withReturns, stop_lt_iff h, h, offsetWithReturns_append]

/-- On the first line every offset stays as it is, and a comment goes on up to
the end of the line. -/
theorem withReturns_of_mem_line {line : Text} (hline : '\n' ∉ line)
    {token : Token} (hmem : token ∈ tokens line) :
    token.withReturns line = token ∧
      forall t : Text,
        token.withReturns (line ++ '\n' :: t) = token.withReturn := by
  rcases exists_munches_of_mem_tokensFrom hmem with
    ⟨front, after, rfl, hstart, hmunch⟩
  rw [Nat.zero_add] at hstart
  have hfront : front.withReturns = front :=
    Text.withReturns_of_notMem fun hin => hline (List.mem_append_left _ hin)
  have hafter : token.kind = .comment -> after = [] := by
    intro hkind
    rw [hkind] at hmunch
    exact hmunch.eq_nil_of_comment fun hin =>
      hline (List.mem_append_right _ (List.mem_append_right _ hin))
  constructor
  · have hlast : ¬ (token.kind = .comment ∧ after ≠ []) :=
      fun hcomment => hcomment.2 (hafter hcomment.1)
    rw [withReturns_append hstart, if_neg hlast, hfront, ← hstart]
  · intro t
    have hsplit : front ++ (token.text ++ after) ++ '\n' :: t =
        front ++ (token.text ++ (after ++ '\n' :: t)) := by
      simp only [List.append_assoc]
    have hbreak : after ++ '\n' :: t ≠ [] :=
      List.append_ne_nil_of_right_ne_nil after (List.cons_ne_nil _ t)
    rw [hsplit, withReturns_append hstart, hfront, ← hstart]
    by_cases hkind : token.kind = .comment
    · rw [if_pos ⟨hkind, hbreak⟩, withReturn, if_pos hkind]
    · rw [if_neg fun hcomment => hkind hcomment.1, withReturn_of_ne hkind]

/-- Behind the first line, the tokens of the copy stand two bytes of line break
later. -/
theorem withReturns_shift {line t : Text} (hline : '\n' ∉ line)
    {token : Token} (hmem : token ∈ tokens t) :
    (token.shift (line.byteLength + 1)).withReturns (line ++ '\n' :: t) =
      (token.withReturns t).shift
        (Text.byteLength (line ++ ['\r']) + 1) := by
  rcases exists_split_of_mem_tokens hmem with ⟨front, after, rfl, hstart, _⟩
  have hstart' : (token.shift (line.byteLength + 1)).start =
      Text.byteLength (line ++ '\n' :: front) := by
    rw [byteLength_line, ← hstart]
    exact Nat.add_comm _ _
  have hsplit : line ++ '\n' :: (front ++ (token.text ++ after)) =
      (line ++ '\n' :: front) ++ (token.text ++ after) :=
    (List.append_assoc line ('\n' :: front) _).symm
  have hlength : Text.byteLength (Text.withReturns (line ++ '\n' :: front)) =
      front.withReturns.byteLength +
        (Text.byteLength (line ++ ['\r']) + 1) := by
    rw [Text.withReturns_line hline, byteLength_line, Nat.add_comm]
  have hmoved := @withReturns_append (line ++ '\n' :: front) after _ hstart'
  rw [hlength] at hmoved
  rw [hsplit, withReturns_append hstart]
  exact hmoved

end Token

theorem tokens_withReturns (source : Text) :
    tokens source.withReturns =
      (tokens source).map (Token.withReturns source) := by
  induction source using lines_induction with
  | last line hline =>
      rw [Text.withReturns_of_notMem hline]
      refine (List.map_id _).symm.trans (List.map_congr_left ?_)
      intro token hmem
      exact (Token.withReturns_of_mem_line hline hmem).1.symm
  | cons line t hline ih =>
      have hfirst : (tokens line).map Token.withReturn =
          (tokens line).map (Token.withReturns (line ++ '\n' :: t)) :=
        List.map_congr_left fun token hmem =>
          ((Token.withReturns_of_mem_line hline hmem).2 t).symm
      have hrest : ((tokens t).map (Token.withReturns t)).map
            (Token.shift (Text.byteLength (line ++ ['\r']) + 1)) =
          ((tokens t).map (Token.shift (line.byteLength + 1))).map
            (Token.withReturns (line ++ '\n' :: t)) := by
        rw [List.map_map, List.map_map]
        exact List.map_congr_left fun token hmem =>
          (Token.withReturns_shift hline hmem).symm
      unfold tokens at *
      rw [Text.withReturns_line hline, tokensFrom_append_lineFeed,
        tokensFrom_append_lineFeed, tokensFrom_append_return 0 hline, hfirst,
        tokensFrom_add, tokensFrom_add, ih, hrest, List.map_append]

end PseudocodeTools
