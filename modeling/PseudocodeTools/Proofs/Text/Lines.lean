import PseudocodeTools.Proofs.Text.Run
/-!
# Lines of a text

A text is either one line or a line, a line feed and a further text.
-/

namespace PseudocodeTools

theorem lineFeed_notMem_append {s t : Text} (hs : '\n' ∉ s)
    (ht : '\n' ∉ t) :
    '\n' ∉ s ++ t := by
  intro hmem
  rcases List.mem_append.mp hmem with hin | hin
  · exact hs hin
  · exact ht hin

theorem lines_of_notMem {line : Text} (h : '\n' ∉ line) :
    Text.lines line = [line] := by
  induction line with
  | nil =>
      rfl
  | cons c line ih =>
      have hc := List.ne_of_not_mem_cons h
      rw [Text.lines, if_neg hc.symm, ih (List.not_mem_of_not_mem_cons h)]

theorem lines_append_lineFeed {line : Text} (h : '\n' ∉ line) (t : Text) :
    Text.lines (line ++ '\n' :: t) = line :: Text.lines t := by
  induction line with
  | nil =>
      rw [List.nil_append, Text.lines, if_pos rfl]
  | cons c line ih =>
      have hc := List.ne_of_not_mem_cons h
      rw [List.cons_append, Text.lines, if_neg hc.symm,
        ih (List.not_mem_of_not_mem_cons h)]

theorem byteLength_line (line t : Text) :
    Text.byteLength (line ++ '\n' :: t) =
      line.byteLength + 1 + t.byteLength := by
  rw [Text.byteLength_append, Nat.add_assoc]
  rfl

theorem byteLength_lineFeeds (n : Nat) :
    Text.byteLength (List.replicate n '\n') = n := by
  induction n with
  | zero =>
      rfl
  | succ n ih =>
      rw [List.replicate_succ, Text.byteLength_cons, ih]
      exact Nat.add_comm 1 n

/-- Induction on the lines of a text. -/
theorem lines_induction {motive : Text -> Prop}
    (last : forall line, '\n' ∉ line -> motive line)
    (cons : forall line t, '\n' ∉ line -> motive t ->
      motive (line ++ '\n' :: t))
    (t : Text) : motive t := by
  have hcons : forall line, '\n' ∉ line -> motive (line ++ t) := by
    induction t with
    | nil =>
        intro line hline
        rw [List.append_nil]
        exact last line hline
    | cons c t ih =>
        intro line hline
        by_cases hc : c = '\n'
        · rw [hc]
          exact cons line t hline (ih [] List.not_mem_nil)
        · have happend : line ++ c :: t = (line ++ [c]) ++ t := by
            rw [List.append_assoc, List.singleton_append]
          rw [happend]
          refine ih (line ++ [c]) (lineFeed_notMem_append hline ?_)
          exact fun hmem => hc (List.mem_singleton.mp hmem).symm
  exact hcons [] List.not_mem_nil

/-- The lines of two texts with a line feed between them. -/
theorem lines_append (s t : Text) :
    Text.lines (s ++ '\n' :: t) = s.lines ++ t.lines := by
  induction s using lines_induction with
  | last line hline =>
      rw [lines_append_lineFeed hline, lines_of_notMem hline]
      rfl
  | cons line u hline ih =>
      rw [List.append_assoc, List.cons_append, lines_append_lineFeed hline, ih,
        lines_append_lineFeed hline]
      rfl

/-- The first line of a text is all of it or stands before a line feed. -/
theorem exists_of_lines_eq_cons {t line : Text} {rest : List Text}
    (h : t.lines = line :: rest) :
    (t = line ∧ rest = []) ∨
      exists u : Text, t = line ++ '\n' :: u ∧ rest = u.lines := by
  induction t using lines_induction with
  | last last hlast =>
      rw [lines_of_notMem hlast] at h
      cases h
      exact Or.inl ⟨rfl, rfl⟩
  | cons first u hfirst _ =>
      rw [lines_append_lineFeed hfirst] at h
      cases h
      exact Or.inr ⟨u, rfl, rfl⟩

/-!
# Lines by number
-/

theorem length_lines (t : Text) : t.lines.length = t.count '\n' + 1 := by
  induction t using lines_induction with
  | last line hline =>
      rw [lines_of_notMem hline, List.count_eq_zero.mpr hline]
      rfl
  | cons line u hline ih =>
      rw [lines_append_lineFeed hline, List.length_cons, ih, List.count_append,
        List.count_eq_zero.mpr hline, List.count_cons_self, Nat.zero_add]

/-- A line lies between line feeds or the ends of the text, and its number is
that of the line feeds before it. -/
def IsLine (source : Text) (number : Nat) (line : Text) : Prop :=
  exists before after : Text, before ++ (line ++ after) = source ∧
    before.count '\n' = number ∧ '\n' ∉ line ∧
    (before = [] ∨ exists u, before = u ++ ['\n']) ∧
    (after = [] ∨ exists u, after = '\n' :: u)

theorem IsLine.getElem?_lines {source line : Text} {number : Nat}
    (h : IsLine source number line) :
    source.lines[number]? = some line := by
  rcases h with ⟨before, after, rfl, rfl, hline, hbefore, hafter⟩
  have hfirst : (Text.lines (line ++ after))[0]? = some line := by
    rcases hafter with rfl | ⟨u, rfl⟩
    · rw [List.append_nil, lines_of_notMem hline]
      rfl
    · rw [lines_append_lineFeed hline]
      rfl
  rcases hbefore with rfl | ⟨u, rfl⟩
  · exact hfirst
  · have hcount : List.count '\n' (u ++ ['\n']) = u.lines.length := by
      rw [List.count_append, length_lines]
      rfl
    rw [hcount, List.append_assoc, List.singleton_append, lines_append,
      List.getElem?_append_right (Nat.le_refl _), Nat.sub_self]
    exact hfirst

theorem IsLine.unique {source line line' : Text} {number : Nat}
    (h : IsLine source number line) (h' : IsLine source number line') :
    line = line' :=
  Option.some.inj (h.getElem?_lines.symm.trans h'.getElem?_lines)

/-!
# Carriage returns
-/

theorem dropReturn_eq_or_append (line : Text) :
    line.dropReturn = line ∨ line.dropReturn ++ ['\r'] = line := by
  fun_induction Text.dropReturn line with
  | case1 =>
      exact Or.inl rfl
  | case2 =>
      exact Or.inr rfl
  | case3 c t hreturn ih =>
      rcases ih with heq | heq
      · exact Or.inl (congrArg (c :: ·) heq)
      · exact Or.inr (congrArg (c :: ·) heq)

/-- What `dropReturn` takes away. -/
theorem exists_dropReturn_append (line : Text) :
    exists ending : Text, line.dropReturn ++ ending = line ∧
      forall c, c ∈ ending -> c = '\r' := by
  rcases dropReturn_eq_or_append line with heq | heq
  · exact ⟨[], (List.append_nil _).trans heq,
      fun _ hmem => absurd hmem List.not_mem_nil⟩
  · exact ⟨['\r'], heq, fun _ => List.mem_singleton.mp⟩

theorem lineFeed_notMem_of_returns {ending : Text}
    (h : forall c, c ∈ ending -> c = '\r') :
    '\n' ∉ ending := by
  intro hmem
  exact absurd (h '\n' hmem) (by decide)

/-!
# The last line
-/

/-- What is left behind the first line begins with its line feed. -/
theorem dropWhile_lineFeed (t : Text) :
    t.dropWhile (· ≠ '\n') = [] ∨
      exists u, t.dropWhile (· ≠ '\n') = '\n' :: u := by
  cases hdrop : t.dropWhile (· ≠ '\n') with
  | nil =>
      exact Or.inl rfl
  | cons c u =>
      have hhead := congrArg List.head? hdrop
      have hc : c = '\n' :=
        not_not.mp (of_decide_eq_false (eq_false_of_head?_dropWhile hhead))
      rw [hc]
      exact Or.inr ⟨u, rfl⟩

/-- A text is its last line, or its last line stands behind a line feed. -/
theorem lastLine_eq_or_exists_append (t : Text) :
    t.lastLine = t ∨
      exists before : Text, before ++ '\n' :: t.lastLine = t := by
  unfold Text.lastLine
  have happend := @List.takeWhile_append_dropWhile _ (· ≠ '\n') t.reverse
  rcases dropWhile_lineFeed t.reverse with hdrop | ⟨before, hdrop⟩
  · rw [hdrop, List.append_nil] at happend
    rw [happend, List.reverse_reverse]
    exact Or.inl rfl
  · rw [hdrop] at happend
    have hreverse := congrArg List.reverse happend
    rw [List.reverse_append, List.reverse_cons, List.append_assoc,
      List.singleton_append, List.reverse_reverse] at hreverse
    exact Or.inr ⟨before.reverse, hreverse⟩

theorem lineFeed_notMem_takeWhile (t : Text) :
    '\n' ∉ t.takeWhile (· ≠ '\n') := by
  intro hmem
  have hne := List.all_eq_true.mp List.all_takeWhile '\n' hmem
  exact of_decide_eq_true hne rfl

theorem lineFeed_notMem_lastLine (t : Text) : '\n' ∉ t.lastLine :=
  fun hmem => lineFeed_notMem_takeWhile t.reverse (List.mem_reverse.mp hmem)

/-- What goes on a line belongs to the last line. -/
theorem lastLine_append (t : Text) {s : Text} (h : '\n' ∉ s) :
    Text.lastLine (t ++ s) = t.lastLine ++ s := by
  have htake : forall c, c ∈ s.reverse -> decide (c ≠ '\n') = true := by
    intro c hmem
    refine decide_eq_true ?_
    rintro rfl
    exact h (List.mem_reverse.mp hmem)
  unfold Text.lastLine
  rw [List.reverse_append, List.takeWhile_append_of_pos htake,
    List.reverse_append, List.reverse_reverse]

/-- The last line of a text behind a line feed is that of the text alone. -/
theorem lastLine_behind_lineFeed (s t : Text) :
    Text.lastLine (s ++ '\n' :: t) = t.lastLine := by
  have hstop : forall c, ('\n' :: s.reverse).head? = some c ->
      decide (c ≠ '\n') = false := by
    rintro c ⟨⟩
    exact decide_eq_false (not_not.mpr rfl)
  unfold Text.lastLine
  rw [List.reverse_append, List.reverse_cons, List.append_assoc,
    List.singleton_append, takeWhile_append_of_stop hstop]

theorem lastLine_append_lineFeed (t : Text) {line : Text} (h : '\n' ∉ line) :
    Text.lastLine (t ++ '\n' :: line) = line := by
  have happend := lastLine_append [] h
  rw [lastLine_behind_lineFeed]
  exact happend

theorem lastLine_lineFeeds (n : Nat) :
    Text.lastLine (List.replicate n '\n') = [] := by
  cases n with
  | zero =>
      rfl
  | succ n =>
      rw [List.replicate_succ']
      exact lastLine_append_lineFeed _ List.not_mem_nil

/-- At the start of a line, what goes on it is the last line. -/
theorem lastLine_append_of_eq_nil {before line : Text}
    (hbefore : before.lastLine = []) (h : '\n' ∉ line) :
    Text.lastLine (before ++ line) = line := by
  rw [lastLine_append before h, hbefore, List.nil_append]

theorem lastLine_suffix (t : Text) : t.lastLine <:+ t := by
  rcases lastLine_eq_or_exists_append t with hall | ⟨before, hbefore⟩
  · exact ⟨[], hall⟩
  · exact ⟨before ++ ['\n'], (List.append_assoc _ _ _).trans hbefore⟩

/-- The line in which a text is cut: its part before the cut, and what follows
up to the next line feed. -/
theorem isLine_of_cut (front rest : Text) :
    IsLine (front ++ rest) (front.count '\n')
      (front.lastLine ++ rest.takeWhile (· ≠ '\n')) := by
  have hafter := dropWhile_lineFeed rest
  have hline : '\n' ∉ front.lastLine ++ rest.takeWhile (· ≠ '\n') :=
    lineFeed_notMem_append (lineFeed_notMem_lastLine front)
      (lineFeed_notMem_takeWhile rest)
  have hsplit : front.lastLine ++ rest.takeWhile (· ≠ '\n') ++
      rest.dropWhile (· ≠ '\n') = front.lastLine ++ rest := by
    rw [List.append_assoc, List.takeWhile_append_dropWhile]
  have hlast := List.count_eq_zero.mpr (lineFeed_notMem_lastLine front)
  rcases lastLine_eq_or_exists_append front with hall | ⟨before, hbefore⟩
  · rw [hall] at hsplit hlast
    refine ⟨[], _, ?_, hlast.symm, hline, Or.inl rfl, hafter⟩
    rw [hall]
    exact hsplit
  · have hfront : before ++ ['\n'] ++ front.lastLine = front :=
      (List.append_assoc _ _ _).trans hbefore
    refine ⟨before ++ ['\n'], _, ?_, ?_, hline, Or.inr ⟨before, rfl⟩, hafter⟩
    · rw [hsplit, ← List.append_assoc, hfront]
    · have hcount := congrArg (List.count '\n') hfront
      rw [List.count_append, hlast] at hcount
      exact hcount

end PseudocodeTools
