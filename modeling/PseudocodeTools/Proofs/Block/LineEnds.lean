import PseudocodeTools.Proofs.Block.Closer
/-!
# Ends of lines

The lines of a text end one behind the other, each at a boundary of the text.
Where a line ends depends on the lines before it only.
-/

namespace PseudocodeTools

section Ends

variable {lines : List Text} {m n : Nat}

theorem byteLength_dropReturn_le (line : Text) :
    line.dropReturn.byteLength ≤ line.byteLength := by
  rcases exists_dropReturn_append line with ⟨ending, happend, _⟩
  have hlength := congrArg Text.byteLength happend
  rw [Text.byteLength_append] at hlength
  rw [← hlength]
  exact Nat.le_add_right _ _

theorem endOfLine_lt (hlt : m < n) (hn : n < lines.length) :
    endOfLine lines m < endOfLine lines n := by
  induction lines generalizing m n with
  | nil =>
      cases hn
  | cons line rest ih =>
      cases n with
      | zero =>
          cases hlt
      | succ n =>
          cases m with
          | zero =>
              have hle := byteLength_dropReturn_le line
              show line.dropReturn.byteLength <
                line.byteLength + 1 + endOfLine rest n
              omega
          | succ m =>
              have hrest := ih (Nat.lt_of_succ_lt_succ hlt)
                (Nat.lt_of_succ_lt_succ hn)
              exact Nat.add_lt_add_left hrest _

/-- No two lines end at the same offset. -/
theorem endOfLine_lt_iff (hm : m < lines.length) (hn : n < lines.length) :
    endOfLine lines m < endOfLine lines n ↔ m < n := by
  constructor
  · intro hlt
    apply Nat.lt_of_not_le
    intro hle
    rcases Nat.lt_or_eq_of_le hle with hback | rfl
    · exact Nat.lt_asymm hlt (endOfLine_lt hback hm)
    · exact Nat.lt_irrefl _ hlt
  · exact fun hlt => endOfLine_lt hlt hn

theorem endOfLine_le_iff (hm : m < lines.length) (hn : n < lines.length) :
    endOfLine lines m ≤ endOfLine lines n ↔ m ≤ n := by
  rw [← Nat.not_lt, ← Nat.not_lt, endOfLine_lt_iff hn hm]

theorem endOfLine_eq_iff (hm : m < lines.length) (hn : n < lines.length) :
    endOfLine lines m = endOfLine lines n ↔ m = n := by
  rw [Nat.eq_iff_le_and_ge, endOfLine_le_iff hm hn, endOfLine_le_iff hn hm,
    ← Nat.eq_iff_le_and_ge]

theorem endOfLine_append_left (more : List Text) (hn : n < lines.length) :
    endOfLine (lines ++ more) n = endOfLine lines n := by
  induction lines generalizing n with
  | nil =>
      cases hn
  | cons line rest ih =>
      cases n with
      | zero =>
          rfl
      | succ n =>
          exact congrArg (line.byteLength + 1 + ·)
            (ih (Nat.lt_of_succ_lt_succ hn))

end Ends

/-- The lines behind a text end later by all of that text and a line feed. -/
theorem endOfLine_append_right (s : Text) (more : List Text) (n : Nat) :
    endOfLine (s.lines ++ more) (n + s.lines.length) =
      endOfLine more n + (s.byteLength + 1) := by
  induction s using lines_induction with
  | last line hline =>
      rw [lines_of_notMem hline]
      exact Nat.add_comm _ _
  | cons line u hline ih =>
      rw [lines_append_lineFeed hline, byteLength_line]
      show line.byteLength + 1 + endOfLine (u.lines ++ more)
        (n + u.lines.length) = _
      rw [ih]
      omega

/-- The text up to the end of a line has as many line feeds as the number of the
line. -/
theorem exists_cut_endOfLine {source : Text} {n : Nat}
    (hn : n < source.lines.length) :
    exists front rest : Text, front ++ rest = source ∧
      front.byteLength = endOfLine source.lines n ∧ front.count '\n' = n := by
  have hfirst : forall {line : Text}, '\n' ∉ line -> forall t : Text,
      exists front rest : Text, front ++ rest = line ++ t ∧
        front.byteLength = line.dropReturn.byteLength ∧
        front.count '\n' = 0 := by
    intro line hline t
    rcases exists_dropReturn_append line with ⟨ending, happend, _⟩
    refine ⟨line.dropReturn, ending ++ t, ?_, rfl, ?_⟩
    · rw [← List.append_assoc, happend]
    · rw [← happend] at hline
      exact List.count_eq_zero.mpr
        fun hmem => hline (List.mem_append_left ending hmem)
  induction source using lines_induction generalizing n with
  | last line hline =>
      rw [lines_of_notMem hline] at hn ⊢
      have hwhole := hfirst hline []
      rw [List.append_nil] at hwhole
      rw [Nat.lt_one_iff.mp hn]
      exact hwhole
  | cons line u hline ih =>
      rw [lines_append_lineFeed hline] at hn ⊢
      cases n with
      | zero =>
          exact hfirst hline _
      | succ n =>
          rcases ih (Nat.lt_of_succ_lt_succ hn) with
            ⟨front, rest, rfl, hlength, hcount⟩
          refine ⟨line ++ '\n' :: front, rest, List.append_assoc _ _ _, ?_, ?_⟩
          · rw [byteLength_line, hlength]
            rfl
          · rw [List.count_append, List.count_eq_zero.mpr hline,
              List.count_cons_self, hcount, Nat.zero_add]

theorem isBoundary_endOfLine {source : Text} {n : Nat}
    (hn : n < source.lines.length) :
    IsBoundary source (endOfLine source.lines n) := by
  rcases exists_cut_endOfLine hn with ⟨front, rest, hsplit, hlength, _⟩
  exact ⟨front, rest, hsplit, hlength⟩

end PseudocodeTools
