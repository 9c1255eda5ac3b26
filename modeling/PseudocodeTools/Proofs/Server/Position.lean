import Mathlib.Data.List.Induction
import PseudocodeTools.Proofs.Text.Cut
import PseudocodeTools.Proofs.Text.Lines
import PseudocodeTools.Server.Position
/-!
# Positions and prefixes

A position stands for a prefix of the document.  The walk over the prefix ends
there, as far as 32 bits suffice to count the lines of the prefix and the
characters of its last line.  The way back from a position stops before a counter
starts again from zero, so it always finds the prefix that the position tells.
-/

namespace PseudocodeTools

/-- The lines of a document and the characters of each line can be counted in 32
bits. -/
structure Text.Countable (source : Text) : Prop where
  lines : source.count '\n' < UInt32.size
  characters : forall line, line ∈ source.lines -> line.length < UInt32.size

namespace Position

/-!
# Walks
-/

theorem behind_append (p : Position) (s t : Text) :
    p.behind (s ++ t) = (p.behind s).behind t :=
  List.foldl_append

/-- The position behind a text, by what is counted in it. -/
theorem behind_origin (t : Text) :
    origin.behind t =
      { line := .ofNat (t.count '\n')
        character := .ofNat t.lastLine.length } := by
  induction t using List.reverseRecOn with
  | nil =>
      rfl
  | append_singleton t c ih =>
      rw [behind_append, ih]
      by_cases hc : c = '\n'
      · rw [hc, lastLine_append_lineFeed t List.not_mem_nil, List.count_append,
          UInt32.ofNat_add]
        rfl
      · have hline : '\n' ∉ [c] :=
          fun hmem => hc (List.mem_singleton.mp hmem).symm
        rw [lastLine_append t hline, List.count_append,
          List.count_eq_zero.mpr hline, Nat.add_zero, List.length_append,
          UInt32.ofNat_add]
        exact if_neg hc

theorem ofOffsetFrom_append (p : Position) (front rest : Text) :
    ofOffsetFrom p (front ++ rest) front.byteLength = p.behind front := by
  induction front generalizing p with
  | nil =>
      cases rest <;> rfl
  | cons c front ih =>
      have hne : ¬ Text.byteLength (c :: front) = 0 :=
        Nat.ne_of_gt (byteLength_pos (List.cons_ne_nil c front))
      have hback : Text.byteLength (c :: front) - c.utf8Size =
          Text.byteLength front := Nat.add_sub_cancel_left _ _
      rw [List.cons_append, ofOffsetFrom, if_neg hne, hback, ih]
      rfl

theorem ofOffset_append (front rest : Text) :
    ofOffset (front ++ rest) front.byteLength = origin.behind front :=
  ofOffsetFrom_append origin front rest

/-- Behind 2 ^ 32 line feeds the count of lines is zero again. -/
theorem ofOffset_lineFeeds (n : Nat) (rest : Text) :
    ofOffset (List.replicate n '\n' ++ rest) n =
      { line := .ofNat n, character := 0 } := by
  have hposition := ofOffset_append (List.replicate n '\n') rest
  rw [byteLength_lineFeeds, behind_origin, List.count_replicate_self,
    lastLine_lineFeeds] at hposition
  exact hposition

/-!
# Prefixes that can be counted
-/

/-- The position tells the line and the character at the end of a text. -/
def MarksEnd (p : Position) (front : Text) : Prop :=
  p.line.toNat = front.count '\n' ∧ p.character.toNat = front.lastLine.length

variable {p q : Position} {front rest : Text}

theorem MarksEnd.behind_eq (h : p.MarksEnd front) : origin.behind front = p := by
  rw [behind_origin, ← h.1, ← h.2, UInt32.ofNat_toNat, UInt32.ofNat_toNat]

theorem MarksEnd.ofOffset_eq (h : p.MarksEnd front) (rest : Text) :
    ofOffset (front ++ rest) front.byteLength = p := by
  rw [ofOffset_append, h.behind_eq]

theorem marksEnd_behind (hlines : front.count '\n' < UInt32.size)
    (hcharacters : front.lastLine.length < UInt32.size) :
    (origin.behind front).MarksEnd front := by
  rw [behind_origin]
  exact ⟨UInt32.toNat_ofNat_of_lt' hlines,
    UInt32.toNat_ofNat_of_lt' hcharacters⟩

/-- Before a position, every prefix that ends on its line has a position on that
line. -/
theorem MarksEnd.on_line {gap : Text} (h : p.MarksEnd (front ++ gap))
    (hgap : '\n' ∉ gap) :
    (origin.behind front).MarksEnd front ∧
      (origin.behind front).line = p.line := by
  rcases h with ⟨hline, hcharacter⟩
  rw [List.count_append, List.count_eq_zero.mpr hgap, Nat.add_zero] at hline
  rw [lastLine_append front hgap, List.length_append] at hcharacter
  have hlines := p.line.toNat_lt
  have hcharacters := p.character.toNat_lt
  have hends := marksEnd_behind (hline ▸ hlines)
    (Nat.lt_of_le_of_lt (Nat.le_add_right _ _) (hcharacter ▸ hcharacters))
  exact ⟨hends, UInt32.toNat_inj.mp (hends.1.trans hline.symm)⟩

/-- In a document that can be counted, every walk tells where it ends. -/
theorem marksEnd_of_countable (h : Text.Countable (front ++ rest)) :
    (origin.behind front).MarksEnd front := by
  apply marksEnd_behind
  · have hlines := h.lines
    rw [List.count_append] at hlines
    exact Nat.lt_of_le_of_lt (Nat.le_add_right _ _) hlines
  · have hline := (isLine_of_cut front rest).getElem?_lines
    have hlength := h.characters _ (List.mem_of_getElem? hline)
    rw [List.length_append] at hlength
    exact Nat.lt_of_le_of_lt (Nat.le_add_right _ _) hlength

/-- The second position stands on a later line, or on the same line and not
before the first. -/
def Precedes (p q : Position) : Prop :=
  p.line < q.line ∨ p.line = q.line ∧ p.character ≤ q.character

theorem MarksEnd.precedes (hp : p.MarksEnd front) {gap : Text}
    (hq : q.MarksEnd (front ++ gap)) :
    p.Precedes q := by
  rcases hp with ⟨hline, hcharacter⟩
  rcases hq with ⟨hline', hcharacter'⟩
  rw [List.count_append, ← hline] at hline'
  unfold Precedes
  rw [UInt32.lt_iff_toNat_lt, UInt32.le_iff_toNat_le, ← UInt32.toNat_inj]
  by_cases hgap : '\n' ∈ gap
  · have hpos := List.count_pos_iff.mpr hgap
    omega
  · rw [List.count_eq_zero.mpr hgap] at hline'
    rw [lastLine_append front hgap, List.length_append, ← hcharacter]
      at hcharacter'
    omega

/-!
# From positions to offsets
-/

/-- The prefix ends at the character of the line, or before it at the end of the
line. -/
def StandsAt (line character : Nat) (front rest : Text) : Prop :=
  front.count '\n' = line ∧
    (front.lastLine.length = character ∨
      (rest = [] ∨ rest.head? = some '\n') ∧
        front.lastLine.length < character)

/-- The prefix ends at the position, or at the end of its line if the position
lies beyond it. -/
def StandsFor (p : Position) (front rest : Text) : Prop :=
  StandsAt p.line.toNat p.character.toNat front rest

theorem MarksEnd.standsFor (h : p.MarksEnd front) (rest : Text) :
    p.StandsFor front rest :=
  ⟨h.1.symm, Or.inl h.2.symm⟩

/-- A walk that has not gone further down than the position is on its line
exactly if it tells so. -/
theorem line_behind_eq_iff (h : front.count '\n' ≤ p.line.toNat) :
    (origin.behind front).line = p.line ↔
      front.count '\n' = p.line.toNat := by
  have hlt := Nat.lt_of_le_of_lt h p.line.toNat_lt
  rw [behind_origin, ← UInt32.toNat_inj, UInt32.toNat_ofNat_of_lt' hlt]

/-- The way back stops at a prefix that the position stands for. -/
theorem toOffsetFrom?_of_standsFor (h : p.StandsFor front rest) :
    toOffsetFrom? p (origin.behind front) front.byteLength rest =
      some front.byteLength := by
  have hline := (line_behind_eq_iff (Nat.le_of_eq h.1)).mpr h.1
  cases rest with
  | nil =>
      exact if_pos hline
  | cons c rest =>
      unfold toOffsetFrom?
      by_cases hhere : origin.behind front = p
      · rw [if_pos hhere]
      · rw [if_neg hhere]
        rcases h.2 with hcharacter | ⟨hnil | hhead, _⟩
        · exact absurd (MarksEnd.behind_eq ⟨h.1.symm, hcharacter.symm⟩) hhere
        · cases hnil
        · cases hhead
          rw [if_pos ⟨rfl, hline⟩]

/-- Before such a prefix the way back does not stop: it is on an earlier line, or
on the same line at an earlier character. -/
theorem StandsFor.goesOn {c : Char} {middle : Text}
    (h : p.StandsFor (front ++ c :: middle) rest) :
    origin.behind front ≠ p ∧
      ¬ (c = '\n' ∧ (origin.behind front).line = p.line) := by
  rcases h with ⟨hcount, hcharacter⟩
  rw [List.count_append] at hcount
  have hle : front.count '\n' ≤ p.line.toNat :=
    Nat.le_of_add_right_le (Nat.le_of_eq hcount)
  have hfeed : (origin.behind front).line = p.line ->
      '\n' ∉ c :: middle := by
    intro hline
    rw [line_behind_eq_iff hle] at hline
    rw [hline, Nat.add_eq_left] at hcount
    exact List.count_eq_zero.mp hcount
  constructor
  · intro hhere
    have hnone := hfeed (congrArg line hhere)
    rw [lastLine_append front hnone, List.length_append, List.length_cons]
      at hcharacter
    -- No counter has started again, since the position lies further right.
    have hlater : front.lastLine.length < p.character.toNat := by
      rcases hcharacter with hend | ⟨_, hlt⟩ <;> omega
    have hlast := congrArg (fun q => q.character.toNat) hhere
    simp only [behind_origin] at hlast
    rw [UInt32.toNat_ofNat_of_lt' (hlater.trans p.character.toNat_lt)] at hlast
    exact Nat.ne_of_lt hlater hlast
  · exact fun hstop => hfeed hstop.2 (hstop.1 ▸ List.mem_cons_self)

theorem toOffsetFrom?_append (middle : Text)
    (h : p.StandsFor (front ++ middle) rest) :
    toOffsetFrom? p (origin.behind front) front.byteLength (middle ++ rest) =
      some (Text.byteLength (front ++ middle)) := by
  induction middle generalizing front with
  | nil =>
      rw [List.append_nil] at h ⊢
      exact toOffsetFrom?_of_standsFor h
  | cons c middle ih =>
      rcases h.goesOn with ⟨hhere, hstop⟩
      have hwalk : (origin.behind front).advance c =
          origin.behind (front ++ [c]) := (behind_append origin front [c]).symm
      have hlength : front.byteLength + c.utf8Size =
          Text.byteLength (front ++ [c]) :=
        (Text.byteLength_append front [c]).symm
      rw [List.append_cons] at h ⊢
      rw [List.cons_append, toOffsetFrom?, if_neg hhere, if_neg hstop, hwalk,
        hlength]
      exact ih h

theorem toOffset?_of_standsFor (h : p.StandsFor front rest) :
    p.toOffset? (front ++ rest) = some front.byteLength :=
  @toOffsetFrom?_append p [] rest front h

/-- The end of a prefix is taken back to the length of the prefix. -/
theorem MarksEnd.toOffset?_eq (h : p.MarksEnd front) (rest : Text) :
    p.toOffset? (front ++ rest) = some front.byteLength :=
  toOffset?_of_standsFor (h.standsFor rest)

theorem standsAt_take {line t : Text} (hline : '\n' ∉ line)
    (ht : t = [] ∨ t.head? = some '\n') (character : Nat) :
    StandsAt 0 character (line.take character) (line.drop character ++ t) := by
  have hfeed : '\n' ∉ line.take character :=
    fun hmem => hline (List.mem_of_mem_take hmem)
  have hlast := lastLine_append [] hfeed
  rw [List.nil_append] at hlast
  refine ⟨List.count_eq_zero.mpr hfeed, ?_⟩
  rw [hlast]
  by_cases hle : character ≤ line.length
  · exact Or.inl (List.length_take_of_le hle)
  · have hlt := Nat.lt_of_not_le hle
    refine Or.inr ⟨?_, Nat.lt_of_le_of_lt (List.length_take_le' _ _) hlt⟩
    rw [List.drop_of_length_le (Nat.le_of_lt hlt)]
    exact ht

/-- A stretch without a line feed lies on the line of the position at which it
begins. -/
theorem MarksEnd.exists_line (h : p.MarksEnd front) {middle : Text}
    (hmiddle : '\n' ∉ middle) (rest : Text) :
    exists line : Text,
      (Text.lines (front ++ (middle ++ rest)))[p.line.toNat]? = some line ∧
        p.character.toNat + middle.length ≤ line.length := by
  have hline := (isLine_of_cut front (middle ++ rest)).getElem?_lines
  have hstop : forall c, c ∈ middle -> decide (c ≠ '\n') = true := by
    intro c hc
    refine decide_eq_true ?_
    rintro rfl
    exact hmiddle hc
  rw [List.takeWhile_append_of_pos hstop, ← h.1] at hline
  refine ⟨_, hline, ?_⟩
  rw [List.length_append, List.length_append, h.2]
  omega

end Position
end PseudocodeTools
