import PseudocodeTools.Proofs.Lexeme.Longest
import PseudocodeTools.Token
/-!
# Maximal munch

A scan takes the longest prefix that any rule matches, with the kind of the
strongest rule that matches it, and a single character where no rule matches.
-/

namespace PseudocodeTools

open Computability

/-!
# Segments that rules call for
-/

/-- The kind of a matched text `p` that stands before `after`. -/
inductive HasKind (p after : Text) : TokenKind -> Prop where
  | keyword (matched : p ∈ reservedLanguage keywords)
      (clear : ¬ Blurs after) : HasKind p after .keyword
  | boolean (matched : p ∈ reservedLanguage booleanWords)
      (clear : ¬ Blurs after) : HasKind p after .boolean
  | number (matched : p ∈ numberLanguage) : HasKind p after .number
  | doubleQuoted (matched : p ∈ quotedLanguage '"') : HasKind p after .string
  | singleQuoted (matched : p ∈ quotedLanguage '\'') : HasKind p after .string
  | comment (matched : p ∈ commentLanguage) : HasKind p after .comment
  | operator (matched : p ∈ operatorLanguage)
      (uncommented : p ∉ commentLanguage) : HasKind p after .operator
  | identifier (matched : p ∈ wordLanguage)
      (unreserved : p ∈ reservedLanguage keywords ∨
        p ∈ reservedLanguage booleanWords -> Blurs after)
      (wellFormed : p ∈ identifierLanguage) : HasKind p after .identifier
  | invalid (matched : p ∈ wordLanguage)
      (unreserved : p ∈ reservedLanguage keywords ∨
        p ∈ reservedLanguage booleanWords -> Blurs after)
      (malformed : p ∉ identifierLanguage) : HasKind p after .invalid

/-- How a matched text of some kind goes on: a number over a point and all
digits behind it, if there are any. -/
inductive GoesOn : TokenKind -> (tail after : Text) -> Prop where
  | fraction {digits after : Text} (matched : digits ∈ digit * digit∗)
      (stop : forall c rest, after = c :: rest -> c.isDigit = false) :
      GoesOn .number ('.' :: digits) after
  | integer {after : Text}
      (stop : forall c rest, after = '.' :: c :: rest -> c.isDigit = false) :
      GoesOn .number [] after
  | other {kind : TokenKind} {after : Text} (hkind : kind ≠ .number) :
      GoesOn kind [] after

/-- The kind and the text of the segment that a text begins with. -/
inductive Munches (t : Text) : Option TokenKind -> Text -> Prop where
  | matched {p tail after : Text} {kind : TokenKind}
      (split : p ++ (tail ++ after) = t) (longest : LongestIn tokenLanguage t p)
      (hasKind : HasKind p (tail ++ after) kind)
      (goesOn : GoesOn kind tail after) :
      Munches t (some kind) (p ++ tail)
  | plain {c : Char} {rest : Text} (split : c :: rest = t)
      (unmatched : forall p, p <+: t -> p ∉ tokenLanguage) :
      Munches t none [c]

/-!
# Segments that are taken
-/

section Chosen

variable {t : Text} {rule : Rule} {n : Nat}

theorem longestIn_of_longest
    (h : Rule.longest t Rule.all = some (rule, n)) :
    LongestIn tokenLanguage t (t.take n) := by
  have hleads := Rule.leads_of_longest h
  rcases Rule.take_mem_of_extent hleads.mem hleads.extent_eq with ⟨hle, hmem⟩
  refine ⟨List.take_prefix n t, ?_, ?_⟩
  · exact mem_tokenLanguage_iff.mpr ⟨rule, hleads.mem, hmem⟩
  · intro q hq hq'
    rcases exists_extent_of_mem hq hq' with ⟨other, hother, m, hm, hlen⟩
    rw [List.length_take_of_le hle]
    exact Nat.le_trans hlen (hleads.le other hother m hm)

/-- No rule that is stronger than the chosen one matches as much. -/
theorem not_extent_of_stronger
    (h : Rule.longest t Rule.all = some (rule, n)) (other : Rule)
    (hother : other ∈ Rule.all)
    (hstronger : Rule.all.idxOf other < Rule.all.idxOf rule) {m : Nat}
    (hm : other.extent t = some m) :
    m < n := by
  have hleads := Rule.leads_of_longest h
  have hle := hleads.le other hother m hm
  have hne : m ≠ n := by
    intro heq
    rw [heq] at hm
    exact absurd (hleads.first other hother hm) (Nat.not_le.mpr hstronger)
  omega

theorem blurs_of_longest_word
    (h : Rule.longest t Rule.all = some (.word, n))
    (hreserved : t.take n ∈ reservedLanguage keywords ∨
      t.take n ∈ reservedLanguage booleanWords) :
    Blurs (t.drop n) := by
  have hleads := Rule.leads_of_longest h
  have hlen : (t.take n).length = n := List.length_take_of_le
    (Rule.take_mem_of_extent hleads.mem hleads.extent_eq).1
  by_contra hclear
  rcases hreserved with hmem | hmem
  · rcases le_reservedExtent hmem hclear with ⟨m, hm, hle⟩
    rw [List.take_append_drop] at hm
    have hlt := not_extent_of_stronger h .keyword (by decide) (by decide) hm
    omega
  · rcases le_reservedExtent hmem hclear with ⟨m, hm, hle⟩
    rw [List.take_append_drop] at hm
    have hlt := not_extent_of_stronger h .boolean (by decide) (by decide) hm
    omega

theorem hasKind_of_longest
    (h : Rule.longest t Rule.all = some (rule, n)) :
    HasKind (t.take n) (t.drop n) (rule.kind (t.take n)) := by
  have hleads := Rule.leads_of_longest h
  have hextent := hleads.extent_eq
  have hrule := hleads.mem
  rcases Rule.take_mem_of_extent hrule hextent with ⟨hle, hmem⟩
  cases rule with
  | keyword =>
      exact .keyword hmem (reservedExtent_eq_some hextent).2.2
  | boolean =>
      exact .boolean hmem (reservedExtent_eq_some hextent).2.2
  | number =>
      exact .number hmem
  | quoted quote =>
      rcases Rule.quote_of_mem_all hrule with rfl | rfl
      · exact .doubleQuoted hmem
      · exact .singleQuoted hmem
  | comment =>
      exact .comment hmem
  | operator =>
      refine .operator hmem ?_
      intro hcomment
      rcases (measures_commentExtent t).le_extent (List.take_prefix n t)
        hcomment with ⟨m, hm, hlen⟩
      have hlt := not_extent_of_stronger h .comment (by decide) (by decide) hm
      rw [List.length_take_of_le hle] at hlen
      omega
  | word =>
      have hblurs := blurs_of_longest_word h
      simp only [Rule.kind]
      by_cases hidentifier : isIdentifier (t.take n) = true
      · rw [if_pos hidentifier]
        exact .identifier hmem hblurs
          (mem_identifierLanguage_iff.mpr hidentifier)
      · rw [if_neg hidentifier]
        refine .invalid hmem hblurs ?_
        rw [mem_identifierLanguage_iff]
        exact hidentifier

theorem kind_ne_number (hrule : rule ≠ .number) (p : Text) :
    rule.kind p ≠ .number := by
  cases rule with
  | number =>
      exact absurd rfl hrule
  | word =>
      simp only [Rule.kind]
      split <;> simp
  | keyword | boolean | quoted _ | comment | operator =>
      simp [Rule.kind]

theorem lexeme_of_longest (h : Rule.longest t Rule.all = some (rule, n))
    (hrule : rule ≠ .number) :
    lexeme t = some (rule.kind (t.take n), n) := by
  unfold lexeme
  rw [h]
  cases rule with
  | number =>
      exact absurd rfl hrule
  | keyword | boolean | quoted _ | comment | operator | word =>
      rfl

end Chosen

theorem isDigit_of_drop_digitCount {t rest : Text} {c : Char}
    (h : t.drop (Rule.digitCount t) = c :: rest) :
    c.isDigit = false := by
  have happend : t.takeWhile Char.isDigit ++ t.drop (Rule.digitCount t) =
      t.takeWhile Char.isDigit ++ t.dropWhile Char.isDigit := by
    rw [takeWhile_append_drop_digitCount, List.takeWhile_append_dropWhile]
  have hdrop := List.append_cancel_left happend
  have hhead : (t.dropWhile Char.isDigit).head? = some c := by
    rw [← hdrop, h]
    rfl
  exact eq_false_of_head?_dropWhile hhead

theorem goesOn_fraction (after : Text) :
    GoesOn .number (after.take (fractionExtent after))
      (after.drop (fractionExtent after)) := by
  unfold fractionExtent
  split
  · rename_i t
    have htake : t.take (Rule.digitCount t) = t.takeWhile Char.isDigit :=
      (List.prefix_iff_eq_take.mp (List.takeWhile_prefix Char.isDigit)).symm
    by_cases hzero : Rule.digitCount t = 0
    · rw [if_pos hzero]
      refine .integer ?_
      intro c rest heq
      cases heq
      exact isDigit_of_drop_digitCount (by rw [hzero, List.drop_zero])
    · rw [if_neg hzero, List.take_succ_cons, List.drop_succ_cons, htake]
      refine .fraction (mem_digits_iff.mpr ⟨?_, ?_⟩) ?_
      · intro hnil
        exact hzero (congrArg List.length hnil)
      · exact fun c => List.mem_takeWhile_imp
      · exact fun c rest heq => isDigit_of_drop_digitCount heq
  · rename_i hother
    refine .integer ?_
    intro c rest heq
    exact absurd heq (hother (c :: rest))

/-- The segment at the head of a text is the one that the rules call for. -/
theorem munches_segmentAt (start : Nat) (c : Char) (rest : Text) :
    Munches (c :: rest) (segmentAt start c rest).kind
      (segmentAt start c rest).text := by
  unfold segmentAt
  generalize ht : c :: rest = t
  cases h : Rule.longest t Rule.all with
  | none =>
      have hlexeme : lexeme t = none := by
        unfold lexeme
        rw [h]
      rw [hlexeme]
      refine .plain ht ?_
      intro p hp hmem
      rcases exists_extent_of_mem hp hmem with ⟨rule, hrule, n, hn, _⟩
      rw [Rule.extent_eq_none_of_longest h rule hrule] at hn
      cases hn
  | some chosen =>
      rcases chosen with ⟨rule, n⟩
      have hlongest := longestIn_of_longest h
      have hkind := hasKind_of_longest h
      by_cases hrule : rule = .number
      · have hlexeme : lexeme t =
            some (.number, n + fractionExtent (t.drop n)) := by
          unfold lexeme
          rw [h, hrule]
        rw [hlexeme]
        dsimp only
        rw [List.take_add]
        have hsplit : t.take n ++
            ((t.drop n).take (fractionExtent (t.drop n)) ++
              (t.drop n).drop (fractionExtent (t.drop n))) = t := by
          rw [List.take_append_drop, List.take_append_drop]
        refine .matched hsplit hlongest ?_ (goesOn_fraction _)
        rw [List.take_append_drop]
        rw [hrule] at hkind
        exact hkind
      · rw [lexeme_of_longest h hrule]
        dsimp only
        have hsplit : t.take n ++ ([] ++ t.drop n) = t :=
          List.take_append_drop n t
        have hmunch := Munches.matched hsplit hlongest hkind
          (.other (kind_ne_number hrule _))
        rw [List.append_nil] at hmunch
        exact hmunch

end PseudocodeTools
