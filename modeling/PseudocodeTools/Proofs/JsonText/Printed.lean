import PseudocodeTools.JsonText.Printer
import PseudocodeTools.JsonText.Value
import PseudocodeTools.Proofs.Json.Members
import PseudocodeTools.Proofs.JsonText.Scalar
/-!
# Printed values

A value without floating-point numbers is read back from its compact text if it
is not nested deeper than the reader goes.  A value that is nested deeper is not
read at all, wherever in it the depth is passed.
-/

namespace PseudocodeTools

/-!
# Depth and numbers
-/

namespace Json

mutual
/-- The greatest number of lists and objects that are open at a time. -/
def depth : Json -> Nat
  | array items => depthItems items + 1
  | object members => depthMembers members + 1
  | _ => 0
termination_by structural value => value

/-- The depth of the deepest item. -/
def depthItems : List Json -> Nat
  | [] => 0
  | item :: rest => max (depth item) (depthItems rest)
termination_by structural items => items

/-- The depth of the deepest value of a member. -/
def depthMembers : List (String × Json) -> Nat
  | [] => 0
  | (_, value) :: rest => max (depth value) (depthMembers rest)
termination_by structural members => members
end

theorem depthItems_le_iff {items : List Json} {n : Nat} :
    depthItems items ≤ n ↔ forall item, item ∈ items -> item.depth ≤ n := by
  induction items with
  | nil =>
      simp [depthItems]
  | cons item rest ih =>
      rw [depthItems, Nat.max_le, ih, List.forall_mem_cons]

theorem depthMembers_le_iff {members : Members} {n : Nat} :
    depthMembers members ≤ n ↔
      forall member, member ∈ members -> member.2.depth ≤ n := by
  induction members with
  | nil =>
      simp [depthMembers]
  | cons member rest ih =>
      rw [depthMembers, Nat.max_le, ih, List.forall_mem_cons]

/-- Every number in the value is an integer. -/
inductive Integral : Json -> Prop where
  | null : Integral null
  | boolean (b : Bool) : Integral (boolean b)
  | integer (n : Int)
      (hn : -0x8000000000000000 ≤ n ∧ n < 0x10000000000000000) :
      Integral (number (.integer n hn))
  | string (s : String) : Integral (string s)
  | array {items : List Json}
      (hitems : forall item, item ∈ items -> Integral item) :
      Integral (array items)
  | object {members : Members}
      (hmembers : forall member, member ∈ members -> Integral member.2) :
      Integral (object members)

end Json

namespace Reader

variable {α β : Type}

/-!
# Outcomes of reading
-/

section Bind

variable {ε : Type} {read : Reader ε α} {next : α -> Reader ε β} {t t' : Text}

theorem bind_of_ok {x : α} (h : read t = .ok (x, t')) :
    (read >>= next) t = next x t' := by
  change (read t >>= fun result => next result.1 result.2) = _
  rw [h]
  rfl

theorem bind_of_error {fault : Located ε} (h : read t = .error fault) :
    (read >>= next) t = .error fault := by
  change (read t >>= fun result => next result.1 result.2) = _
  rw [h]
  rfl

end Bind

/-- What was read is taken if it fits, and its depth is the fault if not. -/
structure Outcome (result : Except (Located SyntaxFault) (α × Text)) (x : α)
    (rest : Text) (fits : Prop) : Prop where
  taken : fits -> result = .ok (x, rest)
  tooDeep : ¬fits ->
    exists left, result = .error { cause := .tooDeep, left := left }

namespace Outcome

variable {read : Reader SyntaxFault α} {next : α -> Reader SyntaxFault β}
  {t t' rest : Text} {x : α} {y : β} {fits fits' : Prop}

theorem of_taken {result : Except (Located SyntaxFault) (α × Text)}
    (hfits : fits) (h : result = .ok (x, rest)) :
    Outcome result x rest fits :=
  { taken := fun _ => h
    tooDeep := fun hnot => absurd hfits hnot }

theorem bind (h : Outcome (read t) x t' fits)
    (hnext : Outcome (next x t') y rest fits') :
    Outcome ((read >>= next) t) y rest (fits ∧ fits') := by
  constructor
  · rintro ⟨hfits, hfits'⟩
    rw [bind_of_ok (h.taken hfits)]
    exact hnext.taken hfits'
  · intro hnot
    by_cases hfits : fits
    · rw [bind_of_ok (h.taken hfits)]
      exact hnext.tooDeep fun hfits' => hnot ⟨hfits, hfits'⟩
    · rcases h.tooDeep hfits with ⟨left, hleft⟩
      exact ⟨left, bind_of_error hleft⟩

/-- What is done with a part that was read adds nothing to the depth. -/
theorem bind_ok (h : Outcome (read t) x t' fits)
    (hnext : next x t' = .ok (y, rest)) :
    Outcome ((read >>= next) t) y rest fits := by
  have hboth := h.bind (of_taken True.intro hnext)
  rwa [and_true] at hboth

end Outcome

/-- What may stand behind a value in a compact text. -/
def EndsValue (rest : Text) : Prop :=
  forall c, rest.head? = some c -> c = ',' ∨ c = ']' ∨ c = '\x7d'

theorem endsValue_nil : EndsValue [] := by
  intro c hc
  cases hc

theorem endsValue_cons {c : Char} (h : c = ',' ∨ c = ']' ∨ c = '\x7d')
    (t : Text) :
    EndsValue (c :: t) := by
  intro d hd
  cases hd
  exact h

theorem EndsValue.endsNumber {rest : Text} (h : EndsValue rest) :
    EndsNumber rest := by
  intro c hc
  rcases h c hc with rfl | rfl | rfl <;> decide

/-- The reader takes the text from the front of whatever it stands in, if the
text fits. -/
def ReadsBack (read : Reader SyntaxFault α) (text : Text) (x : α)
    (fits : Prop) : Prop :=
  forall rest, EndsValue rest -> Outcome (read (text ++ rest)) x rest fits

theorem readsBack_failAhead {text : Text} {x : α} {fits : Prop}
    (hnot : ¬fits) :
    ReadsBack (failAhead .tooDeep) text x fits :=
  fun _ _ =>
    { taken := fun hfits => absurd hfits hnot
      tooDeep := fun _ => ⟨_, rfl⟩ }

/-!
# Repetition

Items stand with commas between them.  What belongs to no item is taken before
it, which is the comma and, of a member, the quote that opens its key.
-/

/-- The texts of the items, with a comma before each that is not the first. -/
def separated (printed : α -> Text) : Bool -> List α -> Text
  | _, [] => []
  | true, x :: xs => printed x ++ separated printed false xs
  | false, x :: xs => ',' :: (printed x ++ separated printed false xs)

theorem endsValue_separated (printed : α -> Text) (xs : List α) {final : Text}
    (hfinal : EndsValue final) :
    EndsValue (separated printed false xs ++ final) := by
  cases xs with
  | nil =>
      exact hfinal
  | cons x xs =>
      exact endsValue_cons (Or.inl rfl) _

theorem length_le_separated (printed : α -> Text) (xs : List α) :
    xs.length ≤ (separated printed false xs).length := by
  induction xs with
  | nil =>
      exact Nat.le_refl 0
  | cons x xs ih =>
      rw [separated, List.length_cons, List.length_cons, List.length_append]
      omega

/-- An item is read from its text once what belongs to no item is taken from
what is printed. -/
structure ReadsItem (item : Reader SyntaxFault α)
    (more : Bool -> Reader SyntaxFault Bool) (printed text : Text) (x : α)
    (fits : Prop) : Prop where
  first : forall t, more true (printed ++ t) = .ok (true, text ++ t)
  later : forall t, more false (',' :: (printed ++ t)) = .ok (true, text ++ t)
  reads : ReadsBack item text x fits

section Repetition

variable {item : Reader SyntaxFault α} {more : Bool -> Reader SyntaxFault Bool}
  {printed text : α -> Text} {fits : α -> Prop} {xs : List α} {final : Text}

theorem itemsWithin_separated
    (hitems : forall x, x ∈ xs ->
      ReadsItem item more (printed x) (text x) x (fits x))
    (hstops : forall isFirst, more isFirst final = .ok (false, final))
    (hfinal : EndsValue final) {rounds : Nat} (hrounds : xs.length ≤ rounds)
    (isFirst : Bool) :
    Outcome
      (itemsWithin item more rounds isFirst
        (separated printed isFirst xs ++ final))
      xs final (forall x, x ∈ xs -> fits x) := by
  induction xs generalizing rounds isFirst with
  | nil =>
      refine .of_taken (fun x hx => nomatch hx) ?_
      cases rounds with
      | zero =>
          rfl
      | succ rounds =>
          exact bind_of_ok (hstops isFirst)
  | cons x xs ih =>
      rcases List.forall_mem_cons.mp hitems with ⟨hitem, hbehind⟩
      cases rounds with
      | zero =>
          exact absurd hrounds (Nat.not_succ_le_zero _)
      | succ rounds =>
          -- Only here does it matter whether the item is the first one.
          have hmore :
              more isFirst (separated printed isFirst (x :: xs) ++ final) =
                .ok (true, text x ++ (separated printed false xs ++ final)) := by
            cases isFirst with
            | true =>
                rw [separated, List.append_assoc]
                exact hitem.first _
            | false =>
                rw [separated, List.cons_append, List.append_assoc]
                exact hitem.later _
          have hrest := ih hbehind (Nat.le_of_succ_le_succ hrounds) false
          rw [List.forall_mem_cons, itemsWithin, bind_of_ok hmore]
          exact (hitem.reads _ (endsValue_separated printed xs hfinal)).bind
            (hrest.bind_ok rfl)

theorem items_separated
    (hitems : forall x, x ∈ xs ->
      ReadsItem item more (printed x) (text x) x (fits x))
    (hstops : forall isFirst, more isFirst final = .ok (false, final))
    (hfinal : EndsValue final) :
    Outcome (items item more (separated printed true xs ++ final)) xs final
      (forall x, x ∈ xs -> fits x) := by
  have hlength : xs.length ≤ (separated printed true xs).length + 1 := by
    cases xs with
    | nil =>
        exact Nat.zero_le _
    | cons x xs =>
        have hbehind := length_le_separated printed xs
        rw [separated, List.length_append, List.length_cons]
        omega
  refine itemsWithin_separated hitems hstops hfinal ?_ true
  rw [List.length_append]
  omega

end Repetition

/-!
# Integers
-/

section Integer

variable {list object : Reader SyntaxFault Json}

theorem valueWith_digit {c : Char} (h : c.isDigit = true) (t : Text) :
    valueWith list object (c :: t) =
      (number false >>= fun n => pure (Json.number n)) (c :: t) := by
  rcases Text.exists_digitChar_of_isDigit h with ⟨n, hn, rfl⟩
  match n, hn with
  | 0, _ | 1, _ | 2, _ | 3, _ | 4, _ | 5, _ | 6, _ | 7, _ | 8, _ | 9, _ =>
      rfl

theorem valueWith_printedInteger {n : Int}
    (hn : -0x8000000000000000 ≤ n ∧ n < 0x10000000000000000) {rest : Text}
    (hrest : EndsNumber rest) :
    valueWith list object (Json.printedInteger n ++ rest) =
      .ok (.number (.integer n hn), rest) := by
  have hwhole := wholeNumber_natAbs hn rest
  unfold Json.printedInteger
  by_cases hneg : n < 0
  · rw [decide_eq_true hneg] at hwhole
    rw [if_pos hneg]
    have hread : number true (Text.ofNat n.natAbs ++ rest) =
        .ok (.integer n hn, rest) :=
      (numberRest_ofNat true n.natAbs hrest).trans hwhole
    change (number true >>= fun n => pure (Json.number n))
      (Text.ofNat n.natAbs ++ rest) = _
    exact bind_of_ok hread
  · rw [decide_eq_false hneg] at hwhole
    rw [if_neg hneg]
    have hread : number false (Text.ofNat n.natAbs ++ rest) =
        .ok (.integer n hn, rest) :=
      (numberRest_ofNat false n.natAbs hrest).trans hwhole
    rcases Text.exists_cons_ofNat n.natAbs with ⟨c, t, hdigits, hc⟩
    rw [hdigits] at hread ⊢
    rw [List.cons_append, valueWith_digit hc]
    exact bind_of_ok hread

end Integer

/-!
# Lists
-/

/-- Neither spacing nor the end of a list is taken for an item. -/
theorem print_eq_cons {value : Json} (h : value.Integral) :
    exists c t, value.print = c :: t ∧ isSpacing c = false ∧ c ≠ ']' := by
  have hdigit : forall m, m < 10 ->
      isSpacing m.digitChar = false ∧ m.digitChar ≠ ']' := by
    decide
  cases h with
  | null =>
      exact ⟨'n', _, rfl, rfl, by decide⟩
  | boolean b =>
      cases b with
      | true =>
          exact ⟨'t', _, rfl, rfl, by decide⟩
      | false =>
          exact ⟨'f', _, rfl, rfl, by decide⟩
  | integer n hn =>
      change exists c t, Json.printedInteger n = c :: t ∧ _ ∧ _
      unfold Json.printedInteger
      by_cases hneg : n < 0
      · rw [if_pos hneg]
        exact ⟨'-', _, rfl, rfl, by decide⟩
      · rw [if_neg hneg]
        rcases Text.exists_cons_ofNat n.natAbs with ⟨c, t, hdigits, hc⟩
        rcases Text.exists_digitChar_of_isDigit hc with ⟨m, hm, rfl⟩
        exact ⟨m.digitChar, t, hdigits, hdigit m hm⟩
  | string s =>
      exact ⟨'"', _, rfl, rfl, by decide⟩
  | array hitems =>
      exact ⟨'[', _, rfl, rfl, by decide⟩
  | object hmembers =>
      exact ⟨'\x7b', _, rfl, rfl, by decide⟩

theorem peekToken_cons {ε : Type} {c : Char} (h : isSpacing c = false)
    (t : Text) :
    (peekToken : Reader ε (Option Char)) (c :: t) = .ok (some c, c :: t) := by
  have hskip : (c :: t).dropWhile isSpacing = c :: t := by
    rw [List.dropWhile_cons, h]
    rfl
  change Except.ok (((c :: t).dropWhile isSpacing).head?,
    (c :: t).dropWhile isSpacing) = _
  rw [hskip]
  rfl

theorem readsItem_print {item : Reader SyntaxFault Json} {value : Json}
    {fits : Prop} (hintegral : value.Integral)
    (hreads : ReadsBack item value.print value fits) :
    ReadsItem item moreItems value.print value.print value fits := by
  rcases print_eq_cons hintegral with ⟨c, behind, hprint, hspacing, hbracket⟩
  constructor
  · intro t
    rw [hprint, List.cons_append]
    unfold moreItems
    rw [bind_of_ok (peekToken_cons hspacing _)]
    simp only [if_true]
    rfl
  · intro t
    rw [hprint, List.cons_append]
    have hcomma : (advance : Reader SyntaxFault Unit)
        (',' :: c :: (behind ++ t)) = .ok ((), c :: (behind ++ t)) :=
      rfl
    have hitem : ',' ≠ ']' := by
      decide
    unfold moreItems
    rw [bind_of_ok (peekToken_cons rfl _)]
    simp only [Bool.false_eq_true, if_false, if_true]
    rw [bind_of_ok hcomma, bind_of_ok (peekToken_cons hspacing _)]
    simp only
    rfl
  · exact hreads

theorem separated_print (items : List Json) :
    separated Json.print true items = Json.printItems items := by
  induction items with
  | nil =>
      rfl
  | cons item rest ih =>
      cases rest with
      | nil =>
          exact List.append_nil _
      | cons next behind =>
          rw [Json.printItems, ← ih]
          · rfl
          · nofun

theorem readsBack_array {item : Reader SyntaxFault Json} {items : List Json}
    {fits : Json -> Prop} (hintegral : (Json.array items).Integral)
    (hitems : forall x, x ∈ items -> ReadsBack item x.print x (fits x)) :
    ReadsBack (array item) (Json.array items).print (.array items)
      (forall x, x ∈ items -> fits x) := by
  intro rest hrest
  rcases hintegral with _ | _ | _ | _ | hintegral | _
  have hread : Outcome
      (Reader.items item moreItems
        (separated Json.print true items ++ ']' :: rest))
      items (']' :: rest) (forall x, x ∈ items -> fits x) :=
    items_separated (fun x hx => readsItem_print (hintegral x hx) (hitems x hx))
      (fun isFirst => by cases isFirst <;> rfl)
      (endsValue_cons (Or.inr (Or.inl rfl)) rest)
  rw [separated_print] at hread
  have htext : (Json.array items).print ++ rest =
      '[' :: (Json.printItems items ++ ']' :: rest) := by
    rw [Json.print, List.cons_append, List.append_assoc]
    rfl
  rw [htext]
  change Outcome ((Reader.items item moreItems >>= fun xs =>
    closeList >>= fun _ => pure (Json.array xs)) _) _ _ _
  exact hread.bind_ok rfl

/-!
# Objects
-/

/-- The text of a member without the quote that opens its key. -/
def memberText (pair : String × Json) : Text :=
  pair.1.toList.flatMap Json.printedChar ++ '"' :: ':' :: pair.2.print

theorem readsBack_member {item : Reader SyntaxFault Json} {pair : String × Json}
    {fits : Prop} (hreads : ReadsBack item pair.2.print pair.2 fits) :
    ReadsBack (member item) (memberText pair) pair fits := by
  intro rest hrest
  have htext : memberText pair ++ rest =
      pair.1.toList.flatMap Json.printedChar ++
        '"' :: ':' :: (pair.2.print ++ rest) := by
    rw [memberText, List.append_assoc]
    rfl
  have hkey : member item (memberText pair ++ rest) =
      (item >>= fun x => pure (pair.1, x)) (pair.2.print ++ rest) := by
    rw [htext]
    exact bind_of_ok (string_printed pair.1 _)
  rw [hkey]
  exact (hreads rest hrest).bind_ok rfl

theorem separated_memberText (members : Json.Members) :
    separated (fun pair => '"' :: memberText pair) true members =
      Json.printMembers members := by
  induction members with
  | nil =>
      rfl
  | cons pair rest ih =>
      rcases pair with ⟨key, value⟩
      cases rest with
      | nil =>
          simp [separated, memberText, Json.printMembers, Json.printedString]
      | cons next behind =>
          rw [Json.printMembers, ← ih]
          · simp [separated, memberText, Json.printedString]
          · nofun

theorem readsBack_object {item : Reader SyntaxFault Json}
    {members : Json.Members} {fits : String × Json -> Prop}
    (hincreasing : members.Increasing)
    (hmembers : forall pair, pair ∈ members ->
      ReadsBack item pair.2.print pair.2 (fits pair)) :
    ReadsBack (object item) (Json.object members).print (.object members)
      (forall pair, pair ∈ members -> fits pair) := by
  intro rest hrest
  have hread : Outcome
      (items (member item) moreMembers
        (separated (fun pair => '"' :: memberText pair) true members ++
          '\x7d' :: rest))
      members ('\x7d' :: rest) (forall pair, pair ∈ members -> fits pair) :=
    items_separated
      (fun pair hpair =>
        { first := fun _ => rfl
          later := fun _ => rfl
          reads := readsBack_member (hmembers pair hpair) })
      (fun isFirst => by cases isFirst <;> rfl)
      (endsValue_cons (Or.inr (Or.inr rfl)) rest)
  rw [separated_memberText] at hread
  have htext : (Json.object members).print ++ rest =
      '\x7b' :: (Json.printMembers members ++ '\x7d' :: rest) := by
    rw [Json.print, List.cons_append, List.append_assoc]
    rfl
  have hclose : (closeObject >>= fun _ => pure (Json.ofPairs members))
      ('\x7d' :: rest) = .ok (.object members, rest) := by
    rw [Json.ofPairs_of_increasing hincreasing]
    rfl
  rw [htext]
  change Outcome ((items (member item) moreMembers >>= fun pairs =>
    closeObject >>= fun _ => pure (Json.ofPairs pairs)) _) _ _ _
  exact hread.bind_ok hclose

/-!
# Values

Each list and each object takes one level of the depth, so the levels are
counted down along the reader.
-/

theorem readsBack_valueWith {list object : Reader SyntaxFault Json}
    {depth : Nat} {value : Json} (hintegral : value.Integral)
    (hlist : forall items, value = .array items ->
      ReadsBack list value.print value (value.depth ≤ depth))
    (hobject : forall members, value = .object members ->
      ReadsBack object value.print value (value.depth ≤ depth)) :
    ReadsBack (valueWith list object) value.print value
      (value.depth ≤ depth) := by
  intro rest hrest
  cases hintegral with
  | null =>
      exact .of_taken (Nat.zero_le _) rfl
  | boolean b =>
      cases b <;> exact .of_taken (Nat.zero_le _) rfl
  | integer n hn =>
      exact .of_taken (Nat.zero_le _)
        (valueWith_printedInteger hn hrest.endsNumber)
  | string s =>
      refine .of_taken (Nat.zero_le _) ?_
      have htext : (Json.string s).print ++ rest =
          '"' :: (s.toList.flatMap Json.printedChar ++ '"' :: rest) := by
        rw [Json.print, Json.printedString, List.cons_append, List.append_assoc]
        rfl
      rw [htext]
      change (string >>= fun s => pure (Json.string s))
        (s.toList.flatMap Json.printedChar ++ '"' :: rest) = _
      exact bind_of_ok (string_printed s rest)
  | @array items _ =>
      exact hlist items rfl rest hrest
  | @object members _ =>
      exact hobject members rfl rest hrest

theorem readsBack_value (depth : Nat) {value : Json}
    (hordered : value.Ordered) (hintegral : value.Integral) :
    ReadsBack (Reader.value depth) value.print value (value.depth ≤ depth) := by
  induction depth generalizing value with
  | zero =>
      refine readsBack_valueWith hintegral ?_ ?_
      · rintro items rfl
        exact readsBack_failAhead (Nat.not_succ_le_zero _)
      · rintro members rfl
        exact readsBack_failAhead (Nat.not_succ_le_zero _)
  | succ depth ih =>
      refine readsBack_valueWith hintegral ?_ ?_
      · rintro items rfl
        rcases hintegral with _ | _ | _ | _ | hitems | _
        have hfits : (Json.array items).depth ≤ depth + 1 ↔
            forall item, item ∈ items -> item.depth ≤ depth := by
          rw [Json.depth, Nat.add_le_add_iff_right, Json.depthItems_le_iff]
        rw [hfits]
        exact readsBack_array (.array hitems) fun item hitem =>
          ih (Json.ordered_array_iff.mp hordered item hitem) (hitems item hitem)
      · rintro members rfl
        rcases hintegral with _ | _ | _ | _ | _ | hmembers
        rcases Json.ordered_object_iff.mp hordered with ⟨hkeys, hvalues⟩
        have hfits : (Json.object members).depth ≤ depth + 1 ↔
            forall pair, pair ∈ members -> pair.2.depth ≤ depth := by
          rw [Json.depth, Nat.add_le_add_iff_right, Json.depthMembers_le_iff]
        rw [hfits]
        exact readsBack_object hkeys fun pair hpair =>
          ih (hvalues pair hpair) (hmembers pair hpair)

end Reader

/-- The compact text of a value spells that value for a reader that goes deep
enough, and no value for any other. -/
theorem Json.read_print {value : Json} (hordered : value.Ordered)
    (hintegral : value.Integral) (depth : Nat) :
    (value.depth ≤ depth -> Json.read depth value.print = .ok value) ∧
    (depth < value.depth -> exists fault,
      Json.read depth value.print = .error fault ∧ fault.cause = .tooDeep) := by
  have hvalue := Reader.readsBack_value depth hordered hintegral []
    Reader.endsValue_nil
  rw [List.append_nil] at hvalue
  have hdocument : Reader.Outcome (Reader.document depth value.print) value []
      (value.depth ≤ depth) :=
    hvalue.bind_ok rfl
  unfold Json.read
  constructor
  · intro hfits
    rw [hdocument.taken hfits]
  · intro hdeep
    rcases hdocument.tooDeep (Nat.not_le.mpr hdeep) with ⟨left, hleft⟩
    rw [hleft]
    exact ⟨_, rfl, rfl⟩

end PseudocodeTools
