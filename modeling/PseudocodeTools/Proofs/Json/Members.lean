import PseudocodeTools.Json.Basic
/-!
# Members by key

What is found under a key after members were put in, and the order in which
they stand.  Members in increasing order of keys are determined by what is found
under each key, so two such lists are compared key by key.
-/

namespace PseudocodeTools
namespace Json
namespace Members

/-- The keys are increasing. -/
def Increasing (members : Members) : Prop :=
  members.Pairwise fun a b => a.1 < b.1

/-!
# Lookup
-/

@[simp] theorem get?_nil (key : String) : get? [] key = none := rfl

@[simp] theorem get?_cons (key k : String) (value : Json) (rest : Members) :
    get? ((k, value) :: rest) key =
      if key = k then some value else get? rest key := by
  unfold get?
  rw [List.lookup_cons]
  by_cases h : key = k
  · simp [h]
  · simp [h, beq_eq_false_iff_ne.mpr h]

theorem get?_append (front rest : Members) (key : String) :
    get? (front ++ rest) key = (get? front key).or (get? rest key) :=
  List.lookup_append

theorem hasKey_iff {members : Members} {key : String} :
    members.hasKey key = true ↔
      exists value, members.get? key = some value := by
  unfold hasKey
  exact Option.isSome_iff_exists

theorem mem_of_get? {members : Members} {key : String} {value : Json}
    (h : members.get? key = some value) :
    (key, value) ∈ members := by
  induction members with
  | nil =>
      cases h
  | cons head rest ih =>
      rcases head with ⟨k, v⟩
      rw [get?_cons] at h
      split at h
      · rename_i hkey
        cases h
        rw [hkey]
        exact List.mem_cons_self
      · exact List.mem_cons_of_mem _ (ih h)

theorem get?_eq_none_iff {members : Members} {key : String} :
    members.get? key = none ↔ key ∉ members.map Prod.fst := by
  induction members with
  | nil =>
      simp
  | cons head rest ih =>
      rcases head with ⟨k, v⟩
      by_cases hkey : key = k
      · simp [hkey]
      · simp [hkey, ih]

/-- Members are kept or dropped by their keys alone. -/
theorem get?_filter (members : Members) (keep : String -> Bool) (key : String) :
    get? (members.filter fun member => keep member.1) key =
      if keep key then members.get? key else none := by
  induction members with
  | nil =>
      simp
  | cons head rest ih =>
      rcases head with ⟨k, v⟩
      by_cases hkeep : keep k = true
      · rw [List.filter_cons_of_pos (by simpa using hkeep)]
        by_cases hkey : key = k
        · simp [hkey, hkeep]
        · simp [hkey, ih]
      · rw [List.filter_cons_of_neg (by simpa using hkeep), ih]
        by_cases hkey : key = k
        · simp [hkey, hkeep]
        · simp [hkey]

theorem get?_filter_of_nodup {members : Members}
    (hnodup : (members.map Prod.fst).Nodup) (keep : String × Json -> Bool)
    (key : String) :
    get? (members.filter keep) key =
      (members.get? key).filter fun value => keep (key, value) := by
  induction members with
  | nil =>
      rfl
  | cons head rest ih =>
      rcases head with ⟨k, v⟩
      rw [List.map_cons, List.nodup_cons] at hnodup
      have hrest := ih hnodup.2
      by_cases hkey : key = k
      · subst hkey
        have hnone : get? rest key = none := get?_eq_none_iff.mpr hnodup.1
        rw [hnone] at hrest
        by_cases hkeep : keep (key, v) = true
        · simp [hkeep, Option.filter]
        · simp [hkeep, Option.filter, hrest]
      · by_cases hkeep : keep (k, v) = true
        · simp [hkeep, hkey, hrest]
        · simp [hkeep, hkey, hrest]

/-!
# Members put in
-/

@[simp] theorem get?_insert (members : Members) (k key : String)
    (value : Json) :
    (members.insert k value).get? key =
      if key = k then some value else members.get? key := by
  induction members with
  | nil =>
      simp [insert]
  | cons head rest ih =>
      rcases head with ⟨k', v⟩
      unfold insert
      split
      · simp
      · split
        · rename_i heq
          subst heq
          by_cases hkey : key = k
          · simp [hkey]
          · simp [hkey]
        · rename_i hne
          rw [get?_cons, get?_cons, ih]
          by_cases hkey : key = k
          · have : key ≠ k' := fun h => hne (hkey.symm.trans h)
            simp [hkey, hne]
          · simp [hkey]

/-- Of pairs with different keys all are found again. -/
theorem get?_insertAll {pairs : Members}
    (hnodup : (pairs.map Prod.fst).Nodup) (members : Members) (key : String) :
    (members.insertAll pairs).get? key =
      (pairs.get? key).or (members.get? key) := by
  induction pairs generalizing members with
  | nil =>
      simp [insertAll]
  | cons pair rest ih =>
      rcases pair with ⟨k, v⟩
      rw [List.map_cons, List.nodup_cons] at hnodup
      have hrest := ih hnodup.2 (members.insert k v)
      change (insertAll (members.insert k v) rest).get? key = _
      rw [hrest, get?_insert, get?_cons]
      by_cases hkey : key = k
      · have hnone : get? rest k = none := get?_eq_none_iff.mpr hnodup.1
        simp [hkey, hnone]
      · simp [hkey]

theorem get?_insertMissing (members : Members) (k key : String) (value : Json) :
    (members.insertMissing k value).get? key =
      (members.get? key).or (if key = k then some value else none) := by
  unfold insertMissing
  by_cases hhas : members.hasKey k = true
  · rw [if_pos hhas]
    rcases hasKey_iff.mp hhas with ⟨old, hold⟩
    by_cases hkey : key = k
    · simp [hkey, hold]
    · simp [hkey]
  · rw [if_neg hhas, get?_insert]
    have hnone : members.get? k = none := by
      simpa [hasKey] using hhas
    by_cases hkey : key = k
    · simp [hkey, hnone]
    · simp [hkey]

theorem get?_insertAllMissing (members pairs : Members) (key : String) :
    (members.insertAllMissing pairs).get? key =
      (members.get? key).or (pairs.get? key) := by
  induction pairs generalizing members with
  | nil =>
      simp [insertAllMissing]
  | cons pair rest ih =>
      rcases pair with ⟨k, v⟩
      change (insertAllMissing (members.insertMissing k v) rest).get? key = _
      rw [ih, get?_insertMissing, get?_cons, Option.or_assoc]
      by_cases hkey : key = k
      · simp [hkey]
      · simp [hkey]

/-!
# Members put in, in any order
-/

theorem perm_insert {members : Members} {k : String} (value : Json)
    (h : members.get? k = none) :
    (members.insert k value).Perm ((k, value) :: members) := by
  induction members with
  | nil =>
      exact List.Perm.refl _
  | cons head rest ih =>
      rcases head with ⟨k', v⟩
      rw [get?_cons] at h
      unfold insert
      split
      · exact List.Perm.refl _
      · split
        · rename_i heq
          rw [if_pos heq] at h
          cases h
        · rename_i hne
          rw [if_neg hne] at h
          exact ((ih h).cons (k', v)).trans (List.Perm.swap _ _ _)

/-- A member that is put in is not one of those with other keys. -/
theorem missing_insert {members rest : Members} {k : String} {value : Json}
    (hk : k ∉ rest.map Prod.fst)
    (hnew : forall key, key ∈ ((k, value) :: rest).map Prod.fst ->
      members.get? key = none) :
    forall key, key ∈ rest.map Prod.fst ->
      (members.insert k value).get? key = none := by
  intro key hkey
  have hne : key ≠ k := fun heq => hk (heq ▸ hkey)
  rw [get?_insert, if_neg hne]
  exact hnew key (List.mem_cons_of_mem k hkey)

theorem perm_insertAll {members pairs : Members}
    (hnodup : (pairs.map Prod.fst).Nodup)
    (hnew : forall key, key ∈ pairs.map Prod.fst -> members.get? key = none) :
    (members.insertAll pairs).Perm (pairs ++ members) := by
  induction pairs generalizing members with
  | nil =>
      exact List.Perm.refl _
  | cons pair rest ih =>
      rcases pair with ⟨k, v⟩
      rw [List.map_cons, List.nodup_cons] at hnodup
      rcases hnodup with ⟨hk, hnodup⟩
      have hput := perm_insert v (hnew k List.mem_cons_self)
      have hrest : (insertAll (members.insert k v) rest).Perm
          (rest ++ members.insert k v) := ih hnodup (missing_insert hk hnew)
      exact (hrest.trans (hput.append_left rest)).trans List.perm_middle

theorem insertAllMissing_eq_insertAll {members pairs : Members}
    (hnodup : (pairs.map Prod.fst).Nodup)
    (hnew : forall key, key ∈ pairs.map Prod.fst -> members.get? key = none) :
    members.insertAllMissing pairs = members.insertAll pairs := by
  induction pairs generalizing members with
  | nil =>
      rfl
  | cons pair rest ih =>
      rcases pair with ⟨k, v⟩
      rw [List.map_cons, List.nodup_cons] at hnodup
      rcases hnodup with ⟨hk, hnodup⟩
      have hmissing : members.insertMissing k v = members.insert k v := by
        unfold insertMissing hasKey
        rw [hnew k List.mem_cons_self]
        rfl
      show insertAllMissing (members.insertMissing k v) rest =
        insertAll (members.insert k v) rest
      rw [hmissing, ih hnodup (missing_insert hk hnew)]

/-!
# Order
-/

theorem increasing_nil : Increasing [] :=
  List.Pairwise.nil

theorem Increasing.filter {members : Members} (h : members.Increasing)
    (keep : String × Json -> Bool) :
    Increasing (members.filter keep) :=
  List.Pairwise.filter keep h

theorem mem_insert {members : Members} {k : String} {value : Json}
    {member : String × Json} (h : member ∈ members.insert k value) :
    member = (k, value) ∨ member ∈ members := by
  induction members with
  | nil =>
      exact Or.inl (by simpa [insert] using h)
  | cons head rest ih =>
      rcases head with ⟨k', v⟩
      unfold insert at h
      split at h
      · exact List.mem_cons.mp h
      · split at h
        · rcases List.mem_cons.mp h with hnew | hrest
          · exact Or.inl hnew
          · exact Or.inr (List.mem_cons_of_mem _ hrest)
        · rcases List.mem_cons.mp h with hold | hrest
          · exact Or.inr (hold ▸ List.mem_cons_self)
          · rcases ih hrest with hnew | hmem
            · exact Or.inl hnew
            · exact Or.inr (List.mem_cons_of_mem _ hmem)

theorem Increasing.insert {members : Members} (h : members.Increasing)
    (k : String) (value : Json) :
    (members.insert k value).Increasing := by
  induction members with
  | nil =>
      exact List.pairwise_singleton _ _
  | cons head rest ih =>
      rcases head with ⟨k', v⟩
      unfold Increasing at h
      rw [List.pairwise_cons] at h
      rcases h with ⟨hhead, hrest⟩
      unfold Members.insert
      split
      · rename_i hlt
        refine List.pairwise_cons.mpr
          ⟨?_, List.pairwise_cons.mpr ⟨hhead, hrest⟩⟩
        intro member hmem
        rcases List.mem_cons.mp hmem with heq | htail
        · rw [heq]
          exact hlt
        · exact String.lt_trans hlt (hhead member htail)
      · split
        · rename_i heq
          refine List.pairwise_cons.mpr ⟨?_, hrest⟩
          intro member hmem
          rw [heq]
          exact hhead member hmem
        · rename_i hnlt hne
          refine List.pairwise_cons.mpr ⟨?_, ih hrest⟩
          intro member hmem
          rcases mem_insert hmem with hnew | hold
          · rw [hnew]
            by_cases hlt : k' < k
            · exact hlt
            · have heq := String.le_antisymm (String.not_lt.mp hlt)
                (String.not_lt.mp hnlt)
              exact absurd heq hne
          · exact hhead member hold

theorem Increasing.insertAll {members : Members} (h : members.Increasing)
    (pairs : Members) :
    (members.insertAll pairs).Increasing := by
  induction pairs generalizing members with
  | nil =>
      exact h
  | cons pair rest ih =>
      exact ih (h.insert pair.1 pair.2)

theorem mem_insertAll {members pairs : Members} {member : String × Json}
    (h : member ∈ members.insertAll pairs) :
    member ∈ members ∨ member ∈ pairs := by
  induction pairs generalizing members with
  | nil =>
      exact Or.inl h
  | cons pair rest ih =>
      rcases ih h with hput | hrest
      · rcases mem_insert hput with heq | hold
        · exact Or.inr (List.mem_cons.mpr (Or.inl heq))
        · exact Or.inl hold
      · exact Or.inr (List.mem_cons_of_mem pair hrest)

theorem Increasing.insertMissing {members : Members} (h : members.Increasing)
    (k : String) (value : Json) :
    (members.insertMissing k value).Increasing := by
  unfold Members.insertMissing
  split
  · exact h
  · exact h.insert k value

theorem Increasing.insertAllMissing {members : Members}
    (h : members.Increasing) (pairs : Members) :
    (members.insertAllMissing pairs).Increasing := by
  induction pairs generalizing members with
  | nil =>
      exact h
  | cons pair rest ih =>
      exact ih (h.insertMissing pair.1 pair.2)

theorem Increasing.nodup_keys {members : Members} (h : members.Increasing) :
    (members.map Prod.fst).Nodup := by
  unfold List.Nodup
  rw [List.pairwise_map]
  refine List.Pairwise.imp ?_ h
  intro a b hlt heq
  rw [heq] at hlt
  exact String.lt_irrefl _ hlt

theorem Increasing.nodup {members : Members} (h : members.Increasing) :
    members.Nodup :=
  List.Pairwise.of_map Prod.fst (fun _ _ hne heq => hne (heq ▸ rfl))
    h.nodup_keys

theorem get?_of_mem {members : Members} (h : members.Increasing)
    {key : String} {value : Json} (hmem : (key, value) ∈ members) :
    members.get? key = some value := by
  induction members with
  | nil =>
      cases hmem
  | cons head rest ih =>
      rcases head with ⟨k, v⟩
      unfold Increasing at h
      rw [List.pairwise_cons] at h
      rw [get?_cons]
      rcases List.mem_cons.mp hmem with heq | hrest
      · cases heq
        simp
      · have hlt : k < key := h.1 _ hrest
        have hne : key ≠ k := by
          intro heq
          rw [heq] at hlt
          exact String.lt_irrefl _ hlt
        rw [if_neg hne]
        exact ih h.2 hrest

/-- Members in increasing order are determined by what is found in them. -/
theorem Increasing.ext {a b : Members} (ha : a.Increasing) (hb : b.Increasing)
    (h : forall key, a.get? key = b.get? key) :
    a = b := by
  have hmem : forall member, member ∈ a ↔ member ∈ b := by
    intro member
    constructor
    · intro hin
      exact mem_of_get? ((h member.1).symm.trans (get?_of_mem ha hin))
    · intro hin
      exact mem_of_get? ((h member.1).trans (get?_of_mem hb hin))
  have hperm : List.Perm a b :=
    (List.perm_ext_iff_of_nodup ha.nodup hb.nodup).mpr hmem
  refine hperm.eq_of_pairwise ?_ ha hb
  intro x y _ _ hxy hyx
  exact absurd hyx (String.lt_asymm hxy)

end Members

/-!
# Parts of a value

A value is larger than what it holds, which is the measure for arguments that
descend into a value.  In a value in canonical form every part is in canonical
form.
-/

theorem sizeOf_member_lt {members : Members} {key : String} {value : Json}
    (h : members.get? key = some value) :
    sizeOf value < sizeOf (object members) := by
  have hmem := List.sizeOf_lt_of_mem (Members.mem_of_get? h)
  simp only [Prod.mk.sizeOf_spec, object.sizeOf_spec] at hmem ⊢
  omega

theorem sizeOf_item_lt {items : List Json} {item : Json} (h : item ∈ items) :
    sizeOf item < sizeOf (array items) := by
  have hmem := List.sizeOf_lt_of_mem h
  simp only [array.sizeOf_spec]
  omega

theorem orderedItems_iff {items : List Json} :
    OrderedItems items ↔ forall item, item ∈ items -> item.Ordered := by
  induction items with
  | nil =>
      simp [OrderedItems]
  | cons item rest ih =>
      simp [OrderedItems, ih]

theorem orderedMembers_iff {members : Members} :
    OrderedMembers members ↔
      forall member, member ∈ members -> member.2.Ordered := by
  induction members with
  | nil =>
      simp [OrderedMembers]
  | cons member rest ih =>
      simp [OrderedMembers, ih]

theorem ordered_array_iff {items : List Json} :
    (array items).Ordered ↔ forall item, item ∈ items -> item.Ordered :=
  orderedItems_iff

theorem ordered_object_iff {members : Members} :
    (object members).Ordered ↔
      members.Increasing ∧
        forall member, member ∈ members -> member.2.Ordered := by
  rw [← orderedMembers_iff]
  exact Iff.rfl

theorem ordered_ofPairs {pairs : Members}
    (h : forall pair, pair ∈ pairs -> pair.2.Ordered) :
    (ofPairs pairs).Ordered := by
  refine ordered_object_iff.mpr ⟨Members.increasing_nil.insertAll pairs, ?_⟩
  intro member hmem
  rcases Members.mem_insertAll hmem with hnone | hpair
  · cases hnone
  · exact h member hpair

/-- Members that are in order are put in as they stand. -/
theorem ofPairs_of_increasing {members : Members} (h : members.Increasing) :
    ofPairs members = object members := by
  have hsame : Members.insertAll [] members = members := by
    refine Members.Increasing.ext (Members.increasing_nil.insertAll members) h
      fun key => ?_
    rw [Members.get?_insertAll h.nodup_keys]
    exact Option.or_none
  rw [ofPairs, hsame]

theorem Ordered.filter {members : Members} (h : (object members).Ordered)
    (keep : String × Json -> Bool) :
    (object (members.filter keep)).Ordered := by
  rcases ordered_object_iff.mp h with ⟨hkeys, hvalues⟩
  refine ordered_object_iff.mpr ⟨hkeys.filter keep, ?_⟩
  intro member hmem
  exact hvalues member (List.mem_filter.mp hmem).1

theorem Ordered.member {members : Members} (h : (object members).Ordered)
    {key : String} {value : Json} (hget : members.get? key = some value) :
    value.Ordered :=
  (ordered_object_iff.mp h).2 _ (Members.mem_of_get? hget)

end Json
end PseudocodeTools
