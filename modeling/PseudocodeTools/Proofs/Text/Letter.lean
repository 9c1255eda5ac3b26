import PseudocodeTools.Text.Letter
/-!
# Letters
-/

namespace PseudocodeTools

theorem isAlpha_iff {c : Char} :
    c.isAlpha = true ↔
      (65 ≤ c.toNat ∧ c.toNat ≤ 90) ∨ (97 ≤ c.toNat ∧ c.toNat ≤ 122) := by
  show (decide (65 ≤ c.toNat ∧ c.toNat ≤ 90) ||
    (decide (97 ≤ c.toNat) && decide (c.toNat ≤ 122))) = true ↔ _
  simp only [Bool.or_eq_true, Bool.and_eq_true, decide_eq_true_eq]

theorem isAlpha_of_isAlpha_toLower {c : Char} (h : c.toLower.isAlpha = true) :
    c.isAlpha = true := by
  unfold Char.toLower at h
  split at h
  · rename_i hupper
    exact isAlpha_iff.mpr (Or.inl hupper)
  · exact h

/-!
# Leading bytes

A character beyond ASCII shares its first byte with a letter exactly when some
letter lies in its block of code points.
-/

/-- The first byte of the UTF-8 form. -/
def firstByte (c : Char) : Option UInt8 :=
  (String.utf8EncodeChar c).head?

/-- The first byte as a number. -/
def leadByte (n : Nat) : Nat :=
  if n ≤ 0x7F then n
  else if n ≤ 0x7FF then n / 64 % 0x20 + 0xC0
  else if n ≤ 0xFFFF then n / 4096 % 0x10 + 0xE0
  else n / 262144 % 0x08 + 0xF0

theorem leadByte_lt (n : Nat) : leadByte n < 256 := by
  unfold leadByte
  repeat' split
  all_goals omega

theorem firstByte_eq (c : Char) :
    firstByte c = some (UInt8.ofNat (leadByte c.toNat)) := by
  have hval : c.val.toNat = c.toNat := rfl
  unfold firstByte String.utf8EncodeChar leadByte
  dsimp only
  rw [hval]
  by_cases hone : c.toNat ≤ 0x7F
  · rw [if_pos hone, if_pos hone]
    rfl
  · rw [if_neg hone, if_neg hone]
    by_cases htwo : c.toNat ≤ 0x7FF
    · rw [if_pos htwo, if_pos htwo]
      rfl
    · rw [if_neg htwo, if_neg htwo]
      by_cases hthree : c.toNat ≤ 0xFFFF
      · rw [if_pos hthree, if_pos hthree]
        rfl
      · rw [if_neg hthree, if_neg hthree]
        rfl

theorem firstByte_eq_iff {c d : Char} :
    firstByte d = firstByte c ↔ leadByte d.toNat = leadByte c.toNat := by
  rw [firstByte_eq, firstByte_eq, Option.some.injEq]
  constructor
  · intro h
    have hnat := congrArg UInt8.toNat h
    rw [UInt8.toNat_ofNat_of_lt' (leadByte_lt _),
      UInt8.toNat_ofNat_of_lt' (leadByte_lt _)] at hnat
    exact hnat
  · intro h
    rw [h]

theorem toNat_lt (c : Char) : c.toNat < 0x110000 := by
  have hval : c.val.toNat = c.toNat := rfl
  rcases c.valid with h | h <;> omega

/-- The characters of a block are those with the same first byte. -/
theorem leadByte_eq_iff {m n : Nat} (hm : m < 0x110000) (hn : n < 0x110000)
    (hascii : 0x80 ≤ n) :
    leadByte m = leadByte n ↔
      (leadByteBlock n).1 ≤ m ∧ m ≤ (leadByteBlock n).2 := by
  unfold leadByte leadByteBlock
  rw [if_neg (by omega : ¬ n ≤ 0x7F), if_neg (by omega : ¬ n < 0x80)]
  by_cases htwo : n < 0x800
  · rw [if_pos (by omega : n ≤ 0x7FF), if_pos htwo]
    repeat' split
    all_goals omega
  · rw [if_neg (by omega : ¬ n ≤ 0x7FF), if_neg htwo]
    by_cases hthree : n < 0x10000
    · rw [if_pos (by omega : n ≤ 0xFFFF), if_pos hthree]
      repeat' split
      all_goals omega
    · rw [if_neg (by omega : ¬ n ≤ 0xFFFF), if_neg hthree]
      repeat' split
      all_goals omega

theorem letterRanges_valid :
    (letterRanges.all fun range =>
      range.1 ≤ range.2 && range.2 < 0x110000 &&
        (range.2 < 0xD800 || 0xDFFF < range.1)) = true := by
  decide +kernel

/-- Between two code points beyond ASCII there is a letter if a range of letters
meets them. -/
theorem exists_letter_of_meets {low high : Nat} (hascii : 0x80 ≤ low)
    (hle : low ≤ high) (h : letterRanges.meets low high = true) :
    exists d, isLetter d = true ∧ low ≤ d.toNat ∧ d.toNat ≤ high := by
  rcases List.any_eq_true.mp h with ⟨⟨first, last⟩, hmem, hmeets⟩
  have hvalid := List.all_eq_true.mp letterRanges_valid _ hmem
  simp only [Bool.and_eq_true, Bool.or_eq_true,
    decide_eq_true_eq] at hmeets hvalid
  have hscalar : (max first low).isValidChar := by
    unfold Nat.isValidChar
    omega
  obtain ⟨d, hd⟩ : exists d : Char, d.toNat = max first low :=
    ⟨Char.ofNatAux _ hscalar, rfl⟩
  refine ⟨d, ?_, by omega, by omega⟩
  unfold isLetter
  rw [if_neg (by omega)]
  refine List.any_eq_true.mpr ⟨(first, last), hmem, ?_⟩
  simp only [Bool.and_eq_true, decide_eq_true_eq]
  omega

theorem startsLikeLetter_iff {c : Char} (hascii : 0x80 ≤ c.toNat) :
    startsLikeLetter c = true ↔
      exists d, isLetter d = true ∧ firstByte d = firstByte c := by
  have hblock : forall d : Char, firstByte d = firstByte c ↔
      (leadByteBlock c.toNat).1 ≤ d.toNat ∧
        d.toNat ≤ (leadByteBlock c.toNat).2 := by
    intro d
    rw [firstByte_eq_iff]
    exact leadByte_eq_iff (toNat_lt d) (toNat_lt c) hascii
  have hself := (hblock c).mp rfl
  have hlow : 0x80 ≤ (leadByteBlock c.toNat).1 := by
    unfold leadByteBlock
    repeat' split
    all_goals dsimp only
    all_goals omega
  constructor
  · intro h
    rcases exists_letter_of_meets hlow (by omega) h with ⟨d, hd, hin⟩
    exact ⟨d, hd, (hblock d).mpr hin⟩
  · intro h
    rcases h with ⟨d, hd, hfirst⟩
    rcases (hblock d).mp hfirst with ⟨hlowd, hhighd⟩
    have hcontains : letterRanges.contains d = true := by
      unfold isLetter at hd
      rw [if_neg (by omega)] at hd
      exact hd
    exact CodeRanges.meets_of_contains hcontains hlowd hhighd

end PseudocodeTools
