import Mathlib.Data.List.Basic
import Switchboard.Text.Numeral

/-!
# Texts that are counts

**Numerals** (`IsNumeral`). One or more ASCII digits, with their value in decimal.

**Counts** (`IsCount`). A numeral, behind a plus sign if wanted, whose value 64 bits can hold.

**Main statement** (`readCount_eq_some_iff`). Exactly these are read, and as what they are.
-/

namespace Switchboard.Text

/-- One or more ASCII digits and the value they have in decimal. -/
structure IsNumeral (digits : List Char) (n : Nat) : Prop where
  nonempty : digits ≠ []
  digit : ∀ c ∈ digits, '0' ≤ c ∧ c ≤ '9'
  value : Nat.ofDigitChars 10 digits 0 = n

/-- An optional plus sign and a numeral whose value 64 bits can hold. -/
def IsCount (s : String) (n : Nat) : Prop :=
  ∃ digits, (s.toList = digits ∨ s.toList = '+' :: digits) ∧ IsNumeral digits n ∧ n < UInt64.size

variable {s digits : List Char} {acc n : Nat}

/-- A run of characters is read if all of them are digits, and its value goes on top of `acc`. -/
theorem readDigits_eq_some_iff :
    readDigits acc s = some n ↔
      (∀ c ∈ s, '0' ≤ c ∧ c ≤ '9') ∧ Nat.ofDigitChars 10 s acc = n := by
  induction s generalizing acc with
  | nil => simp [readDigits]
  | cons c rest ih =>
    rw [List.forall_mem_cons, Nat.ofDigitChars_cons, Nat.mul_comm 10]
    by_cases hc : '0' ≤ c ∧ c ≤ '9'
    · have hdigit : digit? c = some (c.toNat - '0'.toNat) := if_pos hc
      rw [readDigits, hdigit, Option.bind_some, ih, and_assoc, and_iff_right hc]
    · have hdigit : digit? c = none := if_neg hc
      simp [readDigits, hdigit, hc]

theorem readNumeral_eq_some_iff : readNumeral s = some n ↔ IsNumeral s n := by
  cases s with
  | nil => exact ⟨fun h => (Option.some_ne_none n h.symm).elim, fun h => absurd rfl h.nonempty⟩
  | cons c rest =>
    rw [readNumeral, readDigits_eq_some_iff]
    · exact ⟨fun ⟨hdigit, hvalue⟩ => ⟨List.cons_ne_nil c rest, hdigit, hvalue⟩,
        fun h => ⟨h.digit, h.value⟩⟩
    · exact List.cons_ne_nil c rest

theorem IsNumeral.ne_plus (h : IsNumeral digits n) (rest : List Char) : digits ≠ '+' :: rest := by
  rintro rfl
  exact absurd (h.digit '+' List.mem_cons_self) (by decide)

theorem dropPlus_of_ne (h : ∀ rest, s ≠ '+' :: rest) : dropPlus s = s := by
  unfold dropPlus
  split
  case h_1 rest => exact absurd rfl (h rest)
  case h_2 => rfl

theorem IsNumeral.dropPlus_eq_iff (h : IsNumeral digits n) :
    dropPlus s = digits ↔ s = digits ∨ s = '+' :: digits := by
  by_cases hsign : ∃ rest, s = '+' :: rest
  · obtain ⟨rest, rfl⟩ := hsign
    have hne : '+' :: rest ≠ digits := fun heq => h.ne_plus rest heq.symm
    simp [dropPlus, hne]
  · push Not at hsign
    rw [dropPlus_of_ne hsign]
    exact (or_iff_left (hsign digits)).symm

/-- **Counts are read as what they are, and nothing else is read.** -/
theorem readCount_eq_some_iff (s : String) (n : Nat) : readCount s = some n ↔ IsCount s n := by
  have hfits : n ≤ maxCount ↔ n < UInt64.size := Nat.lt_succ_iff.symm
  rw [readCount, Option.filter_eq_some_iff, readNumeral_eq_some_iff, decide_eq_true_iff, hfits]
  constructor
  · rintro ⟨hnumeral, hlt⟩
    exact ⟨dropPlus s.toList, hnumeral.dropPlus_eq_iff.mp rfl, hnumeral, hlt⟩
  · rintro ⟨digits, hform, hnumeral, hlt⟩
    rw [hnumeral.dropPlus_eq_iff.mpr hform]
    exact ⟨hnumeral, hlt⟩

/-- Zeros may lead, the sign alone is no count, and the largest one is the last. -/
example : ["+007", "+", " 1", "18446744073709551615", "18446744073709551616"].map readCount =
    [some 7, none, none, some 18446744073709551615, none] := by
  decide +kernel

end Switchboard.Text
