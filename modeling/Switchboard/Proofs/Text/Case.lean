import Mathlib.Data.List.Forall2
import Switchboard.Text.Blank
import Switchboard.Text.Lower

/-!
# Words up to case

Which texts become a given word when their capitals are made small.

**Alike letters** (`Alike`). A character is like itself, and the capital of an ASCII letter is like
its small form. Two texts with the same letters (`SameLetters`) are alike character by character.

**Beyond ASCII** (`exists_mem_lowerChar`). What is made small keeps a character beyond ASCII if it
had one, except that the Kelvin sign becomes a `k`. So a word of ASCII letters without a `k`
(`Plain`) comes of ASCII letters only.

**Main statements** (`lowerAscii_eq_iff`, `lower_eq_iff`). Whether just the ASCII capitals are made
small or those of all scripts, such a word comes of the texts with the same letters.
-/

namespace Switchboard.Text

/-! ## Alike letters -/

/-- The same character, or the capital and the small form of one ASCII letter. -/
inductive Alike : Char → Char → Prop
  | same (c : Char) : Alike c c
  | capital {c d : Char} (hc : 'A' ≤ c ∧ c ≤ 'Z') (hd : d.toNat = c.toNat + 32) : Alike c d
  | small {c d : Char} (hd : 'A' ≤ d ∧ d ≤ 'Z') (hc : c.toNat = d.toNat + 32) : Alike c d

/-- Two texts that differ in nothing but the case of ASCII letters. -/
def SameLetters (s t : String) : Prop := List.Forall₂ Alike s.toList t.toList

theorem capital_iff {c : Char} : 'A' ≤ c ∧ c ≤ 'Z' ↔ 65 ≤ c.toNat ∧ c.toNat ≤ 90 := by
  simp [Char.le_def, UInt32.le_iff_toNat_le]

theorem toNat_toLower (c : Char) :
    c.toLower.toNat = if 65 ≤ c.toNat ∧ c.toNat ≤ 90 then c.toNat + 32 else c.toNat := by
  have hcapital : (c.val ≥ 'A'.val ∧ c.val ≤ 'Z'.val) ↔ 65 ≤ c.toNat ∧ c.toNat ≤ 90 :=
    capital_iff
  unfold Char.toLower
  by_cases hc : 65 ≤ c.toNat ∧ c.toNat ≤ 90
  · rw [dif_pos (hcapital.mpr hc), if_pos hc, Char.toNat_mk, UInt32.toNat_add, Char.toNat_val]
    have hdistance : ('a'.val - 'A'.val).toNat = 32 := by decide
    rw [hdistance, Nat.mod_eq_of_lt (by omega)]
  · rw [dif_neg (mt hcapital.mp hc), if_neg hc]

theorem alike_iff {c d : Char} : Alike c d ↔ c.toLower = d.toLower := by
  rw [← Char.toNat_inj, toNat_toLower, toNat_toLower]
  constructor
  · rintro (_ | ⟨hc, hd⟩ | ⟨hd, hc⟩)
    case same => rfl
    case capital =>
      rw [capital_iff] at hc
      rw [if_pos hc, if_neg (by omega), hd]
    case small =>
      rw [capital_iff] at hd
      rw [if_neg (by omega), if_pos hd, hc]
  · intro h
    by_cases hc : 65 ≤ c.toNat ∧ c.toNat ≤ 90
    · rw [if_pos hc] at h
      by_cases hd : 65 ≤ d.toNat ∧ d.toNat ≤ 90
      · rw [if_pos hd] at h
        exact Char.toNat_inj.mp (Nat.add_right_cancel h) ▸ Alike.same c
      · rw [if_neg hd] at h
        exact Alike.capital (capital_iff.mpr hc) h.symm
    · rw [if_neg hc] at h
      by_cases hd : 65 ≤ d.toNat ∧ d.toNat ≤ 90
      · rw [if_pos hd] at h
        exact Alike.small (capital_iff.mpr hd) h
      · rw [if_neg hd] at h
        exact Char.toNat_inj.mp h ▸ Alike.same c

theorem sameLetters_iff {s t : String} :
    SameLetters s t ↔ s.toList.map Char.toLower = t.toList.map Char.toLower := by
  rw [← List.forall₂_eq_eq_eq, List.forall₂_map_left_iff, List.forall₂_map_right_iff]
  simp only [SameLetters, ← alike_iff]

theorem SameLetters.ascii {s t : String} (h : SameLetters s t)
    (ht : ∀ c ∈ t.toList, c.toNat < 0x80) : ∀ c ∈ s.toList, c.toNat < 0x80 := by
  intro c hc
  have hlower : c.toLower ∈ t.toList.map Char.toLower :=
    sameLetters_iff.mp h ▸ List.mem_map_of_mem hc
  obtain ⟨d, hd, heq⟩ := List.mem_map.mp hlower
  have hd' : d.toNat < 0x80 := ht d hd
  cases alike_iff.mpr heq with
  | same => exact hd'
  | capital hcapital hcode =>
    have hlast := (capital_iff.mp hcapital).2
    omega
  | small _ hcode => omega

/-! ## Within ASCII -/

/-- A word of small letters, digits and other ASCII characters, without a `k`. -/
def Plain (w : String) : Prop := ∀ c ∈ w.toList, c.toLower = c ∧ c ≠ 'k' ∧ c.toNat < 0x80

instance (w : String) : Decidable (Plain w) := List.decidableBAll _ w.toList

theorem Plain.map_toLower {w : String} (hw : Plain w) : w.toList.map Char.toLower = w.toList :=
  (List.map_congr_left fun c hc => (hw c hc).1).trans (List.map_id _)

/-- **Making the ASCII capitals small gives a word exactly if the letters are the same.** -/
theorem lowerAscii_eq_iff {s w : String} (hw : Plain w) :
    lowerAscii s = w ↔ SameLetters s w := by
  rw [sameLetters_iff, hw.map_toLower, lowerAscii, ← String.toList_inj, String.toList_ofList]

theorem lowerChar_of_ascii {c : Char} (h : c.toNat < 0x80) : lowerChar c = [c.toLower] := if_pos h

theorem lowerChars_of_ascii (before : List Char) {s : List Char} (h : ∀ c ∈ s, c.toNat < 0x80) :
    lowerChars before s = s.map Char.toLower := by
  induction s generalizing before with
  | nil => rfl
  | cons c rest ih =>
    obtain ⟨hc, hrest⟩ := List.forall_mem_cons.mp h
    have hsigma : c ≠ 'Σ' := by
      rintro rfl
      exact absurd hc (by decide)
    rw [lowerChars, if_neg hsigma, lowerChar_of_ascii hc, ih (c :: before) hrest]
    rfl

/-! ## Beyond ASCII -/

theorem CapitalRun.small?_eq_some {r : CapitalRun} {n m : Nat} (h : r.small? n = some m) :
    r.small ≤ m ∧ m ≤ r.small + (r.last - r.first) := by
  unfold CapitalRun.small? at h
  split at h
  case isTrue hn =>
    obtain ⟨hfirst, hlast, -⟩ := hn
    cases h
    omega
  case isFalse => cases h

/-- The small form that a run gives lies beyond ASCII. -/
theorem le_toNat_ofNat {n m : Nat} (h : capitalRuns.findSome? (·.small? n) = some m) :
    0x80 ≤ (Char.ofNat m).toNat := by
  obtain ⟨r, hr, hm⟩ := List.exists_of_findSome?_eq_some h
  obtain ⟨hsmall, hvalid⟩ := capitalRuns_beyond r hr
  obtain ⟨hfirst, hlast⟩ := CapitalRun.small?_eq_some hm
  have hchar : m.isValidChar := by
    rcases hvalid with hbelow | ⟨habove, hbelow⟩
    · exact Or.inl (by omega)
    · exact Or.inr ⟨by omega, by omega⟩
  have hcode : (Char.ofNat m).toNat = m := by
    rw [Char.ofNat, dif_pos hchar]
    rfl
  omega

/-- **A character beyond ASCII keeps one in its small form, the Kelvin sign apart.** -/
theorem exists_mem_lowerChar {c : Char} (h : 0x80 ≤ c.toNat) :
    ∃ x ∈ lowerChar c, x = 'k' ∨ 0x80 ≤ x.toNat := by
  unfold lowerChar
  rw [if_neg (by omega)]
  by_cases hdotted : c = '\u0130'
  · rw [if_pos hdotted]
    exact ⟨'\u0307', List.mem_cons_of_mem _ (List.mem_singleton_self _), Or.inr (by decide)⟩
  rw [if_neg hdotted]
  by_cases hkelvin : c = '\u212a'
  · rw [if_pos hkelvin]
    exact ⟨'k', List.mem_singleton_self _, Or.inl rfl⟩
  rw [if_neg hkelvin]
  refine ⟨_, List.mem_singleton_self _, Or.inr ?_⟩
  cases hrun : capitalRuns.findSome? (·.small? c.toNat) with
  | none => exact h
  | some m => exact le_toNat_ofNat hrun

theorem ascii_of_lowerChars (before : List Char) {s : List Char}
    (h : ∀ x ∈ lowerChars before s, x ≠ 'k' ∧ x.toNat < 0x80) : ∀ c ∈ s, c.toNat < 0x80 := by
  induction s generalizing before with
  | nil => exact fun c hc => absurd hc List.not_mem_nil
  | cons c rest ih =>
    rw [lowerChars] at h
    have hfront := fun x hx => h x (List.mem_append_left _ hx)
    have hrest := ih (c :: before) fun x hx => h x (List.mem_append_right _ hx)
    refine List.forall_mem_cons.mpr ⟨?_, hrest⟩
    by_contra hc
    by_cases hsigma : c = 'Σ'
    · rw [if_pos hsigma] at hfront
      have hform := (hfront _ (List.mem_singleton_self _)).2
      split at hform <;> exact absurd hform (by decide)
    · rw [if_neg hsigma] at hfront
      obtain ⟨x, hx, hk | hbeyond⟩ := exists_mem_lowerChar (Nat.not_lt.mp hc)
      · exact (hfront x hx).1 hk
      · exact absurd (hfront x hx).2 (by omega)

/-- **Making all capitals small gives a word exactly if the letters are the same.** -/
theorem lower_eq_iff {s w : String} (hw : Plain w) : lower s = w ↔ SameLetters s w := by
  have hchars : lower s = w ↔ lowerChars [] s.toList = w.toList := by
    rw [lower, ← String.toList_inj, String.toList_ofList]
  -- Both sides make `s` ASCII, and there a letter is made small without a look at its neighbours.
  have hascii : (∀ c ∈ s.toList, c.toNat < 0x80) → (lower s = w ↔ SameLetters s w) := by
    intro hs
    rw [hchars, lowerChars_of_ascii [] hs, sameLetters_iff, hw.map_toLower]
  constructor
  · intro h
    refine (hascii (ascii_of_lowerChars [] fun x hx => ?_)).mp h
    rw [hchars.mp h] at hx
    exact (hw x hx).2
  · intro h
    exact (hascii (h.ascii fun c hc => (hw c hc).2.2)).mpr h

theorem lower_mem_iff {s : String} {words : List String} (hplain : ∀ w ∈ words, Plain w) :
    lower s ∈ words ↔ ∃ w ∈ words, SameLetters s w :=
  ⟨fun h => ⟨lower s, h, (lower_eq_iff (hplain _ h)).mp rfl⟩,
    fun ⟨w, hw, hsame⟩ => (lower_eq_iff (hplain w hw)).mpr hsame ▸ hw⟩

end Switchboard.Text
