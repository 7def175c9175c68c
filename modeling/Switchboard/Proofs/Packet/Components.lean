import Mathlib.Data.List.Infix
import Switchboard.Packet.DisplayName
import Switchboard.Proofs.Text.Trimming

/-!
# Display names are last components

A raw name is stripped of white space and markers, and what is left is a path whose components are
divided by points and double colons.

**Cuts** (`Cuts`). A path can be cut behind each separator that stands in it, and the double colons
may overlap. The parts behind the cuts are suffixes of each other, and the display name is the
shortest (`LastCut`), unless that is empty.

**Main statement** (`displayName_is_last_component`). The display name of every raw name, and that
a display name is its own.
-/

namespace Switchboard.Packet

open Text (isBlank)

variable {c : Char} {path rest tail other raw : List Char}

/-! ## Separators -/

/-- The texts that divide the components of a path. -/
def separators : List (List Char) := [['.'], [':', ':']]

/-- A separator stands in a path with `tail` right behind it. -/
def Cuts (path tail : List Char) : Prop := ∃ s ∈ separators, s ++ tail <:+ path

theorem cuts_iff :
    Cuts path tail ↔ '.' :: tail <:+ path ∨ ':' :: ':' :: tail <:+ path := by
  simp [Cuts, separators]

theorem cuts_nil : ¬ Cuts [] tail := by
  simp [cuts_iff]

theorem cuts_cons :
    Cuts (c :: rest) tail ↔
      Cuts rest tail ∨ (c = '.' ∧ rest = tail) ∨ (c = ':' ∧ rest = ':' :: tail) := by
  simp only [cuts_iff, List.suffix_cons_iff, List.cons.injEq, eq_comm (a := '.'),
    eq_comm (a := ':') (b := c), eq_comm (b := rest)]
  tauto

theorem Cuts.suffix_path (h : Cuts path tail) : tail <:+ path := by
  obtain ⟨s, -, hs⟩ := h
  exact (List.suffix_append s tail).trans hs

theorem Cuts.suffix_rest (h : Cuts (c :: rest) tail) : tail <:+ rest := by
  rcases cuts_cons.mp h with hrest | ⟨-, rfl⟩ | ⟨-, rfl⟩
  · exact hrest.suffix_path
  · exact List.suffix_refl _
  · exact List.suffix_cons _ _

theorem Cuts.length_lt (h : Cuts path tail) : tail.length < path.length := by
  cases path with
  | nil => exact absurd h cuts_nil
  | cons c rest => exact Nat.lt_succ_of_le h.suffix_rest.length_le

theorem Cuts.of_suffix {part : List Char} (h : Cuts part tail) (hpart : part <:+ path) :
    Cuts path tail := by
  obtain ⟨s, hmem, hs⟩ := h
  exact ⟨s, hmem, hs.trans hpart⟩

theorem exists_cuts_iff : (∃ tail, Cuts path tail) ↔ ∃ s ∈ separators, s <:+: path := by
  constructor
  · rintro ⟨tail, s, hs, front, hpath⟩
    exact ⟨s, hs, front, tail, by rw [← hpath, List.append_assoc]⟩
  · rintro ⟨s, hs, front, tail, hpath⟩
    exact ⟨tail, s, hs, front, by rw [← hpath, List.append_assoc]⟩

theorem cuts_nil_iff : Cuts path [] ↔ ∃ s ∈ separators, s <:+ path := by
  simp only [Cuts, List.append_nil]

/-! ## The last cut -/

/-- A path can be cut before `tail`, and whatever is behind a cut ends with it. -/
structure LastCut (path tail : List Char) : Prop where
  cuts : Cuts path tail
  least : ∀ other, Cuts path other → tail <:+ other

/-- A character in front does not move the last cut. -/
theorem LastCut.cons (h : LastCut rest tail) (c : Char) : LastCut (c :: rest) tail := by
  refine ⟨cuts_cons.mpr (Or.inl h.cuts), ?_⟩
  intro other hother
  rcases cuts_cons.mp hother with hother | ⟨-, rfl⟩ | ⟨-, rfl⟩
  · exact h.least other hother
  · exact h.cuts.suffix_path
  · exact h.cuts.suffix_rest

theorem lastCut_point (h : ∀ other, ¬ Cuts rest other) : LastCut ('.' :: rest) rest := by
  refine ⟨cuts_cons.mpr (Or.inr (Or.inl ⟨rfl, rfl⟩)), ?_⟩
  intro other hother
  rcases cuts_cons.mp hother with hother | ⟨-, rfl⟩ | ⟨hcolon, -⟩
  · exact absurd hother (h other)
  · exact List.suffix_refl _
  · exact absurd hcolon (by decide)

theorem lastCut_colons (h : ∀ other, ¬ Cuts (':' :: tail) other) :
    LastCut (':' :: ':' :: tail) tail := by
  refine ⟨cuts_cons.mpr (Or.inr (Or.inr ⟨rfl, rfl⟩)), ?_⟩
  intro other hother
  rcases cuts_cons.mp hother with hother | ⟨hpoint, -⟩ | ⟨-, heq⟩
  · exact absurd hother (h other)
  · exact absurd hpoint (by decide)
  · rw [(List.cons.inj heq).2]

/-- Nothing can be cut behind the last cut. -/
theorem LastCut.not_cuts (h : LastCut path tail) (other : List Char) : ¬ Cuts tail other := by
  intro hother
  have hsuffix := h.least other (hother.of_suffix h.cuts.suffix_path)
  exact Nat.not_le_of_lt hother.length_lt hsuffix.length_le

/-! ## Looking for it -/

theorem afterSeparator_of_some (h : afterSeparator rest = some tail) (c : Char) :
    afterSeparator (c :: rest) = some tail := by
  unfold afterSeparator
  rw [h]

theorem afterSeparator_point (h : afterSeparator rest = none) :
    afterSeparator ('.' :: rest) = some rest := by
  unfold afterSeparator
  rw [h]
  rfl

theorem afterSeparator_colons (h : afterSeparator (':' :: tail) = none) :
    afterSeparator (':' :: ':' :: tail) = some tail := by
  rw [afterSeparator, h]
  rfl

theorem afterSeparator_of_none (h : afterSeparator rest = none) (hpoint : c ≠ '.')
    (hcolons : ¬ ∃ tail, c = ':' ∧ rest = ':' :: tail) : afterSeparator (c :: rest) = none := by
  unfold afterSeparator
  rw [h]
  simp only [if_neg hpoint]
  split
  · exact absurd ⟨_, rfl, rfl⟩ hcolons
  · rfl

/-- **What follows the last separator** is behind the last cut; without one there is no cut. -/
theorem afterSeparator_spec (path : List Char) :
    (afterSeparator path = none ∧ ∀ tail, ¬ Cuts path tail) ∨
      ∃ tail, afterSeparator path = some tail ∧ LastCut path tail := by
  induction path with
  | nil => exact Or.inl ⟨rfl, fun _ => cuts_nil⟩
  | cons c rest ih =>
    rcases ih with ⟨hnone, hno⟩ | ⟨tail, hsome, hlast⟩
    · by_cases hpoint : c = '.'
      · subst hpoint
        exact Or.inr ⟨rest, afterSeparator_point hnone, lastCut_point hno⟩
      · by_cases hcolons : ∃ tail, c = ':' ∧ rest = ':' :: tail
        · obtain ⟨tail, rfl, rfl⟩ := hcolons
          exact Or.inr ⟨tail, afterSeparator_colons hnone, lastCut_colons hno⟩
        · refine Or.inl ⟨afterSeparator_of_none hnone hpoint hcolons, ?_⟩
          intro tail hcut
          rcases cuts_cons.mp hcut with hcut | ⟨h, -⟩ | h
          · exact hno tail hcut
          · exact hpoint h
          · exact hcolons ⟨tail, h⟩
    · exact Or.inr ⟨tail, afterSeparator_of_some hsome c, hlast.cons c⟩

/-! ## The last component -/

/-- A path without separators, or with one at its end, is kept whole. -/
theorem lastComponent_whole (h : (∀ tail, ¬ Cuts path tail) ∨ Cuts path []) :
    lastComponent path = path := by
  rw [lastComponent]
  rcases afterSeparator_spec path with ⟨hnone, -⟩ | ⟨tail, hsome, hlast⟩
  · rw [hnone]
  · rcases h with hno | hends
    · exact absurd hlast.cuts (hno tail)
    · rw [hsome, List.eq_nil_of_suffix_nil (hlast.least [] hends)]

/-- Any other path is cut behind its last separator. -/
theorem lastComponent_part (h : ∃ tail, Cuts path tail) (hends : ¬ Cuts path []) :
    lastComponent path ≠ [] ∧ LastCut path (lastComponent path) := by
  rcases afterSeparator_spec path with ⟨-, hno⟩ | ⟨tail, hsome, hlast⟩
  · obtain ⟨tail, hcut⟩ := h
    exact absurd hcut (hno tail)
  · cases tail with
    | nil => exact absurd hlast.cuts hends
    | cons c rest =>
      rw [lastComponent, hsome]
      exact ⟨List.cons_ne_nil c rest, hlast⟩

theorem lastComponent_suffix (path : List Char) : lastComponent path <:+ path := by
  by_cases h : (∀ tail, ¬ Cuts path tail) ∨ Cuts path []
  · rw [lastComponent_whole h]
  · push Not at h
    exact (lastComponent_part h.1 h.2).2.cuts.suffix_path

theorem lastComponent_eq_nil_iff : lastComponent path = [] ↔ path = [] := by
  by_cases h : (∀ tail, ¬ Cuts path tail) ∨ Cuts path []
  · rw [lastComponent_whole h]
  · push Not at h
    refine ⟨fun hnil => absurd hnil (lastComponent_part h.1 h.2).1, ?_⟩
    rintro rfl
    exact absurd h.1.choose_spec cuts_nil

/-- The last component of a path is its own. -/
theorem lastComponent_lastComponent (path : List Char) :
    lastComponent (lastComponent path) = lastComponent path := by
  by_cases h : (∀ tail, ¬ Cuts path tail) ∨ Cuts path []
  · rw [lastComponent_whole h, lastComponent_whole h]
  · push Not at h
    apply lastComponent_whole
    exact Or.inl (lastComponent_part h.1 h.2).2.not_cuts

/-! ## Stripping -/

/-- `t` is what is left of a text without the white space at its ends and, after that, without all
the markers in front. -/
def Stripped (raw t : List Char) : Prop :=
  ∃ lead marks trail, raw = lead ++ (marks ++ t) ++ trail ∧
    (∀ c ∈ lead, isBlank c = true) ∧ (∀ c ∈ trail, isBlank c = true) ∧
    (marks ++ t).head?.any isBlank = false ∧ (marks ++ t).getLast?.any isBlank = false ∧
    (∀ c ∈ marks, isMarker c = true) ∧ t.head?.any isMarker = false

theorem stripped_bare (raw : List Char) : Stripped raw (bare raw) := by
  obtain ⟨lead, trail, hraw, hlead, htrail⟩ := Text.exists_trimChars raw
  obtain ⟨marks, hmarks, hmarker⟩ := Text.exists_dropWhile isMarker (Text.trimChars raw)
  have hbare : Text.trimChars raw = marks ++ bare raw := hmarks
  have hhead := Text.head?_trimChars raw
  have hlast := Text.getLast?_trimChars raw
  rw [hbare] at hraw hhead hlast
  exact ⟨lead, marks, trail, hraw, hlead, htrail, hhead, hlast, hmarker,
    Text.head?_dropWhile isMarker _⟩

theorem getLast?_bare (raw : List Char) : (bare raw).getLast?.any isBlank = false :=
  Text.getLast?_of_suffix (List.dropWhile_suffix _) (Text.getLast?_trimChars raw)

/-- A text with neither white space at its ends nor a marker in front stays as it is. -/
theorem bare_of_ends {s : List Char} (hhead : s.head?.any isBlank = false)
    (hlast : s.getLast?.any isBlank = false) (hmarker : s.head?.any isMarker = false) :
    bare s = s := by
  rw [bare, Text.trimChars_of_ends hhead hlast, Text.dropWhile_of_head? hmarker]

/-! ## Display names -/

theorem displayName_eq (raw : String) :
    displayName raw =
      if bare raw.toList = [] then none
      else some (String.ofList (lastComponent (bare raw.toList))) := by
  rw [displayName]
  split
  · rename_i hnil
    rw [if_pos (lastComponent_eq_nil_iff.mp hnil)]
  · rename_i hne
    rw [if_neg fun h => hne (lastComponent_eq_nil_iff.mpr h)]

theorem displayName_eq_some {raw name : String} (h : displayName raw = some name) :
    bare raw.toList ≠ [] ∧ name.toList = lastComponent (bare raw.toList) := by
  rw [displayName_eq] at h
  split at h
  · cases h
  · rename_i hne
    rw [← Option.some.inj h, String.toList_ofList]
    exact ⟨hne, rfl⟩

/-- **The display name of a raw name is the last component of its path.**

Let `t` be the raw name without the white space at its ends and then without all the markers in
front. There is a display name unless `t` is empty. It is `t` itself if no separator stands in `t`
or if one stands at its end. Otherwise it is the part behind the last separator, which ends whatever
is behind a separator: it is not empty, and no separator stands in it. A display name that does not
itself start with white space or a marker is its own display name. -/
theorem displayName_is_last_component (raw : String) :
    Stripped raw.toList (bare raw.toList) ∧
      let t := bare raw.toList
      (displayName raw = none ↔ t = []) ∧
      (t ≠ [] → (∀ s ∈ separators, ¬ s <:+: t) ∨ (∃ s ∈ separators, s <:+ t) →
        displayName raw = some (String.ofList t)) ∧
      ((∃ s ∈ separators, s <:+: t) → (∀ s ∈ separators, ¬ s <:+ t) →
        ∃ tail, displayName raw = some (String.ofList tail) ∧ tail ≠ [] ∧
          (∃ s ∈ separators, s ++ tail <:+ t) ∧
          (∀ s ∈ separators, ∀ other, s ++ other <:+ t → tail <:+ other) ∧
          ∀ s ∈ separators, ¬ s <:+: tail) ∧
      ∀ name, displayName raw = some name → name.toList.head?.any isBlank = false →
        name.toList.head?.any isMarker = false → displayName name = some name := by
  refine ⟨stripped_bare _, ?_⟩
  intro t
  refine ⟨?none, fun hne hwhole => ?whole, fun hcut hends => ?part,
    fun name hname hblank hmarker => ?own⟩
  case none =>
    rw [displayName_eq]
    by_cases ht : bare raw.toList = [] <;> simp [t, ht]
  case whole =>
    have hkept : (∀ tail, ¬ Cuts t tail) ∨ Cuts t [] := by
      refine hwhole.imp (fun hnone tail hcut => ?_) cuts_nil_iff.mpr
      obtain ⟨s, hs, hinfix⟩ := exists_cuts_iff.mp ⟨tail, hcut⟩
      exact hnone s hs hinfix
    rw [displayName_eq, if_neg hne, lastComponent_whole hkept]
  case part =>
    have hends' : ¬ Cuts t [] := by
      intro h
      obtain ⟨s, hs, hsuffix⟩ := cuts_nil_iff.mp h
      exact hends s hs hsuffix
    have hsome := exists_cuts_iff.mpr hcut
    have hne : t ≠ [] := by
      intro hnil
      rw [hnil] at hsome
      exact cuts_nil hsome.choose_spec
    obtain ⟨hpart, hlast⟩ := lastComponent_part hsome hends'
    refine ⟨lastComponent t, ?_, hpart, hlast.cuts,
      fun s hs other h => hlast.least other ⟨s, hs, h⟩, ?_⟩
    · rw [displayName_eq, if_neg hne]
    · intro s hs hinfix
      obtain ⟨other, hother⟩ := exists_cuts_iff.mpr ⟨s, hs, hinfix⟩
      exact hlast.not_cuts other hother
  case own =>
    obtain ⟨hne, hcomponent⟩ := displayName_eq_some hname
    have hlast : name.toList.getLast?.any isBlank = false := by
      rw [hcomponent]
      exact Text.getLast?_of_suffix (lastComponent_suffix _) (getLast?_bare _)
    -- The name begins as assumed and ends where the stripped text ends.
    have hbare := bare_of_ends hblank hlast hmarker
    have hown : lastComponent name.toList = name.toList := by
      rw [hcomponent, lastComponent_lastComponent]
    have hne' : name.toList ≠ [] := by
      rw [hcomponent]
      exact fun hnil => hne (lastComponent_eq_nil_iff.mp hnil)
    rw [displayName_eq, hbare, if_neg hne', hown, String.ofList_toList]

/-- Colons may overlap, a single one does not divide, and only the markers in front go. -/
example : ["*packet.Text", "a:::B", "a.:", "a::", "* *b"].map displayName =
    [some "Text", some "B", some ":", some "a::", some " *b"] := by
  decide

end Switchboard.Packet
