import Mathlib.Data.Nat.Init
import Switchboard.Text.Quoted

/-!
# Quoted texts are told apart

A quoted text says which text it is and where it ends, whatever stands behind it.

**Code points** (`hexDigits_inj`). Different characters have different hexadecimal digits, and none
of the digits is the brace that closes them.

**Characters** (`escapeChar_forms`). A character stands for itself, or is written behind a backslash
in one of two forms.

**Main statements** (`quoted_append_inj`, `record_quoted_inj`). Two quoted texts agree only if the
texts do, and two records of the same fields only if the texts in all fields do.
-/

namespace Switchboard.Text

/-! ## Code points -/

theorem digitChar_inj {a b : Nat} (ha : a < 16) (hb : b < 16) (h : a.digitChar = b.digitChar) :
    a = b := by
  have hall : ∀ a < 16, ∀ b < 16, Nat.digitChar a = Nat.digitChar b → a = b := by decide
  exact hall a ha b hb h

theorem toDigits_inj {m n : Nat} (h : Nat.toDigits 16 m = Nat.toDigits 16 n) : m = n := by
  induction m using Nat.strong_induction_on generalizing n with
  | _ m ih =>
    have hpos : ∀ k, 0 < (Nat.toDigits 16 k).length := fun k => Nat.length_toDigits_pos
    rcases Nat.lt_or_ge m 16 with hm | hm <;> rcases Nat.lt_or_ge n 16 with hn | hn
    · rw [Nat.toDigits_of_lt_base hm, Nat.toDigits_of_lt_base hn] at h
      exact digitChar_inj hm hn (List.head_eq_of_cons_eq h)
    · rw [Nat.toDigits_of_lt_base hm, Nat.toDigits_of_base_le (by decide) hn] at h
      have hlength := congrArg List.length h
      rw [List.length_append, List.length_singleton, List.length_singleton] at hlength
      have := hpos (n / 16)
      omega
    · rw [Nat.toDigits_of_base_le (by decide) hm, Nat.toDigits_of_lt_base hn] at h
      have hlength := congrArg List.length h
      rw [List.length_append, List.length_singleton, List.length_singleton] at hlength
      have := hpos (m / 16)
      omega
    · rw [Nat.toDigits_of_base_le (by decide) hm, Nat.toDigits_of_base_le (by decide) hn] at h
      obtain ⟨hfront, hlast⟩ := List.append_inj' h rfl
      have hdiv : m / 16 = n / 16 := ih (m / 16) (by omega) hfront
      have hmod : m % 16 = n % 16 :=
        digitChar_inj (Nat.mod_lt _ (by decide)) (Nat.mod_lt _ (by decide))
          (List.head_eq_of_cons_eq hlast)
      omega

theorem hexDigits_inj {c d : Char} (h : hexDigits c = hexDigits d) : c = d :=
  Char.toNat_inj.mp (toDigits_inj h)

theorem brace_not_mem_toDigits (n : Nat) : '\x7d' ∉ Nat.toDigits 16 n := by
  have hdigit : ∀ a < 16, '\x7d' ≠ Nat.digitChar a := by decide
  induction n using Nat.strong_induction_on with
  | _ n ih =>
    intro hmem
    rcases Nat.lt_or_ge n 16 with hn | hn
    · rw [Nat.toDigits_of_lt_base hn] at hmem
      exact hdigit n hn (List.mem_singleton.mp hmem)
    · rw [Nat.toDigits_of_base_le (by decide) hn] at hmem
      rcases List.mem_append.mp hmem with hmem | hmem
      · exact ih (n / 16) (by omega) hmem
      · exact hdigit (n % 16) (Nat.mod_lt _ (by decide)) (List.mem_singleton.mp hmem)

/-- What ends with a mark that does not stand within it can be told from what follows. -/
theorem append_cons_inj {α : Type} {x : α} {s t r r' : List α} (hs : x ∉ s) (ht : x ∉ t)
    (h : s ++ x :: r = t ++ x :: r') : s = t ∧ r = r' := by
  induction s generalizing t with
  | nil =>
    cases t with
    | nil => exact ⟨rfl, List.tail_eq_of_cons_eq h⟩
    | cons b t => exact absurd (List.head_eq_of_cons_eq h ▸ List.mem_cons_self) ht
  | cons a s ih =>
    cases t with
    | nil => exact absurd (List.head_eq_of_cons_eq h ▸ List.mem_cons_self) hs
    | cons b t =>
      obtain ⟨hst, hrest⟩ := ih (fun hx => hs (List.mem_cons_of_mem a hx))
        (fun hx => ht (List.mem_cons_of_mem b hx)) (List.tail_eq_of_cons_eq h)
      exact ⟨by rw [hst, List.head_eq_of_cons_eq h], hrest⟩

/-! ## Characters -/

/-- The character that a letter behind a backslash stands for. -/
def shortForm : Char → Option Char
  | 't' => some '\t'
  | 'r' => some '\r'
  | 'n' => some '\n'
  | '0' => some '\x00'
  | '"' => some '"'
  | '\\' => some '\\'
  | _ => none

/-- **A character stands for itself, or behind a backslash as a letter or as its code point.** -/
theorem escapeChar_forms (c : Char) :
    (c ≠ '\\' ∧ c ≠ '"' ∧ escapeChar c = [c]) ∨
      (∃ x, shortForm x = some c ∧ escapeChar c = ['\\', x]) ∨
      escapeChar c = ['\\', 'u', '\x7b'] ++ hexDigits c ++ ['\x7d'] := by
  unfold escapeChar
  by_cases htab : c = '\t'
  · exact Or.inr (Or.inl ⟨'t', by rw [htab]; rfl, if_pos htab⟩)
  rw [if_neg htab]
  by_cases hreturn : c = '\r'
  · exact Or.inr (Or.inl ⟨'r', by rw [hreturn]; rfl, if_pos hreturn⟩)
  rw [if_neg hreturn]
  by_cases hnewline : c = '\n'
  · exact Or.inr (Or.inl ⟨'n', by rw [hnewline]; rfl, if_pos hnewline⟩)
  rw [if_neg hnewline]
  by_cases hnull : c = '\x00'
  · exact Or.inr (Or.inl ⟨'0', by rw [hnull]; rfl, if_pos hnull⟩)
  rw [if_neg hnull]
  by_cases hquote : c = '"'
  · exact Or.inr (Or.inl ⟨'"', by rw [hquote]; rfl, if_pos hquote⟩)
  rw [if_neg hquote]
  by_cases hbackslash : c = '\\'
  · exact Or.inr (Or.inl ⟨'\\', by rw [hbackslash]; rfl, if_pos hbackslash⟩)
  rw [if_neg hbackslash]
  split
  · exact Or.inr (Or.inr rfl)
  · exact Or.inl ⟨hbackslash, hquote, rfl⟩

theorem escapeChar_ne_quote (c : Char) (s r : List Char) : escapeChar c ++ s ≠ '"' :: r := by
  intro h
  rcases escapeChar_forms c with ⟨-, hquote, hform⟩ | ⟨x, -, hform⟩ | hform
  · rw [hform] at h
    exact hquote (List.head_eq_of_cons_eq h)
  · rw [hform] at h
    exact absurd (List.head_eq_of_cons_eq h) (by decide)
  · rw [hform] at h
    exact absurd (List.head_eq_of_cons_eq h) (by decide)

/-- **It can be told which character is written and where the next one begins.** -/
theorem escapeChar_append_inj {c d : Char} {s t : List Char}
    (h : escapeChar c ++ s = escapeChar d ++ t) : c = d ∧ s = t := by
  -- Nothing is written as a letter that stands in front of a code point.
  have hmark : ∀ {x e : Char}, shortForm x = some e → x ≠ 'u' := by
    rintro x e hx rfl
    cases hx
  rcases escapeChar_forms c with ⟨hc, -, hform⟩ | ⟨x, hx, hform⟩ | hform <;>
    rcases escapeChar_forms d with ⟨hd, -, hform'⟩ | ⟨y, hy, hform'⟩ | hform' <;>
    rw [hform, hform'] at h
  · exact ⟨List.head_eq_of_cons_eq h, List.tail_eq_of_cons_eq h⟩
  · exact absurd (List.head_eq_of_cons_eq h) hc
  · exact absurd (List.head_eq_of_cons_eq h) hc
  · exact absurd (List.head_eq_of_cons_eq h).symm hd
  · have htail := List.tail_eq_of_cons_eq h
    have hletter : x = y := List.head_eq_of_cons_eq htail
    rw [hletter, hy] at hx
    exact ⟨(Option.some.inj hx).symm, List.tail_eq_of_cons_eq htail⟩
  · exact absurd (List.head_eq_of_cons_eq (List.tail_eq_of_cons_eq h)) (hmark hx)
  · exact absurd (List.head_eq_of_cons_eq h).symm hd
  · exact absurd (List.head_eq_of_cons_eq (List.tail_eq_of_cons_eq h)).symm (hmark hy)
  · rw [List.append_assoc, List.append_assoc, List.append_assoc, List.append_assoc] at h
    obtain ⟨hdigits, hrest⟩ := append_cons_inj (brace_not_mem_toDigits c.toNat)
      (brace_not_mem_toDigits d.toNat) (List.append_cancel_left h)
    exact ⟨hexDigits_inj hdigits, hrest⟩

/-! ## Texts -/

theorem escape_cons (c : Char) (s : List Char) : escape (c :: s) = escapeChar c ++ escape s :=
  List.flatMap_cons

theorem escape_append_inj {s t r r' : List Char}
    (h : escape s ++ '"' :: r = escape t ++ '"' :: r') : s = t ∧ r = r' := by
  induction s generalizing t with
  | nil =>
    cases t with
    | nil => exact ⟨rfl, List.tail_eq_of_cons_eq h⟩
    | cons d t =>
      rw [escape_cons, List.append_assoc] at h
      exact absurd h.symm (escapeChar_ne_quote d _ r)
  | cons c s ih =>
    cases t with
    | nil =>
      rw [escape_cons, List.append_assoc] at h
      exact absurd h (escapeChar_ne_quote c _ r')
    | cons d t =>
      rw [escape_cons, escape_cons, List.append_assoc, List.append_assoc] at h
      obtain ⟨hchar, hinside⟩ := escapeChar_append_inj h
      obtain ⟨htext, hrest⟩ := ih hinside
      exact ⟨by rw [hchar, htext], hrest⟩

/-- **A quoted text says which text it is and where it ends.** -/
theorem quoted_append_inj {s t r r' : String} (h : quoted s ++ r = quoted t ++ r') :
    s = t ∧ r = r' := by
  have hchars := congrArg String.toList h
  simp only [String.toList_append, quoted, String.toList_ofList, List.cons_append,
    List.append_assoc, List.nil_append] at hchars
  obtain ⟨htext, hrest⟩ := escape_append_inj (List.tail_eq_of_cons_eq hchars)
  exact ⟨String.toList_inj.mp htext, String.toList_inj.mp hrest⟩

/-! ## Records -/

/-- Named texts, each of them quoted. -/
def quotedFields (fields : List (String × String)) : List (String × String) :=
  fields.map fun f => (f.1, quoted f.2)

/-- How the fields of a record stand between its braces. -/
def listed (fields : List (String × String)) : String :=
  String.intercalate ", " ((quotedFields fields).map fun f => f.1 ++ ": " ++ f.2)

theorem listed_singleton (name s : String) : listed [(name, s)] = name ++ ": " ++ quoted s :=
  String.intercalate_singleton

theorem listed_cons (name s : String) {fields : List (String × String)} (h : fields ≠ []) :
    listed ((name, s) :: fields) = name ++ ": " ++ (quoted s ++ (", " ++ listed fields)) := by
  have hne : (quotedFields fields).map (fun f => f.1 ++ ": " ++ f.2) ≠ [] := by
    simpa [quotedFields] using h
  refine (String.intercalate_cons_of_ne_nil hne).trans ?_
  simp only [String.append_assoc, listed]

theorem listed_inj {fields fields' : List (String × String)}
    (hnames : fields.map (·.1) = fields'.map (·.1)) (h : listed fields = listed fields') :
    fields = fields' := by
  induction fields generalizing fields' with
  | nil => exact (List.map_eq_nil_iff.mp hnames.symm).symm
  | cons f fields ih =>
    cases fields' with
    | nil => cases hnames
    | cons g fields' =>
      obtain ⟨hname, hrest⟩ := List.cons.inj hnames
      obtain ⟨name, s⟩ := f
      obtain ⟨_, t⟩ := g
      cases hname
      by_cases hnil : fields = []
      · have hnil' : fields' = [] := by
          rw [hnil] at hrest
          exact List.map_eq_nil_iff.mp hrest.symm
        rw [hnil, hnil', listed_singleton, listed_singleton, String.append_right_inj] at h
        have hquoted : quoted s ++ "" = quoted t ++ "" := by rw [h]
        rw [(quoted_append_inj hquoted).1, hnil, hnil']
      · have hne : fields' ≠ [] := by
          rintro rfl
          exact hnil (List.map_eq_nil_iff.mp hrest)
        rw [listed_cons _ _ hnil, listed_cons _ _ hne, String.append_right_inj] at h
        obtain ⟨htext, hothers⟩ := quoted_append_inj h
        rw [htext, ih hrest ((String.append_right_inj ", ").mp hothers)]

/-- **Records of the same fields agree only if the texts in all of them do.** -/
theorem record_quoted_inj {name : String} {fields fields' : List (String × String)}
    (hnames : fields.map (·.1) = fields'.map (·.1))
    (h : record name (quotedFields fields) = record name (quotedFields fields')) :
    fields = fields' := by
  unfold record at h
  rw [String.append_left_inj, String.append_right_inj] at h
  exact listed_inj hnames h

end Switchboard.Text
