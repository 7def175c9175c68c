import Mathlib.Data.Finset.Card
import Mathlib.Data.List.Induction
import Switchboard.Packet.Catalog

/-!
# What the tables of a catalog list

The entries of a catalog are written into two tables one after the other, and each table keeps what
was written last. So what is listed for a display name or an identifier is decided by the last
usable entry that has it, however the two collide.

**Main statement** (`last_usable_entry_wins`). Both tables of every catalog, how they belong
together, and when one is the inverse of the other.
-/

namespace Switchboard.Packet

variable {catalog : List Entry} {e : Entry} {name : String} {id : Nat}

/-! ## Usable entries -/

/-- Whether an entry has a display name. -/
def Entry.isUsable (e : Entry) : Bool := e.display?.isSome

theorem Entry.isUsable_of_display (h : e.display? = some name) : e.isUsable = true := by
  rw [isUsable, h]
  rfl

/-- The last entry of a catalog that passes a test. -/
def lastWhere (test : Entry → Bool) (catalog : List Entry) : Option Entry :=
  (catalog.filter test).getLast?

theorem lastWhere_concat (test : Entry → Bool) (catalog : List Entry) (e : Entry) :
    lastWhere test (catalog ++ [e]) = if test e then some e else lastWhere test catalog := by
  rw [lastWhere, List.filter_append]
  by_cases he : test e = true
  · simp [he]
  · simp [he, lastWhere]

theorem mem_of_lastWhere {test : Entry → Bool} (h : lastWhere test catalog = some e) :
    e ∈ catalog ∧ test e = true :=
  List.mem_filter.mp (List.mem_of_getLast? h)

theorem exists_lastWhere (test : Entry → Bool) (he : e ∈ catalog) (ht : test e = true) :
    ∃ f, lastWhere test catalog = some f := by
  have hne : catalog.filter test ≠ [] := List.ne_nil_of_mem (List.mem_filter.mpr ⟨he, ht⟩)
  exact ⟨_, List.getLast?_eq_some_getLast hne⟩

/-- The last entry with a display name. -/
def lastNamed (catalog : List Entry) (name : String) : Option Entry :=
  lastWhere (fun e => e.display? = some name) catalog

/-- The last usable entry with an identifier. -/
def lastWithId (catalog : List Entry) (id : Nat) : Option Entry :=
  lastWhere (fun e => e.isUsable && e.id = id) catalog

/-! ## One more entry -/

theorem lastNamed_concat (catalog : List Entry) (e : Entry) (name : String) :
    lastNamed (catalog ++ [e]) name =
      if e.display? = some name then some e else lastNamed catalog name := by
  simp only [lastNamed, lastWhere_concat, decide_eq_true_eq]

theorem lastWithId_concat (catalog : List Entry) (e : Entry) (id : Nat) :
    lastWithId (catalog ++ [e]) id =
      if e.isUsable && e.id = id then some e else lastWithId catalog id := by
  simp only [lastWithId, lastWhere_concat]

namespace Names

theorem add_of_unusable (t : Names) (h : e.isUsable = false) : t.add e = t := by
  have hnone : e.display? = none := by simpa [Entry.isUsable] using h
  rw [add, hnone]

theorem id?_add (t : Names) (e : Entry) (name : String) :
    (t.add e).id? name = if e.display? = some name then some e.id else t.id? name := by
  rw [add]
  cases h : e.display? with
  | none => simp
  | some n =>
    rw [id?, Table.get?_insert]
    simp [id?, eq_comm]

theorem name?_add (t : Names) (e : Entry) (id : Nat) :
    (t.add e).name? id = if e.isUsable && e.id = id then e.display? else t.name? id := by
  rw [add, Entry.isUsable]
  cases h : e.display? with
  | none => simp
  | some n =>
    rw [name?, Table.get?_insert]
    simp [name?, eq_comm]

theorem ofCatalog_concat (catalog : List Entry) (e : Entry) :
    ofCatalog (catalog ++ [e]) = (ofCatalog catalog).add e :=
  List.foldl_append ..

/-! ## Whole catalogs -/

/-- **The last entry with a display name wins.** -/
theorem id?_ofCatalog (catalog : List Entry) (name : String) :
    (ofCatalog catalog).id? name = (lastNamed catalog name).map (·.id) := by
  induction catalog using List.reverseRecOn with
  | nil => rfl
  | append_singleton catalog e ih =>
    rw [ofCatalog_concat, id?_add, lastNamed_concat, ih]
    by_cases h : e.display? = some name
    · rw [if_pos h, if_pos h, Option.map_some]
    · rw [if_neg h, if_neg h]

/-- **The last usable entry with an identifier wins.** -/
theorem name?_ofCatalog (catalog : List Entry) (id : Nat) :
    (ofCatalog catalog).name? id = (lastWithId catalog id).bind (·.display?) := by
  induction catalog using List.reverseRecOn with
  | nil => rfl
  | append_singleton catalog e ih =>
    rw [ofCatalog_concat, name?_add, lastWithId_concat, ih]
    by_cases h : (e.isUsable && e.id = id) = true
    · rw [if_pos h, if_pos h, Option.bind_some]
    · rw [if_neg h, if_neg h]

/-- Unusable entries have no effect. -/
theorem ofCatalog_filter (catalog : List Entry) :
    ofCatalog (catalog.filter (·.isUsable)) = ofCatalog catalog := by
  induction catalog using List.reverseRecOn with
  | nil => rfl
  | append_singleton catalog e ih =>
    rw [List.filter_append, ofCatalog_concat, ← ih]
    by_cases h : e.isUsable = true
    · rw [List.filter_cons_of_pos h, List.filter_nil, ofCatalog_concat]
    · rw [List.filter_cons_of_neg h, List.filter_nil, List.append_nil,
        add_of_unusable _ (Bool.eq_false_iff.mpr h)]

theorem exists_of_name? (h : (ofCatalog catalog).name? id = some name) :
    ∃ e ∈ catalog, e.id = id ∧ e.display? = some name := by
  rw [name?_ofCatalog, Option.bind_eq_some_iff] at h
  obtain ⟨e, hlast, hname⟩ := h
  obtain ⟨hmem, htest⟩ := mem_of_lastWhere hlast
  rw [Bool.and_eq_true] at htest
  exact ⟨e, hmem, of_decide_eq_true htest.2, hname⟩

theorem exists_of_id? (h : (ofCatalog catalog).id? name = some id) :
    ∃ e ∈ catalog, e.id = id ∧ e.display? = some name := by
  rw [id?_ofCatalog, Option.map_eq_some_iff] at h
  obtain ⟨e, hlast, hid⟩ := h
  obtain ⟨hmem, htest⟩ := mem_of_lastWhere hlast
  exact ⟨e, hmem, hid, of_decide_eq_true htest⟩

theorem exists_id?_of_mem (he : e ∈ catalog) (hname : e.display? = some name) :
    ∃ id, (ofCatalog catalog).id? name = some id := by
  obtain ⟨f, hlast⟩ := exists_lastWhere (fun e => e.display? = some name) he (decide_eq_true hname)
  exact ⟨f.id, by rw [id?_ofCatalog, lastNamed, hlast]; rfl⟩

theorem exists_name?_of_mem (he : e ∈ catalog) (hname : e.display? = some name) :
    ∃ other, (ofCatalog catalog).name? e.id = some other := by
  have husable := Entry.isUsable_of_display hname
  obtain ⟨f, hlast⟩ := exists_lastWhere (fun f => f.isUsable && f.id = e.id) he (by simp [husable])
  obtain ⟨-, htest⟩ := mem_of_lastWhere hlast
  obtain ⟨other, hother⟩ : ∃ other, f.display? = some other := by
    rw [Bool.and_eq_true] at htest
    exact Option.isSome_iff_exists.mp htest.1
  exact ⟨other, by rw [name?_ofCatalog, lastWithId, hlast]; exact hother⟩

theorem mem_keys_names : id ∈ (ofCatalog catalog).names.keys ↔
    id ∈ (catalog.filter (·.isUsable)).map (·.id) := by
  rw [Table.mem_keys_iff, Option.isSome_iff_exists, List.mem_map]
  constructor
  · rintro ⟨name, hname⟩
    obtain ⟨e, he, hid, hdisplay⟩ := exists_of_name? hname
    exact ⟨e, List.mem_filter.mpr ⟨he, Entry.isUsable_of_display hdisplay⟩, hid⟩
  · rintro ⟨e, he, rfl⟩
    obtain ⟨he, husable⟩ := List.mem_filter.mp he
    obtain ⟨name, hname⟩ := Option.isSome_iff_exists.mp husable
    exact exists_name?_of_mem he hname

theorem size_ofCatalog (catalog : List Entry) :
    (ofCatalog catalog).size = ((catalog.filter (·.isUsable)).map (·.id)).toFinset.card := by
  have hkeys : (ofCatalog catalog).names.keys.toFinset =
      ((catalog.filter (·.isUsable)).map (·.id)).toFinset := by
    ext id
    rw [List.mem_toFinset, List.mem_toFinset]
    exact mem_keys_names
  have hnodup : (ofCatalog catalog).names.keys.Nodup := (ofCatalog catalog).names.distinct
  rw [← hkeys, List.toFinset_card_of_nodup hnodup]
  exact (List.length_map ..).symm

/-- If no two usable entries share only one of the two, the tables are inverse to each other. -/
theorem name?_eq_some_iff
    (hone : ∀ e ∈ catalog, ∀ f ∈ catalog, e.isUsable = true → f.isUsable = true →
      (e.id = f.id ↔ e.display? = f.display?)) :
    (ofCatalog catalog).name? id = some name ↔ (ofCatalog catalog).id? name = some id := by
  constructor
  · intro h
    obtain ⟨e, he, rfl, hname⟩ := exists_of_name? h
    obtain ⟨id, hid⟩ := exists_id?_of_mem he hname
    obtain ⟨f, hf, rfl, hname'⟩ := exists_of_id? hid
    have hsame :=
      hone e he f hf (Entry.isUsable_of_display hname) (Entry.isUsable_of_display hname')
    rw [hid, hsame.mpr (hname.trans hname'.symm)]
  · intro h
    obtain ⟨e, he, rfl, hname⟩ := exists_of_id? h
    obtain ⟨other, hother⟩ := exists_name?_of_mem he hname
    obtain ⟨f, hf, hid, hname'⟩ := exists_of_name? hother
    have hsame :=
      hone f hf e he (Entry.isUsable_of_display hname') (Entry.isUsable_of_display hname)
    rw [hother, ← hname', ← hname]
    exact hsame.mp hid

/-- **The last usable entry wins.**

What is listed for a display name is the identifier of the last entry with it, and what is listed
for an identifier is the display name of the last usable entry with it; there is nothing if there is
no such entry. Every identifier that one table lists is a key of the other, and so is every display
name. The size is the number of different identifiers of usable entries. If no two usable entries
share only one of the two, the tables are inverse to each other. Entries without a display name have
no effect wherever they stand. -/
theorem last_usable_entry_wins (catalog : List Entry) :
    let t := ofCatalog catalog
    (∀ name, t.id? name =
        (catalog.filter fun e => e.display? = some name).getLast?.map (·.id)) ∧
      (∀ id, t.name? id =
        (catalog.filter fun e => e.isUsable && e.id = id).getLast?.bind (·.display?)) ∧
      (∀ p ∈ t.ids.entries, p.2 ∈ t.names.keys) ∧
      (∀ p ∈ t.names.entries, p.2 ∈ t.ids.keys) ∧
      t.size = ((catalog.filter (·.isUsable)).map (·.id)).toFinset.card ∧
      ((∀ e ∈ catalog, ∀ f ∈ catalog, e.isUsable = true → f.isUsable = true →
          (e.id = f.id ↔ e.display? = f.display?)) →
        ∀ id name, t.name? id = some name ↔ t.id? name = some id) ∧
      ofCatalog (catalog.filter (·.isUsable)) = t := by
  intro t
  refine ⟨id?_ofCatalog catalog, name?_ofCatalog catalog, ?ids, ?names, size_ofCatalog catalog,
    fun hone _ _ => name?_eq_some_iff hone, ofCatalog_filter catalog⟩
  case ids =>
    rintro ⟨name, id⟩ hmem
    obtain ⟨e, he, rfl, hname⟩ := exists_of_id? (Table.mem_entries_iff.mp hmem)
    rw [Table.mem_keys_iff, Option.isSome_iff_exists]
    exact exists_name?_of_mem he hname
  case names =>
    rintro ⟨id, name⟩ hmem
    obtain ⟨e, he, -, hname⟩ := exists_of_name? (Table.mem_entries_iff.mp hmem)
    rw [Table.mem_keys_iff, Option.isSome_iff_exists]
    exact exists_id?_of_mem he hname

/-- Two raw names with the same display name, and entries without one between and behind them. -/
example :
    let t := ofCatalog [⟨1, some "a.Text"⟩, ⟨1, some "**"⟩, ⟨2, some "b.Text"⟩, ⟨2, none⟩]
    t.id? "Text" = some 2 ∧ t.name? 1 = some "Text" ∧ t.size = 2 := by
  decide

end Names

end Switchboard.Packet
