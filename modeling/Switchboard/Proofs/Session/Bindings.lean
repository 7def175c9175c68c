import Mathlib.Data.Finmap
import Switchboard.Session.Registry

/-!
# What is bound in a registry

A registry is a finite map in which the last write wins and to which the default key is never added.

**Calls** (`Registry.act`). What may be done with a registry, whatever its keys and values are.
Where values carry a key of their own, they can be bound under it (`Registry.bindBy`), and that is
how players are bound (`Registry.bindIdentity_eq`).

**The map** (`Bindings`). What a call leaves bound and what it answers is said of a finite map,
with one way to write (`Bindings.after`, `Bindings.Answers`). Of an iteration it is said which
entries are shown, but not in which order (`Bindings.Shown`).

**Main statement** (`registry_is_finite_map`).
-/

namespace Switchboard

namespace Registry

variable {κ ν σ : Type} [DecidableEq κ]

/-! ## Through the view -/

theorem get?_delete (r : Registry κ ν) (key k : κ) :
    (r.delete key).1.get? k = if k = key then none else r.get? k :=
  r.table.get?_erase key k

variable [Inhabited κ]

theorem get?_rebind (r : Registry κ ν) (key : κ) (value : ν) (k : κ) :
    (r.rebind key value).1.get? k = if k = key ∧ key ≠ default then some value else r.get? k := by
  unfold rebind
  by_cases hkey : key = default
  · rw [if_pos hkey, if_neg fun h => h.2 hkey]
  · rw [if_neg hkey]
    refine (r.table.get?_insert key k value).trans ?_
    by_cases hk : k = key
    · rw [if_pos hk, if_pos ⟨hk, hkey⟩]
    · rw [if_neg hk, if_neg fun h => hk h.1]
      rfl

/-! ## Calls -/

/-- Store a value under the key that it carries and return that key. -/
def bindBy (identify : ν → Option κ) (r : Registry κ ν) (value : ν) :
    Registry κ ν × Except SessionError κ :=
  match (identify value).filter (· ≠ default) with
  | none => (r, .error .identifierUnavailable)
  | some key => (⟨r.table.insert key value⟩, .ok key)

theorem bindIdentity_eq (r : Registry String Player) (player : Player) :
    r.bindIdentity player = r.bindBy (·.uuid) player := by
  unfold bindIdentity bindBy
  have hfilter : player.uuid.filter (· ≠ default) = player.uuid.filter (· ≠ "") := rfl
  rw [hfilter]
  cases player.uuid.filter (· ≠ "") with
  | none => rfl
  | some id => rfl

/-- What is done with a registry, with visitors that keep a state while they are shown entries. -/
inductive Call (κ ν σ : Type) where
  | bind (key : κ) (value : ν)
  | rebind (key : κ) (value : ν)
  | bindIdentity (value : ν)
  | get (key : κ)
  | delete (key : κ)
  | iterate (visit : σ → κ → ν → σ × Bool) (start : σ)

/-- What a call answers. -/
inductive Answer (κ ν σ : Type) where
  /-- A value that was bound. -/
  | value (value : Option ν)
  /-- The key under which a value was stored. -/
  | identifier (result : Except SessionError κ)
  /-- The state in which a visitor is left. -/
  | visited (final : σ)

/-- The registry after a call, and the answer. -/
def act (identify : ν → Option κ) (r : Registry κ ν) :
    Call κ ν σ → Registry κ ν × Answer κ ν σ
  | .bind key value => (r.bind key value).map id .value
  | .rebind key value => (r.rebind key value).map id .value
  | .bindIdentity value => (r.bindBy identify value).map id .identifier
  | .get key => (r, .value (r.get? key))
  | .delete key => (r.delete key).map id .value
  | .iterate visit start => (r, .visited (r.iterate visit start))

/-- The registry after some calls on an empty one. -/
def run (identify : ν → Option κ) (calls : List (Call κ ν σ)) : Registry κ ν :=
  calls.foldl (fun r call => (r.act identify call).1) .empty

theorem bindBy_cases (identify : ν → Option κ) (r : Registry κ ν) (value : ν) :
    ((∀ key, identify value = some key → key = default) ∧
        r.bindBy identify value = (r, .error .identifierUnavailable)) ∨
      ∃ key, identify value = some key ∧ key ≠ default ∧
        r.bindBy identify value = ((r.rebind key value).1, .ok key) := by
  unfold bindBy
  cases hid : identify value with
  | none => exact Or.inl ⟨nofun, rfl⟩
  | some key =>
    by_cases hkey : key = default
    · rw [Option.filter_some, if_neg (by simpa using hkey)]
      exact Or.inl ⟨fun k hk => Option.some.inj hk ▸ hkey, rfl⟩
    · rw [Option.filter_some, if_pos (by simpa using hkey)]
      have hwrite : r.rebind key value = (⟨r.table.insert key value⟩, r.get? key) := if_neg hkey
      exact Or.inr ⟨key, rfl, hkey, by rw [hwrite]⟩

end Registry

/-! ## The map -/

/-- What is bound: a finite map. -/
abbrev Bindings (κ ν : Type) := Finmap fun _ : κ => ν

/-- What a visitor replies to entries that it is shown one after another. -/
def repliesTo {κ ν σ : Type} (visit : σ → κ → ν → σ × Bool) : List (κ × ν) → σ → List Bool
  | [], _ => []
  | e :: rest, s => (visit s e.1 e.2).2 :: repliesTo visit rest (visit s e.1 e.2).1

namespace Bindings

variable {κ ν σ : Type} [DecidableEq κ]

/-- A visitor was shown some entries of a map, each under another key, and stopped after the first
that it declined or when there were no more. -/
structure Shown (m : Bindings κ ν) (visit : σ → κ → ν → σ × Bool) (start : σ) (seen : List (κ × ν))
    (final : σ) : Prop where
  distinct : (seen.map (·.1)).Nodup
  current : ∀ e ∈ seen, m.lookup e.1 = some e.2
  final_eq : final = seen.foldl (fun s e => (visit s e.1 e.2).1) start
  goesOn : ∀ reply ∈ (repliesTo visit seen start).dropLast, reply = true
  stops : seen.length = m.keys.card ∨ (repliesTo visit seen start).getLast? = some false

theorem lookup_erase (m : Bindings κ ν) (key k : κ) :
    (m.erase key).lookup k = if k = key then none else m.lookup k := by
  by_cases hk : k = key
  · rw [if_pos hk, hk, Finmap.lookup_erase]
  · rw [if_neg hk, Finmap.lookup_erase_ne hk]

variable [Inhabited κ]

/-- Write a value under a key. The default key is ignored. -/
def write (m : Bindings κ ν) (key : κ) (value : ν) : Bindings κ ν :=
  if key = default then m else m.insert key value

/-- What is bound after a call. -/
def after (identify : ν → Option κ) (m : Bindings κ ν) : Registry.Call κ ν σ → Bindings κ ν
  | .bind key value | .rebind key value => m.write key value
  | .bindIdentity value => (identify value).elim m (m.write · value)
  | .delete key => m.erase key
  | .get _ | .iterate .. => m

/-- What is bound after some calls, if nothing was bound before. -/
def ofCalls (identify : ν → Option κ) (calls : List (Registry.Call κ ν σ)) : Bindings κ ν :=
  calls.foldl (after identify) ∅

/-- What a call may answer when something is bound. -/
def Answers (identify : ν → Option κ) (m : Bindings κ ν) :
    Registry.Call κ ν σ → Registry.Answer κ ν σ → Prop
  | .bind key _, answer | .rebind key _, answer =>
    answer = .value (if key = default then none else m.lookup key)
  | .bindIdentity value, answer =>
    ((identify value = none ∨ identify value = some default) ∧
        answer = .identifier (.error .identifierUnavailable)) ∨
      ∃ key, identify value = some key ∧ key ≠ default ∧ answer = .identifier (.ok key)
  | .get key, answer | .delete key, answer => answer = .value (m.lookup key)
  | .iterate visit start, answer =>
    ∃ seen final, m.Shown visit start seen final ∧ answer = .visited final

theorem lookup_write (m : Bindings κ ν) (key : κ) (value : ν) (k : κ) :
    (m.write key value).lookup k = if k = key ∧ key ≠ default then some value else m.lookup k := by
  unfold write
  by_cases hkey : key = default
  · rw [if_pos hkey, if_neg fun h => h.2 hkey]
  · rw [if_neg hkey]
    by_cases hk : k = key
    · rw [if_pos ⟨hk, hkey⟩, hk, Finmap.lookup_insert]
    · rw [if_neg fun h => hk h.1, Finmap.lookup_insert_of_ne _ hk]

/-- The default key is never bound. -/
theorem default_notMem_ofCalls (identify : ν → Option κ) (calls : List (Registry.Call κ ν σ)) :
    default ∉ ofCalls identify calls := by
  suffices h : ∀ m : Bindings κ ν, m.lookup default = none →
      (calls.foldl (after identify) m).lookup default = none from
    Finmap.lookup_eq_none.mp (h ∅ (Finmap.lookup_empty _))
  have hwrite : ∀ (m : Bindings κ ν) (key : κ) (value : ν), m.lookup default = none →
      (m.write key value).lookup default = none := by
    intro m key value hm
    rw [lookup_write, if_neg fun h => h.2 h.1.symm, hm]
  induction calls with
  | nil => exact fun m hm => hm
  | cons call calls ih =>
    intro m hm
    refine ih _ ?_
    cases call with
    | bind key value => exact hwrite m key value hm
    | rebind key value => exact hwrite m key value hm
    | bindIdentity value =>
      rw [after]
      cases identify value with
      | none => exact hm
      | some key => exact hwrite m key value hm
    | get key => exact hm
    | delete key =>
      rw [after, lookup_erase]
      split
      · rfl
      · exact hm
    | iterate visit start => exact hm

end Bindings

namespace Registry

variable {κ ν σ : Type}

/-! ## Visitors -/

/-- A visitor is shown the entries up to the first that it declines. -/
theorem visitEach_spec (visit : σ → κ → ν → σ × Bool) (entries : List (κ × ν)) (s : σ) :
    ∃ seen, seen <+: entries ∧
      visitEach visit entries s = seen.foldl (fun s e => (visit s e.1 e.2).1) s ∧
      (∀ reply ∈ (repliesTo visit seen s).dropLast, reply = true) ∧
      (seen = entries ∨ (repliesTo visit seen s).getLast? = some false) := by
  induction entries generalizing s with
  | nil => exact ⟨[], List.prefix_rfl, rfl, nofun, Or.inl rfl⟩
  | cons e rest ih =>
    obtain ⟨key, value⟩ := e
    rw [visitEach]
    rcases hvisit : visit s key value with ⟨s', more⟩
    cases more with
    | false =>
      refine ⟨[(key, value)], List.prefix_append _ rest, ?_, ?_, Or.inr ?_⟩
      · simp [hvisit]
      · simp [repliesTo]
      · simp [repliesTo, hvisit]
    | true =>
      obtain ⟨seen, hfirst, hfinal, hgoes, hstops⟩ := ih s'
      have hreplies : repliesTo visit ((key, value) :: seen) s =
          true :: repliesTo visit seen s' := by
        simp [repliesTo, hvisit]
      refine ⟨(key, value) :: seen, (List.prefix_cons_inj _).mpr hfirst, ?_, ?_, ?_⟩
      · simp [hvisit, hfinal]
      · intro reply hreply
        rw [hreplies] at hreply
        cases hlist : repliesTo visit seen s' with
        | nil =>
          rw [hlist] at hreply
          cases hreply
        | cons b replies =>
          rw [hlist, List.dropLast_cons_of_ne_nil (List.cons_ne_nil b replies), ← hlist] at hreply
          rcases List.mem_cons.mp hreply with hreply | hreply
          · exact hreply
          · exact hgoes reply hreply
      · rcases hstops with hall | hlast
        · exact Or.inl (by rw [hall])
        · rw [hreplies, List.getLast?_cons, hlast]
          exact Or.inr rfl

/-- A visitor that counts the entries and declines at a limit. -/
def counting (limit : Int) (seen : Nat) (_ : κ) (_ : ν) : Nat × Bool :=
  (seen + 1, decide ((seen + 1 : Int) < limit))

theorem visitEach_counting (limit : Int) (entries : List (κ × ν)) (n : Nat) :
    visitEach (counting limit) entries n =
      n + min entries.length (max (limit - n) 1).toNat := by
  induction entries generalizing n with
  | nil => simp [visitEach]
  | cons e rest ih =>
    obtain ⟨key, value⟩ := e
    rw [visitEach, counting]
    by_cases hmore : ((n : Int) + 1 < limit)
    · simp only [decide_eq_true hmore, if_true, ih, List.length_cons]
      omega
    · simp only [decide_eq_false hmore, Bool.false_eq_true, if_false, List.length_cons]
      omega

/-! ## The registry and the map -/

/-- A registry holds what is bound in a map. -/
def Holds [DecidableEq κ] (r : Registry κ ν) (m : Bindings κ ν) : Prop :=
  ∀ key, r.get? key = m.lookup key

section holds

variable [DecidableEq κ] {r : Registry κ ν} {m : Bindings κ ν} {identify : ν → Option κ}

theorem Holds.size (h : r.Holds m) : r.size = m.keys.card := by
  have hkeys : r.table.keys.toFinset = m.keys := by
    ext key
    rw [List.mem_toFinset, Table.mem_keys_iff, Finmap.mem_keys, ← Finmap.lookup_isSome, ← h key]
    rfl
  have hnodup : r.table.keys.Nodup := r.table.distinct
  rw [← hkeys, List.toFinset_card_of_nodup hnodup]
  exact (List.length_map ..).symm

theorem Holds.isEmpty_iff (h : r.Holds m) : r.isEmpty = true ↔ m = ∅ := by
  have hsize : r.isEmpty = true ↔ r.size = 0 := List.isEmpty_iff.trans List.length_eq_zero_iff.symm
  rw [hsize, h.size, Finset.card_eq_zero]
  constructor
  · intro hkeys
    refine Finmap.ext_lookup fun key => ?_
    rw [Finmap.lookup_empty, Finmap.lookup_eq_none, ← Finmap.mem_keys, hkeys]
    exact Finset.notMem_empty key
  · rintro rfl
    exact Finmap.keys_empty

/-- **An iteration shows what is bound**, in whatever order the entries come. -/
theorem Holds.shown (h : r.Holds m) (visit : σ → κ → ν → σ × Bool) (start : σ)
    {order : List (κ × ν)} (horder : order.Perm r.table.entries) :
    ∃ seen, m.Shown visit start seen (visitEach visit order start) := by
  obtain ⟨seen, hfirst, hfinal, hgoes, hstops⟩ := visitEach_spec visit order start
  have hdistinct : (order.map (·.1)).Nodup := (horder.map _).nodup_iff.mpr r.table.distinct
  refine ⟨seen, (hfirst.sublist.map _).nodup hdistinct, ?_, hfinal, hgoes, hstops.imp_left ?_⟩
  · intro e he
    have hmem : e ∈ r.table.entries := horder.mem_iff.mp (hfirst.subset he)
    exact (h e.1).symm.trans (Table.mem_entries_iff.mp hmem)
  · rintro rfl
    exact horder.length_eq.trans h.size

variable [Inhabited κ]

theorem Holds.rebind (h : r.Holds m) (key : κ) (value : ν) :
    (r.rebind key value).1.Holds (m.write key value) := by
  intro k
  rw [get?_rebind, Bindings.lookup_write, h k]

theorem Holds.rebind_snd (h : r.Holds m) (key : κ) (value : ν) :
    (r.rebind key value).2 = if key = default then none else m.lookup key := by
  unfold Registry.rebind
  split
  · rfl
  · exact h key

/-- **A call leaves what it leaves in the map.** -/
theorem Holds.act (h : r.Holds m) (call : Call κ ν σ) :
    (r.act identify call).1.Holds (m.after identify call) := by
  cases call with
  | bind key value => exact h.rebind key value
  | rebind key value => exact h.rebind key value
  | bindIdentity value =>
    rw [Registry.act, Bindings.after]
    rcases bindBy_cases identify r value with ⟨hdefault, hbind⟩ | ⟨key, hid, -, hbind⟩
    · rw [hbind]
      cases hid : identify value with
      | none => exact h
      | some key =>
        have hsame : m.write key value = m := if_pos (hdefault key hid)
        rw [Option.elim_some, hsame]
        exact h
    · rw [hbind, hid]
      exact h.rebind key value
  | get key => exact h
  | delete key =>
    intro k
    rw [Bindings.after, Bindings.lookup_erase, ← h k]
    exact r.get?_delete key k
  | iterate visit start => exact h

theorem run_holds (identify : ν → Option κ) (calls : List (Call κ ν σ)) :
    (run identify calls).Holds (Bindings.ofCalls identify calls) := by
  suffices h : ∀ (r : Registry κ ν) (m : Bindings κ ν), r.Holds m →
      (calls.foldl (fun r call => (r.act identify call).1) r).Holds
        (calls.foldl (Bindings.after identify) m) from
    h .empty ∅ fun key => (@Finmap.lookup_empty κ (fun _ => ν) _ key).symm
  induction calls with
  | nil => exact fun r m h => h
  | cons call calls ih => exact fun r m h => ih _ _ (h.act call)

/-- **A call answers what the map says.** -/
theorem Holds.answers (h : r.Holds m) (call : Call κ ν σ) :
    m.Answers identify call (r.act identify call).2 := by
  cases call with
  | bind key value => exact congrArg Answer.value (h.rebind_snd key value)
  | rebind key value => exact congrArg Answer.value (h.rebind_snd key value)
  | bindIdentity value =>
    rw [Registry.act]
    rcases bindBy_cases identify r value with ⟨hdefault, hbind⟩ | ⟨key, hid, hne, hbind⟩
    · rw [hbind]
      refine Or.inl ⟨?_, rfl⟩
      cases hid : identify value with
      | none => exact Or.inl rfl
      | some key => exact Or.inr (by rw [hdefault key hid])
    · rw [hbind]
      exact Or.inr ⟨key, hid, hne, rfl⟩
  | get key => exact congrArg Answer.value (h key)
  | delete key => exact congrArg Answer.value (h key)
  | iterate visit start =>
    obtain ⟨seen, hseen⟩ := h.shown visit start (List.Perm.refl r.table.entries)
    exact ⟨seen, _, hseen, rfl⟩

end holds

variable [DecidableEq κ] [Inhabited κ]

/-- **A registry is a finite map without the default key, in which the last write wins.**

After any calls, whatever the keys and values, the registry holds what the map holds that the calls
have written, and its size and whether it is empty are those of the map. The default key is not
bound there, so looking it up and deleting it find nothing; a write under it returns nothing and
changes nothing, and a value without a key of its own, or with the default key, is refused without a
change. Each further call answers what the map says. An iteration shows entries of the map under
different keys, in whatever order they come, until the visitor declines or all are shown; so a
visitor that counts up to a limit sees that many, but at least one and at most all. Players are
bound by their identifiers. -/
theorem registry_is_finite_map (identify : ν → Option κ) (calls : List (Call κ ν σ)) :
    let r := run identify calls
    let m := Bindings.ofCalls identify calls
    (∀ key, r.get? key = m.lookup key) ∧
      r.size = m.keys.card ∧ (r.isEmpty = true ↔ m = ∅) ∧
      default ∉ m ∧ r.get? default = none ∧ (r.delete default).2 = none ∧
      (∀ value, r.bind default value = (r, none) ∧ r.rebind default value = (r, none)) ∧
      (∀ value, identify value = none ∨ identify value = some default →
        r.bindBy identify value = (r, .error .identifierUnavailable)) ∧
      (∀ call : Call κ ν σ, m.Answers identify call (r.act identify call).2) ∧
      (∀ order, order.Perm r.table.entries →
        (∀ (visit : σ → κ → ν → σ × Bool) (start : σ),
          ∃ seen, m.Shown visit start seen (visitEach visit order start)) ∧
        ∀ limit : Int,
          visitEach (counting limit) order 0 = min m.keys.card (max limit 1).toNat) ∧
      ∀ (s : Registry String Player) (player : Player),
        s.bindIdentity player = s.bindBy (·.uuid) player := by
  intro r m
  have h : r.Holds m := run_holds identify calls
  have hdefault : default ∉ m := Bindings.default_notMem_ofCalls identify calls
  have hnone : r.get? default = none := (h default).trans (Finmap.lookup_eq_none.mpr hdefault)
  refine ⟨h, h.size, h.isEmpty_iff, hdefault, hnone, hnone, fun value => ?writes,
    fun value hid => ?refused, fun call => h.answers call,
    fun order horder => ⟨fun visit start => h.shown visit start horder, fun limit => ?limit⟩,
    bindIdentity_eq⟩
  case writes => exact ⟨if_pos rfl, if_pos rfl⟩
  case refused =>
    rcases bindBy_cases identify r value with ⟨-, hbind⟩ | ⟨key, hkey, hne, -⟩
    · exact hbind
    · rw [hkey] at hid
      rcases hid with hid | hid
      · cases hid
      · exact absurd (Option.some.inj hid) hne
  case limit =>
    rw [visitEach_counting, Nat.zero_add, horder.length_eq, ← h.size]
    exact congrArg (fun n => min r.size (max n 1).toNat) (Int.sub_zero limit)

end Registry

end Switchboard
