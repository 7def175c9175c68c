import Switchboard.Proofs.Session.Bindings
import Switchboard.Proofs.Session.Isolation

/-!
# The cache agrees with the roster

What is bound in the registry while only lookups write there.

**Origins** (`Fetches`). Whatever is bound was on the roster when a holder asked for it, after the
installed session had been connected. It is bound under its own identifier, which is not empty.

**Lookups.** A lookup by identifier does not ask the roster for what is bound already. One by name
and a snapshot of everyone do, and bind what they find: of several entries with the same identifier
the last one stays.

**Main statement** (`cache_is_coherent`).
-/

namespace Switchboard

namespace Session

/-- The last entry of a roster with an identifier. -/
def lastWith (players : List Player) (id : String) : Option Player :=
  (players.filter (·.uuid = some id)).getLast?

theorem cacheAll_of_none {r : Registry String Player} {p : Player} (hp : p.uuid = none) :
    cacheAll r [p] = r := by
  rw [cacheAll, List.foldl_cons, hp, List.foldl_nil]

theorem cacheAll_of_some {r : Registry String Player} {p : Player} {id : String}
    (hp : p.uuid = some id) : cacheAll r [p] = (r.rebind id p).1 := by
  rw [cacheAll, List.foldl_cons, hp, List.foldl_nil]

/-- **Of several entries with the same identifier the last one stays bound.** -/
theorem get?_cacheAll (r : Registry String Player) (players : List Player) (k : String) :
    (cacheAll r players).get? k =
      if k = "" then r.get? k else (lastWith players k).or (r.get? k) := by
  induction players using List.reverseRecOn with
  | nil =>
    split <;> rfl
  | append_singleton players p ih =>
    have hlast : cacheAll r (players ++ [p]) = cacheAll (cacheAll r players) [p] :=
      List.foldl_append ..
    rw [hlast, lastWith, List.filter_append]
    by_cases hp : p.uuid = some k
    · rw [cacheAll_of_some hp, Registry.get?_rebind, ih, List.filter_cons_of_pos (by simpa using hp), List.filter_nil,
        List.getLast?_concat]
      by_cases hk : k = ""
      · rw [if_pos hk, if_pos hk, if_neg fun h => h.2 hk]
      · rw [if_pos ⟨rfl, hk⟩, if_neg hk]
        rfl
    · rw [List.filter_cons_of_neg (by simpa using hp), List.filter_nil, List.append_nil, ← lastWith,
        ← ih]
      cases hid : p.uuid with
      | none => rw [cacheAll_of_none hid]
      | some id =>
        rw [cacheAll_of_some hid, Registry.get?_rebind]
        exact if_neg fun h => hp (by rw [hid, h.1])

theorem mem_of_lastWith {players : List Player} {id : String} {p : Player}
    (h : lastWith players id = some p) : p ∈ players ∧ p.uuid = some id := by
  have hmem := List.mem_of_getLast? h
  simpa using hmem

/-! ## What lookups bind -/

/-- The steps that ask the roster. -/
def Step.Queries : Step → Prop
  | snapshotPlayers | findPlayerById _ | findPlayerByName _ => True
  | _ => False

/-- The steps that bind a player outright. -/
def Step.Binds : Step → Prop
  | bind .. | bindIdentity _ => True
  | _ => False

/-- A holder asks the roster in a step that follows a run, and a player is on it. -/
structure Fetches (r : Run) (st : Step) (p : Player) : Prop where
  held : r.session.hasHandle = true
  queries : st.Queries
  connected : r.session.isConnected = true
  working : r.session.connector.roster.failing = false
  online : p ∈ r.session.connector.roster.players

section written

variable {roster : Roster} {who : String} {p : Player}

theorem found_eq_ok {f : Player → Bool}
    (h : found who (roster.query (·.find? f)) = .ok p) :
    roster.failing = false ∧ p ∈ roster.players ∧ f p = true := by
  unfold Roster.query at h
  split at h
  · cases h
  · rename_i hfailing
    dsimp only at h
    cases hfind : roster.players.find? f with
    | none =>
      rw [hfind] at h
      cases h
    | some q =>
      rw [hfind] at h
      obtain rfl : q = p := Except.ok.inj h
      exact ⟨Bool.eq_false_iff.mpr hfailing, List.mem_of_find?_eq_some hfind, List.find?_some hfind⟩

theorem Step.get?_written {st : Step} {connected : Bool} {registry : Registry String Player}
    {k : String} (hfree : ¬ st.Binds)
    (hk : (st.written roster connected registry).get? k = some p) :
    registry.get? k = some p ∨
      (st.Queries ∧ connected = true ∧ roster.failing = false ∧ p ∈ roster.players ∧
        k ≠ "" ∧ p.uuid = some k) := by
  cases st with
  | snapshotPlayers =>
    rw [written] at hk
    split at hk
    · rename_i hconnected
      unfold Roster.online Roster.query at hk
      by_cases hfailing : roster.failing = true
      · rw [if_pos hfailing] at hk
        exact Or.inl hk
      · rw [if_neg hfailing] at hk
        rw [get?_cacheAll] at hk
        split at hk
        · exact Or.inl hk
        · rename_i hne
          -- The last player on the roster with this identifier replaces what was bound.
          rcases Option.or_eq_some_iff.mp hk with hlast | ⟨-, hbefore⟩
          · obtain ⟨hmem, huuid⟩ := mem_of_lastWith hlast
            exact Or.inr ⟨trivial, hconnected, Bool.eq_false_iff.mpr hfailing, hmem, hne, huuid⟩
          · exact Or.inl hbefore
    · exact Or.inl hk
  | findPlayerById id =>
    rw [written] at hk
    split at hk
    · rename_i hconnected
      rw [Bool.and_eq_true] at hconnected
      split at hk
      · rename_i q hfound
        obtain ⟨hfailing, hmem, huuid⟩ := found_eq_ok hfound
        rw [Registry.get?_rebind] at hk
        split at hk
        · rename_i hid
          obtain rfl : q = p := Option.some.inj hk
          refine Or.inr ⟨trivial, hconnected.1, hfailing, hmem, hid.1 ▸ hid.2, ?_⟩
          rw [hid.1]
          exact of_decide_eq_true huuid
        · exact Or.inl hk
      · exact Or.inl hk
    · exact Or.inl hk
  | findPlayerByName name =>
    rw [written] at hk
    split at hk
    · rename_i hconnected
      split at hk
      · rename_i q hfound
        obtain ⟨hfailing, hmem, -⟩ := found_eq_ok hfound
        rcases bindIdentity_cases registry q with ⟨hbind, -⟩ | ⟨id, hne, huuid, hbind⟩
        · rw [hbind] at hk
          exact Or.inl hk
        · rw [hbind] at hk
          have hinsert := (registry.table.get?_insert id k q).symm.trans hk
          split at hinsert
          · rename_i hid
            obtain rfl : q = p := Option.some.inj hinsert
            rw [hid]
            exact Or.inr ⟨trivial, hconnected, hfailing, hmem, hne, huuid⟩
          · exact Or.inl hinsert
      · exact Or.inl hk
    · exact Or.inl hk
  | releasePlayer id =>
    have herase := (registry.get?_delete id k).symm.trans hk
    split at herase
    · cases herase
    · exact Or.inl herase
  | bind key player => exact absurd trivial hfree
  | bindIdentity player => exact absurd trivial hfree
  | _ => exact Or.inl hk

end written

/-! ## Runs -/

section runs

variable {r : Run} {st : Step} {p : Player} {k : String}

theorem Run.get?_write (hfree : ¬ st.Binds)
    (hk : (r.write st r.session.registry).get? k = some p) :
    r.session.registry.get? k = some p ∨ (Fetches r st p ∧ k ≠ "" ∧ p.uuid = some k) := by
  unfold write at hk
  split at hk
  · rename_i hheld
    refine (Step.get?_written hfree hk).imp_right ?_
    rintro ⟨hst, hconnected, hworking, honline, hkey⟩
    exact ⟨⟨hheld, hst, hconnected, hworking, honline⟩, hkey⟩
  · exact Or.inl hk

theorem Run.AtRest.installed_extend (hr : r.AtRest) {steps : List Step}
    (hquiet : r.chronicle steps = []) (hrel : (r.extend steps).session.released = false) :
    (r.extend steps).session.installed = r.session.installed := by
  obtain ⟨o, hturns, hi⟩ := (hr.alternating steps).turns
  rw [hquiet] at hturns
  rw [hi hrel]
  generalize r.session.installed = i at hturns
  cases hturns
  rfl

end runs

section run

variable (settings : Settings) (players : List Player) (catalog : List Packet.Entry)

theorem findPlayerById_of_bound {s : Session} {id : String} {p : Player} (ha : s.active ≠ none)
    (hp : s.registry.get? id = some p) : s.findPlayerById id = (s, .ok p) := by
  rcases findPlayerById_cases s id with ⟨hnone, -⟩ | ⟨-, q, hq, heq⟩ | ⟨-, hnone, -⟩
  · exact absurd hnone ha
  · rw [hp, Option.some.injEq] at hq
    rw [hq]
    exact heq
  · rw [hp] at hnone
    cases hnone

/-- **Whatever is bound has been fetched since the last transition.** -/
theorem exists_fetches {steps : List Step} (hfree : ∀ st ∈ steps, ¬ st.Binds) {k : String}
    {p : Player} (hk : (run settings players catalog steps).session.registry.get? k = some p) :
    k ≠ "" ∧ p.uuid = some k ∧ ∃ before st since, steps = before ++ st :: since ∧
      Fetches (run settings players catalog before) st p ∧
      (run settings players catalog before).chronicle (st :: since) = [] := by
  induction steps using List.reverseRecOn with
  | nil => cases hk
  | append_singleton steps st ih =>
    have hr := run_atRest settings players catalog steps
    have hbefore : ∀ st ∈ steps, ¬ st.Binds := fun st hst => hfree st (List.mem_append_left _ hst)
    rw [run_snoc] at hk
    rcases List.eq_nil_or_concat ((run settings players catalog steps).log st) with
      hlog | ⟨log, τ, hlog⟩
    · rw [(hr.stays hlog).registry_next] at hk
      rcases Run.get?_write (hfree st (by simp)) hk with hk | ⟨hfetch, hkey, huuid⟩
      · obtain ⟨hkey, huuid, earlier, st₀, since, rfl, hfetch, hquiet⟩ := ih hbefore hk
        refine ⟨hkey, huuid, earlier, st₀, since ++ [st], by simp, hfetch, ?_⟩
        rw [← List.cons_append, Run.chronicle_append, hquiet, ← run_append, Run.chronicle, hlog]
        rfl
      · refine ⟨hkey, huuid, steps, st, [], rfl, hfetch, ?_⟩
        rw [Run.chronicle, hlog]
        rfl
    · -- A step that ends a cycle leaves nothing bound.
      rw [(hr.begins (hlog.trans (List.concat_eq_append ..))).1] at hk
      cases hk

/-- **The cache is coherent** as long as only lookups bind players. Everyone bound was on the roster
when a holder asked, with the session connected that is installed, and is bound under its own
identifier. A lookup by identifier returns whoever is bound, whatever the roster has come to, and
otherwise somebody with that identifier; one by name binds whom it returns; and a snapshot returns
everyone in order and binds the last of those with the same identifier, and nobody else. -/
theorem cache_is_coherent (settings : Settings) (players : List Player)
    (catalog : List Packet.Entry) (steps : List Step) (hfree : ∀ st ∈ steps, ¬ st.Binds) :
    let s := (run settings players catalog steps).session
    (∀ k p, s.registry.get? k = some p → k ≠ "" ∧ p.uuid = some k ∧
      ∃ before st since, steps = before ++ st :: since ∧
        let r := run settings players catalog before
        Fetches r st p ∧ r.chronicle (st :: since) = [] ∧
          (s.released = false → s.installed = r.session.installed)) ∧
      (s.hasHandle = true → ∀ id p, s.registry.get? id = some p →
        ∀ f, (s.setRoster f).findPlayerById id = (s.setRoster f, .ok p)) ∧
      (∀ id p, (s.findPlayerById id).2 = .ok p → p.uuid = some id) ∧
      (∀ name p, (s.findPlayerByName name).2 = .ok p →
        p.name = name ∧ p ∈ s.connector.roster.players ∧ ∃ id, p.uuid = some id ∧ id ≠ "" ∧
          ∀ k, (s.findPlayerByName name).1.registry.get? k =
            if k = id then some p else s.registry.get? k) ∧
      ∀ online, s.snapshotPlayers.2 = .ok online → online = s.connector.roster.players ∧
        ∀ k, s.snapshotPlayers.1.registry.get? k =
          if k = "" then s.registry.get? k else (lastWith online k).or (s.registry.get? k) := by
  intro s
  have hr := run_atRest settings players catalog steps
  have horigin : ∀ k p, s.registry.get? k = some p → k ≠ "" ∧ p.uuid = some k ∧
      ∃ before st since, steps = before ++ st :: since ∧
        let r := run settings players catalog before
        Fetches r st p ∧ r.chronicle (st :: since) = [] ∧
          (s.released = false → s.installed = r.session.installed) := by
    intro k p hk
    obtain ⟨hkey, huuid, before, st, since, hsteps, hfetch, hquiet⟩ :=
      exists_fetches settings players catalog hfree hk
    refine ⟨hkey, huuid, before, st, since, hsteps, hfetch, hquiet, fun hrel => ?_⟩
    have hbefore := run_atRest settings players catalog before
    have hextend : run settings players catalog steps =
        (run settings players catalog before).extend (st :: since) := by
      rw [hsteps, run_append]
    have hsame := hbefore.installed_extend hquiet (by rw [← hextend]; exact hrel)
    rwa [← hextend] at hsame
  refine ⟨horigin, fun hheld id p hk f => ?cached, fun id p hp => ?byId, fun name p hp => ?byName,
    fun online ho => ?snapshot⟩
  case cached =>
    -- The session in which the player was fetched is still installed, so the lookup succeeds.
    obtain ⟨-, -, before, st, since, -, hfetch, -, hsame⟩ := horigin id p hk
    refine findPlayerById_of_bound (fun ha => ?_) hk
    have hnone : s.installed = none := Option.map_eq_none_iff.mpr ha
    rw [hsame (hr.valid.not_released_of_handle hheld)] at hnone
    exact isConnected_iff.mp hfetch.connected hnone
  case byId =>
    rcases findPlayerById_cases s id with ⟨-, heq⟩ | ⟨-, q, hbound, heq⟩ |
      ⟨-, -, ⟨e, -, heq⟩ | ⟨q, hfound, heq⟩⟩
    · rw [heq] at hp
      cases hp
    · rw [heq] at hp
      obtain rfl : q = p := Except.ok.inj hp
      exact (horigin id q hbound).2.1
    · rw [heq] at hp
      cases hp
    · rw [heq] at hp
      obtain rfl : q = p := Except.ok.inj hp
      exact of_decide_eq_true (found_eq_ok hfound).2.2
  case byName =>
    rcases findPlayerByName_cases s name with ⟨-, heq⟩ | ⟨-, e, -, heq⟩ |
      ⟨-, q, hfound, ⟨-, heq⟩ | ⟨id, hid, huuid, -, heq⟩⟩
    · rw [heq] at hp
      cases hp
    · rw [heq] at hp
      cases hp
    · rw [heq] at hp
      cases hp
    · rw [heq] at hp ⊢
      obtain rfl : q = p := Except.ok.inj hp
      obtain ⟨-, hmem, hname⟩ := found_eq_ok hfound
      exact ⟨of_decide_eq_true hname, hmem, id, huuid, hid,
        fun k => s.registry.table.get?_insert id k q⟩
  case snapshot =>
    rcases snapshotPlayers_cases s with ⟨-, heq⟩ | ⟨-, -, heq⟩ | ⟨-, -, heq⟩
    · rw [heq] at ho
      cases ho
    · rw [heq] at ho
      cases ho
    · rw [heq] at ho ⊢
      obtain rfl : _ = online := Except.ok.inj ho
      exact ⟨rfl, fun k => get?_cacheAll s.registry _ k⟩

/-- Of two players with one identifier the last stays bound, and is returned although the roster has
changed and then lost them all and fails. -/
theorem cache_is_coherent_stale :
    let ada : Player := ⟨some "1", "ada"⟩
    let bob : Player := ⟨some "1", "bob"⟩
    let steps := [.connect (.forServer "a"), .snapshotPlayers, .setRoster ⟨[ada], false⟩]
    let s := (run .standard [ada, ⟨none, "eve"⟩, bob] [] steps).session
    let failing := s.setRoster fun _ => ⟨[], true⟩
    (∀ st ∈ steps, ¬ st.Binds) ∧ s.hasHandle = true ∧ s.registry.get? "1" = some bob ∧
      s.registry.size = 1 ∧ failing.findPlayerById "1" = (failing, .ok bob) := by
  intro ada bob steps s failing
  have hfree : ∀ st ∈ steps, ¬ st.Binds := by
    simp [steps, Step.Binds]
  have hheld : s.hasHandle = true := by decide +kernel
  have hbound : s.registry.get? "1" = some bob := by decide +kernel
  obtain ⟨-, hcached, -⟩ := cache_is_coherent .standard [ada, ⟨none, "eve"⟩, bob] [] steps hfree
  exact ⟨hfree, hheld, hbound, by decide +kernel, hcached hheld "1" bob hbound fun _ => ⟨[], true⟩⟩

end run

end Session

end Switchboard
