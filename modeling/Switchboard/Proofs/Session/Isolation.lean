import Switchboard.Proofs.Session.Asking
import Switchboard.Proofs.Session.Endings
import Switchboard.Proofs.Session.Notices
import Switchboard.Proofs.Session.Refusals

/-!
# Cycles are isolated from each other

What is bound, sent and looked up in one cycle stays there.

**Registries** (`contents`, `Run.cached`). A handle on the registry of a cycle shows what was
written in it until the cycle ended, and nothing that was written later. The next one begins empty.

**The installed session** (`InstalledIn`). Its serial is the one of the connection that its connect
established, and its commands are those sent since then.

**Main statement** (`cycles_are_isolated`).
-/

namespace Switchboard.Session

/-- What a handle on the registry of a cycle shows. -/
def contents (s : Session) (k : Nat) : Option (Registry String Player) :=
  (s.cycle? k).map (·.registry)

/-- A registry after some steps that follow a run: what they write in it until its cycle ends. -/
def Run.cached (r : Run) (registry : Registry String Player) : List Step → Registry String Player
  | [] => registry
  | st :: steps =>
    match r.log st with
    | [] => (r.next st).cached (r.write st registry) steps
    | _ :: _ => registry

/-- The commands sent in some steps that follow a run. -/
def Run.sent (r : Run) : List Step → List String
  | [] => []
  | st :: steps => r.send st ++ (r.next st).sent steps

/-- The session that a connect in a step `st` installed, after the steps `since` without
transitions. -/
structure InstalledIn (settings : Settings) (players : List Player) (catalog : List Packet.Entry)
    (before : List Step) (st : Step) (since : List Step) (a : Active) : Prop where
  joined : ∃ (log : List Transition) (s : Session), s.establish.2 = .ok a.session ∧
    (run settings players catalog before).log st =
      log ++ [s.establish.1.joining before.length a.session]
  quiet : (run settings players catalog (before ++ [st])).chronicle since = []
  sent : a.sent = (run settings players catalog (before ++ [st])).sent since
  packets : a.packets = .ofCatalog catalog

/-! ## Guards -/

/-- The requests that need an installed session. The registry is asked without one. -/
def Request.Guarded : Request → Prop
  | bindIdentity _ => False
  | _ => True

section guards

variable {s : Session}

theorem found_ne_notConnected (who : String) (result : Except Fault (Option Player)) :
    found who result ≠ .error .notConnected := by
  rcases result with _ | _ | _ <;> exact nofun

theorem guarded_eq_notConnected {β : Type} {f : Active → Except SessionError β}
    (hf : ∀ a, s.active = some a → f a ≠ .error .notConnected) :
    s.guarded f = .error .notConnected ↔ s.active = none := by
  unfold guarded
  cases ha : s.active with
  | none => exact ⟨fun _ => rfl, fun _ => rfl⟩
  | some a => exact ⟨fun h => absurd h (hf a ha), nofun⟩

theorem snapshotPlayers_notConnected :
    s.snapshotPlayers.2 = .error .notConnected ↔ s.active = none := by
  rcases snapshotPlayers_cases s with ⟨ha, heq⟩ | ⟨ha, -, heq⟩ | ⟨ha, -, heq⟩
  · rw [heq]
    exact iff_of_true rfl ha
  · rw [heq]
    exact iff_of_false nofun ha
  · rw [heq]
    exact iff_of_false nofun ha

theorem findPlayerById_notConnected (id : String) :
    (s.findPlayerById id).2 = .error .notConnected ↔ s.active = none := by
  rcases findPlayerById_cases s id with ⟨ha, heq⟩ | ⟨ha, p, -, heq⟩ |
    ⟨ha, -, ⟨e, hfound, heq⟩ | ⟨p, -, heq⟩⟩
  · rw [heq]
    exact iff_of_true rfl ha
  · rw [heq]
    exact iff_of_false nofun ha
  · rw [heq, ← hfound]
    exact iff_of_false (found_ne_notConnected _ _) ha
  · rw [heq]
    exact iff_of_false nofun ha

theorem findPlayerByName_notConnected (name : String) :
    (s.findPlayerByName name).2 = .error .notConnected ↔ s.active = none := by
  rcases findPlayerByName_cases s name with ⟨ha, heq⟩ | ⟨ha, e, hfound, heq⟩ |
    ⟨ha, p, -, ⟨-, heq⟩ | ⟨id, -, -, -, heq⟩⟩
  · rw [heq]
    exact iff_of_true rfl ha
  · rw [heq, ← hfound]
    exact iff_of_false (found_ne_notConnected _ _) ha
  · rw [heq]
    exact iff_of_false nofun ha
  · rw [heq]
    exact iff_of_false nofun ha

theorem sendCommand_notConnected (command : String) :
    (s.sendCommand command).2 = .error .notConnected ↔ s.active = none := by
  unfold sendCommand
  cases s.active with
  | none => exact iff_of_true rfl rfl
  | some a => exact iff_of_false nofun (Option.some_ne_none a)

/-- **A guarded request is refused for want of a session exactly if there is none.** -/
theorem Request.ask_notConnected {q : Request} (hq : q.Guarded) :
    (q.ask s).2 = some .notConnected ↔ s.active = none := by
  cases q with
  | snapshotPlayers => exact failure_eq_some.trans snapshotPlayers_notConnected
  | findPlayerById id => exact failure_eq_some.trans (findPlayerById_notConnected id)
  | findPlayerByName name => exact failure_eq_some.trans (findPlayerByName_notConnected name)
  | sendCommand command => exact failure_eq_some.trans (sendCommand_notConnected command)
  | packets => exact failure_eq_some.trans (guarded_eq_notConnected fun _ _ h => by cases h)
  | packetId name =>
    refine failure_eq_some.trans (guarded_eq_notConnected fun a _ => ?_)
    cases a.packets.id? name <;> intro h <;> cases h
  | packetName id =>
    refine failure_eq_some.trans (guarded_eq_notConnected fun a _ => ?_)
    cases a.packets.name? id <;> intro h <;> cases h
  | sentCommands => exact failure_eq_some.trans (guarded_eq_notConnected fun _ _ h => by cases h)
  | serial => exact failure_eq_some.trans (guarded_eq_notConnected fun _ _ h => by cases h)
  | nested =>
    refine failure_eq_some.trans (guarded_eq_notConnected fun a ha => ?_)
    rw [guarded, ha]
    intro h
    cases h
  | bindIdentity player => exact hq.elim

end guards

/-! ## Steps -/

section steps

variable {r : Run} {st : Step}

theorem Run.AtRest.number_next (hr : r.AtRest) (st : Step) :
    (r.next st).session.cycle.number = r.session.cycle.number + (r.log st).length := by
  by_cases hlog : r.log st = []
  · rw [hlog]
    exact (hr.stays hlog).number
  · obtain ⟨active, hdesk, -⟩ := hr.turns hlog
    exact (congrArg Desk.number hdesk).trans Desk.number_after

/-- No step writes in a registry whose cycle has ended. -/
theorem Run.AtRest.contents_next (hr : r.AtRest) (st : Step) {k : Nat}
    (hk : k < r.session.cycle.number) : (r.next st).session.contents k = r.session.contents k := by
  by_cases hlog : r.log st = []
  · exact (hr.stays hlog).others k (Nat.ne_of_lt hk)
  · obtain ⟨active, hdesk, -⟩ := hr.turns hlog
    exact (congrArg (Desk.registries · k) hdesk).trans (Desk.registries_after (Nat.le_of_lt hk))

theorem Run.AtRest.contents_of_log (hr : r.AtRest) (hlog : r.log st ≠ []) :
    (r.next st).session.contents r.session.cycle.number = some r.session.registry := by
  obtain ⟨active, hdesk, -⟩ := hr.turns hlog
  exact (congrArg (Desk.registries · r.session.cycle.number) hdesk).trans
    ((Desk.registries_after (Nat.le_refl _)).trans (desk_registries r.session))

/-- After a step that ends a cycle nothing is bound, and the session installed is that of the last
transition, with nothing sent. -/
theorem Run.AtRest.begins (hr : r.AtRest) {log : List Transition} {τ : Transition}
    (hlog : r.log st = log ++ [τ]) :
    (r.next st).session.registry = .empty ∧
      ((r.next st).session.active = none ∨ (r.next st).session.active =
        τ.caller.installs.map fun x => ⟨x, [], .ofCatalog r.session.connector.catalog⟩) := by
  have hne : r.log st ≠ [] := by simp [hlog]
  obtain ⟨active, hdesk, hactive⟩ := hr.turns hne
  obtain ⟨hregistry, hlast⟩ := r.session.desk.after_snoc log τ
  rw [hlog] at hdesk hactive
  rw [hlast] at hactive
  have hsome := desk_registries (r.next st).session
  rw [hdesk] at hsome
  refine ⟨(Option.some.inj (hregistry.symm.trans hsome)).symm, ?_⟩
  rw [show (r.next st).session.active = active from congrArg Desk.active hdesk]
  exact hactive

theorem Run.AtRest.catalog_next (hr : r.AtRest) (st : Step) :
    (r.next st).session.connector.catalog = r.session.connector.catalog := by
  by_cases hlog : r.log st = []
  · exact (hr.stays hlog).catalog
  · obtain ⟨active, hdesk, -⟩ := hr.turns hlog
    exact (congrArg Desk.catalog hdesk).trans Desk.catalog_after

theorem endSession_begins {s : Session} {x : Serial} {cause : Cause} (hi : s.installed = some x) :
    (s.endSession x cause).cycle.number = s.cycle.number + 1 ∧
      (s.endSession x cause).registry = .empty := by
  have hdesk := desk_ending s x cause
  rw [(endSession_of_installed hi cause).1]
  exact ⟨congrArg Desk.number hdesk, registry_of_turn hdesk⟩

/-- Only a connect installs a session, and it is the one that it established. -/
theorem Run.AtRest.established (hr : r.AtRest) {τ : Transition} (hτ : τ ∈ r.log st) {x : Serial}
    (hx : τ.caller.installs = some x) :
    ∃ s : Session, s.establish.2 = .ok x ∧ τ = s.establish.1.joining r.steps.length x := by
  obtain ⟨log, t, ready, -, ho⟩ := (hr.deeds st).exists_occurs hτ
  cases ho with
  | join hstep hh hok hi =>
    obtain rfl : _ = x := Option.some.inj hx
    exact ⟨t.session, congrArg Prod.snd (establish_spec hok).1, rfl⟩
  | leave _ _ => cases hx
  | watch _ _ _ => cases hx

end steps

/-! ## Runs -/

section runs

variable {r : Run}

theorem Run.AtRest.number_extend (hr : r.AtRest) (steps : List Step) :
    (r.extend steps).session.cycle.number =
      r.session.cycle.number + (r.chronicle steps).length := by
  induction steps generalizing r with
  | nil => rfl
  | cons st steps ih =>
    rw [extend_cons, ih (hr.next st), hr.number_next st, chronicle, List.length_append,
      Nat.add_assoc]

theorem Run.AtRest.contents_extend_of_lt (hr : r.AtRest) (steps : List Step) {k : Nat}
    (hk : k < r.session.cycle.number) :
    (r.extend steps).session.contents k = r.session.contents k := by
  induction steps generalizing r with
  | nil => rfl
  | cons st steps ih =>
    have hlater : k < (r.next st).session.cycle.number := by
      rw [hr.number_next st]
      omega
    exact (ih (hr.next st) hlater).trans (hr.contents_next st hk)

/-- **A handle on the current registry shows what is written in it until its cycle ends.** -/
theorem Run.AtRest.contents_extend (hr : r.AtRest) (steps : List Step) :
    (r.extend steps).session.contents r.session.cycle.number =
      some (r.cached r.session.registry steps) := by
  induction steps generalizing r with
  | nil => exact desk_registries r.session
  | cons st steps ih =>
    rw [extend_cons, cached]
    have hnumber := hr.number_next st
    cases hlog : r.log st with
    | nil =>
      rw [hlog] at hnumber
      have hrest := ih (hr.next st)
      rwa [hnumber, (hr.stays hlog).registry_next] at hrest
    | cons τ log =>
      rw [hlog, List.length_cons] at hnumber
      have hne : r.log st ≠ [] := by
        rw [hlog]
        exact List.cons_ne_nil _ _
      exact ((hr.next st).contents_extend_of_lt steps (by omega)).trans (hr.contents_of_log hne)

theorem Run.sent_append (r : Run) (steps more : List Step) :
    r.sent (steps ++ more) = r.sent steps ++ (r.extend steps).sent more := by
  induction steps generalizing r with
  | nil => rfl
  | cons st steps ih =>
    rw [List.cons_append, sent, sent, ih, List.append_assoc]
    rfl

end runs

section run

variable (settings : Settings) (players : List Player) (catalog : List Packet.Entry)

theorem run_catalog (steps : List Step) :
    (run settings players catalog steps).session.connector.catalog = catalog := by
  induction steps using List.reverseRecOn with
  | nil => rfl
  | append_singleton steps st ih =>
    rw [run_snoc]
    exact ((run_atRest settings players catalog steps).catalog_next st).trans ih

/-- **The session installed is that of the last transition, with what was sent since.** -/
theorem exists_installedIn {steps : List Step} {a : Active}
    (ha : (run settings players catalog steps).session.active = some a) :
    ∃ before st since, steps = before ++ st :: since ∧
      InstalledIn settings players catalog before st since a := by
  induction steps using List.reverseRecOn generalizing a with
  | nil => cases ha
  | append_singleton steps st ih =>
    have hr := run_atRest settings players catalog steps
    have hsteps : (run settings players catalog steps).steps = steps := Run.extend_steps _ steps
    set r := run settings players catalog steps with hrun
    rw [run_snoc, ← hrun] at ha
    rcases List.eq_nil_or_concat (r.log st) with hlog | ⟨log, τ, hlog⟩
    · -- The session was installed before.
      have hactive := (hr.stays hlog).active.resolve_left (by rw [ha]; exact Option.some_ne_none a)
      rw [ha] at hactive
      obtain ⟨a₀, ha₀, hsent⟩ := Option.map_eq_some_iff.mp hactive.symm
      obtain ⟨before, st₀, since, rfl, hin⟩ := ih ha₀
      have hextend : (run settings players catalog (before ++ [st₀])).extend since = r := by
        rw [hrun, ← run_append, List.append_assoc, List.singleton_append]
      refine ⟨before, st₀, since ++ [st], by simp, ?_⟩
      rw [← hsent]
      refine ⟨hin.joined, ?_, ?_, hin.packets⟩
      · rw [Run.chronicle_append, hin.quiet, hextend, Run.chronicle, hlog]
        rfl
      · rw [Run.sent_append, ← hin.sent, hextend, Run.sent, Run.sent, List.append_nil]
        rfl
    · rw [List.concat_eq_append] at hlog
      have hactive := (hr.begins hlog).2.resolve_left (by rw [ha]; exact Option.some_ne_none a)
      rw [ha] at hactive
      obtain ⟨x, hx, rfl⟩ := Option.map_eq_some_iff.mp hactive.symm
      obtain ⟨s, hestablish, hτ⟩ := hr.established (by rw [hlog]; simp) hx
      refine ⟨steps, st, [], rfl, ⟨log, s, hestablish, ?_⟩, rfl, rfl, ?_⟩
      · rw [← hrun, hlog, hτ, hsteps]
      · exact congrArg Packet.Names.ofCatalog (run_catalog settings players catalog steps)

theorem registry_since {before : List Step} {st : Step} {since : List Step}
    (hlog : (run settings players catalog before).log st ≠ [])
    (hquiet : (run settings players catalog (before ++ [st])).chronicle since = []) :
    (run settings players catalog (before ++ st :: since)).session.registry =
      (run settings players catalog (before ++ [st])).cached .empty since := by
  have hr := run_atRest settings players catalog (before ++ [st])
  obtain ⟨log, τ, hsnoc⟩ := (List.eq_nil_or_concat _).resolve_left hlog
  have hempty : (run settings players catalog (before ++ [st])).session.registry = .empty := by
    rw [run_snoc]
    have hbefore := run_atRest settings players catalog before
    exact (hbefore.begins (hsnoc.trans (List.concat_eq_append ..))).1
  have hextend : run settings players catalog (before ++ st :: since) =
      (run settings players catalog (before ++ [st])).extend since := by
    rw [← run_append, List.append_assoc, List.singleton_append]
  have hnumber := hr.number_extend since
  have hshown := hr.contents_extend since
  rw [hquiet, List.length_nil, Nat.add_zero] at hnumber
  rw [← hnumber, hempty] at hshown
  rw [hextend]
  exact Option.some.inj ((desk_registries _).symm.trans hshown)

/-! ## Isolation -/

/-- **Cycles are isolated.** A handle on the registry of a run is the one installed exactly as long
as no transition follows. It shows what is written until then and nothing else, and the registries
of the earlier cycles stay as they are. Every transition begins a cycle with an empty registry, which
holds what was written since. A connect that is not refused makes one, and so do a disconnect that
finds a session and the end of the connection of the session installed. What is asked of an
installed session tells of its own connect: the serial that was established there, the commands sent
since, and the packets of the catalog. Without a session it is refused. -/
theorem cycles_are_isolated (settings : Settings) (players : List Player)
    (catalog : List Packet.Entry) (before after : List Step) :
    let r := run settings players catalog before
    let s := r.session
    let call := r.steps.length
    let s' := (run settings players catalog (before ++ after)).session
    (s'.cycle.number = s.cycle.number ↔ r.chronicle after = []) ∧
      s'.contents s.cycle.number = some (r.cached s.registry after) ∧
      (∀ k < s.cycle.number, s'.contents k = s.contents k) ∧
      (∀ τ ∈ r.chronicle after,
        τ.after.cycle.number = τ.ended.number + 1 ∧ τ.after.registry = .empty ∧
          ((∃ call x, τ.Joins call x) ∨ (∃ call fault, τ.Leaves call fault) ∨
            ∃ x cause, τ.Ends x cause)) ∧
      (∀ earlier st since, before = earlier ++ st :: since →
        (run settings players catalog earlier).log st ≠ [] →
        (run settings players catalog (earlier ++ [st])).chronicle since = [] →
        s.registry = (run settings players catalog (earlier ++ [st])).cached .empty since) ∧
      (s.hasHandle = true →
        (∀ options, ConnectNews call (s.connect call options).2 (r.log (.connect options))) ∧
          (∀ n options, ∃ logs, r.log (.race n options) = logs.flatten ∧
            List.Forall₂ (ConnectNews call) (s.connectAll call options n).2 logs) ∧
          DisconnectNews call (s.disconnect call).2 (r.log .disconnect)) ∧
      (∀ x cause,
        (s.installed = some x → (s.endSession x cause).cycle.number = s.cycle.number + 1 ∧
          (s.endSession x cause).registry = .empty) ∧
        (s.installed ≠ some x → s.endSession x cause = s)) ∧
      (∀ a, s.active = some a → ∃ earlier st since, before = earlier ++ st :: since ∧
        InstalledIn settings players catalog earlier st since a ∧
        s.serial = .ok a.session ∧ s.sentCommands = .ok a.sent ∧ s.packets = .ok a.packets) ∧
      (∀ (β : Type) (f : Active → Except SessionError β), (∀ a, f a ≠ .error .notConnected) →
        (s.guarded f = .error .notConnected ↔ s.active = none)) ∧
      ∀ q : Request, q.Guarded → ((q.ask s).2 = some .notConnected ↔ s.active = none) := by
  intro r s call s'
  have hr := run_atRest settings players catalog before
  have hextend : s' = (r.extend after).session := by
    rw [← run_append]
  refine ⟨?handle, ?shown, fun k hk => ?detached, fun τ hτ => ?begins,
    fun earlier st since hbefore hlog hquiet => ?written, fun hheld => ?news,
    fun x cause => ⟨endSession_begins, fun hi => endSession_of_ne hi cause⟩, fun a ha => ?installed,
    fun β f hf => guarded_eq_notConnected fun a _ => hf a, fun q => Request.ask_notConnected⟩
  case handle =>
    rw [hextend, hr.number_extend after, ← List.length_eq_zero_iff]
    exact Nat.add_eq_left
  case shown =>
    rw [hextend]
    exact hr.contents_extend after
  case detached =>
    rw [hextend]
    exact hr.contents_extend_of_lt after hk
  case begins =>
    obtain ⟨steps, st, rest, rfl, hmem⟩ := Run.exists_of_mem_chronicle hτ
    have hrest := hr.extend steps
    have hcomplete := (hrest.complete ?unspent hmem).1
    case unspent =>
      rw [← run_append]
      exact run_unspent settings players catalog _
    refine ⟨hcomplete.number, hcomplete.registry, ?_⟩
    exact (hrest.kind hmem).imp (fun h => ⟨_, h.2⟩) (Or.imp_left fun h => ⟨_, h.2⟩)
  case written =>
    show (run settings players catalog before).session.registry = _
    rw [hbefore]
    exact registry_since settings players catalog hlog hquiet
  case news =>
    refine ⟨fun options => ?_, fun n options => ?_, ?_⟩
    · have hlog : r.log (.connect options) = s.connectLog call options := if_pos hheld
      rw [hlog]
      exact connect_news hr.valid hr.quiet hheld call options
    · have hlog : r.log (.race n options) = s.connectAllLog call options n := if_pos hheld
      rw [hlog]
      exact connectAll_news hr.valid rfl hr.quiet hheld call options n
    · have hlog : r.log .disconnect = s.disconnectLog call := if_pos hheld
      rw [hlog]
      exact disconnect_news hr.valid hheld call
  case installed =>
    obtain ⟨earlier, st, since, hbefore, hin⟩ := exists_installedIn settings players catalog ha
    refine ⟨earlier, st, since, hbefore, hin, ?_, ?_, ?_⟩
    · rw [serial, guarded, ha]
    · rw [sentCommands, guarded, ha]
    · rw [packets, guarded, ha]

/-- A second session knows nothing of the first one, whose registry stays as it was left. -/
example :
    let ada : Player := ⟨some "1", "ada"⟩
    let s := (run .standard [ada] [] [.connect (.forServer "a"), .sendCommand "list",
      .findPlayerByName "ada", .disconnect, .connect (.forServer "a")]).session
    s.serial = .ok 2 ∧ s.sentCommands = .ok [] ∧ s.registry.get? "1" = none ∧
      (s.contents 1).bind (·.get? "1") = some ada := by
  decide +kernel

end run

end Switchboard.Session
