import Switchboard.Session.Access

/-!
# What is behind an error

A collaborator's fault reaches the caller with its own text and its own sources, however many layers
it has passed through.

**Successions** (`Succession`). From a fault one comes to its source, from there to the source of
that, and so on until there is none. There is one way to go (`Succession.unique`).

**Facets** (`withInteraction`, `withQuery`). A caller works on a facet of the installed session, and
what the work returns is returned.

**Main statement** (`errors_are_transparent`).
-/

namespace Switchboard

/-! ## Successions -/

/-- The faults that are met one after another, each the source of the one before. -/
inductive Succession : Option Fault → List Fault → Prop
  | last : Succession none []
  | next {g : Fault} {gs : List Fault} : Succession g.source? gs → Succession (some g) (g :: gs)

theorem Succession.unique {start : Option Fault} {gs hs : List Fault} (hgs : Succession start gs)
    (hhs : Succession start hs) : hs = gs := by
  induction hgs generalizing hs with
  | last =>
    cases hhs
    rfl
  | next _ ih =>
    cases hhs with
    | next hrest => rw [ih hrest]

theorem Succession.sources_eq {start : Option Fault} {gs : List Fault} (hgs : Succession start gs) :
    ∀ f : Fault, f.source? = start → f.sources = gs.map Fault.message := by
  induction hgs with
  | last =>
    intro f hf
    rw [f.sources_eq, hf]
    rfl
  | @next g gs _ ih =>
    intro f hf
    rw [f.sources_eq, hf]
    exact congrArg (g.message :: ·) (ih g rfl)

namespace Fault

/-- A fault passed through some layers. -/
def within (f : Fault) : Nat → Fault
  | 0 => f
  | layers + 1 => wrapped (f.within layers)

@[simp] theorem message_within (f : Fault) (layers : Nat) :
    (f.within layers).message = f.message := by
  induction layers with
  | zero => rfl
  | succ layers ih => exact ih

@[simp] theorem source?_within (f : Fault) (layers : Nat) :
    (f.within layers).source? = f.source? := by
  induction layers with
  | zero => rfl
  | succ layers ih => exact ih

end Fault

/-! ## Facets -/

namespace Session

variable {β : Type}

/-- Work on the interaction facet of the installed session, through which commands may be sent. -/
def withInteraction (s : Session)
    (work : Serial → List String → List String × Except SessionError β) :
    Session × Except SessionError β :=
  match s.active with
  | none => (s, .error .notConnected)
  | some a =>
    let (sent, result) := work a.session a.sent
    ({ s with active := some { a with sent } }, result)

/-- Work on the query facet of the installed session. -/
def withQuery (s : Session) (work : Roster → Except SessionError β) : Except SessionError β :=
  s.guarded fun _ => work s.connector.roster

theorem sendCommand_eq_withInteraction (s : Session) (command : String) :
    s.sendCommand command = s.withInteraction fun _ sent => (sent ++ [command], .ok ()) := by
  unfold sendCommand withInteraction
  cases s.active with
  | none => rfl
  | some a => rfl

theorem nested_eq_withQuery (s : Session) :
    s.nested = s.withQuery fun _ =>
      (s.withInteraction fun serial sent => (sent, .ok (serial, s.isConnected))).2 := by
  unfold nested withQuery withInteraction guarded
  cases s.active with
  | none => rfl
  | some a => rfl

/-- **What the work on a facet returns is returned.** -/
theorem withInteraction_of_installed {s : Session} {a : Active} (ha : s.active = some a)
    (work : Serial → List String → List String × Except SessionError β) :
    (s.withInteraction work).2 = (work a.session a.sent).2 := by
  rw [withInteraction, ha]

theorem withQuery_of_installed {s : Session} {a : Active} (ha : s.active = some a)
    (work : Roster → Except SessionError β) : s.withQuery work = work s.connector.roster := by
  rw [withQuery, guarded, ha]

/-- **A collaborator's fault is passed on as it is.**

Let some faults be the successive sources of a fault, and let this pass through any number of layers
and become a session error. The error has the text of the fault, and going from source to source one
meets those faults and no others, so their texts are those of its sources. It is not retryable. When
the work on a facet of an installed session returns it, then it is what the caller gets. -/
theorem errors_are_transparent {f : Fault} {gs : List Fault} (hgs : Succession f.source? gs)
    (layers : Nat) :
    let e := SessionError.collaborator (f.within layers)
    e.message = f.message ∧
      (∀ hs, Succession e.source? hs ↔ hs = gs) ∧ e.sources = gs.map Fault.message ∧
      e.isRetryable = false ∧
      ∀ (s : Session) (a : Active), s.active = some a → ∀ β : Type,
        (∀ work : Serial → List String → List String × Except SessionError β,
          (work a.session a.sent).2 = .error e → (s.withInteraction work).2 = .error e) ∧
        ∀ work : Roster → Except SessionError β,
          work s.connector.roster = .error e → s.withQuery work = .error e := by
  intro e
  have hsource : e.source? = f.source? := f.source?_within layers
  have hsame : Succession e.source? gs := hsource ▸ hgs
  have hsources : e.sources = gs.map Fault.message :=
    hgs.sources_eq (f.within layers) (f.source?_within layers)
  refine ⟨f.message_within layers, fun hs => ⟨fun hhs => hsame.unique hhs, ?same⟩, hsources, rfl,
    fun s a ha β => ⟨fun work hwork => ?interaction, fun work hwork => ?query⟩⟩
  case same =>
    rintro rfl
    exact hsame
  case interaction => exact (withInteraction_of_installed ha work).trans hwork
  case query => exact (withQuery_of_installed ha work).trans hwork

/-- A fault with two sources passes through two layers. The work on a facet that returns it has sent
a command before. -/
theorem errors_are_transparent_relayed :
    let e := SessionError.collaborator
      ((Fault.chained "connection lost" ["reset by peer", "no route"]).within 2)
    let s := ((Session.new .standard (.new [] [])).connect 0 (.forServer "a")).1
    e.message = "connection lost" ∧ e.sources = ["reset by peer", "no route"] ∧
      e.isRetryable = false ∧ s.isConnected = true ∧
      (s.withInteraction fun _ sent =>
        (sent ++ ["list"], (.error e : Except SessionError Unit))).2 = .error e ∧
      (s.withQuery fun _ => (.error e : Except SessionError Unit)) = .error e := by
  intro e s
  have hgs : Succession (Fault.chained "connection lost" ["reset by peer", "no route"]).source?
      [.chained "reset by peer" ["no route"], .chained "no route" []] := .next (.next .last)
  have hconnected : s.active.isSome = true := by decide +kernel
  obtain ⟨a, ha⟩ := Option.isSome_iff_exists.mp hconnected
  obtain ⟨hmessage, -, hsources, hretry, hpass⟩ := errors_are_transparent hgs 2
  obtain ⟨hinteraction, hquery⟩ := hpass s a ha Unit
  exact ⟨hmessage, hsources, hretry, hconnected, hinteraction _ rfl, hquery _ rfl⟩

end Session

end Switchboard
