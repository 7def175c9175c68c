import Switchboard.Proofs.Session.Passages

/-!
# The fate of a handle

A handle for a cause follows its cycle until that ends, and has its last cause from then on.

**Following** (`Follows`). While the cycle goes on, nothing has come through the handle.

**Parted** (`Parted`). After the end of the cycle, what has come through the handle and what is
still there for it is the last cause of the cycle, if there was one, or nothing.

**Main statements** (`Turn.follows`, `Turn.parted`). A turn keeps a handle following, or parts it
with the cause for which its cycle ends, and once parted it stays so.
-/

namespace Switchboard.Session

open Hub (Use Confined Ended)

/-- A handle whose cycle goes on, in which `installed?` is the session installed. With `keep`, its
holder has neither cancelled nor dropped it. -/
structure Follows (owner : Nat → Option CauseHandle) (keep : Prop) (handle : CauseHandle)
    (installed? : Option Serial) (t : Scene) : Prop where
  given : handle ∈ t.handles
  current : handle.cycle = t.session.trail.number
  held : t.session.released = false
  installed : t.session.installed = installed?
  got : t.got owner handle = []
  kept : keep → ∃ p, t.session.trail.slot handle.cycle handle.id = some p ∧ p.isOpen = true

/-- A handle whose cycle has ended, for which `last` was the last cause, if there was one. -/
structure Parted (owner : Nat → Option CauseHandle) (keep : Prop) (handle : CauseHandle)
    (last : Option Cause) (t : Scene) : Prop where
  given : handle ∈ t.handles
  past : handle.cycle < t.session.trail.number ∨ t.session.released = true
  got : t.got owner handle ++ t.session.trail.unread handle <+: last.toList
  kept : keep → ∃ p, t.session.trail.slot handle.cycle handle.id = some p ∧
    t.got owner handle ++ p.unread = last.toList

/-! ## The use of handles -/

section use

variable {owner : Nat → Option CauseHandle} {handles : List CauseHandle} {t : Trail}
  {h : Hub Unit CauseReader Cause} {handle other : CauseHandle}

/-- Whoever uses a handle leaves the other handles alone, and loses nothing of a cause. -/
theorem Orderly.use_spec (ho : Orderly owner handles t) (hk : t.hub? other.cycle = some h) (use : Use)
    (call : Nat) (handle : CauseHandle) :
    let reply := use.on h other.id (.call call)
    heard owner handle (reply.received.filterMap callOf) = [] ∧
      through handle (reply.result.map (other, ·)) ++
          (t.setHub other.cycle reply.hub).unread handle <+: t.unread handle ∧
      ∀ p, t.slot handle.cycle handle.id = some p →
        (other = handle → use ≠ .abandon ∧ (p.isOpen = false ∨ use ≠ .cancel)) →
        ∃ p', (t.setHub other.cycle reply.hub).slot handle.cycle handle.id = some p' ∧
          p'.isOpen = p.isOpen ∧
          (p.isOpen = false →
            through handle (reply.result.map (other, ·)) ++ p'.unread = p.unread) := by
  intro reply
  have hl := ho.calm _ h hk
  have hc : Confined (.call call) other.id reply.result h reply.hub reply.received :=
    use.confined hl
  refine ⟨heard_eq_nil fun r hr _ _ _ => (hc.received r hr).1, ?_⟩
  by_cases heq : other = handle
  · subst heq
    have hslot : (t.setHub other.cycle reply.hub).slot other.cycle other.id =
        reply.hub.pipeline? other.id := by
      rw [Trail.slot_setHub, if_pos rfl]
    have hslot₀ : t.slot other.cycle other.id = h.pipeline? other.id := Trail.slot_of_hub hk _
    rw [through_map_self, Trail.unread, Trail.unread, hslot, hslot₀]
    constructor
    · cases hp : h.pipeline? other.id with
      | none =>
        obtain ⟨htaken, hp'⟩ := hc.absent hp
        rw [htaken, hp']
        exact List.prefix_refl _
      | some p =>
        obtain ⟨htaken, hrest⟩ := hc.unread p hp
        cases hp' : reply.hub.pipeline? other.id with
        | none =>
          rw [Option.elim_none, List.append_nil]
          exact htaken
        | some p' => exact (hrest p' hp').1
    · intro p hp hstay
      obtain ⟨p', hp', hopen⟩ := use.keeps hl hp (hstay rfl).1 (hstay rfl).2
      exact ⟨p', hp', hopen, fun hshut => (((hc.unread p hp).2 p' hp').2 hshut).2⟩
  · have hslot : (t.setHub other.cycle reply.hub).slot handle.cycle handle.id =
        t.slot handle.cycle handle.id := by
      rw [Trail.slot_setHub]
      split
      · rename_i hcycle
        have hne : handle.id ≠ other.id := by
          intro hid
          exact heq (by cases other; cases handle; cases hcycle; cases hid; rfl)
        rw [hc.elsewhere _ hne, hcycle, Trail.slot_of_hub hk]
      · rfl
    rw [through_map_of_ne heq, Trail.unread, Trail.unread, hslot]
    exact ⟨List.prefix_refl _, fun p hp _ => ⟨p, hp, rfl, fun _ => rfl⟩⟩

theorem Orderly.shut (ho : Orderly owner handles t)
    (hpast : handle.cycle < t.number ∨ t.released = true)
    {p : Pipeline (Publication Unit Cause) CauseReader Cause}
    (hp : t.slot handle.cycle handle.id = some p) : p.isOpen = false := by
  obtain ⟨h, hk, hp⟩ := Option.bind_eq_some_iff.mp hp
  have hclosed : h.closed = true := by
    by_contra hopen
    obtain ⟨hcycle, hrel⟩ := (ho.closed _ h hk).mp (Bool.eq_false_iff.mpr hopen)
    rcases hpast with hlt | hrel'
    · exact absurd hcycle (Nat.ne_of_lt hlt)
    · rw [hrel] at hrel'
      cases hrel'
  have hshut := ((ho.calm _ h hk).sound.fits_of hp).shut hclosed
  rw [Pipeline.isOpen, hshut]
  rfl

end use

/-- At most one cause is there, so it does not matter how it came. -/
theorem swap_of_le_one {α : Type} {a b c : List α} (h : (a ++ b ++ c).length ≤ 1) :
    a ++ c ++ b = a ++ b ++ c := by
  rcases b with _ | ⟨y, b⟩
  · rw [List.append_nil, List.append_nil]
  · rcases c with _ | ⟨z, c⟩
    · rw [List.append_nil, List.append_nil]
    · simp only [List.length_append, List.length_cons] at h
      omega

/-! ## Turns -/

section turns

variable {step : Step} {owner : Nat → Option CauseHandle} {t t' : Scene} {keep : Prop}
  {handle : CauseHandle} {installed? : Option Serial} {last : Option Cause}

/-- Why a handle has parted from its cycle with a cause, or without one. -/
def Explains (step : Step) (handle : CauseHandle) (installed? : Option Serial) (t : Scene) :
    Option Cause → Prop
  | none => installed? = none ∨ handle.cycle = t.session.trail.number ∧ t.session.released = true
  | some cause => handle.cycle < t.session.trail.number ∧ ∃ x, installed? = some x ∧
      Gone x t.session.life ∧
      (step = .disconnect ∧ cause = .cancelled ∨ t.signals.lookup x = some cause)

theorem got_of_answered (ht : t'.taken = t.taken) {received : List (Nat × Option Cause)}
    (ha : t'.session.trail.answered = t.session.trail.answered ++ received) :
    t'.got owner handle = t.got owner handle ++ heard owner handle received := by
  rw [Scene.got, Scene.got, ht, ha, heard_append, List.append_assoc]

theorem got_of_use {results : List (CauseHandle × Cause)} {received : List (Nat × Option Cause)}
    (ht : t'.taken = t.taken ++ results)
    (ha : t'.session.trail.answered = t.session.trail.answered ++ received)
    (hheard : heard owner handle received = []) :
    t'.got owner handle = through handle t.taken ++ through handle results ++
      heard owner handle t.session.trail.answered := by
  rw [Scene.got, ht, ha, heard_append, hheard, through_append, List.append_nil]

theorem Turn.handles (h : Turn step owner t t') : ∀ H ∈ t.handles, H ∈ t'.handles := by
  intro H hH
  cases h with
  | follow _ _ => exact List.mem_append_left _ hH
  | _ => exact hH

theorem Turn.signals (h : Turn step owner t t') : ∃ more, t'.signals = t.signals ++ more := by
  cases h with
  | signal _ _ _ => exact ⟨_, rfl⟩
  | _ => exact ⟨[], (List.append_nil _).symm⟩

/-- The numbers of cycles go up, and after the release they stay. -/
theorem Passage.number (hp : Passage step owner t t') :
    t.session.trail.number ≤ t'.session.trail.number ∧
      (t.session.released = true →
        t'.session.released = true ∧ t'.session.trail.number = t.session.trail.number) := by
  have hfree : ∀ {b : Bool}, b = false → b = true → False := by
    intro b h h'
    rw [h] at h'
    cases h'
  cases hp with
  | still _ _ hs => exact ⟨Nat.le_of_eq hs.number.symm, fun h => ⟨hs.released.trans h, hs.number⟩⟩
  | turn hrel _ _ _ _ _ hs =>
    exact ⟨(Nat.le_succ _).trans (Nat.le_of_eq hs.number.symm), fun h => (hfree hrel h).elim⟩
  | release hrel _ _ _ hs =>
    exact ⟨Nat.le_of_eq hs.number.symm, fun h => (hfree hrel h).elim⟩
  | use _ _ _ _ _ _ hs =>
    exact ⟨Nat.le_of_eq hs.number.symm, fun h => ⟨hs.released.trans h, hs.number⟩⟩

theorem Follows.part (hf : Follows owner keep handle installed? t)
    (ho : Orderly owner t.handles t.session.trail) {h h' : Hub Unit CauseReader Cause}
    (hk : t.session.trail.hub? t.session.trail.number = some h) (hend : Ended last h h')
    (hgiven : handle ∈ t'.handles)
    (hpast : handle.cycle < t'.session.trail.number ∨ t'.session.released = true)
    (hslot : t'.session.trail.slot handle.cycle handle.id = h'.pipeline? handle.id)
    (ht : t'.taken = t.taken)
    (ha : t'.session.trail.answered =
      t.session.trail.answered ++ (h.waiters.map (·, last)).filterMap callOf) :
    Parted owner keep handle last t' := by
  obtain ⟨hfare, hwhole⟩ := ho.farewell hk hend hf.given hf.current
  have hgot : t'.got owner handle = _ := got_of_answered ht ha
  rw [hf.got, List.nil_append] at hgot
  refine ⟨hgiven, hpast, ?_, fun hkeep => ?_⟩
  · rw [hgot, Trail.unread, hslot]
    exact hfare
  · obtain ⟨p, hp, hopen⟩ := hf.kept hkeep
    rw [hf.current, Trail.slot_of_hub hk] at hp
    rw [hgot, hslot]
    exact hwhole p hp hopen

theorem Follows.turn (hf : Follows owner keep handle installed? t)
    (ho : Orderly owner t.handles t.session.trail) {h h' : Hub Unit CauseReader Cause}
    (hk : t.session.trail.hub? t.session.trail.number = some h) (hend : Ended last h h')
    (hs : Stirs t.handles
      ((t.session.trail.turn h').answer ((h.waiters.map (·, last)).filterMap callOf))
      t'.session.trail)
    (hgiven : handle ∈ t'.handles) (ht : t'.taken = t.taken) :
    handle.cycle < t'.session.trail.number ∧ Parted owner keep handle last t' := by
  have hlt : handle.cycle < t'.session.trail.number := by
    rw [hs.number, hf.current]
    exact Nat.lt_succ_self _
  have hslot : t'.session.trail.slot handle.cycle handle.id = h'.pipeline? handle.id := by
    rw [hs.slot handle hf.given, hf.current]
    exact Trail.slot_turn_self _ _ _
  exact ⟨hlt, hf.part ho hk hend hgiven (Or.inl hlt) hslot ht hs.answered⟩

theorem Follows.use (hf : Follows owner keep handle installed? t)
    (ho : Orderly owner t.handles t.session.trail) {other : CauseHandle} {use : Use} {call : Nat}
    {h : Hub Unit CauseReader Cause} (hk : t.session.trail.hub? other.cycle = some h)
    (hkeep : keep → other = handle → use ≠ .abandon ∧ use ≠ .cancel) (hgiven : handle ∈ t'.handles)
    (ht : t'.taken = t.taken ++ (use.on h other.id (.call call)).result.map (other, ·))
    (hi : t'.session.installed = t.session.installed)
    (hs : Stirs t.handles
      ((t.session.trail.setHub other.cycle (use.on h other.id (.call call)).hub).answer
        ((use.on h other.id (.call call)).received.filterMap callOf)) t'.session.trail) :
    Follows owner keep handle installed? t' := by
  obtain ⟨hheard, hpre, hstay⟩ := ho.use_spec hk use call handle
  -- Nothing is unread before the end of the cycle, so nothing is taken.
  have hu : t.session.trail.unread handle = [] := by
    rw [Trail.unread]
    cases hp : t.session.trail.slot handle.cycle handle.id with
    | none => rfl
    | some p => exact ho.fresh handle.id p (hf.current ▸ hp)
  rw [hu] at hpre
  have htaken := (List.append_eq_nil_iff.mp (List.prefix_nil.mp hpre)).1
  refine ⟨hgiven, hf.current.trans hs.number.symm, hs.released.trans hf.held,
    hi.trans hf.installed, ?_, fun hk' => ?_⟩
  · rw [got_of_use ht hs.answered hheard, htaken, List.append_nil]
    exact hf.got
  · obtain ⟨p, hp, hopen⟩ := hf.kept hk'
    obtain ⟨p', hp', hopen', -⟩ := hstay p hp fun heq =>
      (hkeep hk' heq).imp_right Or.inr
    rw [hs.slot handle hf.given]
    exact ⟨p', hp', hopen'.trans hopen⟩

/-- **A handle follows its cycle until that ends, and parts with its last cause.** -/
theorem Turn.follows (h : Turn step owner t t') (hv : Valid owner t)
    (hs : Signalled t.ready t.session.life t.signals)
    (hkeep : keep → ∀ use, step = .causes handle use → use ≠ .abandon ∧ use ≠ .cancel)
    (hf : Follows owner keep handle installed? t) :
    Follows owner keep handle installed? t' ∨
      ∃ last, Parted owner keep handle last t' ∧ Explains step handle installed? t' last := by
  have ho := hv.orderly
  have hgiven := h.handles handle hf.given
  -- A handle parts with its cycle where that turns or the state is released, and nowhere else.
  cases h.passage hv hs with
  | still ht hi hs =>
    refine Or.inl ⟨hgiven, hf.current.trans hs.number.symm, hs.released.trans hf.held,
      hi.trans hf.installed, ?_, fun hk => ?_⟩
    · rw [Scene.got, ht, hs.answered]
      exact hf.got
    · rw [hs.slot handle hf.given]
      exact hf.kept hk
  | @turn g g' cause _ ht hreason hleft hk hend hs =>
    obtain ⟨hlt, hparted⟩ := hf.turn ho hk hend hs hgiven ht
    refine Or.inr ⟨cause, hparted, ?_⟩
    cases cause with
    | none => exact Or.inl (hf.installed.symm.trans hreason)
    | some cause =>
      obtain ⟨x, hi, hwhy⟩ := hreason
      obtain ⟨more, hmore⟩ := h.signals
      have hgone : t'.session.installed = none := hleft.resolve_left fun h => by
        rw [hi] at h
        cases h
      refine ⟨hlt, x, hf.installed.symm.trans hi,
        ⟨(hv.accounted.serial x hi).2.trans h.lastSerial_le, fun h => ?_⟩,
        hwhy.imp_right fun hknown => ?_⟩
      · rw [show t'.session.life.installed = none from hgone] at h
        cases h
      · rw [hmore]
        exact lookup_append_of_some hknown more
  | @release g g' _ ht hk hend hs =>
    have hslot : t'.session.trail.slot handle.cycle handle.id = g'.pipeline? handle.id := by
      rw [hs.slot handle hf.given, hf.current]
      exact (Trail.slot_setHub g' _ _ _).trans (if_pos rfl)
    exact Or.inr ⟨none, hf.part ho hk hend hgiven (Or.inr hs.released) hslot ht hs.answered,
      Or.inr ⟨hf.current.trans hs.number.symm, hs.released⟩⟩
  | use hstep _ _ hk ht hi hs =>
    exact Or.inl (hf.use ho hk (fun hk' heq => hkeep hk' _ (heq ▸ hstep)) hgiven ht hi hs)

theorem Parted.lt_number (hp : Parted owner keep handle last t)
    (hrel : t.session.released = false) : handle.cycle < t.session.trail.number := by
  refine hp.past.resolve_right fun h => ?_
  rw [hrel] at h
  cases h

theorem Parted.still (hp : Parted owner keep handle last t) (hgiven : handle ∈ t'.handles)
    (hpast : handle.cycle < t'.session.trail.number ∨ t'.session.released = true)
    (hgot : t'.got owner handle = t.got owner handle)
    (hslot : t'.session.trail.slot handle.cycle handle.id =
      t.session.trail.slot handle.cycle handle.id) :
    Parted owner keep handle last t' := by
  refine ⟨hgiven, hpast, ?_, ?_⟩
  · rw [hgot, Trail.unread, hslot]
    exact hp.got
  · rw [hgot, hslot]
    exact hp.kept

theorem got_of_ended (ho : Orderly owner t.handles t.session.trail)
    {h : Hub Unit CauseReader Cause}
    (hk : t.session.trail.hub? t.session.trail.number = some h)
    (hlt : handle.cycle < t.session.trail.number) (cause : Option Cause) (ht : t'.taken = t.taken)
    (ha : t'.session.trail.answered =
      t.session.trail.answered ++ (h.waiters.map (·, cause)).filterMap callOf) :
    t'.got owner handle = t.got owner handle := by
  rw [got_of_answered ht ha, ho.heard_none hk (fun heq => absurd heq (Nat.ne_of_lt hlt)) cause,
    List.append_nil]

/-- A use of the handle takes of its last cause, and loses nothing of it. -/
theorem Parted.use (hp : Parted owner keep handle last t)
    (ho : Orderly owner t.handles t.session.trail) {other : CauseHandle} {use : Use} {call : Nat}
    {h : Hub Unit CauseReader Cause} (hk : t.session.trail.hub? other.cycle = some h)
    (hkeep : keep → other = handle → use ≠ .abandon) (hgiven : handle ∈ t'.handles)
    (hpast : handle.cycle < t'.session.trail.number ∨ t'.session.released = true)
    (ht : t'.taken = t.taken ++ (use.on h other.id (.call call)).result.map (other, ·))
    (hs : Stirs t.handles
      ((t.session.trail.setHub other.cycle (use.on h other.id (.call call)).hub).answer
        ((use.on h other.id (.call call)).received.filterMap callOf)) t'.session.trail) :
    Parted owner keep handle last t' := by
  obtain ⟨hheard, hpre, hstay⟩ := ho.use_spec hk use call handle
  set values := through handle ((use.on h other.id (.call call)).result.map (other, ·)) with hvalues
  have hunread : t'.session.trail.unread handle =
      (t.session.trail.setHub other.cycle (use.on h other.id (.call call)).hub).unread handle := by
    rw [Trail.unread, hs.slot handle hp.given]
    rfl
  have hlong : (t.got owner handle ++ values).length ≤ 1 := by
    have hle := (((List.prefix_append_right_inj (t.got owner handle)).mpr
      ((List.prefix_append _ _).trans hpre)).trans hp.got).length_le
    exact hle.trans (Option.length_toList_le)
  have hgot : t'.got owner handle = t.got owner handle ++ values :=
    (got_of_use ht hs.answered hheard).trans (swap_of_le_one hlong)
  refine ⟨hgiven, hpast, ?_, fun hk' => ?_⟩
  · rw [hgot, hunread, List.append_assoc]
    exact ((List.prefix_append_right_inj _).mpr hpre).trans hp.got
  · obtain ⟨p, hslot, hwhole⟩ := hp.kept hk'
    have hshut := ho.shut hp.past hslot
    obtain ⟨p', hp', -, hrest⟩ := hstay p hslot fun heq => ⟨hkeep hk' heq, Or.inl hshut⟩
    rw [hs.slot handle hp.given, hgot]
    refine ⟨p', hp', ?_⟩
    rw [List.append_assoc, hrest hshut]
    exact hwhole

/-- **Once a handle has parted, its last cause stays what it was.** -/
theorem Turn.parted (h : Turn step owner t t') (hv : Valid owner t)
    (hs : Signalled t.ready t.session.life t.signals)
    (hkeep : keep → step ≠ .causes handle .abandon) (hp : Parted owner keep handle last t) :
    Parted owner keep handle last t' := by
  have ho := hv.orderly
  have hgiven := h.handles handle hp.given
  have hpassage := h.passage hv hs
  have hpast : handle.cycle < t'.session.trail.number ∨ t'.session.released = true :=
    hp.past.imp (fun hlt => hlt.trans_le hpassage.number.1) fun hrel =>
      (hpassage.number.2 hrel).1
  cases hpassage with
  | still ht _ hs =>
    refine hp.still hgiven hpast ?_ (hs.slot handle hp.given)
    rw [Scene.got, ht, hs.answered]
    rfl
  | turn hrel ht _ _ hk _ hs =>
    have hlt := hp.lt_number hrel
    refine hp.still hgiven hpast (got_of_ended ho hk hlt _ ht hs.answered) ?_
    rw [hs.slot handle hp.given]
    exact Trail.slot_turn_of_lt hlt _ _
  | release hrel ht hk _ hs =>
    have hlt := hp.lt_number hrel
    refine hp.still hgiven hpast (got_of_ended ho hk hlt none ht hs.answered) ?_
    rw [hs.slot handle hp.given]
    exact (Trail.slot_setHub _ _ _ _).trans (if_neg (Nat.ne_of_lt hlt))
  | use hstep _ _ hk ht _ hs =>
    refine hp.use ho hk (fun hk' heq habandon => hkeep hk' ?_) hgiven hpast ht hs
    rw [hstep, heq, habandon]

theorem Turn.explains (h : Turn step owner t t') (hv : Valid owner t)
    (hs : Signalled t.ready t.session.life t.signals)
    (he : Explains step handle installed? t last) : Explains step handle installed? t' last := by
  have hnumber := (h.passage hv hs).number
  cases last with
  | none =>
    refine he.imp_right fun ⟨hcurrent, hrel⟩ => ?_
    obtain ⟨hrel', hsame⟩ := hnumber.2 hrel
    exact ⟨hcurrent.trans hsame.symm, hrel'⟩
  | some cause =>
    obtain ⟨hlt, x, hi, hgone, hwhy⟩ := he
    obtain ⟨more, hmore⟩ := h.signals
    refine ⟨hlt.trans_le hnumber.1, x, hi, h.gone hgone, hwhy.imp_right fun hknown => ?_⟩
    rw [hmore]
    exact lookup_append_of_some hknown more

/-! ## Some turns -/

theorem Turns.parted (h : Turns step owner t t') (hv : Valid owner t)
    (hs : Signalled t.ready t.session.life t.signals)
    (hkeep : keep → step ≠ .causes handle .abandon) (hp : Parted owner keep handle last t) :
    Parted owner keep handle last t' := by
  induction h with
  | refl => exact hp
  | tail hturns hturn ih =>
    exact hturn.parted (Turns.valid hturns hv) (Turns.signalled hturns hv.accounted hs) hkeep ih

theorem Turns.explains (h : Turns step owner t t') (hv : Valid owner t)
    (hs : Signalled t.ready t.session.life t.signals)
    (he : Explains step handle installed? t last) : Explains step handle installed? t' last := by
  induction h with
  | refl => exact he
  | tail hturns hturn ih =>
    exact hturn.explains (Turns.valid hturns hv) (Turns.signalled hturns hv.accounted hs) ih

/-- **After some turns a handle follows its cycle still, or has parted with its last cause.** -/
theorem Turns.follows (h : Turns step owner t t') (hv : Valid owner t)
    (hs : Signalled t.ready t.session.life t.signals)
    (hkeep : keep → ∀ use, step = .causes handle use → use ≠ .abandon ∧ use ≠ .cancel)
    (hf : Follows owner keep handle installed? t) :
    Follows owner keep handle installed? t' ∨
      ∃ last, Parted owner keep handle last t' ∧ Explains step handle installed? t' last := by
  induction h with
  | refl => exact Or.inl hf
  | tail hturns hturn ih =>
    have hv' := Turns.valid hturns hv
    have hs' := Turns.signalled hturns hv.accounted hs
    rcases ih with hf | ⟨last, hp, he⟩
    · exact hturn.follows hv' hs' hkeep hf
    · exact Or.inr ⟨last, hturn.parted hv' hs' (fun hk h => (hkeep hk _ h).1 rfl) hp,
        hturn.explains hv' hs' he⟩

end turns

end Switchboard.Session
