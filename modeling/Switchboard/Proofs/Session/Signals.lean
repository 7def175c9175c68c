import Switchboard.Proofs.Session.Connections

/-!
# What is known of signals

The watch over the installed session knows the cause with which its signal ended, and only the first
cause counts.

**The invariant** (`Signalled`). A signal that is pending has not ended, and what a watch over the
installed session was told is how it ended.

**Gone.** A session that is not installed any more does not come back (`Turn.gone`).
-/

namespace Switchboard.Session

/-- What is known of the signals that have ended, when some watches are about to go on. -/
structure Signalled (ready : List Watch) (l : Life) (signals : List (Serial × Cause)) : Prop where
  bounded : ∀ p ∈ signals, p.1 ≤ l.lastSerial
  pending : ∀ x ∈ l.pending, signals.lookup x = none
  fired : ∀ w ∈ ready ++ l.watches, l.installed = some w.session → ∀ cause, w.fired = some cause →
    signals.lookup w.session = some cause

section lookup

variable {signals : List (Serial × Cause)} {x y : Serial} {cause : Cause}

theorem lookup_eq_none_of_bounded {n : Nat} (hb : ∀ p ∈ signals, p.1 ≤ n) (hx : n < x) :
    signals.lookup x = none := by
  rw [List.lookup_eq_none_iff]
  intro p hp
  rw [bne_iff_ne]
  exact Nat.ne_of_gt (Nat.lt_of_le_of_lt (hb p hp) hx)

theorem lookup_append_of_some (h : signals.lookup x = some cause) (more : List (Serial × Cause)) :
    (signals ++ more).lookup x = some cause := by
  rw [List.lookup_append, h]
  rfl

theorem lookup_append_of_ne (hne : x ≠ y) :
    (signals ++ [(y, cause)]).lookup x = signals.lookup x := by
  rw [List.lookup_append, List.lookup_cons, beq_eq_false_iff_ne.mpr hne]
  exact Option.or_none

theorem lookup_append_self (h : signals.lookup x = none) :
    (signals ++ [(x, cause)]).lookup x = some cause := by
  rw [List.lookup_append, h, List.lookup_cons, beq_self_eq_true]
  rfl

end lookup

section signalled

variable {ready ready' : List Watch} {l l' : Life} {signals : List (Serial × Cause)}

theorem Signalled.of_eq (hs : Signalled ready l signals) (h : l' = l) :
    Signalled ready l' signals := h ▸ hs

/-- No signal comes to be pending, and the watches over the installed session know what they knew.
-/
theorem Signalled.mono (hs : Signalled ready l signals) (hlast : l.lastSerial ≤ l'.lastSerial)
    (hpending : ∀ x ∈ l'.pending, x ∈ l.pending)
    (hwatches : ∀ w' ∈ ready' ++ l'.watches, l'.installed = some w'.session →
      ∃ w ∈ ready ++ l.watches, w.session = w'.session ∧ w.fired = w'.fired ∧
        l.installed = some w.session) :
    Signalled ready' l' signals := by
  refine ⟨fun p hp => (hs.bounded p hp).trans hlast, fun x hx => hs.pending x (hpending x hx),
    fun w' hw' hi cause hf => ?_⟩
  obtain ⟨w, hw, hsession, hfired, hi⟩ := hwatches w' hw' hi
  rw [← hsession]
  exact hs.fired w hw hi cause (hfired.trans hf)

theorem Signalled.mail (hs : Signalled ready l signals) (hub : Hub LifecycleCall Nat Message)
    (returned : List LifecycleCall) :
    Signalled ready (returned.foldl Life.start { l with messages := hub }) signals := by
  rw [foldl_start]
  refine hs.mono (Nat.le_refl _) (fun x hx => hx) fun w' hw' hi => ?_
  rcases List.mem_append.mp hw' with hw' | hw'
  · exact ⟨w', List.mem_append_left _ hw', rfl, rfl, hi⟩
  · obtain ⟨w, hw, rfl⟩ := List.mem_map.mp hw'
    obtain ⟨hsession, hfired, -⟩ := foldl_start_watch returned w
    rw [hsession] at hi ⊢
    exact ⟨w, List.mem_append_right _ hw, rfl, hfired.symm, hi⟩

theorem Signalled.reject (hs : Signalled ready l signals) (ha : Accounted ready l) :
    Signalled ready (l.establish.tear (l.lastSerial + 1)) signals := by
  refine hs.mono (Nat.le_succ _) (fun x hx => ?_) fun w' hw' hi => ?_
  · obtain ⟨hx, hne⟩ := List.mem_filter.mp hx
    refine (List.mem_append.mp hx).resolve_right fun h => ?_
    exact bne_iff_ne.mp hne (List.mem_singleton.mp h)
  · rcases List.mem_append.mp hw' with hw' | hw'
    · exact ⟨w', List.mem_append_left _ hw', rfl, rfl, hi⟩
    · obtain ⟨w, hw, rfl⟩ := List.mem_map.mp hw'
      rw [Watch.fire_of_ne (ha.fresh.2.2 w (List.mem_append_right _ hw))] at hi ⊢
      exact ⟨w, List.mem_append_right _ hw, rfl, rfl, hi⟩

theorem Signalled.join (hs : Signalled ready l signals) (ha : Accounted ready l)
    (hub : Hub LifecycleCall Nat Message) (returned : List LifecycleCall) :
    Signalled ready (returned.foldl Life.start { l.establish.install with messages := hub })
      signals := by
  rw [foldl_start]
  refine ⟨fun p hp => Nat.le_succ_of_le (hs.bounded p hp), fun x hx => ?_,
    fun w' hw' hi cause hf => ?_⟩
  · rcases List.mem_append.mp hx with hx | hx
    · exact hs.pending x hx
    · rw [List.mem_singleton.mp hx]
      exact lookup_eq_none_of_bounded hs.bounded (Nat.lt_succ_self _)
  · have hsession : w'.session = l.lastSerial + 1 := (Option.some.inj hi).symm
    rcases List.mem_append.mp hw' with hw' | hw'
    · exact absurd hsession (ha.fresh.2.2 w' (List.mem_append_left _ hw'))
    · obtain ⟨w, hw, rfl⟩ := List.mem_map.mp hw'
      obtain ⟨hs', hf', -⟩ := foldl_start_watch returned w
      rw [hs'] at hsession
      rcases List.mem_append.mp hw with hw | hw
      · exact absurd hsession (ha.fresh.2.2 w (List.mem_append_right _ hw))
      · rw [hf', List.mem_singleton.mp hw] at hf
        cases hf

/-- The first end of a signal is what its watch is told. -/
theorem Signalled.signal (hs : Signalled ready l signals) (ha : Accounted ready l) {x : Serial}
    (hx : x ∈ l.pending) (cause : Cause) :
    Signalled ready (l.signal x cause) (signals ++ [(x, cause)]) := by
  have hinst : l.installed = some x := ha.pending x hx
  have hunknown := hs.pending x hx
  refine ⟨fun p hp => ?_, fun y hy => ?_, fun w' hw' hi cause' hf => ?_⟩
  · rcases List.mem_append.mp hp with hp | hp
    · exact hs.bounded p hp
    · rw [List.mem_singleton.mp hp]
      exact (ha.serial x hinst).2
  · obtain ⟨hy, hne⟩ := List.mem_filter.mp hy
    rw [lookup_append_of_ne (bne_iff_ne.mp hne)]
    exact hs.pending y hy
  · have hsession : w'.session = x := Option.some.inj (hi.symm.trans hinst)
    rw [hsession]
    -- Whoever was told before would know of an end of the signal, which is pending.
    have hnone : ∀ w ∈ ready ++ l.watches, w.session = x → w.fired = none := by
      intro w hw hw'
      cases hfired : w.fired with
      | none => rfl
      | some c =>
        have hknown := hs.fired w hw (hw' ▸ hinst) c hfired
        rw [hw', hunknown] at hknown
        cases hknown
    rcases List.mem_append.mp hw' with hw' | hw'
    · rw [hnone w' (List.mem_append_left _ hw') hsession] at hf
      cases hf
    · obtain ⟨w, hw, rfl⟩ := List.mem_map.mp hw'
      rw [Watch.session_fire] at hsession
      rw [Watch.fired_fire hsession, hnone w (List.mem_append_right _ hw) hsession] at hf
      rw [← hf]
      exact lookup_append_self hunknown

theorem Signalled.vacant (hs : Signalled ready l signals) (hlast : l'.lastSerial = l.lastSerial)
    (hpending : ∀ x ∈ l'.pending, x ∈ l.pending) (hi : l'.installed = none) :
    Signalled ready' l' signals := by
  refine hs.mono (Nat.le_of_eq hlast.symm) hpending fun w _ hw => ?_
  rw [hi] at hw
  cases hw

theorem Signalled.leave (hs : Signalled ready l signals) (x : Serial) :
    Signalled ready' (l.leave x) signals :=
  hs.vacant rfl (fun _ hx => List.mem_of_mem_filter hx) rfl

theorem Signalled.release (hs : Signalled ready l signals) : Signalled ready' l.release signals := by
  unfold Life.release
  cases hi : l.installed with
  | none => exact hs.vacant rfl (fun _ hx => hx) hi
  | some x => exact hs.vacant rfl (fun _ hx => List.mem_of_mem_filter hx) rfl

end signalled

/-! ## Turns -/

section turns

variable {step : Step} {owner : Nat → Option CauseHandle} {t t' : Scene}

/-- **Every turn keeps what is known of the signals.** -/
theorem Turn.signalled (h : Turn step owner t t') (ha : Accounted t.ready t.session.life)
    (hs : Signalled t.ready t.session.life t.signals) :
    Signalled t'.ready t'.session.life t'.signals := by
  cases h with
  | aside hl _ => exact hs.of_eq hl
  | letGo _ hl _ _ =>
    refine Signalled.of_eq ?_ hl
    exact ⟨hs.bounded, hs.pending, hs.fired⟩
  | mail _ hl _ => exact (hs.mail _ _).of_eq hl
  | reject hl _ => exact (hs.reject ha).of_eq hl
  | join _ _ _ _ hl _ _ => exact (hs.join ha _ _).of_eq hl
  | signal hx hl _ => exact (hs.signal ha hx _).of_eq hl
  | leave _ _ hl _ _ => exact (hs.leave _).of_eq hl
  | gather hready =>
    refine hs.mono (Nat.le_refl _) (fun x hx => hx) fun w hw hi => ⟨w, ?_, rfl, rfl, hi⟩
    refine List.mem_append_right _ ?_
    exact (List.filter_append_perm isReady t.session.watches).mem_iff.mp hw
  | watch _ _ _ hl _ _ => exact (hs.leave _).of_eq hl
  | stale hready _ =>
    refine hs.mono (Nat.le_refl _) (fun x hx => hx) fun w hw hi => ⟨w, ?_, rfl, rfl, hi⟩
    rw [hready]
    exact List.mem_cons_of_mem _ hw
  | release _ _ _ => exact hs.release.of_eq (life_release _)
  | causes _ _ _ _ => exact hs.of_eq ((life_readCauses _ _).trans (life_setCycle _ _))
  | follow n _ => exact hs
  | stop _ _ _ => exact hs.of_eq (life_leaveCycle _ _ _)
  | forget _ _ _ => exact hs
  | enroll _ _ _ _ => exact hs

theorem Turns.signalled (h : Turns step owner t t') (ha : Accounted t.ready t.session.life)
    (hs : Signalled t.ready t.session.life t.signals) :
    Signalled t'.ready t'.session.life t'.signals := by
  induction h with
  | refl => exact hs
  | tail hturns hturn ih => exact hturn.signalled (Turns.accounted hturns ha) ih

/-- Connections are numbered upwards. -/
theorem Turn.lastSerial_le (h : Turn step owner t t') :
    t.session.life.lastSerial ≤ t'.session.life.lastSerial := by
  have hlife : ∀ {s : Session} {l : Life}, s.life = l →
      t.session.life.lastSerial ≤ l.lastSerial →
      t.session.life.lastSerial ≤ s.life.lastSerial := by
    intro s l hl hle
    rwa [hl]
  cases h with
  | aside hl _ => exact hlife hl (Nat.le_refl _)
  | letGo _ hl _ _ => exact hlife hl (Nat.le_refl _)
  | mail _ hl _ => exact hlife (hl.trans (foldl_start _ _)) (Nat.le_refl _)
  | reject hl _ => exact hlife hl (Nat.le_succ _)
  | join _ _ _ _ hl _ _ => exact hlife (hl.trans (foldl_start _ _)) (Nat.le_succ _)
  | signal _ hl _ => exact hlife hl (Nat.le_refl _)
  | leave _ _ hl _ _ => exact hlife hl (Nat.le_refl _)
  | gather _ => exact Nat.le_refl _
  | watch _ _ _ hl _ _ => exact hlife hl (Nat.le_refl _)
  | stale _ _ => exact Nat.le_refl _
  | release _ _ _ =>
    refine hlife (life_release _) ?_
    unfold Life.release
    cases t.session.life.installed <;> exact Nat.le_refl _
  | causes _ _ _ _ =>
    exact hlife ((life_readCauses _ _).trans (life_setCycle _ _)) (Nat.le_refl _)
  | follow _ _ => exact Nat.le_refl _
  | stop _ _ _ => exact hlife (life_leaveCycle _ _ _) (Nat.le_refl _)
  | forget _ _ _ => exact Nat.le_refl _
  | enroll _ _ _ _ => exact Nat.le_refl _

/-- A session that is not installed does not come back. -/
def Gone (x : Serial) (l : Life) : Prop := x ≤ l.lastSerial ∧ l.installed ≠ some x

theorem Gone.of_eq {x : Serial} {l l' : Life} (hg : Gone x l) (h : l' = l) : Gone x l' := h ▸ hg

theorem Turn.gone {x : Serial} (h : Turn step owner t t') (hg : Gone x t.session.life) :
    Gone x t'.session.life := by
  have hsame : ∀ {l l' : Life}, l' = l → l.lastSerial = t.session.life.lastSerial →
      l.installed = t.session.life.installed → Gone x l' := by
    intro l l' hl hlast hi
    rw [hl, Gone, hlast, hi]
    exact hg
  have hvacant : ∀ {l l' : Life}, l' = l → l.lastSerial = t.session.life.lastSerial →
      l.installed = none → Gone x l' := by
    intro l l' hl hlast hi
    rw [hl, Gone, hlast, hi]
    exact ⟨hg.1, nofun⟩
  cases h with
  | aside hl _ => exact hsame hl rfl rfl
  | letGo _ hl _ _ => exact hsame hl rfl rfl
  | mail _ hl _ => exact hsame (hl.trans (foldl_start _ _)) rfl rfl
  | reject hl _ =>
    refine Gone.of_eq ?_ hl
    exact ⟨Nat.le_succ_of_le hg.1, hg.2⟩
  | join _ _ _ _ hl _ _ =>
    refine Gone.of_eq ?_ (hl.trans (foldl_start _ _))
    refine ⟨Nat.le_succ_of_le hg.1, fun h => ?_⟩
    rw [← Option.some.inj h] at hg
    exact absurd hg.1 (Nat.not_succ_le_self _)
  | signal _ hl _ => exact hsame hl rfl rfl
  | leave _ _ hl _ _ => exact hvacant hl rfl rfl
  | gather _ => exact hg
  | watch _ _ _ hl _ _ => exact hvacant hl rfl rfl
  | stale _ _ => exact hg
  | release _ _ _ =>
    have hl := life_release t.session
    unfold Life.release at hl
    cases hi : t.session.life.installed with
    | none =>
      rw [hi] at hl
      exact hvacant hl rfl hi
    | some y =>
      rw [hi] at hl
      exact hvacant hl rfl rfl
  | causes _ _ _ _ => exact hsame ((life_readCauses _ _).trans (life_setCycle _ _)) rfl rfl
  | follow n _ => exact hg
  | stop _ _ _ => exact hsame (life_leaveCycle _ _ _) rfl rfl
  | forget _ _ _ => exact hg
  | enroll _ _ _ _ => exact hg

theorem Turns.lastSerial_le (h : Turns step owner t t') :
    t.session.life.lastSerial ≤ t'.session.life.lastSerial := by
  induction h with
  | refl => exact Nat.le_refl _
  | tail _ hturn ih => exact ih.trans hturn.lastSerial_le

theorem Turns.gone {x : Serial} (h : Turns step owner t t') (hg : Gone x t.session.life) :
    Gone x t'.session.life := by
  induction h with
  | refl => exact hg
  | tail _ hturn ih => exact hturn.gone ih

end turns

end Switchboard.Session
