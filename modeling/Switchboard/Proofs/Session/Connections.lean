import Switchboard.Proofs.Session.Turns

/-!
# Every connection is accounted for

A connection that was established is installed, or has been torn down once. The four places that
tear one down, namely a connect that lost, a disconnect, a watch and the release, each take it away
before.

**The invariant** (`Accounted`). Only the installed session has a signal pending. Somebody watches
over it, who knows if its signal went away, and who goes on unless its connect is still parked.

**Main statement** (`Turn.accounted`). Every turn keeps it.
-/

namespace Switchboard

section watches

variable {session x : Serial} {cause : Cause} {who : LifecycleCall} {w : Watch}

@[simp] theorem Watch.session_fire : (w.fire session cause).session = w.session := by
  unfold fire
  split <;> rfl

@[simp] theorem Watch.running_fire : (w.fire session cause).running = w.running := by
  unfold fire
  split <;> rfl

theorem Watch.fire_of_ne (hne : w.session ≠ session) : w.fire session cause = w := by
  rw [fire, if_neg]
  rw [Bool.and_eq_true, decide_eq_true_eq, not_and]
  exact fun h => absurd h hne

theorem Watch.fired_fire (hs : w.session = session) :
    (w.fire session cause).fired = some (w.fired.getD cause) := by
  unfold fire
  cases hf : w.fired with
  | none => simp [hs]
  | some c => simp [hf]

@[simp] theorem Watch.session_start : (w.start who).session = w.session := by
  cases who with
  | connect call session =>
    unfold start
    dsimp only
    split <;> rfl
  | _ => rfl

@[simp] theorem Watch.fired_start : (w.start who).fired = w.fired := by
  cases who with
  | connect call session =>
    unfold start
    dsimp only
    split <;> rfl
  | _ => rfl

theorem Watch.running_of_start (hr : (w.start who).running = false) :
    w.running = false ∧ ∀ call, who ≠ .connect call w.session := by
  cases who with
  | connect call session =>
    unfold start at hr
    dsimp only at hr
    split at hr
    · cases hr
    · rename_i hne
      refine ⟨hr, fun call' heq => hne ?_⟩
      injection heq with _ h
      exact h.symm
  | _ => exact ⟨hr, fun call h => nomatch h⟩

end watches

namespace Session

/-- What a watch over the installed session knows: its signal is pending unless it went away, and it
waits for a connect that is parked unless it is running. -/
structure Guards (pending : List Serial) (messages : Hub LifecycleCall Nat Message) (w : Watch) :
    Prop where
  pending : w.fired = none → w.session ∈ pending
  running : w.running = false → ∃ call, .connect call w.session ∈ parkedCalls messages

/-- Every connection is accounted for, when some watches are about to go on. -/
structure Accounted (ready : List Watch) (l : Life) : Prop where
  torn : ∀ x, l.tornDown.count x =
    if 1 ≤ x ∧ x ≤ l.lastSerial ∧ l.installed ≠ some x then 1 else 0
  serial : ∀ x, l.installed = some x → 1 ≤ x ∧ x ≤ l.lastSerial
  pending : ∀ x ∈ l.pending, l.installed = some x
  once : l.pending.Nodup
  going : ∀ w ∈ ready, isReady w = true
  bounded : ∀ w ∈ ready ++ l.watches, w.session ≤ l.lastSerial
  distinct : ((ready ++ l.watches).map (·.session)).Nodup
  watched : ∀ x, l.installed = some x → ∃ w ∈ ready ++ l.watches, w.session = x ∧
    Guards l.pending l.messages w
  good : l.messages.Good
  gone : l.released = true → l.installed = none ∧ l.hasHandle = false

section accounted

variable {ready : List Watch} {l : Life}

theorem map_session {f : Watch → Watch} (hs : ∀ w, (f w).session = w.session)
    (going watches : List Watch) : (going ++ watches.map f).map (·.session) =
      (going ++ watches).map (·.session) := by
  rw [List.map_append, List.map_append, List.map_map]
  exact congrArg _ (List.map_congr_left fun w _ => hs w)

/-- What has just been established was never seen before. -/
theorem Accounted.fresh (ha : Accounted ready l) :
    l.lastSerial + 1 ∉ l.pending ∧ l.installed ≠ some (l.lastSerial + 1) ∧
      ∀ w ∈ ready ++ l.watches, w.session ≠ l.lastSerial + 1 := by
  have hinst : l.installed ≠ some (l.lastSerial + 1) := by
    intro h
    exact absurd (ha.serial _ h).2 (Nat.not_succ_le_self _)
  refine ⟨fun h => hinst (ha.pending _ h), hinst, fun w hw h => ?_⟩
  have hle := ha.bounded w hw
  rw [h] at hle
  exact absurd hle (Nat.not_succ_le_self _)

/-- A holder lets go. -/
theorem Accounted.letGo (ha : Accounted ready l) {b : Bool} (hb : b = true → l.hasHandle = true) :
    Accounted ready { l with hasHandle := b } where
  torn := ha.torn
  serial := ha.serial
  pending := ha.pending
  once := ha.once
  going := ha.going
  bounded := ha.bounded
  distinct := ha.distinct
  watched := ha.watched
  good := ha.good
  gone hr := by
    obtain ⟨hinst, hnone⟩ := ha.gone hr
    refine ⟨hinst, Bool.eq_false_iff.mpr fun h => ?_⟩
    rw [hb h] at hnone
    cases hnone

/-- Changing the watches, each of which stays with its session. -/
theorem Accounted.map_watches (ha : Accounted ready l) {f : Watch → Watch}
    (hs : ∀ w, (f w).session = w.session) {messages : Hub LifecycleCall Nat Message}
    {pending : List Serial} (hpending : pending.Sublist l.pending) (hgood : messages.Good)
    (hguards : ∀ w ∈ ready, Guards l.pending l.messages w → Guards pending messages w)
    (hmoved : ∀ w ∈ l.watches, Guards l.pending l.messages w → Guards pending messages (f w)) :
    Accounted ready { l with watches := l.watches.map f, messages, pending } := by
  have hmap := map_session hs ready l.watches
  refine ⟨ha.torn, ha.serial, fun x hx => ha.pending x (hpending.subset hx),
    ha.once.sublist hpending, ha.going, fun w' hw' => ?_, ?_, fun x hx => ?_, hgood, ha.gone⟩
  · have hmem : w'.session ∈ (ready ++ l.watches.map f).map (·.session) := List.mem_map_of_mem hw'
    rw [hmap] at hmem
    obtain ⟨w, hw, heq⟩ := List.mem_map.mp hmem
    rw [← heq]
    exact ha.bounded w hw
  · show ((ready ++ l.watches.map f).map (·.session)).Nodup
    rw [hmap]
    exact ha.distinct
  · obtain ⟨w, hw, rfl, hg⟩ := ha.watched x hx
    rcases List.mem_append.mp hw with h | h
    · exact ⟨w, List.mem_append_left _ h, rfl, hguards w h hg⟩
    · exact ⟨f w, List.mem_append_right _ (List.mem_map_of_mem h), hs w, hmoved w h hg⟩

/-! ## Messages -/

theorem foldl_start (returned : List LifecycleCall) (l : Life) :
    returned.foldl Life.start l =
      { l with watches := l.watches.map fun w => returned.foldl (fun w who => w.start who) w } := by
  induction returned generalizing l with
  | nil => exact congrArg (fun ws => { l with watches := ws }) (List.map_id _).symm
  | cons who rest ih =>
    rw [List.foldl_cons, ih]
    exact congrArg (fun ws => { l with watches := ws }) (List.map_map ..)

theorem foldl_start_watch (returned : List LifecycleCall) (w : Watch) :
    (returned.foldl (fun w who => w.start who) w).session = w.session ∧
      (returned.foldl (fun w who => w.start who) w).fired = w.fired ∧
      ((returned.foldl (fun w who => w.start who) w).running = false →
        w.running = false ∧ ∀ call, .connect call w.session ∉ returned) := by
  induction returned generalizing w with
  | nil => exact ⟨rfl, rfl, fun hr => ⟨hr, fun _ => List.not_mem_nil⟩⟩
  | cons who rest ih =>
    obtain ⟨hs, hf, hr⟩ := ih (w.start who)
    refine ⟨hs.trans Watch.session_start, hf.trans Watch.fired_start, fun hrun => ?_⟩
    obtain ⟨hrun', hrest⟩ := hr hrun
    obtain ⟨hrun, hne⟩ := Watch.running_of_start hrun'
    rw [Watch.session_start] at hrest
    exact ⟨hrun, fun call hmem => (List.mem_cons.mp hmem).elim (fun h => hne call h.symm)
      (hrest call)⟩

theorem not_running_of_isReady {w : Watch} (h : isReady w = true) : w.running ≠ false := by
  intro hr
  rw [isReady, hr] at h
  cases h

/-- A watch starts when its connect returns. -/
theorem Accounted.mail (ha : Accounted ready l) {hub : Hub LifecycleCall Nat Message}
    {called returned : List LifecycleCall} (hp : Passed l.messages hub called returned) :
    Accounted ready (returned.foldl Life.start { l with messages := hub }) := by
  rw [foldl_start]
  refine ha.map_watches (fun w => (foldl_start_watch returned w).1) (List.Sublist.refl _) hp.good
    (fun w hw hg => ⟨hg.pending, fun hr => ?_⟩) fun w hw hg => ?_
  · exact absurd hr (not_running_of_isReady (ha.going w hw))
  · obtain ⟨hs, hf, hr⟩ := foldl_start_watch returned w
    refine ⟨fun hfired => ?_, fun hrun => ?_⟩
    · rw [hs]
      exact hg.pending (hf.symm.trans hfired)
    · obtain ⟨hrun', hnot⟩ := hr hrun
      obtain ⟨call, hcall⟩ := hg.running hrun'
      rw [hs]
      exact ⟨call, (hp.mem hcall).resolve_left (hnot call)⟩

/-! ## Coming and going -/

/-- The connection of a connect that lost is torn down at once. -/
theorem Accounted.reject (ha : Accounted ready l) :
    Accounted ready (l.establish.tear (l.lastSerial + 1)) := by
  obtain ⟨hpending, hinst, hwatches⟩ := ha.fresh
  have heq : l.establish.tear (l.lastSerial + 1) = { l with
      lastSerial := l.lastSerial + 1, tornDown := (l.lastSerial + 1) :: l.tornDown } := by
    have hfilter : (l.pending ++ [l.lastSerial + 1]).filter (· != l.lastSerial + 1) = l.pending := by
      rw [List.filter_append, List.filter_eq_self.mpr]
      · simp
      · intro x hx
        rw [bne_iff_ne]
        exact fun h => hpending (h ▸ hx)
    have hfire : l.watches.map (·.fire (l.lastSerial + 1) .signalLost) = l.watches :=
      (List.map_congr_left fun w hw =>
        Watch.fire_of_ne (hwatches w (List.mem_append_right _ hw))).trans (List.map_id _)
    simp only [Life.establish, Life.tear, hfilter, hfire]
  rw [heq]
  refine { ha with
    torn := fun x => ?_
    serial := fun x hx => ⟨(ha.serial x hx).1, Nat.le_succ_of_le (ha.serial x hx).2⟩
    bounded := fun w hw => Nat.le_succ_of_le (ha.bounded w hw) }
  show List.count x ((l.lastSerial + 1) :: l.tornDown) =
    if 1 ≤ x ∧ x ≤ l.lastSerial + 1 ∧ l.installed ≠ some x then 1 else 0
  rw [List.count_cons, ha.torn]
  by_cases hx : x = l.lastSerial + 1
  · subst hx
    simp [hinst]
  · have hle : x ≤ l.lastSerial + 1 ↔ x ≤ l.lastSerial := Nat.le_succ_iff.trans (or_iff_left hx)
    simp only [hle, beq_iff_eq, Ne.symm hx, if_false, Nat.add_zero]

/-- The connection that is installed is the newest one. -/
theorem Accounted.join (ha : Accounted ready l) (hh : l.hasHandle = true) (hi : l.installed = none)
    {hub : Hub LifecycleCall Nat Message} {call : Nat} {returned : List LifecycleCall}
    (hp : Passed l.messages hub [.connect call (l.lastSerial + 1)] returned) :
    Accounted ready
      (returned.foldl Life.start { l.establish.install with messages := hub }) := by
  obtain ⟨-, -, hwatches⟩ := ha.fresh
  -- With nothing installed no signal is pending, so the new one is alone.
  have hnone : l.pending = [] := by
    refine List.eq_nil_iff_forall_not_mem.mpr fun x hx => ?_
    have := ha.pending x hx
    rw [hi] at this
    cases this
  set f : Watch → Watch := fun w => returned.foldl (fun w who => w.start who) w with hf
  set w₀ : Watch := ⟨l.lastSerial + 1, false, none⟩ with hw₀
  have hsession : ∀ w, (f w).session = w.session := fun w => (foldl_start_watch returned w).1
  have hmap : (ready ++ (l.watches ++ [w₀]).map f).map (·.session) =
      (ready ++ l.watches).map (·.session) ++ [l.lastSerial + 1] := by
    rw [map_session hsession, ← List.append_assoc, List.map_append]
    rfl
  rw [foldl_start]
  constructor
  case torn =>
    intro x
    show l.tornDown.count x =
      if 1 ≤ x ∧ x ≤ l.lastSerial + 1 ∧ some (l.lastSerial + 1) ≠ some x then 1 else 0
    rw [ha.torn, hi]
    by_cases hx : x = l.lastSerial + 1
    · subst hx
      rw [if_neg fun h => absurd h.2.1 (Nat.not_succ_le_self _), if_neg fun h => h.2.2 rfl]
    · have hle : x ≤ l.lastSerial + 1 ↔ x ≤ l.lastSerial :=
        Nat.le_succ_iff.trans (or_iff_left hx)
      simp [hle, Ne.symm hx]
  case serial =>
    intro x hx
    rw [← show l.lastSerial + 1 = x from Option.some.inj hx]
    exact ⟨Nat.le_add_left 1 _, Nat.le_refl _⟩
  case pending =>
    intro x hx
    have hx' : x ∈ l.pending ++ [l.lastSerial + 1] := hx
    rw [hnone] at hx'
    exact congrArg some (List.mem_singleton.mp hx').symm
  case once =>
    show (l.pending ++ [l.lastSerial + 1]).Nodup
    rw [hnone]
    exact List.nodup_singleton _
  case going => exact ha.going
  case bounded =>
    intro w hw
    have hmem : w.session ∈ (ready ++ (l.watches ++ [w₀]).map f).map (·.session) :=
      List.mem_map_of_mem hw
    rw [hmap] at hmem
    rcases List.mem_append.mp hmem with h | h
    · obtain ⟨w', hw', heq⟩ := List.mem_map.mp h
      rw [← heq]
      exact Nat.le_succ_of_le (ha.bounded w' hw')
    · exact Nat.le_of_eq (List.mem_singleton.mp h)
  case distinct =>
    show ((ready ++ (l.watches ++ [w₀]).map f).map (·.session)).Nodup
    rw [hmap]
    refine List.nodup_append.mpr ⟨ha.distinct, List.nodup_singleton _, fun a ha b hb => ?_⟩
    obtain ⟨w, hw, rfl⟩ := List.mem_map.mp ha
    rw [List.mem_singleton.mp hb]
    exact hwatches w hw
  case watched =>
    intro x hx
    obtain rfl : l.lastSerial + 1 = x := Option.some.inj hx
    have hmem : f w₀ ∈ (l.watches ++ [w₀]).map f :=
      List.mem_map_of_mem (List.mem_append_right _ (List.mem_singleton_self _))
    refine ⟨f w₀, List.mem_append_right _ hmem, hsession w₀, fun _ => ?_, fun hrun => ?_⟩
    · rw [hsession]
      exact List.mem_append_right _ (List.mem_singleton_self _)
    · rw [hsession]
      -- A watch that does not run yet waits for a publish that has not returned.
      have hnot := ((foldl_start_watch returned w₀).2.2 hrun).2 call
      have hcall := hp.calls.mem_iff.mp (List.mem_append_right _ (List.mem_singleton_self _))
      exact ⟨call, (List.mem_append.mp hcall).resolve_right hnot⟩
  case good => exact hp.good
  case gone =>
    intro hrel
    have hnot := (ha.gone hrel).2
    rw [hh] at hnot
    cases hnot

theorem Accounted.signal (ha : Accounted ready l) {x : Serial} (cause : Cause) :
    Accounted ready (l.signal x cause) := by
  refine ha.map_watches (fun w => Watch.session_fire) List.filter_sublist ha.good
    (fun w hw hg => ⟨fun hf => ?_, hg.running⟩) fun w hw hg => ⟨fun hf => ?_, fun hr => ?_⟩
  · have := ha.going w hw
    rw [isReady, hf, Bool.and_eq_true] at this
    cases this.2
  · by_cases hx : w.session = x
    · rw [Watch.fired_fire hx] at hf
      cases hf
    · rw [Watch.fire_of_ne hx] at hf ⊢
      exact List.mem_filter.mpr ⟨hg.pending hf, bne_iff_ne.mpr hx⟩
  · rw [Watch.running_fire] at hr
    rw [Watch.session_fire]
    exact hg.running hr

/-- The session that ends is torn down, and its signal with it. -/
theorem Accounted.leave (ha : Accounted ready l) {x : Serial} (hi : l.installed = some x)
    {going : List Watch} (hsub : going.Sublist ready) : Accounted going (l.leave x) := by
  have hfire : ∀ w : Watch, (w.fire x .signalLost).session = w.session := fun _ => Watch.session_fire
  have hmap := map_session hfire going l.watches
  have hsub' : (going ++ l.watches).Sublist (ready ++ l.watches) := hsub.append (List.Sublist.refl _)
  constructor
  case torn =>
    intro y
    show List.count y (x :: l.tornDown) =
      if 1 ≤ y ∧ y ≤ l.lastSerial ∧ (none : Option Serial) ≠ some y then 1 else 0
    rw [List.count_cons, ha.torn, hi]
    by_cases hy : y = x
    · subst hy
      simp [ha.serial y hi]
    · simp [Ne.symm hy]
  case serial => exact fun _ hy => nomatch hy
  case pending =>
    intro y hy
    obtain ⟨hy, hne⟩ := List.mem_filter.mp hy
    have hy' := ha.pending y hy
    rw [hi, Option.some.injEq] at hy'
    rw [hy', bne_self_eq_false] at hne
    cases hne
  case once => exact ha.once.filter _
  case going => exact fun w hw => ha.going w (hsub.subset hw)
  case bounded =>
    intro w hw
    have hmem : w.session ∈ (going ++ l.watches.map (·.fire x .signalLost)).map (·.session) :=
      List.mem_map_of_mem hw
    rw [hmap] at hmem
    obtain ⟨w', hw', heq⟩ := List.mem_map.mp hmem
    rw [← heq]
    exact ha.bounded w' (hsub'.subset hw')
  case distinct =>
    show ((going ++ l.watches.map (·.fire x .signalLost)).map (·.session)).Nodup
    rw [hmap]
    exact ha.distinct.sublist (hsub'.map _)
  case watched => exact fun _ hy => nomatch hy
  case good => exact ha.good
  case gone => exact fun hrel => ⟨rfl, (ha.gone hrel).2⟩

/-! ## Watches that go on -/

theorem Accounted.gather (ha : Accounted [] l) :
    Accounted (l.watches.filter isReady) { l with watches := l.watches.filter (!isReady ·) } := by
  have hperm : (l.watches.filter isReady ++ l.watches.filter (!isReady ·)).Perm l.watches :=
    List.filter_append_perm isReady l.watches
  refine { ha with
    going := fun w hw => (List.mem_filter.mp hw).2
    bounded := fun w hw => ha.bounded w (hperm.mem_iff.mp hw)
    distinct := ((hperm.map _).nodup_iff).mpr ha.distinct
    watched := fun x hx => ?_ }
  obtain ⟨w, hw, hs, hg⟩ := ha.watched x hx
  exact ⟨w, hperm.mem_iff.mpr hw, hs, hg⟩

theorem Accounted.stale {w : Watch} (ha : Accounted (w :: ready) l)
    (hi : l.installed ≠ some w.session) : Accounted ready l := by
  refine { ha with
    going := fun v hv => ha.going v (List.mem_cons_of_mem _ hv)
    bounded := fun v hv => ha.bounded v (List.mem_cons_of_mem _ hv)
    distinct := (List.nodup_cons.mp ha.distinct).2
    watched := fun x hx => ?_ }
  obtain ⟨v, hv, hs, hg⟩ := ha.watched x hx
  refine ⟨v, (List.mem_cons.mp hv).resolve_left ?_, hs, hg⟩
  rintro rfl
  exact hi (hs ▸ hx)

theorem Accounted.release (ha : Accounted [] l) (hh : l.hasHandle = false) :
    Accounted [] l.release := by
  have hempty : ∀ l₀ : Life, Accounted [] l₀ → l₀.installed = none → l₀.hasHandle = false →
      l₀.messages = l.messages → Accounted [] { l₀ with
        messages := l.messages.close.hub, watches := [], released := true } := by
    intro l₀ ha₀ hi hh hm
    have hgood : l.messages.close.hub.Good := by
      rw [← hm]
      exact ⟨(Hub.close_moves _).turns.sound ha₀.good.sound, Or.inr (Or.inl (Hub.close_closed _))⟩
    refine { ha₀ with
      bounded := fun w hw => absurd hw List.not_mem_nil
      distinct := List.nodup_nil
      watched := fun x hx => ?_
      good := hgood
      gone := fun _ => ⟨hi, hh⟩ }
    have hx' : l₀.installed = some x := hx
    rw [hi] at hx'
    cases hx'
  unfold Life.release
  cases hi : l.installed with
  | none => exact hempty l ha hi hh rfl
  | some x => exact hempty (l.leave x) (ha.leave hi (List.Sublist.refl _)) rfl hh rfl

end accounted

/-! ## Turns -/

theorem life_release (s : Session) : s.release.life = s.life.release := by
  unfold release
  dsimp only
  rw [life_readMessages, life_readCauses]
  cases hs : s.active with
  | none =>
    simp only [life, Life.release, installed, hs]
    rfl
  | some a =>
    simp only [life, Life.release, installed, hs]
    rfl

theorem hasHandle_of_not_isHeld {s : Session} (h : s.isHeld = false) : s.hasHandle = false := by
  rw [isHeld, Bool.or_eq_false_iff, Bool.or_eq_false_iff] at h
  exact h.1.1

variable {step : Step} {owner : Nat → Option CauseHandle} {t t' : Scene}

theorem Accounted.of_eq {ready : List Watch} {l l' : Life} (ha : Accounted ready l) (h : l' = l) :
    Accounted ready l' := h ▸ ha

/-- **Every turn accounts for every connection.** -/
theorem Turn.accounted (h : Turn step owner t t') (ha : Accounted t.ready t.session.life) :
    Accounted t'.ready t'.session.life := by
  cases h with
  | aside hl _ => exact ha.of_eq hl
  | letGo _ hl hb _ => exact (ha.letGo hb).of_eq hl
  | mail hp hl _ => exact (ha.mail hp).of_eq hl
  | reject hl _ => exact ha.reject.of_eq hl
  | join _ hh hi hp hl _ _ => exact (ha.join hh hi hp).of_eq hl
  | signal _ hl _ => exact (ha.signal _).of_eq hl
  | leave _ hi hl _ _ => exact (ha.leave hi (List.Sublist.refl _)).of_eq hl
  | gather hready =>
    rw [hready] at ha
    exact ha.gather
  | watch hready _ hi hl _ _ =>
    rw [hready] at ha
    exact (ha.leave hi (List.sublist_cons_self ..)).of_eq hl
  | stale hready hi =>
    rw [hready] at ha
    exact ha.stale hi
  | release hready _ hh =>
    rw [hready] at ha
    refine Accounted.of_eq ?_ (life_release _)
    show Accounted t.ready _
    rw [hready]
    exact ha.release (hasHandle_of_not_isHeld hh)
  | causes _ _ _ _ => exact ha.of_eq ((life_readCauses _ _).trans (life_setCycle _ _))
  | follow n _ => exact ha
  | stop _ _ _ => exact ha.of_eq (life_leaveCycle _ _ _)
  | forget _ _ _ => exact ha
  | enroll _ _ _ _ => exact ha

theorem Turns.accounted (h : Turns step owner t t') (ha : Accounted t.ready t.session.life) :
    Accounted t'.ready t'.session.life := by
  induction h with
  | refl => exact ha
  | tail _ hturn ih => exact hturn.accounted ih

end Session

end Switchboard
