import Switchboard.Proofs.Session.Trails

/-!
# Cycles in order

What holds of the cycles of a session at every moment.

**Hubs.** The hub of the current cycle is open until the session is released, and nothing is unread
in it. The hubs of the earlier cycles are closed. No publish is ever parked in them.

**Readers.** An observer waits on its own subscription, and a call on the handle on which it was
made. No observer works on a handle that was given out.

**Main statements** (`Orderly…`). Every change of the trail keeps it in order.
-/

namespace Switchboard.Session

open Hub (Confined)

/-- Who may wait on a subscription, when some handles were given out and `owner` says on which of
them a call was made. -/
def Reads (owner : Nat → Option CauseHandle) (handles : List CauseHandle) (t : Trail) (k : Nat)
    (id : SubscriptionId) : CauseReader → Prop
  | .call c => owner c = some ⟨k, id⟩ ∧ ⟨k, id⟩ ∈ handles
  | .observer name => ∃ o ∈ t.observers, o.name = name ∧ o.subscription = some (k, id)

/-- The cycles are in order, when some handles were given out. -/
structure Orderly (owner : Nat → Option CauseHandle) (handles : List CauseHandle) (t : Trail) :
    Prop where
  le_number : ∀ k h, t.hub? k = some h → k ≤ t.number
  current : ∃ h, t.hub? t.number = some h
  calm : ∀ k h, t.hub? k = some h → h.Calm
  closed : ∀ k h, t.hub? k = some h → (h.closed = false ↔ k = t.number ∧ t.released = false)
  fresh : ∀ id p, t.slot t.number id = some p → p.unread = []
  names : (t.observers.map (·.name)).Nodup
  reads : ∀ k id p c, t.slot k id = some p → p.receiver = some c → Reads owner handles t k id c
  subscribed : ∀ o ∈ t.observers, ∀ k id, o.subscription = some (k, id) →
    ∃ h, t.hub? k = some h ∧ id ≤ h.lastId
  known : ∀ H ∈ handles, ∃ h, t.hub? H.cycle = some h ∧ H.id ≤ h.lastId
  apart : ∀ H ∈ handles, ∀ o ∈ t.observers, o.subscription ≠ some (H.cycle, H.id)
  idle : t.released = true → ∀ o ∈ t.observers, o.subscription = none

/-- Nothing waits on a subscription in the name of an observer. -/
def Unawaited (name : String) (t : Trail) : Prop :=
  ∀ k id p, t.slot k id = some p → p.receiver ≠ some (.observer name)

section orderly

variable {owner : Nat → Option CauseHandle} {handles : List CauseHandle} {t : Trail} {k : Nat}
  {id : SubscriptionId} {h h' : Hub Unit CauseReader Cause}

theorem Orderly.answered (ho : Orderly owner handles t) (received : List (Nat × Option Cause)) :
    Orderly owner handles { t with answered := received } :=
  { ho with }

theorem Orderly.mono (ho : Orderly owner handles t) {owner' : Nat → Option CauseHandle}
    (hm : ∀ c H, owner c = some H → owner' c = some H) : Orderly owner' handles t := by
  refine { ho with reads := fun k id p c hp hr => ?_ }
  have hread := ho.reads k id p c hp hr
  cases c with
  | call c => exact ⟨hm c _ hread.1, hread.2⟩
  | observer name => exact hread

theorem Orderly.eq_of_name (ho : Orderly owner handles t) {o o' : Observer}
    (hmem : o ∈ t.observers) (hmem' : o' ∈ t.observers) (hn : o.name = o'.name) : o = o' :=
  List.inj_on_of_nodup_map ho.names hmem hmem' hn

theorem Orderly.unawaited (ho : Orderly owner handles t) {name : String}
    (hn : ∀ o ∈ t.observers, o.name = name → o.subscription = none) : Unawaited name t := by
  intro k id p hp hr
  obtain ⟨o, hmem, hname, hsub⟩ := ho.reads k id p _ hp hr
  rw [hn o hmem hname] at hsub
  cases hsub

/-! ## One hub -/

/-- Changing one hub, in which only those wait who may, and perhaps the release with it. -/
theorem Orderly.putHub (ho : Orderly owner handles t) (hk : t.hub? k = some h) (hcalm : h'.Calm)
    (hlast : h.lastId ≤ h'.lastId) {b : Bool} (hb : b = t.released ∨ k = t.number)
    (hclosed : h'.closed = false ↔ k = t.number ∧ b = false)
    (hidle : b = true → ∀ o ∈ t.observers, o.subscription = none)
    (hfresh : k = t.number → ∀ i p, h'.pipeline? i = some p → p.unread = [])
    (hreads : ∀ i p c, h'.pipeline? i = some p → p.receiver = some c →
      (∃ q, h.pipeline? i = some q ∧ q.receiver = some c) ∨ Reads owner handles t k i c) :
    Orderly owner handles { t.setHub k h' with released := b } := by
  constructor
  case le_number =>
    intro j g hg
    rcases Trail.hub?_setHub_cases hg with ⟨rfl, -⟩ | ⟨-, hg⟩
    · exact ho.le_number j h hk
    · exact ho.le_number j g hg
  case current =>
    obtain ⟨g, hg⟩ := ho.current
    by_cases hn : t.number = k
    · exact ⟨h', if_pos hn⟩
    · exact ⟨g, (if_neg hn).trans hg⟩
  case calm =>
    intro j g hg
    rcases Trail.hub?_setHub_cases hg with ⟨-, rfl⟩ | ⟨-, hg⟩
    · exact hcalm
    · exact ho.calm j g hg
  case closed =>
    intro j g hg
    show g.closed = false ↔ j = t.number ∧ b = false
    rcases Trail.hub?_setHub_cases hg with ⟨rfl, rfl⟩ | ⟨hj, hg⟩
    · exact hclosed
    · rw [ho.closed j g hg]
      rcases hb with rfl | rfl
      · exact Iff.rfl
      · exact ⟨fun h => absurd h.1 hj, fun h => absurd h.1 hj⟩
  case fresh =>
    intro i p hp
    have hslot : (t.setHub k h').slot t.number i = some p := hp
    rw [Trail.slot_setHub] at hslot
    by_cases hn : t.number = k
    · rw [if_pos hn] at hslot
      exact hfresh hn.symm i p hslot
    · rw [if_neg hn] at hslot
      exact ho.fresh i p hslot
  case names => exact ho.names
  case reads =>
    intro j i p c hp hr
    have hslot : (t.setHub k h').slot j i = some p := hp
    rw [Trail.slot_setHub] at hslot
    by_cases hj : j = k
    · rw [if_pos hj] at hslot
      subst hj
      rcases hreads i p c hslot hr with ⟨q, hq, hr⟩ | hread
      · exact ho.reads j i q c ((Trail.slot_of_hub hk i).trans hq) hr
      · exact hread
    · rw [if_neg hj] at hslot
      exact ho.reads j i p c hslot hr
  case subscribed =>
    exact fun o hmem j i hsub => Trail.exists_lastId_setHub hk hlast (ho.subscribed o hmem j i hsub)
  case known => exact fun H hH => Trail.exists_lastId_setHub hk hlast (ho.known H hH)
  case apart => exact ho.apart
  case idle => exact hidle

theorem Orderly.setHub (ho : Orderly owner handles t) (hk : t.hub? k = some h) (hcalm : h'.Calm)
    (hlast : h.lastId ≤ h'.lastId) (hclosed : h'.closed = h.closed)
    (hfresh : k = t.number → ∀ i p, h'.pipeline? i = some p → p.unread = [])
    (hreads : ∀ i p c, h'.pipeline? i = some p → p.receiver = some c →
      (∃ q, h.pipeline? i = some q ∧ q.receiver = some c) ∨ Reads owner handles t k i c) :
    Orderly owner handles (t.setHub k h') := by
  refine ho.putHub hk hcalm hlast (Or.inl rfl) ?_ ho.idle hfresh hreads
  rw [hclosed]
  exact ho.closed k h hk

theorem Orderly.confined (ho : Orderly owner handles t) (hk : t.hub? k = some h) {caller : CauseReader}
    {taken : List Cause} {received : List (CauseReader × Option Cause)}
    (hc : Confined caller id taken h h' received)
    (hcaller : h'.pipeline? id = none ∨ Reads owner handles t k id caller) :
    Orderly owner handles (t.setHub k h') := by
  refine ho.setHub hk hc.calm (Nat.le_of_eq hc.lastId.symm) hc.closed (fun hn i p hp => ?_)
    fun i p c hp hr => ?_
  · subst hn
    have hold : ∀ q, h.pipeline? i = some q → q.unread = [] :=
      fun q hq => ho.fresh i q ((Trail.slot_of_hub hk i).trans hq)
    by_cases hi : i = id
    · subst hi
      cases hq : h.pipeline? i with
      | none =>
        rw [(hc.absent hq).2] at hp
        cases hp
      | some q =>
        have hpre := ((hc.unread q hq).2 p hp).1
        rw [hold q hq] at hpre
        exact (List.append_eq_nil_iff.mp (List.prefix_nil.mp hpre)).2
    · exact hold p ((hc.elsewhere i hi).symm.trans hp)
  · by_cases hi : i = id
    · subst hi
      rcases hc.receiver p hp c hr with rfl | hq
      · refine Or.inr (hcaller.resolve_left fun hnone => ?_)
        rw [hp] at hnone
        cases hnone
      · exact Or.inl hq
    · exact Or.inl ⟨p, (hc.elsewhere i hi).symm.trans hp, hr⟩

theorem slot_register (hk : t.hub? k = some h) (hs : h.Sound)
    (p : Pipeline (Publication Unit Cause) CauseReader Cause) (j : Nat) (i : SubscriptionId) :
    (t.setHub k (h.register p).1).slot j i =
      if j = k ∧ i = h.lastId + 1 then some p else t.slot j i := by
  rw [Trail.slot_setHub]
  by_cases hj : j = k
  · rw [if_pos hj, hs.pipeline?_register, hj, Trail.slot_of_hub hk]
    by_cases hi : i = h.lastId + 1
    · rw [if_pos hi, if_pos ⟨rfl, hi⟩]
    · rw [if_neg hi, if_neg fun h => hi h.2]
  · rw [if_neg hj, if_neg fun h => hj h.1]

theorem Orderly.register (ho : Orderly owner handles t) (hk : t.hub? t.number = some h)
    (hc : h.closed = false) (n : Nat) :
    Orderly owner handles (t.setHub t.number (h.register (.new n)).1) := by
  have hl := ho.calm _ h hk
  have hpipe := fun i => hl.sound.pipeline?_register (p := .new n) i
  refine ho.setHub hk (hl.register hc n) (Nat.le_succ _) rfl (fun _ i p hp => ?_)
    fun i p c hp hr => ?_
  · rw [hpipe] at hp
    split at hp
    · rw [← Option.some.inj hp]
      rfl
    · exact ho.fresh i p ((Trail.slot_of_hub hk i).trans hp)
  · rw [hpipe] at hp
    split at hp
    · rw [← Option.some.inj hp] at hr
      cases hr
    · exact Or.inl ⟨p, hp, hr⟩

theorem Orderly.give (ho : Orderly owner handles t) {H : CauseHandle}
    (hk : ∃ h, t.hub? H.cycle = some h ∧ H.id ≤ h.lastId)
    (ha : ∀ o ∈ t.observers, o.subscription ≠ some (H.cycle, H.id)) :
    Orderly owner (handles ++ [H]) t := by
  refine { ho with
    reads := fun k id p c hp hr => ?_
    known := fun J hJ => ?_
    apart := fun J hJ => ?_ }
  · have hread := ho.reads k id p c hp hr
    cases c with
    | call c => exact ⟨hread.1, List.mem_append_left _ hread.2⟩
    | observer name => exact hread
  · rcases List.mem_append.mp hJ with hJ | hJ
    · exact ho.known J hJ
    · rw [List.mem_singleton.mp hJ]
      exact hk
  · rcases List.mem_append.mp hJ with hJ | hJ
    · exact ho.apart J hJ
    · rw [List.mem_singleton.mp hJ]
      exact ha

/-- A new subscription is nobody's yet. -/
theorem Orderly.apart_next (ho : Orderly owner handles t) (hk : t.hub? k = some h) :
    (∀ o ∈ t.observers, o.subscription ≠ some (k, h.lastId + 1)) ∧
      ∀ H ∈ handles, (k, h.lastId + 1) ≠ (H.cycle, H.id) := by
  have hnot : ¬ ∃ g, t.hub? k = some g ∧ h.lastId + 1 ≤ g.lastId := by
    rintro ⟨g, hg, hle⟩
    rw [hk, Option.some.injEq] at hg
    rw [hg] at hle
    exact absurd hle (Nat.not_succ_le_self _)
  refine ⟨fun o hmem hsub => hnot (ho.subscribed o hmem _ _ hsub), fun H hH heq => hnot ?_⟩
  injection heq with hcycle hid
  rw [hcycle, hid]
  exact ho.known H hH

/-! ## Observers -/

theorem mem_setObserver {o o' : Observer} (hmem : o ∈ (t.setObserver o').observers) :
    o = o' ∨ o ∈ t.observers := by
  obtain ⟨p, hp, rfl⟩ := List.mem_map.mp hmem
  split
  · exact Or.inl rfl
  · exact Or.inr hp

theorem Orderly.setObserver (ho : Orderly owner handles t) {o : Observer}
    (hu : Unawaited o.name t)
    (hsub : ∀ k id, o.subscription = some (k, id) → t.released = false ∧
      (∃ h, t.hub? k = some h ∧ id ≤ h.lastId) ∧ ∀ H ∈ handles, (k, id) ≠ (H.cycle, H.id)) :
    Orderly owner handles (t.setObserver o) := by
  refine { ho with
    names := ?names
    reads := fun k id p c hp hr => ?reads
    subscribed := fun o' hmem k id hs => ?subscribed
    apart := fun H hH o' hmem hs => ?apart
    idle := fun hrel o' hmem => ?idle }
  case names =>
    have hnames : (t.setObserver o).observers.map (·.name) = t.observers.map (·.name) := by
      show (t.observers.map _).map _ = _
      rw [List.map_map]
      refine List.map_congr_left fun p _ => ?_
      by_cases hp : p.name = o.name
      · simp [hp]
      · simp [hp]
    rw [hnames]
    exact ho.names
  case reads =>
    have hread := ho.reads k id p c hp hr
    cases c with
    | call c => exact hread
    | observer name =>
      obtain ⟨o', hmem, hname, hs⟩ := hread
      have hne : o'.name ≠ o.name := by
        intro heq
        exact hu k id p hp (by rw [← heq, hname]; exact hr)
      exact ⟨o', List.mem_map.mpr ⟨o', hmem, if_neg hne⟩, hname, hs⟩
  case subscribed =>
    rcases mem_setObserver hmem with rfl | hmem
    · exact (hsub k id hs).2.1
    · exact ho.subscribed o' hmem k id hs
  case apart =>
    rcases mem_setObserver hmem with rfl | hmem
    · exact (hsub _ _ hs).2.2 H hH rfl
    · exact ho.apart H hH o' hmem hs
  case idle =>
    rcases mem_setObserver hmem with rfl | hmem
    · cases hs : o'.subscription with
      | none => rfl
      | some at' =>
        have hopen := (hsub at'.1 at'.2 hs).1
        rw [show t.released = true from hrel] at hopen
        cases hopen
    · exact ho.idle hrel o' hmem

theorem Orderly.await (ho : Orderly owner handles t) (hk : t.hub? t.number = some h)
    {p : Pipeline (Publication Unit Cause) CauseReader Cause} (hp : h.pipeline? id = some p)
    (hopen : p.isOpen = true) {c : CauseReader} (hc : Reads owner handles t t.number id c) :
    Orderly owner handles
      (t.setHub t.number (h.setPipeline id { p with receiver := some c })) := by
  have hl := ho.calm _ h hk
  have hu := ho.fresh id p ((Trail.slot_of_hub hk id).trans hp)
  have hwait : p.waiting = ∅ := hl.waiting_eq hp
  have hpipe := Hub.pipeline?_setPipeline hp { p with receiver := some c }
  refine ho.setHub hk (hl.setPipeline hp ((hl.sound.fits_of hp).await hopen hu c) hwait)
    (Nat.le_refl _) rfl (fun _ i q hq => ?_) fun i q c' hq hr => ?_
  · rw [hpipe] at hq
    split at hq
    · rw [← Option.some.inj hq]
      exact hu
    · exact ho.fresh i q ((Trail.slot_of_hub hk i).trans hq)
  · rw [hpipe] at hq
    split at hq
    · rename_i hi
      rw [← Option.some.inj hq] at hr
      rw [hi, ← Option.some.inj hr]
      exact Or.inr hc
    · exact Or.inl ⟨q, hq, hr⟩

theorem register_waiting (hl : h.Calm) (hc : h.closed = false) (n : Nat) (c : CauseReader) :
    h.subscribeWaiting n c = ((h.register (.new n)).1.setPipeline (h.lastId + 1)
      { (.new n : Pipeline (Publication Unit Cause) CauseReader Cause) with receiver := some c },
      h.lastId + 1) := by
  have hsound := (hl.register hc n).sound
  have hsplit : (h.register (.new n)).1.pipelines = h.pipelines ++ (h.lastId + 1, .new n) :: [] := rfl
  rw [Hub.setPipeline_split hsound.nodup hsplit, Hub.subscribeWaiting, if_neg (by simp [hc])]
  rfl

theorem Trail.setHub_setHub_setObserver (t : Trail) (k : Nat) (g g' : Hub Unit CauseReader Cause)
    (o : Observer) :
    ((t.setHub k g).setObserver o).setHub k g' = (t.setHub k g').setObserver o := by
  refine congrArg (fun f => { t.setObserver o with hub? := f }) (funext fun j => ?_)
  show (if j = k then some g' else if j = k then some g else t.hub? j) =
    if j = k then some g' else t.hub? j
  split
  · rfl
  · rfl

theorem Orderly.subscribeObserver (ho : Orderly owner handles t) (hk : t.hub? t.number = some h)
    (hrel : t.released = false) (n : Nat) {o o' : Observer} (hmem : o' ∈ t.observers)
    (hname : o'.name = o.name) (hu : Unawaited o.name t) :
    Orderly owner handles ((t.setHub t.number (h.subscribeWaiting n (.observer o.name)).1).setObserver
      { o with subscription := some (t.number, (h.subscribeWaiting n (.observer o.name)).2) }) := by
  have hl := ho.calm _ h hk
  have hc : h.closed = false := (ho.closed _ h hk).mpr ⟨rfl, hrel⟩
  set h₁ : Hub Unit CauseReader Cause := (h.register (.new n)).1
  have hp : h₁.pipeline? (h.lastId + 1) = some (.new n) :=
    (hl.sound.pipeline?_register _).trans (if_pos rfl)
  have hu₁ : Unawaited o.name (t.setHub t.number h₁) := by
    intro k id p hq
    rw [slot_register hk hl.sound] at hq
    split at hq
    · rw [← Option.some.inj hq]
      intro hr
      cases hr
    · exact hu k id p hq
  rw [register_waiting hl hc, ← Trail.setHub_setHub_setObserver t t.number h₁]
  set o₁ : Observer := { o with subscription := some (t.number, h.lastId + 1) }
  have ho₁ : Orderly owner handles ((t.setHub t.number h₁).setObserver o₁) := by
    refine (ho.register hk hc n).setObserver hu₁ fun k id hs => ?_
    injection Option.some.inj hs with hnumber hid
    subst hnumber hid
    exact ⟨hrel, ⟨h₁, Trail.hub?_setHub_self, Nat.le_refl _⟩, (ho.apart_next hk).2⟩
  exact ho₁.await (h := h₁) Trail.hub?_setHub_self hp rfl
    ⟨o₁, List.mem_map.mpr ⟨o', hmem, if_pos hname⟩, rfl, rfl⟩

/-- A new observer, under a name of its own, waits for nothing yet. -/
theorem Orderly.enroll (ho : Orderly owner handles t) {o : Observer}
    (hnew : ∀ p ∈ t.observers, p.name ≠ o.name) (hs : o.subscription = none) :
    Orderly owner handles { t with observers := t.observers ++ [o] } := by
  have hmem : ∀ p ∈ t.observers ++ [o], p ∈ t.observers ∨ p.subscription = none := by
    intro p hp
    rcases List.mem_append.mp hp with hp | hp
    · exact Or.inl hp
    · rw [List.mem_singleton.mp hp]
      exact Or.inr hs
  refine { ho with
    names := ?names
    reads := fun k id p c hp hr => ?reads
    subscribed := fun p hp k id hsub => ?subscribed
    apart := fun H hH p hp hsub => ?apart
    idle := fun hrel p hp => ?idle }
  case names =>
    show ((t.observers ++ [o]).map (·.name)).Nodup
    rw [List.map_append]
    refine List.nodup_append.mpr ⟨ho.names, List.nodup_singleton _, fun a ha b hb => ?_⟩
    obtain ⟨p, hp, rfl⟩ := List.mem_map.mp ha
    rw [List.mem_singleton.mp hb]
    exact hnew p hp
  case reads =>
    have hread := ho.reads k id p c hp hr
    cases c with
    | call c => exact hread
    | observer name =>
      obtain ⟨o', hmem, hrest⟩ := hread
      exact ⟨o', List.mem_append_left _ hmem, hrest⟩
  case subscribed =>
    rcases hmem p hp with hp | hnone
    · exact ho.subscribed p hp k id hsub
    · rw [hnone] at hsub
      cases hsub
  case apart =>
    rcases hmem p hp with hp | hnone
    · exact ho.apart H hH p hp hsub
    · rw [hnone] at hsub
      cases hsub
  case idle =>
    rcases hmem p hp with hp | hnone
    · exact ho.idle hrel p hp
    · exact hnone

theorem Orderly.forget (ho : Orderly owner handles t) {name : String}
    (hn : ∀ o ∈ t.observers, o.name = name → o.subscription = none) :
    Orderly owner handles { t with observers := t.observers.filter (·.name != name) } := by
  have hmem : ∀ p ∈ t.observers.filter (·.name != name), p ∈ t.observers :=
    fun p hp => List.mem_of_mem_filter hp
  refine { ho with
    names := ho.names.sublist (List.filter_sublist.map _)
    reads := fun k id p c hp hr => ?_
    subscribed := fun p hp => ho.subscribed p (hmem p hp)
    apart := fun H hH p hp => ho.apart H hH p (hmem p hp)
    idle := fun hrel p hp => ho.idle hrel p (hmem p hp) }
  have hread := ho.reads k id p c hp hr
  cases c with
  | call c => exact hread
  | observer name' =>
    obtain ⟨o, ho', hname, hsub⟩ := hread
    refine ⟨o, List.mem_filter.mpr ⟨ho', bne_iff_ne.mpr fun heq => ?_⟩, hname, hsub⟩
    rw [hn o ho' heq] at hsub
    cases hsub

/-! ## Cycles -/

theorem Orderly.hub?_turn (ho : Orderly owner handles t) {j : Nat}
    {g : Hub Unit CauseReader Cause} (hg : (t.turn h').hub? j = some g) :
    (j = t.number + 1 ∧ g = .new (t.settings.hubLabel "disc") .reliable) ∨
      (j = t.number ∧ g = h') ∨ (j < t.number ∧ t.hub? j = some g) := by
  have hg' : (if j = t.number + 1 then some (freshCycle t.settings (t.number + 1)).disconnects
    else if j = t.number then some h' else t.hub? j) = some g := hg
  split at hg'
  · rename_i hj
    exact Or.inl ⟨hj, (Option.some.inj hg').symm⟩
  · split at hg'
    · rename_i hj
      exact Or.inr (Or.inl ⟨hj, (Option.some.inj hg').symm⟩)
    · rename_i hne
      exact Or.inr (Or.inr ⟨Nat.lt_of_le_of_ne (ho.le_number j g hg') hne, hg'⟩)

/-- A subscription that was made is one of its cycle after that has ended, too. -/
theorem Orderly.exists_lastId_turn (ho : Orderly owner handles t)
    (hk : t.hub? t.number = some h) (hlast : h.lastId ≤ h'.lastId)
    (hid : ∃ g, t.hub? k = some g ∧ id ≤ g.lastId) :
    ∃ g, (t.turn h').hub? k = some g ∧ id ≤ g.lastId := by
  obtain ⟨g, hg, hid⟩ := hid
  have hnew : k ≠ t.number + 1 := Nat.ne_of_lt (Nat.lt_succ_of_le (ho.le_number k g hg))
  by_cases hn : k = t.number
  · subst hn
    obtain rfl : h = g := Option.some.inj (hk.symm.trans hg)
    exact ⟨h', (if_neg hnew).trans (if_pos rfl), hid.trans hlast⟩
  · exact ⟨g, (if_neg hnew).trans ((if_neg hn).trans hg), hid⟩

/-- The cycle ends and the next one begins. -/
theorem Orderly.turn (ho : Orderly owner handles t) (hk : t.hub? t.number = some h)
    (hrel : t.released = false) {cause : Option Cause} (he : Hub.Ended cause h h') :
    Orderly owner handles (t.turn h') := by
  have hlast : h.lastId ≤ h'.lastId := Nat.le_of_eq he.lastId.symm
  constructor
  case le_number =>
    intro j g hg
    show j ≤ t.number + 1
    rcases ho.hub?_turn hg with ⟨hj, -⟩ | ⟨hj, -⟩ | ⟨hj, -⟩ <;> omega
  case current => exact ⟨_, if_pos rfl⟩
  case calm =>
    intro j g hg
    rcases ho.hub?_turn hg with ⟨-, rfl⟩ | ⟨-, rfl⟩ | ⟨-, hg⟩
    · exact ⟨Hub.good_new _ _, rfl⟩
    · exact he.calm
    · exact ho.calm j g hg
  case closed =>
    intro j g hg
    show g.closed = false ↔ j = t.number + 1 ∧ t.released = false
    -- The next hub is open, the current one has just been closed and the others were before.
    rcases ho.hub?_turn hg with ⟨hj, rfl⟩ | ⟨hj, rfl⟩ | ⟨hj, hg⟩
    · exact ⟨fun _ => ⟨hj, hrel⟩, fun _ => rfl⟩
    · rw [he.closed]
      refine ⟨fun h => (nomatch h), fun h => ?_⟩
      exact absurd (hj.symm.trans h.1) (Nat.ne_of_lt (Nat.lt_succ_self _))
    · rw [ho.closed j g hg]
      exact ⟨fun h => absurd h.1 (by omega), fun h => absurd h.1 (by omega)⟩
  case fresh =>
    intro i p hp
    obtain ⟨g, hg, hp⟩ := Option.bind_eq_some_iff.mp hp
    rcases ho.hub?_turn hg with ⟨-, rfl⟩ | ⟨hj, -⟩ | ⟨hj, -⟩
    · cases hp
    · exact absurd hj (Nat.succ_ne_self _)
    · exact absurd hj (Nat.not_lt.mpr (Nat.le_succ _))
  case names => exact ho.names
  case reads =>
    intro j i p c hp hr
    obtain ⟨g, hg, hslot⟩ := Option.bind_eq_some_iff.mp hp
    rcases ho.hub?_turn hg with ⟨-, rfl⟩ | ⟨-, rfl⟩ | ⟨-, hg⟩
    · cases hslot
    · rw [he.pipeline] at hslot
      obtain ⟨q, -, rfl⟩ := Option.map_eq_some_iff.mp hslot
      cases hr
    · exact ho.reads j i p c ((Trail.slot_of_hub hg i).trans hslot) hr
  case subscribed =>
    exact fun o hmem j i hs => ho.exists_lastId_turn hk hlast (ho.subscribed o hmem j i hs)
  case known => exact fun H hH => ho.exists_lastId_turn hk hlast (ho.known H hH)
  case apart => exact ho.apart
  case idle => exact ho.idle

/-- The last cycle ends. -/
theorem Orderly.release (ho : Orderly owner handles t) (hk : t.hub? t.number = some h)
    (he : Hub.Ended none h h') (hidle : ∀ o ∈ t.observers, o.subscription = none) :
    Orderly owner handles { t.setHub t.number h' with released := true } := by
  have hbid : ∀ i p, h'.pipeline? i = some p →
      ∃ q, h.pipeline? i = some q ∧ p = q.bidden none := by
    intro i p hp
    rw [he.pipeline] at hp
    obtain ⟨q, hq, rfl⟩ := Option.map_eq_some_iff.mp hp
    exact ⟨q, hq, rfl⟩
  refine ho.putHub hk he.calm (Nat.le_of_eq he.lastId.symm) (Or.inr rfl) ?_ (fun _ => hidle)
    (fun _ i p hp => ?_) fun i p c hp hr => ?_
  · rw [he.closed]
    exact ⟨fun h => (nomatch h), fun h => (nomatch h.2)⟩
  · obtain ⟨q, hq, rfl⟩ := hbid i p hp
    exact ho.fresh i q ((Trail.slot_of_hub hk i).trans hq)
  · obtain ⟨q, -, rfl⟩ := hbid i p hp
    cases hr

end orderly

end Switchboard.Session
