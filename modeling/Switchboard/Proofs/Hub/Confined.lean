import Switchboard.Proofs.Hub.Calm

/-!
# Work on one subscription

What a holder can do with a handle of a calm hub, and that it stays with that one subscription.

**Work** (`Confined`). A receive, a drain, a cancel or the end of the holder takes some values from
the front of what is unread. What is left is a part of the rest; once the subscription has ended,
it is the whole rest, until the holder goes away.
-/

namespace Switchboard

variable {π ρ α β : Type}

namespace Hub

/-- Work on the subscription `id` by `caller`, which takes the values `taken` from it and answers
the receives `received`. It stays with that subscription, and only `caller` begins to wait. -/
structure Confined (caller : ρ) (id : SubscriptionId) (taken : List α) (h h' : Hub π ρ α)
    (received : List (ρ × Option α)) : Prop where
  calm : h'.Calm
  lastId : h'.lastId = h.lastId
  closed : h'.closed = h.closed
  elsewhere : ∀ j, j ≠ id → h'.pipeline? j = h.pipeline? j
  absent : h.pipeline? id = none → taken = [] ∧ h'.pipeline? id = none
  unread : ∀ p, h.pipeline? id = some p → taken <+: p.unread ∧
    ∀ p', h'.pipeline? id = some p' → taken ++ p'.unread <+: p.unread ∧
      (p.isOpen = false → p'.isOpen = false ∧ taken ++ p'.unread = p.unread)
  receiver : ∀ p', h'.pipeline? id = some p' → ∀ c, p'.receiver = some c →
    c = caller ∨ ∃ p, h.pipeline? id = some p ∧ p.receiver = some c
  received : ∀ r ∈ received, r.2 = none ∧ ∃ p, h.pipeline? id = some p ∧ p.receiver = some r.1

section confined

variable {h h' h'' : Hub π ρ α} {id : SubscriptionId} {p p' : Pipeline (Publication π α) ρ α}
  {caller : ρ}

theorem Calm.confined_refl (hl : h.Calm) : Confined caller id [] h h [] where
  calm := hl
  lastId := rfl
  closed := rfl
  elsewhere _ _ := rfl
  absent hp := ⟨rfl, hp⟩
  unread p hp := by
    refine ⟨List.nil_prefix, fun p' hp' => ?_⟩
    rw [hp, Option.some.injEq] at hp'
    subst hp'
    exact ⟨List.prefix_refl _, fun hshut => ⟨hshut, rfl⟩⟩
  receiver p' hp' c hr := Or.inr ⟨p', hp', hr⟩
  received _ hr := absurd hr List.not_mem_nil

/-- Work that puts a changed pipeline in its place. -/
theorem Calm.confined_setPipeline (hl : h.Calm) (hp : h.pipeline? id = some p) {taken : List α}
    (hfits : Fits h.closed h.policy p') (hw : p'.waiting = ∅)
    (hu : taken ++ p'.unread <+: p.unread)
    (hshut : p.isOpen = false → p'.isOpen = false ∧ taken ++ p'.unread = p.unread)
    (hr : ∀ c, p'.receiver = some c → c = caller ∨ p.receiver = some c)
    {received : List (ρ × Option α)}
    (hrec : ∀ r ∈ received, r.2 = none ∧ p.receiver = some r.1) :
    Confined caller id taken h (h.setPipeline id p') received := by
  have hat : ∀ q, (h.setPipeline id p').pipeline? id = some q → q = p' := by
    intro q hq
    rw [pipeline?_setPipeline hp, if_pos rfl, Option.some.injEq] at hq
    exact hq.symm
  have hsame : ∀ q, h.pipeline? id = some q → q = p := by
    intro q hq
    rw [hp, Option.some.injEq] at hq
    exact hq.symm
  refine ⟨hl.setPipeline hp hfits hw, rfl, rfl, fun j hj => ?_, fun hn => ?_, fun q hq => ?_,
    fun q hq c hc => ?_, fun r hr' => ?_⟩
  · exact (pipeline?_setPipeline hp p' j).trans (if_neg hj)
  · rw [hp] at hn
    cases hn
  · rw [hsame q hq]
    refine ⟨(List.prefix_append taken p'.unread).trans hu, fun q' hq' => ?_⟩
    rw [hat q' hq']
    exact ⟨hu, hshut⟩
  · rw [hat q hq] at hc
    exact (hr c hc).imp_right fun h => ⟨p, hp, h⟩
  · exact ⟨(hrec r hr').1, p, hp, (hrec r hr').2⟩

theorem Confined.trans {taken taken' : List α} {received received' : List (ρ × Option α)}
    (hc : Confined caller id taken h h' received) (hc' : Confined caller id taken' h' h'' received')
    (hnone : received' = []) : Confined caller id (taken ++ taken') h h'' received := by
  subst hnone
  refine ⟨hc'.calm, hc'.lastId.trans hc.lastId, hc'.closed.trans hc.closed,
    fun j hj => (hc'.elsewhere j hj).trans (hc.elsewhere j hj), fun hn => ?_, fun p hp => ?_,
    fun p'' hp'' c hr => ?_, hc.received⟩
  · obtain ⟨ht, hp'⟩ := hc.absent hn
    obtain ⟨ht', hp''⟩ := hc'.absent hp'
    exact ⟨by rw [ht, ht']; rfl, hp''⟩
  · obtain ⟨htaken, hrest⟩ := hc.unread p hp
    cases hp' : h'.pipeline? id with
    | none =>
      obtain ⟨ht', hp''⟩ := hc'.absent hp'
      rw [ht', List.append_nil]
      refine ⟨htaken, fun q hq => ?_⟩
      rw [hp''] at hq
      cases hq
    | some p' =>
      obtain ⟨hpre, hshut⟩ := hrest p' hp'
      obtain ⟨htaken', hrest'⟩ := hc'.unread p' hp'
      refine ⟨((List.prefix_append_right_inj taken).mpr htaken').trans hpre, fun p'' hp'' => ?_⟩
      obtain ⟨hpre', hshut'⟩ := hrest' p'' hp''
      rw [List.append_assoc]
      refine ⟨((List.prefix_append_right_inj taken).mpr hpre').trans hpre, fun hp => ?_⟩
      obtain ⟨hclosed, heq⟩ := hshut hp
      obtain ⟨hclosed', heq'⟩ := hshut' hclosed
      exact ⟨hclosed', by rw [heq', heq]⟩
  · rcases hc'.receiver p'' hp'' c hr with rfl | ⟨p', hp', hr'⟩
    · exact Or.inl rfl
    · exact hc.receiver p' hp' c hr'

theorem Calm.confined_tryReceive (hl : h.Calm) :
    Confined caller id (h.tryReceive id).result.values h (h.tryReceive id).hub [] := by
  cases hp : h.pipeline? id with
  | none =>
    simp only [Hub.tryReceive, hp]
    exact hl.confined_refl
  | some p =>
    have hfits := hl.sound.fits_of hp
    rw [(hl.tryReceive_eq hp).1]
    have hw := (hl.idle_tryReceive hp).2.trans (hl.waiting_eq hp)
    cases hu : p.unread with
    | nil =>
      rw [Pipeline.tryReceive_nil hu]
      rw [setPipeline_self hl.sound hp]
      show Confined caller id (Reception.values (if p.buffer.closed then .ended else .empty)) h h []
      cases p.buffer.closed <;> exact hl.confined_refl
    | cons v rest =>
      obtain ⟨p', hread, hsettled, hunread, -, hshell⟩ := hfits.settled.tryReceive hu
      rw [hl.waiting_eq hp] at hread hunread
      rw [hread] at hw ⊢
      obtain ⟨-, -, hclosed, -, hrec⟩ := Pipeline.shell_eq_iff.mp hshell
      have heq : [v] ++ p'.unread = p.unread := by
        rw [hunread, hu]
        exact congrArg (v :: ·) (List.append_nil rest)
      refine hl.confined_setPipeline hp (hfits.tryReceive (hread.trans rfl)) hw
        (heq ▸ List.prefix_refl _) (fun hshut => ⟨?_, heq⟩) (fun c hc => Or.inr ?_)
        fun r hr => absurd hr List.not_mem_nil
      · rw [Pipeline.isOpen, hclosed]
        exact hshut
      · rw [← hrec]
        exact hc

theorem Calm.confined_receive (hl : h.Calm) :
    Confined caller id (h.receive id caller).result.values h (h.receive id caller).hub
      (h.receive id caller).received := by
  have hread : Confined caller id _ h (h.tryReceive id).hub _ := hl.confined_tryReceive
  cases hp : h.pipeline? id with
  | none =>
    have heq : h.tryReceive id = ⟨h, .ended, [], []⟩ := by simp only [Hub.tryReceive, hp]
    simp only [Hub.receive, heq]
    exact hl.confined_refl
  | some p =>
    cases hu : p.unread with
    | cons v rest =>
      obtain ⟨p', -, -, -, heq, -⟩ := hl.read_of_cons hp hu
      rw [heq] at hread
      simp only [Hub.receive, heq]
      exact hread
    | nil =>
      have heq := tryReceive_of_nil hl.sound hl.anchored hp hu
      by_cases hc : p.buffer.closed = true
      · rw [if_pos hc] at heq
        simp only [Hub.receive, heq]
        exact hl.confined_refl
      · rw [if_neg hc] at heq
        simp only [Hub.receive, heq, hp]
        have hopen : p.isOpen = true := by simpa [Pipeline.isOpen] using hc
        have hidle : p.waiting = ∅ := hl.waiting_eq hp
        refine hl.confined_setPipeline hp ((hl.sound.fits_of hp).await hopen hu caller)
          hidle (List.prefix_refl _) (fun hshut => ?_) (fun c hc => Or.inl ?_)
          fun r hr => absurd hr List.not_mem_nil
        · rw [hopen] at hshut
          cases hshut
        · exact (Option.some.inj hc).symm

/-- Draining is receiving again and again. -/
theorem Calm.confined_drainUpTo (fuel : Nat) (acc : List α) {r : Reply π ρ α Unit}
    (hl : r.hub.Calm) : ∃ taken, (drainUpTo id fuel acc r).result.values = acc.reverse ++ taken ∧
      (drainUpTo id fuel acc r).received = r.received ∧
      Confined caller id taken r.hub (drainUpTo id fuel acc r).hub [] := by
  induction fuel generalizing acc r with
  | zero => exact ⟨[], (List.append_nil _).symm, rfl, hl.confined_refl⟩
  | succ fuel ih =>
    have hread : Confined caller id _ r.hub (r.hub.tryReceive id).hub _ :=
      hl.confined_tryReceive
    have hnone : (r.hub.tryReceive id).received = [] := by
      cases hp : r.hub.pipeline? id with
      | none => simp only [Hub.tryReceive, hp]
      | some p => rw [(hl.tryReceive_eq hp).1]
    simp only [drainUpTo, hnone, List.append_nil]
    cases hresult : (r.hub.tryReceive id).result with
    | value v =>
      rw [hresult] at hread
      obtain ⟨taken, hvalues, hreceived, hrest⟩ := ih (v :: acc)
        (r := ⟨_, (), r.received, r.returned ++ (r.hub.tryReceive id).returned⟩)
        (hl.tryReceive id)
      refine ⟨v :: taken, ?_, hreceived, hread.trans hrest rfl⟩
      rw [hvalues, List.reverse_cons, List.append_assoc]
      rfl
    | empty =>
      rw [hresult] at hread
      exact ⟨[], (List.append_nil _).symm, rfl, hread⟩
    | ended =>
      rw [hresult] at hread
      exact ⟨[], (List.append_nil _).symm, rfl, hread⟩

theorem Calm.confined_drain (hl : h.Calm) :
    Confined caller id (h.drain id).result.values h (h.drain id).hub (h.drain id).received := by
  obtain ⟨taken, hvalues, hreceived, hdrain⟩ :
      ∃ taken, _ ∧ _ ∧ Confined caller id taken h (h.drain id).hub [] :=
    Calm.confined_drainUpTo (h.backlog id + 1) [] (r := ⟨h, (), [], []⟩) hl
  rw [drain, hvalues, hreceived]
  exact hdrain

theorem cancel_of_shut (hp : h.pipeline? id = some p) (hshut : p.isOpen = false) :
    h.cancel id = ⟨h, (), [], []⟩ := by
  simp only [cancel, hp, hshut]
  rfl

theorem Calm.confined_cancel (hl : h.Calm) :
    Confined caller id [] h (h.cancel id).hub (h.cancel id).received := by
  cases hp : h.pipeline? id with
  | none =>
    simp only [cancel, hp]
    exact hl.confined_refl
  | some p =>
    have hfits := hl.sound.fits_of hp
    by_cases hopen : p.isOpen = true
    · rw [(hl.cancel_eq hp hopen).1]
      refine hl.confined_setPipeline hp hfits.cancelled rfl (isPrefix_unread_cancelled p)
        (fun hshut => ?_) (fun c hc => ?_) fun r hr => ?_
      · rw [hopen] at hshut
        cases hshut
      · cases hc
      · obtain ⟨c, hc, rfl⟩ := List.mem_map.mp hr
        exact ⟨rfl, Option.mem_toList.mp hc⟩
    · rw [cancel_of_shut hp (by simpa using hopen)]
      exact hl.confined_refl

theorem Calm.confined_abandon (hl : h.Calm) :
    Confined caller id [] h (h.abandon id).hub (h.abandon id).received := by
  have hcancel : Confined caller id [] h (h.cancel id).hub _ := hl.confined_cancel
  have hgone : ∀ j, (h.abandon id).hub.pipeline? j =
      if j = id then none else (h.cancel id).hub.pipeline? j :=
    fun j => lookup_forget _ id j
  have hself : (h.abandon id).hub.pipeline? id = none := (hgone id).trans (if_pos rfl)
  have hsound : (h.abandon id).hub.Sound := (abandon_turns hl.sound).sound hl.sound
  refine ⟨⟨⟨hsound, abandon_anchored hl.sound hl.anchored⟩, ?_⟩, hcancel.lastId, hcancel.closed,
    fun j hj => ?_, fun _ => ⟨rfl, hself⟩, fun p _ => ⟨List.nil_prefix, fun p' hp' => ?_⟩,
    fun p' hp' => ?_, hcancel.received⟩
  · refine parkedPublications_of_waiting fun e he => ?_
    exact waiting_of_idle hcancel.calm.idle (List.mem_filter.mp he).1
  · exact (hgone j).trans ((if_neg hj).trans (hcancel.elsewhere j hj))
  · rw [hself] at hp'
    cases hp'
  · rw [hself] at hp'
    cases hp'

/-! ## What stays -/

/-- The subscription `id` is still there, and as open as before. -/
def Keeps (id : SubscriptionId) (h h' : Hub π ρ α) : Prop :=
  ∀ p, h.pipeline? id = some p → ∃ p', h'.pipeline? id = some p' ∧ p'.isOpen = p.isOpen

theorem Keeps.refl (id : SubscriptionId) (h : Hub π ρ α) : Keeps id h h :=
  fun p hp => ⟨p, hp, rfl⟩

theorem Keeps.trans (hk : Keeps id h h') (hk' : Keeps id h' h'') : Keeps id h h'' := by
  intro p hp
  obtain ⟨p', hp', hopen⟩ := hk p hp
  obtain ⟨p'', hp'', hopen'⟩ := hk' p' hp'
  exact ⟨p'', hp'', hopen'.trans hopen⟩

theorem Calm.keeps_tryReceive (hl : h.Calm) : Keeps id h (h.tryReceive id).hub := by
  intro p hp
  cases hu : p.unread with
  | nil =>
    rw [tryReceive_of_nil hl.sound hl.anchored hp hu]
    exact ⟨p, hp, rfl⟩
  | cons v rest =>
    obtain ⟨p', -, -, hshell, heq, -, hp'⟩ := hl.read_of_cons hp hu
    rw [heq]
    refine ⟨p', hp', ?_⟩
    rw [Pipeline.isOpen, (Pipeline.shell_eq_iff.mp hshell).2.2.1]
    rfl

theorem Calm.keeps_receive (hl : h.Calm) : Keeps id h (h.receive id caller).hub := by
  have hread : Keeps id h (h.tryReceive id).hub := hl.keeps_tryReceive
  rw [Hub.receive]
  split
  · exact hread
  · rename_i q _ hq
    refine hread.trans fun p hp => ⟨{ q with receiver := some caller }, ?_, ?_⟩
    · exact (pipeline?_setPipeline hq _ id).trans (if_pos rfl)
    · rw [hq, Option.some.injEq] at hp
      rw [← hp]
      rfl
  · exact hread

theorem Calm.keeps_drainUpTo (fuel : Nat) (acc : List α) {r : Reply π ρ α Unit}
    (hl : r.hub.Calm) : Keeps id r.hub (drainUpTo id fuel acc r).hub := by
  induction fuel generalizing acc r with
  | zero => exact .refl id _
  | succ fuel ih =>
    have hread : Keeps id r.hub (r.hub.tryReceive id).hub := hl.keeps_tryReceive
    simp only [drainUpTo]
    cases (r.hub.tryReceive id).result with
    | value v => exact hread.trans (ih (v :: acc) (r := ⟨_, (), _, _⟩) (hl.tryReceive id))
    | empty => exact hread
    | ended => exact hread

end confined

/-! ## The ways to use a handle -/

/-- What is done with a handle. -/
inductive Use where
  /-- Receive, waiting for a value. -/
  | receive
  /-- Receive without waiting. -/
  | tryReceive
  /-- Receive without waiting until nothing more comes. -/
  | drain
  | cancel
  /-- Let go of the handle. -/
  | abandon
deriving DecidableEq, Repr

/-- A use of a handle, with the values that it gives at once. -/
def Use.on (use : Use) (h : Hub π ρ α) (id : SubscriptionId) (caller : ρ) :
    Reply π ρ α (List α) :=
  match use with
  | receive => (h.receive id caller).map (·.values)
  | tryReceive => (h.tryReceive id).map (·.values)
  | drain => (h.drain id).map (·.values)
  | cancel => (h.cancel id).map fun _ => []
  | abandon => (h.abandon id).map fun _ => []

section uses

variable {h : Hub π ρ α} {id : SubscriptionId} {p : Pipeline (Publication π α) ρ α} {caller : ρ}

/-- **Every use of a handle is work on its own subscription.** -/
theorem Use.confined (use : Use) (hl : h.Calm) :
    Confined caller id (use.on h id caller).result h (use.on h id caller).hub
      (use.on h id caller).received := by
  cases use with
  | receive => exact hl.confined_receive
  | tryReceive =>
    have hnone : (h.tryReceive id).received = [] := by
      cases hp : h.pipeline? id with
      | none => simp only [Hub.tryReceive, hp]
      | some p => rw [(hl.tryReceive_eq hp).1]
    show Confined caller id _ h _ (h.tryReceive id).received
    rw [hnone]
    exact hl.confined_tryReceive
  | drain => exact hl.confined_drain
  | cancel => exact hl.confined_cancel
  | abandon => exact hl.confined_abandon

/-- A subscription stays until it is cancelled, and one that has ended until its holder goes. -/
theorem Use.keeps (use : Use) (hl : h.Calm) (hp : h.pipeline? id = some p)
    (hstay : use ≠ .abandon) (hopen : p.isOpen = false ∨ use ≠ .cancel) :
    ∃ p', (use.on h id caller).hub.pipeline? id = some p' ∧ p'.isOpen = p.isOpen := by
  cases use with
  | receive => exact hl.keeps_receive p hp
  | tryReceive => exact hl.keeps_tryReceive p hp
  | drain => exact Calm.keeps_drainUpTo _ [] (r := ⟨h, (), [], []⟩) hl p hp
  | cancel =>
    rcases hopen with hshut | hne
    · refine ⟨p, ?_, rfl⟩
      show (h.cancel id).hub.pipeline? id = some p
      rw [cancel_of_shut hp hshut]
      exact hp
    · exact absurd rfl hne
  | abandon => exact absurd rfl hstay

end uses

end Hub

end Switchboard
