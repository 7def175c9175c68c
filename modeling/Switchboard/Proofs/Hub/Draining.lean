import Switchboard.Proofs.Hub.Endings
import Switchboard.Proofs.Hub.Line

/-!
# Draining a handle

What a holder gets who receives without waiting until nothing more comes, while no call publishes
more than one value.

**The line.** Behind the unread values of a subscription stand those of the publishes parked on it
(`Pipeline.line`). A receive takes the head of the line: the publish that it lets in stores its value
where it stood in the line, goes on, and does not come back, since it has no other value and visits
no subscription twice. It may park elsewhere, and when it returns the hub may close; neither changes
the line.

**Main statement** (`drain_takes_the_line`). Draining gives the line, and reports the end exactly if
by then the subscription was cancelled or its hub is closed.
-/

namespace Switchboard.Hub

variable {π ρ α β : Type}

/-! ## The line and the parked publishes -/

section line

variable {h : Hub π ρ α} {S : SubscriptionId} {p : Pipeline (Publication π α) ρ α}

theorem Fits.line_eq {closed : Bool} {policy : Policy} (hf : Fits closed policy p) :
    p.line = p.unread ++ p.parked.map (·.value) := by
  rw [Pipeline.line, Pipeline.parked, List.map_map]
  exact congrArg _ (List.map_congr_left fun w hw => (hf.carried w hw).symm)

theorem unread_eq_nil_of_line (hline : p.line = []) : p.unread = [] ∧ p.parked = [] := by
  rw [Pipeline.line, List.append_eq_nil_iff, List.map_eq_nil_iff] at hline
  exact ⟨hline.1, List.map_eq_nil_iff.mpr hline.2⟩

theorem Sound.line_le_backlog (hs : h.Sound) (hp : h.pipeline? S = some p) :
    p.line.length ≤ h.backlog S := by
  have hfold : ∀ (qs : List (Publication π α)) (k : Nat),
      k + qs.length ≤ qs.foldl (fun n q => n + q.later.length + 1) k := by
    intro qs
    induction qs with
    | nil => exact fun k => Nat.le_refl k
    | cons q rest ih =>
      intro k
      have := ih (k + q.later.length + 1)
      rw [List.foldl_cons, List.length_cons]
      omega
  have hparked : p.parked.length ≤ h.parkedPublications.length := by
    obtain ⟨rest, hrest, -⟩ := exists_parkedPublications hs hp
    rw [hrest.length_eq, List.length_append]
    exact Nat.le_add_right _ _
  have hcount := hfold h.parkedPublications 0
  rw [(hs.fits_of hp).line_eq, List.length_append, List.length_map, backlog, hp, Option.map_some,
    Option.getD_some, Pipeline.unreadCount_eq]
  omega

end line

/-! ## Subscriptions that a publish passes by -/

section passing

variable {h : Hub π ρ α} {S : SubscriptionId}

theorem offer_aside {id : SubscriptionId} (hS : id ≠ S ∨ ¬ h.Registered S) (q : Publication π α) :
    (h.offer id q).1.pipeline? S = h.pipeline? S := by
  by_cases hshut : ∀ p, h.pipeline? id = some p → p.isOpen = false
  · rw [offer_of_shut q hshut]
  · push Not at hshut
    obtain ⟨p, hp, hopen⟩ := hshut
    replace hopen : p.isOpen = true := by simpa using hopen
    have hne : id ≠ S := hS.elim (fun hne => hne) fun hnone hid => hnone (hid ▸ ⟨p, hp, hopen⟩)
    have hset : ∀ p' : Pipeline (Publication π α) ρ α,
        (h.setPipeline id p').pipeline? S = h.pipeline? S :=
      fun p' => (pipeline?_setPipeline hp p' S).trans (if_neg hne.symm)
    by_cases hroom : p.buffer.hasRoom = true
    · rw [offer_of_room hp hopen hroom rfl]
      exact hset _
    · replace hroom : p.buffer.hasRoom = false := by simpa using hroom
      cases hpol : h.policy with
      | reliable =>
        rw [offer_of_full_reliable q hp hopen hroom hpol]
        exact hset _
      | lossy =>
        rw [offer_of_full_lossy q hp hopen hroom hpol]
        rfl

theorem registered_congr {h h' : Hub π ρ α} (heq : h'.pipeline? S = h.pipeline? S) :
    h'.Registered S ↔ h.Registered S := by
  rw [Registered, Registered, heq]

theorem visit_aside (q : Publication π α) {ids : List SubscriptionId} (r : Progress π ρ α)
    (hS : S ∉ ids ∨ ¬ r.hub.Registered S) : (visit q ids r).hub.pipeline? S = r.hub.pipeline? S := by
  induction ids generalizing r with
  | nil => rfl
  | cons id ahead ih =>
    have hfirst : id ≠ S ∨ ¬ r.hub.Registered S :=
      hS.imp_left fun hmem hid => hmem (hid ▸ List.mem_cons_self ..)
    have hoffer : (r.hub.offer id { q with ahead, accepted := r.accepted }).1.pipeline? S = _ :=
      offer_aside hfirst _
    have hrest : S ∉ ahead ∨
        ¬ (r.hub.offer id { q with ahead, accepted := r.accepted }).1.Registered S :=
      hS.imp (fun hmem hid => hmem (List.mem_cons_of_mem _ hid)) (mt (registered_congr hoffer).mp)
    rw [visit]
    split
    all_goals rename_i heq; rw [heq] at hoffer hrest
    · exact (ih _ hrest).trans hoffer
    · exact (ih _ hrest).trans hoffer
    · exact hoffer

theorem publishEach_aside (caller : π) (order : List SubscriptionId) (values : List α)
    (r : Progress π ρ α) (hS : ¬ r.hub.Registered S) :
    (publishEach caller order values r).hub.pipeline? S = r.hub.pipeline? S := by
  induction values generalizing r with
  | nil => rfl
  | cons v later ih =>
    unfold publishEach
    split
    · exact ih r hS
    · set hub : Hub π ρ α := { r.hub with published := r.hub.published + 1 }
      have hvisit : (visit ⟨caller, order, v, [], 0, later⟩ (hub.targets order)
          { r with hub }).hub.pipeline? S = r.hub.pipeline? S :=
        visit_aside _ { r with hub } (Or.inr hS)
      dsimp only
      split
      · exact hvisit
      · exact (ih _ (mt (registered_congr hvisit).mp hS)).trans hvisit

/-- A publish that is through with `S` once it is let in there: its call has no other value, and `S`
is not among the targets ahead. -/
def Leaves (S : SubscriptionId) (q : Publication π α) : Prop := q.later = [] ∧ S ∉ q.ahead

theorem resume_aside {q : Publication π α} (hq : Leaves S q ∨ ¬ h.Registered S) (stored : Bool) :
    (h.resume q stored).hub.pipeline? S = h.pipeline? S := by
  set start : Progress π ρ α := ⟨h, q.accepted + (if stored then 1 else 0), false, []⟩
  have hvisit : (visit q q.ahead start).hub.pipeline? S = h.pipeline? S :=
    visit_aside q start (hq.imp_left And.right)
  by_cases hpark : (visit q q.ahead start).parked = true
  · have hres : h.resume q stored = visit q q.ahead start := if_pos hpark
    rw [hres]
    exact hvisit
  · have hres : h.resume q stored = publishEach q.caller q.order q.later (visit q q.ahead start) :=
      if_neg hpark
    rw [hres]
    rcases hq with hq | hq
    · rw [hq.1]
      exact hvisit
    · exact (publishEach_aside _ _ _ _ (mt (registered_congr hvisit).mp hq)).trans hvisit

/-- Publishes that go on leave a subscription alone when they are through with it, or when it is not
registered. -/
theorem resumeAll_aside (stored : Bool) {qs : List (Publication π α)} (reply : Reply π ρ α β)
    (hqs : (∀ q ∈ qs, Leaves S q) ∨ ¬ reply.hub.Registered S) :
    (resumeAll stored qs reply).hub.pipeline? S = reply.hub.pipeline? S := by
  induction qs generalizing reply with
  | nil => rfl
  | cons q rest ih =>
    have hfirst : (reply.hub.resume q stored).hub.pipeline? S = _ :=
      resume_aside (hqs.imp_left fun h => h q (List.mem_cons_self ..)) stored
    refine (ih { reply with hub := _, received := _, returned := _ } ?_).trans hfirst
    exact hqs.imp (fun h x hx => h x (List.mem_cons_of_mem _ hx)) (mt (registered_congr hfirst).mp)

theorem settle_line {reply : Reply π ρ α β} (hs : reply.hub.Sound)
    {p : Pipeline (Publication π α) ρ α} (hp : reply.hub.pipeline? S = some p) :
    ∃ p', (settle reply).hub.pipeline? S = some p' ∧ p'.line = p.line ∧
      ∀ q ∈ p'.parked, q ∈ p.parked := by
  unfold settle
  split
  · exact ⟨p, hp, rfl, fun q hq => hq⟩
  · rename_i hgone
    rw [Bool.or_eq_true, Bool.not_eq_true', List.isEmpty_eq_false_iff, not_or, not_not] at hgone
    refine ⟨p.retired, (close_at hs hgone.2 hp).1, ?_, fun q hq => absurd hq List.not_mem_nil⟩
    have hidle : p.waiting = ∅ := waiting_of_idle hgone.2 (mem_of_pipeline? hp)
    rw [Pipeline.line, Pipeline.line, hidle]
    rfl

end passing

/-! ## Receiving until nothing comes -/

section draining

variable {h : Hub π ρ α} {S : SubscriptionId} {p : Pipeline (Publication π α) ρ α}

/-- **A receive takes the head of the line.** -/
theorem Good.tryReceive_line (hg : h.Good) (hp : h.pipeline? S = some p)
    (hleaves : ∀ q ∈ p.parked, Leaves S q) {v : α} {rest : List α} (hline : p.line = v :: rest) :
    (h.tryReceive S).result = .value v ∧
      ∃ p', (h.tryReceive S).hub.pipeline? S = some p' ∧ p'.line = rest ∧
        ∀ q ∈ p'.parked, Leaves S q := by
  have hsettled := (hg.sound.fits_of hp).settled
  obtain ⟨unread, hu⟩ := hsettled.unread_of_line hline
  obtain ⟨p₁, hread, -, hunread, hwait, -⟩ := hsettled.tryReceive hu
  obtain ⟨hletIn, hparked⟩ := hsettled.mem_parked_of_tryReceive hread
  refine ⟨tryReceive_result_of_cons hg.sound hp hu, ?_⟩
  set publication := p.waiting.toList.head?.map (·.1)
  set read : Reply π ρ α (Reception α) := ⟨h.setPipeline S p₁, .value v, [], []⟩
  have htry : h.tryReceive S = settle (resumeAll true publication.toList read) := by
    simp only [Hub.tryReceive, hp, hread]
    rfl
  have hsound : (resumeAll true publication.toList read).hub.Sound :=
    (resumeAll_moves true _ _).turns.sound ((Move.read hp hread).sound hg.sound)
  have hat : (resumeAll true publication.toList read).hub.pipeline? S = some p₁ :=
    (resumeAll_aside true read (Or.inl fun q hq => hleaves q (hletIn q hq))).trans
      ((pipeline?_setPipeline hp p₁ S).trans (if_pos rfl))
  obtain ⟨p', hp', hline', hparked'⟩ := settle_line hsound hat
  refine ⟨p', htry ▸ hp', hline'.trans ?_, fun q hq => hleaves q (hparked q (hparked' q hq))⟩
  rw [Pipeline.line, hu, List.cons_append, List.cons.injEq] at hline
  rw [Pipeline.line, hunread, hwait, ← hline.2, List.append_assoc]
  cases p.waiting.toList <;> rfl

theorem Good.tryReceive (hg : h.Good) (id : SubscriptionId) : (h.tryReceive id).hub.Good :=
  ⟨(h.tryReceive_moves id).turns.sound hg.sound, tryReceive_anchored hg.anchored⟩

theorem Good.drainUpTo_line (fuel : Nat) (acc : List α) {r : Reply π ρ α Unit}
    (hg : r.hub.Good) (hp : r.hub.pipeline? S = some p)
    (hleaves : ∀ q ∈ p.parked, Leaves S q) (hfuel : p.line.length < fuel) :
    ∃ p', (drainUpTo S fuel acc r).hub.pipeline? S = some p' ∧ p'.line = [] ∧
      (drainUpTo S fuel acc r).result = ⟨acc.reverse ++ p.line, p'.buffer.closed⟩ := by
  induction fuel generalizing acc r p with
  | zero => exact absurd hfuel (Nat.not_lt_zero _)
  | succ fuel ih =>
    cases hline : p.line with
    | nil =>
      have hread := tryReceive_of_nil hg.sound hg.anchored hp (unread_eq_nil_of_line hline).1
      refine ⟨p, ?_⟩
      cases hc : p.buffer.closed
      all_goals
        rw [hc] at hread
        simp only [drainUpTo, hread, if_true, Bool.false_eq_true, if_false, List.append_nil]
        exact ⟨hp, hline, trivial⟩
    | cons v rest =>
      obtain ⟨hresult, p₁, hp₁, hline₁, hleaves₁⟩ := hg.tryReceive_line hp hleaves hline
      rw [hline, List.length_cons] at hfuel
      obtain ⟨p', hp', hnil, hdrained⟩ := ih (v :: acc)
        (r := ⟨(r.hub.tryReceive S).hub, (), r.received ++ (r.hub.tryReceive S).received,
          r.returned ++ (r.hub.tryReceive S).returned⟩)
        (hg.tryReceive S) hp₁ hleaves₁ (by rw [hline₁]; exact Nat.lt_of_succ_lt_succ hfuel)
      simp only [drainUpTo, hresult]
      refine ⟨p', hp', hnil, hdrained.trans ?_⟩
      rw [hline₁, List.reverse_cons, List.append_assoc]
      rfl

/-- **Draining takes the whole line.** -/
theorem Good.drain_line (hg : h.Good) (hp : h.pipeline? S = some p)
    (hleaves : ∀ q ∈ p.parked, Leaves S q) :
    ∃ p', (h.drain S).hub.pipeline? S = some p' ∧ p'.line = [] ∧
      (h.drain S).result = ⟨p.line, p'.buffer.closed⟩ :=
  Good.drainUpTo_line (h.backlog S + 1) [] (r := ⟨h, (), [], []⟩) hg hp hleaves
    (Nat.lt_succ_of_le (hg.sound.line_le_backlog hp))

theorem drain_of_none (hnone : h.pipeline? S = none) : h.drain S = ⟨h, ⟨[], true⟩, [], []⟩ := by
  simp only [drain, drainUpTo, Hub.tryReceive, hnone]
  rfl

end draining

/-! ## Runs without bursts -/

section runs

variable {label : String} {policy : Policy} {S : SubscriptionId}

/-- Where no call publishes more than one value, a publish let in is through with its target. -/
theorem leaves_of_parked {steps : List (Step α)} (hburst : ∀ order vs, .burst order vs ∉ steps)
    {q : Publication Nat α} (hq : q ∈ (run label policy steps).hub.parkedOn S) : Leaves S q := by
  have hleft : (run label policy steps).hub.left = 0 := left_of_plain hburst
  rw [left, List.sum_eq_zero_iff] at hleft
  have hmem := mem_parkedPublications_of_parkedOn hq
  exact ⟨List.length_eq_zero_iff.mp (hleft _ (List.mem_map_of_mem hmem)),
    (List.nodup_cons.mp (run_direct label policy steps q _ (.parked hq))).1⟩

theorem closed_of_held {r : Run α} (hg : r.hub.Good) (hreg : S ∈ r.hub.registered)
    {steps : List (Step α)} (hheld : ¬ r.LetsGo S steps) {p : Pipeline (Publication Nat α) Nat α}
    (hp : (r.extend steps).hub.pipeline? S = some p) :
    p.buffer.closed = true ↔ .cancel S ∈ steps ∨ (r.extend steps).hub.closed = true := by
  have hgood := (Run.extend_turns hg steps).1
  have hiff := Run.registered_iff hg hreg steps
  rw [hgood.sound.mem_registered] at hiff
  constructor
  · intro hc
    by_contra hnone
    rw [not_or, Bool.not_eq_true] at hnone
    refine not_registered_of_shut hp ?_ (hiff.mpr ⟨hnone.1, hheld, hnone.2⟩)
    rw [Pipeline.isOpen, hc]
    rfl
  · intro hend
    by_contra hc
    have hopen : p.isOpen = true := by simpa [Pipeline.isOpen] using hc
    obtain ⟨hcancel, -, hclosed⟩ := hiff.mp ⟨p, hp, hopen⟩
    rcases hend with hmem | hcl
    · exact hcancel hmem
    · exact absurd (hclosed.symm.trans hcl) Bool.noConfusion

theorem closed_before {steps : List (Step α)} {s : Step α} (hne : s ≠ .close)
    {P : List (Step α) → Prop} :
    (∃ earlier later, steps ++ [s] = earlier ++ .close :: later ∧ P earlier) ↔
      ∃ earlier later, steps = earlier ++ .close :: later ∧ P earlier := by
  constructor
  · rintro ⟨earlier, later, heq, hP⟩
    rcases List.eq_nil_or_concat later with rfl | ⟨later, s', rfl⟩
    · have hlast := (List.append_inj' heq rfl).2
      exact absurd (List.cons.inj hlast).1 hne
    · rw [List.concat_eq_append, ← List.cons_append, ← List.append_assoc] at heq
      exact ⟨earlier, later, (List.append_inj' heq rfl).1, hP⟩
  · rintro ⟨earlier, later, rfl, hP⟩
    exact ⟨earlier, later ++ [s], by simp, hP⟩

/-- **Draining takes the line.** A handle was given out by the step after `before`, has not been let
go since, and no receive waits on it. No call of the run publishes more than one value. Then
draining gives the unread values of the subscription and after them the values of the publishes
parked on it, in the order in which they parked, whatever becomes of these publishes at the other
subscriptions. Afterwards nothing is unread and no publish is parked there; and the end is reported
exactly if by then the subscription was cancelled, or its hub was closed by its owner, or let go by
its owner with no publish under way. -/
theorem drain_takes_the_line {before after : List (Step α)} {n : Nat}
    (hS : ((Step.subscribe n).act (run label policy before).hub before.length).result =
      .subscribed S)
    (hheld : ¬ (run label policy (before ++ [.subscribe n])).LetsGo S after)
    (hburst : ∀ order vs, .burst order vs ∉ before ++ .subscribe n :: after)
    (hfree : (run label policy (before ++ .subscribe n :: after)).hub.isWaiting S = false) :
    let r := run label policy (before ++ .subscribe n :: after)
    let r' := run label policy (before ++ .subscribe n :: after ++ [.drain S])
    ∃ ended, ((Step.drain S).act r.hub r.calls).result =
        .drained ⟨r.hub.unreadOf S ++ (r.hub.parkedOn S).map (·.value), ended⟩ ∧
      r'.hub.unreadOf S = [] ∧ r'.hub.parkedOn S = [] ∧
      (ended = true ↔ .cancel S ∈ after ∨
        (∃ earlier later, before ++ .subscribe n :: after = earlier ++ .close :: later ∧
          (run label policy earlier).hub.owned = true) ∨
        r'.hub.owned = false ∧ r'.hub.parkedPublications = []) := by
  intro r r'
  set r₀ := run label policy (before ++ [.subscribe n]) with hr₀
  have hr : r = r₀.extend after := by
    rw [hr₀, ← run_append, List.append_assoc]
    rfl
  have hr' : r' = r.next (.drain S) := run_append label policy _ [.drain S]
  have hgood : r.hub.Good := run_good label policy _
  have hdrain : (Step.drain S).act r.hub r.calls = (r.hub.drain S).map .drained := by
    rw [Step.act, unlessBusy, if_neg (by rw [hfree]; exact Bool.false_ne_true)]
  have hhub : r'.hub = (r.hub.drain S).hub := by
    rw [hr', Run.next, hdrain]
    rfl
  have hresult : ((Step.drain S).act r.hub r.calls).result = .drained (r.hub.drain S).result := by
    rw [hdrain]
    rfl
  have hclosed : r'.hub.closed = true ↔
      (∃ earlier later, before ++ .subscribe n :: after = earlier ++ .close :: later ∧
        (run label policy earlier).hub.owned = true) ∨
      r'.hub.owned = false ∧ r'.hub.parkedPublications = [] :=
    (run_closed_iff label policy _).trans (or_congr_left (closed_before (by simp)))
  rw [hresult, ← hclosed]
  by_cases hc : (run label policy before).hub.closed = true
  · -- There is nothing behind a handle from a closed hub.
    obtain rfl := Step.subscribed_of_closed hc hS
    have hnone : r.hub.pipeline? 0 = none := hgood.sound.pipeline?_zero
    have hstill : r.hub.closed = true := by
      obtain ⟨-, log, -, hlater, -⟩ := Run.extend_turns (run_good label policy before)
        (.subscribe n :: after)
      rw [show r = _ from run_append label policy before (.subscribe n :: after)]
      exact hlater.closed hc
    rw [hhub, drain_of_none hnone]
    refine ⟨true, ?_, unreadOf_none hnone, ?_, iff_of_true rfl (Or.inr hstill)⟩
    · rw [unreadOf_none hnone, parkedOn, hnone]
      rfl
    · rw [parkedOn, hnone]
      rfl
  · replace hc : (run label policy before).hub.closed = false := by simpa using hc
    have hgood₀ : r₀.hub.Good := run_good label policy _
    have hnew : r₀.hub.pipeline? S = some (.new n) := by
      rw [hr₀, run_append]
      exact (Run.pipeline?_of_subscribe (run_good label policy before).sound hc hS).2
    have hreg : S ∈ r₀.hub.registered := hgood₀.sound.mem_registered.mpr ⟨_, hnew, rfl⟩
    have hkept : (r₀.hub.pipeline? S).isSome = true := by rw [hnew]; rfl
    obtain ⟨p, hp⟩ := Option.isSome_iff_exists.mp ((Run.held_iff hgood₀ hkept).mpr hheld)
    rw [← hr] at hp
    obtain ⟨p', hp', hnil, hdrained⟩ := hgood.drain_line hp fun q hq =>
      leaves_of_parked hburst (by rwa [parkedOn_some hp])
    have hlater : r' = r₀.extend (after ++ [.drain S]) := by
      rw [hr', hr, Run.extend_append]
      rfl
    rw [← hhub] at hp'
    obtain ⟨hunread, hparked⟩ := unread_eq_nil_of_line hnil
    refine ⟨p'.buffer.closed, ?_, (unreadOf_some hp').trans hunread,
      (parkedOn_some hp').trans hparked, ?_⟩
    · rw [unreadOf_some hp, parkedOn_some hp, ← (hgood.sound.fits_of hp).line_eq]
      exact congrArg Answer.drained hdrained
    · have hstays : ¬ r₀.LetsGo S (after ++ [.drain S]) :=
        (Run.held_iff hgood₀ hkept).mp (by rw [← hlater, hp']; rfl)
      rw [hlater] at hp' ⊢
      refine (closed_of_held hgood₀ hreg hstays hp').trans (or_congr_left ?_)
      simp

/-- Three values fill a subscription with a buffer of one, and a fourth publish waits there before
it comes to another. The owner lets go meanwhile, so that the hub closes when the drain has let the
publish in and it returns. -/
theorem drain_takes_the_line_released :
    let after : List (Step Nat) := [.subscribe 2, .publish [] 7, .publish [] 8, .publish [] 9,
      .publish [] 10, .disown]
    let r := run "hub" .reliable (.subscribe 1 :: after)
    r.hub.unreadOf 1 = [7, 8, 9] ∧ r.hub.closed = false ∧
      ((Step.drain 1).act r.hub r.calls).result = .drained ⟨[7, 8, 9, 10], true⟩ := by
  intro after r
  have hheld : ¬ (run "hub" .reliable ([] ++ [.subscribe 1])).LetsGo 1 after := by
    rintro ⟨before, rest, heq, -⟩
    have hmem : .abandon 1 ∈ after := heq ▸ List.mem_append_right _ (List.mem_cons_self ..)
    simp [after] at hmem
  obtain ⟨ended, hresult, -, -, hend⟩ := @drain_takes_the_line Nat "hub" .reliable 1 []
    after 1 rfl hheld (by simp [after]) rfl
  have hended : ended = true := hend.mpr (Or.inr (Or.inr ⟨rfl, rfl⟩))
  exact ⟨rfl, rfl, hended ▸ hresult⟩

end runs

end Switchboard.Hub
