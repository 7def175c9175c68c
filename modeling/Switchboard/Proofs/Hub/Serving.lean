import Switchboard.Proofs.Hub.Shifts

/-!
# Targets still to serve

What becomes of the subscriptions that a publish has found registered at its call. As long as one is
registered, the publish owes it a value; when the publish comes to it, the value is stored.

**Owing.** On a reliable hub a target that a publish has still to serve is still to be served after a
turn, or it took the value, or it is not registered any more (`Turns.owes`). A subscription that is
not registered takes nothing (`Turns.not_stored_at`), and one that is registered stays so unless it
is cut off or the hub closes (`Turns.registered`).
-/

namespace Switchboard.Hub

variable {π ρ α : Type}

/-! ## Staying registered -/

section registered

variable {h : Hub π ρ α} {id : SubscriptionId} {p p' : Pipeline (Publication π α) ρ α}
  {s t : Scene π ρ α} {log : List (Event π ρ α)}

theorem registered_setPipeline (hs : h.Sound) (hp : h.pipeline? id = some p)
    (hopen : p'.isOpen = p.isOpen) : (h.setPipeline id p').registered = h.registered := by
  obtain ⟨l₁, l₂, hl, hset⟩ := exists_split hs.nodup hp
  simp only [registered, hset, hl, List.filter_append, List.filter_cons, hopen, List.map_append]
  split <;> rfl

theorem mem_registered_setPipeline (hs : h.Sound) (hp : h.pipeline? id = some p)
    (hopen : p'.isOpen = p.isOpen) {i : SubscriptionId} (hi : i ∈ h.registered) :
    i ∈ (h.setPipeline id p').registered := by
  rwa [registered_setPipeline hs hp hopen]

theorem isOpen_of_store (hs : p.Settled) (hroom : p.buffer.hasRoom = true) {v : α}
    {received : List (ρ × Option α)} (hstore : p.store v = (p', received)) :
    p'.isOpen = p.isOpen := by
  obtain ⟨-, -, -, hshell⟩ := hs.of_store hroom hstore
  obtain ⟨-, -, hc, -, -⟩ := Pipeline.shell_eq_iff.mp hshell
  rw [Pipeline.isOpen, Pipeline.isOpen, hc]

theorem isOpen_of_read (hs : p.Settled) {reception : Reception α}
    {publication : Option (Publication π α)}
    (hread : p.tryReceive = (p', reception, publication)) : p'.isOpen = p.isOpen := by
  cases hu : p.unread with
  | nil =>
    rw [Pipeline.tryReceive_nil hu, Prod.mk.injEq] at hread
    rw [← hread.1]
  | cons v rest =>
    obtain ⟨-, -, -, -, -, hshell⟩ := hs.of_tryReceive hu hread
    obtain ⟨-, -, hc, -, -⟩ := Pipeline.shell_eq_iff.mp hshell
    rw [Pipeline.isOpen, Pipeline.isOpen, hc]

/-- A subscription stays registered unless it is cut off or the hub closes. -/
theorem Turn.registered (h : Turn s log t) (hs : s.hub.Sound) (hcut : ¬ CutIn id log)
    (hopen : t.hub.closed = false) (hreg : id ∈ s.hub.registered) : id ∈ t.hub.registered := by
  have hs' := h.sound hs
  cases h with
  | move h =>
    cases h with
    | store _ hp _ hroom hstore =>
      have hsame := isOpen_of_store (hs.fits_of hp).settled hroom hstore
      exact mem_registered_setPipeline hs hp hsame hreg
    | park _ hp _ _ _ =>
      refine mem_registered_setPipeline hs hp ?_ hreg
      rfl
    | read hp hread =>
      have hsame := isOpen_of_read (hs.fits_of hp).settled hread
      exact mem_registered_setPipeline hs hp hsame hreg
    | shut _ _ => cases hopen
    | _ => exact hreg
  | subscribe h n hc =>
    simp only [register, Hub.registered, List.filter_append, List.map_append]
    exact List.mem_append_left _ hreg
  | @cancel h i p p' received publications hp hopen' hcancel =>
    have hne : id ≠ i := by
      rintro rfl
      exact hcut (Or.inl (List.mem_cons_self ..))
    rw [hs'.mem_registered]
    obtain ⟨p₀, hp₀, hopen₀⟩ := hs.mem_registered.mp hreg
    exact ⟨p₀, (pipeline?_setPipeline hp p' id).trans ((if_neg hne).trans hp₀), hopen₀⟩
  | abandon h i hshut =>
    rw [hs'.mem_registered]
    obtain ⟨p₀, hp₀, hopen₀⟩ := hs.mem_registered.mp hreg
    have hne : id ≠ i := by
      rintro rfl
      exact hcut (Or.inr (List.mem_singleton.mpr rfl))
    exact ⟨p₀, (lookup_forget h.pipelines i id).trans ((if_neg hne).trans hp₀), hopen₀⟩
  | await caller hp _ _ =>
    refine mem_registered_setPipeline hs hp ?_ hreg
    rfl
  | _ => exact hreg

theorem Turns.registered (h : Turns s log t) (hs : s.hub.Sound) (hcut : ¬ CutIn id log)
    (hopen : t.hub.closed = false) (hreg : id ∈ s.hub.registered) : id ∈ t.hub.registered := by
  induction h with
  | refl _ => exact hreg
  | @head s m t _ _ hm hrest ih =>
    rw [cutIn_append, not_or] at hcut
    have hmid : m.hub.closed = false := by
      by_contra hc
      rw [Turns.closed hrest (by simpa using hc)] at hopen
      cases hopen
    exact ih (hm.sound hs) hcut.2 hopen (hm.registered hs hcut.1 hmid hreg)

theorem Turn.not_stored_at (h : Turn s log t) (hs : s.hub.Sound) (hreg : id ∉ s.hub.registered) :
    storedIn id log = [] := by
  rw [hs.mem_registered, not_registered_iff] at hreg
  cases hp : s.hub.pipeline? id with
  | none => exact (h.absent hs hp).1
  | some p =>
    rcases h.outcome hs hp with ⟨-, p', -, hc⟩ | ⟨-, hst, -⟩
    · exact (hc.shut (hreg p hp)).2
    · exact hst

theorem Turns.not_stored_at (h : Turns s log t) (hs : s.hub.Sound) (hid : id ≤ s.hub.lastId)
    (hreg : id ∉ s.hub.registered) : storedIn id log = [] := by
  induction h with
  | refl _ => rfl
  | head hm _ ih =>
    have hs' := hm.sound hs
    have hreg' := hm.not_registered hs hid (mt hs.mem_registered.mpr hreg)
    rw [storedIn_append, hm.not_stored_at hs hreg,
      ih hs' (Nat.le_trans hid hm.lastId_le) (mt hs'.mem_registered.mp hreg')]
    rfl

end registered

/-! ## Targets still to serve -/

section owes

variable {h h' : Hub π ρ α} {id : SubscriptionId} {caller : π} {s t : Scene π ρ α}
  {log : List (Event π ρ α)}

/-- A publish of the caller has still to serve the target. -/
def Owes (caller : π) (id : SubscriptionId) (s : Scene π ρ α) : Prop :=
  ∃ q togo, UnderWay s q togo ∧ q.caller = caller ∧ id ∈ togo

theorem Owes.moving {q : Publication π α} (hq : q ∈ s.moving) (hc : q.caller = caller)
    (hid : id ∈ q.ahead) : Owes caller id s :=
  ⟨q, q.ahead, .moving hq, hc, hid⟩

theorem Owes.parked {q : Publication π α} {i : SubscriptionId} (hq : q ∈ s.hub.parkedOn i)
    (hc : q.caller = caller) (hid : id ∈ i :: q.ahead) : Owes caller id s :=
  ⟨q, _, .parked hq, hc, hid⟩

/-- The publishes behind the first go on owing what they owe. -/
theorem Owes.behind {g : Hub π ρ α} {q : Publication π α} {moving m : List (Publication π α)}
    (ho : Owes caller id ⟨h, q :: moving⟩) (hmoving : ∀ x ∈ moving, x ∈ m)
    (hparked : ∀ i, ∀ x ∈ h.parkedOn i, x ∈ g.parkedOn i) :
    Owes caller id ⟨g, m⟩ ∨ caller = q.caller ∧ id ∈ q.ahead := by
  obtain ⟨x, togo, hx, rfl, hid⟩ := ho
  cases hx with
  | moving hx =>
    rcases List.mem_cons.mp hx with rfl | hx
    · exact Or.inr ⟨rfl, hid⟩
    · exact Or.inl (.moving (hmoving x hx) rfl hid)
  | @parked i hx => exact Or.inl (.parked (hparked i x hx) rfl hid)

/-- The first publish has a next target, which is served now or given up. -/
theorem Owes.step {g : Hub π ρ α} {q q' : Publication π α} {i : SubscriptionId}
    {moving : List (Publication π α)} (ho : Owes caller id ⟨h, q :: moving⟩)
    (hahead : q.ahead = i :: q'.ahead) (hcaller : q'.caller = q.caller)
    (hparked : ∀ j, ∀ x ∈ h.parkedOn j, x ∈ g.parkedOn j) :
    Owes caller id ⟨g, q' :: moving⟩ ∨ caller = q.caller ∧ id = i := by
  rcases ho.behind (fun x hx => List.mem_cons_of_mem _ hx) hparked with ho | ⟨rfl, hid⟩
  · exact Or.inl ho
  · rw [hahead] at hid
    rcases List.mem_cons.mp hid with rfl | hid
    · exact Or.inr ⟨rfl, rfl⟩
    · exact Or.inl (.moving (List.mem_cons_self ..) hcaller hid)

theorem Owes.served {g : Hub π ρ α} {q : Publication π α} {moving m : List (Publication π α)}
    (ho : Owes caller id ⟨h, q :: moving⟩) (hahead : q.ahead = []) (hmoving : ∀ x ∈ moving, x ∈ m)
    (hparked : ∀ i, ∀ x ∈ h.parkedOn i, x ∈ g.parkedOn i) : Owes caller id ⟨g, m⟩ := by
  refine (ho.behind hmoving hparked).resolve_right fun ⟨_, hid⟩ => ?_
  rw [hahead] at hid
  cases hid

theorem Owes.still {moving : List (Publication π α)} (ho : Owes caller id ⟨h, []⟩)
    (hparked : ∀ i, ∀ x ∈ h.parkedOn i, x ∈ h'.parkedOn i) : Owes caller id ⟨h', moving⟩ := by
  obtain ⟨x, togo, hx, rfl, hid⟩ := ho
  cases hx with
  | moving hx => cases hx
  | @parked i hx => exact .parked (hparked i x hx) rfl hid

theorem mem_parkedOn_setPipeline {i : SubscriptionId} {p p' : Pipeline (Publication π α) ρ α}
    (hp : h.pipeline? i = some p) (hkeep : ∀ x ∈ p.parked, x ∈ p'.parked) (j : SubscriptionId)
    (x : Publication π α) (hx : x ∈ h.parkedOn j) : x ∈ (h.setPipeline i p').parkedOn j := by
  rw [parkedOn_setPipeline hp]
  split
  · rename_i hj
    rw [hj, parkedOn_some hp] at hx
    exact hkeep x hx
  · exact hx

/-- What is parked stays parked when a receiver reads, but for the publish that it lets in. -/
theorem mem_parkedOn_read (hs : h.Sound) {i : SubscriptionId}
    {p p' : Pipeline (Publication π α) ρ α} {reception : Reception α}
    {publication : Option (Publication π α)} (hp : h.pipeline? i = some p)
    (hread : p.tryReceive = (p', reception, publication)) {j : SubscriptionId}
    {x : Publication π α} (hx : x ∈ h.parkedOn j) :
    x ∈ (h.setPipeline i p').parkedOn j ∨ j = i ∧ publication = some x := by
  by_cases hj : j = i
  · subst hj
    rw [parkedOn_some hp, (hs.fits_of hp).settled.parked_of_tryReceive hread, List.mem_append] at hx
    rw [parkedOn_setPipeline hp, if_pos rfl]
    exact hx.symm.imp_right fun hx => ⟨rfl, by simpa using hx⟩
  · rw [parkedOn_setPipeline hp, if_neg hj]
    exact Or.inl hx

theorem Move.owes (h : Move s log t) (hs : s.hub.Sound) (hpol : s.hub.policy = .reliable)
    (ho : Owes caller id s) :
    Owes caller id t ∨ (id, caller) ∈ storesIn log ∨ id ∉ t.hub.registered := by
  have hs' := h.sound hs
  cases h with
  | @store h q moving i ahead p p' received hahead hp hopen hroom hstore =>
    obtain ⟨-, -, -, hshell⟩ := (hs.fits_of hp).settled.of_store hroom hstore
    obtain ⟨-, -, -, hw, -⟩ := Pipeline.shell_eq_iff.mp hshell
    have hkeep : ∀ x ∈ p.parked, x ∈ p'.parked := fun x hx => by rwa [Pipeline.parked, hw]
    refine Or.imp_right ?_ (ho.step hahead rfl (mem_parkedOn_setPipeline hp hkeep))
    rintro ⟨rfl, rfl⟩
    exact Or.inl (List.mem_cons_self ..)
  | @pass h q moving i ahead hahead hshut =>
    refine Or.imp_right ?_ (ho.step hahead rfl fun _ _ hx => hx)
    rintro ⟨rfl, rfl⟩
    exact Or.inr fun hreg => not_registered_iff.mpr hshut (hs'.mem_registered.mp hreg)
  | miss _ _ _ _ hlossy =>
    -- A publish on a reliable hub misses nobody.
    rw [hpol] at hlossy
    cases hlossy
  | @park h q moving i ahead p hahead hp hopen hroom _ =>
    set traveller : Publication π α := { q with ahead }
    have hkeep : ∀ x ∈ p.parked, x ∈ (p.park traveller q.value).parked := fun x hx => by
      rw [Pipeline.parked_park]
      exact List.mem_append_left _ hx
    rcases ho.behind (m := moving) (g := h.setPipeline i (p.park traveller q.value))
      (fun x hx => hx) (mem_parkedOn_setPipeline hp hkeep) with ho | ⟨rfl, hid⟩
    · exact Or.inl ho
    · -- It now waits for the target that was the next one ahead of it.
      refine Or.inl (.parked (q := traveller) (i := i) ?_ rfl (hahead ▸ hid))
      rw [parkedOn_setPipeline hp, if_pos rfl, Pipeline.parked_park]
      exact List.mem_append_right _ (List.mem_singleton.mpr rfl)
  | finish hahead _ => exact Or.inl (ho.served hahead (fun x hx => hx) fun _ _ hx => hx)
  | skip hahead _ _ =>
    exact Or.inl (ho.served hahead (fun x hx => List.mem_cons_of_mem _ hx) fun _ _ hx => hx)
  | next hahead _ _ =>
    exact Or.inl (ho.served hahead (fun x hx => List.mem_cons_of_mem _ hx) fun _ _ hx => hx)
  | @read h i p p' reception publication hp hread =>
    obtain ⟨x, togo, hx, rfl, hid⟩ := ho
    cases hx with
    | moving hx => cases hx
    | @parked j hx =>
      rcases mem_parkedOn_read hs hp hread hx with hx | ⟨rfl, rfl⟩
      · exact Or.inl (.parked hx rfl hid)
      · rcases List.mem_cons.mp hid with rfl | hid
        · refine Or.inr (Or.inl ?_)
          cases reception <;> simp [readLog, storesIn]
        · exact Or.inl (.moving (q := x.arrived true) (List.mem_singleton.mpr rfl) rfl hid)
  | shut _ hret =>
    -- Nobody is registered with a closed hub.
    refine Or.inr (Or.inr fun hreg => ?_)
    obtain ⟨p, hp, hopen⟩ := hs'.mem_registered.mp hreg
    rw [Pipeline.isOpen, (hs'.fits_of hp).shut rfl] at hopen
    cases hopen

/-- **A target that a publish has still to serve** is still to be served after a turn, or it took
the value, or it is not registered any more. -/
theorem Turn.owes (h : Turn s log t) (hs : s.hub.Sound) (hpol : s.hub.policy = .reliable)
    (ho : Owes caller id s) :
    Owes caller id t ∨ (id, caller) ∈ storesIn log ∨ id ∉ t.hub.registered := by
  have hs' := h.sound hs
  cases h with
  | move h => exact h.owes hs hpol ho
  | subscribe h n hc =>
    refine Or.inl (ho.still fun i x hx => ?_)
    obtain ⟨p, hp, hx⟩ := mem_parkedOn.mp hx
    refine mem_parkedOn.mpr ⟨p, (hs.pipeline?_register i).trans ?_, hx⟩
    have hle : i ≤ h.lastId := (hs.named _ (mem_of_pipeline? hp)).2
    rw [if_neg (Nat.ne_of_lt (Nat.lt_succ_of_le hle))]
    exact hp
  | call h c order v later hc => exact Or.inl (ho.still fun _ _ hx => hx)
  | decline h c => exact Or.inl ho
  | @cancel h i p p' received publications hp hopen hcancel =>
    rw [(hs.fits_of hp).settled.cancel_eq, Prod.mk.injEq, Prod.mk.injEq] at hcancel
    obtain ⟨rfl, rfl, rfl⟩ := hcancel
    obtain ⟨x, togo, hx, rfl, hid⟩ := ho
    cases hx with
    | moving hx => cases hx
    | @parked j hx =>
      by_cases hj : j = i
      · subst hj
        rw [parkedOn_some hp] at hx
        rcases List.mem_cons.mp hid with rfl | hid
        · refine Or.inr (Or.inr fun hreg => ?_)
          refine not_registered_of_shut ?_ (p := p.cancelled) rfl (hs'.mem_registered.mp hreg)
          exact (pipeline?_setPipeline hp _ _).trans (if_pos rfl)
        · exact Or.inl (.moving (q := x.arrived false) (List.mem_map_of_mem hx) rfl hid)
      · refine Or.inl (.parked (i := j) ?_ rfl hid)
        rwa [parkedOn_setPipeline hp, if_neg hj]
  | abandon h i hshut =>
    refine Or.inl (ho.still fun j x hx => ?_)
    obtain ⟨p, hp, hx⟩ := mem_parkedOn.mp hx
    refine mem_parkedOn.mpr ⟨p, (lookup_forget h.pipelines i j).trans ?_, hx⟩
    have hne : j ≠ i := by
      rintro rfl
      have hc : p.buffer.closed = true := by simpa [Pipeline.isOpen] using hshut p hp
      rw [Pipeline.parked, ((hs.fits_of hp).settled.idle_of_closed hc).1] at hx
      cases hx
    rw [if_neg hne]
    exact hp
  | await c hp hopen hu =>
    exact Or.inl (ho.still (mem_parkedOn_setPipeline hp fun _ hx => hx))
  | disown h => exact Or.inl (ho.still fun _ _ hx => hx)

theorem Turns.owes (h : Turns s log t) (hs : s.hub.Sound) (hpol : s.hub.policy = .reliable)
    (hid : id ≤ s.hub.lastId) (ho : Owes caller id s) :
    Owes caller id t ∨ (id, caller) ∈ storesIn log ∨ id ∉ t.hub.registered := by
  induction h with
  | refl _ => exact Or.inl ho
  | head hm hrest ih =>
    have hs' := hm.sound hs
    have hid' := Nat.le_trans hid hm.lastId_le
    rw [storesIn_append, List.mem_append]
    rcases hm.owes hs hpol ho with ho | hst | hreg
    · rcases ih hs' (hm.policy.trans hpol) hid' ho with ho | hst | hreg
      · exact Or.inl ho
      · exact Or.inr (Or.inl (Or.inr hst))
      · exact Or.inr (Or.inr hreg)
    · exact Or.inr (Or.inl (Or.inl hst))
    · refine Or.inr (Or.inr ?_)
      have := Turns.not_registered hrest hs' hid' (mt hs'.mem_registered.mpr hreg)
      exact mt (Turns.sound hrest hs').mem_registered.mp this

end owes

end Switchboard.Hub
