import Mathlib.Data.List.Nodup
import Switchboard.Proofs.Hub.Moves
import Switchboard.Proofs.Pipeline.Settled
import Switchboard.Table

/-!
# Sound hubs

What holds of a hub at every moment: subscriptions have names of their own, every pipeline is
settled, and the pipelines agree with the hub about its policy and whether it is closed.

**Lookup.** Changing one pipeline leaves the others alone (`pipeline?_setPipeline`); shutting
retires each of them (`Sound.retireAll_eq`).

**Main statement** (`Turn.sound`). Every turn keeps a hub sound, so every operation does.
-/

namespace Switchboard.Hub

variable {π ρ α β : Type}

/-! ## Looking up pipelines -/

theorem mem_of_pipeline? {h : Hub π ρ α} {id : SubscriptionId}
    {p : Pipeline (Publication π α) ρ α} (hp : h.pipeline? id = some p) :
    (id, p) ∈ h.pipelines := by
  obtain ⟨l₁, l₂, hl, -⟩ := List.lookup_eq_some_iff.mp hp
  rw [hl]
  exact List.mem_append_right _ (List.mem_cons_self ..)

/-- Looking up after a change of the values. -/
theorem lookup_map {β γ : Type} (f : SubscriptionId → β → γ) (l : List (SubscriptionId × β))
    (id : SubscriptionId) :
    (l.map fun e => (e.1, f e.1 e.2)).lookup id = (l.lookup id).map (f id) := by
  induction l with
  | nil => rfl
  | cons e rest ih =>
    obtain ⟨i, b⟩ := e
    rw [List.map_cons, List.lookup_cons, List.lookup_cons, ih]
    by_cases hi : id = i
    · simp [hi]
    · rw [beq_eq_false_iff_ne.mpr hi]

/-- Looking up after one entry was removed. -/
theorem lookup_forget {β : Type} (l : List (SubscriptionId × β)) (i id : SubscriptionId) :
    (l.filter (·.1 != i)).lookup id = if id = i then none else l.lookup id := by
  rw [← Table.lookup_filter i id l]
  refine congrArg _ (List.filter_congr fun e _ => ?_)
  rw [Bool.eq_iff_iff, bne_iff_ne, decide_eq_true_eq]

/-- Changing a pipeline whose place among the others is known. -/
theorem setPipeline_split {h : Hub π ρ α} {id : SubscriptionId}
    {p : Pipeline (Publication π α) ρ α}
    {done rest : List (SubscriptionId × Pipeline (Publication π α) ρ α)}
    (hn : (h.pipelines.map (·.1)).Nodup) (hl : h.pipelines = done ++ (id, p) :: rest)
    (p' : Pipeline (Publication π α) ρ α) :
    h.setPipeline id p' = { h with pipelines := done ++ (id, p') :: rest } := by
  rw [hl, List.map_append, List.map_cons, List.nodup_append, List.nodup_cons] at hn
  have hkeep : ∀ l : List (SubscriptionId × Pipeline (Publication π α) ρ α),
      (∀ e ∈ l, e.1 ≠ id) → (l.map fun e => if e.1 == id then (id, p') else e) = l := by
    intro l hne
    refine (List.map_congr_left fun e he => ?_).trans (List.map_id l)
    rw [if_neg (by simpa using hne e he)]
    rfl
  have hdone : ∀ e ∈ done, e.1 ≠ id :=
    fun e he => hn.2.2 e.1 (List.mem_map_of_mem he) id (List.mem_cons_self ..)
  have hrest : ∀ e ∈ rest, e.1 ≠ id :=
    fun e he heq => hn.2.1.1 (List.mem_map.mpr ⟨e, he, heq⟩)
  simp only [setPipeline, hl, List.map_append, List.map_cons, beq_self_eq_true, if_true,
    hkeep done hdone, hkeep rest hrest]

theorem pipeline?_split {h : Hub π ρ α} {id : SubscriptionId}
    {p : Pipeline (Publication π α) ρ α}
    {done rest : List (SubscriptionId × Pipeline (Publication π α) ρ α)}
    (hn : (h.pipelines.map (·.1)).Nodup) (hl : h.pipelines = done ++ (id, p) :: rest) :
    h.pipeline? id = some p := by
  refine List.lookup_eq_some_iff.mpr ⟨done, rest, hl, fun e he => ?_⟩
  rw [hl, List.map_append, List.nodup_append] at hn
  have hne := hn.2.2 e.1 (List.mem_map_of_mem he) id (List.mem_cons_self ..)
  simpa using hne.symm

/-- Where a pipeline stands among the others. -/
theorem exists_split {h : Hub π ρ α} {id : SubscriptionId} {p : Pipeline (Publication π α) ρ α}
    (hn : (h.pipelines.map (·.1)).Nodup) (hp : h.pipeline? id = some p) :
    ∃ l₁ l₂, h.pipelines = l₁ ++ (id, p) :: l₂ ∧
      ∀ p', (h.setPipeline id p').pipelines = l₁ ++ (id, p') :: l₂ := by
  obtain ⟨l₁, l₂, hl, -⟩ := List.lookup_eq_some_iff.mp hp
  exact ⟨l₁, l₂, hl, fun p' => by rw [setPipeline_split hn hl]⟩

theorem pipeline?_setPipeline {h : Hub π ρ α} {id : SubscriptionId}
    {p : Pipeline (Publication π α) ρ α} (hp : h.pipeline? id = some p)
    (p' : Pipeline (Publication π α) ρ α) (j : SubscriptionId) :
    (h.setPipeline id p').pipeline? j = if j = id then some p' else h.pipeline? j := by
  have hmap : (h.setPipeline id p').pipelines =
      h.pipelines.map fun e => (e.1, if e.1 = id then p' else e.2) := by
    refine List.map_congr_left fun e _ => ?_
    by_cases he : e.1 = id
    · simp [he]
    · simp [he]
  rw [pipeline?, hmap, lookup_map fun i q => if i = id then p' else q]
  by_cases hj : j = id
  · subst hj
    rw [show h.pipelines.lookup j = some p from hp]
    simp
  · simp [hj, pipeline?]

/-- Whether a subscription is registered with a hub. -/
def Registered (h : Hub π ρ α) (id : SubscriptionId) : Prop :=
  ∃ p, h.pipeline? id = some p ∧ p.isOpen = true

theorem not_registered_iff {h : Hub π ρ α} {id : SubscriptionId} :
    ¬ h.Registered id ↔ ∀ p, h.pipeline? id = some p → p.isOpen = false := by
  simp [Registered]

/-! ## The invariant -/

/-- A pipeline fits its hub. -/
structure Fits (closed : Bool) (policy : Policy) (p : Pipeline (Publication π α) ρ α) : Prop where
  settled : p.Settled
  shut : closed = true → p.buffer.closed = true
  lossy : policy = .lossy → p.waiting = ∅
  /-- The value parked is the one that the publish delivers. -/
  carried : ∀ w ∈ p.waiting.toList, w.1.value = w.2

/-- What holds of a hub at every moment. -/
structure Sound (h : Hub π ρ α) : Prop where
  nodup : (h.pipelines.map (·.1)).Nodup
  named : ∀ e ∈ h.pipelines, 1 ≤ e.1 ∧ e.1 ≤ h.lastId
  fits : ∀ e ∈ h.pipelines, Fits h.closed h.policy e.2

theorem sound_new (label : String) (policy : Policy) : (new label policy : Hub π ρ α).Sound where
  nodup := List.nodup_nil
  named _ he := absurd he List.not_mem_nil
  fits _ he := absurd he List.not_mem_nil

section lookup

variable {h : Hub π ρ α} {id : SubscriptionId} {p : Pipeline (Publication π α) ρ α}

theorem Sound.fits_of (hs : h.Sound) (hp : h.pipeline? id = some p) : Fits h.closed h.policy p :=
  hs.fits _ (mem_of_pipeline? hp)

theorem Sound.pipeline?_of_mem (hs : h.Sound) (hp : (id, p) ∈ h.pipelines) :
    h.pipeline? id = some p := by
  obtain ⟨l₁, l₂, hl⟩ := List.append_of_mem hp
  refine List.lookup_eq_some_iff.mpr ⟨l₁, l₂, hl, fun e he => ?_⟩
  have hn := hs.nodup
  rw [hl, List.map_append, List.map_cons, List.nodup_append] at hn
  have := hn.2.2 e.1 (List.mem_map_of_mem he) id (List.mem_cons_self ..)
  simpa using this.symm

theorem Sound.mem_registered (hs : h.Sound) : id ∈ h.registered ↔ h.Registered id := by
  simp only [registered, List.mem_map, List.mem_filter, Registered, Prod.exists]
  constructor
  · rintro ⟨i, p, ⟨hmem, hopen⟩, rfl⟩
    exact ⟨p, hs.pipeline?_of_mem hmem, hopen⟩
  · rintro ⟨p, hp, hopen⟩
    exact ⟨id, p, ⟨mem_of_pipeline? hp, hopen⟩, rfl⟩

theorem Sound.pipeline?_of_lt (hs : h.Sound) (hid : h.lastId < id) : h.pipeline? id = none := by
  cases hp : h.pipeline? id with
  | none => rfl
  | some p =>
    have hle : id ≤ h.lastId := (hs.named _ (mem_of_pipeline? hp)).2
    exact absurd hle (Nat.not_le.mpr hid)

/-- A pipeline that is registered comes last. -/
theorem Sound.register (hs : h.Sound) (hfits : Fits h.closed h.policy p) :
    (h.register p).1.Sound := by
  refine ⟨?_, fun e he => ?_, fun e he => ?_⟩
  · show ((h.pipelines ++ [(h.lastId + 1, p)]).map (·.1)).Nodup
    rw [List.map_append]
    refine List.nodup_append.mpr ⟨hs.nodup, List.nodup_singleton _, fun i hi j hj => ?_⟩
    obtain ⟨e, he, rfl⟩ := List.mem_map.mp hi
    have hle : e.1 ≤ h.lastId := (hs.named e he).2
    rw [List.mem_singleton.mp hj]
    exact Nat.ne_of_lt (Nat.lt_succ_of_le hle)
  · rcases List.mem_append.mp he with he | he
    · exact ⟨(hs.named e he).1, Nat.le_succ_of_le (hs.named e he).2⟩
    · rw [List.mem_singleton.mp he]
      exact ⟨Nat.le_add_left _ _, Nat.le_refl _⟩
  · rcases List.mem_append.mp he with he | he
    · exact hs.fits e he
    · rw [List.mem_singleton.mp he]
      exact hfits

theorem Sound.pipeline?_register (hs : h.Sound) (j : SubscriptionId) :
    (h.register p).1.pipeline? j = if j = h.lastId + 1 then some p else h.pipeline? j := by
  refine Table.lookup_append_single (h.lastId + 1) j p h.pipelines fun hmem => ?_
  obtain ⟨e, he, heq⟩ := List.mem_map.mp hmem
  have hle := (hs.named e he).2
  rw [heq] at hle
  exact absurd hle (Nat.not_succ_le_self _)

theorem Sound.setPipeline (hs : h.Sound) (hp : h.pipeline? id = some p)
    {p' : Pipeline (Publication π α) ρ α} (hfits : Fits h.closed h.policy p') :
    (h.setPipeline id p').Sound := by
  obtain ⟨l₁, l₂, hl, hset⟩ := exists_split hs.nodup hp
  have hmem : ∀ e ∈ (h.setPipeline id p').pipelines, e ∈ h.pipelines ∨ e = (id, p') := by
    intro e he
    rw [hset] at he
    rw [hl]
    simp only [List.mem_append, List.mem_cons] at he ⊢
    rcases he with he | rfl | he
    · exact Or.inl (Or.inl he)
    · exact Or.inr rfl
    · exact Or.inl (Or.inr (Or.inr he))
  constructor
  · have hn := hs.nodup
    rw [hl] at hn
    rw [hset]
    simpa using hn
  · intro e he
    rcases hmem e he with he | rfl
    · exact hs.named e he
    · exact hs.named (id, p) (mem_of_pipeline? hp)
  · intro e he
    rcases hmem e he with he | rfl
    · exact hs.fits e he
    · exact hfits

/-- In a sound hub shutting retires every pipeline. -/
theorem Sound.retireAll_eq (hs : h.Sound) :
    retireAll h.pipelines =
      (h.pipelines.map fun e => (e.1, e.2.retired),
        h.pipelines.flatMap fun e => e.2.receiver.toList.map (·, none), h.parkedPublications) := by
  rw [Hub.retireAll_eq]
  refine congrArg₂ Prod.mk (List.map_congr_left fun e he => ?_)
    (congrArg₂ Prod.mk (List.flatMap_congr fun e he => ?_) (List.flatMap_congr fun e he => ?_))
  all_goals
    have hsettled := (hs.fits e he).settled
    by_cases ho : e.2.isOpen = true
  · rw [if_pos ho, hsettled.retire_eq]
  · rw [if_neg ho, hsettled.retired_of_closed (by simpa [Pipeline.isOpen] using ho)]
  · rw [if_pos ho, hsettled.retire_eq]
  · rw [if_neg ho, (hsettled.idle_of_closed (by simpa [Pipeline.isOpen] using ho)).2]
    rfl
  · rw [if_pos ho, hsettled.retire_eq]
  · rw [if_neg ho, Pipeline.parked,
      (hsettled.idle_of_closed (by simpa [Pipeline.isOpen] using ho)).1]
    rfl

theorem Sound.retireAllLog_eq (hs : h.Sound) :
    (retireAllLog h.pipelines : List (Event π ρ α)) =
      h.pipelines.flatMap fun e => answers e.1 (e.2.receiver.toList.map (·, none)) := by
  refine List.flatMap_congr fun e he => ?_
  have hsettled := (hs.fits e he).settled
  by_cases ho : e.2.isOpen = true
  · rw [if_pos ho, hsettled.retire_eq]
  · rw [if_neg ho, (hsettled.idle_of_closed (by simpa [Pipeline.isOpen] using ho)).2]
    rfl

end lookup

/-! ## The targets of a publish -/

theorem mem_targets {h : Hub π ρ α} {order : List SubscriptionId} {id : SubscriptionId} :
    id ∈ h.targets order ↔ id ∈ h.registered := by
  simp only [targets, List.mem_append, List.mem_eraseDups, List.mem_filter, Bool.not_eq_true',
    List.contains_eq_mem, decide_eq_true_eq, decide_eq_false_iff_not]
  tauto

theorem nodup_eraseDups : (l : List SubscriptionId) → l.eraseDups.Nodup
  | [] => List.nodup_nil
  | id :: rest => by
    rw [List.eraseDups_cons, List.nodup_cons, List.mem_eraseDups]
    exact ⟨by simp, nodup_eraseDups _⟩
termination_by l => l.length
decreasing_by exact Nat.lt_succ_of_le (List.length_filter_le ..)

theorem nodup_targets {h : Hub π ρ α} (hs : h.Sound) (order : List SubscriptionId) :
    (h.targets order).Nodup := by
  have hreg : h.registered.Nodup := hs.nodup.sublist (List.filter_sublist.map _)
  refine List.nodup_append.mpr ⟨nodup_eraseDups _, hreg.filter _, fun i hi j hj hij => ?_⟩
  rw [List.mem_eraseDups, List.mem_filter] at hi
  rw [List.mem_filter] at hj
  simp [← hij, hi.1] at hj

/-! ## What every turn keeps -/

section fits

variable {closed : Bool} {policy : Policy} {p p' : Pipeline (Publication π α) ρ α}

theorem fits_new (n : Nat) : Fits false policy (.new n : Pipeline (Publication π α) ρ α) where
  settled := Pipeline.settled_new n
  shut h := absurd h Bool.false_ne_true
  lossy _ := rfl
  carried _ hw := absurd hw List.not_mem_nil

theorem Fits.retired (h : Fits closed policy p) : Fits true policy p.retired where
  settled := h.settled.retired
  shut _ := rfl
  lossy _ := rfl
  carried _ hw := absurd hw List.not_mem_nil

theorem Fits.cancelled (h : Fits closed policy p) : Fits closed policy p.cancelled where
  settled := h.settled.cancelled
  shut _ := rfl
  lossy _ := rfl
  carried _ hw := absurd hw List.not_mem_nil

theorem Fits.store (h : Fits closed policy p) (hroom : p.buffer.hasRoom = true) {v : α}
    {received : List (ρ × Option α)} (hs : p.store v = (p', received)) : Fits closed policy p' := by
  obtain ⟨-, hsettled, -, hshell⟩ := h.settled.of_store hroom hs
  obtain ⟨-, -, hc, hw, -⟩ := Pipeline.shell_eq_iff.mp hshell
  exact ⟨hsettled, fun hcl => hc.trans (h.shut hcl), fun hl => hw.trans (h.lossy hl),
    fun w hmem => h.carried w (by rwa [hw] at hmem)⟩

theorem Fits.park (h : Fits closed .reliable p) (hopen : p.isOpen = true)
    (hfull : p.buffer.hasRoom = false) (q : Publication π α) :
    Fits closed .reliable (p.park q q.value) where
  settled := h.settled.park (by simpa [Pipeline.isOpen] using hopen) hfull q q.value
  shut := h.shut
  lossy hl := Policy.noConfusion hl
  carried w hw := by
    simp only [Pipeline.park, Fifo.toList_push, List.mem_append, List.mem_singleton] at hw
    rcases hw with hw | rfl
    · exact h.carried w hw
    · rfl

theorem Fits.await (h : Fits closed policy p) (hopen : p.isOpen = true) (hu : p.unread = [])
    (caller : ρ) : Fits closed policy { p with receiver := some caller } :=
  ⟨h.settled.await (by simpa [Pipeline.isOpen] using hopen) hu caller, h.shut, h.lossy, h.carried⟩

theorem Fits.tryReceive (h : Fits closed policy p) {reception : Reception α}
    {publication : Option (Publication π α)}
    (hr : p.tryReceive = (p', reception, publication)) : Fits closed policy p' := by
  cases hu : p.unread with
  | nil =>
    rw [Pipeline.tryReceive_nil hu, Prod.mk.injEq] at hr
    obtain ⟨rfl, -⟩ := hr
    exact h
  | cons v rest =>
    obtain ⟨-, -, hsettled, -, hw, hshell⟩ := h.settled.of_tryReceive hu hr
    obtain ⟨-, -, hc, -, -⟩ := Pipeline.shell_eq_iff.mp hshell
    refine ⟨hsettled, fun hcl => hc.trans (h.shut hcl), fun hl => ?_, fun w hmem => ?_⟩
    · rw [h.lossy hl] at hw
      exact Fifo.eq_empty_of_toList hw
    · rw [hw] at hmem
      exact h.carried w (List.mem_of_mem_tail hmem)

end fits

section turns

variable {s t : Scene π ρ α} {log : List (Event π ρ α)}

theorem Move.sound (h : Move s log t) (hs : s.hub.Sound) : t.hub.Sound := by
  cases h with
  | store _ hp _ hroom hstore => exact hs.setPipeline hp ((hs.fits_of hp).store hroom hstore)
  | pass _ _ => exact hs
  | miss _ _ _ _ _ => exact ⟨hs.nodup, hs.named, hs.fits⟩
  | park _ hp hopen hroom hpol =>
    have hfits := hs.fits_of hp
    rw [hpol] at hfits
    exact hs.setPipeline hp (by rw [hpol]; exact hfits.park hopen hroom _)
  | finish _ _ => exact hs
  | skip _ _ _ => exact hs
  | next _ _ _ => exact ⟨hs.nodup, hs.named, hs.fits⟩
  | read hp hr => exact hs.setPipeline hp ((hs.fits_of hp).tryReceive hr)
  | shut _ hret =>
    rw [hs.retireAll_eq, Prod.mk.injEq] at hret
    obtain ⟨rfl, -⟩ := hret
    refine ⟨by simpa [Function.comp_def] using hs.nodup, fun e he => ?_, fun e he => ?_⟩
    · obtain ⟨e₀, he₀, rfl⟩ := List.mem_map.mp he
      exact hs.named e₀ he₀
    · obtain ⟨e₀, he₀, rfl⟩ := List.mem_map.mp he
      exact (hs.fits e₀ he₀).retired

/-- **Every turn keeps a hub sound.** -/
theorem Turn.sound (h : Turn s log t) (hs : s.hub.Sound) : t.hub.Sound := by
  cases h with
  | move h => exact h.sound hs
  | subscribe h n hc => exact hs.register (hc ▸ fits_new n)
  | call h caller order v later hc => exact ⟨hs.nodup, hs.named, hs.fits⟩
  | decline h caller => exact hs
  | cancel hp hopen hcancel =>
    have hfits := hs.fits_of hp
    rw [hfits.settled.cancel_eq, Prod.mk.injEq] at hcancel
    obtain ⟨rfl, -⟩ := hcancel
    exact hs.setPipeline hp hfits.cancelled
  | abandon h id hshut =>
    exact ⟨hs.nodup.sublist (List.filter_sublist.map _),
      fun e he => hs.named e (List.mem_of_mem_filter he),
      fun e he => hs.fits e (List.mem_of_mem_filter he)⟩
  | await caller hp hopen hu => exact hs.setPipeline hp ((hs.fits_of hp).await hopen hu caller)
  | disown h => exact ⟨hs.nodup, hs.named, hs.fits⟩

theorem Turns.sound (h : Turns s log t) (hs : s.hub.Sound) : t.hub.Sound := by
  induction h with
  | refl _ => exact hs
  | head hm _ ih => exact ih (hm.sound hs)

end turns

end Switchboard.Hub
