import Mathlib.Algebra.GroupWithZero.Nat
import Mathlib.Algebra.Order.BigOperators.Group.List
import Mathlib.Algebra.Order.Group.Nat
import Switchboard.Proofs.Hub.Sound

/-!
# Publishes under way

Where a publish is between its call and its return. It is either moving or parked on one target; the
targets it has still to serve are those ahead of it and, if it is parked, the one it waits for.

**Tariffs.** To count publishes and the targets they have still to serve in one go, each publish
under way is given a price: one part for being under way, and one for each target still to be
served (`Tariff`). A target served or passed over is paid for, and so is a return.

**Main statements.** Every turn balances the books for every tariff (`Turn.balance`). So a publish
is under way from its call to its return, and not after it (`Turns.callers_perm`); and it stores its
value at most once for each target it had at its call (`Turns.stored_le`). What is under way after a
turn was so before, and has no target that it did not have, unless its call went on to its next
value (`Turn.proceeds`).
-/

namespace Switchboard.Hub

variable {π ρ α : Type}

/-- The publishes under way. -/
def flight (s : Scene π ρ α) : List (Publication π α) := s.moving ++ s.hub.parkedPublications

/-! ## Tariffs -/

/-- The price of a publish under way. -/
structure Tariff (π : Type) where
  /-- The price of being under way. -/
  base : π → Nat
  /-- The price of one more target to serve. -/
  per : π → SubscriptionId → Nat

namespace Tariff

/-- The price of a publish with some targets still to serve. -/
def fare (f : Tariff π) (caller : π) (togo : List SubscriptionId) : Nat :=
  f.base caller + (togo.map (f.per caller)).sum

/-- The price of the publishes parked on a pipeline. -/
def atPipeline (f : Tariff π) (id : SubscriptionId) (p : Pipeline (Publication π α) ρ α) : Nat :=
  (p.parked.map fun q => f.fare q.caller (id :: q.ahead)).sum

/-- The price of the publishes parked anywhere in a hub. -/
def parked (f : Tariff π) (h : Hub π ρ α) : Nat :=
  (h.pipelines.map fun e => f.atPipeline e.1 e.2).sum

/-- The price of publishes that are moving. -/
def moving (f : Tariff π) (qs : List (Publication π α)) : Nat :=
  (qs.map fun q => f.fare q.caller q.ahead).sum

/-- The price of all publishes under way. -/
def total (f : Tariff π) (s : Scene π ρ α) : Nat := f.moving s.moving + f.parked s.hub

variable (f : Tariff π)

@[simp] theorem fare_nil (caller : π) : f.fare caller [] = f.base caller := rfl

@[simp] theorem fare_cons (caller : π) (id : SubscriptionId) (togo : List SubscriptionId) :
    f.fare caller (id :: togo) = f.fare caller togo + f.per caller id := by
  simp only [fare, List.map_cons, List.sum_cons]
  omega

/-- The targets do not matter if they are free. -/
theorem fare_of_free {caller : π} (h : ∀ id, f.per caller id = 0) (togo : List SubscriptionId) :
    f.fare caller togo = f.base caller := by
  induction togo with
  | nil => rfl
  | cons id rest ih => rw [fare_cons, ih, h]; rfl

@[simp] theorem moving_nil : f.moving ([] : List (Publication π α)) = 0 := rfl

@[simp] theorem moving_cons (q : Publication π α) (qs : List (Publication π α)) :
    f.moving (q :: qs) = f.fare q.caller q.ahead + f.moving qs := by
  simp [moving]

@[simp] theorem moving_append (qs qs' : List (Publication π α)) :
    f.moving (qs ++ qs') = f.moving qs + f.moving qs' := by
  simp [moving]

@[simp] theorem moving_arrived (stored : Bool) (qs : List (Publication π α)) :
    f.moving (qs.map (·.arrived stored)) = f.moving qs := by
  rw [moving, List.map_map]
  rfl

theorem atPipeline_eq (id : SubscriptionId) (p : Pipeline (Publication π α) ρ α) :
    f.atPipeline id p = f.moving p.parked + (p.parked.map fun q => f.per q.caller id).sum := by
  simp only [atPipeline, moving, fare_cons, List.sum_map_add]

theorem atPipeline_of_waiting {id : SubscriptionId} {p p' : Pipeline (Publication π α) ρ α}
    (h : p'.waiting = p.waiting) : f.atPipeline id p' = f.atPipeline id p := by
  rw [atPipeline, atPipeline, Pipeline.parked, Pipeline.parked, h]

theorem atPipeline_of_idle {id : SubscriptionId} {p : Pipeline (Publication π α) ρ α}
    (h : p.waiting = ∅) : f.atPipeline id p = 0 := by
  rw [atPipeline, Pipeline.parked, h]
  rfl

/-- The publish that a read lets in is the first of those parked, and pays for the target that it
waited for. -/
theorem atPipeline_of_read (id : SubscriptionId) {p p' : Pipeline (Publication π α) ρ α}
    (hs : p.Settled) {reception : Reception α} {publication : Option (Publication π α)}
    (hread : p.tryReceive = (p', reception, publication)) :
    f.atPipeline id p = f.atPipeline id p' + f.moving publication.toList +
      (publication.toList.map fun q => f.per q.caller id).sum := by
  simp only [atPipeline_eq, hs.parked_of_tryReceive hread, moving_append, List.map_append,
    List.sum_append]
  omega

theorem sum_atPipeline_filter (keep : SubscriptionId × Pipeline (Publication π α) ρ α → Bool)
    {pipelines : List (SubscriptionId × Pipeline (Publication π α) ρ α)}
    (hidle : ∀ e ∈ pipelines, keep e = false → f.atPipeline e.1 e.2 = 0) :
    ((pipelines.filter keep).map fun e => f.atPipeline e.1 e.2).sum =
      (pipelines.map fun e => f.atPipeline e.1 e.2).sum := by
  induction pipelines with
  | nil => rfl
  | cons e rest ih =>
    have ih := ih fun e he => hidle e (List.mem_cons_of_mem _ he)
    cases hk : keep e with
    | true =>
      rw [List.filter_cons_of_pos hk, List.map_cons, List.map_cons, List.sum_cons, List.sum_cons,
        ih]
    | false =>
      rw [List.filter_cons_of_neg (by simp [hk]), List.map_cons, List.sum_cons, ih,
        hidle e (List.mem_cons_self ..) hk, Nat.zero_add]

theorem parked_setPipeline {h : Hub π ρ α} (hs : h.Sound) {id : SubscriptionId}
    {p : Pipeline (Publication π α) ρ α} (hp : h.pipeline? id = some p)
    (p' : Pipeline (Publication π α) ρ α) :
    f.parked (h.setPipeline id p') + f.atPipeline id p = f.parked h + f.atPipeline id p' := by
  obtain ⟨l₁, l₂, hl, hset⟩ := exists_split hs.nodup hp
  simp only [parked, hset, hl, List.map_append, List.map_cons, List.sum_append, List.sum_cons]
  omega

/-- What all parked publishes still owe for the targets they are parked on. -/
theorem exists_parked_eq (h : Hub π ρ α) :
    ∃ owed, f.parked h = f.moving h.parkedPublications + owed ∧
      ((∀ caller id, f.per caller id = 0) → owed = 0) := by
  rw [parked, parkedPublications]
  induction h.pipelines with
  | nil => exact ⟨0, rfl, fun _ => rfl⟩
  | cons e rest ih =>
    obtain ⟨owed, heq, hfree⟩ := ih
    refine ⟨(e.2.parked.map fun q => f.per q.caller e.1).sum + owed, ?_, fun h => ?_⟩
    · rw [List.map_cons, List.sum_cons, List.flatMap_cons, moving_append, atPipeline_eq, heq]
      omega
    · rw [hfree h]
      simp [h]

end Tariff

/-! ## Balance -/

/-- The values stored, each by its subscription and its publish. -/
def storesIn (log : List (Event π ρ α)) : List (SubscriptionId × π) :=
  log.filterMap fun
    | .stored id caller _ => some (id, caller)
    | _ => none

@[simp] theorem storesIn_append (log log' : List (Event π ρ α)) :
    storesIn (log ++ log') = storesIn log ++ storesIn log' :=
  List.filterMap_append

@[simp] theorem storesIn_answers (id : SubscriptionId) (received : List (ρ × Option α)) :
    storesIn (answers id received : List (Event π ρ α)) = [] := by
  simp [storesIn, answers]

@[simp] theorem callsIn_answers (id : SubscriptionId) (received : List (ρ × Option α)) :
    callsIn (answers id received : List (Event π ρ α)) = [] := by
  simp [callsIn, answers]

namespace Tariff

variable (f : Tariff π)

/-- What is charged for the calls of a log. -/
def charged (log : List (Event π ρ α)) : Nat := ((callsIn log).map f.base).sum

/-- What is paid for by the returns and the stored values of a log. -/
def paid (log : List (Event π ρ α)) : Nat :=
  ((returnsIn log).map fun r => f.base r.1).sum +
    ((storesIn log).map fun e => f.per e.2 e.1).sum

@[simp] theorem charged_nil : f.charged ([] : List (Event π ρ α)) = 0 := rfl

@[simp] theorem paid_nil : f.paid ([] : List (Event π ρ α)) = 0 := rfl

@[simp] theorem charged_append (log log' : List (Event π ρ α)) :
    f.charged (log ++ log') = f.charged log + f.charged log' := by
  simp [charged]

@[simp] theorem paid_append (log log' : List (Event π ρ α)) :
    f.paid (log ++ log') = f.paid log + f.paid log' := by
  simp only [paid, returnsIn_append, storesIn_append, List.map_append, List.sum_append]
  omega

@[simp] theorem charged_answers (id : SubscriptionId) (received : List (ρ × Option α)) :
    f.charged (answers id received : List (Event π ρ α)) = 0 := by
  simp [charged]

@[simp] theorem paid_answers (id : SubscriptionId) (received : List (ρ × Option α)) :
    f.paid (answers id received : List (Event π ρ α)) = 0 := by
  simp [paid]

@[simp] theorem charged_stored (id : SubscriptionId) (caller : π) (v : α)
    (log : List (Event π ρ α)) : f.charged (.stored id caller v :: log) = f.charged log := rfl

@[simp] theorem paid_stored (id : SubscriptionId) (caller : π) (v : α)
    (log : List (Event π ρ α)) :
    f.paid (.stored id caller v :: log) = f.paid log + f.per caller id := by
  simp only [paid, returnsIn, storesIn, List.filterMap_cons, List.map_cons, List.sum_cons]
  omega

@[simp] theorem charged_readLog (id : SubscriptionId) (reception : Reception α)
    (publication : Option (Publication π α)) :
    f.charged (readLog id reception publication : List (Event π ρ α)) = 0 := by
  cases reception <;> cases publication <;> rfl

@[simp] theorem paid_readLog (id : SubscriptionId) (reception : Reception α)
    (publication : Option (Publication π α)) :
    f.paid (readLog id reception publication : List (Event π ρ α)) =
      (publication.toList.map fun q => f.per q.caller id).sum := by
  cases reception <;> cases publication <;> simp [paid, readLog, returnsIn, storesIn]

theorem charged_retireAllLog
    (pipelines : List (SubscriptionId × Pipeline (Publication π α) ρ α)) :
    f.charged (retireAllLog pipelines : List (Event π ρ α)) = 0 := by
  induction pipelines with
  | nil => rfl
  | cons e rest ih =>
    rw [retireAllLog, List.flatMap_cons, charged_append, ← retireAllLog, ih]
    split
    · exact f.charged_answers e.1 _
    · rfl

theorem paid_retireAllLog (pipelines : List (SubscriptionId × Pipeline (Publication π α) ρ α)) :
    f.paid (retireAllLog pipelines : List (Event π ρ α)) = 0 := by
  induction pipelines with
  | nil => rfl
  | cons e rest ih =>
    rw [retireAllLog, List.flatMap_cons, paid_append, ← retireAllLog, ih]
    split
    · exact f.paid_answers e.1 _
    · rfl

end Tariff

/-- The books balance: what was owed and what is charged is owed still, paid, or forgiven. -/
def Balanced (f : Tariff π) (s : Scene π ρ α) (log : List (Event π ρ α)) (t : Scene π ρ α) : Prop :=
  ∃ forgiven, f.total s + f.charged log = f.total t + f.paid log + forgiven ∧
    ((∀ caller id, f.per caller id = 0) → forgiven = 0)

section balance

variable {f : Tariff π} {s t : Scene π ρ α} {log : List (Event π ρ α)}

theorem Balanced.exact (h : f.total s + f.charged log = f.total t + f.paid log) :
    Balanced f s log t :=
  ⟨0, h, fun _ => rfl⟩

theorem Balanced.passed (caller : π) (id : SubscriptionId)
    (h : f.total s + f.charged log = f.total t + f.paid log + f.per caller id) :
    Balanced f s log t :=
  ⟨f.per caller id, h, fun hfree => hfree caller id⟩

theorem Move.balance (h : Move s log t) (hs : s.hub.Sound)
    (hnext : ∀ q ∈ flight s, q.later ≠ [] → ∀ id, f.per q.caller id = 0) : Balanced f s log t := by
  cases h with
  | @store h q moving id ahead p p' received hahead hp hopen hroom hstore =>
    change h.Sound at hs
    obtain ⟨-, -, -, hshell⟩ := (hs.fits_of hp).settled.of_store hroom hstore
    obtain ⟨-, -, -, hw, -⟩ := Pipeline.shell_eq_iff.mp hshell
    have hset := f.parked_setPipeline hs hp p'
    rw [f.atPipeline_of_waiting (p := p) hw] at hset
    refine .exact ?_
    simp only [Tariff.total, Tariff.moving_cons, hahead, Tariff.fare_cons, Tariff.charged_stored,
      Tariff.paid_stored, Tariff.charged_answers, Tariff.paid_answers]
    omega
  | @pass h q moving id ahead hahead _ =>
    refine .passed q.caller id ?_
    simp only [Tariff.total, Tariff.moving_cons, hahead, Tariff.fare_cons, Tariff.charged_nil,
      Tariff.paid_nil]
    omega
  | @miss h q moving id ahead p hahead _ _ _ _ =>
    refine .passed q.caller id ?_
    simp only [Tariff.total, Tariff.moving_cons, hahead, Tariff.fare_cons, Tariff.charged_nil,
      Tariff.paid_nil, Tariff.parked]
    omega
  | @park h q moving id ahead p hahead hp hopen hroom _ =>
    change h.Sound at hs
    have hset := f.parked_setPipeline hs hp (p.park { q with ahead } q.value)
    have hpark : f.atPipeline id (p.park { q with ahead } q.value) =
        f.atPipeline id p + f.fare q.caller (id :: ahead) := by
      simp [Tariff.atPipeline]
    refine .exact ?_
    simp only [Tariff.total, Tariff.moving_cons, hahead, Tariff.charged_nil, Tariff.paid_nil]
    omega
  | @finish h q moving hahead hlater =>
    refine .exact ?_
    simp only [Tariff.total, Tariff.moving_cons, hahead, Tariff.fare_nil]
    simp [Tariff.charged, Tariff.paid, callsIn, returnsIn, storesIn]
    omega
  | @skip h q moving v later hahead hlater _ =>
    refine .exact ?_
    simp only [Tariff.total, Tariff.moving_cons, hahead, Tariff.charged_nil, Tariff.paid_nil]
  | @next h q moving v later hahead hlater _ =>
    -- A publish with values left pays nothing, so it may begin anew with the next one.
    have hfree := hnext q (List.mem_append_left _ (List.mem_cons_self ..)) (by simp [hlater])
    refine .exact ?_
    simp only [Tariff.total, Tariff.moving_cons, hahead, Tariff.fare_of_free f hfree,
      Tariff.charged_nil, Tariff.paid_nil, Tariff.parked]
  | @read h id p p' reception publication hp hread =>
    change h.Sound at hs
    have hset := f.parked_setPipeline hs hp p'
    have hlet := f.atPipeline_of_read id (hs.fits_of hp).settled hread
    refine .exact ?_
    simp only [Tariff.total, Tariff.moving_nil, Tariff.moving_arrived, Tariff.charged_readLog,
      Tariff.paid_readLog]
    omega
  | @shut h pipelines received publications _ hret =>
    change h.Sound at hs
    rw [hs.retireAll_eq, Prod.mk.injEq, Prod.mk.injEq] at hret
    obtain ⟨rfl, -, rfl⟩ := hret
    -- What the publishes parked here still owed for these targets is written off.
    obtain ⟨owed, heq, hfree⟩ := f.exists_parked_eq h
    refine ⟨owed, ?_, hfree⟩
    have hnone : f.parked { h with pipelines := h.pipelines.map fun e => (e.1, e.2.retired),
                                   closed := true } = 0 := by
      rw [Tariff.parked, List.map_map]
      exact List.sum_eq_zero fun x hx => by
        obtain ⟨e, -, rfl⟩ := List.mem_map.mp hx
        exact f.atPipeline_of_idle rfl
    simp only [Tariff.total, Tariff.moving_nil, Tariff.moving_arrived, hnone,
      Tariff.charged_retireAllLog, Tariff.paid_retireAllLog]
    omega

/-- **Every turn balances the books**, if calls and publishes with more than one value have no
price for single targets. -/
theorem Turn.balance (h : Turn s log t) (hs : s.hub.Sound)
    (hcall : ∀ caller ∈ callsIn log, ∀ id, f.per caller id = 0)
    (hnext : ∀ q ∈ flight s, q.later ≠ [] → ∀ id, f.per q.caller id = 0) : Balanced f s log t := by
  cases h with
  | move h => exact h.balance hs hnext
  | subscribe h n hc =>
    refine .exact ?_
    have hnew : f.atPipeline (h.lastId + 1) (Pipeline.new n : Pipeline (Publication π α) ρ α) = 0 :=
      f.atPipeline_of_idle rfl
    simp [Tariff.total, Tariff.parked, register, hnew]
  | call h caller order v later hc =>
    have hfree := hcall caller (List.mem_singleton.mpr rfl)
    refine .exact ?_
    simp only [Tariff.total, Tariff.moving_cons, Tariff.fare_of_free f hfree, Tariff.moving_nil,
      Tariff.parked]
    simp [Tariff.charged, Tariff.paid, callsIn, returnsIn, storesIn]
    omega
  | decline h caller =>
    refine .exact ?_
    simp [Tariff.charged, Tariff.paid, callsIn, returnsIn, storesIn]
  | @cancel h id p p' received publications hp hopen hcancel =>
    change h.Sound at hs
    rw [(hs.fits_of hp).settled.cancel_eq, Prod.mk.injEq, Prod.mk.injEq] at hcancel
    obtain ⟨rfl, rfl, rfl⟩ := hcancel
    have hset := f.parked_setPipeline hs hp p.cancelled
    rw [f.atPipeline_of_idle (p := p.cancelled) rfl, f.atPipeline_eq id p] at hset
    -- The publishes parked on the subscription pay for it no more.
    refine ⟨(p.parked.map fun q => f.per q.caller id).sum, ?_, fun hfree => by simp [hfree]⟩
    have hcharged : f.charged (.cancelled id :: answers id (p.receiver.toList.map (·, none)) :
        List (Event π ρ α)) = 0 := f.charged_answers id _
    have hpaid : f.paid (.cancelled id :: answers id (p.receiver.toList.map (·, none)) :
        List (Event π ρ α)) = 0 := f.paid_answers id _
    simp only [Tariff.total, Tariff.moving_nil, Tariff.moving_arrived, hcharged, hpaid]
    omega
  | abandon h id hshut =>
    change h.Sound at hs
    have hkeep : f.parked { h with pipelines := h.pipelines.filter (·.1 != id) } = f.parked h := by
      refine f.sum_atPipeline_filter (·.1 != id) fun e he hgone => ?_
      obtain ⟨i, p⟩ := e
      obtain rfl : i = id := by simpa using hgone
      -- A handle is let go once its pipeline is shut, and there nobody is parked.
      have hclosed : p.buffer.closed = true := by
        simpa [Pipeline.isOpen] using hshut p (hs.pipeline?_of_mem he)
      exact f.atPipeline_of_idle ((hs.fits _ he).settled.idle_of_closed hclosed).1
    refine .exact ?_
    simp only [Tariff.total, Tariff.moving_nil, hkeep]
    rfl
  | @await h id p caller hp hopen hu =>
    change h.Sound at hs
    have hset := f.parked_setPipeline hs hp { p with receiver := some caller }
    have hsame : f.atPipeline id { p with receiver := some caller } = f.atPipeline id p :=
      f.atPipeline_of_waiting rfl
    rw [hsame] at hset
    refine .exact ?_
    simp only [Tariff.total, Tariff.moving_nil, Tariff.charged_nil, Tariff.paid_nil]
    omega
  | disown h => exact .exact rfl

end balance

/-! ## Calls and returns -/

/-- The callers of the publishes under way. -/
def callers (s : Scene π ρ α) : List π := (flight s).map (·.caller)

section calls

variable {s t : Scene π ρ α} {log : List (Event π ρ α)}

/-- One for each publish of a caller. -/
def Tariff.head [DecidableEq π] (caller : π) : Tariff π :=
  ⟨fun c => if c = caller then 1 else 0, fun _ _ => 0⟩

theorem sum_map_ite {β : Type} [BEq β] [LawfulBEq β] [DecidableEq β] (l : List β) (a : β) :
    (l.map fun c => if c = a then 1 else 0).sum = l.count a := by
  induction l with
  | nil => rfl
  | cons c rest ih =>
    rw [List.map_cons, List.sum_cons, ih, List.count_cons]
    simp only [beq_iff_eq]
    omega

theorem Tariff.total_head [DecidableEq π] (caller : π) (s : Scene π ρ α) :
    (Tariff.head caller).total s = (callers s).count caller := by
  have hfare : ∀ (c : π) (togo : List SubscriptionId),
      (Tariff.head caller).fare c togo = if c = caller then 1 else 0 :=
    fun c togo => (Tariff.head caller).fare_of_free (fun _ => rfl) togo
  obtain ⟨owed, heq, hfree⟩ := (Tariff.head caller).exists_parked_eq s.hub
  rw [Tariff.total, heq, hfree fun _ _ => rfl, Nat.add_zero, ← Tariff.moving_append, callers,
    flight, Tariff.moving]
  simp only [hfare]
  rw [← sum_map_ite, List.map_map]
  rfl

/-- Publishes are under way from their call to their return. -/
theorem Turn.callers_perm (h : Turn s log t) (hs : s.hub.Sound) :
    (callers s ++ callsIn log).Perm (callers t ++ (returnsIn log).map (·.1)) := by
  classical
  refine List.perm_iff_count.mpr fun caller => ?_
  obtain ⟨forgiven, heq, hfree⟩ := h.balance (f := Tariff.head caller) hs
    (fun _ _ _ => rfl) fun _ _ _ _ => rfl
  have hcharged : (Tariff.head caller).charged log = (callsIn log).count caller :=
    sum_map_ite (callsIn log) caller
  have hpaid : (Tariff.head caller).paid log = ((returnsIn log).map (·.1)).count caller := by
    rw [← sum_map_ite, List.map_map, Tariff.paid]
    simp [Tariff.head, Function.comp_def]
  rw [Tariff.total_head, Tariff.total_head, hcharged, hpaid, hfree fun _ _ => rfl] at heq
  rw [List.count_append, List.count_append]
  exact heq

theorem Turns.callers_perm (h : Turns s log t) (hs : s.hub.Sound) :
    (callers s ++ callsIn log).Perm (callers t ++ (returnsIn log).map (·.1)) := by
  induction h with
  | refl s => simp [callsIn, returnsIn]
  | @head s t u log log' hm _ ih =>
    have h₁ := hm.callers_perm hs
    have h₂ := ih (hm.sound hs)
    rw [callsIn_append, returnsIn_append, List.map_append, ← List.append_assoc]
    refine (h₁.append_right _).trans ?_
    rw [List.append_assoc]
    refine ((List.perm_append_comm.append_left _).trans ?_)
    rw [← List.append_assoc, ← List.append_assoc]
    refine (h₂.append_right _).trans ?_
    rw [List.append_assoc, List.append_assoc]
    exact List.perm_append_comm.append_left _

end calls

/-! ## How a publish goes on -/

/-- The publishes parked on a subscription, in order of arrival. -/
def parkedOn (h : Hub π ρ α) (id : SubscriptionId) : List (Publication π α) :=
  ((h.pipeline? id).map (·.parked)).getD []

/-- A publish is under way with some targets still to serve: those ahead of it and, if it is
parked, the one it waits for. -/
inductive UnderWay (s : Scene π ρ α) (q : Publication π α) : List SubscriptionId → Prop
  | moving : q ∈ s.moving → UnderWay s q q.ahead
  | parked {id : SubscriptionId} : q ∈ s.hub.parkedOn id → UnderWay s q (id :: q.ahead)

/-- A publish under way comes from one that was under way before. It still carries that value, and
has no target that it did not have; or it has gone on to a later value of its call. -/
def Proceeds (s : Scene π ρ α) (q' : Publication π α) (togo' : List SubscriptionId) : Prop :=
  ∃ q togo, UnderWay s q togo ∧ q.caller = q'.caller ∧
    (q'.value = q.value ∧ q'.later = q.later ∧ togo'.Sublist togo ∨
      q'.later.length < q.later.length ∧ togo'.Nodup)

section parkedOn

variable {h : Hub π ρ α} {id : SubscriptionId} {p p' : Pipeline (Publication π α) ρ α}
  {q : Publication π α}

theorem parkedOn_some (hp : h.pipeline? id = some p) : h.parkedOn id = p.parked := by
  rw [parkedOn, hp]
  rfl

theorem mem_parkedOn : q ∈ h.parkedOn id ↔ ∃ p, h.pipeline? id = some p ∧ q ∈ p.parked := by
  rw [parkedOn]
  cases h.pipeline? id <;> simp

theorem mem_parkedPublications_of_parkedOn (hq : q ∈ h.parkedOn id) : q ∈ h.parkedPublications := by
  obtain ⟨p, hp, hq⟩ := mem_parkedOn.mp hq
  exact List.mem_flatMap.mpr ⟨(id, p), mem_of_pipeline? hp, hq⟩

theorem Sound.mem_parkedPublications (hs : h.Sound) :
    q ∈ h.parkedPublications ↔ ∃ id, q ∈ h.parkedOn id := by
  refine ⟨fun hq => ?_, fun ⟨_, hq⟩ => mem_parkedPublications_of_parkedOn hq⟩
  obtain ⟨⟨id, p⟩, he, hq⟩ := List.mem_flatMap.mp hq
  exact ⟨id, mem_parkedOn.mpr ⟨p, hs.pipeline?_of_mem he, hq⟩⟩

theorem parkedOn_setPipeline (hp : h.pipeline? id = some p) (p' : Pipeline (Publication π α) ρ α)
    (j : SubscriptionId) :
    (h.setPipeline id p').parkedOn j = if j = id then p'.parked else h.parkedOn j := by
  rw [parkedOn, pipeline?_setPipeline hp]
  split <;> rfl

/-- Where no publish is added to those parked on one pipeline, none is added anywhere. -/
theorem mem_parkedOn_of_setPipeline (hp : h.pipeline? id = some p)
    (hkeep : ∀ x ∈ p'.parked, x ∈ p.parked) {j : SubscriptionId}
    (hq : q ∈ (h.setPipeline id p').parkedOn j) : q ∈ h.parkedOn j := by
  rw [parkedOn_setPipeline hp] at hq
  split at hq
  · rename_i hj
    rw [hj, parkedOn_some hp]
    exact hkeep q hq
  · exact hq

end parkedOn

section proceeds

variable {s t : Scene π ρ α} {log : List (Event π ρ α)} {h h' : Hub π ρ α}
  {q q' x : Publication π α} {moving qs : List (Publication π α)} {togo : List SubscriptionId}

theorem UnderWay.mem_flight (hx : UnderWay s x togo) : x ∈ flight s := by
  cases hx with
  | moving hx => exact List.mem_append_left _ hx
  | parked hx => exact List.mem_append_right _ (mem_parkedPublications_of_parkedOn hx)

theorem exists_underWay (hs : s.hub.Sound) (hx : x ∈ flight s) : ∃ togo, UnderWay s x togo := by
  rcases List.mem_append.mp hx with hx | hx
  · exact ⟨_, .moving hx⟩
  · obtain ⟨id, hx⟩ := hs.mem_parkedPublications.mp hx
    exact ⟨_, .parked hx⟩

theorem Proceeds.same (hx : UnderWay s x togo) : Proceeds s x togo :=
  ⟨x, togo, hx, rfl, Or.inl ⟨rfl, rfl, List.Sublist.refl _⟩⟩

/-- The first of the moving publishes serves its next target. -/
theorem Proceeds.served {id : SubscriptionId} {ahead : List SubscriptionId}
    (hahead : q.ahead = id :: ahead) (accepted : Nat) :
    Proceeds (⟨h, q :: moving⟩ : Scene π ρ α) { q with ahead, accepted } ahead := by
  refine ⟨q, q.ahead, .moving (List.mem_cons_self ..), rfl, Or.inl ⟨rfl, rfl, ?_⟩⟩
  rw [hahead]
  exact List.sublist_cons_self ..

theorem Proceeds.goneOn {v : α} {later : List α} (hlater : q.later = v :: later)
    (hq : q'.caller = q.caller) (hq' : q'.later = later) (hdistinct : q'.ahead.Nodup) :
    Proceeds (⟨h, q :: moving⟩ : Scene π ρ α) q' q'.ahead := by
  refine ⟨q, q.ahead, .moving (List.mem_cons_self ..), hq.symm, Or.inr ⟨?_, hdistinct⟩⟩
  rw [hlater, hq']
  exact Nat.lt_succ_self _

theorem Proceeds.head (hx : UnderWay (⟨h', q' :: moving⟩ : Scene π ρ α) x togo)
    (hq : Proceeds ⟨h, q :: moving⟩ q' q'.ahead)
    (hparked : ∀ id, ∀ x ∈ h'.parkedOn id, x ∈ h.parkedOn id) :
    Proceeds ⟨h, q :: moving⟩ x togo := by
  cases hx with
  | moving hx =>
    rcases List.mem_cons.mp hx with rfl | hx
    · exact hq
    · exact .same (.moving (List.mem_cons_of_mem _ hx))
  | parked hx => exact .same (.parked (hparked _ x hx))

/-- Publishes that were parked go on, and no other has parked. -/
theorem Proceeds.arrived {stored : Bool}
    (hx : UnderWay (⟨h', qs.map (·.arrived stored)⟩ : Scene π ρ α) x togo)
    (hqs : ∀ q ∈ qs, ∃ id, q ∈ h.parkedOn id)
    (hparked : ∀ id, ∀ x ∈ h'.parkedOn id, x ∈ h.parkedOn id) : Proceeds ⟨h, []⟩ x togo := by
  cases hx with
  | moving hx =>
    obtain ⟨q, hq, rfl⟩ := List.mem_map.mp hx
    obtain ⟨id, hid⟩ := hqs q hq
    exact ⟨q, _, .parked hid, rfl, Or.inl ⟨rfl, rfl, List.sublist_cons_self ..⟩⟩
  | parked hx => exact .same (.parked (hparked _ x hx))

theorem Move.proceeds (h : Move s log t) (hs : s.hub.Sound) (hx : UnderWay t x togo) :
    Proceeds s x togo := by
  cases h with
  | @store h q moving id ahead p p' received hahead hp hopen hroom hstore =>
    change h.Sound at hs
    obtain ⟨-, -, -, hshell⟩ := (hs.fits_of hp).settled.of_store hroom hstore
    obtain ⟨-, -, -, hw, -⟩ := Pipeline.shell_eq_iff.mp hshell
    refine .head hx (.served hahead _) fun j y hy =>
      mem_parkedOn_of_setPipeline hp (fun z hz => ?_) hy
    rwa [Pipeline.parked, hw] at hz
  | pass hahead _ => exact .head hx (.served hahead _) fun _ _ hy => hy
  | miss hahead _ _ _ _ => exact .head hx (.served hahead _) fun _ _ hy => hy
  | @park h q moving id ahead p hahead hp hopen hroom _ =>
    cases hx with
    | moving hx => exact .same (.moving (List.mem_cons_of_mem _ hx))
    | @parked j hx =>
      rw [parkedOn_setPipeline hp] at hx
      split at hx
      · rename_i hj
        simp only [Pipeline.parked, Pipeline.park, Fifo.toList_push, List.map_append, List.map_cons,
          List.map_nil, List.mem_append, List.mem_singleton] at hx
        rcases hx with hx | rfl
        · refine .same (.parked ?_)
          rw [hj]
          exact mem_parkedOn.mpr ⟨p, hp, hx⟩
        · -- It waits for the target that was the next one ahead of it.
          refine ⟨q, q.ahead, .moving (List.mem_cons_self ..), rfl, Or.inl ⟨rfl, rfl, ?_⟩⟩
          rw [hahead, hj]
      · exact .same (.parked hx)
  | finish _ _ =>
    cases hx with
    | moving hx => exact .same (.moving (List.mem_cons_of_mem _ hx))
    | parked hx => exact .same (.parked hx)
  | @skip h q moving v later hahead hlater _ =>
    have hdistinct : q.ahead.Nodup := by
      rw [hahead]
      exact List.nodup_nil
    exact .head hx (.goneOn hlater rfl rfl hdistinct) fun _ _ hy => hy
  | @next h q moving v later hahead hlater _ =>
    exact .head hx (.goneOn hlater rfl rfl (nodup_targets hs _)) fun _ _ hy => hy
  | @read h id p p' reception publication hp hread =>
    change h.Sound at hs
    obtain ⟨hpub, hparked⟩ := (hs.fits_of hp).settled.mem_parked_of_tryReceive hread
    exact .arrived hx (fun y hy => ⟨id, mem_parkedOn.mpr ⟨p, hp, hpub y hy⟩⟩)
      fun j y hy => mem_parkedOn_of_setPipeline hp hparked hy
  | @shut h pipelines received publications _ hret =>
    change h.Sound at hs
    rw [hs.retireAll_eq, Prod.mk.injEq, Prod.mk.injEq] at hret
    obtain ⟨rfl, -, rfl⟩ := hret
    refine .arrived hx (fun y hy => hs.mem_parkedPublications.mp hy) fun j y hy => ?_
    obtain ⟨p, hp, hy⟩ := mem_parkedOn.mp hy
    have hretired : (h.pipelines.map fun e => (e.1, e.2.retired)).lookup j = some p := hp
    rw [lookup_map fun _ => Pipeline.retired, Option.map_eq_some_iff] at hretired
    obtain ⟨_, -, rfl⟩ := hretired
    cases hy

/-- **A publish under way was under way before the turn, or called in it**; and the targets of a
call are different ones. -/
theorem Turn.proceeds (h : Turn s log t) (hs : s.hub.Sound) (hx : UnderWay t x togo) :
    x.caller ∈ callsIn log ∧ togo.Nodup ∨ Proceeds s x togo := by
  cases h with
  | move h => exact Or.inr (h.proceeds hs hx)
  | subscribe h n hc =>
    cases hx with
    | moving hx => cases hx
    | parked hx =>
      refine Or.inr (.same (.parked ?_))
      rw [mem_parkedOn, hs.pipeline?_register] at hx
      obtain ⟨p, hp, hx⟩ := hx
      split at hp
      · obtain rfl := Option.some.inj hp
        cases hx
      · exact mem_parkedOn.mpr ⟨p, hp, hx⟩
  | call h caller order v later hc =>
    cases hx with
    | moving hx =>
      -- A new publish has every target ahead of it, once.
      obtain rfl := List.mem_singleton.mp hx
      exact Or.inl ⟨List.mem_singleton.mpr rfl, nodup_targets hs order⟩
    | parked hx => exact Or.inr (.same (.parked hx))
  | decline h caller => exact Or.inr (.same hx)
  | @cancel h id p p' received publications hp hopen hcancel =>
    change h.Sound at hs
    rw [(hs.fits_of hp).settled.cancel_eq, Prod.mk.injEq, Prod.mk.injEq] at hcancel
    obtain ⟨rfl, rfl, rfl⟩ := hcancel
    exact Or.inr (.arrived hx (fun y hy => ⟨id, mem_parkedOn.mpr ⟨p, hp, hy⟩⟩) fun j y hy =>
      mem_parkedOn_of_setPipeline hp (fun z hz => absurd hz List.not_mem_nil) hy)
  | abandon h id hshut =>
    cases hx with
    | moving hx => cases hx
    | parked hx =>
      refine Or.inr (.same (.parked ?_))
      rw [mem_parkedOn, pipeline?, lookup_forget] at hx
      obtain ⟨p, hp, hx⟩ := hx
      split at hp
      · cases hp
      · exact mem_parkedOn.mpr ⟨p, hp, hx⟩
  | @await h id p caller hp hopen hu =>
    cases hx with
    | moving hx => cases hx
    | parked hx =>
      have hkeep : ∀ y ∈ Pipeline.parked { p with receiver := some caller }, y ∈ p.parked :=
        fun _ hy => hy
      exact Or.inr (.same (.parked (mem_parkedOn_of_setPipeline hp hkeep hx)))
  | disown h =>
    cases hx with
    | moving hx => cases hx
    | parked hx => exact Or.inr (.same (.parked hx))

end proceeds

/-! ## What a publish carries -/

section carried

variable {s t : Scene π ρ α} {log : List (Event π ρ α)}

/-- A value that is stored is carried by a publish under way. -/
theorem Turn.exists_of_stored (h : Turn s log t) (hs : s.hub.Sound) {id : SubscriptionId}
    {caller : π} {v : α} (hst : .stored id caller v ∈ log) :
    ∃ q ∈ flight s, q.caller = caller ∧ q.value = v := by
  cases h with
  | move h =>
    cases h with
    | @store h q moving i ahead p p' received hahead hp hopen hroom hstore =>
      simp only [answers, List.mem_cons, Event.stored.injEq, List.mem_map, reduceCtorEq, and_false,
        exists_false, or_false] at hst
      obtain ⟨-, rfl, rfl⟩ := hst
      exact ⟨q, List.mem_append_left _ (List.mem_cons_self ..), rfl, rfl⟩
    | @read h i p p' reception publication hp hread =>
      change h.Sound at hs
      obtain ⟨hpub, -⟩ := (hs.fits_of hp).settled.mem_parked_of_tryReceive hread
      have hmem : ∃ q ∈ publication.toList, q.caller = caller ∧ q.value = v := by
        cases reception <;> cases publication <;> simp_all [readLog]
      obtain ⟨q, hq, hc, hv⟩ := hmem
      have hparked : q ∈ h.parkedOn i := mem_parkedOn.mpr ⟨p, hp, hpub q hq⟩
      exact ⟨q, mem_parkedPublications_of_parkedOn hparked, hc, hv⟩
    | @shut h pipelines received publications _ hret =>
      simp only [retireAllLog, List.mem_flatMap] at hst
      obtain ⟨e, -, hst⟩ := hst
      split at hst
      · simp [answers] at hst
      · cases hst
    | _ => simp at hst
  | cancel hp hopen hcancel => simp [answers] at hst
  | _ => simp at hst

end carried

/-! ## A publish of one value -/

section single

variable {s t : Scene π ρ α} {log : List (Event π ρ α)} {caller : π} {v : α}

/-- The publishes of a caller carry a certain value, and their call has no more. -/
def Steady (caller : π) (v : α) (s : Scene π ρ α) : Prop :=
  ∀ q ∈ flight s, q.caller = caller → q.value = v ∧ q.later = []

theorem Turn.steady (h : Turn s log t) (hs : s.hub.Sound) (hc : caller ∉ callsIn log)
    (hst : Steady caller v s) : Steady caller v t := by
  intro x hx hcaller
  obtain ⟨togo, hx⟩ := exists_underWay (h.sound hs) hx
  rcases h.proceeds hs hx with ⟨hmem, -⟩ | ⟨q, _, hq, hqc, hsame⟩
  · rw [hcaller] at hmem
    exact absurd hmem hc
  · obtain ⟨hv, hl⟩ := hst q hq.mem_flight (hqc.trans hcaller)
    rcases hsame with ⟨hv', hl', -⟩ | ⟨hlt, -⟩
    · exact ⟨hv'.trans hv, hl'.trans hl⟩
    · rw [hl] at hlt
      exact absurd hlt (Nat.not_lt_zero _)

variable [DecidableEq π]

/-- One for each time that a publish of the caller has still to serve the target. -/
def Tariff.target (caller : π) (id : SubscriptionId) : Tariff π :=
  ⟨fun _ => 0, fun c i => if (i, c) = (id, caller) then 1 else 0⟩

/-- How often publishes of a caller have still to serve a target. -/
def due (caller : π) (id : SubscriptionId) (s : Scene π ρ α) : Nat :=
  (Tariff.target caller id).total s

/-- Storing uses up what is due. -/
theorem Turn.stored_le (h : Turn s log t) (hs : s.hub.Sound) (hc : caller ∉ callsIn log)
    (hst : Steady caller v s) (id : SubscriptionId) :
    due caller id t + (storesIn log).count (id, caller) ≤ due caller id s := by
  have hfree : ∀ c, c ≠ caller → ∀ i, (Tariff.target caller id).per c i = 0 := by
    intro c hne i
    simp [Tariff.target, hne]
  obtain ⟨forgiven, heq, -⟩ := h.balance (f := Tariff.target caller id) hs
    (fun c hmem => hfree c fun hcc => hc (hcc ▸ hmem))
    fun q hq hl => hfree q.caller fun hqc => hl (hst q hq hqc).2
  have hcharged : (Tariff.target caller id).charged log = 0 := by
    simp [Tariff.charged, Tariff.target]
  have hpaid : (Tariff.target caller id).paid log = (storesIn log).count (id, caller) := by
    rw [← sum_map_ite, Tariff.paid]
    simp [Tariff.target, Prod.ext_iff]
  rw [hcharged, hpaid] at heq
  rw [due, due]
  omega

/-- **A publish of one value stores it in a target at most as often as that is due**, and stores
nothing else. -/
theorem Turns.stored_le (h : Turns s log t) (hs : s.hub.Sound) (hc : caller ∉ callsIn log)
    (hst : Steady caller v s) :
    (∀ id, due caller id t + (storesIn log).count (id, caller) ≤ due caller id s) ∧
      ∀ id w, .stored id caller w ∈ log → w = v := by
  induction h with
  | refl s => exact ⟨fun id => Nat.le_refl _, fun id w hmem => absurd hmem List.not_mem_nil⟩
  | @head s t u log log' hm _ ih =>
    rw [callsIn_append, List.mem_append, not_or] at hc
    obtain ⟨hle, hval⟩ := ih (hm.sound hs) hc.2 (hm.steady hs hc.1 hst)
    refine ⟨fun id => ?_, fun id w hmem => ?_⟩
    · have := hm.stored_le hs hc.1 hst id
      have := hle id
      rw [storesIn_append, List.count_append]
      omega
    · rcases List.mem_append.mp hmem with hmem | hmem
      · obtain ⟨q, hq, hqc, rfl⟩ := hm.exists_of_stored hs hmem
        exact (hst q hq hqc).1
      · exact hval id w hmem

omit [DecidableEq π] in
/-- A caller with no publish under way stores nothing until it calls again. -/
theorem Turns.not_stored (h : Turns s log t) (hs : s.hub.Sound) (hc : caller ∉ callsIn log)
    (hidle : caller ∉ callers s) : caller ∉ callers t ∧ ∀ id w, .stored id caller w ∉ log := by
  induction h with
  | refl s => exact ⟨hidle, fun id w => List.not_mem_nil⟩
  | @head s t u log log' hm _ ih =>
    rw [callsIn_append, List.mem_append, not_or] at hc
    have hidle' : caller ∉ callers t := by
      intro hmem
      have := (hm.callers_perm hs).mem_iff.mpr (List.mem_append_left _ hmem)
      rcases List.mem_append.mp this with h | h
      · exact hidle h
      · exact hc.1 h
    obtain ⟨hend, hnone⟩ := ih (hm.sound hs) hc.2 hidle'
    refine ⟨hend, fun id w hmem => ?_⟩
    rcases List.mem_append.mp hmem with hmem | hmem
    · obtain ⟨q, hq, hqc, -⟩ := hm.exists_of_stored hs hmem
      exact hidle (List.mem_map.mpr ⟨q, hq, hqc⟩)
    · exact hnone id w hmem

theorem due_of_idle {h : Hub π ρ α} (hidle : caller ∉ callers ⟨h, []⟩) (id : SubscriptionId) :
    due caller id ⟨h, []⟩ = 0 := by
  show (Tariff.target caller id).moving [] + (Tariff.target caller id).parked h = 0
  have hnone : ∀ q ∈ h.parkedPublications, q.caller ≠ caller := fun q hq hqc =>
    hidle (List.mem_map.mpr ⟨q, hq, hqc⟩)
  rw [Tariff.moving_nil, Nat.zero_add, Tariff.parked]
  refine List.sum_eq_zero fun x hx => ?_
  obtain ⟨e, he, rfl⟩ := List.mem_map.mp hx
  rw [Tariff.atPipeline]
  refine List.sum_eq_zero fun y hy => ?_
  obtain ⟨q, hq, rfl⟩ := List.mem_map.mp hy
  have hne := hnone q (List.mem_flatMap.mpr ⟨e, he, hq⟩)
  exact (Tariff.target caller id).fare_of_free (fun i => by simp [Tariff.target, hne]) _

/-- What is parked on a subscription is due there. -/
theorem due_pos_of_parked {h : Hub π ρ α} {id : SubscriptionId} {q : Publication π α}
    (hq : q ∈ h.parkedOn id) : 0 < due q.caller id ⟨h, []⟩ := by
  obtain ⟨p, hp, hq⟩ := mem_parkedOn.mp hq
  have hfare : 1 ≤ (Tariff.target q.caller id).fare q.caller (id :: q.ahead) := by
    rw [Tariff.fare_cons]
    simp [Tariff.target]
  have hat : 1 ≤ (Tariff.target q.caller id).atPipeline id p :=
    Nat.le_trans hfare (List.le_sum_of_mem (List.mem_map_of_mem hq))
  have hparked : 1 ≤ (Tariff.target q.caller id).parked h :=
    Nat.le_trans hat (List.le_sum_of_mem (List.mem_map.mpr ⟨(id, p), mem_of_pipeline? hp, rfl⟩))
  exact Nat.lt_of_lt_of_le hparked (Nat.le_add_left _ _)

/-- What is due of a publish that has just been called: each of its targets once. -/
theorem due_call (h : Hub π ρ α) (hidle : caller ∉ callers ⟨h, []⟩) (order : List SubscriptionId)
    (later : List α) (togo : List SubscriptionId) (id : SubscriptionId) :
    due caller id ⟨{ h with published := h.published + 1 },
      [⟨caller, order, v, togo, 0, later⟩]⟩ = togo.count id := by
  have hparked : (Tariff.target caller id).parked h = 0 :=
    (Nat.zero_add _).symm.trans (due_of_idle hidle id)
  have hfare : ((togo.map ((Tariff.target caller id).per caller)).sum) = togo.count id := by
    rw [← sum_map_ite]
    simp [Tariff.target]
  show (Tariff.target caller id).moving _ + (Tariff.target caller id).parked h = _
  rw [hparked, Tariff.moving_cons, Tariff.fare, hfare]
  simp [Tariff.target]

end single

end Switchboard.Hub
