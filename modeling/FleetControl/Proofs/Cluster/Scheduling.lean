import FleetControl.Proofs.Cluster.Frame

/-! # Turns in any order

A step of a cluster gives the first task of the ready queue its turn. Here any task of the queue may
have the next turn, and time passes only while the queue is empty, up to the next timer at most.
What is shown of these moves holds of the steps in the order of the queue. -/
namespace FleetControl.Cluster

/-- Gives a task its turn, if it can go on. -/
def give (c : Cluster) (t : TaskId) : Cluster :=
  if t ∈ c.ready then
    match turn { c with ready := c.ready.erase t } t with
    | (c, .again) => { c with ready := t :: c.ready.filter (· ≠ t) }
    | (c, .waits) => c
    | (c, .over) => c.finish t
  else c

/-- Lets time pass, and the timers fire that are due then. -/
def pass (c : Cluster) (ms : Nat) : Cluster :=
  if c.ready = [] then
    match c.nextDue? with
    | some due => ({ c with now := max c.now (min (c.now + ms) due) } : Cluster).fire
    | none => { c with now := c.now + ms }
  else c

theorem give_of_not_mem {c : Cluster} {t : TaskId} (h : t ∉ c.ready) : c.give t = c := by
  simp [give, h]

/-- A turn ends, and the task goes on, waits or is over. -/
def conclude (t : TaskId) : Cluster × Turn → Cluster
  | (c, .again) => { c with ready := t :: c.ready.filter (· ≠ t) }
  | (c, .waits) => c
  | (c, .over) => c.finish t

theorem give_of_mem {c : Cluster} {t : TaskId} (h : t ∈ c.ready) :
    c.give t = conclude t (turn { c with ready := c.ready.erase t } t) := by
  rw [give, if_pos h]
  split <;> rename_i hturn <;> rw [hturn] <;> rfl

theorem pass_of_ready {c : Cluster} (h : c.ready ≠ []) (ms : Nat) : c.pass ms = c := by
  simp [pass, h]

theorem step_eq_give {c : Cluster} {t : TaskId} {rest : List TaskId} (h : c.ready = t :: rest) :
    c.step = c.give t := by
  have runs : t ∈ c.ready := by simp [h]
  have left : c.ready.erase t = rest := by simp [h]
  refine Eq.trans ?_ (if_pos runs).symm
  rw [left]
  unfold step
  split
  next none => simp [h] at none
  next first later some =>
    obtain ⟨rfl, rfl⟩ := List.cons.inj (some.symm.trans h)
    rfl

/-- Settling is a sequence of turns. -/
theorem run_eq_gives (fuel : Nat) (c : Cluster) :
    ∃ ts : List TaskId, run fuel c = ts.foldl give c := by
  induction fuel generalizing c with
  | zero => exact ⟨[], rfl⟩
  | succ fuel ih =>
    cases h : c.ready with
    | nil => exact ⟨[], run_of_ready_eq_nil c h _⟩
    | cons t rest =>
      obtain ⟨ts, hts⟩ := ih c.step
      refine ⟨t :: ts, ?_⟩
      rw [run, if_neg (by simp [h]), hts, List.foldl_cons, step_eq_give h]

theorem fire_foldl (c : Cluster) :
    c.fire = ((c.timers.filter fun e => e.1 ≤ c.now).map (·.2)).foldl wake
      { c with timers := c.timers.filter fun e => ¬ e.1 ≤ c.now } := by
  have later : (not ∘ fun e : Nat × TaskId => Decidable.decide (e.1 ≤ c.now)) =
      fun e => Decidable.decide ¬ e.1 ≤ c.now := by
    funext e
    rw [Function.comp_apply, decide_not]
  rw [List.foldl_map]
  simp only [fire, List.partition_eq_filter_filter, later]

theorem fire_eq (c : Cluster) : ∃ woken,
    c.fire = { c with
      timers := c.timers.filter fun e => ¬ e.1 ≤ c.now
      ready := c.ready ++ woken } ∧
    ∀ t, t ∈ c.ready ++ woken ↔ t ∈ c.ready ∨ ∃ due, (due, t) ∈ c.timers ∧ due ≤ c.now := by
  obtain ⟨woken, he, hm⟩ := foldl_wake ((c.timers.filter fun e => e.1 ≤ c.now).map (·.2))
    { c with timers := c.timers.filter fun e => ¬ e.1 ≤ c.now }
  refine ⟨woken, c.fire_foldl.trans he, fun t => (hm t).trans (or_congr_right ?_)⟩
  simp only [List.mem_map, List.mem_filter, decide_eq_true_eq]
  constructor
  · rintro ⟨⟨due, u⟩, hmem, rfl⟩
    exact ⟨due, hmem⟩
  · rintro ⟨due, hmem⟩
    exact ⟨(due, t), hmem, rfl⟩

/-- Time goes no further than to the first timer, and who waited for an instant that has come can go
on. -/
theorem pass_eq {c : Cluster} (h : c.ready = []) (ms : Nat) : ∃ now woken,
    c.pass ms = { c with
      now := now
      timers := c.timers.filter fun e => ¬ e.1 ≤ now
      ready := woken } ∧
    c.now ≤ now ∧ (∀ e ∈ c.timers, now ≤ max c.now e.1) ∧
    ∀ e ∈ c.timers, e.1 ≤ now → e.2 ∈ woken := by
  unfold pass
  rw [if_pos h]
  cases hd : c.nextDue? with
  | none =>
    have hn : c.timers = [] := by simpa [nextDue?] using hd
    refine ⟨c.now + ms, [], by simp [hn, ← h], by omega, ?_, ?_⟩ <;> simp [hn]
  | some due =>
    let now := max c.now (min (c.now + ms) due)
    obtain ⟨woken, he, hw⟩ := fire_eq { c with now := now }
    refine ⟨now, woken, ?_, Nat.le_max_left _ _, ?_, ?_⟩
    · refine he.trans ?_
      simp only [h, List.nil_append]
    · intro e hm
      have hle : due ≤ e.1 :=
        (List.min?_eq_some_iff.mp hd).2 e.1 (List.mem_map.mpr ⟨e, hm, rfl⟩)
      omega
    · intro e hm hle
      simpa [h] using (hw e.2).mpr (Or.inr ⟨e.1, hm, hle⟩)

theorem mem_ready_wake (c : Cluster) (t : TaskId) : t ∈ (c.wake t).ready := by
  unfold wake
  split
  · assumption
  · exact List.mem_append_right _ (List.mem_singleton_self t)

/-- A task goes on by an instant at the latest. -/
def Armed (c : Cluster) (t : TaskId) (due : Nat) : Prop := t ∈ c.ready ∨ (due, t) ∈ c.timers

/-- Nothing keeps a task from going on, except perhaps one. -/
structure Spares (t : TaskId) (c c' : Cluster) : Prop where
  supply : c'.supply = c.supply
  epoch : c'.epoch = c.epoch
  ready : ∀ u, u ≠ t → u ∈ c.ready → u ∈ c'.ready
  timers : ∀ u due, u ≠ t → (due, u) ∈ c.timers → (due, u) ∈ c'.timers

theorem Spares.refl (t : TaskId) (c : Cluster) : Spares t c c :=
  ⟨rfl, rfl, fun _ _ h => h, fun _ _ _ h => h⟩

theorem Spares.trans {t : TaskId} {c₁ c₂ c₃ : Cluster} (h : Spares t c₁ c₂)
    (h' : Spares t c₂ c₃) : Spares t c₁ c₃ where
  supply := h'.supply.trans h.supply
  epoch := h'.epoch.trans h.epoch
  ready u hu hr := h'.ready u hu (h.ready u hu hr)
  timers u due hu hr := h'.timers u due hu (h.timers u due hu hr)

/-- Changes of everything else. -/
theorem spares_of_same {t : TaskId} {c c' : Cluster} (h : c'.supply = c.supply ∧
    c'.epoch = c.epoch ∧ c'.ready = c.ready ∧ c'.timers = c.timers) : Spares t c c' := by
  obtain ⟨hsupply, hepoch, hready, htimers⟩ := h
  exact ⟨hsupply, hepoch, fun u _ hu => hready ▸ hu, fun u due _ hu => htimers ▸ hu⟩

theorem Spares.armed {t u : TaskId} {c c' : Cluster} (h : Spares t c c') (hu : u ≠ t) {due : Nat}
    (ha : Armed c u due) : Armed c' u due :=
  ha.imp (h.ready u hu) (h.timers u due hu)

section Spares
variable (c : Cluster) (t u : TaskId)

theorem spares_wake : Spares t c (c.wake u) := by
  unfold wake
  split
  · exact Spares.refl t c
  · exact ⟨rfl, rfl, fun v _ hv => List.mem_append_left _ hv, fun _ _ _ hv => hv⟩

theorem spares_notify (s : Signal) : Spares t c (c.notify s) := by
  obtain ⟨woken, h⟩ := c.notify_eq s
  rw [h]
  exact ⟨rfl, rfl, fun v _ hv => List.mem_append_left _ hv, fun _ _ _ hv => hv⟩

theorem spares_park (s : Signal) : Spares t c (c.park u s) := by
  obtain ⟨parked, h⟩ := c.park_eq u s
  rw [h]
  exact spares_of_same ⟨rfl, rfl, rfl, rfl⟩

theorem spares_clearTimer : Spares t c (c.clearTimer t) :=
  ⟨rfl, rfl, fun _ _ hv => hv, fun v due hv hmem => List.mem_filter.mpr ⟨hmem, by simpa using hv⟩⟩

theorem spares_unwait : Spares t c (c.unwait t) :=
  (spares_clearTimer c t).trans (spares_of_same ⟨rfl, rfl, rfl, rfl⟩)

theorem spares_setTimer (due : Nat) : Spares t c (c.setTimer t due) :=
  (spares_clearTimer c t).trans
    ⟨rfl, rfl, fun _ _ hv => hv, fun _ _ _ hv => List.mem_append_left _ hv⟩

theorem spares_spawn (task : Task) : Spares t c (c.spawn task).1 :=
  ⟨rfl, rfl, fun _ _ hv => List.mem_append_left _ hv, fun _ _ _ hv => hv⟩

theorem spares_remove : Spares t c (c.remove t) :=
  (spares_clearTimer c t).trans
    ⟨rfl, rfl, fun v hv hmem => List.mem_filter.mpr ⟨hmem, by simpa using hv⟩, fun _ _ _ hv => hv⟩

theorem spares_finish : Spares t c (c.finish t) :=
  (spares_remove c t).trans (spares_notify _ t _)

theorem spares_conclude (r : Cluster × Turn) (h : Spares t c r.1) : Spares t c (conclude t r) := by
  obtain ⟨c', ends⟩ := r
  refine h.trans ?_
  cases ends with
  | again =>
    refine ⟨rfl, rfl, fun v hv hmem => List.mem_cons_of_mem _ ?_, fun _ _ _ hv => hv⟩
    exact List.mem_filter.mpr ⟨hmem, by simpa using hv⟩
  | waits => exact Spares.refl t c'
  | _ => exact spares_finish c' t

end Spares

/-- Time does not pass the instant. -/
theorem Armed.pass {c : Cluster} {t : TaskId} {due : Nat} (h : Armed c t due) (hle : c.now ≤ due)
    (ms : Nat) : Armed (c.pass ms) t due ∧ (c.pass ms).now ≤ due := by
  by_cases hr : c.ready = []
  · have ht : (due, t) ∈ c.timers := h.resolve_left (by simp [hr])
    obtain ⟨now, woken, he, -, hbound, hwoken⟩ := pass_eq hr ms
    have hnow : now ≤ due := by
      have := hbound _ ht
      omega
    rw [he]
    refine ⟨?_, hnow⟩
    by_cases hdue : due ≤ now
    · exact Or.inl (hwoken _ ht hdue)
    · exact Or.inr (List.mem_filter.mpr ⟨ht, by simpa using hdue⟩)
  · rw [pass_of_ready hr]
    exact ⟨h, hle⟩

/-- Time passes, and that is all. -/
theorem pass_keeps (c : Cluster) (ms : Nat) : ∃ now timers ready, c.now ≤ now ∧
    c.pass ms = { c with now := now, timers := timers, ready := ready } := by
  by_cases hr : c.ready = []
  · obtain ⟨now, woken, he, hle, -⟩ := pass_eq hr ms
    exact ⟨now, _, woken, hle, he⟩
  · exact ⟨c.now, c.timers, c.ready, Nat.le_refl _, pass_of_ready hr ms⟩

end FleetControl.Cluster
