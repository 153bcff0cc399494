import FleetControl.Proofs.Cluster.Scheduling
import FleetControl.Proofs.Engine.Operation

/-! # Waiting for an outcome

Whoever waits for a command to be decided is woken when it is. Nothing that engines, workers and
repliers do lets a wait go on past the outcome, or ends a task but the one whose turn it is. -/
namespace FleetControl

namespace Engine

theorem outcome_congr {e e' : Engine} {id : Uuid}
    (h : e'.completions.get? id = e.completions.get? id) : e'.outcome? id = e.outcome? id := by
  rw [outcome?, outcome?, h]

/-- Deciding a command without saying so leaves its outcome as it was. -/
theorem completions_of_resolve_eq_false {e : Engine} {id : Uuid} {o : CommandOutcome}
    (h : (e.resolve id o).2 = false) : (e.resolve id o).1.completions = e.completions := by
  unfold resolve at h ⊢
  split
  · rename_i hp
    rw [if_pos hp] at h
    split at h
    · cases h
    · rfl
  · rfl

end Engine

/-- The tasks that a bridge runs with: time limits, consumers of an engine, workers and repliers. -/
inductive Task.OfBridge : Task → Prop where
  | expiry (p : Nat) (id : Uuid) (deadline : Nat) : OfBridge (.expiry p id deadline)
  | consumer (p : Nat) (device : String) : OfBridge (.consumer p device)
  | worker (p : Nat) (device : String) (phase : WorkerPhase) : OfBridge (.worker p device phase)
  | replier (p : Nat) (id job : Uuid) : OfBridge (.replier p id job)

namespace Cluster

/-- From one state to the other, every task but one stays as it is, goes on if it could, and waits
for an outcome until that is there; new tasks can go on. -/
structure Minds (t : TaskId) (c c' : Cluster) : Prop where
  onward : c.nextTask ≤ c'.nextTask
  tasks : ∀ u, u ≠ t → u < c.nextTask → c'.tasks.get? u = c.tasks.get? u
  ready : ∀ u, u ≠ t → u ∈ c.ready → u ∈ c'.ready
  waiting : ∀ u p id, u ≠ t → (.decided p id, u) ∈ c.parked → (c.engine p).outcome? id = none →
    u ∈ c'.ready ∨ ((.decided p id, u) ∈ c'.parked ∧ (c'.engine p).outcome? id = none)
  born : ∀ u task, u ≠ t → c.nextTask ≤ u → c'.tasks.get? u = some task →
    c.tasks.get? u = some task ∨ (u < c'.nextTask ∧ u ∈ c'.ready ∧ task.OfBridge)

section Minds
variable {t : TaskId} {c c₁ c₂ : Cluster}

theorem Minds.trans (h : Minds t c c₁) (h' : Minds t c₁ c₂) : Minds t c c₂ where
  onward := Nat.le_trans h.onward h'.onward
  tasks u hu hlt := (h'.tasks u hu (Nat.lt_of_lt_of_le hlt h.onward)).trans (h.tasks u hu hlt)
  ready u hu hr := h'.ready u hu (h.ready u hu hr)
  waiting u p id hu hp ho := by
    rcases h.waiting u p id hu hp ho with hr | ⟨hp, ho⟩
    · exact .inl (h'.ready u hu hr)
    · exact h'.waiting u p id hu hp ho
  born u task hu hge hget := by
    have hearlier : c₁.tasks.get? u = some task → c.tasks.get? u = some task ∨
        (u < c₂.nextTask ∧ u ∈ c₂.ready ∧ task.OfBridge) := by
      intro hget
      rcases h.born u task hu hge hget with hold | ⟨hlt, hr, hkind⟩
      · exact .inl hold
      · exact .inr ⟨Nat.lt_of_lt_of_le hlt h'.onward, h'.ready u hu hr, hkind⟩
    rcases Nat.lt_or_ge u c₁.nextTask with hlt | hge'
    · rw [h'.tasks u hu hlt] at hget
      exact hearlier hget
    · rcases h'.born u task hu hge' hget with hget | hnew
      · exact hearlier hget
      · exact .inr hnew

/-- Tasks, what they wait for and outcomes stay as they are. -/
theorem minds_of_same (h : c₁.nextTask = c.nextTask ∧ c₁.tasks = c.tasks ∧ c₁.ready = c.ready ∧
    c₁.parked = c.parked) (ho : ∀ p id, (c.engine p).outcome? id = none →
      (c₁.engine p).outcome? id = none) : Minds t c c₁ := by
  obtain ⟨hnext, htasks, hready, hparked⟩ := h
  refine ⟨Nat.le_of_eq hnext.symm, fun u _ _ => by rw [htasks], fun u _ hr => hready ▸ hr, ?_, ?_⟩
  · exact fun u p id _ hp hnone => .inr ⟨hparked ▸ hp, ho p id hnone⟩
  · exact fun u task _ _ hget => .inl (htasks ▸ hget)

theorem Minds.refl (t : TaskId) (c : Cluster) : Minds t c c :=
  minds_of_same ⟨rfl, rfl, rfl, rfl⟩ fun _ _ h => h

theorem minds_store (t : TaskId) (c : Cluster) (store : SharedStore) :
    Minds t c { c with store := store } := minds_of_same ⟨rfl, rfl, rfl, rfl⟩ fun _ _ h => h

/-- An engine that decides nothing takes the place of another. -/
theorem minds_setEngine (t : TaskId) (c : Cluster) (p : Nat) {e : Engine}
    (h : ∀ id, (c.engine p).outcome? id = none → e.outcome? id = none) :
    Minds t c (c.setEngine p e) := by
  refine minds_of_same ⟨rfl, rfl, rfl, rfl⟩ fun q id hnone => ?_
  rw [engine_setEngine]
  split
  · rename_i hq
    exact h id (hq.1 ▸ hnone)
  · exact hnone

section Signals
variable (t : TaskId) (c : Cluster)

/-- Who waits for a signal is woken by it, and keeps waiting on another. -/
theorem told_notify (s : Signal) {s' : Signal} {u : TaskId} (h : (s', u) ∈ c.parked) :
    (s' = s ∧ u ∈ (c.notify s).ready) ∨ (s' ≠ s ∧ (s', u) ∈ (c.notify s).parked) := by
  obtain ⟨woken, he, hm⟩ := foldl_wake ((c.parked.filter fun e => e.1 = s).map (·.2))
    { c with parked := c.parked.filter fun e => e.1 ≠ s }
  have hn : c.notify s = _ := he
  rw [hn]
  by_cases hs : s' = s
  · refine .inl ⟨hs, (hm u).mpr (.inr (List.mem_map.mpr ⟨(s', u), ?_, rfl⟩))⟩
    exact List.mem_filter.mpr ⟨h, by simpa using hs⟩
  · exact .inr ⟨hs, List.mem_filter.mpr ⟨h, by simpa using hs⟩⟩

theorem minds_notify (s : Signal) : Minds t c (c.notify s) := by
  obtain ⟨woken, he⟩ := c.notify_eq s
  have hengine (p : Nat) : (c.notify s).engine p = c.engine p := engine_notify c p s
  have htold (u : TaskId) (p : Nat) (id : Uuid) (hp : (.decided p id, u) ∈ c.parked) :=
    told_notify c s hp
  rw [he] at hengine htold ⊢
  refine ⟨Nat.le_refl _, fun _ _ _ => rfl, fun u _ hr => List.mem_append_left _ hr, ?_, ?_⟩
  · intro u p id _ hp hnone
    rcases htold u p id hp with ⟨-, hr⟩ | ⟨-, hp⟩
    · exact .inl hr
    · exact .inr ⟨hp, by rw [hengine]; exact hnone⟩
  · exact fun _ _ _ _ hget => .inl hget

/-- A decision that does not say so is none. -/
theorem minds_decide (p : Nat) (id : Uuid) {changed : Engine × Bool}
    (hothers : ∀ j, j ≠ id → changed.1.outcome? j = (c.engine p).outcome? j)
    (hsilent : changed.2 = false → changed.1.outcome? id = (c.engine p).outcome? id) :
    Minds t c (c.decide p id changed).1 := by
  unfold Cluster.decide
  dsimp only
  split
  · have hset : Minds t c ((c.setEngine p changed.1).notify (.decided p id)) := by
      have hn := minds_notify t (c.setEngine p changed.1) (.decided p id)
      refine ⟨hn.onward, hn.tasks, hn.ready, fun u q j hu hp hnone => ?_, hn.born⟩
      rcases told_notify (c.setEngine p changed.1) (.decided p id) hp with ⟨-, hr⟩ | ⟨hne, hp⟩
      · exact .inl hr
      · refine .inr ⟨hp, ?_⟩
        rw [engine_notify, engine_setEngine]
        split
        · rename_i hq
          obtain rfl := hq.1
          have hj : j ≠ id := by
            rintro rfl
            exact hne rfl
          exact (hothers j hj).trans hnone
        · exact hnone
    exact hset
  · rename_i hquiet
    refine minds_setEngine t c p fun j hnone => ?_
    by_cases hj : j = id
    · rw [hj] at hnone ⊢
      exact (hsilent (by simpa using hquiet)).trans hnone
    · exact (hothers j hj).trans hnone

theorem minds_resolve (p : Nat) (id : Uuid) (o : CommandOutcome) :
    Minds t c (c.decide p id ((c.engine p).resolve id o)).1 := by
  refine minds_decide t c p id (fun j hj => ?_) fun hquiet => ?_
  · exact Engine.outcome_congr (Engine.completions_resolve_of_ne _ id j o hj)
  · exact Engine.outcome_congr (by rw [Engine.completions_of_resolve_eq_false hquiet])

theorem minds_expire (p : Nat) (id : Uuid) : Minds t c (c.expire p id) := by
  unfold expire Engine.expire
  split
  · exact minds_decide t c p id (fun _ _ => rfl) fun _ => rfl
  · exact minds_resolve t c p id _

/-- Several signals in turn wake whoever waits for one of them. -/
theorem told_foldl_notify {α : Type} (f : α → Signal) (l : List α) {s : Signal} {u : TaskId}
    (h : (s, u) ∈ c.parked) : u ∈ (l.foldl (fun c a => c.notify (f a)) c).ready ∨
      (s ∉ l.map f ∧ (s, u) ∈ (l.foldl (fun c a => c.notify (f a)) c).parked) := by
  induction l generalizing c with
  | nil => exact .inr ⟨List.not_mem_nil, h⟩
  | cons a l ih =>
    rcases told_notify c (f a) h with ⟨-, hr⟩ | ⟨hne, hp⟩
    · obtain ⟨woken, parked, he⟩ := foldl_notify f l (c.notify (f a))
      rw [List.foldl_cons, he]
      exact .inl (List.mem_append_left _ hr)
    · refine (ih (c.notify (f a)) hp).imp_right fun ⟨hnot, hp⟩ => ⟨?_, hp⟩
      rw [List.map_cons, List.mem_cons, not_or]
      exact ⟨hne, hnot⟩

theorem minds_failConnection (p : Nat) (conn : Uuid) : Minds t c (c.failConnection p conn).1 := by
  let lost := (c.engine p).failConnection conn
  let replaced := c.setEngine p lost.1
  have hfold : (c.failConnection p conn).1 =
      lost.2.foldl (fun c id => c.notify (.decided p id)) replaced := rfl
  have hengine (q : Nat) : (c.failConnection p conn).1.engine q = replaced.engine q := by
    rw [hfold, engine_foldl_notify]
  obtain ⟨woken, parked, he⟩ := foldl_notify (fun id => Signal.decided p id) lost.2 replaced
  have htold := fun u s hp => told_foldl_notify replaced (fun id => Signal.decided p id) lost.2
    (s := s) (u := u) hp
  rw [← hfold] at he htold
  rw [he] at hengine htold ⊢
  refine ⟨Nat.le_refl _, fun _ _ _ => rfl, fun u _ hr => List.mem_append_left _ hr, ?_,
    fun _ _ _ _ hget => .inl hget⟩
  intro u q id _ hp hnone
  rcases htold u (.decided q id) hp with hr | ⟨hnot, hp⟩
  · exact .inl hr
  · refine .inr ⟨hp, ?_⟩
    rw [hengine, engine_setEngine]
    split
    · rename_i hq
      obtain rfl := hq.1
      -- Whoever is not told of a loss has not lost anything.
      have hkept := (Engine.failAll_other (c.engine q) ((c.engine q).owned conn) id
        fun x hx hid => hnot (List.mem_map.mpr ⟨id, List.mem_map.mpr ⟨x, hx, hid⟩, rfl⟩)).2
      exact (Engine.outcome_congr hkept).trans hnone
    · exact hnone

theorem minds_spawn {task : Task} (hkind : task.OfBridge) :
    Minds t c (c.spawn task).1 := by
  refine ⟨Nat.le_succ _, fun u _ hlt => Table.get?_put_of_ne _ _ (Nat.ne_of_lt hlt),
    fun u _ hr => List.mem_append_left _ hr, fun u p id _ hp hnone => .inr ⟨hp, hnone⟩, ?_⟩
  intro u task' _ _ hget
  change (c.tasks.put c.nextTask task).get? u = some task' at hget
  rw [Table.get?_put] at hget
  split at hget
  · rename_i hu
    cases hget
    exact .inr ⟨hu ▸ Nat.lt_succ_self _, hu ▸ List.mem_append_right _ (List.mem_singleton_self _),
      hkind⟩
  · exact .inl hget

theorem minds_park (s : Signal) : Minds t c (c.park t s) := by
  unfold park
  split
  · exact .refl t c
  · exact ⟨Nat.le_refl _, fun _ _ _ => rfl, fun _ _ hr => hr,
      fun u p id _ hp hnone => .inr ⟨List.mem_append_left _ hp, hnone⟩,
      fun _ _ _ _ hget => .inl hget⟩

theorem minds_setTimer (due : Nat) : Minds t c (c.setTimer t due) :=
  minds_of_same ⟨rfl, rfl, rfl, rfl⟩ fun _ _ h => h

theorem minds_unwait : Minds t c (c.unwait t) :=
  ⟨Nat.le_refl _, fun _ _ _ => rfl, fun _ _ hr => hr,
    fun u p id hu hp hnone => .inr ⟨List.mem_filter.mpr ⟨hp, by simpa using hu⟩, hnone⟩,
    fun _ _ _ _ hget => .inl hget⟩

theorem minds_setTask (task : Task) : Minds t c (c.setTask t task) :=
  ⟨Nat.le_refl _, fun _ hu _ => Table.get?_put_of_ne _ _ hu, fun _ _ hr => hr,
    fun _ _ _ _ hp hnone => .inr ⟨hp, hnone⟩,
    fun _ _ hu _ hget => .inl ((Table.get?_put_of_ne _ _ hu).symm.trans hget)⟩

theorem minds_remove : Minds t c (c.remove t) :=
  ⟨Nat.le_refl _, fun _ hu _ => Table.get?_erase_of_ne _ hu,
    fun _ hu hr => List.mem_filter.mpr ⟨hr, by simpa using hu⟩,
    fun u p id hu hp hnone => .inr ⟨List.mem_filter.mpr ⟨hp, by simpa using hu⟩, hnone⟩,
    fun _ _ hu _ hget => .inl ((Table.get?_erase_of_ne _ hu).symm.trans hget)⟩

theorem minds_conclude (r : Cluster × Turn) (h : Minds t c r.1) : Minds t c (conclude t r) := by
  obtain ⟨c', ends⟩ := r
  refine h.trans ?_
  cases ends with
  | again =>
    refine ⟨Nat.le_refl _, fun _ _ _ => rfl, fun u hu hr => List.mem_cons_of_mem _ ?_,
      fun _ _ _ _ hp hnone => .inr ⟨hp, hnone⟩, fun _ _ _ _ hget => .inl hget⟩
    exact List.mem_filter.mpr ⟨hr, by simpa using hu⟩
  | waits => exact .refl t c'
  | _ => exact (minds_remove t c').trans (minds_notify t _ _)

theorem minds_push (key value : String) : Minds t c (c.push key value).1 := by
  unfold push
  dsimp only
  split
  · exact (minds_store t c _).trans (minds_notify t _ _)
  · exact minds_store t c _

theorem minds_pushReply (job : Uuid) (reply : BridgeReply) :
    Minds t c (c.pushReply job reply) := by
  have hpush := minds_push t c (BridgeJob.replyKey job) reply.text
  unfold pushReply
  dsimp only
  split <;> rename_i h <;> rw [h] at hpush
  · exact hpush
  · exact hpush.trans (minds_store t _ _)

theorem minds_awaitPop (key : String) (deadline : Nat) :
    Minds t c (c.awaitPop t key deadline).1 := by
  have hpop : Minds t c (c.tryPop key).1 := minds_store t c _
  unfold awaitPop
  split <;> rename_i h <;> rw [h] at hpop
  · split
    · exact hpop.trans (minds_unwait t _)
    · exact (hpop.trans (minds_park t _ _)).trans (minds_setTimer t _ deadline)
  · exact hpop.trans (minds_unwait t _)

theorem minds_awaitOutcome (p : Nat) (id : Uuid) : Minds t c (c.awaitOutcome t p id).1 := by
  unfold awaitOutcome
  split
  · exact .refl t c
  · exact minds_park t c _

theorem minds_enqueue (p : Nat) (device : String) (command : Command) (blob : Option ByteArray)
    (timeout : Nat) : Minds t c (c.enqueue p device command blob timeout).1 := by
  have hdrawn : Minds t c c.freshId.1 := minds_of_same ⟨rfl, rfl, rfl, rfl⟩ fun _ _ h => h
  have hspawn := hdrawn.trans
    (minds_spawn t c.freshId.1 (.expiry p c.freshId.2 (c.now + timeout)))
  refine (hspawn.trans (minds_setEngine t _ p fun id hnone => ?_)).trans (minds_notify t _ _)
  change ((c.engine p).enqueue c.freshId.2 device command blob timeout c.now).outcome? id = none
  rw [Engine.outcome?, Engine.completions_enqueue]
  split
  · rfl
  · exact hnone

theorem minds_handleJob (p : Nat) (device raw : String) :
    Minds t c (c.handleJob p device raw) := by
  unfold handleJob
  split
  · exact .refl t c
  · exact minds_pushReply t c _ _
  · exact (minds_enqueue t c p device _ _ _).trans (minds_spawn t _ (.replier p _ _))

/-- A turn of a task of the bridge. -/
theorem minds_turn {task : Task} (hget : c.tasks.get? t = some task) (hkind : task.OfBridge) :
    Minds t c (turn c t).1 := by
  unfold turn
  rw [hget]
  cases hkind with
  | expiry p id deadline =>
    dsimp only
    unfold expiryTurn
    split
    · exact minds_expire t c p id
    · exact minds_setTimer t c deadline
  | consumer p device =>
    have hpop : Minds t c (c.popLive p device).1 := minds_setEngine t c p fun id hnone => by
      have hsame : ((c.engine p).popLive device).1.outcome? id = (c.engine p).outcome? id :=
        Engine.outcome_congr (by rw [Engine.completions_popLive])
      exact hsame.trans hnone
    dsimp only
    unfold consumerTurn
    split <;> rename_i h <;> rw [h] at hpop
    · exact hpop.trans (minds_of_same ⟨rfl, rfl, rfl, rfl⟩ fun _ _ h => h)
    · exact hpop.trans (minds_park t _ _)
  | worker p device phase =>
    dsimp only
    cases phase with
    | ready => exact minds_setTask t c _
    | pausing due =>
      rw [workerTurn]
      split
      · exact minds_setTask t c _
      · exact minds_setTimer t c due
    | polling deadline =>
      have hpop := minds_awaitPop t c (BridgeJob.listKey device) deadline
      rw [workerTurn]
      split <;> rename_i h <;> rw [h] at hpop
      · exact hpop
      · rename_i popped raw
        cases raw with
        | none => exact hpop.trans (minds_setTask t _ _)
        | some raw =>
          exact (hpop.trans (minds_handleJob t popped p device raw)).trans (minds_setTask t _ _)
      · exact hpop.trans (minds_setTask t _ _)
  | replier p id job =>
    have hwait := minds_awaitOutcome t c p id
    dsimp only
    unfold replierTurn
    split <;> rename_i h <;> rw [h] at hwait
    · exact hwait.trans (minds_pushReply t _ job _)
    · exact hwait

end Signals

end Minds

end Cluster

end FleetControl
