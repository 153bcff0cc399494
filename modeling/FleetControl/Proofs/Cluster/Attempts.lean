import FleetControl.Proofs.Cluster.Lapsing

/-! # Attempts at a list, one lock at a time

What a cluster does in one go, the threads of a process do in steps, each under a lock, and the
steps of different threads mix. A push adds a text to its list, and then wakes those who wait for
any list; who waits asks to be woken, and then looks at its list, and once its instant has come it
looks a last time. The turns of a cluster and its pushes are runs of these steps. -/
namespace FleetControl.Cluster.Popping
open Lapsing (Act act)

/-- A task that waits for the head of a list up to an instant. -/
structure Wait where
  task : TaskId
  key : String
  deadline : Nat

/-- A cluster in the middle of what its threads do. -/
structure Moment where
  cluster : Cluster
  /-- The tasks that asked to be woken and did not look at their list since. -/
  looking : List TaskId := []
  /-- The pushes after which nobody was woken yet. -/
  owed : Nat := 0

/-- What a thread does under one lock, or in one go. -/
inductive Move where
  | act (a : Act)
  /-- A text is added to a list, and then whoever waits for some list is woken. -/
  | append (key value : String)
  | notify
  /-- A task asks to be woken, and then looks at its list. -/
  | enable (w : Wait)
  | look (w : Wait)
  /-- A task looks a last time. -/
  | last (w : Wait)

/-- A task waits, and nothing has come of it. -/
def Waits (c : Cluster) (w : Wait) : Prop :=
  c.tasks.get? w.task = some (.popper w.key w.deadline)

/-- A task has its turn. -/
def taken (c : Cluster) (t : TaskId) : Cluster := { c with ready := c.ready.erase t }

/-- A task asks to be woken. -/
def ask (c : Cluster) (t : TaskId) : Cluster := (taken c t).park t .pushed

/-- A task returns what it finds. -/
def back (c : Cluster) (w : Wait) : Cluster :=
  ((c.tryPop w.key).1.deliver w.task (.popped (c.tryPop w.key).2)).finish w.task

/-- A task looks at its list. If it finds nothing, it waits until it is woken or its instant comes,
and goes on if the instant has come. -/
def look (c : Cluster) (w : Wait) : Cluster :=
  match (c.tryPop w.key).2 with
  | .ok none =>
    if w.deadline ≤ c.now then (c.tryPop w.key).1.wake w.task
    else (c.tryPop w.key).1.setTimer w.task w.deadline
  | _ => back c w

namespace Moment

/-- A task does one thing at a time, and time goes on when nobody is in the middle of something. -/
def Allows (m : Moment) : Move → Prop
  | .act (.turn t) => t ∉ m.looking
  | .act (.pass _) => m.looking = [] ∧ m.owed = 0
  | .notify => 0 < m.owed
  | .enable w => Waits m.cluster w ∧ w.task ∈ m.cluster.ready ∧ w.task ∉ m.looking
  | .look w => Waits m.cluster w ∧ w.task ∈ m.looking
  | .last w => Waits m.cluster w ∧ w.task ∈ m.cluster.ready ∧ w.task ∉ m.looking ∧
    w.deadline ≤ m.cluster.now
  | _ => True

def next (m : Moment) : Move → Moment
  | .act (.cancel t) =>
    { m with
      cluster := m.cluster.remove t
      looking := m.looking.erase t }
  | .act a => { m with cluster := (Lapsing.act m.cluster a).1 }
  | .append key value =>
    match m.cluster.store.rpush key value m.cluster.now with
    | (store, .ok ()) =>
      { m with
        cluster := { m.cluster with store := store }
        owed := m.owed + 1 }
    | (store, .error _) => { m with cluster := { m.cluster with store := store } }
  | .notify =>
    { m with
      cluster := m.cluster.notify .pushed
      owed := m.owed - 1 }
  | .enable w =>
    { m with
      cluster := ask m.cluster w.task
      looking := w.task :: m.looking }
  | .look w =>
    { m with
      cluster := look m.cluster w
      looking := m.looking.erase w.task }
  | .last w => { m with cluster := back m.cluster w }

def run (m : Moment) : List Move → Moment
  | [] => m
  | move :: moves => run (m.next move) moves

def Proper (m : Moment) : List Move → Prop
  | [] => True
  | move :: moves => m.Allows move ∧ Proper (m.next move) moves

end Moment

section Whole
variable {c : Cluster} {m : Moment} {w : Wait}

/-- A push is two steps, and one if it is refused. -/
theorem next_rpush (m : Moment) (key value : String) :
    m.next (.act (.rpush key value)) = match (m.cluster.push key value).2 with
      | .ok () => (m.next (.append key value)).next .notify
      | .error _ => m.next (.append key value) := by
  simp only [Moment.next, act, push]
  obtain ⟨store, result⟩ := m.cluster.store.rpush key value m.cluster.now
  rcases result with e | ⟨⟩
  · rfl
  · rfl

theorem filter_erase (ts : List TaskId) (t : TaskId) :
    ((ts.erase t).filter fun u => !Decidable.decide (u = t)) =
      ts.filter fun u => !Decidable.decide (u = t) := by
  induction ts with
  | nil => rfl
  | cons u ts ih =>
    by_cases hu : u = t
    · simp [hu]
    · rw [List.erase_cons_tail (by simpa using hu)]
      simpa [hu] using ih

/-- Who returns is taken away, with all that it waits for. -/
theorem back_taken (c : Cluster) (w : Wait) :
    ((((taken c w.task).tryPop w.key).1.unwait w.task).deliver w.task
      (.popped (c.tryPop w.key).2)).finish w.task = back c w := by
  refine congrArg (notify · (.ended w.task)) ?_
  simp [tryPop, taken, unwait, deliver, remove, clearTimer, List.filter_filter, filter_erase]

theorem ask_eq (c : Cluster) (t : TaskId) :
    ∃ parked, ask c t = { taken c t with parked := parked } := (taken c t).park_eq t .pushed

theorem now_ask (c : Cluster) (t : TaskId) : (ask c t).now = c.now := by
  obtain ⟨parked, he⟩ := ask_eq c t
  rw [he]
  rfl

theorem store_ask (c : Cluster) (t : TaskId) : (ask c t).store = c.store := store_park ..

theorem tasks_ask (c : Cluster) (t : TaskId) : (ask c t).tasks = c.tasks := tasks_park ..

theorem results_ask (c : Cluster) (t : TaskId) : (ask c t).results = c.results := by
  obtain ⟨parked, he⟩ := ask_eq c t
  rw [he]
  rfl

theorem timers_ask (c : Cluster) (t : TaskId) : (ask c t).timers = c.timers := by
  obtain ⟨parked, he⟩ := ask_eq c t
  rw [he]
  rfl

theorem Waits.ask (h : Waits c w) : Waits (ask c w.task) w :=
  (congrArg (Table.get? · w.task) (tasks_ask c w.task)).trans h

theorem tryPop_ask (c : Cluster) (t : TaskId) (key : String) :
    (ask c t).tryPop key = (((taken c t).tryPop key).1.park t .pushed, (c.tryPop key).2) := by
  unfold ask park
  by_cases hp : (.pushed, t) ∈ c.parked
  · rw [if_pos (show (.pushed, t) ∈ (taken c t).parked from hp),
      if_pos (show (.pushed, t) ∈ ((taken c t).tryPop key).1.parked from hp)]
    rfl
  · rw [if_neg (show (.pushed, t) ∉ (taken c t).parked from hp),
      if_neg (show (.pushed, t) ∉ ((taken c t).tryPop key).1.parked from hp)]
    rfl

theorem back_ask (c : Cluster) (w : Wait) : back (ask c w.task) w = back c w := by
  rw [back, tryPop_ask]
  refine congrArg (notify · (.ended w.task)) ?_
  unfold park
  split
  · simp [tryPop, taken, deliver, remove, clearTimer, filter_erase]
  · simp [tryPop, taken, deliver, remove, clearTimer, filter_erase]

theorem give_heed (hr : w.task ∈ c.ready) (hw : Waits c w) :
    c.give w.task = conclude w.task
      (((taken c w.task).tryPop w.key).1.heed w.task w.deadline (c.tryPop w.key).2) := by
  have hturn : turn (taken c w.task) w.task =
      popperTurn (taken c w.task) w.task w.key w.deadline := by
    have htask : (taken c w.task).tasks.get? w.task = _ := hw
    simp only [turn, htask]
  rw [give_of_mem hr]
  refine congrArg (conclude w.task) (hturn.trans ?_)
  rw [popperTurn_eq_heed]
  rfl

/-- The turn of a task whose instant has come is its last look. -/
theorem give_due (hr : w.task ∈ c.ready) (hw : Waits c w) (hdue : w.deadline ≤ c.now) :
    c.give w.task = back c w := by
  have hdue' : w.deadline ≤ ((taken c w.task).tryPop w.key).1.now := hdue
  rw [give_heed hr hw, ← back_taken]
  rcases (c.tryPop w.key).2 with e | _ | value
  · rfl
  · rw [heed, if_pos hdue']
    rfl
  · rfl

/-- Before, a task asks to be woken and looks. -/
theorem give_early (hr : w.task ∈ c.ready) (hw : Waits c w) (hearly : ¬w.deadline ≤ c.now) :
    c.give w.task = look (ask c w.task) w := by
  have hearly' : ¬w.deadline ≤ ((taken c w.task).tryPop w.key).1.now := hearly
  rw [give_heed hr hw, look, back_ask, tryPop_ask, now_ask, if_neg hearly, ← back_taken]
  rcases (c.tryPop w.key).2 with e | _ | value
  · rfl
  · rw [heed, if_neg hearly']
    rfl
  · rfl

theorem next_turn_due (hr : w.task ∈ m.cluster.ready) (hw : Waits m.cluster w)
    (hdue : w.deadline ≤ m.cluster.now) :
    m.next (.act (.turn w.task)) = m.next (.last w) :=
  congrArg (fun c : Cluster => { m with cluster := c }) (give_due hr hw hdue)

theorem next_turn_early (hr : w.task ∈ m.cluster.ready) (hw : Waits m.cluster w)
    (hearly : ¬w.deadline ≤ m.cluster.now) :
    m.next (.act (.turn w.task)) = (m.next (.enable w)).next (.look w) := by
  dsimp only [Moment.next, act]
  rw [give_early hr hw hearly, List.erase_cons_head]

end Whole

/-! ## What a task does to the other tasks -/

/-- The tasks but one are as before, except perhaps that they can go on. -/
structure Undisturbed (t : TaskId) (c c' : Cluster) : Prop where
  now : c'.now = c.now
  born : c'.nextTask = c.nextTask
  tasks : ∀ u, u ≠ t → c'.tasks.get? u = c.tasks.get? u
  ready : ∀ u, u ≠ t → u ∈ c.ready → u ∈ c'.ready
  parked : ∀ u, u ≠ t → (.pushed, u) ∈ c.parked → (.pushed, u) ∈ c'.parked
  timers : ∀ e, e.2 ≠ t → (e ∈ c'.timers ↔ e ∈ c.timers)

/-- And of that one there is nothing left. -/
structure Gone (t : TaskId) (c c' : Cluster) : Prop extends Undisturbed t c c' where
  task : c'.tasks.get? t = none
  timer : ∀ e ∈ c'.timers, e.2 ≠ t

section Tasks
variable {c c₁ c₂ : Cluster} {t : TaskId}

theorem Undisturbed.trans (h : Undisturbed t c c₁) (h' : Undisturbed t c₁ c₂) :
    Undisturbed t c c₂ where
  now := h'.now.trans h.now
  born := h'.born.trans h.born
  tasks u hu := (h'.tasks u hu).trans (h.tasks u hu)
  ready u hu hr := h'.ready u hu (h.ready u hu hr)
  parked u hu hr := h'.parked u hu (h.parked u hu hr)
  timers e he := (h'.timers e he).trans (h.timers e he)

theorem Undisturbed.gone (h : Undisturbed t c c₁) (h' : Gone t c₁ c₂) : Gone t c c₂ :=
  ⟨h.trans h'.toUndisturbed, h'.task, h'.timer⟩

theorem gone_remove (c : Cluster) (t : TaskId) : Gone t c (c.remove t) where
  now := rfl
  born := rfl
  tasks _ hu := Table.get?_erase_of_ne _ hu
  ready _ hu hr := List.mem_filter.mpr ⟨hr, by simpa using hu⟩
  parked _ hu hr := List.mem_filter.mpr ⟨hr, by simpa using hu⟩
  timers _ he := List.mem_filter.trans (and_iff_left (by simpa using he))
  task := Table.get?_erase_self ..
  timer _ he := by simpa using (List.mem_filter.mp he).2

/-- Nobody waits for the end of a task. -/
theorem gone_finish (c : Cluster) (t : TaskId) : Gone t c (c.finish t) := by
  have hgone := gone_remove c t
  obtain ⟨woken, he⟩ := (c.remove t).notify_eq (.ended t)
  rw [finish, he]
  refine ⟨⟨hgone.now, hgone.born, hgone.tasks, fun u hu hr => ?_, fun u hu hr => ?_,
    hgone.timers⟩, hgone.task, hgone.timer⟩
  · exact List.mem_append_left woken (hgone.ready u hu hr)
  · exact List.mem_filter.mpr ⟨hgone.parked u hu hr, by simp⟩

theorem gone_back (c : Cluster) (w : Wait) : Gone w.task c (back c w) := by
  have hfound : Undisturbed w.task c
      ((c.tryPop w.key).1.deliver w.task (.popped (c.tryPop w.key).2)) :=
    ⟨rfl, rfl, fun _ _ => rfl, fun _ _ => id, fun _ _ => id, fun _ _ => Iff.rfl⟩
  exact hfound.gone (gone_finish _ w.task)

theorem undisturbed_taken (c : Cluster) (t : TaskId) : Undisturbed t c (taken c t) :=
  ⟨rfl, rfl, fun _ _ => rfl, fun _ hu hr => (List.mem_erase_of_ne hu).mpr hr, fun _ _ => id,
    fun _ _ => Iff.rfl⟩

theorem undisturbed_ask (c : Cluster) (t : TaskId) : Undisturbed t c (ask c t) := by
  have htaken := undisturbed_taken c t
  have hparked (u : TaskId) : (.pushed, u) ∈ c.parked → (.pushed, u) ∈ (ask c t).parked :=
    parked_park (taken c t) t .pushed
  obtain ⟨parked, he⟩ := ask_eq c t
  rw [he] at hparked ⊢
  exact ⟨rfl, rfl, htaken.tasks, htaken.ready, fun u _ => hparked u, htaken.timers⟩

theorem mem_setTimer (c : Cluster) (t : TaskId) (due : Nat) (e : Nat × TaskId) :
    e ∈ (c.setTimer t due).timers ↔ e ∈ c.timers ∧ e.2 ≠ t ∨ e = (due, t) := by
  simp [setTimer, clearTimer]

theorem undisturbed_setTimer (c : Cluster) (t : TaskId) (due : Nat) :
    Undisturbed t c (c.setTimer t due) := by
  refine ⟨rfl, rfl, fun _ _ => rfl, fun _ _ => id, fun _ _ => id, fun e he => ?_⟩
  rw [mem_setTimer]
  refine ⟨fun h => h.elim And.left fun heq => ?_, fun h => .inl ⟨h, he⟩⟩
  exact absurd (congrArg Prod.snd heq) he

theorem wake_eq (c : Cluster) (t : TaskId) :
    ∃ woken, c.wake t = { c with ready := c.ready ++ woken } ∧ t ∈ c.ready ++ woken := by
  unfold wake
  split
  · exact ⟨[], by rw [List.append_nil], by rwa [List.append_nil]⟩
  · exact ⟨[t], rfl, List.mem_append_right _ (List.mem_singleton_self t)⟩

theorem give_absent (hr : t ∈ c.ready) (ht : c.tasks.get? t = none) :
    c.give t = (taken c t).finish t := by
  rw [give_of_mem hr]
  simp only [turn, ht]
  rfl

end Tasks

end FleetControl.Cluster.Popping
