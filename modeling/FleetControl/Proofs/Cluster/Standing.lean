import FleetControl.Proofs.Cluster.Lifetime
import Mathlib.Data.List.Nodup

/-! # How tasks stand

A task is ready, waits for a command of a device, or waits for an instant. Each thing that happens
to a cluster gives at most one task another standing, except that those who wait for a device are
woken together when something is put on its queue. -/
namespace FleetControl.Cluster.Lifetime

/-- A task as far as a device is concerned. -/
structure Standing where
  task : Option Task
  ready : Prop
  waits : Prop
  due : Nat → Prop

def standing (device : String) (c : Cluster) (t : TaskId) : Standing where
  task := c.tasks.get? t
  ready := t ∈ c.ready
  waits := (.queued 0 device, t) ∈ c.parked
  due instant := (instant, t) ∈ c.timers

namespace Standing

def taken (s : Standing) : Standing := { s with ready := False }

def timed (s : Standing) (due : Nat) : Standing := { s with due := (· = due) }

def parked (s : Standing) (here : Prop) : Standing := { s with waits := s.waits ∨ here }

def woken (s : Standing) : Standing := { s with ready := s.ready ∨ s.waits, waits := False }

def ended : Standing := ⟨none, False, False, fun _ => False⟩

/-- Time goes on to an instant. -/
def later (s : Standing) (now : Nat) : Standing where
  task := s.task
  ready := s.ready ∨ ∃ due, s.due due ∧ due ≤ now
  waits := s.waits
  due instant := s.due instant ∧ ¬ instant ≤ now

end Standing

/-- One task gets another standing, the others keep theirs. -/
def Moves (device : String) (t : TaskId) (f : Standing → Standing) (c c' : Cluster) : Prop :=
  ∀ u, standing device c' u = if u = t then f (standing device c u) else standing device c u

/-- Every task is known by its number, and the only thing that tasks wait for is a command of their
device. -/
structure Tidy (c : Cluster) : Prop where
  nodup : c.ready.Nodup
  tasks : ∀ t task, c.tasks.get? t = some task → t < c.nextTask
  ready : ∀ t ∈ c.ready, t < c.nextTask
  timers : ∀ e ∈ c.timers, e.2 < c.nextTask
  parked : ∀ e ∈ c.parked, ∃ device, e.1 = .queued 0 device ∧
    c.tasks.get? e.2 = some (.consumer 0 device)
  results : ∀ e ∈ c.results, e.1 < c.nextTask

theorem tidy_start (supply : Supply) (settings : ServerSettings) :
    Tidy (start supply settings) where
  nodup := List.nodup_nil
  tasks := by simp [start, addProcess, Table.get?]
  ready := nofun
  timers := nofun
  parked := nofun
  results := nofun

section Moves
variable {device : String} {c c₁ : Cluster} {t u : TaskId} {f : Standing → Standing}

theorem Moves.other (h : Moves device t f c c₁) (hu : u ≠ t) :
    standing device c₁ u = standing device c u := (h u).trans (if_neg hu)

/-- A task is about to have its turn. -/
def take (c : Cluster) (t : TaskId) : Cluster := { c with ready := c.ready.erase t }

theorem moves_take (device : String) (h : c.ready.Nodup) (t : TaskId) :
    Moves device t .taken c (take c t) := by
  intro u
  have hready : u ∈ c.ready.erase t ↔ u ≠ t ∧ u ∈ c.ready := h.mem_erase_iff
  simp only [standing, take, hready]
  split
  · rename_i hu
    simp [Standing.taken, hu]
  · rename_i hu
    simp [hu]

theorem moves_setTimer (device : String) (c : Cluster) (t : TaskId) (due : Nat) :
    Moves device t (·.timed due) c (c.setTimer t due) := by
  intro u
  simp only [standing, setTimer, clearTimer, List.mem_append, List.mem_filter, List.mem_singleton,
    Prod.mk.injEq, decide_eq_true_eq]
  split
  · rename_i hu
    simp [Standing.timed, hu]
  · rename_i hu
    simp [hu]

theorem moves_park (device : String) (c : Cluster) (t : TaskId) (other : String) :
    Moves device t (·.parked (other = device)) c (c.park t (.queued 0 other)) := by
  intro u
  have hmem : (.queued 0 device, u) ∈ (c.park t (.queued 0 other)).parked ↔
      (.queued 0 device, u) ∈ c.parked ∨ (device = other ∧ u = t) := by
    unfold park
    split
    · rename_i hparked
      refine ⟨Or.inl, fun h => h.elim id ?_⟩
      rintro ⟨rfl, rfl⟩
      exact hparked
    · simp
  obtain ⟨parked, he⟩ := c.park_eq t (.queued 0 other)
  have hrest : (c.park t (.queued 0 other)).tasks = c.tasks ∧
      (c.park t (.queued 0 other)).ready = c.ready ∧
      (c.park t (.queued 0 other)).timers = c.timers := by
    rw [he]
    exact ⟨rfl, rfl, rfl⟩
  simp only [standing, hmem, hrest]
  split
  · rename_i hu
    simp [Standing.parked, hu, eq_comm]
  · rename_i hu
    simp [hu]

theorem moves_remove (device : String) (c : Cluster) (t : TaskId) :
    Moves device t (fun _ => .ended) c (c.remove t) := by
  intro u
  simp only [standing, remove, clearTimer, List.mem_filter, decide_eq_true_eq, Table.get?_erase]
  split
  · rename_i hu
    simp [Standing.ended, hu]
  · rename_i hu
    simp [hu]

/-- Whoever waits for a command of the device is woken. -/
theorem standing_notify (device : String) (c : Cluster) (u : TaskId) :
    standing device (c.notify (.queued 0 device)) u = (standing device c u).woken := by
  have hready := mem_ready_notify c (.queued 0 device) u
  obtain ⟨woken, he⟩ := c.notify_eq (.queued 0 device)
  have hrest : (c.notify (.queued 0 device)).tasks = c.tasks ∧
      (c.notify (.queued 0 device)).timers = c.timers ∧
      (c.notify (.queued 0 device)).parked =
        c.parked.filter fun e => e.1 ≠ .queued 0 device := by
    rw [he]
    exact ⟨rfl, rfl, rfl⟩
  simp only [standing, hready, hrest, Standing.woken]
  simp

/-- What is put on another queue wakes nobody who does not wait for it. -/
theorem standing_notify_other {other : String} (hne : other ≠ device)
    (hu : (.queued 0 other, u) ∉ c.parked) :
    standing device (c.notify (.queued 0 other)) u = standing device c u := by
  have hready := mem_ready_notify c (.queued 0 other) u
  obtain ⟨woken, he⟩ := c.notify_eq (.queued 0 other)
  have hrest : (c.notify (.queued 0 other)).tasks = c.tasks ∧
      (c.notify (.queued 0 other)).timers = c.timers ∧
      (c.notify (.queued 0 other)).parked =
        c.parked.filter fun e => e.1 ≠ .queued 0 other := by
    rw [he]
    exact ⟨rfl, rfl, rfl⟩
  simp only [standing, hready, hrest, hu, or_false]
  simp [Ne.symm hne]

theorem standing_spawn (device : String) (c : Cluster) (task : Task) (u : TaskId)
    (hu : u ≠ c.nextTask) :
    standing device (c.spawn task).1 u = standing device c u := by
  simp only [standing, spawn, List.mem_append, List.mem_singleton, hu, or_false,
    Table.get?_put_of_ne _ _ hu]

/-- Who is new can go on. -/
theorem standing_born (device : String) (h : Tidy c) (task : Task) :
    standing device (c.spawn task).1 c.nextTask = ⟨some task, True, False, fun _ => False⟩ := by
  have hparked : (.queued 0 device, c.nextTask) ∉ c.parked := by
    intro hmem
    obtain ⟨other, -, hget⟩ := h.parked _ hmem
    exact Nat.lt_irrefl _ (h.tasks _ _ hget)
  have htimers (due : Nat) : (due, c.nextTask) ∉ c.timers :=
    fun hmem => Nat.lt_irrefl _ (h.timers _ hmem)
  simp [standing, spawn, hparked, htimers]

theorem standing_fire (device : String) (c : Cluster) (u : TaskId) :
    standing device c.fire u = (standing device c u).later c.now := by
  obtain ⟨woken, he, hm⟩ := fire_eq c
  rw [he]
  simp [standing, Standing.later, List.mem_append.symm.trans (hm u)]

/-- No timer is due, so nothing becomes of the instant that has come. -/
theorem later_now (h : Keeping c) (device : String) (u : TaskId) :
    (standing device c u).later c.now = standing device c u := by
  have hahead (due : Nat) (hmem : (due, u) ∈ c.timers) : ¬ due ≤ c.now :=
    Nat.not_le_of_lt (h.ahead _ hmem)
  simp only [Standing.later, standing]
  congr 1
  · refine propext (or_iff_left ?_)
    rintro ⟨due, hmem, hle⟩
    exact hahead due hmem hle
  · exact funext fun due => propext (and_iff_left_of_imp (hahead due))

theorem pass_of_idle (hr : c.ready = []) (ms : Nat) :
    ∃ now, c.pass ms = ({ c with now := now } : Cluster).fire := by
  unfold pass
  rw [if_pos hr]
  cases hd : c.nextDue? with
  | some due => exact ⟨_, rfl⟩
  | none =>
    have hn : c.timers = [] := by simpa [nextDue?] using hd
    refine ⟨c.now + ms, ?_⟩
    simp [fire, hn]

/-- As time passes, whoever waited for an instant that has come goes on. -/
theorem standing_pass (h : Keeping c) (device : String) (ms : Nat) (u : TaskId) :
    standing device (c.pass ms) u = (standing device c u).later (c.pass ms).now := by
  by_cases hr : c.ready = []
  · obtain ⟨now, he⟩ := pass_of_idle hr ms
    have hnow : (fire { c with now := now }).now = now := by
      obtain ⟨woken, hfire, -⟩ := fire_eq { c with now := now }
      rw [hfire]
    rw [he, hnow]
    exact standing_fire device { c with now := now } u
  · rw [pass_of_ready hr]
    exact (later_now h device u).symm

/-- Time goes on as far as it should if no timer is set for an instant before. -/
theorem now_pass (hr : c.ready = []) {ms : Nat} (h : ∀ e ∈ c.timers, c.now + ms ≤ e.1) :
    (c.pass ms).now = c.now + ms := by
  unfold pass
  rw [if_pos hr]
  cases hd : c.nextDue? with
  | none => rfl
  | some due =>
    obtain ⟨e, he, rfl⟩ := List.mem_map.mp (List.min?_mem hd)
    obtain ⟨woken, hfire, -⟩ := fire_eq { c with now := max c.now (min (c.now + ms) e.1) }
    dsimp only
    rw [hfire, Nat.min_eq_left (h e he)]
    exact Nat.max_eq_right (Nat.le_add_right ..)

theorem now_pass_zero (c : Cluster) : (c.pass 0).now = c.now := by
  by_cases hr : c.ready = []
  · unfold pass
    rw [if_pos hr]
    cases c.nextDue? with
    | none => rfl
    | some due =>
      obtain ⟨woken, hfire, -⟩ := fire_eq { c with now := max c.now (min (c.now + 0) due) }
      dsimp only
      rw [hfire]
      exact Nat.max_eq_left (Nat.min_le_left ..)
  · rw [pass_of_ready hr]

end Moves

section Quiet
variable {c : Cluster}

theorem notify_quiet {s : Signal} (h : ∀ e ∈ c.parked, e.1 ≠ s) : c.notify s = c := by
  have hwoken : (c.parked.filter fun e => e.1 = s) = [] :=
    List.filter_eq_nil_iff.mpr fun e he => by simpa using h e he
  have hparked : (c.parked.filter fun e => e.1 ≠ s) = c.parked :=
    List.filter_eq_self.mpr fun e he => by simpa using h e he
  unfold notify
  rw [hwoken, hparked]
  rfl

/-- Nobody waits for anything but a command. -/
theorem Tidy.quiet (h : Tidy c) {s : Signal} (hs : ∀ device, s ≠ .queued 0 device) :
    c.notify s = c := by
  refine notify_quiet fun e he hes => ?_
  obtain ⟨device, hqueued, -⟩ := h.parked e he
  exact hs device (hes.symm.trans hqueued)

/-- The engine does something. -/
def operate (c : Cluster) (op : Engine.Op) : Cluster := c.setEngine 0 ((c.engine 0).apply op)

theorem Tidy.setEngine (h : Tidy c) (e : Engine) : Tidy (c.setEngine 0 e) :=
  ⟨h.nodup, h.tasks, h.ready, h.timers, h.parked, h.results⟩

theorem Tidy.operate (h : Tidy c) (op : Engine.Op) : Tidy (operate c op) := h.setEngine _

theorem Tidy.take (h : Tidy c) (t : TaskId) : Tidy (take c t) :=
  ⟨h.nodup.erase t, h.tasks, fun u hu => h.ready u (List.mem_of_mem_erase hu), h.timers, h.parked,
    h.results⟩

theorem Tidy.remove (h : Tidy c) (t : TaskId) : Tidy (c.remove t) := by
  have hget {u : TaskId} {task : Task} (hu : u ≠ t) (hget : c.tasks.get? u = some task) :
      (c.remove t).tasks.get? u = some task := (Table.get?_erase_of_ne _ hu).trans hget
  refine ⟨h.nodup.filter _, fun u task hu => ?_, fun u hu => h.ready u (List.mem_filter.mp hu).1,
    fun e he => h.timers e (List.mem_filter.mp he).1, fun e he => ?_, h.results⟩
  · change (c.tasks.erase t).get? u = some task at hu
    rw [Table.get?_erase] at hu
    split at hu
    · cases hu
    · exact h.tasks u task hu
  · obtain ⟨hmem, hne⟩ := List.mem_filter.mp he
    obtain ⟨device, hqueued, htask⟩ := h.parked e hmem
    exact ⟨device, hqueued, hget (by simpa using hne) htask⟩

theorem Tidy.finish (h : Tidy c) (t : TaskId) : c.finish t = c.remove t :=
  (h.remove t).quiet (s := .ended t) nofun

theorem Tidy.setTimer (h : Tidy c) {t : TaskId} (ht : t < c.nextTask) (due : Nat) :
    Tidy (c.setTimer t due) := by
  refine ⟨h.nodup, h.tasks, h.ready, fun e he => ?_, h.parked, h.results⟩
  rcases List.mem_append.mp he with he | he
  · exact h.timers e (List.mem_filter.mp he).1
  · rw [List.mem_singleton.mp he]
    exact ht

theorem Tidy.park (h : Tidy c) {t : TaskId} {device : String}
    (ht : c.tasks.get? t = some (.consumer 0 device)) : Tidy (c.park t (.queued 0 device)) := by
  unfold Cluster.park
  split
  · exact h
  · refine ⟨h.nodup, h.tasks, h.ready, h.timers, fun e he => ?_, h.results⟩
    rcases List.mem_append.mp he with he | he
    · exact h.parked e he
    · rw [List.mem_singleton.mp he]
      exact ⟨device, rfl, ht⟩

theorem Tidy.deliver (h : Tidy c) {t : TaskId} (ht : t < c.nextTask) (r : TaskResult) :
    Tidy (c.deliver t r) := by
  refine ⟨h.nodup, h.tasks, h.ready, h.timers, h.parked, fun e he => ?_⟩
  rcases List.mem_append.mp he with he | he
  · exact h.results e he
  · rw [List.mem_singleton.mp he]
    exact ht

theorem nodup_wake (h : c.ready.Nodup) (t : TaskId) : (c.wake t).ready.Nodup := by
  unfold wake
  split
  · exact h
  · rename_i ht
    exact List.concat_eq_append ▸ h.concat ht

theorem nodup_foldl_wake (c : Cluster) (ts : List TaskId) (h : c.ready.Nodup) :
    (ts.foldl wake c).ready.Nodup := by
  induction ts generalizing c with
  | nil => exact h
  | cons t ts ih => exact ih (c.wake t) (nodup_wake h t)

theorem Tidy.notify (h : Tidy c) (s : Signal) : Tidy (c.notify s) := by
  have hnodup : (c.notify s).ready.Nodup := by
    unfold Cluster.notify
    exact nodup_foldl_wake _ _ h.nodup
  have hready (u : TaskId) (hu : u ∈ (c.notify s).ready) : u < c.nextTask := by
    rcases (mem_ready_notify c s u).mp hu with hu | hu
    · exact h.ready u hu
    · obtain ⟨device, -, hget⟩ := h.parked _ hu
      exact h.tasks _ _ hget
  obtain ⟨woken, he⟩ := c.notify_eq s
  rw [he] at hnodup hready ⊢
  exact ⟨hnodup, h.tasks, hready, h.timers, fun e he => h.parked e (List.mem_filter.mp he).1,
    h.results⟩

theorem Tidy.spawn (h : Tidy c) (task : Task) : Tidy (c.spawn task).1 := by
  have hlt {u : TaskId} (hu : u < c.nextTask) : u < c.nextTask + 1 := Nat.lt_succ_of_lt hu
  refine ⟨?_, fun u other hu => ?_, fun u hu => ?_, fun e he => hlt (h.timers e he),
    fun e he => ?_, fun e he => hlt (h.results e he)⟩
  · change (c.ready ++ [c.nextTask]).Nodup
    exact List.concat_eq_append ▸ h.nodup.concat fun hu => Nat.lt_irrefl _ (h.ready _ hu)
  · change (c.tasks.put c.nextTask task).get? u = some other at hu
    rw [Table.get?_put] at hu
    split at hu
    · rename_i hnew
      exact hnew ▸ Nat.lt_succ_self _
    · exact hlt (h.tasks u other hu)
  · rcases List.mem_append.mp hu with hu | hu
    · exact hlt (h.ready u hu)
    · rw [List.mem_singleton.mp hu]
      exact Nat.lt_succ_self _
  · obtain ⟨device, hqueued, hget⟩ := h.parked e he
    have hne : e.2 ≠ c.nextTask := Nat.ne_of_lt (h.tasks _ _ hget)
    exact ⟨device, hqueued, (Table.get?_put_of_ne _ _ hne).trans hget⟩

theorem Tidy.pass (h : Tidy c) (ms : Nat) : Tidy (c.pass ms) := by
  by_cases hr : c.ready = []
  · obtain ⟨now, he⟩ := pass_of_idle hr ms
    rw [he]
    have hnodup : (fire { c with now := now }).ready.Nodup := by
      rw [fire_foldl]
      exact nodup_foldl_wake _ _ h.nodup
    obtain ⟨woken, hfire, hmem⟩ := fire_eq { c with now := now }
    rw [hfire] at hnodup ⊢
    refine ⟨hnodup, h.tasks, fun u hu => ?_, fun e he => h.timers e (List.mem_filter.mp he).1,
      h.parked, h.results⟩
    rcases (hmem u).mp hu with hu | ⟨due, hdue, -⟩
    · exact h.ready u hu
    · exact h.timers _ hdue
  · rw [pass_of_ready hr]
    exact h

/-- Nobody waits for the outcome of a command. -/
theorem expire_eq (h : Tidy c) (id : Uuid) : c.expire 0 id = operate c (.expire id) := by
  unfold expire Cluster.decide
  dsimp only
  split
  · exact (h.operate (.expire id)).quiet (s := .decided 0 id) (by simp)
  · rfl

/-- A task has its turn: its time limit has come or it waits for that, it is handed a command or
waits for one, or it is over already. -/
theorem give_eq (h : Tidy c) (hk : Keeping c) {t : TaskId} (ht : t ∈ c.ready) :
    c.give t =
      match c.tasks.get? t with
      | some (.expiry _ id due) =>
        if due ≤ c.now then (operate (take c t) (.expire id)).remove t
        else (take c t).setTimer t due
      | some (.consumer _ device) =>
        match ((c.engine 0).popLive device).2 with
        | some item => ((operate (take c t) (.pop device)).deliver t (.item item)).remove t
        | none => (operate (take c t) (.pop device)).park t (.queued 0 device)
      | _ => (take c t).remove t := by
  have htaken := h.take t
  have hlt := h.ready t ht
  cases htask : c.tasks.get? t with
  | none => exact (give_absent ht htask).trans (htaken.finish t)
  | some task =>
    have hget : (take c t).tasks.get? t = some task := htask
    have hgive : c.give t = conclude t (turn (take c t) t) := give_of_mem ht
    obtain ⟨-, ⟨device, rfl⟩ | ⟨id, due, rfl, -⟩⟩ := hk.tasks t task htask
    · rw [hgive, turn, hget]
      change conclude t ((take c t).consumerTurn t 0 device) = _
      unfold consumerTurn Cluster.popLive
      have hengine : (take c t).engine 0 = c.engine 0 := rfl
      have hoperate : operate (take c t) (.pop device) =
          (take c t).setEngine 0 ((c.engine 0).popLive device).1 := rfl
      rw [hengine]
      dsimp only
      rw [hoperate]
      cases (c.engine 0).popLive device with
      | mk e item =>
        cases item with
        | some item => exact ((htaken.setEngine e).deliver hlt (.item item)).finish t
        | none => rfl
    · rw [hgive, turn, hget]
      change conclude t ((take c t).expiryTurn t 0 id due) = _
      have hnow : (take c t).now = c.now := rfl
      unfold expiryTurn
      rw [hnow]
      by_cases hdue : due ≤ c.now
      · dsimp only
        rw [if_pos hdue, if_pos hdue, expire_eq htaken]
        exact (htaken.operate (.expire id)).finish t
      · dsimp only
        rw [if_neg hdue, if_neg hdue]
        rfl

theorem Tidy.give (h : Tidy c) (hk : Keeping c) (t : TaskId) : Tidy (c.give t) := by
  by_cases ht : t ∈ c.ready
  · have hlt := h.ready t ht
    have htaken := h.take t
    rw [give_eq h hk ht]
    cases htask : c.tasks.get? t with
    | none => exact htaken.remove t
    | some task =>
      obtain ⟨-, ⟨device, rfl⟩ | ⟨id, due, rfl, -⟩⟩ := hk.tasks t task htask
      · dsimp only
        split
        · exact ((htaken.operate (.pop device)).deliver hlt _).remove t
        · exact (htaken.operate (.pop device)).park htask
      · dsimp only
        split
        · exact (htaken.operate (.expire id)).remove t
        · exact htaken.setTimer hlt due
  · rw [give_of_not_mem ht]
    exact h

/-- What is done to the engine alone. -/
theorem act_operate (h : Tidy c) {a : Act} {op : Engine.Op} (ha : a.op? = some op)
    (hback : ∀ item, a ≠ .requeue item) : act c a = operate c op := by
  have hquiet {s : Signal} (hs : ∀ device, s ≠ .queued 0 device) :
      (operate c op).notify s = operate c op := (h.operate op).quiet hs
  have hdecide (id : Uuid) {changed : Engine × Bool} (hc : c.setEngine 0 changed.1 = operate c op) :
      (c.decide 0 id changed).1 = operate c op := by
    unfold Cluster.decide
    dsimp only
    rw [hc]
    split
    · exact hquiet (s := .decided 0 id) (by simp)
    · rfl
  cases a <;> simp only [Act.op?, Option.some.injEq, reduceCtorEq] at ha <;> subst ha
  case mark id conn => rfl
  case unmark id => rfl
  case requeue item => exact absurd rfl (hback item)
  case resolve id outcome => exact hdecide id rfl
  case respond id ok result body => exact hdecide id rfl
  case fail conn =>
    change ((c.engine 0).failConnection conn).2.foldl (fun c id => c.notify (.decided 0 id))
      (operate c (.fail conn)) = _
    induction ((c.engine 0).failConnection conn).2 with
    | nil => rfl
    | cons id lost ih =>
      rw [List.foldl_cons, hquiet (s := .decided 0 id) (by simp)]
      exact ih

theorem Tidy.act (h : Tidy c) (hk : Keeping c) (a : Act) : Tidy (act c a) := by
  have hoperate {a : Act} {op : Engine.Op} (ha : a.op? = some op)
      (hback : ∀ item, a ≠ .requeue item) : Tidy (Lifetime.act c a) := by
    rw [act_operate h ha hback]
    exact h.operate op
  cases a with
  | enqueue device command blob timeout =>
    have hdrawn : Tidy c.freshId.1 :=
      ⟨h.nodup, h.tasks, h.ready, h.timers, h.parked, h.results⟩
    exact ((hdrawn.spawn (.expiry 0 c.freshId.2 (c.now + timeout))).setEngine _).notify _
  | consume device => exact h.spawn _
  | requeue item => exact (h.operate (.requeue item)).notify _
  | turn t => exact h.give hk t
  | pass ms => exact h.pass ms
  | _ => exact hoperate rfl nofun

end Quiet

end FleetControl.Cluster.Lifetime
