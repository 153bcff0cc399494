import FleetControl.Cluster.Environment
import FleetControl.Proofs.Cluster.Scheduling
import FleetControl.Proofs.Engine.Operation

/-! # How long a command is pending

One process whose engine is used in any order: commands are submitted, taken, marked, put back,
answered and lost with their connection, tasks get their turns in any order and time goes on in
between. Three things race to decide a command, its answer, the loss of the connection that it went
out on, and its time limit. -/
namespace FleetControl.Cluster.Lifetime

inductive Act where
  | enqueue (device : String) (command : Command) (blob : Option ByteArray) (timeout : Nat)
  | consume (device : String)
  | mark (id conn : Uuid)
  | unmark (id : Uuid)
  | requeue (item : QueuedCommand)
  | resolve (id : Uuid) (outcome : CommandOutcome)
  | respond (id : Uuid) (ok : Bool) (result : Json) (body : Option ByteArray)
  | fail (conn : Uuid)
  | turn (t : TaskId)
  | pass (ms : Nat)

def act (c : Cluster) : Act → Cluster
  | .enqueue device command blob timeout => (c.enqueue 0 device command blob timeout).1
  | .consume device => (c.consume 0 device).1
  | .mark id conn => c.setEngine 0 ((c.engine 0).markSent id conn).1
  | .unmark id => c.setEngine 0 ((c.engine 0).unmark id)
  | .requeue item => c.requeueFront 0 item
  | .resolve id outcome => (c.resolve 0 id outcome).1
  | .respond id ok result body => (c.resolveResponse 0 id ok result body).1
  | .fail conn => (c.failConnection 0 conn).1
  | .turn t => c.give t
  | .pass ms => c.pass ms

def play (c : Cluster) : List Act → Cluster
  | [] => c
  | a :: as => play (act c a) as

def start (supply : Supply) (settings : ServerSettings) : Cluster :=
  ({ supply } : Cluster).addProcess settings

/-- How many commands are submitted. -/
def submissions : List Act → Nat
  | [] => 0
  | .enqueue .. :: as => submissions as + 1
  | _ :: as => submissions as

/-- The first `n` identifiers of a supply differ from each other. -/
def Apart (supply : Supply) (n : Nat) : Prop :=
  ∀ i j, i < j → j < n → supply.idOf i ≠ supply.idOf j

/-- The command whose time limit a task keeps. -/
def limit? (c : Cluster) (t : TaskId) : Option Uuid :=
  match c.tasks.get? t with
  | some (.expiry _ id _) => some id
  | _ => none

/-- The outcome that an act gives to command `id`, pending as `p`: an answer that names it, the loss
of the connection that owns it, or the instant of its deadline. -/
def decision? (c : Cluster) (id : Uuid) (p : Pending) : Act → Option CommandOutcome
  | .resolve i outcome => if i = id then some outcome else none
  | .respond i ok result body => if i = id then some (p.answer ok result body) else none
  | .fail conn => if p.owner = some conn then some p.lost else none
  | .turn t =>
    if t ∈ c.ready ∧ limit? c t = some id ∧ c.now = p.deadline then some p.timedOut else none
  | _ => none

/-- Who owns the command behind an act that does not decide it. -/
def track (id : Uuid) (p : Pending) : Act → Pending
  | .mark i conn => if i = id then { p with owner := some conn } else p
  | .unmark i => if i = id then { p with owner := none } else p
  | .requeue item => if item.id = id then { p with owner := none } else p
  | _ => p

/-- The outcome that the first deciding act gives to a command. -/
def fate? (id : Uuid) (c : Cluster) (p : Pending) : List Act → Option CommandOutcome
  | [] => none
  | a :: as =>
    match decision? c id p a with
    | some outcome => some outcome
    | none => fate? id (act c a) (track id p a) as

/-- Every pending command has a task that will end it in time. -/
structure Keeping (c : Cluster) : Prop where
  process : c.processes.has 0 = true
  sound : (c.engine 0).Sound
  known : ∀ id k, (c.engine 0).completions.get? id = some k → ∃ i < c.drawn, c.supply.idOf i = id
  tasks : ∀ t task, c.tasks.get? t = some task → t < c.nextTask ∧
    ((∃ device, task = .consumer 0 device) ∨
      ∃ id due, task = .expiry 0 id due ∧ ∃ i < c.drawn, c.supply.idOf i = id)
  guarded : ∀ id p, (c.engine 0).pending.get? id = some p → ∃ t,
    c.tasks.get? t = some (.expiry 0 id p.deadline) ∧
      (t ∈ c.ready ∨ (p.deadline, t) ∈ c.timers)
  agreed : ∀ t id due p, c.tasks.get? t = some (.expiry 0 id due) →
    (c.engine 0).pending.get? id = some p → due = p.deadline
  punctual : ∀ id p, (c.engine 0).pending.get? id = some p → c.now ≤ p.deadline
  ahead : ∀ e ∈ c.timers, c.now < e.1

theorem keeping_start (supply : Supply) (settings : ServerSettings) :
    Keeping (start supply settings) where
  process := rfl
  sound := Engine.sound_empty
  known := by simp [start, addProcess, engine, Table.get?, Table.put, Process.fresh]
  tasks := by simp [start, addProcess, Table.get?]
  guarded := by simp [start, addProcess, engine, Table.get?, Table.put, Process.fresh]
  agreed := by simp [start, addProcess, Table.get?]
  punctual := by simp [start, addProcess, engine, Table.get?, Table.put, Process.fresh]
  ahead := by simp [start, addProcess]

/-- An engine after one that submitted nothing in between. -/
structure Descends (e e' : Engine) : Prop where
  sound : e'.Sound
  known : ∀ id k, e'.completions.get? id = some k → ∃ k', e.completions.get? id = some k'
  pending : ∀ id q, e'.pending.get? id = some q →
    ∃ p, e.pending.get? id = some p ∧ q.deadline = p.deadline

theorem descends_refl {e : Engine} (hs : e.Sound) : Descends e e :=
  ⟨hs, fun _ k h => ⟨k, h⟩, fun _ q h => ⟨q, h, rfl⟩⟩

theorem descends_apply {e : Engine} (hs : e.Sound) {op : Engine.Op} (hn : op.submits? = none) :
    Descends e (e.apply op) := by
  have hf : op.Fresh e := by cases op <;> simp_all [Engine.Op.Fresh, Engine.Op.submits?]
  refine ⟨Engine.sound_apply hs op hf, ?_, ?_⟩
  · intro id k hk
    cases hp : e.pending.get? id with
    | none =>
      have hne : op.submits? ≠ some id := by simp [hn]
      exact ⟨k, (Engine.apply_not_pending hs hp hne).2.symm.trans hk⟩
    | some p => exact ⟨_, hs.unresolved id p hp⟩
  · intro id q hq
    obtain ⟨p, hp, -, rfl⟩ := Engine.pending_origin hs hn hq
    refine ⟨p, hp, ?_⟩
    cases op <;> simp only [Engine.Op.marks] <;> split <;> rfl

/-- Nothing is submitted, no time passes and no task starts; the task of a pending command goes on
or waits for its time. -/
theorem Keeping.descend {c c' : Cluster} (h : Keeping c)
    (hd : Descends (c.engine 0) (c'.engine 0))
    (hprocess : c'.processes.has 0 = true)
    (hsame : c'.supply = c.supply ∧ c'.drawn = c.drawn ∧ c'.now = c.now ∧
      c'.nextTask = c.nextTask)
    (htasks : ∀ t task, c'.tasks.get? t = some task → c.tasks.get? t = some task)
    (hguards : ∀ t id due, c.tasks.get? t = some (.expiry 0 id due) →
      (∃ q, (c'.engine 0).pending.get? id = some q) → (t ∈ c.ready ∨ (due, t) ∈ c.timers) →
      c'.tasks.get? t = some (.expiry 0 id due) ∧ (t ∈ c'.ready ∨ (due, t) ∈ c'.timers))
    (hahead : ∀ e ∈ c'.timers, c.now < e.1) : Keeping c' := by
  obtain ⟨hsupply, hdrawn, hnow, hnext⟩ := hsame
  refine ⟨hprocess, hd.sound, ?_, ?_, ?_, ?_, ?_, ?_⟩
  · intro id k hk
    obtain ⟨k', hk'⟩ := hd.known id k hk
    rw [hdrawn, hsupply]
    exact h.known id k' hk'
  · intro t task ht
    rw [hdrawn, hsupply, hnext]
    exact h.tasks t task (htasks t task ht)
  · intro id q hq
    obtain ⟨p, hp, he⟩ := hd.pending id q hq
    obtain ⟨t, ht, hw⟩ := h.guarded id p hp
    rw [he]
    exact ⟨t, hguards t id p.deadline ht ⟨q, hq⟩ hw⟩
  · intro t id due q ht hq
    obtain ⟨p, hp, he⟩ := hd.pending id q hq
    rw [he]
    exact h.agreed t id due p (htasks t _ ht) hp
  · intro id q hq
    obtain ⟨p, hp, he⟩ := hd.pending id q hq
    rw [he, hnow]
    exact h.punctual id p hp
  · intro e he
    rw [hnow]
    exact hahead e he

/-- The engine does something and tasks are woken. -/
theorem Keeping.operate {c : Cluster} (h : Keeping c) {op : Engine.Op} (hn : op.submits? = none)
    (woken : List TaskId) (parked : List (Signal × TaskId)) :
    Keeping { c.setEngine 0 ((c.engine 0).apply op) with
      ready := c.ready ++ woken, parked := parked } := by
  have hengine : (c.setEngine 0 ((c.engine 0).apply op)).engine 0 = (c.engine 0).apply op := by
    rw [engine_setEngine, if_pos ⟨rfl, h.process⟩]
  have hprocess : (c.setEngine 0 ((c.engine 0).apply op)).processes.has 0 = true :=
    (has_setEngine c 0 0 _).trans h.process
  refine h.descend ?_ hprocess ⟨rfl, rfl, rfl, rfl⟩ (fun _ _ ht => ht) ?_ h.ahead
  · change Descends (c.engine 0) ((c.setEngine 0 ((c.engine 0).apply op)).engine 0)
    rw [hengine]
    exact descends_apply h.sound hn
  · rintro t id due ht - (hr | hr)
    · exact ⟨ht, Or.inl (List.mem_append_left woken hr)⟩
    · exact ⟨ht, Or.inr hr⟩

/-- What an act does to the engine at once. -/
def Act.op? : Act → Option Engine.Op
  | .mark id conn => some (.mark id conn)
  | .unmark id => some (.unmark id)
  | .requeue item => some (.requeue item)
  | .resolve id outcome => some (.resolve id outcome)
  | .respond id ok result body => some (.respond id ok result body)
  | .fail conn => some (.fail conn)
  | _ => none

theorem Act.submits_op {a : Act} {op : Engine.Op} (h : a.op? = some op) : op.submits? = none := by
  cases a <;> simp only [Act.op?, Option.some.injEq, reduceCtorEq] at h <;> subst h <;> rfl

theorem decide_eq (c : Cluster) (id : Uuid) (changed : Engine × Bool) : ∃ woken parked,
    (c.decide 0 id changed).1 =
      { c.setEngine 0 changed.1 with ready := c.ready ++ woken, parked := parked } := by
  unfold Cluster.decide
  cases changed.2 with
  | true =>
    obtain ⟨woken, h⟩ := (c.setEngine 0 changed.1).notify_eq (.decided 0 id)
    exact ⟨woken, _, h⟩
  | false => exact ⟨[], c.parked, by simp [setEngine, updateProcess]⟩

theorem act_eq (c : Cluster) {a : Act} {op : Engine.Op} (h : a.op? = some op) : ∃ woken parked,
    act c a = { c.setEngine 0 ((c.engine 0).apply op) with
      ready := c.ready ++ woken, parked := parked } := by
  cases a <;> simp only [Act.op?, Option.some.injEq, reduceCtorEq] at h <;> subst h
  case mark id conn => exact ⟨[], c.parked, by simp [act, Engine.apply, setEngine, updateProcess]⟩
  case unmark id => exact ⟨[], c.parked, by simp [act, Engine.apply, setEngine, updateProcess]⟩
  case requeue item =>
    obtain ⟨woken, h⟩ := (c.setEngine 0 ((c.engine 0).requeueFront item)).notify_eq
      (.queued 0 item.deviceId)
    exact ⟨woken, _, h⟩
  case resolve id outcome => exact decide_eq c id ((c.engine 0).resolve id outcome)
  case respond id ok result body =>
    exact decide_eq c id ((c.engine 0).resolveResponse id ok result body)
  case fail conn =>
    exact foldl_notify (fun id => .decided 0 id) ((c.engine 0).failConnection conn).2
      (c.setEngine 0 ((c.engine 0).failConnection conn).1)

theorem act_enqueue (c : Cluster) (device : String) (command : Command) (blob : Option ByteArray)
    (timeout : Nat) : ∃ woken parked,
    act c (.enqueue device command blob timeout) =
      { c.setEngine 0 ((c.engine 0).enqueue (c.supply.idOf c.drawn) device command blob timeout
          c.now) with
        drawn := c.drawn + 1
        tasks := c.tasks.put c.nextTask (.expiry 0 (c.supply.idOf c.drawn) (c.now + timeout))
        ready := c.ready ++ c.nextTask :: woken
        parked := parked
        nextTask := c.nextTask + 1 } := by
  let c' := { c.setEngine 0 ((c.engine 0).enqueue (c.supply.idOf c.drawn) device command blob
      timeout c.now) with
    drawn := c.drawn + 1
    tasks := c.tasks.put c.nextTask (.expiry 0 (c.supply.idOf c.drawn) (c.now + timeout))
    ready := c.ready ++ [c.nextTask]
    nextTask := c.nextTask + 1 }
  obtain ⟨woken, h⟩ := c'.notify_eq (.queued 0 device)
  refine ⟨woken, c'.parked.filter fun e => e.1 ≠ .queued 0 device, ?_⟩
  rw [List.append_cons]
  exact h

section Turns
variable {c : Cluster} {t : TaskId} (ht : t ∈ c.ready)
include ht

theorem give_absent (h : c.tasks.get? t = none) :
    c.give t = ({ c with ready := c.ready.erase t } : Cluster).finish t := by
  simp [give, ht, turn, h]

theorem give_due {id : Uuid} {due : Nat} (h : c.tasks.get? t = some (.expiry 0 id due))
    (hd : due ≤ c.now) : ∃ woken parked,
    c.give t = ({ c.setEngine 0 ((c.engine 0).apply (.expire id)) with
      ready := c.ready.erase t ++ woken, parked := parked } : Cluster).finish t := by
  obtain ⟨woken, parked, he⟩ := decide_eq { c with ready := c.ready.erase t } id
    ((c.engine 0).expire id)
  refine ⟨woken, parked, ?_⟩
  simp only [give, if_pos ht, turn, h, expiryTurn, if_pos hd]
  exact congrArg (fun c : Cluster => c.finish t) he

theorem give_early {id : Uuid} {due : Nat} (h : c.tasks.get? t = some (.expiry 0 id due))
    (hd : ¬ due ≤ c.now) :
    c.give t = ({ c with ready := c.ready.erase t } : Cluster).setTimer t due := by
  simp [give, ht, turn, h, expiryTurn, hd]

theorem give_consumer {device : String} (h : c.tasks.get? t = some (.consumer 0 device)) :
    (∃ results, c.give t = ({ c.setEngine 0 ((c.engine 0).apply (.pop device)) with
      ready := c.ready.erase t, results := results } : Cluster).finish t) ∨
    ∃ parked, c.give t = { c.setEngine 0 ((c.engine 0).apply (.pop device)) with
      ready := c.ready.erase t, parked := parked } := by
  have he : ({ c with ready := c.ready.erase t } : Cluster).engine 0 = c.engine 0 := rfl
  cases hp : ((c.engine 0).popLive device).2 with
  | some item =>
    left
    refine ⟨c.results ++ [(t, .item item)], ?_⟩
    simp only [give, if_pos ht, turn, h, consumerTurn, popLive, he, hp]
    rfl
  | none =>
    right
    obtain ⟨parked, hk⟩ := park_eq (({ c with ready := c.ready.erase t } : Cluster).setEngine 0
      ((c.engine 0).apply (.pop device))) t (.queued 0 device)
    refine ⟨parked, ?_⟩
    simp only [give, if_pos ht, turn, h, consumerTurn, popLive, he, hp]
    exact hk

end Turns

theorem Keeping.engine_setEngine {c : Cluster} (h : Keeping c) (e : Engine) :
    (c.setEngine 0 e).engine 0 = e := by
  rw [Cluster.engine_setEngine, if_pos ⟨rfl, h.process⟩]

/-- A task that keeps no time limit any more ends. -/
theorem Keeping.finish {c c' : Cluster} (h : Keeping c) {t : TaskId}
    (hd : Descends (c.engine 0) (c'.engine 0)) (hprocess : c'.processes.has 0 = true)
    (hsame : c'.supply = c.supply ∧ c'.drawn = c.drawn ∧ c'.now = c.now ∧ c'.nextTask = c.nextTask)
    (htasks : c'.tasks = c.tasks) (htimers : c'.timers = c.timers)
    (hready : ∀ u ∈ c.ready, u ≠ t → u ∈ c'.ready)
    (hover : ∀ id due, c.tasks.get? t = some (.expiry 0 id due) →
      (c'.engine 0).pending.get? id = none) : Keeping (c'.finish t) := by
  obtain ⟨woken, parked, hf⟩ := c'.finish_eq t
  rw [hf]
  refine h.descend hd hprocess hsame ?_ ?_ ?_
  · intro u task hu
    change (c'.tasks.erase t).get? u = some task at hu
    rw [Table.get?_erase] at hu
    split at hu
    · cases hu
    · rwa [htasks] at hu
  · intro u id due hu hpending hw
    obtain ⟨q, hq⟩ := hpending
    have hut : u ≠ t := by
      rintro rfl
      have hn := hover id due hu
      change (c'.engine 0).pending.get? id = some q at hq
      rw [hn] at hq
      cases hq
    constructor
    · change (c'.tasks.erase t).get? u = _
      rw [Table.get?_erase, if_neg hut, htasks]
      exact hu
    · rcases hw with hw | hw
      · exact Or.inl (List.mem_append_left _
          (List.mem_filter.mpr ⟨hready u hw hut, by simpa using hut⟩))
      · refine Or.inr (List.mem_filter.mpr ⟨htimers ▸ hw, by simpa using hut⟩)
  · intro e he
    exact h.ahead e (htimers ▸ (List.mem_filter.mp he).1)

/-- What a turn comes to: the task has none or is gone, a consumer leaves with a command or waits
on, the limit of a command has come or is still ahead. -/
inductive Given (c : Cluster) (t : TaskId) : Cluster → Prop where
  | asleep (ht : t ∉ c.ready) : Given c t c
  | absent (ht : t ∈ c.ready) (htask : c.tasks.get? t = none) :
    Given c t (({ c with ready := c.ready.erase t } : Cluster).finish t)
  | handed (device : String) (results : List (TaskId × TaskResult)) (ht : t ∈ c.ready)
      (htask : c.tasks.get? t = some (.consumer 0 device)) :
    Given c t (({ c.setEngine 0 ((c.engine 0).apply (.pop device)) with
      ready := c.ready.erase t, results := results } : Cluster).finish t)
  | waits (device : String) (parked : List (Signal × TaskId)) (ht : t ∈ c.ready)
      (htask : c.tasks.get? t = some (.consumer 0 device)) :
    Given c t { c.setEngine 0 ((c.engine 0).apply (.pop device)) with
      ready := c.ready.erase t, parked := parked }
  | due (id : Uuid) (due : Nat) (woken : List TaskId) (parked : List (Signal × TaskId))
      (ht : t ∈ c.ready) (htask : c.tasks.get? t = some (.expiry 0 id due)) (hd : due ≤ c.now) :
    Given c t (({ c.setEngine 0 ((c.engine 0).apply (.expire id)) with
      ready := c.ready.erase t ++ woken, parked := parked } : Cluster).finish t)
  | early (id : Uuid) (due : Nat) (ht : t ∈ c.ready)
      (htask : c.tasks.get? t = some (.expiry 0 id due)) (hd : c.now < due) :
    Given c t (({ c with ready := c.ready.erase t } : Cluster).setTimer t due)

theorem given_give {c : Cluster} (h : Keeping c) (t : TaskId) : Given c t (c.give t) := by
  by_cases ht : t ∈ c.ready
  · cases htask : c.tasks.get? t with
    | none => exact give_absent ht htask ▸ .absent ht htask
    | some task =>
      obtain ⟨-, ⟨device, rfl⟩ | ⟨id, due, rfl, -⟩⟩ := h.tasks t task htask
      · obtain ⟨results, hg⟩ | ⟨parked, hg⟩ := give_consumer ht htask
        · exact hg ▸ .handed device results ht htask
        · exact hg ▸ .waits device parked ht htask
      · by_cases hd : due ≤ c.now
        · obtain ⟨woken, parked, hg⟩ := give_due ht htask hd
          exact hg ▸ .due id due woken parked ht htask hd
        · exact give_early ht htask hd ▸ .early id due ht htask (Nat.lt_of_not_le hd)
  · exact (give_of_not_mem ht).symm ▸ .asleep ht

theorem engine_give {c : Cluster} (h : Keeping c) (t : TaskId) :
    ((c.give t).engine 0 = c.engine 0 ∧ ∀ id due, t ∈ c.ready →
      c.tasks.get? t = some (.expiry 0 id due) → c.now < due) ∨
    (∃ device, t ∈ c.ready ∧ c.tasks.get? t = some (.consumer 0 device) ∧
      (c.give t).engine 0 = (c.engine 0).apply (.pop device)) ∨
    ∃ id due, t ∈ c.ready ∧ c.tasks.get? t = some (.expiry 0 id due) ∧ due ≤ c.now ∧
      (c.give t).engine 0 = (c.engine 0).apply (.expire id) := by
  have hgiven := given_give h t
  generalize c.give t = c' at hgiven ⊢
  cases hgiven with
  | asleep ht => exact Or.inl ⟨rfl, fun _ _ hr => absurd hr ht⟩
  | absent ht htask =>
    refine Or.inl ⟨engine_finish .., fun id due _ he => ?_⟩
    rw [htask] at he
    cases he
  | handed device results ht htask =>
    refine Or.inr (Or.inl ⟨device, ht, htask, ?_⟩)
    rw [engine_finish]
    exact h.engine_setEngine _
  | waits device parked ht htask =>
    exact Or.inr (Or.inl ⟨device, ht, htask, h.engine_setEngine _⟩)
  | due id due woken parked ht htask hd =>
    refine Or.inr (Or.inr ⟨id, due, ht, htask, hd, ?_⟩)
    rw [engine_finish]
    exact h.engine_setEngine _
  | early id due ht htask hd =>
    refine Or.inl ⟨rfl, fun id' due' _ he => ?_⟩
    rw [htask] at he
    cases he
    exact hd

theorem keeping_give {c : Cluster} (h : Keeping c) (t : TaskId) : Keeping (c.give t) := by
  have hrest : ∀ u ∈ c.ready, u ≠ t → u ∈ c.ready.erase t := fun u hu hne =>
    (List.mem_erase_of_ne hne).mpr hu
  have hoperated : ∀ op : Engine.Op, op.submits? = none → Descends (c.engine 0)
      ((c.setEngine 0 ((c.engine 0).apply op)).engine 0) := by
    intro op hn
    rw [h.engine_setEngine]
    exact descends_apply h.sound hn
  have hprocess : ∀ e, (c.setEngine 0 e).processes.has 0 = true := fun e =>
    (has_setEngine c 0 0 e).trans h.process
  have hgiven := given_give h t
  generalize c.give t = c' at hgiven ⊢
  cases hgiven with
  | asleep => exact h
  | absent ht htask =>
    refine h.finish (descends_refl h.sound) h.process ⟨rfl, rfl, rfl, rfl⟩ rfl rfl hrest ?_
    intro id due he
    rw [htask] at he
    cases he
  | handed device results ht htask =>
    refine h.finish (hoperated (.pop device) rfl) (hprocess _) ⟨rfl, rfl, rfl, rfl⟩ rfl rfl hrest ?_
    intro id due he
    rw [htask] at he
    cases he
  | waits device parked ht htask =>
    refine h.descend (hoperated (.pop device) rfl) (hprocess _) ⟨rfl, rfl, rfl, rfl⟩
      (fun _ _ hu => hu) ?_ h.ahead
    rintro u id due hu - hw
    refine ⟨hu, hw.imp_left fun hr => hrest u hr ?_⟩
    rintro rfl
    rw [htask] at hu
    cases hu
  | due id due woken parked ht htask hd =>
    refine h.finish (hoperated (.expire id) rfl) (hprocess _) ⟨rfl, rfl, rfl, rfl⟩ rfl rfl ?_ ?_
    · intro u hu hne
      exact List.mem_append_left woken (hrest u hu hne)
    · intro id' due' htask'
      rw [htask] at htask'
      cases htask'
      change ((c.setEngine 0 ((c.engine 0).apply (.expire id))).engine 0).pending.get? id = none
      rw [h.engine_setEngine]
      exact Engine.pending_expire id
  | early id due ht htask hd =>
    refine h.descend (descends_refl h.sound) h.process ⟨rfl, rfl, rfl, rfl⟩ (fun _ _ hu => hu) ?_ ?_
    · rintro u id' due' hu - hw
      refine ⟨hu, ?_⟩
      by_cases hut : u = t
      · subst u
        rw [htask] at hu
        cases hu
        exact Or.inr (by simp [setTimer])
      · refine hw.imp (fun hr => hrest u hr hut) fun hw => ?_
        exact List.mem_append_left _ (List.mem_filter.mpr ⟨hw, by simpa using hut⟩)
    · intro e he
      simp only [setTimer, clearTimer, List.mem_append, List.mem_singleton] at he
      rcases he with he | rfl
      · exact h.ahead e (List.mem_filter.mp he).1
      · exact hd

theorem fresh_id {c : Cluster} (h : Keeping c) (hids : ∀ i < c.drawn,
    c.supply.idOf i ≠ c.supply.idOf c.drawn) :
    (c.engine 0).completions.get? (c.supply.idOf c.drawn) = none := by
  cases hc : (c.engine 0).completions.get? (c.supply.idOf c.drawn) with
  | none => rfl
  | some k =>
    obtain ⟨i, hi, he⟩ := h.known _ k hc
    exact absurd he (hids i hi)

theorem fresh_not_pending {c : Cluster} (h : Keeping c) (hids : ∀ i < c.drawn,
    c.supply.idOf i ≠ c.supply.idOf c.drawn) :
    (c.engine 0).pending.get? (c.supply.idOf c.drawn) = none := by
  cases hp : (c.engine 0).pending.get? (c.supply.idOf c.drawn) with
  | none => rfl
  | some p =>
    have hknown := h.sound.unresolved _ p hp
    rw [fresh_id h hids] at hknown
    cases hknown

theorem keeping_notify {c : Cluster} (h : Keeping c) (s : Signal) : Keeping (c.notify s) := by
  have hengine := engine_notify c 0 s
  obtain ⟨woken, he⟩ := c.notify_eq s
  rw [he] at hengine ⊢
  refine h.descend ?_ h.process ⟨rfl, rfl, rfl, rfl⟩ (fun _ _ ht => ht) ?_ h.ahead
  · rw [hengine]
    exact descends_refl h.sound
  · exact fun _ _ _ ht _ hw => ⟨ht, hw.imp_left (List.mem_append_left woken)⟩

theorem Keeping.draw {c : Cluster} (h : Keeping c) : Keeping { c with drawn := c.drawn + 1 } := by
  refine ⟨h.process, h.sound, ?_, ?_, h.guarded, h.agreed, h.punctual, h.ahead⟩
  · intro id k hk
    obtain ⟨i, hi, he⟩ := h.known id k hk
    exact ⟨i, Nat.lt_succ_of_lt hi, he⟩
  · intro t task ht
    obtain ⟨hlt, hkind⟩ := h.tasks t task ht
    refine ⟨hlt, hkind.imp_right ?_⟩
    rintro ⟨id, due, rfl, i, hi, he⟩
    exact ⟨id, due, rfl, i, Nat.lt_succ_of_lt hi, he⟩

/-- A task starts: a consumer, or one that keeps the limit of a command still to come. -/
theorem Keeping.spawn {c : Cluster} (h : Keeping c) {task : Task}
    (hkind : (∃ device, task = .consumer 0 device) ∨
      ∃ id due, task = .expiry 0 id due ∧ ∃ i < c.drawn, c.supply.idOf i = id)
    (hcoming : ∀ id due, task = .expiry 0 id due → (c.engine 0).pending.get? id = none) :
    Keeping (c.spawn task).1 := by
  have hput : ∀ t, (c.spawn task).1.tasks.get? t =
      if t = c.nextTask then some task else c.tasks.get? t :=
    fun t => Table.get?_put c.tasks c.nextTask t _
  refine ⟨h.process, h.sound, h.known, ?_, ?_, ?_, h.punctual, h.ahead⟩
  · intro t other ht
    change t < c.nextTask + 1 ∧ _
    rw [hput] at ht
    split at ht
    · rename_i hn
      cases ht
      exact ⟨hn ▸ Nat.lt_succ_self _, hkind⟩
    · obtain ⟨hlt, hother⟩ := h.tasks t other ht
      exact ⟨Nat.lt_succ_of_lt hlt, hother⟩
  · intro id p hp
    obtain ⟨t, ht, hw⟩ := h.guarded id p hp
    have hold : t ≠ c.nextTask := Nat.ne_of_lt (h.tasks t _ ht).1
    exact ⟨t, by rw [hput, if_neg hold]; exact ht, hw.imp_left (List.mem_append_left _)⟩
  · intro t id due p ht hp
    rw [hput] at ht
    split at ht
    · have hnone := hcoming id due (Option.some.inj ht)
      cases hnone.symm.trans hp
    · exact h.agreed t id due p ht hp

/-- A command is pending once a task keeps its limit. -/
theorem Keeping.enqueue {c : Cluster} (h : Keeping c) {id : Uuid} {t : TaskId} {timeout : Nat}
    (hf : (c.engine 0).completions.get? id = none) (hid : ∃ i < c.drawn, c.supply.idOf i = id)
    (ht : t ∈ c.ready) (hlimit : c.tasks.get? t = some (.expiry 0 id (c.now + timeout)))
    (honly : ∀ u due, c.tasks.get? u = some (.expiry 0 id due) → due = c.now + timeout)
    (device : String) (command : Command) (blob : Option ByteArray) :
    Keeping (c.setEngine 0 ((c.engine 0).enqueue id device command blob timeout c.now)) := by
  have hpend : ∀ j q, ((c.engine 0).enqueue id device command blob timeout c.now).pending.get? j =
      some q → (j = id ∧ q.deadline = c.now + timeout) ∨ (c.engine 0).pending.get? j = some q := by
    intro j q hq
    rw [Engine.pending_enqueue] at hq
    split at hq
    · rename_i hj
      cases hq
      exact Or.inl ⟨hj, rfl⟩
    · exact Or.inr hq
  refine ⟨(has_setEngine c 0 0 _).trans h.process, ?_, ?_, h.tasks, ?_, ?_, ?_, h.ahead⟩
  · rw [h.engine_setEngine]
    exact Engine.sound_apply h.sound (.enqueue id device command blob timeout c.now) hf
  · intro j k hk
    rw [h.engine_setEngine, Engine.completions_enqueue] at hk
    split at hk
    · rename_i hj
      exact hj ▸ hid
    · exact h.known j k hk
  · intro j q hq
    rw [h.engine_setEngine] at hq
    rcases hpend j q hq with ⟨rfl, hdue⟩ | hp
    · exact ⟨t, hdue ▸ hlimit, Or.inl ht⟩
    · exact h.guarded j q hp
  · intro u j due q hu hq
    rw [h.engine_setEngine] at hq
    rcases hpend j q hq with ⟨rfl, hdue⟩ | hp
    · exact (honly u due hu).trans hdue.symm
    · exact h.agreed u j due q hu hp
  · intro j q hq
    rw [h.engine_setEngine] at hq
    rcases hpend j q hq with ⟨-, hdue⟩ | hp
    · rw [hdue]
      exact Nat.le_add_right _ _
    · exact h.punctual j q hp

/-- A command is on its queue, and nobody was woken for it yet. -/
def submit (c : Cluster) (id : Uuid) (device : String) (command : Command)
    (blob : Option ByteArray) (timeout : Nat) : Cluster :=
  { (c.spawn (.expiry 0 id (c.now + timeout))).1.setEngine 0
      ((c.engine 0).enqueue id device command blob timeout c.now) with drawn := c.drawn + 1 }

theorem act_submit (c : Cluster) (device : String) (command : Command) (blob : Option ByteArray)
    (timeout : Nat) : act c (.enqueue device command blob timeout) =
      (submit c (c.supply.idOf c.drawn) device command blob timeout).notify (.queued 0 device) :=
  rfl

theorem keeping_submit {c : Cluster} (h : Keeping c)
    (hids : ∀ i < c.drawn, c.supply.idOf i ≠ c.supply.idOf c.drawn) (device : String)
    (command : Command) (blob : Option ByteArray) (timeout : Nat) :
    Keeping (submit c (c.supply.idOf c.drawn) device command blob timeout) := by
  have hfresh := fresh_id h hids
  have hid : ∃ i < c.drawn + 1, c.supply.idOf i = c.supply.idOf c.drawn :=
    ⟨c.drawn, Nat.lt_succ_self _, rfl⟩
  have hspawned := h.draw.spawn (Or.inr ⟨_, c.now + timeout, rfl, hid⟩) (by
    intro j due he
    cases he
    exact fresh_not_pending h hids)
  refine hspawned.enqueue hfresh hid (List.mem_append_right _ (List.mem_singleton_self _))
    (Table.get?_put_self _ _ _) ?_ device command blob
  -- an older task keeps the limit of a command that was submitted before
  intro u due hu
  change (c.tasks.put c.nextTask _).get? u = _ at hu
  rw [Table.get?_put] at hu
  split at hu
  · cases hu
    rfl
  · obtain ⟨-, ⟨device, hk⟩ | ⟨j, due', hk, i, hi, hj⟩⟩ := h.tasks u _ hu
    · cases hk
    · cases hk
      exact absurd hj (hids i hi)

theorem keeping_enqueue {c : Cluster} (h : Keeping c)
    (hids : ∀ i < c.drawn, c.supply.idOf i ≠ c.supply.idOf c.drawn) (device : String)
    (command : Command) (blob : Option ByteArray) (timeout : Nat) :
    Keeping (act c (.enqueue device command blob timeout)) := by
  rw [act_submit]
  exact keeping_notify (keeping_submit h hids device command blob timeout) _

theorem keeping_consume {c : Cluster} (h : Keeping c) (device : String) :
    Keeping (act c (.consume device)) :=
  h.spawn (Or.inl ⟨device, rfl⟩) (by simp)

theorem keeping_pass {c : Cluster} (h : Keeping c) (ms : Nat) : Keeping (c.pass ms) := by
  by_cases hr : c.ready = []
  · obtain ⟨now, woken, he, hle, hmax, hw⟩ := pass_eq hr ms
    have hwaits : ∀ id p, (c.engine 0).pending.get? id = some p → ∃ t,
        c.tasks.get? t = some (.expiry 0 id p.deadline) ∧ (p.deadline, t) ∈ c.timers := by
      intro id p hp
      obtain ⟨t, ht, hm | hm⟩ := h.guarded id p hp
      · rw [hr] at hm; cases hm
      · exact ⟨t, ht, hm⟩
    rw [he]
    refine ⟨h.process, h.sound, h.known, h.tasks, ?_, h.agreed, ?_, ?_⟩
    · intro id p hp
      obtain ⟨t, ht, hm⟩ := hwaits id p hp
      refine ⟨t, ht, ?_⟩
      by_cases hd : p.deadline ≤ now
      · exact Or.inl (hw _ hm hd)
      · exact Or.inr (List.mem_filter.mpr ⟨hm, by simpa using hd⟩)
    · intro id p hp
      obtain ⟨t, -, hm⟩ := hwaits id p hp
      have hnow : c.now ≤ p.deadline := h.punctual id p hp
      have hbound := hmax _ hm
      change now ≤ p.deadline
      omega
    · intro e hm
      have := (List.mem_filter.mp hm).2
      change now < e.1
      simpa using this
  · rw [pass_of_ready hr]
    exact h

theorem give_same {c : Cluster} (h : Keeping c) (t : TaskId) :
    (c.give t).supply = c.supply ∧ (c.give t).drawn = c.drawn := by
  have hfinish : ∀ c' : Cluster, (c'.finish t).supply = c'.supply ∧
      (c'.finish t).drawn = c'.drawn := by
    intro c'
    obtain ⟨woken, parked, he⟩ := c'.finish_eq t
    rw [he]
    exact ⟨rfl, rfl⟩
  have hgiven := given_give h t
  generalize c.give t = c' at hgiven ⊢
  cases hgiven with
  | asleep | waits | early => exact ⟨rfl, rfl⟩
  | absent | handed | due => exact hfinish _

theorem act_same {c : Cluster} (h : Keeping c) (a : Act) :
    (act c a).supply = c.supply ∧ (act c a).drawn = c.drawn + submissions [a] := by
  cases ha : a.op? with
  | some op =>
    obtain ⟨woken, parked, he⟩ := act_eq c ha
    rw [he]
    cases a <;> simp only [Act.op?, reduceCtorEq] at ha <;> exact ⟨rfl, rfl⟩
  | none =>
    cases a <;> simp only [Act.op?, reduceCtorEq] at ha
    case enqueue device command blob timeout =>
      obtain ⟨woken, parked, he⟩ := act_enqueue c device command blob timeout
      rw [he]
      exact ⟨rfl, rfl⟩
    case consume device => exact ⟨rfl, rfl⟩
    case turn t => exact give_same h t
    case pass ms =>
      by_cases hr : c.ready = []
      · obtain ⟨now, woken, he, -⟩ := pass_eq hr ms
        change (c.pass ms).supply = _ ∧ (c.pass ms).drawn = _
        rw [he]
        exact ⟨rfl, rfl⟩
      · change (c.pass ms).supply = _ ∧ (c.pass ms).drawn = _
        rw [pass_of_ready hr]
        exact ⟨rfl, rfl⟩

theorem keeping_act {c : Cluster} (h : Keeping c) {a : Act}
    (hids : Apart c.supply (c.drawn + submissions [a])) : Keeping (act c a) := by
  cases ha : a.op? with
  | some op =>
    obtain ⟨woken, parked, he⟩ := act_eq c ha
    rw [he]
    exact h.operate (Act.submits_op ha) woken parked
  | none =>
    cases a <;> simp only [Act.op?, reduceCtorEq] at ha
    case enqueue device command blob timeout =>
      exact keeping_enqueue h (fun i hi => hids i c.drawn hi (Nat.lt_succ_self _)) device command
        blob timeout
    case consume device => exact keeping_consume h device
    case turn t => exact keeping_give h t
    case pass ms => exact keeping_pass h ms

/-- An act leaves the engine alone or is one operation of it, and decides by that operation. -/
theorem engine_act {c : Cluster} (h : Keeping c) {a : Act}
    (hids : Apart c.supply (c.drawn + submissions [a])) :
    ((act c a).engine 0 = c.engine 0 ∧ ∀ id p, (c.engine 0).pending.get? id = some p →
      decision? c id p a = none ∧ track id p a = p) ∨
    ∃ op : Engine.Op, op.Fresh (c.engine 0) ∧ (act c a).engine 0 = (c.engine 0).apply op ∧
      ∀ id p, (c.engine 0).pending.get? id = some p →
        decision? c id p a = op.decides? id p ∧ track id p a = op.marks id p := by
  cases ha : a.op? with
  | some op =>
    obtain ⟨woken, parked, he⟩ := act_eq c ha
    have hn := Act.submits_op ha
    refine Or.inr ⟨op, ?_, ?_, ?_⟩
    · cases op <;> simp_all [Engine.Op.Fresh, Engine.Op.submits?]
    · rw [he]
      exact h.engine_setEngine _
    · intro id p _
      cases a <;> simp only [Act.op?, Option.some.injEq, reduceCtorEq] at ha <;> subst ha <;>
        exact ⟨rfl, rfl⟩
  | none =>
    cases a <;> simp only [Act.op?, reduceCtorEq] at ha
    case enqueue device command blob timeout =>
      obtain ⟨woken, parked, he⟩ := act_enqueue c device command blob timeout
      refine Or.inr ⟨.enqueue (c.supply.idOf c.drawn) device command blob timeout c.now,
        fresh_id h fun i hi => hids i c.drawn hi (Nat.lt_succ_self _), ?_, fun _ _ _ => ⟨rfl, rfl⟩⟩
      rw [he]
      exact h.engine_setEngine _
    case consume device => exact Or.inl ⟨rfl, fun _ _ _ => ⟨rfl, rfl⟩⟩
    case turn t =>
      rcases engine_give h t with
        ⟨he, hlate⟩ | ⟨device, ht, htask, he⟩ | ⟨i, due, ht, htask, hd, he⟩
      · refine Or.inl ⟨he, fun id p hp => ⟨?_, rfl⟩⟩
        refine if_neg ?_
        rintro ⟨ht, hl, hnow⟩
        cases htask : c.tasks.get? t with
        | none => simp [limit?, htask] at hl
        | some task =>
          obtain ⟨-, ⟨device, rfl⟩ | ⟨i, due, rfl, -⟩⟩ := h.tasks t task htask
          · simp [limit?, htask] at hl
          · obtain rfl : i = id := by simpa [limit?, htask] using hl
            have hdue := h.agreed t i due p htask hp
            have hlt := hlate i due ht htask
            omega
      · refine Or.inr ⟨.pop device, trivial, he, fun id p _ => ⟨?_, rfl⟩⟩
        refine if_neg ?_
        rintro ⟨-, hl, -⟩
        simp [limit?, htask] at hl
      · refine Or.inr ⟨.expire i, trivial, he, fun id p hp => ⟨?_, rfl⟩⟩
        by_cases hi : i = id
        · subst i
          have hdue := h.agreed t id due p htask hp
          have hnow := h.punctual id p hp
          have hinstant : c.now = p.deadline := by omega
          simp [decision?, Engine.Op.decides?, ht, limit?, htask, hinstant]
        · simp [decision?, Engine.Op.decides?, limit?, htask, hi]
    case pass ms =>
      refine Or.inl ⟨?_, fun _ _ _ => ⟨rfl, rfl⟩⟩
      change (c.pass ms).engine 0 = _
      by_cases hr : c.ready = []
      · obtain ⟨now, woken, he, -⟩ := pass_eq hr ms
        rw [he]
        rfl
      · rw [pass_of_ready hr]

/-- What an act does to a pending command. -/
theorem act_pending {c : Cluster} (h : Keeping c) {a : Act}
    (hids : Apart c.supply (c.drawn + submissions [a])) {id : Uuid} {p : Pending}
    (hp : (c.engine 0).pending.get? id = some p) :
    match decision? c id p a with
    | some outcome => ((act c a).engine 0).pending.get? id = none ∧
        ((act c a).engine 0).completions.get? id = some (.resolved outcome)
    | none => ((act c a).engine 0).pending.get? id = some (track id p a) ∧
        ((act c a).engine 0).completions.get? id = some .unresolved := by
  rcases engine_act h hids with ⟨he, hquiet⟩ | ⟨op, hf, he, hop⟩
  · obtain ⟨hd, ht⟩ := hquiet id p hp
    rw [hd, ht, he]
    exact ⟨hp, h.sound.unresolved id p hp⟩
  · obtain ⟨hd, ht⟩ := hop id p hp
    rw [hd, ht, he]
    exact Engine.apply_pending h.sound hf hp

/-- What is decided stays as it is. -/
theorem act_decided {c : Cluster} (h : Keeping c) {a : Act}
    (hids : Apart c.supply (c.drawn + submissions [a])) {id : Uuid} {k : Completion}
    (hp : (c.engine 0).pending.get? id = none)
    (hk : (c.engine 0).completions.get? id = some k) :
    ((act c a).engine 0).pending.get? id = none ∧
      ((act c a).engine 0).completions.get? id = some k := by
  rcases engine_act h hids with ⟨he, -⟩ | ⟨op, hf, he, -⟩
  · rw [he]
    exact ⟨hp, hk⟩
  · have hn : op.submits? ≠ some id := by
      intro hs
      rw [Engine.Op.submits_of_fresh hf hs] at hk
      cases hk
    rw [he]
    obtain ⟨hn, hc⟩ := Engine.apply_not_pending h.sound hp hn
    exact ⟨hn, hc.trans hk⟩

theorem submissions_cons (a : Act) (as : List Act) :
    submissions (a :: as) = submissions [a] + submissions as := by
  cases a <;> simp [submissions, Nat.add_comm]

theorem submissions_append (as bs : List Act) :
    submissions (as ++ bs) = submissions as + submissions bs := by
  induction as with
  | nil => simp [submissions]
  | cons a as ih =>
    rw [List.cons_append, submissions_cons, submissions_cons a as, ih, Nat.add_assoc]

theorem Apart.mono {supply : Supply} {m n : Nat} (h : Apart supply n) (hle : m ≤ n) :
    Apart supply m := fun i j hij hj => h i j hij (by omega)

/-- The first act of a run, with the identifiers of the whole run apart. -/
theorem keeping_first {c : Cluster} (h : Keeping c) {a : Act} {as : List Act}
    (hids : Apart c.supply (c.drawn + submissions (a :: as))) :
    Apart c.supply (c.drawn + submissions [a]) ∧ Keeping (act c a) ∧
      Apart (act c a).supply ((act c a).drawn + submissions as) := by
  rw [submissions_cons] at hids
  have hfirst := hids.mono (show c.drawn + submissions [a] ≤ _ by omega)
  obtain ⟨hsupply, hdrawn⟩ := act_same h a
  refine ⟨hfirst, keeping_act h hfirst, ?_⟩
  rw [hsupply, hdrawn, Nat.add_assoc]
  exact hids

theorem keeping_play {c : Cluster} (h : Keeping c) {as : List Act}
    (hids : Apart c.supply (c.drawn + submissions as)) :
    Keeping (play c as) ∧ (play c as).supply = c.supply ∧
      (play c as).drawn = c.drawn + submissions as := by
  induction as generalizing c with
  | nil => exact ⟨h, rfl, rfl⟩
  | cons a as ih =>
    obtain ⟨-, hk, hrest⟩ := keeping_first h hids
    obtain ⟨hk, hs, hd⟩ := ih hk hrest
    obtain ⟨hsupply, hdrawn⟩ := act_same h a
    refine ⟨hk, hs.trans hsupply, hd.trans ?_⟩
    rw [hdrawn, submissions_cons a as, Nat.add_assoc]

theorem play_decided {c : Cluster} (h : Keeping c) {as : List Act}
    (hids : Apart c.supply (c.drawn + submissions as)) {id : Uuid} {k : Completion}
    (hp : (c.engine 0).pending.get? id = none)
    (hk : (c.engine 0).completions.get? id = some k) :
    ((play c as).engine 0).pending.get? id = none ∧
      ((play c as).engine 0).completions.get? id = some k := by
  induction as generalizing c with
  | nil => exact ⟨hp, hk⟩
  | cons a as ih =>
    obtain ⟨hfirst, hkeep, hrest⟩ := keeping_first h hids
    obtain ⟨hp, hk⟩ := act_decided h hfirst hp hk
    exact ih hkeep hrest hp hk

theorem deadline_track (id : Uuid) (p : Pending) (a : Act) :
    (track id p a).deadline = p.deadline := by
  cases a <;> simp only [track] <;> split <;> rfl

/-- A command of a run is pending until its fate, and has the outcome of that from then on. -/
theorem play_pending {c : Cluster} (h : Keeping c) {as : List Act}
    (hids : Apart c.supply (c.drawn + submissions as)) {id : Uuid} {p : Pending}
    (hp : (c.engine 0).pending.get? id = some p) :
    match fate? id c p as with
    | some outcome => ((play c as).engine 0).pending.get? id = none ∧
        ((play c as).engine 0).completions.get? id = some (.resolved outcome)
    | none => (∃ q, ((play c as).engine 0).pending.get? id = some q ∧ q.deadline = p.deadline) ∧
        ((play c as).engine 0).completions.get? id = some .unresolved := by
  induction as generalizing c p with
  | nil => exact ⟨⟨p, hp, rfl⟩, h.sound.unresolved id p hp⟩
  | cons a as ih =>
    obtain ⟨hfirst, hkeep, hrest⟩ := keeping_first h hids
    have hstep := act_pending h hfirst hp
    simp only [fate?, play]
    cases hd : decision? c id p a with
    | some outcome =>
      rw [hd] at hstep
      exact play_decided hkeep hrest hstep.1 hstep.2
    | none =>
      rw [hd] at hstep
      have := ih hkeep hrest hstep.1
      rw [deadline_track] at this
      exact this

/-- Without a task that can go on, no pending command has reached its deadline. -/
theorem Keeping.early {c : Cluster} (h : Keeping c) (hr : c.ready = []) {id : Uuid} {p : Pending}
    (hp : (c.engine 0).pending.get? id = some p) : c.now < p.deadline := by
  obtain ⟨t, -, hm | hm⟩ := h.guarded id p hp
  · rw [hr] at hm; cases hm
  · exact h.ahead _ hm

theorem submitted {c : Cluster} (h : Keeping c)
    (hids : ∀ i < c.drawn, c.supply.idOf i ≠ c.supply.idOf c.drawn) (device : String)
    (command : Command) (blob : Option ByteArray) (timeout : Nat) :
    (c.engine 0).isPending (c.supply.idOf c.drawn) = false ∧
      ((act c (.enqueue device command blob timeout)).engine 0).pending.get?
        (c.supply.idOf c.drawn) = some ⟨device, command.name, none, timeout, c.now + timeout⟩ := by
  constructor
  · exact (Engine.isPending_eq_false _ _).mpr (fresh_not_pending h hids)
  · obtain ⟨woken, parked, he⟩ := act_enqueue c device command blob timeout
    have hengine : (act c (.enqueue device command blob timeout)).engine 0 =
        (c.engine 0).enqueue (c.supply.idOf c.drawn) device command blob timeout c.now := by
      rw [he]
      exact h.engine_setEngine _
    rw [hengine, Engine.pending_enqueue, if_pos rfl]

/-- A command that is decided is not answered again. -/
theorem answered_once {c : Cluster} (h : Keeping c) {id : Uuid}
    (hp : (c.engine 0).pending.get? id = none) :
    (∀ late, (c.resolve 0 id late).2 = false ∧ (c.resolve 0 id late).1.engine 0 = c.engine 0) ∧
      ∀ ok result body, (c.resolveResponse 0 id ok result body).2 = false ∧
        (c.resolveResponse 0 id ok result body).1.engine 0 = c.engine 0 := by
  have hclosed : ∀ changed : Engine × Bool, changed = (c.engine 0, false) →
      (c.decide 0 id changed).2 = false ∧ (c.decide 0 id changed).1.engine 0 = c.engine 0 := by
    rintro changed rfl
    exact ⟨rfl, h.engine_setEngine _⟩
  exact ⟨fun late => hclosed _ (Engine.resolve_of_get?_eq_none hp late),
    fun ok result body => hclosed _ (Engine.resolve_of_get?_eq_none hp _)⟩

theorem outcome_eq_fate {c : Cluster} (h : Keeping c) {as : List Act}
    (hids : Apart c.supply (c.drawn + submissions as)) {id : Uuid} {p : Pending}
    (hp : (c.engine 0).pending.get? id = some p) :
    ((play c as).engine 0).outcome? id = fate? id c p as ∧
    (((play c as).engine 0).isPending id = true ↔ fate? id c p as = none) := by
  have hfate := play_pending h hids hp
  cases hf : fate? id c p as with
  | some outcome =>
    rw [hf] at hfate
    obtain ⟨hgone, hdone⟩ := hfate
    exact ⟨Engine.outcome?_of_resolved hdone, by simp [Engine.isPending_iff, hgone]⟩
  | none =>
    rw [hf] at hfate
    obtain ⟨⟨q, hq, -⟩, hopen⟩ := hfate
    exact ⟨Engine.outcome?_of_unresolved hopen, by simp [Engine.isPending_iff, hq]⟩

theorem pending_in_time {c : Cluster} (h : Keeping c) {as : List Act}
    (hids : Apart c.supply (c.drawn + submissions as)) {id : Uuid} {p : Pending}
    (hp : (c.engine 0).pending.get? id = some p)
    (hpend : ((play c as).engine 0).isPending id = true) :
    (play c as).now ≤ p.deadline ∧ ((play c as).ready = [] → (play c as).now < p.deadline) := by
  have hfate := play_pending h hids hp
  rw [(outcome_eq_fate h hids hp).2.mp hpend] at hfate
  obtain ⟨⟨q, hq, hdue⟩, -⟩ := hfate
  obtain ⟨hkeep, -, -⟩ := keeping_play h hids
  rw [← hdue]
  exact ⟨hkeep.punctual id q hq, fun hr => hkeep.early hr hq⟩

/-- In every run, a command is pending from its submission to the first act that decides it, which
is at its deadline at the latest; it has the outcome of that act from then on, and later answers
to it change nothing. -/
theorem one_outcome (supply : Supply) (settings : ServerSettings) (before after later : List Act)
    (device : String) (command : Command) (blob : Option ByteArray) (timeout : Nat)
    (hids : Apart supply
      (submissions (before ++ .enqueue device command blob timeout :: (after ++ later)))) :
    let c₀ := play (start supply settings) before
    let id := c₀.supply.idOf c₀.drawn
    let p : Pending := ⟨device, command.name, none, timeout, c₀.now + timeout⟩
    let c₁ := act c₀ (.enqueue device command blob timeout)
    let c := play c₁ after
    (c₀.engine 0).isPending id = false ∧ (c₁.engine 0).pending.get? id = some p ∧
    (c.engine 0).outcome? id = fate? id c₁ p after ∧
    ((c.engine 0).isPending id = true ↔ fate? id c₁ p after = none) ∧
    ((c.engine 0).isPending id = true → c.now ≤ p.deadline ∧ (c.ready = [] → c.now < p.deadline)) ∧
    ∀ outcome, (c.engine 0).outcome? id = some outcome →
      ((play c later).engine 0).outcome? id = some outcome ∧
      (∀ late, (c.resolve 0 id late).2 = false ∧ (c.resolve 0 id late).1.engine 0 = c.engine 0) ∧
      ∀ ok result body, (c.resolveResponse 0 id ok result body).2 = false ∧
        (c.resolveResponse 0 id ok result body).1.engine 0 = c.engine 0 := by
  rw [submissions_append] at hids
  have h := keeping_start supply settings
  have hbefore : Apart (start supply settings).supply
      ((start supply settings).drawn + submissions before) :=
    hids.mono (by rw [show (start supply settings).drawn = 0 from rfl]; omega)
  obtain ⟨h₀, hs₀, hd₀⟩ := keeping_play h hbefore
  generalize play (start supply settings) before = c₀ at h₀ hs₀ hd₀ ⊢
  have hrest : Apart c₀.supply
      (c₀.drawn + submissions (.enqueue device command blob timeout :: (after ++ later))) := by
    rw [hs₀, hd₀, show (start supply settings).drawn = 0 from rfl, Nat.zero_add]
    exact hids
  obtain ⟨hfirst, h₁, hids₁⟩ := keeping_first h₀ hrest
  obtain ⟨hnew, hp₁⟩ := submitted h₀ (fun i hi => hfirst i c₀.drawn hi (Nat.lt_succ_self _))
    device command blob timeout
  intro c₀ id p c₁ c
  rw [submissions_append, ← Nat.add_assoc] at hids₁
  have hafter := hids₁.mono (Nat.le_add_right _ _)
  obtain ⟨houtcome, hpending⟩ := outcome_eq_fate h₁ hafter hp₁
  obtain ⟨h₂, hs₂, hd₂⟩ := keeping_play h₁ hafter
  refine ⟨hnew, hp₁, houtcome, hpending, pending_in_time h₁ hafter hp₁, ?_⟩
  intro outcome ho
  have hfate := play_pending h₁ hafter hp₁
  rw [← houtcome, ho] at hfate
  obtain ⟨hgone, hdone⟩ := hfate
  refine ⟨?_, answered_once h₂ hgone⟩
  have hlater := play_decided h₂ (by rw [hs₂, hd₂]; exact hids₁) hgone hdone
  exact Engine.outcome?_of_resolved hlater.2

/-- Identifiers in order. -/
def counting : Supply := ⟨fun i => ⟨BitVec.ofNat 128 i⟩, fun _ => ""⟩

theorem apart_counting : Apart counting 1 := by
  intro i j hij hj
  omega

/-- A command that nobody takes ends with its time limit; the answer comes too late. -/
theorem one_outcome_unanswered : Apart counting 1 ∧
    ((play (act (start counting (.ofConfig {})) (.enqueue "frame-1" (.shell "uptime") none 1000))
      [.turn 0, .pass 5000, .turn 0, .resolve ⟨0⟩ (.error .alreadyResolved)]).engine 0).outcome?
      ⟨0⟩ = some (.error (.timeout "frame-1" "shell" 1)) :=
  have h := one_outcome counting (.ofConfig {}) []
    [.turn 0, .pass 5000, .turn 0, .resolve ⟨0⟩ (.error .alreadyResolved)] [] "frame-1"
    (.shell "uptime") none 1000 apart_counting
  ⟨apart_counting, h.2.2.1.trans rfl⟩

end FleetControl.Cluster.Lifetime
