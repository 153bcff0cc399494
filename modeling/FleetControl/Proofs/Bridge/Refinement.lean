import FleetControl.Proofs.Bridge.Projection
import FleetControl.Proofs.Cluster.Filing

/-! # The bridge at work

Processes hold connections and run workers, submit commands, and serve what is queued in their
engines; tasks get their turns in any order, and time passes. Each of these acts is an event of the
traffic, or goes on aside from it. -/
namespace FleetControl.Cluster.Bridging
open Traffic (Caller Errand Wait Enabled next)

/-- The tasks of the bridge, where some processes are there. -/
inductive Bridged (there : Nat → Prop) : Task → Prop
  | expiry (p : Nat) (id : Uuid) (deadline : Nat) : Bridged there (.expiry p id deadline)
  | worker (p : Nat) (device : String) (phase : WorkerPhase) :
    Bridged there (.worker p device phase)
  | replier (p : Nat) (id job : Uuid) : Bridged there (.replier p id job)
  | asking (e : Errand) (h : there e.process) : Bridged there (Caller.asking e).task
  | queueing (e : Errand) (h : there e.process) : Bridged there (Caller.queueing e).task
  | awaiting (w : Wait) (h : there w.process) : Bridged there (Caller.awaiting w).task

/-- The store is up and in order, all tasks are those of the bridge, and a worker that a process
has listed is one, if it is there at all. -/
structure Orderly (c : Cluster) : Prop where
  up : c.store.down = []
  filed : c.store.store.Filed
  bridged : ∀ t task, c.tasks.get? t = some task → Bridged (c.processes.has · = true) task
  started : ∀ t, c.nextTask ≤ t → c.tasks.get? t = none
  workers : ∀ p q device t, c.processes.get? p = some q → q.workers.get? device = some t →
    t < c.nextTask ∧ ∀ task, c.tasks.get? t = some task → task.worker? = some (p, device)

/-- A cluster goes on by an event of the traffic, perhaps by the turn of a task. -/
def Follows (t : Option TaskId) (c c' : Cluster) : Prop :=
  ∃ e, Enabled c.epoch c.traffic e ∧ e.By t ∧ c'.traffic = next c.supply c.epoch c.traffic e

section Orderly
variable {c c' : Cluster} {t : TaskId} {task old : Task}

theorem Orderly.congr (h : Orderly c) (hc : c'.calm = c.calm) : Orderly c' := by
  have hcalm : Orderly c.calm := ⟨h.up, h.filed, h.bridged, h.started, h.workers⟩
  rw [← hc] at hcalm
  exact ⟨hcalm.up, hcalm.filed, hcalm.bridged, hcalm.started, hcalm.workers⟩

theorem Orderly.lt_nextTask (h : Orderly c) (hget : c.tasks.get? t = some task) :
    t < c.nextTask := by
  refine Nat.lt_of_not_le fun hle => ?_
  rw [h.started t hle] at hget
  cases hget

theorem Orderly.fresh (h : Orderly c) : Traffic.Fresh c.traffic := by
  intro t ht
  have hnone := h.started t ht
  constructor
  · change (c.tasks.get? t).bind _ = none
    rw [hnone]
    rfl
  · change (c.tasks.get? t).bind _ = none
    rw [hnone]
    rfl

theorem Orderly.setTask (h : Orderly c) (hget : c.tasks.get? t = some old)
    (hb : Bridged (c.processes.has · = true) task) (hw : task.worker? = old.worker?) :
    Orderly (c.setTask t task) := by
  refine ⟨h.up, h.filed, fun u found hu => ?_, fun u hu => ?_, fun p q device u hq hu => ?_⟩
  · change (c.tasks.put t task).get? u = some found at hu
    rw [Table.get?_put] at hu
    split at hu
    · cases hu
      exact hb
    · exact h.bridged u found hu
  · have hne : u ≠ t := by
      rintro rfl
      exact absurd (h.lt_nextTask hget) (Nat.not_lt.mpr hu)
    exact (Table.get?_put_of_ne _ _ hne).trans (h.started u hu)
  · obtain ⟨hlt, hworker⟩ := h.workers p q device u hq hu
    refine ⟨hlt, fun found hfound => ?_⟩
    change (c.tasks.put t task).get? u = some found at hfound
    rw [Table.get?_put] at hfound
    split at hfound
    · rename_i he
      subst he
      cases hfound
      exact hw.trans (hworker old hget)
    · exact hworker found hfound

theorem Orderly.erase (h : Orderly c) (t : TaskId) :
    Orderly { c with tasks := c.tasks.erase t } := by
  have hback : ∀ {u found}, (c.tasks.erase t).get? u = some found →
      c.tasks.get? u = some found := by
    intro u found hu
    rw [Table.get?_erase] at hu
    split at hu
    · cases hu
    · exact hu
  refine ⟨h.up, h.filed, fun u found hu => h.bridged u found (hback hu), fun u hu => ?_,
    fun p q device u hq hu => ?_⟩
  · change (c.tasks.erase t).get? u = none
    rw [Table.get?_erase]
    split
    · rfl
    · exact h.started u hu
  · obtain ⟨hlt, hworker⟩ := h.workers p q device u hq hu
    exact ⟨hlt, fun found hfound => hworker found (hback hfound)⟩

theorem Orderly.finish (h : Orderly c) (t : TaskId) : Orderly (c.finish t) :=
  (h.erase t).congr (calm_finish c t)

theorem Orderly.spawn (h : Orderly c) (hb : Bridged (c.processes.has · = true) task) :
    Orderly (c.spawn task).1 := by
  refine ⟨h.up, h.filed, fun u found hu => ?_, fun u hu => ?_, fun p q device u hq hu => ?_⟩
  · change (c.tasks.put c.nextTask task).get? u = some found at hu
    rw [Table.get?_put] at hu
    split at hu
    · cases hu
      exact hb
    · exact h.bridged u found hu
  · have hlt : c.nextTask < u := hu
    exact (Table.get?_put_of_ne _ _ (Nat.ne_of_gt hlt)).trans (h.started u (Nat.le_of_lt hlt))
  · obtain ⟨hlt, hworker⟩ := h.workers p q device u hq hu
    refine ⟨Nat.lt_succ_of_lt hlt, fun found hfound => hworker found ?_⟩
    exact (Table.get?_put_of_ne _ _ (Nat.ne_of_lt hlt)).symm.trans hfound

theorem Orderly.store (h : Orderly c) {s : SharedStore} (hdown : s.down = c.store.down)
    (hfiled : Files c.store s) : Orderly { c with store := s } :=
  ⟨hdown.trans h.up, hfiled h.filed, h.bridged, h.started, h.workers⟩

theorem Orderly.updateProcess (h : Orderly c) {p : Nat} {f : Process → Process}
    (hf : ∀ q, c.processes.get? p = some q → ∀ device t,
      (f q).workers.get? device = some t → q.workers.get? device = some t ∨
        t < c.nextTask ∧ ∀ task, c.tasks.get? t = some task →
          task.worker? = some (p, device)) : Orderly (c.updateProcess p f) := by
  have hhas : ∀ r, (c.updateProcess p f).processes.has r = c.processes.has r :=
    fun r => Table.has_modify c.processes p r f
  refine ⟨h.up, h.filed, fun u found hu => ?_, h.started, fun r q device u hq hu => ?_⟩
  · simp only [hhas]
    exact h.bridged u found hu
  · simp only [Cluster.updateProcess, Table.get?_modify] at hq
    split at hq
    · rename_i hr
      subst hr
      cases hold : c.processes.get? r with
      | none =>
        rw [hold] at hq
        cases hq
      | some x =>
        rw [hold] at hq
        cases hq
        rcases hf x hold device u hu with hsame | hnew
        · exact h.workers r x device u hold hsame
        · exact hnew
    · exact h.workers r q device u hq hu

theorem Orderly.sameWorkers (h : Orderly c) (p : Nat) {f : Process → Process}
    (hf : ∀ q, (f q).workers = q.workers) : Orderly (c.updateProcess p f) :=
  h.updateProcess fun q _ _ _ ht => Or.inl (hf q ▸ ht)

theorem Orderly.setEngine (h : Orderly c) (p : Nat) (e : Engine) : Orderly (c.setEngine p e) :=
  h.sameWorkers p fun _ => rfl

theorem Orderly.acquire (h : Orderly c) (p : Nat) (device : String) (t : TaskId) :
    Orderly (c.acquire p device t).1 := by
  unfold Cluster.acquire
  split
  · exact h
  · exact h.sameWorkers p fun _ => rfl

theorem Orderly.release (h : Orderly c) (p : Nat) (device : String) :
    Orderly (c.release p device) := by
  unfold Cluster.release
  split
  · exact h
  · rename_i q _
    have hput : Orderly (c.updateProcess p fun q' => { q' with
        locks := q'.locks.put device ((q.locks.getD device {}).release.1) }) :=
      h.sameWorkers p fun _ => rfl
    dsimp only
    split
    · exact hput
    · exact hput.congr (calm_wake _ _)

end Orderly

section Follows
variable {c c' c'' : Cluster} {t : TaskId} {turnOf : Option TaskId} {old : Task}

theorem Follows.congr (h : Follows turnOf c c') (hc : c''.calm = c'.calm) :
    Follows turnOf c c'' := by
  obtain ⟨e, he, hby, htraffic⟩ := h
  exact ⟨e, he, hby, (traffic_congr hc).trans htraffic⟩

theorem follows_same (h : c'.traffic = c.traffic) : Follows turnOf c c' :=
  ⟨.aside c.nextTask c.traffic.worker c.traffic.outcome, Nat.le_refl _, trivial, h⟩

theorem follows_aside {n : TaskId} {worker : TaskId → Option (Nat × String)}
    {outcome : Nat → Uuid → Option CommandOutcome} (hn : c.nextTask ≤ n)
    (h : c'.traffic = { c.traffic with nextTask := n, worker := worker, outcome := outcome }) :
    Follows turnOf c c' :=
  ⟨.aside n worker outcome, hn, trivial, h⟩

/-- A turn is part of the traffic, and leaves the cluster in order. -/
def Goes (c : Cluster) (t : TaskId) (r : Cluster × Turn) : Prop :=
  Follows (some t) c (conclude t r) ∧ Orderly (conclude t r)

theorem goes_waits (h : Orderly c) (hc : c'.calm = c.calm) : Goes c t (c', .waits) :=
  ⟨follows_same (traffic_congr hc), h.congr hc⟩

theorem goes_none (h : Orderly c) (hget : c.tasks.get? t = none) : Goes c t (c, .over) := by
  obtain ⟨hcaller, hworker, hreplier⟩ := plays_of_none hget
  refine ⟨follows_same ?_, h.finish t⟩
  change (c.finish t).traffic = c.traffic
  rw [traffic_finish_aside c t hcaller hreplier, update_same hworker]

/-- An engine goes on in the last turn of a task that is neither a caller nor a replier. -/
theorem goes_served (h : Orderly c) (hget : c.tasks.get? t = some old) (hc : old.caller? = none)
    (hr : old.replier? = none) (p : Nat) (e : Engine) : Goes c t (c.setEngine p e, .over) := by
  have horderly := h.setEngine p e
  obtain ⟨outcome, hserved⟩ := c.traffic_setEngine p e
  obtain ⟨hcaller, -, hreplier⟩ := plays_of_get (c := c.setEngine p e) hget
  refine ⟨?_, horderly.finish t⟩
  have htraffic := traffic_finish_aside _ t (hcaller.trans hc) (hreplier.trans hr)
  rw [hserved] at htraffic
  exact follows_aside (Nat.le_refl _) htraffic

theorem Goes.over (h : Goes c t (c', .over)) (hc : c''.calm = c'.calm) :
    Goes c t (c'', .over) := by
  have hcalm := calm_finish_congr hc t
  exact ⟨h.1.congr hcalm, h.2.congr hcalm⟩

theorem goes_expiry {p : Nat} {id : Uuid} {deadline : Nat} (h : Orderly c)
    (hget : c.tasks.get? t = some (.expiry p id deadline)) :
    Goes c t (c.expiryTurn t p id deadline) := by
  unfold expiryTurn
  split
  · exact (goes_served h hget rfl rfl p _).over (calm_decide ..)
  · exact goes_waits h rfl

theorem goes_worker_again (h : Orderly c) {p : Nat} {device : String} {phase : WorkerPhase}
    (hget : c.tasks.get? t = some (.worker p device phase)) (phase' : WorkerPhase) :
    Goes c t (c.setTask t (.worker p device phase'), .again) := by
  have horderly := h.setTask hget (.worker p device phase') rfl
  exact ⟨follows_same (c.traffic_setTask_same t hget rfl rfl rfl), horderly.congr rfl⟩

theorem orderly_awaitPop (h : Orderly c) (key : String) (t : TaskId) (deadline : Nat) :
    Orderly (c.awaitPop t key deadline).1 := by
  refine Orderly.congr (h.store ?_ ?_) (calm_awaitPop c t key deadline)
  · exact (c.touches_tryPop key).down
  · exact files_tryPop c key

theorem orderly_pushReply (h : Orderly c) (job : Uuid) (reply : BridgeReply) :
    Orderly (c.pushReply job reply) ∧ (c.pushReply job reply).tasks = c.tasks := by
  obtain ⟨store, hcalm, htouches, -⟩ := pushReply_left h.up h.filed job reply
  have hstore : (c.pushReply job reply).store = store := congrArg Cluster.store hcalm
  have htasks : (c.pushReply job reply).tasks = c.tasks := congrArg (·.tasks) hcalm
  refine ⟨Orderly.congr (h.store htouches.down ?_) hcalm, htasks⟩
  exact hstore ▸ files_pushReply c job reply

/-- A task starts that is neither a call nor a replier nor a worker. -/
theorem spawn_aside (h : Orderly c) {task : Task} (hc : task.caller? = none)
    (hw : task.worker? = none) (hr : task.replier? = none) :
    (c.spawn task).1.traffic = { c.traffic with nextTask := c.nextTask + 1 } := by
  obtain ⟨hcaller, hworker, hreplier⟩ := plays_of_none (h.started c.nextTask (Nat.le_refl _))
  rw [traffic_spawn, hc, hw, hr, update_same hcaller, update_same hworker, update_same hreplier]

theorem spawn_replier (h : Orderly c) (p : Nat) (id job : Uuid) :
    (c.spawn (.replier p id job)).1.traffic = { c.traffic with
      replier := Function.update c.traffic.replier c.nextTask (some (p, id, job))
      nextTask := c.nextTask + 1 } := by
  obtain ⟨hcaller, hworker, -⟩ := plays_of_none (h.started c.nextTask (Nat.le_refl _))
  simp only [traffic_spawn, Task.caller?, Task.worker?, Task.replier?, update_same hcaller,
    update_same hworker]

theorem enqueue_follows (h : Orderly c) (p : Nat) (device : String) (command : Command)
    (blob : Option ByteArray) (timeout : Nat) :
    Orderly (c.enqueue p device command blob timeout).1 ∧
      (∃ outcome, (c.enqueue p device command blob timeout).1.traffic = { c.traffic with
        drawn := c.drawn + 1, nextTask := c.nextTask + 1, outcome := outcome }) ∧
      ∀ u, u < c.nextTask →
        (c.enqueue p device command blob timeout).1.tasks.get? u = c.tasks.get? u := by
  have hdrawn : Orderly c.freshId.1 := ⟨h.up, h.filed, h.bridged, h.started, h.workers⟩
  let spawned := (c.freshId.1.spawn (.expiry p c.freshId.2 (c.now + timeout))).1
  have hspawned : Orderly spawned := hdrawn.spawn (.expiry ..)
  have hcalm : (c.enqueue p device command blob timeout).1.calm = (spawned.setEngine p
      ((c.engine p).enqueue c.freshId.2 device command blob timeout c.now)).calm :=
    calm_notify _ _
  have htraffic : spawned.traffic =
      { c.traffic with drawn := c.drawn + 1, nextTask := c.nextTask + 1 } :=
    spawn_aside hdrawn rfl rfl rfl
  generalize (c.engine p).enqueue c.freshId.2 device command blob timeout c.now = e at hcalm
  obtain ⟨outcome, hserved⟩ := spawned.traffic_setEngine p e
  refine ⟨(hspawned.setEngine p e).congr hcalm, ⟨outcome, ?_⟩, fun u hu => ?_⟩
  · rw [traffic_congr hcalm, hserved, htraffic]
  · have htasks := congrArg (fun x => x.tasks.get? u) hcalm
    exact htasks.trans (Table.get?_put_of_ne _ _ (Nat.ne_of_lt hu))

/-- A list is shorter by its head, and a worker has that. -/
structure Taken (c c₁ : Cluster) (device : String) (rest : List String) : Prop where
  orderly : Orderly c₁
  store : ∃ store, c₁.calm = { c with store := store }.calm
  traffic : c₁.traffic = { c.traffic with jobs := Function.update c.traffic.jobs device rest }

section Taken
variable {c₁ : Cluster} {p : Nat} {device raw : String} {rest : List String} {phase : WorkerPhase}

theorem Taken.tasks (h : Taken c c₁ device rest) : c₁.tasks = c.tasks := by
  obtain ⟨store, hcalm⟩ := h.store
  exact congrArg (·.tasks) hcalm

theorem Taken.wall (h : Taken c c₁ device rest) : c₁.wall = c.epoch + c.now := by
  obtain ⟨store, hcalm⟩ := h.store
  exact congrArg (·.wall) hcalm

/-- A command is queued, a replier starts, and the worker goes on. -/
theorem Taken.accept (h : Taken c c₁ device rest) (hc : Orderly c)
    (hget : c.tasks.get? t = some (.worker p device phase)) (command : Command)
    (blob : Option ByteArray) (timeout : Nat) (job : Uuid) (raw : String) :
    let taken := c₁.enqueue p device command blob timeout
    Orderly (taken.1.spawn (.replier p taken.2 job)).1 ∧
      (taken.1.spawn (.replier p taken.2 job)).1.tasks.get? t =
        some (.worker p device phase) ∧
      ∃ outcome, (taken.1.spawn (.replier p taken.2 job)).1.traffic = next c.supply c.epoch
        c.traffic (.accept t p device raw rest job command blob timeout outcome) := by
  obtain ⟨store, hcalm⟩ := h.store
  have hsupply : c₁.supply = c.supply := congrArg (·.supply) hcalm
  have hdrawn : c₁.drawn = c.drawn := congrArg (·.drawn) hcalm
  have hnextTask : c₁.nextTask = c.nextTask := congrArg (·.nextTask) hcalm
  obtain ⟨horderly, ⟨outcome, hqueued⟩, hkept⟩ :=
    enqueue_follows h.orderly p device command blob timeout
  have hid : (c₁.enqueue p device command blob timeout).2 = c.supply.idOf c.drawn := by
    rw [← hsupply, ← hdrawn]
    rfl
  have hlate : (c₁.enqueue p device command blob timeout).1.nextTask = c.nextTask + 1 := by
    rw [← hnextTask]
    exact congrArg (·.nextTask) hqueued
  have hold : t < c₁.nextTask := by
    rw [hnextTask]
    exact hc.lt_nextTask hget
  dsimp only
  rw [hid]
  -- From here on, what the engine holds does not matter.
  generalize (c₁.enqueue p device command blob timeout).1 = c₂ at *
  refine ⟨horderly.spawn (.replier ..), ?_, outcome, ?_⟩
  · refine (Table.get?_put_of_ne _ _ ?_).trans ((hkept t hold).trans (h.tasks ▸ hget))
    rw [hlate, ← hnextTask]
    exact Nat.ne_of_lt (Nat.lt_succ_of_lt hold)
  · rw [spawn_replier horderly, hlate, hqueued, h.traffic, hdrawn]
    rfl

/-- A worker goes on as what it was. -/
theorem traffic_again {c₂ : Cluster} (hget : c₂.tasks.get? t = some (.worker p device phase)) :
    (conclude t (c₂.setTask t (.worker p device .ready), .again)).traffic = c₂.traffic :=
  c₂.traffic_setTask_same t hget rfl rfl rfl

theorem goes_again {c₂ : Cluster} (h : Orderly c₂)
    (hget : c₂.tasks.get? t = some (.worker p device phase)) (hfollows : Follows (some t) c c₂) :
    Goes c t (c₂.setTask t (.worker p device .ready), .again) := by
  obtain ⟨e, he, hby, hnext⟩ := hfollows
  exact ⟨⟨e, he, hby, (traffic_again hget).trans hnext⟩,
    (h.setTask hget (.worker p device .ready) rfl).congr rfl⟩

/-- What a worker makes of a job. -/
theorem goes_handled (hc : Orderly c) (hget : c.tasks.get? t = some (.worker p device phase))
    (hlisted : c.traffic.jobs device = raw :: rest) (h : Taken c c₁ device rest) :
    Goes c t ((c₁.handleJob p device raw).setTask t (.worker p device .ready), .again) := by
  obtain ⟨-, hworker, -⟩ := plays_of_get hget
  unfold handleJob
  rw [h.wall]
  split
  · exact goes_again h.orderly (h.tasks ▸ hget)
      ⟨.drop t p device raw rest, ⟨hworker, hlisted⟩, rfl, h.traffic⟩
  · rename_i job reply hdispose
    obtain ⟨horderly, hsame⟩ := orderly_pushReply h.orderly job reply
    refine goes_again horderly (by rw [hsame, h.tasks, hget])
      ⟨.refuse t p device raw rest job reply, ⟨hworker, hlisted, hdispose⟩, rfl, ?_⟩
    rw [traffic_pushReply h.orderly.up h.orderly.filed, h.traffic]
    rfl
  · rename_i job command blob timeout hdispose
    obtain ⟨horderly, hkept, outcome, htraffic⟩ :=
      h.accept hc hget command blob timeout job raw
    exact goes_again horderly hkept ⟨.accept t p device raw rest job command blob timeout outcome,
      ⟨hworker, hlisted, hdispose⟩, rfl, htraffic⟩

end Taken

theorem taken_awaitPop {device : String} {rest : List String} (h : Orderly c)
    (hrest : (c.tryPop (BridgeJob.listKey device)).1.listed (BridgeJob.listKey device) = rest)
    (t : TaskId) (deadline : Nat) :
    Taken c (c.awaitPop t (BridgeJob.listKey device) deadline).1 device rest :=
  ⟨orderly_awaitPop h _ t deadline, ⟨_, calm_awaitPop c t _ deadline⟩,
    traffic_awaitPop_jobs hrest t deadline⟩

theorem goes_worker {p : Nat} {device : String} {phase : WorkerPhase} (h : Orderly c)
    (hget : c.tasks.get? t = some (.worker p device phase)) :
    Goes c t (c.workerTurn t p device phase) := by
  cases phase with
  | ready => exact goes_worker_again h hget _
  | pausing due =>
    rw [workerTurn]
    split
    · exact goes_worker_again h hget _
    · exact goes_waits h rfl
  | polling deadline =>
    rw [workerTurn]
    obtain ⟨raw, rest, hlisted, hrest, hpop⟩ | ⟨hlisted, hrest, hpop⟩ :=
      awaitPop_cases h.filed (Or.inl ⟨device, rfl⟩) t deadline
    · have htaken := taken_awaitPop h hrest t deadline
      rw [hpop]
      exact goes_handled h hget hlisted htaken
    · have htaken := taken_awaitPop h hrest t deadline
      have hempty : c.traffic.jobs device = [] := hlisted
      have htraffic := htaken.traffic
      rw [update_same hempty] at htraffic
      rcases hpop with ⟨hpop, -⟩ | hpop
      · rw [hpop]
        exact goes_again htaken.orderly (htaken.tasks ▸ hget) (follows_same htraffic)
      · rw [hpop] at htaken htraffic ⊢
        exact ⟨follows_same htraffic, htaken.orderly⟩

theorem goes_replier {p : Nat} {id job : Uuid} (h : Orderly c)
    (hget : c.tasks.get? t = some (.replier p id job)) :
    Goes c t (c.replierTurn t p id job) := by
  have hcaller : c.traffic.caller t = none := (plays_of_get hget).1
  have hworker : c.traffic.worker t = none := (plays_of_get hget).2.1
  have hreplier := (plays_of_get hget).2.2
  unfold replierTurn awaitOutcome
  cases houtcome : (c.engine p).outcome? id with
  | none => exact goes_waits h (calm_park c t _)
  | some outcome =>
    obtain ⟨horderly, htasks⟩ := orderly_pushReply h job (.ofOutcome outcome)
    refine ⟨⟨.answer t p id job outcome, ⟨hreplier, houtcome⟩, rfl, ?_⟩, horderly.finish t⟩
    have hpushed := traffic_pushReply h.up h.filed job (.ofOutcome outcome)
    change ((c.pushReply job (.ofOutcome outcome)).finish t).traffic = _
    rw [traffic_finish, hpushed]
    simp only [update_same hcaller, update_same hworker]
    rfl

/-- A call goes on to another phase, before any other task or after a wait. -/
theorem goes_phase {x : Caller} (h : Orderly c') (hget : c'.tasks.get? t = some old)
    (hx : c'.processes.has x.process = true) (hw : old.worker? = none) (hr : old.replier? = none)
    {ends : Turn} (hends : ends = .again ∨ ends = .waits)
    (hfollows : ∃ e, Enabled c.epoch c.traffic e ∧ e.By (some t) ∧
      { c'.traffic with caller := Function.update c'.traffic.caller t (some x) } =
        next c.supply c.epoch c.traffic e) : Goes c t (c'.setTask t x.task, ends) := by
  obtain ⟨e, he, hby, hnext⟩ := hfollows
  obtain ⟨-, hworker, hreplier⟩ := plays_of_get hget
  have hcalm : (conclude t (c'.setTask t x.task, ends)).calm = (c'.setTask t x.task).calm := by
    rcases hends with rfl | rfl <;> rfl
  have htraffic : (c'.setTask t x.task).traffic =
      { c'.traffic with caller := Function.update c'.traffic.caller t (some x) } := by
    rw [traffic_setTask, Caller.caller_task, Caller.worker_task, Caller.replier_task,
      update_same (hworker.trans hw), update_same (hreplier.trans hr)]
  refine ⟨⟨e, he, hby, ?_⟩, Orderly.congr (h.setTask hget ?_ ?_) hcalm⟩
  · rw [traffic_congr hcalm, htraffic, hnext]
  · cases x with
    | asking e => exact .asking e hx
    | queueing e => exact .queueing e hx
    | awaiting w => exact .awaiting w hx
  · rw [Caller.worker_task, hw]

theorem goes_asking {e : Errand} (h : Orderly c) (hp : c.processes.has e.process = true)
    (hget : c.tasks.get? t = some (Caller.asking e).task) :
    Goes c t (c.callTurn t e.process true
      (.running (.send e.device e.command e.blob e.timeout Traffic.handOn))) := by
  obtain ⟨htraffic, -⟩ := c.traffic_acquire t e.device hp
  have horderly := h.acquire e.process e.device t
  have hstill := still_acquire c e.process t e.device
  have hget₁ : (c.acquire e.process e.device t).1.tasks.get? t = some (Caller.asking e).task := by
    rw [hstill.tasks, hget]
  have hp₁ := (hstill.has e.process).trans hp
  have hcarry : c.callTurn t e.process true
      (.running (.send e.device e.command e.blob e.timeout Traffic.handOn)) =
        ((c.acquire e.process e.device t).1.setTask t (Caller.queueing e).task,
          if (c.acquire e.process e.device t).2 then .again else .waits) := by
    rw [callTurn, carry, if_neg (by simp)]
    rfl
  rw [hcarry]
  refine goes_phase (x := .queueing e) horderly hget₁ hp₁ rfl rfl (by split <;> simp)
    ⟨.ask t e, (plays_of_get hget).1, rfl, ?_⟩
  rw [htraffic]
  rfl

theorem submit_left (h : Orderly c) (p : Nat) (device : String) (command : Command)
    (blob : Option ByteArray) (timeout : Nat) : ∃ c₁,
      c.submit p device command blob timeout = (c₁, .ok (c.supply.idOf c.drawn)) ∧ Orderly c₁ ∧
        c₁.tasks = c.tasks ∧ c₁.processes = c.processes ∧ c₁.now = c.now ∧
        c₁.traffic = { c.traffic with
          drawn := c.drawn + 1
          jobs := Function.update c.traffic.jobs device (c.traffic.jobs device ++
            [(BridgeJob.make (c.supply.idOf c.drawn) device command blob timeout
              c.wall).text]) } := by
  have hdrawn : Orderly c.freshId.1 := ⟨h.up, h.filed, h.bridged, h.started, h.workers⟩
  obtain ⟨store, hpush, htouches, hlisted⟩ := push_holdsList (c := c.freshId.1) h.up h.filed
    (Or.inl ⟨device, rfl⟩)
    (BridgeJob.make (c.supply.idOf c.drawn) device command blob timeout c.wall).text
  have hrefusal := SharedStore.refusal_eq_none (htouches.down.trans hdrawn.up) .blpop
  have hfiles := files_push c.freshId.1 (Or.inl ⟨device, rfl⟩)
    (BridgeJob.make (c.supply.idOf c.drawn) device command blob timeout c.wall).text
  rw [hpush, store_notify] at hfiles
  have hcalm := calm_notify { c.freshId.1 with store := store } .pushed
  refine ⟨_, ?_, (hdrawn.store htouches.down hfiles).congr hcalm, congrArg (·.tasks) hcalm,
    congrArg (·.processes) hcalm, congrArg (·.now) hcalm, ?_⟩
  · unfold submit
    dsimp only
    have hpush' : c.freshId.1.push (BridgeJob.listKey device) (BridgeJob.make c.freshId.2 device
      command blob timeout c.freshId.1.wall).text = _ := hpush
    rw [hpush']
    dsimp only
    rw [store_notify, hrefusal]
    rfl
  · rw [traffic_congr hcalm]
    exact traffic_jobs htouches hlisted

theorem goes_queueing {e : Errand} (h : Orderly c) (hp : c.processes.has e.process = true)
    (hget : c.tasks.get? t = some (Caller.queueing e).task) :
    Goes c t (c.callTurn t e.process true
      (.submitting e.device e.command e.blob e.timeout Traffic.handOn)) := by
  rw [callTurn]
  split
  · rename_i hholds
    have howner := (c.holds_iff t hp).mp hholds
    obtain ⟨c₁, hsubmit, horderly, htasks, hprocesses, hnow, htraffic⟩ :=
      submit_left h e.process e.device e.command e.blob e.timeout
    rw [hsubmit]
    dsimp only
    rw [hnow]
    refine goes_phase (x := .awaiting (c.traffic.job c.supply t e).wait) horderly
      (htasks ▸ hget) (hprocesses ▸ hp) rfl rfl (Or.inl rfl)
      ⟨.post t e, ⟨(plays_of_get hget).1, howner⟩, rfl, ?_⟩
    rw [htraffic]
    rfl
  · exact goes_waits h rfl

/-- A call that awaits a reply ends with an outcome. -/
theorem goes_over {w : Wait} {r : CommandOutcome} (h : Orderly c')
    (hp : c'.processes.has w.process = true)
    (hget : c'.tasks.get? t = some (Caller.awaiting w).task)
    (hfollows : ∃ e, Enabled c.epoch c.traffic e ∧ e.By (some t) ∧
      c'.traffic.finish t w r = next c.supply c.epoch c.traffic e) :
    Goes c t ((c'.release w.process w.device).carry t w.process true (Traffic.handOn r)) := by
  obtain ⟨e, he, hby, hnext⟩ := hfollows
  have hworker : c'.traffic.worker t = none := (plays_of_get hget).2.1
  have hreplier : c'.traffic.replier t = none := (plays_of_get hget).2.2
  have hdelivered : ∀ c : Cluster, (c.deliver t (.answer (r.map .reply))).traffic =
      { c.traffic with results := c.traffic.results ++ [(t, .answer (r.map .reply))] } :=
    fun _ => rfl
  have horderly := h.release w.process w.device
  have hleft : Orderly ((c'.release w.process w.device).deliver t (.answer (r.map .reply))) :=
    ⟨horderly.up, horderly.filed, horderly.bridged, horderly.started, horderly.workers⟩
  refine ⟨⟨e, he, hby, ?_⟩, hleft.finish t⟩
  change (Cluster.finish (Cluster.deliver _ t (.answer (r.map .reply))) t).traffic = _
  rw [traffic_finish, hdelivered, c'.traffic_release hp, ← hnext]
  simp only [update_same hworker, update_same hreplier]
  rfl

theorem goes_awaiting {w : Wait} (h : Orderly c) (hp : c.processes.has w.process = true)
    (hget : c.tasks.get? t = some (Caller.awaiting w).task) :
    Goes c t (c.callTurn t w.process true
      (.awaitingReply w.job w.device w.command w.timeout w.deadline Traffic.handOn)) := by
  have hcalm : (c.awaitPop t (BridgeJob.replyKey w.job) w.deadline).1.calm =
      { c with store := (c.store.tryPop (BridgeJob.replyKey w.job) c.now).1 }.calm :=
    calm_awaitPop c t _ w.deadline
  have horderly := orderly_awaitPop h (BridgeJob.replyKey w.job) t w.deadline
  have hp₁ : (c.awaitPop t (BridgeJob.replyKey w.job) w.deadline).1.processes.has w.process =
      true := (congrArg (fun x => x.processes.has w.process) hcalm).trans hp
  have hget₁ : (c.awaitPop t (BridgeJob.replyKey w.job) w.deadline).1.tasks.get? t =
      some (Caller.awaiting w).task := (congrArg (fun x => x.tasks.get? t) hcalm).trans hget
  have hcaller := (plays_of_get hget).1
  rw [callTurn]
  obtain ⟨raw, rest, hlisted, hrest, hpop⟩ | ⟨hlisted, hrest, hpop⟩ :=
    awaitPop_cases h.filed (Or.inr ⟨w.job, rfl⟩) t w.deadline
  · have htraffic := traffic_awaitPop_replies hrest t w.deadline
    rw [hpop]
    refine goes_over horderly hp₁ hget₁ ⟨.collect t w raw rest, ⟨hcaller, hlisted⟩, rfl, ?_⟩
    rw [htraffic]
    rfl
  · have htraffic := traffic_awaitPop_replies hrest t w.deadline
    have hempty : c.traffic.replies w.job = [] := hlisted
    rw [update_same hempty] at htraffic
    rcases hpop with ⟨hpop, hdue⟩ | hpop
    · rw [hpop]
      refine goes_over horderly hp₁ hget₁ ⟨.giveUp t w, ⟨hcaller, hdue⟩, rfl, ?_⟩
      rw [htraffic]
      rfl
    · rw [hpop] at horderly htraffic ⊢
      exact ⟨follows_same htraffic, horderly⟩

/-- Every turn is part of the traffic. -/
theorem goes_turn (h : Orderly c) (t : TaskId) : Goes c t (turn c t) := by
  unfold turn
  cases hget : c.tasks.get? t with
  | none => exact goes_none h hget
  | some task =>
    cases h.bridged t task hget with
    | expiry p id deadline => exact goes_expiry h hget
    | worker p device phase => exact goes_worker h hget
    | replier p id job => exact goes_replier h hget
    | asking e hp => exact goes_asking h hp hget
    | queueing e hp => exact goes_queueing h hp hget
    | awaiting w hp => exact goes_awaiting h hp hget

theorem follows_give (h : Orderly c) (t : TaskId) :
    Follows (some t) c (c.give t) ∧ Orderly (c.give t) := by
  by_cases hr : t ∈ c.ready
  · rw [give_of_mem hr]
    have hbefore : Orderly { c with ready := c.ready.erase t } := h.congr rfl
    exact goes_turn hbefore t
  · rw [give_of_not_mem hr]
    exact ⟨follows_same rfl, h⟩

end Follows

end FleetControl.Cluster.Bridging
