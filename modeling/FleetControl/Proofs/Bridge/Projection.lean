import FleetControl.Proofs.Bridge.Lists
import FleetControl.Proofs.Bridge.Traffic
import FleetControl.Proofs.Bridge.Transfer
import FleetControl.Proofs.Cluster.Scheduling
import FleetControl.Proofs.Store.Filing

/-! # The traffic of a cluster

What the bridge makes of a cluster: which calls stand where, who has which lock, and what lies on
the lists. Who goes on when makes no difference to it. Each operation of the bridge in one equation
about the traffic. -/
namespace FleetControl

/-- A call passes on what it is told. -/
def Traffic.handOn (r : CommandOutcome) : Program (Outcome RemoteAnswer) :=
  .finish (r.map .reply)

/-- The task of a call over the bridge. -/
def Traffic.Caller.task : Traffic.Caller → Task
  | .asking e => .call e.process true
    (.running (.send e.device e.command e.blob e.timeout handOn))
  | .queueing e => .call e.process true
    (.submitting e.device e.command e.blob e.timeout handOn)
  | .awaiting w => .call w.process true
    (.awaitingReply w.job w.device w.command w.timeout w.deadline handOn)

/-- The process that a call is made in. -/
def Traffic.Caller.process : Traffic.Caller → Nat
  | .asking e | .queueing e => e.process
  | .awaiting w => w.process

def Task.caller? : Task → Option Traffic.Caller
  | .call p _ (.running (.send device command blob timeout _)) =>
    some (.asking ⟨p, device, command, blob, timeout⟩)
  | .call p _ (.submitting device command blob timeout _) =>
    some (.queueing ⟨p, device, command, blob, timeout⟩)
  | .call p _ (.awaitingReply job device command timeout deadline _) =>
    some (.awaiting ⟨p, device, command, timeout, job, deadline⟩)
  | _ => none

def Task.worker? : Task → Option (Nat × String)
  | .worker p device _ => some (p, device)
  | _ => none

def Task.replier? : Task → Option (Nat × Uuid × Uuid)
  | .replier p id job => some (p, id, job)
  | _ => none

namespace Traffic.Caller
variable (x : Caller)

@[simp] theorem caller_task : x.task.caller? = some x := by cases x <;> rfl
@[simp] theorem worker_task : x.task.worker? = none := by cases x <;> rfl
@[simp] theorem replier_task : x.task.replier? = none := by cases x <;> rfl

end Traffic.Caller

namespace SharedStore

def jobs (s : SharedStore) (now : Nat) (device : String) : List String :=
  s.store.listed (BridgeJob.listKey device) now

def replies (s : SharedStore) (now : Nat) (job : Uuid) : List String :=
  s.store.listed (BridgeJob.replyKey job) now

section Touches
variable {s s' : SharedStore}

theorem Touches.jobs {device : String} (h : Touches (BridgeJob.listKey device) s s') (now : Nat) :
    s'.jobs now = Function.update (s.jobs now) device (s'.jobs now device) ∧
      s'.replies now = s.replies now := by
  constructor
  · funext other
    rw [Function.update_apply]
    split
    · rename_i ho
      rw [ho]
    · rename_i ho
      exact Store.listed_congr (h.slots _ fun he => ho (BridgeJob.listKey_inj he)) now
  · funext job
    refine Store.listed_congr (h.slots _ ?_) now
    exact (BridgeJob.listKey_ne_replyKey device job).symm

theorem Touches.replies {job : Uuid} (h : Touches (BridgeJob.replyKey job) s s') (now : Nat) :
    s'.jobs now = s.jobs now ∧
      s'.replies now = Function.update (s.replies now) job (s'.replies now job) := by
  constructor
  · funext device
    exact Store.listed_congr (h.slots _ (BridgeJob.listKey_ne_replyKey device job)) now
  · funext other
    rw [Function.update_apply]
    split
    · rename_i ho
      rw [ho]
    · rename_i ho
      exact Store.listed_congr (h.slots _ fun he => ho (BridgeJob.replyKey_inj he)) now

end Touches

end SharedStore

namespace Cluster

/-- The lock of a device in a process. -/
def lock (c : Cluster) (p : Nat) (device : String) : DeviceLock :=
  ((c.processes.get? p).map fun q => q.locks.getD device {}).getD {}

/-- What the bridge makes of a cluster. -/
def traffic (c : Cluster) : Traffic.State where
  now := c.now
  drawn := c.drawn
  nextTask := c.nextTask
  caller t := (c.tasks.get? t).bind Task.caller?
  worker t := (c.tasks.get? t).bind Task.worker?
  replier t := (c.tasks.get? t).bind Task.replier?
  outcome p id := (c.engine p).outcome? id
  lock := c.lock
  jobs := c.store.jobs c.now
  replies := c.store.replies c.now
  results := c.results

/-- A cluster without who goes on when. -/
def calm (c : Cluster) : Cluster := { c with ready := [], parked := [], timers := [] }

theorem traffic_congr {c c' : Cluster} (h : c'.calm = c.calm) : c'.traffic = c.traffic := by
  have hc : c'.calm.traffic = c.calm.traffic := by rw [h]
  exact hc

section Calm
variable (c : Cluster) (t : TaskId)

@[simp] theorem calm_wake : (c.wake t).calm = c.calm := by
  unfold wake
  split <;> rfl

@[simp] theorem calm_notify (s : Signal) : (c.notify s).calm = c.calm := by
  obtain ⟨woken, h⟩ := c.notify_eq s
  rw [h]
  rfl

@[simp] theorem calm_park (s : Signal) : (c.park t s).calm = c.calm := by
  obtain ⟨parked, h⟩ := c.park_eq t s
  rw [h]
  rfl

theorem calm_finish : (c.finish t).calm = { c with tasks := c.tasks.erase t }.calm :=
  calm_notify _ _

theorem calm_finish_congr {c c' : Cluster} (h : c'.calm = c.calm) (t : TaskId) :
    (c'.finish t).calm = (c.finish t).calm := by
  have hfinish : ∀ c : Cluster,
      (c.finish t).calm = { c.calm with tasks := c.calm.tasks.erase t } :=
    fun c => calm_finish c t
  rw [hfinish, hfinish, h]

theorem calm_awaitPop (key : String) (deadline : Nat) :
    (c.awaitPop t key deadline).1.calm = (c.tryPop key).1.calm := by
  unfold awaitPop
  split <;> rename_i h <;> rw [h]
  · split
    · rfl
    · exact calm_park _ t .pushed
  · rfl

theorem calm_decide (p : Nat) (id : Uuid) (changed : Engine × Bool) :
    (c.decide p id changed).1.calm = (c.setEngine p changed.1).calm := by
  unfold Cluster.decide
  dsimp only
  split
  · exact calm_notify _ _
  · rfl

end Calm

section Tasks
variable (c : Cluster) (t : TaskId)

theorem bind_put {α : Type} (tasks : Table TaskId Task) (task : Task) (f : Task → Option α) :
    (fun u => ((tasks.put t task).get? u).bind f) =
      Function.update (fun u => (tasks.get? u).bind f) t (f task) := by
  funext u
  rw [Table.get?_put, Function.update_apply]
  split <;> rfl

theorem bind_erase {α : Type} (tasks : Table TaskId Task) (f : Task → Option α) :
    (fun u => ((tasks.erase t).get? u).bind f) =
      Function.update (fun u => (tasks.get? u).bind f) t none := by
  funext u
  rw [Table.get?_erase, Function.update_apply]
  split <;> rfl

theorem traffic_setTask (task : Task) : (c.setTask t task).traffic = { c.traffic with
    caller := Function.update c.traffic.caller t task.caller?
    worker := Function.update c.traffic.worker t task.worker?
    replier := Function.update c.traffic.replier t task.replier? } := by
  unfold traffic setTask
  simp only [bind_put]
  rfl

theorem traffic_finish : (c.finish t).traffic = { c.traffic with
    caller := Function.update c.traffic.caller t none
    worker := Function.update c.traffic.worker t none
    replier := Function.update c.traffic.replier t none } := by
  rw [traffic_congr (calm_finish c t)]
  unfold traffic
  simp only [bind_erase]
  rfl

theorem update_same {α β : Type} [DecidableEq α] {f : α → β} {a : α} {b : β} (h : f a = b) :
    Function.update f a b = f := by
  rw [← h]
  exact Function.update_eq_self a f

variable {c t} in
theorem plays_of_get {task : Task} (h : c.tasks.get? t = some task) :
    c.traffic.caller t = task.caller? ∧ c.traffic.worker t = task.worker? ∧
      c.traffic.replier t = task.replier? := by
  simp only [traffic, h, Option.bind_some, and_self]

variable {c t} in
theorem plays_of_none (h : c.tasks.get? t = none) : c.traffic.caller t = none ∧
    c.traffic.worker t = none ∧ c.traffic.replier t = none := by
  simp only [traffic, h, Option.bind_none, and_self]

/-- A task that goes on in another phase plays the same part. -/
theorem traffic_setTask_same {old task : Task} (hget : c.tasks.get? t = some old)
    (hc : task.caller? = old.caller?) (hw : task.worker? = old.worker?)
    (hr : task.replier? = old.replier?) : (c.setTask t task).traffic = c.traffic := by
  obtain ⟨hcaller, hworker, hreplier⟩ := plays_of_get hget
  rw [traffic_setTask, update_same (hcaller.trans hc.symm), update_same (hworker.trans hw.symm),
    update_same (hreplier.trans hr.symm)]

/-- A task is over that was neither a caller nor a replier. -/
theorem traffic_finish_aside (hc : c.traffic.caller t = none) (hr : c.traffic.replier t = none) :
    (c.finish t).traffic =
      { c.traffic with worker := Function.update c.traffic.worker t none } := by
  rw [traffic_finish, update_same hc, update_same hr]

theorem traffic_spawn (task : Task) : (c.spawn task).1.traffic = { c.traffic with
    caller := Function.update c.traffic.caller c.nextTask task.caller?
    worker := Function.update c.traffic.worker c.nextTask task.worker?
    replier := Function.update c.traffic.replier c.nextTask task.replier?
    nextTask := c.nextTask + 1 } := by
  have hset := c.traffic_setTask c.nextTask task
  exact congrArg (fun s : Traffic.State => { s with nextTask := c.nextTask + 1 }) hset

end Tasks

section Processes
variable (c : Cluster) {p : Nat} {device : String} (t : TaskId)

theorem lock_updateProcess (f : Process → Process) (h : ∀ q, (f q).locks = q.locks) :
    (c.updateProcess p f).lock = c.lock := by
  funext q other
  simp only [lock, updateProcess, Table.get?_modify]
  split
  · cases c.processes.get? q with
    | none => rfl
    | some x =>
      simp only [Option.map_some, h]
  · rfl

/-- Processes change, though not their locks. -/
theorem traffic_updateProcess (f : Process → Process) (h : ∀ q, (f q).locks = q.locks) :
    ∃ outcome, (c.updateProcess p f).traffic = { c.traffic with outcome := outcome } := by
  refine ⟨(c.updateProcess p f).traffic.outcome, ?_⟩
  have hlock := lock_updateProcess c (p := p) f h
  unfold traffic
  rw [hlock]
  rfl

theorem traffic_setEngine (p : Nat) (e : Engine) :
    ∃ outcome, (c.setEngine p e).traffic = { c.traffic with outcome := outcome } :=
  c.traffic_updateProcess _ fun _ => rfl

theorem traffic_putLock {q : Process} (hq : c.processes.get? p = some q) (l : DeviceLock) :
    (c.updateProcess p fun q => { q with locks := q.locks.put device l }).traffic =
      { c.traffic with lock := c.traffic.setLock p device l } := by
  have houtcome : ∀ r, (c.updateProcess p fun q =>
      { q with locks := q.locks.put device l }).engine r = c.engine r :=
    fun r => engine_updateProcess c r p _ fun _ => rfl
  have hlock : (c.updateProcess p fun q => { q with locks := q.locks.put device l }).lock =
      c.traffic.setLock p device l := by
    funext r other
    simp only [lock, updateProcess, Table.get?_modify, Traffic.State.setLock, traffic]
    by_cases hr : r = p
    · subst hr
      simp only [hq, Option.map_some, Option.getD_some, if_true, Table.getD, Table.get?_put]
      by_cases ho : other = device
      · simp [ho]
      · simp [ho]
    · simp [hr]
  unfold traffic
  simp only [houtcome, hlock]
  rfl

theorem lock_of_get {q : Process} (hq : c.processes.get? p = some q) :
    c.lock p device = q.locks.getD device {} := by
  simp only [lock, hq, Option.map_some, Option.getD_some]

theorem traffic_acquire (device : String) (hp : c.processes.has p = true) :
    (c.acquire p device t).1.traffic =
        { c.traffic with lock := c.traffic.setLock p device ((c.lock p device).acquire t).1 } ∧
      (c.acquire p device t).2 = ((c.lock p device).acquire t).2 := by
  obtain ⟨q, hq⟩ := (Table.has_iff _ _).mp hp
  have hacquire : c.acquire p device t = (c.updateProcess p fun q => { q with
      locks := q.locks.put device ((c.lock p device).acquire t).1 },
        ((c.lock p device).acquire t).2) := by
    rw [acquire, hq, c.lock_of_get hq]
  rw [hacquire]
  exact ⟨c.traffic_putLock hq _, rfl⟩

theorem holds_iff (hp : c.processes.has p = true) :
    c.holds p device t = true ↔ (c.lock p device).owner = some t := by
  obtain ⟨q, hq⟩ := (Table.has_iff _ _).mp hp
  rw [holds, hq, c.lock_of_get hq]
  exact beq_iff_eq

theorem traffic_release (hp : c.processes.has p = true) : (c.release p device).traffic =
    { c.traffic with lock := c.traffic.setLock p device (c.lock p device).release.1 } := by
  obtain ⟨q, hq⟩ := (Table.has_iff _ _).mp hp
  have hrelease : (c.release p device).calm = (c.updateProcess p fun q => { q with
      locks := q.locks.put device (c.lock p device).release.1 }).calm := by
    rw [release, hq, c.lock_of_get hq]
    dsimp only
    split
    · rfl
    · exact calm_wake _ _
  rw [traffic_congr hrelease, c.traffic_putLock hq]

end Processes

section Lists
variable {c : Cluster}

/-- One list of jobs changes. -/
theorem traffic_jobs {device : String} {s : SharedStore} {l : List String}
    (h : SharedStore.Touches (BridgeJob.listKey device) c.store s)
    (hl : s.store.listed (BridgeJob.listKey device) c.now = l) :
    ({ c with store := s } : Cluster).traffic =
      { c.traffic with jobs := Function.update c.traffic.jobs device l } := by
  obtain ⟨hjobs, hreplies⟩ := h.jobs c.now
  have hl : s.jobs c.now device = l := hl
  unfold traffic
  dsimp only
  rw [hjobs, hreplies, hl]
  rfl

/-- One list of replies changes. -/
theorem traffic_replies {job : Uuid} {s : SharedStore} {l : List String}
    (h : SharedStore.Touches (BridgeJob.replyKey job) c.store s)
    (hl : s.store.listed (BridgeJob.replyKey job) c.now = l) :
    ({ c with store := s } : Cluster).traffic =
      { c.traffic with replies := Function.update c.traffic.replies job l } := by
  obtain ⟨hjobs, hreplies⟩ := h.replies c.now
  have hl : s.replies c.now job = l := hl
  unfold traffic
  dsimp only
  rw [hjobs, hreplies, hl]
  rfl

theorem push_holdsList (hup : c.store.down = []) (hf : c.store.store.Filed) {key : String}
    (hkey : Store.HoldsList key) (value : String) : ∃ store,
      c.push key value = (({ c with store := store } : Cluster).notify .pushed, .ok ()) ∧
        SharedStore.Touches key c.store store ∧
        store.store.listed key c.now = c.listed key ++ [value] := by
  obtain ⟨store, hstore⟩ := hf.rpush_ok hkey value c.now
  have hpush : c.store.rpush key value c.now = ({ c.store with store := store }, .ok ()) := by
    simp only [SharedStore.rpush, SharedStore.refusal_eq_none hup, hstore]
  refine ⟨{ c.store with store := store }, ?_, ?_, Store.listed_rpush hstore⟩
  · simp only [push, hpush]
  · have htouches := c.store.touches_rpush key c.now value
    rw [hpush] at htouches
    exact htouches

/-- A reply is added to its list, and nothing else happens to the traffic. -/
theorem pushReply_left (hup : c.store.down = []) (hf : c.store.store.Filed) (job : Uuid)
    (reply : BridgeReply) : ∃ store, (c.pushReply job reply).calm = { c with store := store }.calm ∧
      SharedStore.Touches (BridgeJob.replyKey job) c.store store ∧
      store.store.listed (BridgeJob.replyKey job) c.now =
        c.listed (BridgeJob.replyKey job) ++ [reply.text] := by
  obtain ⟨store, hpush, htouches, hlisted⟩ :=
    push_holdsList hup hf (Or.inr ⟨job, rfl⟩) reply.text
  have hrefusal := SharedStore.refusal_eq_none (htouches.down.trans hup) .expire
  refine ⟨(store.expire (BridgeJob.replyKey job) BridgeReply.ttl c.now).1, ?_,
    htouches.trans (store.touches_expire _ _ _), ?_⟩
  · obtain ⟨woken, hnotify⟩ := Cluster.notify_eq { c with store := store } .pushed
    simp only [pushReply, hpush, hnotify]
    rfl
  · rw [SharedStore.expire, hrefusal]
    exact (Store.listed_expire _ _ _ (by decide)).trans hlisted

theorem traffic_pushReply (hup : c.store.down = []) (hf : c.store.store.Filed) (job : Uuid)
    (reply : BridgeReply) : (c.pushReply job reply).traffic =
      { c.traffic with replies := c.traffic.reply job reply.text } := by
  obtain ⟨store, hcalm, htouches, hlisted⟩ := pushReply_left hup hf job reply
  rw [traffic_congr hcalm]
  exact traffic_replies htouches hlisted

/-- The head of a list comes off it, or there is none; then time is up, or the task waits. -/
theorem awaitPop_cases (hf : c.store.store.Filed) {key : String} (hkey : Store.HoldsList key)
    (t : TaskId) (deadline : Nat) :
    (∃ raw rest, c.listed key = raw :: rest ∧ (c.tryPop key).1.listed key = rest ∧
      c.awaitPop t key deadline = ((c.awaitPop t key deadline).1, some (.ok (some raw)))) ∨
    (c.listed key = [] ∧ (c.tryPop key).1.listed key = [] ∧
      (c.awaitPop t key deadline = ((c.awaitPop t key deadline).1, some (.ok none)) ∧
          deadline ≤ c.now ∨
        c.awaitPop t key deadline =
          (((c.tryPop key).1.park t .pushed).setTimer t deadline, none))) := by
  cases hl : c.listed key with
  | cons raw rest =>
    left
    refine ⟨raw, rest, rfl, (Store.tryPop_listed hl).2, ?_⟩
    rw [awaitPop_listed hl]
  | nil =>
    obtain ⟨hnone, hlisted⟩ := hf.tryPop_nil hkey hl
    have hpop : c.tryPop key = ((c.tryPop key).1, .ok none) := Prod.ext rfl hnone
    have hnow : (c.tryPop key).1.now = c.now := rfl
    refine Or.inr ⟨rfl, hlisted, ?_⟩
    rw [awaitPop, hpop]
    dsimp only
    rw [hnow]
    by_cases hd : deadline ≤ c.now
    · rw [if_pos hd]
      exact Or.inl ⟨rfl, hd⟩
    · rw [if_neg hd]
      exact Or.inr rfl

theorem traffic_awaitPop_jobs {device : String} {rest : List String}
    (h : (c.tryPop (BridgeJob.listKey device)).1.listed (BridgeJob.listKey device) = rest)
    (t : TaskId) (deadline : Nat) :
    (c.awaitPop t (BridgeJob.listKey device) deadline).1.traffic =
      { c.traffic with jobs := Function.update c.traffic.jobs device rest } := by
  rw [traffic_congr (calm_awaitPop ..)]
  exact traffic_jobs (c.touches_tryPop _) h

theorem traffic_awaitPop_replies {job : Uuid} {rest : List String}
    (h : (c.tryPop (BridgeJob.replyKey job)).1.listed (BridgeJob.replyKey job) = rest)
    (t : TaskId) (deadline : Nat) :
    (c.awaitPop t (BridgeJob.replyKey job) deadline).1.traffic =
      { c.traffic with replies := Function.update c.traffic.replies job rest } := by
  rw [traffic_congr (calm_awaitPop ..)]
  exact traffic_replies (c.touches_tryPop _) h

end Lists

end Cluster

end FleetControl
