import FleetControl.Proofs.Bridge.Refinement
import FleetControl.Proofs.Bridge.Waiting

/-! # Calls that go on in time

A call that can go on stands in the ready queue, and one that awaits a reply has its timer set.
Nothing that other tasks do changes this, and who gets a lock is woken. -/
namespace FleetControl.Cluster.Bridging
open Traffic (Caller Errand Wait Enabled Locked Timely next)

section Spares
variable (c : Cluster) (t : TaskId) (p : Nat)

theorem spares_updateProcess (f : Process → Process) : Spares t c (c.updateProcess p f) :=
  spares_of_same ⟨rfl, rfl, rfl, rfl⟩

theorem spares_setEngine (e : Engine) : Spares t c (c.setEngine p e) :=
  spares_updateProcess c t p _

theorem spares_decide (id : Uuid) (changed : Engine × Bool) :
    Spares t c (c.decide p id changed).1 := by
  have hset := spares_setEngine c t p changed.1
  unfold Cluster.decide
  dsimp only
  split
  · exact hset.trans (spares_notify _ t _)
  · exact hset

theorem spares_push (key value : String) : Spares t c (c.push key value).1 := by
  have hstore : ∀ store, Spares t c { c with store := store } :=
    fun _ => spares_of_same ⟨rfl, rfl, rfl, rfl⟩
  unfold push
  dsimp only
  split
  · exact (hstore _).trans (spares_notify _ t _)
  · exact hstore _

theorem spares_pushReply (job : Uuid) (reply : BridgeReply) :
    Spares t c (c.pushReply job reply) := by
  have hpush := spares_push c t (BridgeJob.replyKey job) reply.text
  unfold pushReply
  dsimp only
  split <;> rename_i h <;> rw [h] at hpush
  · exact hpush
  · exact hpush.trans (spares_of_same ⟨rfl, rfl, rfl, rfl⟩)

theorem spares_awaitPop (key : String) (deadline : Nat) :
    Spares t c (c.awaitPop t key deadline).1 := by
  have hpop : Spares t c (c.tryPop key).1 := spares_of_same ⟨rfl, rfl, rfl, rfl⟩
  unfold awaitPop
  split <;> rename_i h <;> rw [h] at hpop
  · split
    · exact hpop.trans (spares_unwait _ t)
    · exact (hpop.trans (spares_park _ t t _)).trans (spares_setTimer _ t deadline)
  · exact hpop.trans (spares_unwait _ t)

theorem spares_awaitOutcome (id : Uuid) : Spares t c (c.awaitOutcome t p id).1 := by
  unfold awaitOutcome
  split
  · exact Spares.refl t c
  · exact spares_park c t t _

theorem spares_enqueue (device : String) (command : Command) (blob : Option ByteArray)
    (timeout : Nat) : Spares t c (c.enqueue p device command blob timeout).1 := by
  have hfresh : Spares t c c.freshId.1 := spares_of_same ⟨rfl, rfl, rfl, rfl⟩
  have hspawn := hfresh.trans (spares_spawn _ t (.expiry p c.freshId.2 (c.now + timeout)))
  exact (hspawn.trans (spares_setEngine _ t p _)).trans (spares_notify _ t _)

theorem spares_handleJob (device raw : String) : Spares t c (c.handleJob p device raw) := by
  unfold handleJob
  split
  · exact Spares.refl t c
  · exact spares_pushReply c t _ _
  · exact (spares_enqueue c t p device _ _ _).trans (spares_spawn _ t _)

theorem spares_acquire (device : String) : Spares t c (c.acquire p device t).1 := by
  unfold acquire
  split
  · exact Spares.refl t c
  · exact spares_updateProcess c t p _

theorem spares_release (device : String) : Spares t c (c.release p device) := by
  unfold release
  split
  · exact Spares.refl t c
  · dsimp only
    split
    · exact spares_updateProcess c t p _
    · exact (spares_updateProcess c t p _).trans (spares_wake _ t _)

theorem spares_submit (device : String) (command : Command) (blob : Option ByteArray)
    (timeout : Nat) : Spares t c (c.submit p device command blob timeout).1 := by
  have hfresh : Spares t c c.freshId.1 := spares_of_same ⟨rfl, rfl, rfl, rfl⟩
  have hpush := hfresh.trans (spares_push c.freshId.1 t (BridgeJob.listKey device)
    (BridgeJob.make c.freshId.2 device command blob timeout c.freshId.1.wall).text)
  unfold submit
  dsimp only
  split <;> rename_i h <;> rw [h] at hpush
  · exact hpush.trans (spares_release _ t p device)
  · split
    · exact hpush.trans (spares_release _ t p device)
    · exact hpush

theorem spares_workerTurn (device : String) (phase : WorkerPhase) :
    Spares t c (c.workerTurn t p device phase).1 := by
  have hset : ∀ {c' : Cluster} (task : Task), Spares t c c' → Spares t c (c'.setTask t task) :=
    fun _ h => h.trans (spares_of_same ⟨rfl, rfl, rfl, rfl⟩)
  cases phase with
  | ready => exact hset _ (Spares.refl t c)
  | pausing due =>
    rw [workerTurn]
    split
    · exact hset _ (Spares.refl t c)
    · exact spares_setTimer c t due
  | polling deadline =>
    have hpop := spares_awaitPop c t (BridgeJob.listKey device) deadline
    rw [workerTurn]
    split <;> rename_i h <;> rw [h] at hpop
    · exact hpop
    · rename_i c' raw
      cases raw with
      | none => exact hset _ hpop
      | some raw => exact hset _ (hpop.trans (spares_handleJob c' t p device raw))
    · exact hset _ hpop

theorem spares_replierTurn (id job : Uuid) : Spares t c (c.replierTurn t p id job).1 := by
  have hwait := spares_awaitOutcome c t p id
  unfold replierTurn
  split <;> rename_i h <;> rw [h] at hwait
  · exact hwait.trans (spares_pushReply _ t job _)
  · exact hwait

/-- A call over the bridge keeps nobody else from going on. -/
theorem spares_callTurn (x : Caller) {phase : CallPhase}
    (hx : x.task = .call p true phase) : Spares t c (c.callTurn t p true phase).1 := by
  cases x with
  | asking e =>
    cases hx
    rw [callTurn, carry, if_neg (by simp)]
    exact (spares_acquire c t _ _).trans (spares_of_same ⟨rfl, rfl, rfl, rfl⟩)
  | queueing e =>
    cases hx
    have hsubmit := spares_submit c t e.process e.device e.command e.blob e.timeout
    rw [callTurn]
    split
    · split <;> rename_i h <;> rw [h] at hsubmit
      · exact hsubmit.trans (spares_of_same ⟨rfl, rfl, rfl, rfl⟩)
      · exact hsubmit.trans (spares_of_same ⟨rfl, rfl, rfl, rfl⟩)
    · exact Spares.refl t c
  | awaiting w =>
    cases hx
    have hpop := spares_awaitPop c t (BridgeJob.replyKey w.job) w.deadline
    rw [callTurn]
    split <;> rename_i h <;> rw [h] at hpop
    · exact hpop
    · exact (hpop.trans (spares_release _ t _ _)).trans (spares_of_same ⟨rfl, rfl, rfl, rfl⟩)

end Spares

/-- A call goes on now, or when its turn or its time comes. -/
def Urgent (c : Cluster) (t : TaskId) : Caller → Prop
  | .asking _ => t ∈ c.ready
  | .queueing e => (c.lock e.process e.device).owner = some t → t ∈ c.ready
  | .awaiting w => Armed c t w.deadline

def Prompt (c : Cluster) : Prop := ∀ t x, c.traffic.caller t = some x → Urgent c t x

/-- Who gets a lock in the turn of a task goes on, and so does the task itself. -/
structure Attends (t : TaskId) (c c' : Cluster) : Prop where
  hands : ∀ p device u, (c'.lock p device).owner = some u →
    (c.lock p device).owner = some u ∨ u ∈ c'.ready
  self : ∀ x, c'.traffic.caller t = some x → Urgent c' t x

section Turns
variable {c c' : Cluster} {t : TaskId}

theorem urgent_of_ready (h : t ∈ c.ready) (x : Caller) : Urgent c t x := by
  cases x with
  | asking e => exact h
  | queueing e => exact fun _ => h
  | awaiting w => exact Or.inl h

theorem spares_turn (h : Orderly c) (t : TaskId) : Spares t c (turn c t).1 := by
  unfold turn
  cases hget : c.tasks.get? t with
  | none => exact Spares.refl t c
  | some task =>
    cases h.bridged t task hget with
    | expiry p id deadline =>
      dsimp only
      unfold expiryTurn
      split
      · exact spares_decide c t p id _
      · exact spares_setTimer c t deadline
    | worker p device phase => exact spares_workerTurn c t p device phase
    | replier p id job => exact spares_replierTurn c t p id job
    | asking e hp => exact spares_callTurn c t e.process (.asking e) rfl
    | queueing e hp => exact spares_callTurn c t e.process (.queueing e) rfl
    | awaiting w hp => exact spares_callTurn c t w.process (.awaiting w) rfl

/-- The turn of a task that is no call leaves calls and locks alone. -/
theorem Follows.idle (h : Follows (some t) c c') (hnone : c.traffic.caller t = none) :
    c'.traffic.caller = c.traffic.caller ∧ c'.lock = c.lock := by
  obtain ⟨e, he, hby, hnext⟩ := h
  have hlock : c'.lock = c'.traffic.lock := rfl
  rw [hlock, hnext]
  cases e with
  | pass now replies => cases hby
  | start e => cases hby
  | ask u e =>
    cases hby
    rw [show c.traffic.caller t = _ from he] at hnone
    cases hnone
  | post u e | collect u w raw rest | giveUp u w =>
    cases hby
    rw [he.1] at hnone
    cases hnone
  | _ => exact ⟨rfl, rfl⟩

theorem attends_idle (h : Follows (some t) c c') (hnone : c.traffic.caller t = none) :
    Attends t c c' := by
  obtain ⟨hcaller, hlock⟩ := h.idle hnone
  refine ⟨fun p device u hu => Or.inl (hlock ▸ hu), fun x hx => ?_⟩
  rw [hcaller, hnone] at hx
  cases hx

theorem lock_congr {c c' : Cluster} (h : c'.processes = c.processes) : c'.lock = c.lock := by
  funext p device
  rw [lock, lock, h]

/-- Who asks gets a lock that is free, and nobody else gets one. -/
theorem owner_acquire (c : Cluster) {p : Nat} (hp : c.processes.has p = true) (device : String)
    (t : TaskId) {q : Nat} {other : String} {u : TaskId}
    (hu : ((c.acquire p device t).1.lock q other).owner = some u) :
    (c.lock q other).owner = some u ∨ u = t ∧ (c.lock p device).owner = none := by
  have hlock : (c.acquire p device t).1.lock =
      c.traffic.setLock p device ((c.lock p device).acquire t).1 :=
    congrArg (·.lock) (c.traffic_acquire t device hp).1
  rw [hlock, Traffic.State.setLock] at hu
  split at hu
  · rename_i hplace
    obtain ⟨rfl, rfl⟩ := hplace
    unfold DeviceLock.acquire at hu
    split at hu
    · rename_i hnone
      exact Or.inr ⟨(Option.some.inj hu).symm, hnone⟩
    · exact Or.inl hu
  · exact Or.inl hu

theorem attends_asking {e : Errand} (hl : Locked c.traffic)
    (hp : c.processes.has e.process = true)
    (hget : c.tasks.get? t = some (Caller.asking e).task) :
    Attends t c (conclude t (c.callTurn t e.process true
      (.running (.send e.device e.command e.blob e.timeout Traffic.handOn)))) := by
  obtain ⟨-, htaken⟩ := c.traffic_acquire t e.device hp
  rw [callTurn, carry, if_neg (by simp)]
  dsimp only
  rw [htaken]
  cases ho : (c.lock e.process e.device).owner with
  | none =>
    have hfirst : ((c.lock e.process e.device).acquire t).2 = true := by
      rw [DeviceLock.acquire, ho]
    rw [hfirst]
    refine ⟨fun p device u hu => (owner_acquire c hp e.device t hu).imp_right ?_, fun x _ => ?_⟩
    · rintro ⟨rfl, -⟩
      exact List.mem_cons_self
    · exact urgent_of_ready List.mem_cons_self x
  | some o =>
    have hlater : ((c.lock e.process e.device).acquire t).2 = false := by
      rw [DeviceLock.acquire, ho]
    have hold : ∀ p device u, ((c.acquire e.process e.device t).1.lock p device).owner = some u →
        (c.lock p device).owner = some u := by
      intro p device u hu
      refine (owner_acquire c hp e.device t hu).resolve_right ?_
      rintro ⟨-, hnone⟩
      rw [ho] at hnone
      cases hnone
    rw [hlater]
    refine ⟨fun p device u hu => Or.inl (hold p device u hu), fun x hx => ?_⟩
    let left := (c.acquire e.process e.device t).1.setTask t (Caller.queueing e).task
    have hself : left.traffic.caller t = some (.queueing e) :=
      (plays_of_get (c := left) (Table.get?_put_self ..)).1
    obtain rfl : x = .queueing e := Option.some.inj (hx.symm.trans hself)
    -- It stood in no line before, so the lock is another's.
    intro hu
    cases hl.place (DeviceLock.owner_mem_line (hold _ _ t hu)) (plays_of_get hget).1

theorem attends_queueing {e : Errand} (h : Orderly c) (hp : c.processes.has e.process = true)
    (hget : c.tasks.get? t = some (Caller.queueing e).task) :
    Attends t c (conclude t (c.callTurn t e.process true
      (.submitting e.device e.command e.blob e.timeout Traffic.handOn))) := by
  rw [callTurn]
  split
  · obtain ⟨c₁, hsubmit, -, -, hprocesses, -⟩ :=
      submit_left h e.process e.device e.command e.blob e.timeout
    rw [hsubmit]
    refine ⟨fun p device u hu => Or.inl ?_, fun x _ => urgent_of_ready List.mem_cons_self x⟩
    rw [← lock_congr hprocesses]
    exact hu
  · rename_i hholds
    refine ⟨fun p device u hu => Or.inl hu, fun x hx => ?_⟩
    obtain rfl : x = .queueing e := Option.some.inj (hx.symm.trans (plays_of_get hget).1)
    exact fun hu => absurd ((c.holds_iff t hp).mpr hu) hholds

/-- Who gets a lock that is given back is woken. -/
theorem owner_release (c : Cluster) {p : Nat} (hp : c.processes.has p = true) (device : String)
    {q : Nat} {other : String} {u : TaskId}
    (hu : ((c.release p device).lock q other).owner = some u) :
    (c.lock q other).owner = some u ∨
      u ∈ (c.lock p device).waiting ∧ u ∈ (c.release p device).ready := by
  have hlock : (c.release p device).lock =
      c.traffic.setLock p device (c.lock p device).release.1 :=
    congrArg (·.lock) (c.traffic_release hp)
  rw [hlock, Traffic.State.setLock] at hu
  split at hu
  · right
    obtain ⟨x, hx⟩ := (Table.has_iff _ _).mp hp
    rw [DeviceLock.owner_release] at hu
    cases hwaiting : (c.lock p device).waiting with
    | nil =>
      rw [hwaiting] at hu
      cases hu
    | cons v rest =>
      rw [hwaiting] at hu
      cases hu
      refine ⟨List.mem_cons_self, ?_⟩
      rw [c.lock_of_get hx] at hwaiting
      simp only [release, hx, DeviceLock.release, hwaiting]
      exact mem_ready_wake _ u
  · exact Or.inl hu

/-- A call that is over hands its lock on. -/
theorem attends_over {w : Wait} (hl : Locked c.traffic) (hp : c.processes.has w.process = true)
    (hcaller : c.traffic.caller t = some (.awaiting w)) {c₁ : Cluster}
    (hprocesses : c₁.processes = c.processes) (r : CommandOutcome) :
    Attends t c (conclude t
      ((c₁.release w.process w.device).carry t w.process true (Traffic.handOn r))) := by
  let ended := (c₁.release w.process w.device).deliver t (.answer (r.map .reply))
  change Attends t c (ended.finish t)
  have hlock := lock_congr hprocesses
  have hover : (ended.finish t).lock = (c₁.release w.process w.device).lock :=
    lock_congr (processes_finish ended t)
  refine ⟨fun p device u hu => ?_, fun x hx => ?_⟩
  · rw [hover] at hu
    rcases owner_release c₁ (hprocesses ▸ hp) w.device hu with hsame | ⟨hwaiting, hready⟩
    · exact Or.inl (hlock ▸ hsame)
    · right
      have hne : u ≠ t := by
        rintro rfl
        rw [hlock] at hwaiting
        exact (hl.held hcaller).2 hwaiting
      exact (spares_finish ended t).ready u hne hready
  · have hnone : (ended.finish t).tasks.get? t = none := by
      rw [tasks_finish]
      exact Table.get?_erase_self _ _
    rw [(plays_of_none hnone).1] at hx
    cases hx

theorem attends_awaiting {w : Wait} (h : Orderly c) (hl : Locked c.traffic)
    (hp : c.processes.has w.process = true)
    (hget : c.tasks.get? t = some (Caller.awaiting w).task) :
    Attends t c (conclude t (c.callTurn t w.process true
      (.awaitingReply w.job w.device w.command w.timeout w.deadline Traffic.handOn))) := by
  have hcaller : c.traffic.caller t = some (.awaiting w) := (plays_of_get hget).1
  have hprocesses : (c.awaitPop t (BridgeJob.replyKey w.job) w.deadline).1.processes =
      c.processes := congrArg (·.processes) (calm_awaitPop c t _ w.deadline)
  rw [callTurn]
  obtain ⟨raw, rest, -, -, hpop⟩ | ⟨-, -, ⟨hpop, -⟩ | hpop⟩ :=
    awaitPop_cases h.filed (Or.inr ⟨w.job, rfl⟩) t w.deadline
  · rw [hpop]
    exact attends_over hl hp hcaller hprocesses _
  · rw [hpop]
    exact attends_over hl hp hcaller hprocesses _
  · have htasks : (c.awaitPop t (BridgeJob.replyKey w.job) w.deadline).1.tasks = c.tasks :=
      congrArg (·.tasks) (calm_awaitPop c t (BridgeJob.replyKey w.job) w.deadline)
    rw [hpop] at hprocesses htasks ⊢
    refine ⟨fun p device u hu => Or.inl (lock_congr hprocesses ▸ hu), fun x hx => ?_⟩
    have hself : (((c.tryPop (BridgeJob.replyKey w.job)).1.park t .pushed).setTimer t
        w.deadline).traffic.caller t = some (.awaiting w) := (plays_of_get (htasks ▸ hget)).1
    obtain rfl : x = .awaiting w := Option.some.inj (hx.symm.trans hself)
    exact Or.inr (List.mem_append_right _ (List.mem_singleton_self _))

theorem attends_turn (h : Orderly c) (hl : Locked c.traffic) (t : TaskId) :
    Attends t c (conclude t (turn c t)) := by
  cases hcaller : c.traffic.caller t with
  | none => exact attends_idle (goes_turn h t).1 hcaller
  | some x =>
    unfold turn
    cases hget : c.tasks.get? t with
    | none =>
      rw [(plays_of_none hget).1] at hcaller
      cases hcaller
    | some task =>
      rw [(plays_of_get hget).1] at hcaller
      cases h.bridged t task hget with
      | expiry p id deadline => cases hcaller
      | worker p device phase => cases hcaller
      | replier p id job => cases hcaller
      | asking e hp => exact attends_asking hl hp hget
      | queueing e hp => exact attends_queueing h hp hget
      | awaiting w hp => exact attends_awaiting h hl hp hget

theorem Urgent.spared {u : TaskId} {x : Caller} (h : Urgent c u x) (hs : Spares t c c')
    (hu : u ≠ t) (hhands : ∀ p device, (c'.lock p device).owner = some u →
      (c.lock p device).owner = some u ∨ u ∈ c'.ready) : Urgent c' u x := by
  cases x with
  | asking e => exact hs.ready u hu h
  | queueing e =>
    intro howner
    rcases hhands _ _ howner with howner | hready
    · exact hs.ready u hu (h howner)
    · exact hready
  | awaiting w => exact hs.armed hu h

/-- Calls go on in time if what happens spares them, and attends to the task that has its turn. -/
theorem Prompt.spared (h : Prompt c) (hs : Spares t c c') (ha : Attends t c c')
    (hothers : ∀ u x, u ≠ t → c'.traffic.caller u = some x →
      c.traffic.caller u = some x ∨ u ∈ c'.ready) : Prompt c' := by
  intro u x hx
  by_cases hu : u = t
  · subst hu
    exact ha.self x hx
  · rcases hothers u x hu hx with hold | hready
    · exact (h u x hold).spared hs hu fun p device => ha.hands p device u
    · exact urgent_of_ready hready x

theorem Follows.others (h : Follows (some t) c c') {u : TaskId} (hu : u ≠ t) :
    c'.traffic.caller u = c.traffic.caller u := by
  obtain ⟨e, he, hby, hnext⟩ := h
  rw [hnext]
  cases e with
  | pass now replies => cases hby
  | start e => cases hby
  | ask v e | post v e | collect v w raw rest | giveUp v w =>
    cases hby
    exact Function.update_of_ne hu _ _
  | _ => rfl

/-- A task is taken off the queue, and nobody else. -/
theorem spares_taken (c : Cluster) (t : TaskId) :
    Spares t c { c with ready := c.ready.erase t } :=
  ⟨rfl, rfl, fun _ hu hmem => (List.mem_erase_of_ne hu).mpr hmem, fun _ _ _ hmem => hmem⟩

theorem spares_give (ho : Orderly c) (t : TaskId) : Spares t c (c.give t) := by
  by_cases hr : t ∈ c.ready
  · have htaken : Orderly { c with ready := c.ready.erase t } := ho.congr rfl
    rw [give_of_mem hr]
    exact (spares_taken c t).trans (spares_conclude _ t _ (spares_turn htaken t))
  · rw [give_of_not_mem hr]
    exact Spares.refl t c

theorem prompt_give (h : Prompt c) (ho : Orderly c) (hl : Locked c.traffic) (t : TaskId) :
    Prompt (c.give t) := by
  have hspares := spares_give ho t
  by_cases hr : t ∈ c.ready
  · have htaken : Orderly { c with ready := c.ready.erase t } := ho.congr rfl
    have hattends := attends_turn htaken hl t
    have hfollows := (goes_turn htaken t).1
    rw [give_of_mem hr] at hspares ⊢
    refine h.spared hspares ⟨hattends.hands, hattends.self⟩ fun u x hu hx => Or.inl ?_
    exact (hfollows.others hu).symm.trans hx
  · rw [give_of_not_mem hr]
    exact h

/-- Time passes only while no call can go on, and no further than to where one waits for. -/
theorem follows_pass (h : Prompt c) (ho : Orderly c) (ms : Nat) : Follows none c (c.pass ms) := by
  by_cases hr : c.ready = []
  · obtain ⟨now, woken, he, hle, hbound, -⟩ := pass_eq hr ms
    rw [he]
    have hidle : ∀ t, t ∉ c.ready := fun t ht => by simp [hr] at ht
    have hjobs : c.store.jobs now = c.store.jobs c.now :=
      funext fun device => ho.filed.listed_jobs device c.now now
    refine ⟨.pass now (c.store.replies now), ⟨⟨hle, ?_, ?_, ?_⟩, ?_⟩, rfl, ?_⟩
    · exact fun t e he => absurd (h t _ he) (hidle t)
    · exact fun t e he howner => absurd (h t _ he howner) (hidle t)
    · intro t w hw
      exact hbound _ ((h t _ hw).resolve_left (hidle t))
    · exact fun job => c.store.store.listed_later _ hle
    · unfold traffic
      dsimp only
      rw [hjobs]
      rfl
  · rw [pass_of_ready hr]
    exact follows_same rfl

theorem orderly_pass (ho : Orderly c) (ms : Nat) : Orderly (c.pass ms) := by
  obtain ⟨now, timers, ready, -, he⟩ := pass_keeps c ms
  rw [he]
  exact ⟨ho.up, ho.filed, ho.bridged, ho.started, ho.workers⟩

theorem prompt_pass (h : Prompt c) (ht : Timely c.traffic) (ms : Nat) : Prompt (c.pass ms) := by
  by_cases hr : c.ready = []
  · have hidle : ∀ t, t ∉ c.ready := fun t ht => by simp [hr] at ht
    obtain ⟨now, timers, ready, -, he⟩ := pass_keeps c ms
    intro t x hx
    have hold : c.traffic.caller t = some x := by
      rw [he] at hx
      exact hx
    have hlock : (c.pass ms).lock = c.lock := lock_congr (by rw [he])
    cases x with
    | asking e => exact absurd (h t _ hold) (hidle t)
    | queueing e =>
      intro howner
      rw [hlock] at howner
      exact absurd (h t _ hold howner) (hidle t)
    | awaiting w => exact ((h t _ hold).pass (ht t w hold) ms).1
  · rw [pass_of_ready hr]
    exact h

end Turns

end FleetControl.Cluster.Bridging
