import FleetControl.Proofs.Bridge.Minding
import FleetControl.Proofs.Bridge.Transfer
import FleetControl.Proofs.Bridge.Verdict
import FleetControl.Proofs.Cluster.Filing

/-! # Handling jobs

Workers take whatever stands on the job lists, beside engines that are used in any order, tasks
that get their turns in any order and a store that may be out of order for a while. Every entry is
disposed of once, and every command that is queued for a job is answered once. -/
namespace FleetControl.Cluster.Handling

/-- What can happen. -/
inductive Act where
  | outage (down : List StoreOp)
  | post (device raw : String)
  | collect (job : Uuid)
  | hire (p : Nat) (device : String)
  | enqueue (p : Nat) (device : String) (command : Command) (blob : Option ByteArray)
      (timeout : Nat)
  | consume (p : Nat) (device : String)
  | mark (p : Nat) (id conn : Uuid)
  | unmark (p : Nat) (id : Uuid)
  | requeue (p : Nat) (item : QueuedCommand)
  | resolve (p : Nat) (id : Uuid) (outcome : CommandOutcome)
  | respond (p : Nat) (id : Uuid) (ok : Bool) (result : Json) (body : Option ByteArray)
  | fail (p : Nat) (conn : Uuid)
  | turn (t : TaskId)
  | pass (ms : Nat)

def act (c : Cluster) : Act → Cluster
  | .outage down => c.setOutages down
  | .post device raw => (c.push (BridgeJob.listKey device) raw).1
  | .collect job => (c.tryPop (BridgeJob.replyKey job)).1
  | .hire p device => (c.spawn (.worker p device .ready)).1
  | .enqueue p device command blob timeout => (c.enqueue p device command blob timeout).1
  | .consume p device => (c.consume p device).1
  | .mark p id conn => c.setEngine p ((c.engine p).markSent id conn).1
  | .unmark p id => c.setEngine p ((c.engine p).unmark id)
  | .requeue p item => c.requeueFront p item
  | .resolve p id outcome => (c.resolve p id outcome).1
  | .respond p id ok result body => (c.resolveResponse p id ok result body).1
  | .fail p conn => (c.failConnection p conn).1
  | .turn t => c.give t
  | .pass ms => c.pass ms

def play (c : Cluster) : List Act → Cluster
  | [] => c
  | a :: as => play (act c a) as

/-- Every replier can go on, or waits for an outcome that is not there yet. -/
structure Tended (c : Cluster) : Prop where
  tasks : ∀ t task, c.tasks.get? t = some task → t < c.nextTask ∧ task.OfBridge
  waits : ∀ t p id job, c.tasks.get? t = some (.replier p id job) →
    t ∈ c.ready ∨ ((.decided p id, t) ∈ c.parked ∧ (c.engine p).outcome? id = none)

section Tended
variable {c c' : Cluster}

/-- What holds of tasks that have not had a turn. -/
theorem Tended.minds (h : Tended c) {t u : TaskId} (hm : Minds t c c') (hu : u ≠ t) :
    (∀ task, c'.tasks.get? u = some task → u < c'.nextTask ∧ task.OfBridge) ∧
    ∀ p id job, c'.tasks.get? u = some (.replier p id job) →
      u ∈ c'.ready ∨ ((.decided p id, u) ∈ c'.parked ∧ (c'.engine p).outcome? id = none) := by
  have horigin (task : Task) (hget : c'.tasks.get? u = some task) :
      c.tasks.get? u = some task ∨ (u < c'.nextTask ∧ u ∈ c'.ready ∧ task.OfBridge) := by
    rcases Nat.lt_or_ge u c.nextTask with hlt | hge
    · exact .inl ((hm.tasks u hu hlt).symm.trans hget)
    · exact hm.born u task hu hge hget
  constructor
  · intro task hget
    rcases horigin task hget with hold | ⟨hlt, -, hkind⟩
    · obtain ⟨hlt, hkind⟩ := h.tasks u task hold
      exact ⟨Nat.lt_of_lt_of_le hlt hm.onward, hkind⟩
    · exact ⟨hlt, hkind⟩
  · intro p id job hget
    rcases horigin _ hget with hold | ⟨-, hr, -⟩
    · rcases h.waits u p id job hold with hr | ⟨hp, hnone⟩
      · exact .inl (hm.ready u hu hr)
      · exact hm.waiting u p id hu hp hnone
    · exact .inl hr

/-- Nobody has a turn. -/
theorem Tended.of_minds (h : Tended c) (hm : ∀ t, Minds t c c') : Tended c' := by
  -- Whoever may do as it likes, it need not be this task.
  have hother (u : TaskId) := h.minds (hm (u + 1)) (Nat.ne_of_lt (Nat.lt_succ_self u))
  exact ⟨fun u => (hother u).1, fun u => (hother u).2⟩

/-- What becomes of the task whose turn it is: it is over, or the replier that it is waits. -/
structure Attends (t : TaskId) (c c' : Cluster) : Prop where
  task : ∀ task, c'.tasks.get? t = some task → t < c'.nextTask ∧ task.OfBridge
  waits : ∀ p id job, c'.tasks.get? t = some (.replier p id job) →
    c.tasks.get? t = some (.replier p id job) ∧ (c.engine p).outcome? id = none ∧
      (.decided p id, t) ∈ c'.parked ∧ (c'.engine p).outcome? id = none

theorem tended_turn (h : Tended c) {t : TaskId} (hm : Minds t c c') (ha : Attends t c c') :
    Tended c' := by
  refine ⟨fun u => ?_, fun u => ?_⟩ <;> by_cases hu : u = t
  · rw [hu]
    exact ha.task
  · exact (h.minds hm hu).1
  · rw [hu]
    intro p id job hget
    obtain ⟨-, -, hparked, hnone⟩ := ha.waits p id job hget
    exact .inr ⟨hparked, hnone⟩
  · exact (h.minds hm hu).2

theorem attends_over (t : TaskId) (c c' : Cluster) : Attends t c (c'.finish t) := by
  have hgone {task : Task} : (c'.finish t).tasks.get? t ≠ some task := by
    rw [tasks_finish, Table.get?_erase_self]
    simp
  exact ⟨fun _ hget => absurd hget hgone, fun _ _ _ hget => absurd hget hgone⟩

/-- A task that is no replier goes on. -/
theorem attends_of_get {t : TaskId} {task : Task} (hget : c'.tasks.get? t = some task)
    (hlt : t < c'.nextTask) (hkind : task.OfBridge)
    (hother : ∀ p id job, task ≠ .replier p id job) : Attends t c c' := by
  constructor
  · intro task' hget'
    cases hget.symm.trans hget'
    exact ⟨hlt, hkind⟩
  · intro p id job hget'
    exact absurd (Option.some.inj (hget.symm.trans hget')) (hother p id job)

theorem attends_conclude {t : TaskId} {r : Cluster × Turn} (h : r.2 ≠ .over → Attends t c r.1) :
    Attends t c (conclude t r) := by
  obtain ⟨c₁, ends⟩ := r
  cases ends with
  | again =>
    have ha : Attends t c c₁ := h nofun
    exact ⟨ha.task, ha.waits⟩
  | waits => exact h nofun
  | _ => exact attends_over t c c₁

theorem tasks_awaitPop (c : Cluster) (t : TaskId) (key : String) (deadline : Nat) :
    (c.awaitPop t key deadline).1.tasks = c.tasks := by
  have hpop : (c.tryPop key).1.tasks = c.tasks := rfl
  unfold awaitPop
  split <;> rename_i h <;> rw [h] at hpop
  · split
    · exact hpop
    · exact (tasks_park _ t .pushed).trans hpop
  · exact hpop

theorem attends_workerTurn {t : TaskId} {p : Nat} {device : String} {phase : WorkerPhase}
    (hget : c.tasks.get? t = some (.worker p device phase))
    (hlt : t < (c.workerTurn t p device phase).1.nextTask) :
    Attends t c (c.workerTurn t p device phase).1 := by
  have hset (c₁ : Cluster) (phase' : WorkerPhase) :
      (c₁.setTask t (.worker p device phase')).tasks.get? t = some (.worker p device phase') :=
    Table.get?_put_self ..
  have hkeep {c₁ : Cluster} (phase' : WorkerPhase) (hlt : t < c₁.nextTask)
      (hget : c₁.tasks.get? t = some (.worker p device phase')) : Attends t c c₁ :=
    attends_of_get hget hlt (.worker p device phase') nofun
  cases phase with
  | ready => exact hkeep _ hlt (hset ..)
  | pausing due =>
    rw [workerTurn] at hlt ⊢
    split at hlt <;> rename_i hdue
    · rw [if_pos hdue]
      exact hkeep _ hlt (hset ..)
    · rw [if_neg hdue]
      exact hkeep _ hlt hget
  | polling deadline =>
    have htasks := tasks_awaitPop c t (BridgeJob.listKey device) deadline
    rw [workerTurn] at hlt ⊢
    split <;> rename_i h <;> rw [h] at hlt htasks
    · exact hkeep _ hlt ((congrArg (·.get? t) htasks).trans hget)
    · exact hkeep _ hlt (hset ..)
    · exact hkeep _ hlt (hset ..)

theorem attends_turn {t : TaskId} {task : Task} (hget : c.tasks.get? t = some task)
    (hkind : task.OfBridge) (hlt : t < (turn c t).1.nextTask)
    (hgoes : (turn c t).2 ≠ .over) : Attends t c (turn c t).1 := by
  unfold turn at hlt hgoes ⊢
  rw [hget] at hlt hgoes ⊢
  cases hkind with
  | expiry p id deadline =>
    dsimp only at hlt hgoes ⊢
    unfold expiryTurn at hlt hgoes ⊢
    split at hgoes
    · exact absurd rfl hgoes
    · rename_i hdue
      rw [if_neg hdue] at hlt ⊢
      exact attends_of_get hget hlt (.expiry p id deadline) nofun
  | consumer p device =>
    dsimp only at hlt hgoes ⊢
    unfold consumerTurn at hlt hgoes ⊢
    have htasks : (c.popLive p device).1.tasks = c.tasks := rfl
    split at hgoes <;> rename_i h <;> rw [h] at hlt htasks
    · exact absurd rfl hgoes
    · refine attends_of_get ?_ hlt (.consumer p device) nofun
      rw [tasks_park, htasks]
      exact hget
  | worker p device phase => exact attends_workerTurn hget hlt
  | replier p id job =>
    dsimp only at hlt hgoes ⊢
    unfold replierTurn awaitOutcome at hlt hgoes ⊢
    cases hnone : (c.engine p).outcome? id with
    | some o =>
      rw [hnone] at hgoes
      exact absurd rfl hgoes
    | none =>
      rw [hnone] at hlt
      have htask : (c.park t (.decided p id)).tasks.get? t = some (.replier p id job) := by
        rw [tasks_park]
        exact hget
      constructor
      · intro task' hget'
        cases htask.symm.trans hget'
        exact ⟨hlt, .replier p id job⟩
      · intro q i j hget'
        cases htask.symm.trans hget'
        exact ⟨hget, hnone, mem_park .., by rw [engine_park]; exact hnone⟩

theorem minds_taken (c : Cluster) (t : TaskId) :
    Minds t c { c with ready := c.ready.erase t } :=
  ⟨Nat.le_refl _, fun _ _ _ => rfl, fun _ hu hr => (List.mem_erase_of_ne hu).mpr hr,
    fun _ _ _ _ hp hnone => .inr ⟨hp, hnone⟩, fun _ _ _ _ hget => .inl hget⟩

theorem minds_give (h : Tended c) (t : TaskId) : Minds t c (c.give t) := by
  by_cases ht : t ∈ c.ready
  · rw [give_of_mem ht]
    refine minds_conclude t c _ ((minds_taken c t).trans ?_)
    cases hget : c.tasks.get? t with
    | none => rw [turn, hget]; exact .refl t _
    | some task => exact minds_turn t _ hget (h.tasks t task hget).2
  · rw [give_of_not_mem ht]
    exact .refl t c

theorem attends_give (h : Tended c) {t : TaskId} (ht : t ∈ c.ready) : Attends t c (c.give t) := by
  have hm := minds_give h t
  rw [give_of_mem ht] at hm ⊢
  refine attends_conclude fun hgoes => ?_
  cases hget : c.tasks.get? t with
  | none =>
    rw [turn, hget] at hgoes
    exact absurd rfl hgoes
  | some task =>
    obtain ⟨hlt, hkind⟩ := h.tasks t task hget
    have hturn := (minds_taken c t).trans
      (minds_turn t { c with ready := c.ready.erase t } hget hkind)
    have ha := attends_turn (c := { c with ready := c.ready.erase t }) hget hkind
      (Nat.lt_of_lt_of_le hlt hturn.onward) hgoes
    exact ⟨ha.task, ha.waits⟩

theorem minds_pass (t : TaskId) (c : Cluster) (ms : Nat) : Minds t c (c.pass ms) := by
  by_cases hr : c.ready = []
  · obtain ⟨now, woken, he, -⟩ := pass_eq hr ms
    rw [he]
    refine ⟨Nat.le_refl _, fun _ _ _ => rfl, fun u _ hu => ?_,
      fun _ _ _ _ hp hnone => .inr ⟨hp, hnone⟩, fun _ _ _ _ hget => .inl hget⟩
    rw [hr] at hu
    cases hu
  · rw [pass_of_ready hr]
    exact .refl t c

theorem minds_act (t : TaskId) (c : Cluster) {a : Act} (h : ∀ u, a ≠ .turn u) :
    Minds t c (act c a) := by
  have hsame (p : Nat) {e : Engine} (he : e.completions = (c.engine p).completions) :
      Minds t c (c.setEngine p e) :=
    minds_setEngine t c p fun id hnone => (Engine.outcome_congr (by rw [he])).trans hnone
  cases a with
  | outage down => exact minds_store t c _
  | post device raw => exact minds_push t c _ raw
  | collect job => exact minds_store t c _
  | hire p device => exact minds_spawn t c (.worker p device .ready)
  | enqueue p device command blob timeout => exact minds_enqueue t c p device command blob timeout
  | consume p device => exact minds_spawn t c (.consumer p device)
  | mark p id conn => exact hsame p (Engine.completions_markSent _ id conn)
  | unmark p id => exact hsame p (Engine.completions_unmark _ id)
  | requeue p item =>
    exact (hsame p (Engine.completions_requeueFront _ item)).trans (minds_notify t _ _)
  | resolve p id outcome => exact minds_resolve t c p id outcome
  | respond p id ok result body => exact minds_resolve t c p id _
  | fail p conn => exact minds_failConnection t c p conn
  | turn u => exact absurd rfl (h u)
  | pass ms => exact minds_pass t c ms

theorem tended_act (h : Tended c) (a : Act) : Tended (act c a) := by
  by_cases hturn : ∃ t, a = .turn t
  · obtain ⟨t, rfl⟩ := hturn
    change Tended (c.give t)
    by_cases ht : t ∈ c.ready
    · exact tended_turn h (minds_give h t) (attends_give h ht)
    · rw [give_of_not_mem ht]
      exact h
  · exact h.of_minds fun t => minds_act t c fun u hu => hturn ⟨u, hu⟩

theorem tended_play (h : Tended c) (as : List Act) : Tended (play c as) := by
  induction as generalizing c with
  | nil => exact h
  | cons a as ih => exact ih (tended_act h a)

theorem tended_running (supply : Supply) (epoch : Nat) (settings : List ServerSettings) :
    Tended (running supply epoch settings) := by
  have hnone (t : TaskId) : (running supply epoch settings).tasks.get? t = none := by
    rw [running_eq]
    rfl
  exact ⟨fun t _ hget => absurd hget (by simp [hnone t]),
    fun t _ _ _ hget => absurd hget (by simp [hnone t])⟩

end Tended

section Repliers
variable {c : Cluster} {u p : Nat} {id job : Uuid}

/-- In its turns a task leaves the store as it is. -/
def Quiet (u : TaskId) (c : Cluster) : List Act → Prop
  | [] => True
  | a :: as => (a = .turn u → (act c a).store = c.store) ∧ Quiet u (act c a) as

/-- A replier stays and leaves the store alone, or its command is decided, it says so to its job
and is over. -/
theorem replier_act (h : Tended c) (hget : c.tasks.get? u = some (.replier p id job)) (a : Act) :
    ((a = .turn u → (act c a).store = c.store) ∧
      (act c a).tasks.get? u = some (.replier p id job)) ∨
    ∃ o, a = .turn u ∧ (c.engine p).outcome? id = some o ∧ act c a =
      (({ c with ready := c.ready.erase u } : Cluster).pushReply job (.ofOutcome o)).finish u := by
  obtain ⟨hlt, -⟩ := h.tasks u _ hget
  by_cases hturn : ∃ t, a = .turn t
  · obtain ⟨t, rfl⟩ := hturn
    change (_ ∧ (c.give t).tasks.get? u = _) ∨ _
    by_cases ht : t ∈ c.ready
    · by_cases htu : t = u
      · subst htu
        have hact : act c (.turn t) = conclude t
            (({ c with ready := c.ready.erase t } : Cluster).replierTurn t p id job) := by
          change c.give t = _
          rw [give_of_mem ht, turn, hget]
        change (_ ∧ (act c (.turn t)).tasks.get? t = _) ∨ _
        rw [hact]
        unfold replierTurn awaitOutcome
        have hengine : ({ c with ready := c.ready.erase t } : Cluster).engine p = c.engine p := rfl
        rw [hengine]
        cases ho : (c.engine p).outcome? id with
        | none =>
          let taken : Cluster := { c with ready := c.ready.erase t }
          refine .inl ⟨fun _ => store_park taken t (.decided p id), ?_⟩
          change (taken.park t (.decided p id)).tasks.get? t = _
          rw [tasks_park]
          exact hget
        | some o => exact .inr ⟨o, rfl, rfl, rfl⟩
      · have hut : u ≠ t := fun he => htu he.symm
        exact .inl ⟨fun he => absurd (Act.turn.inj he) htu,
          ((minds_give h t).tasks u hut hlt).trans hget⟩
    · have hsame : c.give t = c := give_of_not_mem ht
      exact .inl ⟨fun _ => congrArg Cluster.store hsame,
        (congrArg (·.tasks.get? u) hsame).trans hget⟩
  · have hm := minds_act (u + 1) c fun t ht => hturn ⟨t, ht⟩
    exact .inl ⟨fun he => absurd ⟨u, he⟩ hturn,
      (hm.tasks u (Nat.ne_of_lt (Nat.lt_succ_self u)) hlt).trans hget⟩

/-- Whoever is over stays so, and does nothing. -/
theorem gone_act (h : Tended c) (hlt : u < c.nextTask) (hgone : c.tasks.get? u = none) (a : Act) :
    (a = .turn u → (act c a).store = c.store) ∧ (act c a).tasks.get? u = none ∧
      u < (act c a).nextTask := by
  by_cases hturn : ∃ t, a = .turn t
  · obtain ⟨t, rfl⟩ := hturn
    have hm := minds_give h t
    by_cases hut : u = t
    · subst hut
      by_cases ht : u ∈ c.ready
      · have hact : act c (.turn u) = ({ c with ready := c.ready.erase u } : Cluster).finish u := by
          change c.give u = _
          rw [give_of_mem ht, turn, hgone]
          rfl
        refine ⟨fun _ => ?_, ?_, Nat.lt_of_lt_of_le hlt hm.onward⟩ <;> rw [hact]
        · exact store_finish _ u
        · rw [tasks_finish]
          exact Table.get?_erase_self ..
      · have hact : act c (.turn u) = c := give_of_not_mem ht
        rw [hact]
        exact ⟨fun _ => rfl, hgone, hlt⟩
    · exact ⟨fun he => absurd (Act.turn.inj he).symm hut, (hm.tasks u hut hlt).trans hgone,
        Nat.lt_of_lt_of_le hlt hm.onward⟩
  · have hm := minds_act (u + 1) c fun t ht => hturn ⟨t, ht⟩
    exact ⟨fun he => absurd ⟨u, he⟩ hturn,
      (hm.tasks u (Nat.ne_of_lt (Nat.lt_succ_self u)) hlt).trans hgone,
      Nat.lt_of_lt_of_le hlt hm.onward⟩

theorem quiet_of_gone (h : Tended c) (hlt : u < c.nextTask) (hgone : c.tasks.get? u = none)
    (as : List Act) : Quiet u c as := by
  induction as generalizing c with
  | nil => trivial
  | cons a as ih =>
    obtain ⟨hquiet, hnext, hlt'⟩ := gone_act h hlt hgone a
    exact ⟨hquiet, ih (tended_act h a) hlt' hnext⟩

/-- A replier says one thing, once its command is decided; when nothing moves, it has said so. -/
theorem replier_play (h : Tended c) (hget : c.tasks.get? u = some (.replier p id job))
    (as : List Act) :
    (Quiet u c as ∧ (play c as).tasks.get? u = some (.replier p id job) ∧
      ((play c as).ready = [] → ((play c as).engine p).outcome? id = none)) ∨
    ∃ before after o, as = before ++ .turn u :: after ∧ Quiet u c before ∧
      ((play c before).engine p).outcome? id = some o ∧
      act (play c before) (.turn u) = (({ play c before with
        ready := (play c before).ready.erase u } : Cluster).pushReply job (.ofOutcome o)).finish u ∧
      Quiet u (act (play c before) (.turn u)) after := by
  induction as generalizing c with
  | nil =>
    refine .inl ⟨trivial, hget, fun hr => ?_⟩
    rcases h.waits u p id job hget with hready | ⟨-, hnone⟩
    · change c.ready = [] at hr
      rw [hr] at hready
      cases hready
    · exact hnone
  | cons a as ih =>
    rcases replier_act h hget a with ⟨hquiet, hstays⟩ | ⟨o, rfl, hdecided, hact⟩
    · rcases ih (tended_act h a) hstays with ⟨hlater, hend⟩ | hsaid
      · exact .inl ⟨⟨hquiet, hlater⟩, hend⟩
      · obtain ⟨before, after, o, rfl, hbefore, hafter⟩ := hsaid
        exact .inr ⟨a :: before, after, o, rfl, ⟨hquiet, hbefore⟩, hafter⟩
    · have hgone : (act c (.turn u)).tasks.get? u = none := by
        rw [hact, tasks_finish]
        exact Table.get?_erase_self ..
      have hlt : u < (act c (.turn u)).nextTask :=
        Nat.lt_of_lt_of_le (h.tasks u _ hget).1 (minds_give h u).onward
      exact .inr ⟨[], as, o, rfl, trivial, hdecided, hact,
        quiet_of_gone (tended_act h (.turn u)) hlt hgone as⟩

end Repliers

end FleetControl.Cluster.Handling
