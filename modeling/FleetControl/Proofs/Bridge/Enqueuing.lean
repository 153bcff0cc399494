import FleetControl.Proofs.Bridge.Bridging
import FleetControl.Proofs.Cluster.Effects

/-! # Jobs and engines

The bridge touches an engine only to queue the command of a job that a worker has taken off its
list, and then the history knows of it. -/
namespace FleetControl.Cluster.Bridging
open Traffic (Caller Enabled History Job Queued next)

section Turns
variable {c : Cluster} {t : TaskId}

/-- A worker takes a job that it accepts, and queues its command in the engine of a process. -/
def Accepts (c : Cluster) (t : TaskId) (c' : Cluster) (r : Nat) : Prop :=
  ∃ device raw rest job command blob timeout outcome,
    Enabled c.epoch c.traffic (.accept t r device raw rest job command blob timeout outcome) ∧
    c'.traffic = next c.supply c.epoch c.traffic
      (.accept t r device raw rest job command blob timeout outcome) ∧
    c'.engine r =
      (c.engine r).enqueue (c.supply.idOf c.drawn) device command blob timeout c.now

theorem engine_conclude (r : Cluster × Turn) (p : Nat) :
    (conclude t r).engine p = r.1.engine p := by
  obtain ⟨c', ends⟩ := r
  cases ends with
  | again => rfl
  | waits => rfl
  | _ => exact engine_finish c' p t

theorem engine_enqueue (c : Cluster) (p : Nat) (device : String) (command : Command)
    (blob : Option ByteArray) (timeout r : Nat) :
    (c.enqueue p device command blob timeout).1.engine r =
      if r = p ∧ c.processes.has r = true then
        (c.engine p).enqueue (c.supply.idOf c.drawn) device command blob timeout c.now
      else c.engine r := by
  have hset := engine_setEngine (c.freshId.1.spawn (.expiry p c.freshId.2 (c.now + timeout))).1 r p
    ((c.engine p).enqueue (c.supply.idOf c.drawn) device command blob timeout c.now)
  exact (engine_notify _ r _).trans hset

theorem engine_handled {c₁ : Cluster} {p : Nat} {device raw : String} {rest : List String}
    {phase : WorkerPhase} (hc : Orderly c) (hget : c.tasks.get? t = some (.worker p device phase))
    (hlisted : c.traffic.jobs device = raw :: rest) (h : Taken c c₁ device rest) {r : Nat}
    (hsame : c₁.engine r = c.engine r) :
    (c₁.handleJob p device raw).engine r = c.engine r ∨ Accepts c t
      (conclude t ((c₁.handleJob p device raw).setTask t (.worker p device .ready), .again)) r := by
  unfold handleJob
  rw [h.wall]
  split
  · exact Or.inl hsame
  · exact Or.inl ((engine_pushReply c₁ r _ _).trans hsame)
  · rename_i job command blob timeout hdispose
    obtain ⟨-, hkept, outcome, htraffic⟩ := h.accept hc hget command blob timeout job raw
    have hqueued := engine_enqueue c₁ p device command blob timeout r
    split at hqueued
    · rename_i hr
      obtain ⟨rfl, -⟩ := hr
      right
      obtain ⟨store, hcalm⟩ := h.store
      have hsupply : c₁.supply = c.supply := congrArg (·.supply) hcalm
      have hdrawn : c₁.drawn = c.drawn := congrArg (·.drawn) hcalm
      have hnow : c₁.now = c.now := congrArg (·.now) hcalm
      rw [hsame, hsupply, hdrawn, hnow] at hqueued
      exact ⟨device, raw, rest, job, command, blob, timeout, outcome,
        ⟨(plays_of_get hget).2.1, hlisted, hdispose⟩, (traffic_again hkept).trans htraffic, hqueued⟩
    · exact Or.inl (hqueued.trans hsame)

theorem engine_worker {p : Nat} {device : String} {phase : WorkerPhase} (h : Orderly c)
    (hget : c.tasks.get? t = some (.worker p device phase)) (r : Nat) :
    (c.workerTurn t p device phase).1.engine r = c.engine r ∨
      Accepts c t (conclude t (c.workerTurn t p device phase)) r := by
  cases phase with
  | ready => exact Or.inl rfl
  | pausing due =>
    left
    rw [workerTurn]
    split <;> rfl
  | polling deadline =>
    have hsame := engine_awaitPop c r t (BridgeJob.listKey device) deadline
    rw [workerTurn]
    obtain ⟨raw, rest, hlisted, hrest, hpop⟩ | ⟨hlisted, hrest, hpop⟩ :=
      awaitPop_cases h.filed (Or.inl ⟨device, rfl⟩) t deadline
    · have htaken := taken_awaitPop h hrest t deadline
      rw [hpop]
      dsimp only
      exact engine_handled h hget hlisted htaken hsame
    · left
      rcases hpop with ⟨hpop, -⟩ | hpop
      · rw [hpop]
        exact hsame
      · rw [hpop] at hsame ⊢
        exact hsame

theorem engine_call (x : Caller) {p : Nat} {phase : CallPhase} (hx : x.task = .call p true phase)
    (r : Nat) : (c.callTurn t p true phase).1.engine r = c.engine r := by
  cases x with
  | asking e =>
    cases hx
    rw [callTurn, carry, if_neg (by simp)]
    exact engine_acquire c r t e.process e.device
  | queueing e =>
    cases hx
    have hsubmit := fun r => engine_submit c e.process e.device e.command e.blob e.timeout r
    rw [callTurn]
    split
    · split <;> rename_i h <;> exact engine_of_eq h hsubmit r
    · rfl
  | awaiting w =>
    cases hx
    have hpop := fun r => engine_awaitPop c r t (BridgeJob.replyKey w.job) w.deadline
    rw [callTurn]
    split <;> rename_i h
    · exact engine_of_eq h hpop r
    · exact (engine_release _ r w.process w.device).trans (engine_of_eq h hpop r)

/-- A turn leaves an engine alone, lets a command in it expire, or queues one in it. -/
theorem engine_turn (h : Orderly c) (t : TaskId) (r : Nat) :
    (turn c t).1.engine r = c.engine r ∨
      (∃ id, (turn c t).1.engine r = ((c.engine r).expire id).1) ∨
        Accepts c t (conclude t (turn c t)) r := by
  unfold turn
  cases hget : c.tasks.get? t with
  | none => exact Or.inl rfl
  | some task =>
    cases h.bridged t task hget with
    | expiry p id deadline =>
      dsimp only
      unfold expiryTurn
      split
      · have hexpired := engine_decided c r p id ((c.engine p).expire id)
        split at hexpired
        · rename_i hr
          obtain ⟨rfl, -⟩ := hr
          exact Or.inr (Or.inl ⟨id, hexpired⟩)
        · exact Or.inl hexpired
      · exact Or.inl rfl
    | worker p device phase => exact (engine_worker h hget r).imp_right Or.inr
    | replier p id job => exact Or.inl (engine_replierTurn c t p id job r)
    | asking e hp => exact Or.inl (engine_call (.asking e) rfl r)
    | queueing e hp => exact Or.inl (engine_call (.queueing e) rfl r)
    | awaiting w hp => exact Or.inl (engine_call (.awaiting w) rfl r)

end Turns

/-- What becomes of an engine in an act. Apart from what its own devices do to it, a command may
expire, or is queued for a job: then the history notes it, and it is what the text of the job is
read as. -/
inductive Moves (c : Cluster) (h : History) (a : Act) (p : Nat) : Prop
  | rests (same : (act c a).engine p = c.engine p)
  | serves (id : Uuid) (changed : Engine × Bool) (acts : a = .serve p id changed)
      (moved : (act c a).engine p = changed.1)
  | expires (id : Uuid) (moved : (act c a).engine p = ((c.engine p).expire id).1)
  | queues (q : Queued) (j : Job) (command : Command) (blob : Option ByteArray) (timeout : Nat)
      (noted : (h.note a.actor? c.traffic (act c a).traffic).queued = h.queued ++ [q])
      (place : q.process = p) (time : q.time = c.now)
      (posted : j ∈ h.posted) (job : j.id = q.job) (device : j.device = q.device)
      (reads : BridgeJob.dispose (j.text c.epoch) c.wall = .accept j.id command blob timeout)
      (moved : (act c a).engine p =
        (c.engine p).enqueue q.id q.device command blob timeout c.now)

section Moves
variable {c : Cluster} {h : History}

theorem moves_accept (hr : Recorded c h) (hfits : c.wall < 2 ^ 63) {t : TaskId} {p : Nat}
    (ha : Accepts c t (c.give t) p) : Moves c h (.turn t) p := by
  obtain ⟨device, raw, rest, job, command, blob, timeout, outcome, he, hnext, hmoved⟩ := ha
  have hqueued : ((some t).bind fun u => Traffic.queued? u c.traffic (c.give t).traffic).toList =
      [⟨p, device, c.supply.idOf c.drawn, job, c.now⟩] := by
    rw [hnext]
    exact Traffic.queued_eq hr.fit.orderly.fresh he rfl
  obtain ⟨gone, j, left, -, hraw, -, hj, hdevice, -⟩ := hr.carried.head he.2.1
  have hdispose := he.2.2
  rw [hraw] at hdispose
  obtain ⟨rfl, -⟩ := Job.accepted hfits hdispose
  exact .queues ⟨p, device, c.supply.idOf c.drawn, j.id, c.now⟩ j command blob timeout
    (congrArg (h.queued ++ ·) hqueued) rfl rfl hj rfl hdevice hdispose hmoved

theorem moves (hr : Recorded c h) (hfits : c.wall < 2 ^ 63) (a : Act) (p : Nat) :
    Moves c h a p := by
  cases a with
  | register q device conn => exact .rests (engine_register c p q device conn)
  | unregister q device conn => exact .rests (engine_unregister c p q device conn)
  | sync q device => exact .rests (engine_sync c p q device)
  | submit e =>
    refine .rests ?_
    simp only [act]
    split <;> rfl
  | serve q id changed =>
    have hdecided := engine_decided c p q id changed
    split at hdecided
    · rename_i hp
      obtain ⟨rfl, -⟩ := hp
      exact .serves id changed rfl hdecided
    · exact .rests hdecided
  | turn t =>
    by_cases ht : t ∈ c.ready
    · have htaken : Orderly { c with ready := c.ready.erase t } := hr.fit.orderly.congr rfl
      have hgive := give_of_mem ht
      have hengine := engine_conclude (t := t) (turn { c with ready := c.ready.erase t } t) p
      rw [← hgive] at hengine
      rcases engine_turn htaken t p with hsame | ⟨id, hexpired⟩ | haccepts
      · exact .rests (hengine.trans hsame)
      · exact .expires id (hengine.trans hexpired)
      · rw [← hgive] at haccepts
        exact moves_accept hr hfits haccepts
    · exact .rests (by rw [act, give_of_not_mem ht])
  | pass ms =>
    obtain ⟨now, timers, ready, -, he⟩ := pass_keeps c ms
    exact .rests (by rw [act, he]; rfl)

end Moves

end FleetControl.Cluster.Bridging
