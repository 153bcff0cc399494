import FleetControl.Proofs.Bridge.Dispatch
import FleetControl.Proofs.Bridge.Urgency
import FleetControl.Proofs.Cluster.History

/-! # Bridging

Any number of processes submit commands and take jobs off the lists, in any order of their turns.
Whatever they do is traffic as it should be. -/
namespace FleetControl.Cluster.Bridging
open Traffic (Caller Carried Enabled Errand Granted History Locked Numbered Settled Single
  Timely Wait next)

/-- What goes on around the bridge: connections come and go, workers are run or stopped, commands
are submitted in a process, engines go on as they like, tasks get their turns, and time passes. -/
inductive Act where
  | register (p : Nat) (device : String) (conn : Uuid)
  | unregister (p : Nat) (device : String) (conn : Uuid)
  | sync (p : Nat) (device : String)
  | submit (e : Errand)
  | serve (p : Nat) (id : Uuid) (changed : Engine × Bool)
  | turn (t : TaskId)
  | pass (ms : Nat)

def act (c : Cluster) : Act → Cluster
  | .register p device conn => (c.register p device conn).1
  | .unregister p device conn => (c.unregister p device conn).1
  | .sync p device => (c.sync p device).1
  | .submit e =>
    if c.processes.has e.process then
      (c.callBridged e.process e.device e.command e.blob e.timeout).1
    else c
  | .serve p id changed => (c.decide p id changed).1
  | .turn t => c.give t
  | .pass ms => c.pass ms

def play (c : Cluster) : List Act → Cluster
  | [] => c
  | a :: as => play (act c a) as

theorem play_append (c : Cluster) (as bs : List Act) :
    play c (as ++ bs) = play (play c as) bs := by
  induction as generalizing c with
  | nil => rfl
  | cons a as ih => exact ih (act c a)

/-- The task that has its turn in an act. -/
def Act.actor? : Act → Option TaskId
  | .turn t => some t
  | _ => none

/-- The history of some acts, after an earlier one. -/
def chronicle (c : Cluster) (h : History) : List Act → History
  | [] => h
  | a :: as => chronicle (act c a) (h.note a.actor? c.traffic (act c a).traffic) as

/-- What holds of a cluster whatever the bridge does. -/
structure Fit (c : Cluster) : Prop where
  orderly : Orderly c
  prompt : Prompt c
  locked : Locked c.traffic
  timely : Timely c.traffic

/-- An act is an event of the traffic, and leaves the cluster in order. -/
structure Advances (c : Cluster) (a : Act) : Prop where
  follows : Follows a.actor? c (act c a)
  orderly : Orderly (act c a)
  prompt : Prompt (act c a)
  supply : (act c a).supply = c.supply
  epoch : (act c a).epoch = c.epoch

section Advances
variable {c c' : Cluster}

theorem Prompt.aside (h : Prompt c) (hs : ∀ t, Spares t c c')
    (hc : ∀ t x, c'.traffic.caller t = some x → c.traffic.caller t = some x ∨ t ∈ c'.ready)
    (hl : c'.lock = c.lock) : Prompt c' := by
  intro t x hx
  rcases hc t x hx with hold | hready
  -- Whoever may be spared, it need not be this task.
  · exact (h t x hold).spared (hs (t + 1)) (Nat.ne_of_lt (Nat.lt_succ_self t)) fun p device ho =>
      Or.inl (hl ▸ ho)
  · exact urgent_of_ready hready x

theorem advances_same (h : Fit c) {a : Act} (ha : act c a = c) : Advances c a := by
  constructor <;> rw [ha]
  · exact follows_same rfl
  · exact h.orderly
  · exact h.prompt

/-- What leaves calls, locks and lists alone and keeps no task from going on. -/
theorem advances_aside (h : Fit c) {a : Act} (ha : act c a = c') {n : TaskId}
    {worker : TaskId → Option (Nat × String)} {outcome : Nat → Uuid → Option CommandOutcome}
    (hn : c.nextTask ≤ n)
    (htraffic : c'.traffic =
      { c.traffic with nextTask := n, worker := worker, outcome := outcome })
    (horderly : Orderly c') (hspares : ∀ t, Spares t c c') : Advances c a := by
  constructor <;> rw [ha]
  · exact follows_aside hn htraffic
  · exact horderly
  · refine h.prompt.aside hspares (fun t x hx => Or.inl ?_) (congrArg (·.lock) htraffic)
    rw [htraffic] at hx
    exact hx
  · exact (hspares 0).supply
  · exact (hspares 0).epoch

theorem advances_updateProcess (h : Fit c) {a : Act} (p : Nat) {f : Process → Process}
    (ha : act c a = c.updateProcess p f) (hworkers : ∀ q, (f q).workers = q.workers)
    (hlocks : ∀ q, (f q).locks = q.locks) : Advances c a := by
  obtain ⟨outcome, htraffic⟩ := c.traffic_updateProcess (p := p) f hlocks
  exact advances_aside h ha (Nat.le_refl _) htraffic (h.orderly.sameWorkers p hworkers)
    fun t => spares_updateProcess c t p f

theorem advances_serve (h : Fit c) (p : Nat) (id : Uuid) (changed : Engine × Bool) :
    Advances c (.serve p id changed) := by
  have hcalm := calm_decide c p id changed
  obtain ⟨outcome, htraffic⟩ := c.traffic_setEngine p changed.1
  exact advances_aside h rfl (Nat.le_refl _) ((traffic_congr hcalm).trans htraffic)
    ((h.orderly.setEngine p _).congr hcalm) fun t => spares_decide c t p id changed

theorem advances_submit (h : Fit c) (e : Errand) : Advances c (.submit e) := by
  by_cases hp : c.processes.has e.process = true
  · have hact : act c (.submit e) = (c.spawn (Caller.asking e).task).1 := if_pos hp
    have hspares := fun t => spares_spawn c t (Caller.asking e).task
    obtain ⟨-, hworker, hreplier⟩ := plays_of_none (h.orderly.started _ (Nat.le_refl _))
    have htraffic := c.traffic_spawn (Caller.asking e).task
    rw [Caller.caller_task, Caller.worker_task, Caller.replier_task, update_same hworker,
      update_same hreplier] at htraffic
    constructor <;> rw [hact]
    · exact ⟨.start e, trivial, rfl, htraffic⟩
    · exact h.orderly.spawn (.asking e hp)
    · refine h.prompt.aside hspares (fun t x hx => ?_) rfl
      by_cases ht : t = c.nextTask
      · exact Or.inr (List.mem_append_right _ (List.mem_singleton.mpr ht))
      · rw [htraffic] at hx
        exact Or.inl ((Function.update_of_ne ht _ _).symm.trans hx)
    · rfl
    · rfl
  · exact advances_same h (if_neg hp)

/-- A worker starts. -/
theorem advances_start (h : Fit c) {p : Nat} {device : String}
    (ha : act c (.sync p device) = (c.spawn (.worker p device .ready)).1.updateProcess p
      fun q => { q with workers := q.workers.put device c.nextTask }) :
    Advances c (.sync p device) := by
  let started := (c.spawn (.worker p device .ready)).1
  let listing (q : Process) : Process :=
    { q with workers := q.workers.put device c.nextTask }
  have hstarted : Orderly started := h.orderly.spawn (.worker p device .ready)
  obtain ⟨hcaller, -, hreplier⟩ := plays_of_none (h.orderly.started _ (Nat.le_refl _))
  obtain ⟨outcome, hlisting⟩ :=
    started.traffic_updateProcess (p := p) listing fun _ => rfl
  have htraffic : started.traffic = { c.traffic with
      worker := Function.update c.traffic.worker c.nextTask (some (p, device))
      nextTask := c.nextTask + 1 } := by
    have hspawn := c.traffic_spawn (.worker p device .ready)
    simp only [Task.caller?, Task.replier?, Task.worker?, update_same hcaller,
      update_same hreplier] at hspawn
    exact hspawn
  rw [htraffic] at hlisting
  refine advances_aside h ha (Nat.le_succ _) hlisting ?_ fun t =>
    (spares_spawn c t _).trans (spares_updateProcess started t p listing)
  refine hstarted.updateProcess fun q hq other t ht => ?_
  change (q.workers.put device c.nextTask).get? other = some t at ht
  rw [Table.get?_put] at ht
  split at ht
  · rename_i ho
    cases ht
    refine Or.inr ⟨Nat.lt_succ_self _, fun task htask => ?_⟩
    have hself : started.tasks.get? c.nextTask = some (.worker p device .ready) :=
      Table.get?_put_self ..
    cases hself.symm.trans htask
    rw [ho]
    rfl
  · exact Or.inl ht

/-- A worker is stopped. -/
theorem advances_stop (h : Fit c) {p : Nat} {device : String} {q : Process} {t : TaskId}
    (hq : c.processes.get? p = some q) (ht : q.workers.get? device = some t)
    (ha : act c (.sync p device) = (c.remove t).updateProcess p
      fun q => { q with workers := q.workers.erase device }) :
    Advances c (.sync p device) := by
  let dropping (q : Process) : Process := { q with workers := q.workers.erase device }
  obtain ⟨-, hworker⟩ := h.orderly.workers p q device t hq ht
  have hidle : c.traffic.caller t = none ∧ c.traffic.replier t = none := by
    cases hget : c.tasks.get? t with
    | none => exact ⟨(plays_of_none hget).1, (plays_of_none hget).2.2⟩
    | some task =>
      have hw := hworker task hget
      obtain ⟨hcaller, -, hreplier⟩ := plays_of_get hget
      rw [hcaller, hreplier]
      cases h.orderly.bridged t task hget with
      | worker p device phase => exact ⟨rfl, rfl⟩
      | _ => cases hw
  have hremoved : (c.remove t).traffic =
      { c.traffic with worker := Function.update c.traffic.worker t none } :=
    (traffic_congr (calm_finish c t)).symm.trans (traffic_finish_aside c t hidle.1 hidle.2)
  obtain ⟨outcome, htraffic⟩ :=
    (c.remove t).traffic_updateProcess (p := p) dropping fun _ => rfl
  rw [hremoved] at htraffic
  have horderly : Orderly (c.remove t) := (h.orderly.erase t).congr rfl
  have hspares : Spares t c ((c.remove t).updateProcess p dropping) :=
    (spares_remove c t).trans (spares_updateProcess _ t p dropping)
  have hsame : ((c.remove t).updateProcess p dropping).traffic.caller = c.traffic.caller :=
    congrArg (·.caller) htraffic
  have hlock : ((c.remove t).updateProcess p dropping).lock = c.lock :=
    congrArg (·.lock) htraffic
  constructor <;> rw [ha]
  · exact follows_aside (Nat.le_refl _) htraffic
  · refine horderly.updateProcess fun q hq other u hu => Or.inl ?_
    change (q.workers.erase device).get? other = some u at hu
    rw [Table.get?_erase] at hu
    split at hu
    · cases hu
    · exact hu
  · refine h.prompt.spared hspares ⟨fun p device u hu => Or.inl (hlock ▸ hu), fun x hx => ?_⟩
      fun u x hu hx => Or.inl (hsame ▸ hx)
    rw [hsame, hidle.1] at hx
    cases hx
  · rfl
  · rfl

theorem advances_sync (h : Fit c) (p : Nat) (device : String) : Advances c (.sync p device) := by
  cases hq : c.processes.get? p with
  | none => exact advances_same h (by simp only [act, sync, hq])
  | some q =>
    cases hwanted : q.connections.hasLocal device <;>
      cases ht : q.workers.get? device
    · exact advances_same h (by simp only [act, sync, hq, hwanted, ht])
    · exact advances_stop h hq ht (by simp only [act, sync, hq, hwanted, ht])
    · exact advances_start h (by simp only [act, sync, hq, hwanted, ht]; rfl)
    · exact advances_same h (by simp only [act, sync, hq, hwanted, ht])

theorem advances (h : Fit c) (a : Act) : Advances c a := by
  cases a with
  | register p device conn =>
    exact advances_updateProcess h p rfl (fun _ => rfl) fun _ => rfl
  | unregister p device conn =>
    exact advances_updateProcess h p rfl (fun _ => rfl) fun _ => rfl
  | sync p device => exact advances_sync h p device
  | submit e => exact advances_submit h e
  | serve p id changed => exact advances_serve h p id changed
  | turn t =>
    obtain ⟨hfollows, horderly⟩ := follows_give h.orderly t
    have hspares := spares_give h.orderly t
    exact ⟨hfollows, horderly, prompt_give h.prompt h.orderly h.locked t, hspares.supply,
      hspares.epoch⟩
  | pass ms =>
    obtain ⟨now, timers, ready, -, he⟩ := pass_keeps c ms
    have hpass : act c (.pass ms) = _ := he
    refine ⟨follows_pass h.prompt h.orderly ms, orderly_pass h.orderly ms,
      prompt_pass h.prompt h.timely ms, ?_, ?_⟩ <;> rw [hpass]

/-- Whatever happens, a cluster stays fit. -/
theorem fit_act (h : Fit c) (a : Act) : Fit (act c a) := by
  have ha := advances h a
  obtain ⟨e, he, -, hnext⟩ := ha.follows
  refine ⟨ha.orderly, ha.prompt, ?_, ?_⟩ <;> rw [hnext]
  · exact Traffic.locked_next h.locked h.orderly.fresh he
  · exact Traffic.timely_next h.timely he

theorem fit_play (h : Fit c) (as : List Act) : Fit (play c as) := by
  induction as generalizing c with
  | nil => exact h
  | cons a as ih => exact ih (fit_act h a)

theorem now_le_act (h : Fit c) (a : Act) : c.now ≤ (act c a).now := by
  obtain ⟨e, he, -, hnext⟩ := (advances h a).follows
  have hnow : (act c a).now = (next c.supply c.epoch c.traffic e).now := congrArg (·.now) hnext
  rw [hnow]
  cases e with
  | pass now replies => exact he.1.onward
  | _ => exact Nat.le_refl _

theorem now_le_play (h : Fit c) (as : List Act) : c.now ≤ (play c as).now := by
  induction as generalizing c with
  | nil => exact Nat.le_refl _
  | cons a as ih => exact Nat.le_trans (now_le_act h a) (ih (fit_act h a))

theorem supply_play (h : Fit c) (as : List Act) : (play c as).supply = c.supply := by
  induction as generalizing c with
  | nil => rfl
  | cons a as ih => exact (ih (fit_act h a)).trans (advances h a).supply

theorem epoch_play (h : Fit c) (as : List Act) : (play c as).epoch = c.epoch := by
  induction as generalizing c with
  | nil => rfl
  | cons a as ih => exact (ih (fit_act h a)).trans (advances h a).epoch

theorem wall_le_play (h : Fit c) (as : List Act) : c.wall ≤ (play c as).wall := by
  rw [wall, wall, epoch_play h as]
  exact Nat.add_le_add_left (now_le_play h as) _

/-- A cluster and its history agree. -/
structure Recorded (c : Cluster) (h : History) : Prop where
  fit : Fit c
  numbered : Numbered c.supply c.traffic h
  carried : Carried c.epoch c.traffic h
  answered : Traffic.Answered c.traffic h
  settled : Settled c.traffic h
  granted : Granted c.traffic h
  single : Single c.traffic h

theorem recorded_act {h : History} (hr : Recorded c h) (hfits : c.wall < 2 ^ 63) (a : Act) :
    Recorded (act c a) (h.note a.actor? c.traffic (act c a).traffic) := by
  have ha := advances hr.fit a
  have hfit := fit_act hr.fit a
  have hfresh := hr.fit.orderly.fresh
  have hlocked := hr.fit.locked
  obtain ⟨e, he, hby, hnext⟩ := ha.follows
  have hnote : h.note a.actor? c.traffic (act c a).traffic = h.record c.supply c.traffic e := by
    rw [hnext]
    exact Traffic.note_eq hfresh (fun u w hw => hlocked.held hw) he hby h
  rw [hnote]
  refine ⟨hfit, ?_, ?_, ?_, ?_, ?_, ?_⟩
  · rw [hnext, ha.supply]
    exact Traffic.numbered_next hr.numbered
  · rw [hnext, ha.epoch]
    exact Traffic.carried_next hr.carried he hfits
  · rw [hnext]
    exact Traffic.answered_next hr.answered hr.carried he hfits
  · rw [hnext]
    exact Traffic.settled_next hr.settled hr.answered hfresh he
  · rw [hnext]
    exact Traffic.granted_next hr.granted hlocked hfresh he
  · rw [hnext]
    exact Traffic.single_next hr.single hfresh he

/-- As long as times fit 64 bits, a cluster and its history go on agreeing. -/
theorem recorded_play {h : History} (hr : Recorded c h) {as : List Act}
    (hfits : (play c as).wall < 2 ^ 63) : Recorded (play c as) (chronicle c h as) := by
  induction as generalizing c h with
  | nil => exact hr
  | cons a as ih =>
    have hwall := wall_le_play hr.fit (a :: as)
    exact ih (recorded_act hr (Nat.lt_of_le_of_lt hwall hfits) a) hfits

end Advances

section Running
variable (supply : Supply) (epoch : Nat) (settings : List ServerSettings)

theorem lock_running : (running supply epoch settings).lock = fun _ _ => {} := by
  funext p device
  rw [lock, get?_running]
  cases settings[p]? <;> rfl

theorem caller_running (t : TaskId) :
    (running supply epoch settings).traffic.caller t = none := by
  rw [running_eq]
  rfl

theorem orderly_running : Orderly (running supply epoch settings) := by
  have hworkers : ∀ p q device t, (running supply epoch settings).processes.get? p = some q →
      q.workers.get? device = some t → False := by
    intro p q device t hq ht
    rw [get?_running] at hq
    obtain ⟨x, -, rfl⟩ := Option.map_eq_some_iff.mp hq
    cases ht
  rw [running_eq] at hworkers ⊢
  exact ⟨rfl, Store.filed_empty, fun _ _ ht => (nomatch ht), fun _ _ => rfl,
    fun p q device t hq ht => (hworkers p q device t hq ht).elim⟩

/-- Nothing is under way when processes have just started. -/
theorem fit_running : Fit (running supply epoch settings) := by
  have hnone := caller_running supply epoch settings
  have hlock : (running supply epoch settings).traffic.lock = fun _ _ => {} :=
    lock_running supply epoch settings
  refine ⟨orderly_running supply epoch settings, ?_, ⟨?_, ?_, ?_, ?_, ?_, ?_⟩, ?_⟩
  · exact fun t x hx => nomatch (hnone t).symm.trans hx
  · rw [hlock]
    exact fun _ _ _ => rfl
  · rw [hlock]
    exact fun _ _ => List.nodup_nil
  · rw [hlock]
    exact fun _ _ t ht => nomatch ht
  · rw [hlock]
    exact fun _ _ t ht => nomatch ht
  · exact fun t e he => nomatch (hnone t).symm.trans he
  · exact fun t w hw => nomatch (hnone t).symm.trans hw
  · exact fun t w hw => nomatch (hnone t).symm.trans hw

theorem recorded_running : Recorded (running supply epoch settings) {} := by
  have hnone := caller_running supply epoch settings
  have hlock : (running supply epoch settings).traffic.lock = fun _ _ => {} :=
    lock_running supply epoch settings
  have hempty : (running supply epoch settings).traffic.jobs = (fun _ => []) ∧
      (running supply epoch settings).traffic.replies = (fun _ => []) ∧
      (running supply epoch settings).traffic.results = [] ∧
      (running supply epoch settings).traffic.replier = (fun _ => none) := by
    rw [running_eq]
    exact ⟨rfl, rfl, rfl, rfl⟩
  obtain ⟨hjobs, hreplies, hresults, hrepliers⟩ := hempty
  refine ⟨fit_running supply epoch settings, ?_, ⟨?_, ?_⟩, ⟨?_, ?_, ?_⟩, ⟨?_, ?_, ?_⟩, ?_,
    ⟨List.nodup_nil, fun _ hj => (nomatch hj)⟩⟩
  · exact ⟨[], List.Pairwise.nil, fun _ hk => (nomatch hk), rfl⟩
  · exact fun device => ⟨[], [], rfl, congrFun hjobs device, List.Sublist.refl _⟩
  · exact fun q hq => nomatch hq
  · rw [hreplies]
    exact fun job text ht => nomatch ht
  · rw [hrepliers]
    exact fun t p id job ht => nomatch ht
  · exact fun job text ht => nomatch ht
  · exact fun t w hw => nomatch (hnone t).symm.trans hw
  · rw [hresults]
    exact fun t r hr => nomatch hr
  · exact fun j hj => nomatch hj
  · intro p device
    rw [Traffic.State.pending, hlock]
    rfl

end Running

end FleetControl.Cluster.Bridging
