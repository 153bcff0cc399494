import FleetControl.Cluster.Call
import Mathlib.Logic.Function.Basic

/-! # Traffic over the bridge

What passes between processes, seen from the calls, the locks and the lists alone. A call asks for
the lock of its device, posts a job, and collects the reply or gives up; workers take jobs off the
lists, and repliers answer. What goes on besides is left out.

A history writes down who got a lock, which jobs were posted and queued, and how they were
answered, by comparing the states before and after. -/
namespace FleetControl.Traffic

/-- What a call wants done. -/
structure Errand where
  process : Nat
  device : String
  command : Command
  blob : Option ByteArray
  timeout : Nat

/-- What a call waits for that has posted a job. -/
structure Wait where
  process : Nat
  device : String
  command : String
  timeout : Nat
  job : Uuid
  deadline : Nat

inductive Caller where
  | asking (e : Errand)
  | queueing (e : Errand)
  | awaiting (w : Wait)

/-- A job as it was posted by a task, in milliseconds since the start. -/
structure Job extends Errand where
  task : TaskId
  id : Uuid
  made : Nat

/-- The text of a job in a cluster that started at a Unix time. -/
def Job.text (epoch : Nat) (j : Job) : String :=
  (BridgeJob.make j.id j.device j.command j.blob j.timeout ((epoch + j.made : Nat) : Int)).text

def Job.due (j : Job) : Nat := j.made + j.timeout

/-- What the call that posted a job waits for. -/
def Job.wait (j : Job) : Wait :=
  ⟨j.process, j.device, j.command.name, j.timeout, j.id, j.due + Cluster.replyGrace⟩

structure State where
  now : Nat
  drawn : Nat
  nextTask : TaskId
  caller : TaskId → Option Caller
  worker : TaskId → Option (Nat × String)
  /-- The process, the command in its engine and the job. -/
  replier : TaskId → Option (Nat × Uuid × Uuid)
  /-- What the engine of a process says of a command. -/
  outcome : Nat → Uuid → Option CommandOutcome
  lock : Nat → String → DeviceLock
  jobs : String → List String
  replies : Uuid → List String
  results : List (TaskId × TaskResult)

inductive Event where
  | aside (nextTask : TaskId) (worker : TaskId → Option (Nat × String))
      (outcome : Nat → Uuid → Option CommandOutcome)
  | pass (now : Nat) (replies : Uuid → List String)
  | start (e : Errand)
  | ask (t : TaskId) (e : Errand)
  | post (t : TaskId) (e : Errand)
  | collect (t : TaskId) (w : Wait) (raw : String) (rest : List String)
  | giveUp (t : TaskId) (w : Wait)
  | drop (t : TaskId) (p : Nat) (device raw : String) (rest : List String)
  | refuse (t : TaskId) (p : Nat) (device raw : String) (rest : List String) (job : Uuid)
      (reply : BridgeReply)
  | accept (t : TaskId) (p : Nat) (device raw : String) (rest : List String) (job : Uuid)
      (command : Command) (blob : Option ByteArray) (timeout : Nat)
      (outcome : Nat → Uuid → Option CommandOutcome)
  | answer (t : TaskId) (p : Nat) (id job : Uuid) (outcome : CommandOutcome)

section
variable (supply : Supply) (epoch : Nat) (s : State)

/-- Time may go on so far: not while a call can go on, nor past an instant that one waits for. -/
structure State.Lets (now : Nat) : Prop where
  onward : s.now ≤ now
  asking : ∀ t e, s.caller t = some (.asking e) → now = s.now
  owner : ∀ t e, s.caller t = some (.queueing e) →
    (s.lock e.process e.device).owner = some t → now = s.now
  awaiting : ∀ t w, s.caller t = some (.awaiting w) → now ≤ max s.now w.deadline

def Enabled : Event → Prop
  | .aside nextTask _ _ => s.nextTask ≤ nextTask
  | .pass now replies =>
    s.Lets now ∧ ∀ job, replies job = s.replies job ∨ replies job = []
  | .start _ => True
  | .ask t e => s.caller t = some (.asking e)
  | .post t e =>
    s.caller t = some (.queueing e) ∧ (s.lock e.process e.device).owner = some t
  | .collect t w raw rest => s.caller t = some (.awaiting w) ∧ s.replies w.job = raw :: rest
  | .giveUp t w => s.caller t = some (.awaiting w) ∧ w.deadline ≤ s.now
  | .drop t p device raw rest => s.worker t = some (p, device) ∧ s.jobs device = raw :: rest
  | .refuse t p device raw rest job reply =>
    s.worker t = some (p, device) ∧ s.jobs device = raw :: rest ∧
      BridgeJob.dispose raw ((epoch + s.now : Nat) : Int) = .refuse job reply
  | .accept t p device raw rest job command blob timeout _ =>
    s.worker t = some (p, device) ∧ s.jobs device = raw :: rest ∧
      BridgeJob.dispose raw ((epoch + s.now : Nat) : Int) = .accept job command blob timeout
  | .answer t p id job outcome =>
    s.replier t = some (p, id, job) ∧ s.outcome p id = some outcome

def State.setLock (p : Nat) (device : String) (l : DeviceLock) : Nat → String → DeviceLock :=
  fun q other => if q = p ∧ other = device then l else s.lock q other

/-- A call is over, and the lock that it had passes on. -/
def State.finish (t : TaskId) (w : Wait) (r : CommandOutcome) : State :=
  { s with
    caller := Function.update s.caller t none
    lock := s.setLock w.process w.device (s.lock w.process w.device).release.1
    results := s.results ++ [(t, .answer (r.map .reply))] }

/-- The job that a call posts now. -/
def State.job (t : TaskId) (e : Errand) : Job := ⟨e, t, supply.idOf s.drawn, s.now⟩

def State.reply (job : Uuid) (text : String) : Uuid → List String :=
  Function.update s.replies job (s.replies job ++ [text])

def next : Event → State
  | .aside nextTask worker outcome =>
    { s with nextTask := nextTask, worker := worker, outcome := outcome }
  | .pass now replies => { s with now := now, replies := replies }
  | .start e =>
    { s with
      caller := Function.update s.caller s.nextTask (some (.asking e))
      nextTask := s.nextTask + 1 }
  | .ask t e =>
    { s with
      caller := Function.update s.caller t (some (.queueing e))
      lock := s.setLock e.process e.device ((s.lock e.process e.device).acquire t).1 }
  | .post t e =>
    { s with
      caller := Function.update s.caller t (some (.awaiting (s.job supply t e).wait))
      jobs := Function.update s.jobs e.device
        (s.jobs e.device ++ [(s.job supply t e).text epoch])
      drawn := s.drawn + 1 }
  | .collect t w raw rest =>
    { s.finish t w (BridgeReply.outcomeOf raw w.device w.command w.timeout) with
      replies := Function.update s.replies w.job rest }
  | .giveUp t w => s.finish t w (.error (.timeout w.device w.command (w.timeout / 1000)))
  | .drop _ _ device _ rest => { s with jobs := Function.update s.jobs device rest }
  | .refuse _ _ device _ rest job reply =>
    { s with
      jobs := Function.update s.jobs device rest
      replies := s.reply job reply.text }
  | .accept _ p device _ rest job _ _ _ outcome =>
    { s with
      jobs := Function.update s.jobs device rest
      replier := Function.update s.replier (s.nextTask + 1) (some (p, supply.idOf s.drawn, job))
      outcome := outcome
      drawn := s.drawn + 1
      nextTask := s.nextTask + 2 }
  | .answer t _ _ job outcome =>
    { s with
      replier := Function.update s.replier t none
      replies := s.reply job (BridgeReply.ofOutcome outcome).text }

end

/-- A job whose command was queued in the engine of a process. -/
structure Queued where
  process : Nat
  device : String
  /-- The command in the engine. -/
  id : Uuid
  job : Uuid
  time : Nat

structure History where
  posted : List Job := []
  queued : List Queued := []
  /-- Who got the lock of a device in a process. -/
  grants : Nat → String → List TaskId := fun _ _ => []
  /-- What was left for the caller of a job. -/
  answers : Uuid → List String := fun _ => []
  /-- What the engine of a process has said of a command. -/
  verdicts : Nat → Uuid → List CommandOutcome := fun _ _ => []

/-- The job that a task has posted, seen from its waiting for the reply. -/
def posted? (t : TaskId) (s s' : State) : Option Job :=
  match s.caller t, s'.caller t with
  | some (.queueing e), some (.awaiting w) => some ⟨e, t, w.job, s.now⟩
  | _, _ => none

/-- The job that a worker has queued, seen from the replier that it has started. -/
def queued? (t : TaskId) (s s' : State) : Option Queued :=
  match s.worker t, s'.replier (s.nextTask + 1) with
  | some (_, device), some (p, id, job) => some ⟨p, device, id, job, s.now⟩
  | _, _ => none

/-- Who has got a lock. -/
def granted (l l' : DeviceLock) : List TaskId :=
  if l'.owner = l.owner then [] else l'.owner.toList

/-- The history goes on, perhaps with the turn of a task. -/
def History.note (h : History) (t : Option TaskId) (s s' : State) : History where
  posted := h.posted ++ (t.bind fun t => posted? t s s').toList
  queued := h.queued ++ (t.bind fun t => queued? t s s').toList
  grants p device := h.grants p device ++ granted (s.lock p device) (s'.lock p device)
  answers job := h.answers job ++ (s'.replies job).drop (s.replies job).length
  verdicts p id := h.verdicts p id ++ (s.outcome p id).toList

/-- Tasks that have not started yet play no part. -/
def Fresh (s : State) : Prop :=
  ∀ t, s.nextTask ≤ t → s.caller t = none ∧ s.replier t = none

section
variable (supply : Supply) (s : State)

/-! What an event adds to each part of a history. -/

def posts : Event → List Job
  | .post t e => [s.job supply t e]
  | _ => []

def queues : Event → List Queued
  | .accept _ p device _ _ job _ _ _ _ => [⟨p, device, supply.idOf s.drawn, job, s.now⟩]
  | _ => []

def grants (p : Nat) (device : String) : Event → List TaskId
  | .ask t e =>
    if p = e.process ∧ device = e.device then
      if (s.lock e.process e.device).owner = none then [t] else []
    else []
  | .collect _ w _ _ | .giveUp _ w =>
    if p = w.process ∧ device = w.device then
      (s.lock w.process w.device).waiting.head?.toList
    else []
  | _ => []

def answers (job : Uuid) : Event → List String
  | .refuse _ _ _ _ _ other reply => if job = other then [reply.text] else []
  | .answer _ _ _ other outcome =>
    if job = other then [(BridgeReply.ofOutcome outcome).text] else []
  | _ => []

def History.record (h : History) (e : Event) : History where
  posted := h.posted ++ posts supply s e
  queued := h.queued ++ queues supply s e
  grants p device := h.grants p device ++ Traffic.grants s p device e
  answers job := h.answers job ++ Traffic.answers job e
  verdicts p id := h.verdicts p id ++ (s.outcome p id).toList

end

/-- Whether an event may be the turn of a task, or may happen besides. -/
def Event.By (t : Option TaskId) : Event → Prop
  | .aside .. => True
  | .pass .. | .start .. => t = none
  | .ask u _ | .post u _ | .collect u .. | .giveUp u _ | .drop u .. | .refuse u .. |
    .accept u .. | .answer u .. => t = some u

section Note
variable {supply : Supply} {epoch : Nat} {s : State} {t : Option TaskId} {e : Event}

theorem granted_self (l : DeviceLock) : granted l l = [] := if_pos rfl

theorem granted_acquire (l : DeviceLock) (t : TaskId) :
    granted l (l.acquire t).1 = if l.owner = none then [t] else [] := by
  unfold granted DeviceLock.acquire
  cases l.owner <;> simp

theorem granted_release {l : DeviceLock} {t : TaskId} (howner : l.owner = some t)
    (hwaiting : t ∉ l.waiting) : granted l l.release.1 = l.waiting.head?.toList := by
  have hne : l.waiting.head? ≠ l.owner := by
    rw [howner]
    exact fun hhead => hwaiting (List.mem_of_mem_head? hhead)
  rw [granted, DeviceLock.owner_release, if_neg hne]

theorem granted_setLock {p : Nat} {device : String} {l : DeviceLock} {added : List TaskId}
    (hl : granted (s.lock p device) l = added) (q : Nat) (other : String) :
    granted (s.lock q other) (s.setLock p device l q other) =
      if q = p ∧ other = device then added else [] := by
  unfold State.setLock
  split
  · rename_i hq
    obtain ⟨rfl, rfl⟩ := hq
    exact hl
  · exact granted_self _

theorem drop_reply (job other : Uuid) (text : String) :
    (s.reply other text job).drop (s.replies job).length = if job = other then [text] else [] := by
  unfold State.reply
  by_cases ho : job = other
  · subst ho
    rw [Function.update_self, if_pos rfl, List.drop_left]
  · rw [Function.update_of_ne ho, if_neg ho, List.drop_length]

theorem posted_eq_none {t : TaskId} {s' : State} (hc : s'.caller t = s.caller t ∨
    ∀ w, s'.caller t ≠ some (.awaiting w)) : posted? t s s' = none := by
  unfold posted?
  split
  · rename_i e w hbefore hafter
    rcases hc with hsame | hnone
    · rw [hsame, hbefore] at hafter
      cases hafter
    · exact absurd hafter (hnone w)
  · rfl

theorem queued_eq_none {t : TaskId} {s' : State} (hr : s'.replier (s.nextTask + 1) = none) :
    queued? t s s' = none := by
  unfold queued?
  rw [hr]
  split
  · rename_i heq
    cases heq
  · rfl

theorem posted_eq (he : Enabled epoch s e) (hby : e.By t) :
    (t.bind fun t => posted? t s (next supply epoch s e)).toList = posts supply s e := by
  have hnone : ∀ {s' : State}, (∀ u, s'.caller u = s.caller u ∨
      ∀ w, s'.caller u ≠ some (.awaiting w)) → (t.bind fun t => posted? t s s') = none := by
    intro s' hc
    cases t with
    | none => rfl
    | some u => exact posted_eq_none (hc u)
  have hupdate : ∀ {u caller}, (∀ w, caller ≠ some (Caller.awaiting w)) → ∀ v,
      Function.update s.caller u caller v = s.caller v ∨
        ∀ w, Function.update s.caller u caller v ≠ some (.awaiting w) := by
    intro u caller hc v
    by_cases hv : v = u
    · subst hv
      rw [Function.update_self]
      exact Or.inr hc
    · exact Or.inl (Function.update_of_ne hv _ _)
  cases e with
  | post u e =>
    obtain rfl : t = some u := hby
    simp only [Option.bind_some, posted?, he.1, next, Function.update_self]
    rfl
  | start e | ask u e | collect u w raw rest | giveUp u w =>
    refine congrArg Option.toList (hnone (hupdate ?_))
    rintro w ⟨⟩
  | _ => exact congrArg Option.toList (hnone fun u => Or.inl rfl)

theorem queued_eq (hf : Fresh s) (he : Enabled epoch s e) (hby : e.By t) :
    (t.bind fun t => queued? t s (next supply epoch s e)).toList = queues supply s e := by
  have hnew : s.replier (s.nextTask + 1) = none := (hf _ (Nat.le_succ _)).2
  have hnone : ∀ {s' : State}, s'.replier (s.nextTask + 1) = none →
      (t.bind fun t => queued? t s s') = none := by
    intro s' hr
    cases t with
    | none => rfl
    | some u => exact queued_eq_none hr
  cases e with
  | accept u p device raw rest job command blob timeout outcome =>
    obtain rfl : t = some u := hby
    simp only [Option.bind_some, queued?, he.1, next, Function.update_self]
    rfl
  | answer u p id job outcome =>
    refine congrArg Option.toList (hnone ?_)
    simp only [next, Function.update_apply]
    split
    · rfl
    · exact hnew
  | _ => exact congrArg Option.toList (hnone hnew)

theorem grants_eq (hheld : ∀ u w, s.caller u = some (.awaiting w) →
      (s.lock w.process w.device).owner = some u ∧ u ∉ (s.lock w.process w.device).waiting)
    (he : Enabled epoch s e) (p : Nat) (device : String) :
    granted (s.lock p device) ((next supply epoch s e).lock p device) = grants s p device e := by
  cases e with
  | ask u e => exact granted_setLock (granted_acquire _ u) p device
  | collect u w raw rest | giveUp u w =>
    obtain ⟨howner, hwaiting⟩ := hheld u w he.1
    exact granted_setLock (granted_release howner hwaiting) p device
  | _ => exact granted_self _

theorem answers_eq (he : Enabled epoch s e) (job : Uuid) :
    ((next supply epoch s e).replies job).drop (s.replies job).length = answers job e := by
  cases e with
  | pass now replies =>
    rcases he.2 job with hsame | hnone
    · simp only [next, hsame, List.drop_length, answers]
    · simp only [next, hnone, List.drop_nil, answers]
  | collect u w raw rest =>
    simp only [next, Function.update_apply, answers]
    split
    · rename_i hj
      rw [hj, he.2, List.length_cons]
      exact List.drop_eq_nil_of_le (Nat.le_succ _)
    · exact List.drop_length
  | refuse u p device raw rest other reply => exact drop_reply job other reply.text
  | answer u p id other outcome => exact drop_reply job other _
  | _ => exact List.drop_length

/-- A history is noted by what the events add to it. -/
theorem note_eq (hf : Fresh s) (hheld : ∀ u w, s.caller u = some (.awaiting w) →
      (s.lock w.process w.device).owner = some u ∧ u ∉ (s.lock w.process w.device).waiting)
    (he : Enabled epoch s e) (hby : e.By t) (h : History) :
    h.note t s (next supply epoch s e) = h.record supply s e := by
  unfold History.note History.record
  simp only [posted_eq he hby, queued_eq hf he hby, grants_eq hheld he, answers_eq he]

end Note

theorem nextTask_le_next {supply : Supply} {epoch : Nat} {s : State} {e : Event}
    (he : Enabled epoch s e) : s.nextTask ≤ (next supply epoch s e).nextTask := by
  cases e with
  | aside nextTask worker outcome => exact he
  | start e => exact Nat.le_succ _
  | accept t p device raw rest job command blob timeout outcome => exact Nat.le_add_right _ _
  | _ => exact Nat.le_refl _

end FleetControl.Traffic
