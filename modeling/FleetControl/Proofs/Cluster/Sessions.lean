import FleetControl.Proofs.Bridge.Workers
import FleetControl.Proofs.Cluster.Limits
import Mathlib.Logic.Function.Basic

/-! # Sessions and their places

A session goes on by its own turns alone, from phase to phase, until it is over. It takes a place of
its process with its first turn and keeps it until its last one, whatever comes of it. -/
namespace FleetControl

/-- Where a session stands, with its process and its socket. -/
def Task.session? : Task → Option (Nat × Nat × SessionPhase)
  | .session p s phase => some (p, s, phase)
  | _ => none

namespace SessionPhase

/-- The first turn is still to come. -/
def isOpening : SessionPhase → Bool
  | .opening => true
  | _ => false

/-- The tasks that a session has started for itself. -/
def helpers : SessionPhase → List TaskId
  | .receiving state _ => [state.sender, state.heartbeat]
  | .draining state _ _ => [state.sender, state.heartbeat]
  | _ => []

/-- What comes of a phase in a turn that neither begins nor ends the session. The tasks from the
first number up to the next one start in that turn. -/
inductive Leads (first next : TaskId) : SessionPhase → SessionPhase → Prop
  | shakes {state later deadline deadline'} :
      Leads first next (.handshaking state deadline) (.handshaking later deadline')
  | refused {state deadline} :
      Leads first next (.handshaking state deadline) (.refusing .handshakeFailed)
  | accepted {state deadline device} :
      Leads first next (.handshaking state deadline) (.starting device)
  | started {device state deadline} (sender : first ≤ state.sender ∧ state.sender < next)
      (heartbeat : first ≤ state.heartbeat ∧ state.heartbeat < next) :
      Leads first next (.starting device) (.receiving state deadline)
  | received {state nonces deadline deadline'} :
      Leads first next (.receiving state deadline)
        (.receiving { state with nonces := nonces } deadline')
  | drained {state deadline reason deadline'} :
      Leads first next (.receiving state deadline) (.draining state reason deadline')

variable {first next : TaskId} {phase later : SessionPhase}

theorem Leads.begun (h : Leads first next phase later) :
    phase.isOpening = false ∧ later.isOpening = false := by
  cases h <;> exact ⟨rfl, rfl⟩

theorem Leads.helpers (h : Leads first next phase later) {u : TaskId} (hu : u ∈ later.helpers) :
    u ∈ phase.helpers ∨ first ≤ u ∧ u < next := by
  cases h with
  | started sender heartbeat =>
    simp only [SessionPhase.helpers, List.mem_cons, List.not_mem_nil, or_false] at hu
    rcases hu with rfl | rfl
    · exact Or.inr sender
    · exact Or.inr heartbeat
  | received => exact Or.inl hu
  | drained => exact Or.inl hu
  | _ => cases hu

end SessionPhase

namespace Cluster
open Function (update)

def session? (c : Cluster) (t : TaskId) : Option (Nat × Nat × SessionPhase) :=
  (c.tasks.get? t).bind Task.session?

/-- The places that the sockets of a process take. -/
def places (c : Cluster) (p : Nat) : Nat := ((c.processes.get? p).map (·.sockets)).getD 0

/-- How many places a process has. -/
def capacity? (c : Cluster) (p : Nat) : Option Nat :=
  (c.processes.get? p).map (·.settings.maxConnections)

theorem session_eq (c : Cluster) (t : TaskId) :
    c.session? t = (c.post? t).bind Task.session? := by
  unfold session? post?
  cases c.tasks.get? t with
  | none => rfl
  | some task => cases task <;> rfl

theorem session_iff {c : Cluster} {t : TaskId} {p s : Nat} {phase : SessionPhase} :
    c.session? t = some (p, s, phase) ↔ c.tasks.get? t = some (.session p s phase) := by
  unfold session?
  cases c.tasks.get? t with
  | none => simp
  | some task => cases task <;> simp [Task.session?]

theorem session_setTask (c : Cluster) (t : TaskId) (task : Task) :
    (c.setTask t task).session? = update c.session? t task.session? := by
  funext u
  simp only [session?, setTask, Table.get?_put, Function.update_apply]
  split <;> rfl

theorem session_remove (c : Cluster) (t : TaskId) :
    (c.remove t).session? = update c.session? t none := by
  funext u
  simp only [session?, remove, clearTimer, Table.get?_erase, Function.update_apply]
  split <;> rfl

theorem places_updateProcess (c : Cluster) (p : Nat) (f : Process → Process) :
    (c.updateProcess p f).places =
      update c.places p (((c.processes.get? p).map fun q => (f q).sockets).getD 0) := by
  funext q
  simp only [places, updateProcess, Table.get?_modify, Function.update_apply]
  split
  · rename_i hq
    rw [hq, Option.map_map]
    rfl
  · rfl

theorem places_updateProcess_of_eq (c : Cluster) (p : Nat) {f : Process → Process}
    (hf : ∀ q, (f q).sockets = q.sockets) : (c.updateProcess p f).places = c.places := by
  rw [places_updateProcess]
  simp only [hf]
  exact Function.update_eq_self p c.places

theorem capacity_updateProcess (c : Cluster) (p : Nat) {f : Process → Process}
    (hf : ∀ q, (f q).settings = q.settings) : (c.updateProcess p f).capacity? = c.capacity? := by
  funext q
  simp only [capacity?, updateProcess, Table.get?_modify]
  split
  · rw [Option.map_map]
    exact congrArg (Option.map · _) (funext fun x => by simp [hf x])
  · rfl

/-- Sessions are numbered like all tasks, and the workers that a process knows are not among
them. -/
structure Manned (c : Cluster) : Prop where
  fresh : Fresh c
  workers : ∀ p device t, c.workerOf? p device = some t →
    t < c.nextTask ∧ c.session? t = none

theorem Fresh.session {c : Cluster} (h : Fresh c) {t : TaskId} (ht : c.nextTask ≤ t) :
    c.session? t = none := by rw [session_eq, h t ht]; rfl

theorem Fresh.lt_of_session {c : Cluster} (h : Fresh c) {t : TaskId}
    {x : Nat × Nat × SessionPhase} (ht : c.session? t = some x) : t < c.nextTask := by
  refine Nat.lt_of_not_le fun hle => ?_
  rw [h.session hle] at ht
  cases ht

/-- From one state to the other sessions and places come to be as given. -/
structure Comes (c : Cluster) (sessions : TaskId → Option (Nat × Nat × SessionPhase))
    (taken : Nat → Nat) (c' : Cluster) : Prop where
  manned : Manned c'
  sessions : c'.session? = sessions
  places : c'.places = taken
  capacities : c'.capacity? = c.capacity?
  processes : c'.processes.keys = c.processes.keys
  sockets : c'.sockets.keys = c.sockets.keys
  onward : c.nextTask ≤ c'.nextTask

/-- Sessions and places are as before. -/
abbrev Leaves (c c' : Cluster) : Prop := Comes c c.session? c.places c'

section Comes
variable {c c₁ c' : Cluster} {sessions σ : TaskId → Option (Nat × Nat × SessionPhase)}
  {taken n : Nat → Nat} {p : Nat} {t : TaskId}

theorem Comes.trans (h : Comes c sessions taken c₁) (h' : Comes c₁ σ n c') : Comes c σ n c' where
  manned := h'.manned
  sessions := h'.sessions
  places := h'.places
  capacities := h'.capacities.trans h.capacities
  processes := h'.processes.trans h.processes
  sockets := h'.sockets.trans h.sockets
  onward := Nat.le_trans h.onward h'.onward

theorem Comes.leaves (h : Comes c sessions taken c₁) (h' : Leaves c₁ c') :
    Comes c sessions taken c' := by
  rw [← h.sessions, ← h.places]
  exact h.trans h'

theorem Comes.of_eq {α : Type} {x : Cluster × α} {a : α} (h : x = (c', a))
    (hx : Comes c sessions taken x.1) : Comes c sessions taken c' := by
  rw [h] at hx
  exact hx

theorem capacity_of_desks (h : c'.processes.image Process.desk = c.processes.image Process.desk) :
    c'.capacity? = c.capacity? ∧ c'.places = c.places := by
  have hp := fun p => congrArg (fun t => (Table.get? t p).map
    fun q => (q.settings.maxConnections, q.sockets)) h
  simp only [Table.get?_image, Option.map_map] at hp
  constructor <;> funext p
  · have hcapacity := congrArg (Option.map Prod.fst) (hp p)
    simp only [Option.map_map] at hcapacity
    exact hcapacity
  · have hplaces := congrArg (fun x => (x.map Prod.snd).getD 0) (hp p)
    simp only [Option.map_map] at hplaces
    exact hplaces

theorem Manned.aside (h : Manned c) (ha : Aside c c') : Leaves c c' := by
  have hsessions : c'.session? = c.session? := by
    funext u
    rw [session_eq, session_eq, ha.post_eq h.fresh]
  obtain ⟨hcapacities, hplaces⟩ := capacity_of_desks ha.desks
  refine ⟨⟨ha.fresh h.fresh, fun p device t ht => ?_⟩, hsessions, hplaces, hcapacities, ?_, ?_,
    ha.onward⟩
  · rw [workerOf_of_desks ha.desks] at ht
    obtain ⟨hlt, hnone⟩ := h.workers p device t ht
    exact ⟨Nat.lt_of_lt_of_le hlt ha.onward, hsessions ▸ hnone⟩
  · rw [← Table.keys_image c'.processes Process.desk, ha.desks, Table.keys_image]
  · rw [← Table.keys_image c'.sockets (·.address), ha.addresses, Table.keys_image]

theorem Comes.aside (h : Comes c sessions taken c₁) (ha : Aside c₁ c') :
    Comes c sessions taken c' := h.leaves (h.manned.aside ha)

theorem Manned.refl (h : Manned c) : Leaves c c := h.aside (.refl c)

/-- Changes of everything else. -/
theorem Manned.same (h : Manned c) (hsame : c'.processes = c.processes ∧
    c'.sockets = c.sockets ∧ c'.nextTask = c.nextTask ∧ c'.tasks = c.tasks) : Leaves c c' := by
  obtain ⟨hprocesses, hsockets, hnext, htasks⟩ := hsame
  have hsessions : c'.session? = c.session? := by
    funext u
    rw [session?, htasks]
    rfl
  refine ⟨⟨?_, fun p device t ht => ?_⟩, hsessions, ?_, ?_, by rw [hprocesses], by rw [hsockets],
    Nat.le_of_eq hnext.symm⟩
  · unfold Fresh post?
    rw [hnext, htasks]
    exact h.fresh
  · rw [workerOf?, hprocesses] at ht
    rw [hnext, hsessions]
    exact h.workers p device t ht
  · funext p
    rw [places, hprocesses]
    rfl
  · funext p
    rw [capacity?, hprocesses]
    rfl

theorem Comes.same (h : Comes c sessions taken c₁) (hsame : c'.processes = c₁.processes ∧
    c'.sockets = c₁.sockets ∧ c'.nextTask = c₁.nextTask ∧ c'.tasks = c₁.tasks) :
    Comes c sessions taken c' := h.leaves (h.manned.same hsame)

/-- A process changes; its places may, its workers and settings do not. -/
theorem Manned.updateProcess (h : Manned c) (p : Nat) {f : Process → Process}
    (hf : ∀ q, (f q).workers = q.workers ∧ (f q).settings = q.settings) :
    Comes c c.session?
      (update c.places p (((c.processes.get? p).map fun q => (f q).sockets).getD 0))
      (c.updateProcess p f) := by
  have hworker : ∀ q device, (c.updateProcess p f).workerOf? q device = c.workerOf? q device := by
    intro q device
    simp only [workerOf?, Cluster.updateProcess, Table.get?_modify]
    split
    · simp only [Option.bind_map, Function.comp_def, (hf _).1]
    · rfl
  exact ⟨⟨h.fresh, fun q device t ht => h.workers q device t (hworker q device ▸ ht)⟩, rfl,
    places_updateProcess c p f, capacity_updateProcess c p fun q => (hf q).2,
    keys_updateProcess c p f, rfl, Nat.le_refl _⟩

theorem Comes.updateProcess (h : Comes c sessions taken c₁) (p : Nat) {f : Process → Process}
    (hf : ∀ q, (f q).workers = q.workers ∧ (f q).settings = q.settings ∧
      (f q).sockets = q.sockets) : Comes c sessions taken (c₁.updateProcess p f) := by
  have hupdated := h.manned.updateProcess p fun q => ⟨(hf q).1, (hf q).2.1⟩
  rw [← places_updateProcess, places_updateProcess_of_eq c₁ p fun q => (hf q).2.2] at hupdated
  exact h.leaves hupdated

/-- A task starts that is no session. -/
theorem Comes.spawn (h : Comes c sessions taken c₁) (task : Task) (ht : task.session? = none) :
    Comes c sessions taken (c₁.spawn task).1 := by
  have hsessions : (c₁.spawn task).1.session? = c₁.session? := by
    refine (session_setTask c₁ c₁.nextTask task).trans ?_
    rw [ht, ← h.manned.fresh.session (Nat.le_refl _)]
    exact Function.update_eq_self _ _
  refine h.leaves ⟨⟨fun u hu => ?_, fun p device t hw => ?_⟩, hsessions, rfl, rfl, rfl, rfl,
    Nat.le_succ _⟩
  · refine (post_setTask c₁ c₁.nextTask u task).trans ?_
    rw [if_neg (Nat.ne_of_gt hu)]
    exact h.manned.fresh u (Nat.le_of_succ_le hu)
  · obtain ⟨hlt, hnone⟩ := h.manned.workers p device t hw
    exact ⟨Nat.lt_succ_of_lt hlt, hsessions ▸ hnone⟩

/-- A task is taken away, with its session if it has one. -/
theorem Comes.remove (h : Comes c sessions taken c₁) (t : TaskId) :
    Comes c (update sessions t none) taken (c₁.remove t) := by
  have hsessions := session_remove c₁ t
  rw [h.sessions] at hsessions
  refine h.trans ⟨⟨fun u hu => ?_, fun p device u hu => ?_⟩, hsessions, h.places, rfl, rfl, rfl,
    Nat.le_refl _⟩
  · refine (post_erase c₁ t u).trans ?_
    split
    · rfl
    · exact h.manned.fresh u hu
  · obtain ⟨hlt, hnone⟩ := h.manned.workers p device u hu
    refine ⟨hlt, ?_⟩
    rw [session_remove, Function.update_apply, hnone, ite_self]

theorem Comes.remove_idle (h : Comes c sessions taken c₁) (ht : sessions t = none) :
    Comes c sessions taken (c₁.remove t) := by
  have hremoved := h.remove t
  rwa [← ht, Function.update_eq_self] at hremoved

theorem Comes.finish (h : Comes c sessions taken c₁) (t : TaskId) :
    Comes c (update sessions t none) taken (c₁.finish t) := by
  obtain ⟨woken, parked, he⟩ := finish_eq c₁ t
  rw [he]
  exact (h.remove t).same ⟨rfl, rfl, rfl, rfl⟩

/-- A session goes on in another phase. -/
theorem Comes.enter (h : Comes c sessions taken c₁) {x : Nat × Nat × SessionPhase}
    (hx : sessions t = some x) (p s : Nat) (phase : SessionPhase) :
    Comes c (update sessions t (some (p, s, phase))) taken (c₁.enter t p s phase).1 := by
  have hwait : Comes c sessions taken (c₁.unwait t) := h.same ⟨rfl, rfl, rfl, rfl⟩
  have hx' : (c₁.unwait t).session? t = some x := (congrFun hwait.sessions t).trans hx
  have hsessions := session_setTask (c₁.unwait t) t (.session p s phase)
  rw [hwait.sessions] at hsessions
  refine hwait.trans ⟨⟨fun u hu => ?_, fun q device u hu => ?_⟩, hsessions, hwait.places, rfl, rfl,
    rfl, Nat.le_refl _⟩
  · have hlt := hwait.manned.fresh.lt_of_session hx'
    refine (post_setTask (c₁.unwait t) t u (.session p s phase)).trans ?_
    rw [if_neg (Nat.ne_of_gt (Nat.lt_of_lt_of_le hlt hu))]
    exact hwait.manned.fresh u hu
  · obtain ⟨hlt, hnone⟩ := hwait.manned.workers q device u hu
    refine ⟨hlt, (congrFun (session_setTask (c₁.unwait t) t (.session p s phase)) u).trans ?_⟩
    rw [Function.update_of_ne]
    · exact hnone
    · rintro rfl
      cases hnone.symm.trans hx'

theorem Comes.again (h : Comes c sessions taken c₁) (t : TaskId) :
    Comes c sessions taken (conclude t (c₁, .again)) := h.same ⟨rfl, rfl, rfl, rfl⟩

end Comes

section Operations
variable {c c₁ : Cluster} {sessions : TaskId → Option (Nat × Nat × SessionPhase)}
  {taken : Nat → Nat}

/-- A process takes a worker off its roll, or puts one on it that is no session. -/
theorem Manned.roll (h : Manned c) {p : Nat} {q : Process} (hq : c.processes.get? p = some q)
    (workers : Table String TaskId → Table String TaskId)
    (hnew : ∀ device t, (workers q.workers).get? device = some t →
      q.workers.get? device = some t ∨ t < c.nextTask ∧ c.session? t = none) :
    Leaves c (c.updateProcess p fun q => { q with workers := workers q.workers }) := by
  refine ⟨⟨h.fresh, fun r device t ht => ?_⟩, rfl, places_updateProcess_of_eq c p fun _ => rfl,
    capacity_updateProcess c p fun _ => rfl, keys_updateProcess c p _, rfl, Nat.le_refl _⟩
  rw [workerOf_updateProcess hq] at ht
  split at ht
  · rcases hnew device t ht with hold | hidle
    · exact h.workers p device t (by rw [workerOf?, hq]; exact hold)
    · exact hidle
  · exact h.workers r device t ht

theorem Comes.sync (h : Comes c sessions taken c₁) (p : Nat) (device : String) :
    Comes c sessions taken (c₁.sync p device).1 := by
  unfold Cluster.sync
  split
  · exact h
  · rename_i q hq
    dsimp only
    split
    · have hspawned := h.spawn (.worker p device .ready) rfl
      refine hspawned.leaves (hspawned.manned.roll hq (·.put device c₁.nextTask) ?_)
      intro other t ht
      rw [Table.get?_put] at ht
      split at ht
      · obtain rfl : c₁.nextTask = t := Option.some_inj.mp ht
        refine Or.inr ⟨Nat.lt_succ_self _, ?_⟩
        rw [hspawned.sessions, ← h.sessions]
        exact h.manned.fresh.session (Nat.le_refl _)
      · exact Or.inl ht
    · rename_i t _ ht
      have hidle : sessions t = none := by
        rw [← h.sessions]
        exact (h.manned.workers p device t (by rw [workerOf?, hq]; exact ht)).2
      have hremoved := h.remove_idle hidle
      refine hremoved.leaves (hremoved.manned.roll hq (·.erase device) ?_)
      intro other u hu
      rw [Table.get?_erase] at hu
      split at hu
      · cases hu
      · exact Or.inl hu
    · exact h

theorem Comes.leave (h : Comes c sessions taken c₁) (p : Nat) (device : String) (conn : Uuid) :
    Comes c sessions taken (c₁.leave p device conn) :=
  (h.updateProcess p (by intro q; exact ⟨rfl, rfl, rfl⟩)).sync p device

theorem Comes.presence (h : Comes c sessions taken c₁) (p : Nat) (store : SharedStore)
    (presence : Presence) :
    Comes c sessions taken (({ c₁ with store := store } : Cluster).updateProcess p
      fun q => { q with presence := presence }) := by
  have hstore : Comes c sessions taken { c₁ with store := store } := h.same ⟨rfl, rfl, rfl, rfl⟩
  exact hstore.updateProcess p fun _ => ⟨rfl, rfl, rfl⟩

theorem Comes.markAlive (h : Comes c sessions taken c₁) (p : Nat) (device : String) (conn : Uuid) :
    Comes c sessions taken (c₁.markAlive p device conn).1 := by
  unfold Cluster.markAlive
  split
  · exact h
  · exact h.presence p _ _

theorem Comes.dropPresence (h : Comes c sessions taken c₁) (p : Nat) (conn : Uuid) :
    Comes c sessions taken (c₁.dropPresence p conn).1 := by
  unfold Cluster.dropPresence
  split
  · exact h
  · exact h.presence p _ _

/-- A socket that is hung up gives its place back. -/
theorem Comes.hangUp (h : Comes c sessions taken c₁) (p s : Nat) (reason : Option CloseReason) :
    Comes c sessions (Function.update taken p (taken p - 1)) (c₁.hangUp p s reason).1 := by
  have hend : ∀ {c₂ : Cluster} (closed : Bool), Comes c sessions taken c₂ →
      Comes c sessions (Function.update taken p (taken p - 1))
        ((c₂.updateProcess p fun q => { q with sockets := q.sockets - 1 }).updateSocket s
          (·.finish closed)) := by
    intro c₂ closed h₂
    have hfreed := h₂.manned.updateProcess p (f := fun q => { q with sockets := q.sockets - 1 })
      fun _ => ⟨rfl, rfl⟩
    have hplace : ((c₂.processes.get? p).map fun q => q.sockets - 1).getD 0 = taken p - 1 := by
      rw [← h₂.places, Cluster.places]
      cases c₂.processes.get? p <;> rfl
    rw [hplace, h₂.places, h₂.sessions] at hfreed
    refine (h₂.trans hfreed).aside (aside_updateSocket _ s fun socket => ?_)
    unfold Socket.finish
    split <;> rfl
  unfold Cluster.hangUp
  cases reason with
  | none => exact hend false h
  | some r => exact hend _ (h.aside (aside_transmit c₁ s (.close r)))

theorem Comes.cleanUp (h : Comes c sessions taken c₁) (p s : Nat) (session : SessionState)
    (reason : Option CloseReason) :
    Comes c sessions (Function.update taken p (taken p - 1))
      (c₁.cleanUp p s session reason).1 := by
  have hfailed := (h.hangUp p s reason).aside (aside_failConnection _ p session.conn)
  unfold Cluster.cleanUp
  dsimp only
  refine Comes.leave ?_ p session.device.deviceId session.conn
  refine Comes.dropPresence ?_ p session.conn
  exact hfailed.same ⟨rfl, rfl, rfl, rfl⟩

end Operations

/-- What becomes of a session in a turn, and of its place. -/
inductive Fate (c : Cluster) (t : TaskId) (c' : Cluster) : Prop
  | stays (comes : Leaves c c')
  | goes {p s phase later} (own : c.session? t = some (p, s, phase))
      (leads : SessionPhase.Leads c.nextTask c'.nextTask phase later)
      (comes : Comes c (update c.session? t (some (p, s, later))) c.places c')
  /-- It takes a place, also where there is none left and it is turned away. -/
  | opens {p s later m} (own : c.session? t = some (p, s, .opening))
      (capacity : c.capacity? p = some m) (begun : later.isOpening = false ∧ later.helpers = [])
      (room : later = .refusing .busy ∨ c.places p < m)
      (comes : Comes c (update c.session? t (some (p, s, later)))
        (update c.places p (c.places p + 1)) c')
  /-- There is no process to serve it. -/
  | lost {p s} (own : c.session? t = some (p, s, .opening))
      (comes : Comes c (update c.session? t none) c.places c')
  | ends {p s phase} (own : c.session? t = some (p, s, phase)) (begun : phase.isOpening = false)
      (comes : Comes c (update c.session? t none) (update c.places p (c.places p - 1)) c')

section Turns
variable {c c₁ : Cluster} {t : TaskId} {p s : Nat} {phase : SessionPhase}

theorem fate_hangUp (h : Leaves c c₁) (own : c.session? t = some (p, s, phase))
    (begun : phase.isOpening = false) (reason : Option CloseReason) :
    Fate c t (conclude t (c₁.hangUp p s reason)) :=
  .ends own begun ((h.hangUp p s reason).finish t)

theorem fate_enter (h : Leaves c c₁) (own : c.session? t = some (p, s, phase))
    {later : SessionPhase} (leads : SessionPhase.Leads c.nextTask c₁.nextTask phase later) :
    Fate c t (conclude t (c₁.enter t p s later)) :=
  .goes own leads ((h.enter own p s later).again t)

theorem fate_openingTurn (hm : Manned c) (own : c.session? t = some (p, s, .opening))
    {settings : ServerSettings} (hset : c.settingsOf? p = some settings) (address : Address) :
    Fate c t (conclude t (c.openingTurn t p s settings address)) := by
  obtain ⟨q, hq, rfl⟩ := Option.map_eq_some_iff.mp hset
  have hcapacity : c.capacity? p = some q.settings.maxConnections := congrArg _ hq
  have hplaces : c.places p = q.sockets := congrArg (Option.getD · 0) (congrArg _ hq)
  let c₁ := c.updateProcess p fun q => { q with sockets := q.sockets + 1 }
  have hcounted : Comes c c.session? (update c.places p (c.places p + 1)) c₁ := by
    have hupdated := hm.updateProcess p (f := fun q => { q with sockets := q.sockets + 1 })
      fun _ => ⟨rfl, rfl⟩
    rw [hq] at hupdated
    rw [hplaces]
    exact hupdated
  have hget : c₁.processes.get? p = some { q with sockets := q.sockets + 1 } := by
    simp [c₁, updateProcess, Table.get?_modify, hq]
  unfold openingTurn
  dsimp only
  rw [show (c.updateProcess p _).processes.get? p = _ from hget]
  dsimp only
  split
  · exact .opens own hcapacity ⟨rfl, rfl⟩ (Or.inl rfl) ((hcounted.enter own p s _).again t)
  · rename_i hroom
    have hless : c.places p < q.settings.maxConnections := by omega
    have hasked := hcounted.updateProcess p
      (f := fun x => { x with limiter := (q.limiter.allows address c.now).1 })
      fun _ => ⟨rfl, rfl, rfl⟩
    split <;>
      exact .opens own hcapacity ⟨rfl, rfl⟩ (Or.inr hless) ((hasked.enter own p s _).again t)

theorem fate_refusingTurn (hm : Manned c) {reason : CloseReason}
    (own : c.session? t = some (p, s, .refusing reason)) :
    Fate c t (conclude t (c.refusingTurn t p s reason)) := by
  unfold refusingTurn
  split
  · exact .stays (hm.aside (aside_park c t _))
  · exact fate_hangUp hm.refl own rfl _

theorem fate_refuseTurn (h : Leaves c c₁) {state : HandshakeState} {deadline : Nat}
    (own : c.session? t = some (p, s, .handshaking state deadline)) (address : Address)
    (e : ChannelError) : Fate c t (conclude t (c₁.refuseTurn t p s address e)) := by
  unfold refuseTurn
  split
  · exact fate_hangUp h own rfl none
  · exact fate_enter (h.updateProcess p (by intro q; exact ⟨rfl, rfl, rfl⟩)) own .refused

theorem fate_handshakeTurn (hm : Manned c) (settings : ServerSettings) (address : Address)
    {state : HandshakeState} {deadline : Nat}
    (own : c.session? t = some (p, s, .handshaking state deadline)) :
    Fate c t (conclude t (c.handshakeTurn t p s settings address state deadline)) := by
  have hnext := hm.aside (aside_nextIncoming c s)
  unfold handshakeTurn
  split <;> rename_i h
  · have hc := Comes.of_eq h hnext
    split
    · exact fate_refuseTurn hc own address _
    · exact .stays (hc.aside (aside_awaitArrival _ s deadline))
  · have hc := Comes.of_eq h hnext
    split <;> rename_i hsend
    · exact .stays ((hc.aside (aside_of_eq hsend (aside_transmit _ s _))).again t)
    · exact fate_hangUp (hc.aside (aside_of_eq hsend (aside_transmit _ s _))) own rfl none
  · rename_i c₁ incoming _
    have hc := Comes.of_eq h hnext
    split
    · exact .stays (hc.again t)
    · exact fate_refuseTurn hc own address _
    · have hused : Leaves c c₁.useChallenge := hc.same ⟨rfl, rfl, rfl, rfl⟩
      split <;> rename_i hsend
      · exact fate_enter (hused.aside (aside_of_eq hsend (aside_transmit _ s _))) own .shakes
      · exact fate_hangUp (hused.aside (aside_of_eq hsend (aside_transmit _ s _))) own rfl none
    · split <;> rename_i hsend
      · exact fate_enter (hc.aside (aside_of_eq hsend (aside_transmit _ s _))) own .accepted
      · exact fate_hangUp (hc.aside (aside_of_eq hsend (aside_transmit _ s _))) own rfl none

theorem fate_startingTurn (hm : Manned c) (settings : ServerSettings) {device : DeviceRecord}
    (own : c.session? t = some (p, s, .starting device)) :
    Fate c t (conclude t (c.startingTurn t p s settings device)) := by
  have hdrawn : Leaves c c.freshId.1 := hm.same ⟨rfl, rfl, rfl, rfl⟩
  have hregistered : Leaves c (c.freshId.1.register p device.deviceId c.freshId.2).1 :=
    hdrawn.updateProcess p fun _ => ⟨rfl, rfl, rfl⟩
  have hmarked := (hregistered.sync p device.deviceId).markAlive p device.deviceId c.freshId.2
  unfold startingTurn
  dsimp only
  split <;> rename_i h
  · have hfreed := (Comes.of_eq h hmarked).hangUp p s (some .presenceUnavailable)
    exact .ends own rfl ((hfreed.leave p device.deviceId c.freshId.2).finish t)
  · have hc := Comes.of_eq h hmarked
    have honward := hc.onward
    refine fate_enter ((hc.spawn _ rfl).spawn _ rfl) own (.started ?_ ?_)
    · exact ⟨Nat.le_succ_of_le honward, Nat.lt_succ_self _⟩
    · exact ⟨honward, Nat.lt_succ_of_lt (Nat.lt_succ_self _)⟩

theorem fate_drain (h : Leaves c c₁) {session : SessionState} {deadline : Nat}
    (own : c.session? t = some (p, s, .receiving session deadline))
    (reason : Option CloseReason) : Fate c t (conclude t (c₁.drain t p s session reason)) := by
  have htold : Leaves c { c₁ with stopping := c₁.stopping ++ [session.conn] } :=
    h.same ⟨rfl, rfl, rfl, rfl⟩
  exact fate_enter (htold.aside (aside_notify _ _)) own .drained

theorem fate_receivingTurn (hm : Manned c) (settings : ServerSettings) {session : SessionState}
    {deadline : Nat} (own : c.session? t = some (p, s, .receiving session deadline)) :
    Fate c t (conclude t (c.receivingTurn t p s settings session deadline)) := by
  have hnext := hm.aside (aside_nextIncoming c s)
  unfold receivingTurn
  dsimp only
  split <;> rename_i h
  · have hc := Comes.of_eq h hnext
    split
    · exact fate_drain hc own _
    · exact .stays (hc.aside (aside_awaitArrival _ s deadline))
  · have hc := Comes.of_eq h hnext
    split <;> rename_i hsend
    · exact .stays ((hc.aside (aside_of_eq hsend (aside_transmit _ s _))).again t)
    · exact fate_drain (hc.aside (aside_of_eq hsend (aside_transmit _ s _))) own _
  · exact .stays ((Comes.of_eq h hnext).again t)
  · exact fate_drain (Comes.of_eq h hnext) own _
  · exact fate_drain (Comes.of_eq h hnext) own _
  · rename_i c₁ data
    have htaken : Leaves c (c₁.takeBinary p session.conn data) :=
      (Comes.of_eq h hnext).same ⟨rfl, rfl, rfl, rfl⟩
    exact fate_enter htaken own .received
  · have hc := Comes.of_eq h hnext
    split <;> rename_i htext
    · exact fate_enter (hc.aside (aside_of_eq htext (aside_takeText _ p session _))) own .received
    · exact fate_drain (hc.aside (aside_of_eq htext (aside_takeText _ p session _))) own _

theorem fate_drainingTurn (hm : Manned c) {session : SessionState} {reason : Option CloseReason}
    {deadline : Nat} (own : c.session? t = some (p, s, .draining session reason deadline))
    (idle : c.session? session.sender = none ∧ c.session? session.heartbeat = none) :
    Fate c t (conclude t (c.drainingTurn t p s session reason deadline)) := by
  have hstopped := (hm.refl.remove_idle idle.1).remove_idle idle.2
  unfold drainingTurn
  dsimp only
  split
  · exact .stays ((hm.aside (aside_park c t _)).same ⟨rfl, rfl, rfl, rfl⟩)
  · split
    · exact .stays (hstopped.aside (aside_park _ t _))
    · exact .ends own rfl ((hstopped.cleanUp p s session reason).finish t)

/-- A session has its turn, in a process that is there and with tasks beside it that are no
sessions. -/
theorem fate_sessionTurn (hm : Manned c) (own : c.session? t = some (p, s, phase))
    (home : phase.isOpening = false → c.processes.has p = true ∧ c.sockets.has s = true)
    (idle : ∀ u ∈ phase.helpers, c.session? u = none) :
    Fate c t (conclude t (c.sessionTurn t p s phase)) := by
  unfold sessionTurn
  split
  · rename_i settings socket hset hsocket
    cases phase with
    | opening => exact fate_openingTurn hm own hset socket.address
    | refusing reason => exact fate_refusingTurn hm own
    | handshaking state deadline => exact fate_handshakeTurn hm settings socket.address own
    | starting device => exact fate_startingTurn hm settings own
    | receiving session deadline => exact fate_receivingTurn hm settings own
    | draining session reason deadline =>
      exact fate_drainingTurn hm own ⟨idle _ (by simp [SessionPhase.helpers]),
        idle _ (by simp [SessionPhase.helpers])⟩
  · rename_i hmissing
    cases hopening : phase.isOpening with
    | true =>
      obtain rfl : phase = .opening := by cases phase <;> trivial
      exact .lost own (hm.refl.finish t)
    | false =>
      obtain ⟨hp, hs⟩ := home hopening
      obtain ⟨q, hq⟩ := (Table.has_iff _ _).mp hp
      obtain ⟨socket, hsocket⟩ := (Table.has_iff _ _).mp hs
      exact absurd hsocket (hmissing q.settings socket (congrArg _ hq))

end Turns

end Cluster

end FleetControl
