import FleetControl.Proofs.Cluster.Separation
import FleetControl.Proofs.Engine.Accounts

/-! # One lock at a time

What a cluster does in one go, the threads of a process do in steps, each under a lock, and the
steps of different threads mix. A submission makes the command pending, puts it on its queue, and
then wakes those who wait; a waiter asks to be woken, and then looks at its queue. The operations of
a cluster are runs of these steps, and so are its turns. -/
namespace FleetControl.Cluster.Lifetime

/-- A cluster in the middle of what its threads do. -/
structure Moment where
  cluster : Cluster
  /-- The waiters that asked to be woken and did not look at their queue since. -/
  looking : List TaskId := []
  /-- The devices for which something was put on the queue and nobody was woken since. -/
  owed : List String := []
  /-- What was put on the queues so far. -/
  put : List QueuedCommand := []

/-- What a thread does under one lock. -/
inductive Move where
  | act (a : Act)
  /-- A submitted command is pending. -/
  | record (device : String) (command : Command) (timeout : Nat)
  /-- A command goes on its queue, or goes back to the head of it. -/
  | append (item : QueuedCommand)
  | prepend (item : QueuedCommand)
  /-- Those who wait for commands of a device are woken. -/
  | notify (device : String)
  /-- A waiter asks to be woken, and then looks at its queue. -/
  | enable (t : TaskId) (device : String)
  | look (t : TaskId) (device : String)
  /-- A time limit ends, however soon. -/
  | expire (id : Uuid)
  /-- A waiter gives up. -/
  | quit (t : TaskId)

/-- A command is pending, and its time limit runs. -/
def record (c : Cluster) (device : String) (command : Command) (timeout : Nat) : Cluster :=
  { (c.spawn (.expiry 0 (c.supply.idOf c.drawn) (c.now + timeout))).1.setEngine 0
      ((c.engine 0).record (c.supply.idOf c.drawn) device command timeout c.now) with
    drawn := c.drawn + 1 }

/-- A waiter takes what its queue has, if it has something. -/
def look (c : Cluster) (t : TaskId) (device : String) : Cluster :=
  match c.popLive 0 device with
  | (c, some item) => (c.deliver t (.item item)).finish t
  | (c, none) => c

namespace Moment

def start (supply : Supply) (settings : ServerSettings) : Moment where
  cluster := Lifetime.start supply settings

/-- A waiter does one thing at a time. What takes several steps is no single act, and what goes on a
queue was submitted. -/
def Allows (m : Moment) : Move → Prop
  | .act (.enqueue ..) | .act (.requeue _) => False
  | .act (.turn t) => ∀ device, m.cluster.tasks.get? t ≠ some (.consumer 0 device)
  | .append item | .prepend item => (m.cluster.engine 0).completions.has item.id = true
  | .enable t device =>
    m.cluster.tasks.get? t = some (.consumer 0 device) ∧ t ∈ m.cluster.ready ∧ t ∉ m.looking
  | .look t device => m.cluster.tasks.get? t = some (.consumer 0 device) ∧ t ∈ m.looking
  | _ => True

def next (m : Moment) : Move → Moment
  | .act a => { m with cluster := act m.cluster a }
  | .record device command timeout =>
    { m with cluster := record m.cluster device command timeout }
  | .append item =>
    { m with
      cluster := m.cluster.setEngine 0 ((m.cluster.engine 0).append item)
      owed := item.deviceId :: m.owed
      put := item :: m.put }
  | .prepend item =>
    { m with
      cluster := m.cluster.setEngine 0 ((m.cluster.engine 0).prepend item)
      owed := item.deviceId :: m.owed
      put := item :: m.put }
  | .notify device =>
    { m with
      cluster := m.cluster.notify (.queued 0 device)
      owed := m.owed.erase device }
  | .enable t device =>
    { m with
      cluster := (take m.cluster t).park t (.queued 0 device)
      looking := t :: m.looking }
  | .look t device =>
    { m with
      cluster := Lifetime.look m.cluster t device
      looking := m.looking.erase t }
  | .expire id => { m with cluster := m.cluster.expire 0 id }
  | .quit t =>
    { m with
      cluster := quit m.cluster t
      looking := m.looking.erase t }

def run (m : Moment) : List Move → Moment
  | [] => m
  | move :: moves => run (m.next move) moves

def Proper (m : Moment) : List Move → Prop
  | [] => True
  | move :: moves => m.Allows move ∧ Proper (m.next move) moves

end Moment

/-- How many commands are submitted. -/
def draws : List Move → Nat
  | [] => 0
  | .record .. :: moves => draws moves + 1
  | _ :: moves => draws moves

theorem draws_cons (move : Move) (moves : List Move) :
    draws (move :: moves) = draws [move] + draws moves := by
  cases move <;> simp [draws, Nat.add_comm]

theorem draws_append (before after : List Move) :
    draws (before ++ after) = draws before + draws after := by
  induction before with
  | nil => simp [draws]
  | cons move moves ih =>
    rw [List.cons_append, draws_cons, draws_cons move moves, ih, Nat.add_assoc]

section Whole
variable {c : Cluster} {m : Moment} {t : TaskId} {device : String}

theorem setEngine_setEngine (c : Cluster) (e e' : Engine) :
    (c.setEngine 0 e).setEngine 0 e' = c.setEngine 0 e' := by
  simp only [setEngine, updateProcess, Table.modify, List.map_map]
  congr 1
  refine List.map_congr_left fun entry _ => ?_
  by_cases hp : entry.1 = 0 <;> simp [hp]

theorem engine_record (hk : Keeping c) (device : String) (command : Command) (timeout : Nat) :
    (record c device command timeout).engine 0 =
      (c.engine 0).record (c.supply.idOf c.drawn) device command timeout c.now :=
  hk.engine_setEngine _

/-- A command that is pending goes on its queue. -/
theorem append_record (hk : Keeping c) (device : String) (command : Command)
    (blob : Option ByteArray) (timeout : Nat) :
    (record c device command timeout).setEngine 0 (((record c device command timeout).engine 0).append
        ⟨c.supply.idOf c.drawn, device, command, blob⟩) =
      submit c (c.supply.idOf c.drawn) device command blob timeout := by
  rw [engine_record hk, ← Engine.enqueue_eq]
  have hset := setEngine_setEngine (c.spawn (.expiry 0 (c.supply.idOf c.drawn) (c.now + timeout))).1
    ((c.engine 0).record (c.supply.idOf c.drawn) device command timeout c.now)
    ((c.engine 0).enqueue (c.supply.idOf c.drawn) device command blob timeout c.now)
  exact congrArg (fun c' : Cluster => { c' with drawn := c.drawn + 1 }) hset

/-- A submission is three steps. -/
theorem run_enqueue (hk : Keeping m.cluster) (device : String) (command : Command)
    (blob : Option ByteArray) (timeout : Nat) :
    let item : QueuedCommand := ⟨m.cluster.supply.idOf m.cluster.drawn, device, command, blob⟩
    m.run [.record device command timeout, .append item, .notify device] =
      { m with
        cluster := act m.cluster (.enqueue device command blob timeout)
        put := item :: m.put } := by
  dsimp only [Moment.run, Moment.next]
  rw [append_record hk, act_submit, List.erase_cons_head]

/-- So is putting a command back. -/
theorem run_requeue (hk : Keeping m.cluster) (item : QueuedCommand) :
    m.run [.act (.unmark item.id), .prepend item, .notify item.deviceId] =
      { m with cluster := act m.cluster (.requeue item), put := item :: m.put } := by
  have hunmarked : (act m.cluster (.unmark item.id)).engine 0 =
      (m.cluster.engine 0).unmark item.id := hk.engine_setEngine _
  dsimp only [Moment.run, Moment.next]
  rw [hunmarked, ← Engine.requeueFront_eq, List.erase_cons_head]
  change (_ : Moment) = { m with
    cluster := (m.cluster.setEngine 0 ((m.cluster.engine 0).requeueFront item)).notify
      (.queued 0 item.deviceId), put := item :: m.put }
  rw [← setEngine_setEngine m.cluster ((m.cluster.engine 0).unmark item.id)]
  rfl

theorem look_eq (c : Cluster) (t : TaskId) (device : String) :
    look c t device =
      match ((c.engine 0).popLive device).2 with
      | some item => ((operate c (.pop device)).deliver t (.item item)).finish t
      | none => operate c (.pop device) := by
  unfold look Cluster.popLive
  cases h : ((c.engine 0).popLive device).2 with
  | some item =>
    dsimp only
    rw [h]
    rfl
  | none =>
    dsimp only
    rw [h]
    rfl

theorem operate_park (c : Cluster) (t : TaskId) (s : Signal) (op : Engine.Op) :
    operate (c.park t s) op = (operate c op).park t s := by
  unfold park
  have hparked : (operate c op).parked = c.parked := rfl
  rw [hparked]
  split <;> rfl

/-- Who is taken away waits for nothing. -/
theorem remove_deliver_park (c : Cluster) (t : TaskId) (s : Signal) (r : TaskResult) :
    ((c.park t s).deliver t r).remove t = (c.deliver t r).remove t := by
  unfold park
  split
  · rfl
  · simp [deliver, remove, clearTimer]

/-- A turn of a waiter is two steps: its wish to be woken goes with it if it is handed something. -/
theorem run_turn (hk : Keeping m.cluster) (ht : Tidy m.cluster)
    (htask : m.cluster.tasks.get? t = some (.consumer 0 device)) (hr : t ∈ m.cluster.ready) :
    m.run [.enable t device, .look t device] = { m with cluster := m.cluster.give t } := by
  have hpopped : Tidy ((operate (take m.cluster t) (.pop device)).park t (.queued 0 device)) :=
    ((ht.take t).operate (.pop device)).park htask
  have hlt := hpopped.tasks t (.consumer 0 device) (by rw [tasks_park]; exact htask)
  have hengine : ((take m.cluster t).park t (.queued 0 device)).engine 0 = m.cluster.engine 0 :=
    engine_park ..
  have hlooked : look ((take m.cluster t).park t (.queued 0 device)) t device =
      m.cluster.give t := by
    rw [look_eq, hengine, give_eq ht hk hr, htask, operate_park]
    dsimp only
    cases ((m.cluster.engine 0).popLive device).2 with
    | some item =>
      exact ((hpopped.deliver hlt (.item item)).finish t).trans (remove_deliver_park ..)
    | none => rfl
  dsimp only [Moment.run, Moment.next]
  rw [hlooked, List.erase_cons_head]

end Whole

section Keeps
variable {c : Cluster} {m : Moment} {move : Move}

/-- Only what is pending and what was decided counts for the time limits. -/
theorem Keeping.setEngine (h : Keeping c) {e : Engine} (hpending : e.pending = (c.engine 0).pending)
    (hcompletions : e.completions = (c.engine 0).completions) : Keeping (c.setEngine 0 e) := by
  have hengine : (c.setEngine 0 e).engine 0 = e := h.engine_setEngine e
  refine h.descend ?_ ((has_setEngine c 0 0 e).trans h.process) ⟨rfl, rfl, rfl, rfl⟩
    (fun _ _ ht => ht) (fun _ _ _ ht _ hw => ⟨ht, hw⟩) h.ahead
  have hs := h.sound
  rw [hengine]
  refine ⟨⟨?_, ?_, ?_⟩, fun id k hk => ⟨k, ?_⟩, fun id q hq => ⟨q, ?_, rfl⟩⟩
  · exact hpending ▸ hs.distinct
  · exact hpending ▸ hcompletions ▸ hs.unresolved
  · exact hpending ▸ hcompletions ▸ hs.pending
  · exact hcompletions ▸ hk
  · exact hpending ▸ hq

theorem keeping_operate (h : Keeping c) {op : Engine.Op} (hn : op.submits? = none) :
    Keeping (operate c op) := by
  have hoperated := h.operate hn [] c.parked
  rwa [List.append_nil] at hoperated

theorem keeping_record (h : Keeping c) (hids : ∀ i < c.drawn,
    c.supply.idOf i ≠ c.supply.idOf c.drawn) (device : String) (command : Command)
    (timeout : Nat) : Keeping (record c device command timeout) := by
  have hsubmitted := keeping_submit h hids device command none timeout
  have hengine := engine_submit h (c.supply.idOf c.drawn) device command none timeout
  have hset := setEngine_setEngine (c.spawn (.expiry 0 (c.supply.idOf c.drawn) (c.now + timeout))).1
    ((c.engine 0).enqueue (c.supply.idOf c.drawn) device command none timeout c.now)
    ((c.engine 0).record (c.supply.idOf c.drawn) device command timeout c.now)
  have hrecord : (submit c (c.supply.idOf c.drawn) device command none timeout).setEngine 0
      ((c.engine 0).record (c.supply.idOf c.drawn) device command timeout c.now) =
        record c device command timeout :=
    congrArg (fun c' : Cluster => { c' with drawn := c.drawn + 1 }) hset
  rw [← hrecord]
  exact hsubmitted.setEngine (by rw [hengine]; rfl) (by rw [hengine]; rfl)

theorem keeping_enable (h : Keeping c) {t : TaskId} {device : String}
    (htask : c.tasks.get? t = some (.consumer 0 device)) :
    Keeping ((take c t).park t (.queued 0 device)) := by
  have hengine : ((take c t).park t (.queued 0 device)).engine 0 = c.engine 0 := engine_park ..
  obtain ⟨parked, he⟩ := (take c t).park_eq t (.queued 0 device)
  rw [he] at hengine ⊢
  refine h.descend ?_ h.process ⟨rfl, rfl, rfl, rfl⟩ (fun _ _ hu => hu) (fun u id due hu _ hw => ?_)
    h.ahead
  · rw [hengine]
    exact descends_refl h.sound
  · refine ⟨hu, hw.imp_left fun hr => (List.mem_erase_of_ne ?_).mpr hr⟩
    rintro rfl
    rw [htask] at hu
    cases hu

theorem keeping_look (h : Keeping c) {t : TaskId} {device : String}
    (htask : c.tasks.get? t = some (.consumer 0 device)) : Keeping (look c t device) := by
  have hpopped : Keeping (operate c (.pop device)) := keeping_operate h rfl
  rw [look_eq]
  split
  · refine hpopped.finish (descends_refl hpopped.sound) hpopped.process ⟨rfl, rfl, rfl, rfl⟩ rfl rfl
      (fun _ hu _ => hu) fun id due hlimit => ?_
    have hconsumer : (operate c (.pop device)).tasks.get? t = some (.consumer 0 device) := htask
    rw [hconsumer] at hlimit
    cases hlimit
  · exact hpopped

theorem tidy_look (h : Tidy c) {t : TaskId} {device : String}
    (htask : c.tasks.get? t = some (.consumer 0 device)) : Tidy (look c t device) := by
  have hpopped := h.operate (.pop device)
  have hlt : t < c.nextTask := h.tasks t _ htask
  rw [look_eq]
  split
  · rename_i item _
    have hdelivered := hpopped.deliver hlt (.item item)
    rw [hdelivered.finish t]
    exact hdelivered.remove t
  · exact hpopped

/-- The acts that take one step submit nothing. -/
theorem Moment.Allows.submissions {a : Act} (h : m.Allows (.act a)) : submissions [a] = 0 := by
  cases a <;> first | exact h.elim | rfl

theorem keeping_next (h : Keeping m.cluster) (ht : Tidy m.cluster) (hm : m.Allows move)
    (hids : Apart m.cluster.supply (m.cluster.drawn + draws [move])) :
    Keeping (m.next move).cluster := by
  cases move with
  | act a =>
    refine keeping_act h ?_
    rw [hm.submissions]
    exact hids
  | record device command timeout =>
    exact keeping_record h (fun i hi => hids i m.cluster.drawn hi (Nat.lt_succ_self _)) device
      command timeout
  | append item => exact h.setEngine rfl rfl
  | prepend item => exact h.setEngine rfl rfl
  | notify device => exact keeping_notify h _
  | enable t device => exact keeping_enable h hm.1
  | look t device => exact keeping_look h hm.1
  | expire id =>
    change Keeping (m.cluster.expire 0 id)
    rw [expire_eq ht]
    exact keeping_operate h rfl
  | quit t => exact keeping_quit h ht t

theorem tidy_next (h : Keeping m.cluster) (ht : Tidy m.cluster) (hm : m.Allows move) :
    Tidy (m.next move).cluster := by
  cases move with
  | act a => exact ht.act h a
  | record device command timeout =>
    have hspawned := (ht.spawn (.expiry 0 (m.cluster.supply.idOf m.cluster.drawn)
      (m.cluster.now + timeout))).setEngine ((m.cluster.engine 0).record
        (m.cluster.supply.idOf m.cluster.drawn) device command timeout m.cluster.now)
    exact ⟨hspawned.nodup, hspawned.tasks, hspawned.ready, hspawned.timers, hspawned.parked,
      hspawned.results⟩
  | append item => exact ht.setEngine _
  | prepend item => exact ht.setEngine _
  | notify device => exact ht.notify _
  | enable t device => exact (ht.take t).park hm.1
  | look t device => exact tidy_look ht hm.1
  | expire id =>
    change Tidy (m.cluster.expire 0 id)
    rw [expire_eq ht]
    exact ht.operate _
  | quit t => exact ht.quit t

theorem next_same (h : Keeping m.cluster) (ht : Tidy m.cluster) (hm : m.Allows move) :
    (m.next move).cluster.supply = m.cluster.supply ∧
      (m.next move).cluster.drawn = m.cluster.drawn + draws [move] := by
  cases move with
  | act a =>
    obtain ⟨hsupply, hdrawn⟩ := act_same h a
    rw [hm.submissions] at hdrawn
    exact ⟨hsupply, hdrawn⟩
  | notify device =>
    have hstill := still_notify m.cluster (.queued 0 device)
    exact ⟨hstill.supply, hstill.drawn⟩
  | enable t device =>
    have hstill := still_park (take m.cluster t) t (.queued 0 device)
    exact ⟨hstill.supply, hstill.drawn⟩
  | look t device =>
    change (look m.cluster t device).supply = _ ∧ (look m.cluster t device).drawn = _
    rw [look_eq]
    split
    · rename_i item _
      have hstill := still_notify (((operate m.cluster (.pop device)).deliver t
        (.item item)).remove t) (.ended t)
      exact ⟨hstill.supply, hstill.drawn⟩
    · exact ⟨rfl, rfl⟩
  | expire id =>
    change (m.cluster.expire 0 id).supply = _ ∧ (m.cluster.expire 0 id).drawn = _
    rw [expire_eq ht]
    exact ⟨rfl, rfl⟩
  | quit t =>
    change (quit m.cluster t).supply = _ ∧ (quit m.cluster t).drawn = _
    obtain he | ⟨-, -, -, he⟩ := quit_cases m.cluster t <;> rw [he] <;> exact ⟨rfl, rfl⟩
  | _ => exact ⟨rfl, rfl⟩

/-- The first step of a run, with the identifiers of the whole run apart. -/
theorem next_first (h : Keeping m.cluster) (ht : Tidy m.cluster) (hm : m.Allows move)
    {moves : List Move} (hids : Apart m.cluster.supply (m.cluster.drawn + draws (move :: moves))) :
    Apart m.cluster.supply (m.cluster.drawn + draws [move]) ∧
      Apart (m.next move).cluster.supply ((m.next move).cluster.drawn + draws moves) := by
  rw [draws_cons] at hids
  obtain ⟨hsupply, hdrawn⟩ := next_same h ht hm
  rw [hsupply, hdrawn, Nat.add_assoc]
  exact ⟨hids.mono (Nat.add_le_add_left (Nat.le_add_right ..) _), hids⟩

/-- A run of steps comes to what a cluster does in one go, and leaves nothing half done. -/
structure Moment.Does (m : Moment) (d : Deed) (moves : List Move) : Prop where
  proper : m.Proper moves
  draws : draws moves = requests [d]
  run : ∃ put, m.run moves = { m with cluster := perform m.cluster d, put := put }

theorem does_enqueue (h : Keeping m.cluster) (device : String) (command : Command)
    (blob : Option ByteArray) (timeout : Nat) :
    m.Does (.act (.enqueue device command blob timeout))
      [.record device command timeout,
        .append ⟨m.cluster.supply.idOf m.cluster.drawn, device, command, blob⟩,
        .notify device] := by
  have hknown : ((record m.cluster device command timeout).engine 0).completions.has
      (m.cluster.supply.idOf m.cluster.drawn) = true := by
    rw [engine_record h]
    exact congrArg Option.isSome (Table.get?_put_self ..)
  exact ⟨⟨trivial, hknown, trivial, trivial⟩, rfl, _, run_enqueue h device command blob timeout⟩

theorem does_requeue (h : Keeping m.cluster) {item : QueuedCommand}
    (hitem : (m.cluster.engine 0).completions.has item.id = true) :
    m.Does (.act (.requeue item))
      [.act (.unmark item.id), .prepend item, .notify item.deviceId] := by
  have hunmarked : (act m.cluster (.unmark item.id)).engine 0 =
      (m.cluster.engine 0).unmark item.id := h.engine_setEngine _
  have hknown : ((act m.cluster (.unmark item.id)).engine 0).completions.has item.id = true := by
    rw [hunmarked]
    exact hitem
  exact ⟨⟨trivial, hknown, trivial, trivial⟩, rfl, _, run_requeue h item⟩

theorem does_turn (h : Keeping m.cluster) (ht : Tidy m.cluster) {t : TaskId} {device : String}
    (htask : m.cluster.tasks.get? t = some (.consumer 0 device)) (hr : t ∈ m.cluster.ready)
    (hl : t ∉ m.looking) :
    m.Does (.act (.turn t)) [.enable t device, .look t device] := by
  have henabled : ((take m.cluster t).park t (.queued 0 device)).tasks.get? t =
      some (.consumer 0 device) := by
    rw [tasks_park]
    exact htask
  exact ⟨⟨⟨htask, hr, hl⟩, ⟨henabled, List.mem_cons_self⟩, trivial⟩, rfl, _, run_turn h ht htask hr⟩

/-- Whatever a cluster does in one go is a run of steps. -/
theorem exists_does (h : Keeping m.cluster) (ht : Tidy m.cluster) (hl : m.looking = [])
    (d : Deed) (hback : ∀ item, d = .act (.requeue item) →
      (m.cluster.engine 0).completions.has item.id = true) : ∃ moves, m.Does d moves := by
  have halone {a : Act} (ha : m.Allows (.act a)) : m.Does (.act a) [.act a] :=
    ⟨⟨ha, trivial⟩, ha.submissions.symm, m.put, rfl⟩
  cases d with
  | quit t =>
    refine ⟨[.quit t], ⟨trivial, trivial⟩, rfl, m.put, ?_⟩
    dsimp only [Moment.run, Moment.next]
    rw [hl, List.erase_nil]
    rfl
  | act a =>
    cases a with
    | enqueue device command blob timeout => exact ⟨_, does_enqueue h device command blob timeout⟩
    | requeue item => exact ⟨_, does_requeue h (hback item rfl)⟩
    | turn t =>
      by_cases hw : ∃ device, m.cluster.tasks.get? t = some (.consumer 0 device)
      · obtain ⟨device, htask⟩ := hw
        by_cases hr : t ∈ m.cluster.ready
        · exact ⟨_, does_turn h ht htask hr (hl ▸ List.not_mem_nil)⟩
        · refine ⟨[], trivial, rfl, m.put, ?_⟩
          change m = { m with cluster := m.cluster.give t }
          rw [give_of_not_mem hr]
      · exact ⟨_, halone (a := .turn t) fun device htask => hw ⟨device, htask⟩⟩
    | consume device => exact ⟨_, halone (a := .consume device) trivial⟩
    | mark id conn => exact ⟨_, halone (a := .mark id conn) trivial⟩
    | unmark id => exact ⟨_, halone (a := .unmark id) trivial⟩
    | resolve id outcome => exact ⟨_, halone (a := .resolve id outcome) trivial⟩
    | respond id ok result body => exact ⟨_, halone (a := .respond id ok result body) trivial⟩
    | fail conn => exact ⟨_, halone (a := .fail conn) trivial⟩
    | pass ms => exact ⟨_, halone (a := .pass ms) trivial⟩

end Keeps

end FleetControl.Cluster.Lifetime
