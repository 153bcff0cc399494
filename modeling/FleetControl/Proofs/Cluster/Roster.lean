import FleetControl.Proofs.Cluster.History
import FleetControl.Proofs.Handshake

/-! # Sessions and senders

The tasks that stand for a connection are its session, once a device is accepted, and its sender.
They change in their own turns only, in a few ways, and a connection is registered only when its
session starts. -/
namespace FleetControl

namespace Connections

theorem of_register (k : Connections) (device other : String) (conn : Uuid) :
    (k.register device conn).1.of other =
      if other = device then if conn ∈ k.of device then k.of device else k.of device ++ [conn]
      else k.of other := by
  unfold register Connections.of Table.getD
  dsimp only
  rw [Table.get?_put]
  split <;> rfl

theorem of_unregister (k : Connections) (device other : String) (conn : Uuid) :
    (k.unregister device conn).1.of other =
      if other = device then (k.of device).filter (· ≠ conn) else k.of other := by
  by_cases hm : conn ∈ k.of device
  · unfold unregister
    dsimp only
    rw [if_pos hm]
    by_cases he : ((k.of device).filter (· ≠ conn)).isEmpty = true
    · rw [if_pos he, List.isEmpty_iff.mp he]
      unfold Connections.of Table.getD
      dsimp only
      rw [Table.get?_erase]
      split <;> rfl
    · rw [if_neg he]
      unfold Connections.of Table.getD
      dsimp only
      rw [Table.get?_put]
      split <;> rfl
  · have hall : (k.of device).filter (· ≠ conn) = k.of device := by
      refine List.filter_eq_self.mpr fun x hx => decide_eq_true ?_
      rintro rfl
      exact hm hx
    rw [hall]
    unfold unregister
    dsimp only
    rw [if_neg hm]
    split
    · rename_i ho
      rw [ho]
    · rfl

theorem mem_register {k : Connections} {device other : String} {conn x : Uuid}
    (h : x ∈ (k.register device conn).1.of other) :
    x ∈ k.of other ∨ (other = device ∧ x = conn) := by
  rw [of_register] at h
  split at h
  · rename_i ho
    rw [ho]
    split at h
    · exact Or.inl h
    · exact (List.mem_append.mp h).imp_right fun hx => ⟨rfl, List.mem_singleton.mp hx⟩
  · exact Or.inl h

theorem mem_unregister (k : Connections) (device other : String) (conn x : Uuid) :
    x ∈ (k.unregister device conn).1.of other ↔
      x ∈ k.of other ∧ ¬ (other = device ∧ x = conn) := by
  rw [of_unregister]
  split
  · rename_i ho
    rw [ho, List.mem_filter]
    simp
  · rename_i ho
    simp [ho]

end Connections

/-- A session past its handshake, or a sender. -/
def Task.Lasting : Task → Prop
  | .session _ _ (.starting _) => True
  | .session _ _ (.receiving _ _) => True
  | .session _ _ (.draining _ _ _) => True
  | .sender _ _ _ _ _ => True
  | _ => False

namespace Cluster

/-- The next message on a socket proves the secret of a device to who issued the challenge for its
key. -/
def Proves (c : Cluster) (s : Nat) (claimed : DeviceRecord) (issued : String)
    (device : DeviceRecord) : Prop :=
  ∃ socket raw rest mac, c.sockets.get? s = some socket ∧ socket.inbound = .text raw :: rest ∧
    ControlMessage.parse? raw = some (.handshake mac) ∧
    c.directory.get claimed.deviceId = .ok (some device) ∧
    device.keyVersion = claimed.keyVersion ∧ device.apiKey = claimed.apiKey ∧
    mac = Hmac.hex device.sharedSecret (device.apiKey ++ issued).toUTF8

/-- The next identifier is drawn. -/
def Draws (c c' : Cluster) (id : Uuid) : Prop := id = c.supply.idOf c.drawn ∧ c.drawn < c'.drawn

/-- What the turn of a task makes of the sessions and senders. -/
inductive Becomes (c c' : Cluster) (t : TaskId) : TaskId → Task → Prop
  | admitted {p s claimed issued deadline device}
      (task : c.tasks.get? t =
        some (.session p s (.handshaking (.awaitingHandshake claimed issued) deadline)))
      (proves : Proves c s claimed issued device) :
      Becomes c c' t t (.session p s (.starting device))
  | started {p s device session deadline}
      (task : c.tasks.get? t = some (.session p s (.starting device)))
      (home : c.processes.has p = true ∧ c.sockets.has s = true)
      (same : session.device = device) (draws : Draws c c' session.conn)
      (last : session.sender + 1 = c'.nextTask) :
      Becomes c c' t t (.session p s (.receiving session deadline))
  | joined {p s device conn u}
      (task : c.tasks.get? t = some (.session p s (.starting device)))
      (draws : Draws c c' conn) (last : u + 1 = c'.nextTask) :
      Becomes c c' t u (.sender p s device conn .idle)
  | received {p s session nonces deadline deadline'}
      (task : c.tasks.get? t = some (.session p s (.receiving session deadline))) :
      Becomes c c' t t (.session p s (.receiving { session with nonces := nonces } deadline'))
  | drained {p s session reason deadline deadline'}
      (task : c.tasks.get? t = some (.session p s (.receiving session deadline))) :
      Becomes c c' t t (.session p s (.draining session reason deadline'))
  | took {p s device conn item rest}
      (task : c.tasks.get? t = some (.sender p s device conn .idle)) (going : conn ∉ c.stopping)
      (pops : ((c.engine p).popLive device.deviceId).2 = some item) :
      Becomes c c' t t (.sender p s device conn (.sending item rest))
  | sent {p s device conn item rest rest'}
      (task : c.tasks.get? t = some (.sender p s device conn (.sending item rest))) :
      Becomes c c' t t (.sender p s device conn (.sending item rest'))
  | served {p s device conn item}
      (task : c.tasks.get? t = some (.sender p s device conn (.sending item []))) :
      Becomes c c' t t (.sender p s device conn .idle)

/-- The connection that the turn of a task registers. -/
def Joins (c c' : Cluster) (t : TaskId) (p : Nat) (device : String) (conn : Uuid) : Prop :=
  ∃ s record, c.tasks.get? t = some (.session p s (.starting record)) ∧
    record.deviceId = device ∧ Draws c c' conn

/-- Processes are numbered from zero. -/
def Numbered (processes : Table Nat Process) : Prop :=
  ∀ p, processes.has p = true → p < processes.length

/-- No process disappears, and new ones are numbered after the others. -/
structure Grows (before after : Table Nat Process) : Prop where
  kept : ∀ p, before.has p = true → after.has p = true
  numbered : Numbered before → Numbered after

theorem Grows.refl (processes : Table Nat Process) : Grows processes processes := ⟨fun _ => id, id⟩

theorem Grows.trans {a b c : Table Nat Process} (h : Grows a b) (h' : Grows b c) : Grows a c :=
  ⟨fun p hp => h'.kept p (h.kept p hp), fun hn => h'.numbered (h.numbered hn)⟩

theorem Grows.of_keys {before after : Table Nat Process} (h : after.keys = before.keys) :
    Grows before after :=
  ⟨fun p hp => (Table.has_of_keys h p).trans hp, fun hn => Table.lt_length_of_keys h hn⟩

theorem grows_put (processes : Table Nat Process) (x : Process) :
    Grows processes (processes.put processes.length x) := by
  refine ⟨fun p hp => ?_, fun hn => Table.lt_length_put hn x⟩
  rw [Table.has, Table.get?_put]
  split
  · rfl
  · exact hp

/-- From one state to the other no process or socket disappears, and sessions, senders and
registered connections are as before, up to some exceptions. -/
structure Follows (c c' : Cluster) (new : TaskId → Task → Prop)
    (joins : Nat → String → Uuid → Prop) : Prop where
  supply : c'.supply = c.supply
  drawn : c.drawn ≤ c'.drawn
  processes : Grows c.processes c'.processes
  sockets : ∀ s, c.sockets.has s = true → c'.sockets.has s = true
  connections : ∀ p device conn, conn ∈ (c'.connectionsOf p).of device →
    conn ∈ (c.connectionsOf p).of device ∨ joins p device conn
  tasks : ∀ u w, c'.tasks.get? u = some w → w.Lasting → c.tasks.get? u = some w ∨ new u w

/-- There are no exceptions. -/
abbrev Keeps (c c' : Cluster) : Prop := Follows c c' (fun _ _ => False) fun _ _ _ => False

section Follows
variable {c c₁ c₂ : Cluster} {new new' : TaskId → Task → Prop} {joins : Nat → String → Uuid → Prop}

theorem Still.keeps (h : Still c c₁) : Keeps c c₁ where
  supply := h.supply
  drawn := Nat.le_of_eq h.drawn.symm
  processes := .of_keys h.processes
  sockets s hs := by rwa [← Table.mem_keys_iff, h.sockets, Table.mem_keys_iff]
  connections p device conn hc := Or.inl (by rwa [h.connections] at hc)
  tasks u w hw _ := Or.inl (by rwa [h.tasks] at hw)

theorem Follows.still (h : Follows c c₁ new joins) (h' : Still c₁ c₂) :
    Follows c c₂ new joins where
  supply := h'.supply.trans h.supply
  drawn := Nat.le_trans h.drawn (Nat.le_of_eq h'.drawn.symm)
  processes := h.processes.trans (.of_keys h'.processes)
  sockets s hs := h'.keeps.sockets s (h.sockets s hs)
  connections p device conn hc := h.connections p device conn (by rwa [h'.connections] at hc)
  tasks u w hw := h.tasks u w (by rwa [h'.tasks] at hw)

theorem Follows.keeps (h : Follows c c₁ new joins) (h' : Keeps c₁ c₂) :
    Follows c c₂ new joins where
  supply := h'.supply.trans h.supply
  drawn := Nat.le_trans h.drawn h'.drawn
  processes := h.processes.trans h'.processes
  sockets s hs := h'.sockets s (h.sockets s hs)
  connections p device conn hc :=
    h.connections p device conn ((h'.connections p device conn hc).resolve_right id)
  tasks u w hw hl := h.tasks u w ((h'.tasks u w hw hl).resolve_right id) hl

theorem Follows.mono (h : Follows c c₁ new joins) {joins' : Nat → String → Uuid → Prop}
    (hn : ∀ u w, w.Lasting → c₁.tasks.get? u = some w → new u w → new' u w)
    (hj : ∀ p device conn, joins p device conn → joins' p device conn) :
    Follows c c₁ new' joins' where
  supply := h.supply
  drawn := h.drawn
  processes := h.processes
  sockets := h.sockets
  connections p device conn hc := (h.connections p device conn hc).imp_right (hj p device conn)
  tasks u w hw hl := (h.tasks u w hw hl).imp_right (hn u w hl hw)

theorem Keeps.follows (h : Keeps c c₁) : Follows c c₁ new joins :=
  h.mono (fun _ _ _ _ hn => hn.elim) fun _ _ _ hj => hj.elim

theorem Follows.setTask (h : Follows c c₁ new joins) {t : TaskId} {task : Task}
    (hn : task.Lasting → new t task) : Follows c (c₁.setTask t task) new joins where
  supply := h.supply
  drawn := h.drawn
  processes := h.processes
  sockets := h.sockets
  connections := h.connections
  tasks u w hw hl := by
    simp only [Cluster.setTask, Table.get?_put] at hw
    split at hw
    · rename_i hu
      cases hw
      exact Or.inr (hu ▸ hn hl)
    · exact h.tasks u w hw hl

theorem Follows.enter (h : Follows c c₁ new joins) {t : TaskId} {p s : Nat} {phase : SessionPhase}
    (hn : (Task.session p s phase).Lasting → new t (.session p s phase)) :
    Follows c (c₁.enter t p s phase).1 new joins := by
  have hwait : Follows c (c₁.unwait t) new joins := h.still (.of_same ⟨rfl, rfl, rfl, rfl, rfl⟩)
  exact hwait.setTask hn

theorem Follows.spawn (h : Follows c c₁ new joins) {task : Task}
    (hn : task.Lasting → new c₁.nextTask task) : Follows c (c₁.spawn task).1 new joins :=
  Follows.still (h.setTask hn) (.of_same ⟨rfl, rfl, rfl, rfl, rfl⟩)

theorem keeps_remove (c : Cluster) (t : TaskId) : Keeps c (c.remove t) where
  supply := rfl
  drawn := Nat.le_refl _
  processes := .refl _
  sockets _ hs := hs
  connections _ _ _ hc := Or.inl hc
  tasks u w hw _ := by
    simp only [Cluster.remove, clearTimer, Table.get?_erase] at hw
    split at hw
    · cases hw
    · exact Or.inl hw

theorem keeps_finish (c : Cluster) (t : TaskId) : Keeps c (c.finish t) :=
  (keeps_remove c t).still (still_notify _ _)

theorem keeps_freshId (c : Cluster) : Keeps c c.freshId.1 where
  supply := rfl
  drawn := Nat.le_succ _
  processes := .refl _
  sockets _ hs := hs
  connections _ _ _ hc := Or.inl hc
  tasks _ _ hw _ := Or.inl hw

theorem keeps_useChallenge (c : Cluster) : Keeps c c.useChallenge where
  supply := rfl
  drawn := Nat.le_succ _
  processes := .refl _
  sockets _ hs := hs
  connections _ _ _ hc := Or.inl hc
  tasks _ _ hw _ := Or.inl hw

end Follows

theorem keeps_of_eq {α : Type} {c c' : Cluster} {x : Cluster × α} {a : α} (h : x = (c', a))
    (hx : Keeps c x.1) : Keeps c c' := by
  rw [h] at hx
  exact hx

theorem connectionsOf_setConnections (c : Cluster) (p q : Nat) (changed : Connections × Bool) :
    (c.setConnections p changed).1.connectionsOf q =
      if q = p ∧ c.processes.has q = true then changed.1 else c.connectionsOf q := by
  simp only [connectionsOf, setConnections, updateProcess, Table.get?_modify, Table.has]
  by_cases hq : q = p
  · simp only [hq, if_true, true_and]
    cases c.processes.get? p <;> rfl
  · simp only [hq, false_and, if_false]

section Dispatch
variable (c : Cluster) (p : Nat)

theorem keeps_enqueue (device : String) (command : Command) (blob : Option ByteArray)
    (timeout : Nat) : Keeps c (c.enqueue p device command blob timeout).1 := by
  have hspawn : Keeps c (c.freshId.1.spawn (.expiry p c.freshId.2 (c.now + timeout))).1 :=
    (keeps_freshId c).spawn id
  exact (hspawn.still (still_setEngine _ p _)).still (still_notify _ _)

theorem keeps_handleJob (device raw : String) : Keeps c (c.handleJob p device raw) := by
  unfold handleJob
  split
  · exact (Still.refl c).keeps
  · exact (still_pushReply c _ _).keeps
  · exact (keeps_enqueue c p device _ _ _).spawn id

theorem keeps_sync (device : String) : Keeps c (c.sync p device).1 := by
  unfold sync
  split
  · exact (Still.refl c).keeps
  · dsimp only
    split
    · exact Follows.still ((Still.refl c).keeps.spawn id) (still_updateProcess _ p _ fun _ => rfl)
    · exact (keeps_remove c _).still (still_updateProcess _ p _ fun _ => rfl)
    · exact (Still.refl c).keeps

/-- A connection is registered, and nothing else changes. -/
theorem follows_register (device : String) (conn : Uuid) :
    Follows c (c.register p device conn).1 (fun _ _ => False)
      fun q other x => q = p ∧ other = device ∧ x = conn where
  supply := rfl
  drawn := Nat.le_refl _
  processes := .of_keys (keys_updateProcess c p _)
  sockets _ hs := hs
  connections q other x hx := by
    rw [register, connectionsOf_setConnections] at hx
    split at hx
    · rename_i hq
      rw [hq.1]
      exact (Connections.mem_register hx).imp_right fun h => ⟨rfl, h⟩
    · exact Or.inl hx
  tasks _ _ hw _ := Or.inl hw

theorem keeps_unregister (device : String) (conn : Uuid) :
    Keeps c (c.unregister p device conn).1 where
  supply := rfl
  drawn := Nat.le_refl _
  processes := .of_keys (keys_updateProcess c p _)
  sockets _ hs := hs
  connections q other x hx := by
    rw [unregister, connectionsOf_setConnections] at hx
    split at hx
    · rename_i hq
      rw [hq.1]
      exact Or.inl ((Connections.mem_unregister ..).mp hx).1
    · exact Or.inl hx
  tasks _ _ hw _ := Or.inl hw

theorem keeps_leave (device : String) (conn : Uuid) : Keeps c (c.leave p device conn) :=
  (keeps_unregister c p device conn).keeps (keeps_sync _ p device)

/-- A connection that leaves is no longer registered. -/
theorem not_mem_leave (hp : c.processes.has p = true) (device : String) (conn : Uuid) :
    conn ∉ ((c.leave p device conn).connectionsOf p).of device := by
  intro h
  have hun := ((keeps_sync (c.unregister p device conn).1 p device).connections p device conn
    h).resolve_right id
  rw [unregister, connectionsOf_setConnections, if_pos ⟨rfl, hp⟩] at hun
  exact ((Connections.mem_unregister ..).mp hun).2 ⟨rfl, rfl⟩

end Dispatch

section Turns
variable (c : Cluster) (t : TaskId) (p : Nat)

theorem keeps_expiryTurn (id : Uuid) (deadline : Nat) :
    Keeps c (c.expiryTurn t p id deadline).1 := by
  unfold expiryTurn
  split
  · exact (still_decide c p id _).keeps
  · exact Still.keeps (.of_same ⟨rfl, rfl, rfl, rfl, rfl⟩)

theorem keeps_consumerTurn (device : String) : Keeps c (c.consumerTurn t p device).1 := by
  have hpop := still_popLive c p device
  unfold consumerTurn
  split <;> rename_i h
  · exact Still.keeps ((still_of_eq h hpop).trans (.of_same ⟨rfl, rfl, rfl, rfl, rfl⟩))
  · exact ((still_of_eq h hpop).trans (still_park _ t _)).keeps

theorem keeps_popperTurn (key : String) (deadline : Nat) :
    Keeps c (c.popperTurn t key deadline).1 := by
  have hpop := still_awaitPop c t key deadline
  unfold popperTurn
  split <;> rename_i h
  · exact Still.keeps ((still_of_eq h hpop).trans (.of_same ⟨rfl, rfl, rfl, rfl, rfl⟩))
  · exact (still_of_eq h hpop).keeps

theorem keeps_callerTurn (id : Uuid) : Keeps c (c.callerTurn t p id).1 := by
  have hwait := still_awaitOutcome c p t id
  unfold callerTurn
  split <;> rename_i h
  · exact Still.keeps ((still_of_eq h hwait).trans (.of_same ⟨rfl, rfl, rfl, rfl, rfl⟩))
  · exact (still_of_eq h hwait).keeps

theorem keeps_replierTurn (id job : Uuid) : Keeps c (c.replierTurn t p id job).1 := by
  have hwait := still_awaitOutcome c p t id
  unfold replierTurn
  split <;> rename_i h
  · exact ((still_of_eq h hwait).trans (still_pushReply _ job _)).keeps
  · exact (still_of_eq h hwait).keeps

theorem keeps_submit (device : String) (command : Command) (blob : Option ByteArray)
    (timeout : Nat) : Keeps c (c.submit p device command blob timeout).1 := by
  have hpush := fun value => (keeps_freshId c).still
    (still_push c.freshId.1 (BridgeJob.listKey device) value)
  unfold submit
  dsimp only
  split <;> rename_i h
  · exact (keeps_of_eq h (hpush _)).still (still_release _ p device)
  · split
    · exact (keeps_of_eq h (hpush _)).still (still_release _ p device)
    · exact keeps_of_eq h (hpush _)

theorem keeps_carry (bridged : Bool) (program : Program (Outcome RemoteAnswer)) :
    Keeps c (c.carry t p bridged program).1 := by
  induction program generalizing c with
  | finish answer => exact Still.keeps (.of_same ⟨rfl, rfl, rfl, rfl, rfl⟩)
  | countAlive device next ih =>
    have hcount : Keeps c (c.countAlive device).1 :=
      Still.keeps (.of_same ⟨rfl, rfl, rfl, rfl, rfl⟩)
    exact hcount.keeps (ih _ (c.countAlive device).1)
  | log entry next ih =>
    have hwrite : Keeps c (c.write [entry]) := Still.keeps (.of_same ⟨rfl, rfl, rfl, rfl, rfl⟩)
    exact hwrite.keeps (ih (c.write [entry]))
  | ssh run next ih => exact ih _ c
  | relay a b next ih => exact ih _ c
  | send device command blob timeout next ih =>
    unfold carry
    split
    · exact (keeps_enqueue c p device command blob timeout).setTask id
    · exact (still_acquire c p t device).keeps.setTask id

theorem keeps_callTurn (bridged : Bool) (phase : CallPhase) :
    Keeps c (c.callTurn t p bridged phase).1 := by
  unfold callTurn
  split
  · exact keeps_carry c t p bridged _
  · rename_i id next
    have hwait := (still_awaitOutcome c p t id).keeps
    split <;> rename_i h
    · exact (keeps_of_eq h hwait).keeps (keeps_carry _ t p bridged _)
    · exact keeps_of_eq h hwait
  · rename_i device command blob timeout next
    have hsubmit := keeps_submit c p device command blob timeout
    split
    · split <;> rename_i h
      · exact (keeps_of_eq h hsubmit).keeps (keeps_carry _ t p bridged _)
      · exact (keeps_of_eq h hsubmit).setTask id
    · exact (Still.refl c).keeps
  · rename_i job device command timeout deadline next
    have hpop := still_awaitPop c t (BridgeJob.replyKey job) deadline
    split <;> rename_i h
    · exact (still_of_eq h hpop).keeps
    · exact ((still_of_eq h hpop).trans (still_release _ p device)).keeps.keeps
        (keeps_carry _ t p bridged _)

theorem keeps_workerTurn (device : String) (phase : WorkerPhase) :
    Keeps c (c.workerTurn t p device phase).1 := by
  unfold workerTurn
  split
  · exact (Still.refl c).keeps.setTask id
  · rename_i deadline
    have hpop := still_awaitPop c t (BridgeJob.listKey device) deadline
    split <;> rename_i h
    · exact (still_of_eq h hpop).keeps
    · rename_i c' raw
      have hc := (still_of_eq h hpop).keeps
      refine Follows.setTask ?_ id
      cases raw with
      | some raw => exact hc.keeps (keeps_handleJob c' p device raw)
      | none => exact hc
    · exact (still_of_eq h hpop).keeps.setTask id
  · split
    · exact (Still.refl c).keeps.setTask id
    · exact Still.keeps (.of_same ⟨rfl, rfl, rfl, rfl, rfl⟩)

theorem keeps_heartbeatTurn (conn : Uuid) (interval due : Nat) :
    Keeps c (c.heartbeatTurn t p conn interval due).1 := by
  unfold heartbeatTurn
  split
  · exact (Still.refl c).keeps
  · split
    · exact (still_refresh c p conn).keeps.setTask id
    · exact Still.keeps (.of_same ⟨rfl, rfl, rfl, rfl, rfl⟩)

end Turns

section Senders
variable (c c' : Cluster) {t : TaskId} {p s : Nat} {device : DeviceRecord} {conn : Uuid}

theorem follows_idleTurn (h : c.tasks.get? t = some (.sender p s device conn .idle)) :
    Follows c (c.idleTurn t p s device conn).1 (Becomes c c' t) (Joins c c' t) := by
  have hpop := still_popLive c p device.deviceId
  have hitem : (c.popLive p device.deviceId).2 = ((c.engine p).popLive device.deviceId).2 := rfl
  unfold idleTurn
  split
  · exact (Still.refl c).keeps.follows
  · rename_i hgoing
    split <;> rename_i c₁ _ hp
    · have hparked := ((still_of_eq hp hpop).trans
        (still_park _ t (.queued p device.deviceId))).trans (still_park _ t (.stopped conn))
      exact hparked.keeps.follows
    · rename_i item
      rw [hp] at hitem
      have hmarked := (still_of_eq hp hpop).trans
        (still_setEngine c₁ p ((c₁.engine p).markSent item.id conn).1)
      dsimp only
      split
      · unfold dispatch
        refine Follows.setTask ?_ fun _ => .took h hgoing hitem.symm
        split
        · exact Keeps.follows (Still.keeps
            (hmarked.trans (.of_same ⟨rfl, rfl, rfl, rfl, rfl⟩)))
        · exact hmarked.keeps.follows
      · exact hmarked.keeps.follows

theorem follows_sendingTurn {item : QueuedCommand} {frames : List Frame}
    (h : c.tasks.get? t = some (.sender p s device conn (.sending item frames))) :
    Follows c (c.sendingTurn t p s device conn item frames).1 (Becomes c c' t) (Joins c c' t) := by
  cases frames with
  | nil => exact (Still.refl c).keeps.follows.setTask fun _ => .served h
  | cons f rest =>
    have hsend := still_transmit c s f
    simp only [sendingTurn]
    split
    · exact (still_park c t _).keeps.follows
    · split <;> rename_i c₁ hs
      · exact (still_of_eq hs hsend).keeps.follows.setTask fun _ => .sent h
      · have hcancelled : Still c₁ (c₁.setBodies conn ((c₁.bodiesOf conn).cancel item.id)) :=
          .of_same ⟨rfl, rfl, rfl, rfl, rfl⟩
        exact (((still_of_eq hs hsend).trans hcancelled).trans
          (still_requeueFront _ p item)).keeps.follows

theorem follows_senderTurn {phase : SenderPhase}
    (h : c.tasks.get? t = some (.sender p s device conn phase)) :
    Follows c (c.senderTurn t p s device conn phase).1 (Becomes c c' t) (Joins c c' t) := by
  cases phase with
  | idle => exact follows_idleTurn c c' h
  | sending item frames => exact follows_sendingTurn c c' h

end Senders

section Sessions
variable (c c' : Cluster) (t : TaskId) (p s : Nat)

theorem keeps_openingTurn (settings : ServerSettings) (address : Address) :
    Keeps c (c.openingTurn t p s settings address).1 := by
  have hcounted := still_updateProcess c p (fun q => { q with sockets := q.sockets + 1 })
    fun _ => rfl
  unfold openingTurn
  dsimp only
  split
  · exact hcounted.keeps
  · split
    · exact hcounted.keeps.enter id
    · rename_i q _ _
      have hlimited := hcounted.trans (still_updateProcess _ p
        (fun q' => { q' with limiter := (q.limiter.allows address c.now).1 }) fun _ => rfl)
      split <;> exact hlimited.keeps.enter id

theorem keeps_refuseTurn (address : Address) (e : ChannelError) :
    Keeps c (c.refuseTurn t p s address e).1 := by
  unfold refuseTurn
  split
  · exact (still_hangUp c p s none).keeps
  · exact (still_updateProcess c p _ (by intro q; rfl)).keeps.enter id

/-- A handshake goes on without a device, or the proof of the one that is accepted was next. -/
theorem follows_handshakeTurn (settings : ServerSettings) (address : Address)
    {state : HandshakeState} {deadline : Nat}
    (ht : c.tasks.get? t = some (.session p s (.handshaking state deadline))) :
    Follows c (c.handshakeTurn t p s settings address state deadline).1 (Becomes c c' t)
      (Joins c c' t) := by
  have hnext := still_nextIncoming c s
  unfold handshakeTurn
  split <;> rename_i h
  · have hc := still_of_eq h hnext
    split
    · exact Keeps.follows (hc.keeps.keeps (keeps_refuseTurn _ t p s address _))
    · exact (hc.trans (still_awaitArrival _ t s deadline)).keeps.follows
  · have hc := still_of_eq h hnext
    split <;> rename_i hsend
    · exact (hc.trans (still_of_eq hsend (still_transmit _ s _))).keeps.follows
    · exact ((hc.trans (still_of_eq hsend (still_transmit _ s _))).trans
        (still_hangUp _ p s none)).keeps.follows
  · have hc := still_of_eq h hnext
    split <;> rename_i hstep
    · exact hc.keeps.follows
    · exact Keeps.follows (hc.keeps.keeps (keeps_refuseTurn _ t p s address _))
    · have hused := hc.keeps.keeps (keeps_useChallenge _)
      split <;> rename_i hsend
      · exact Follows.enter (Keeps.follows
          (hused.still (still_of_eq hsend (still_transmit _ s _)))) False.elim
      · exact Keeps.follows ((hused.still (still_of_eq hsend (still_transmit _ s _))).still
          (still_hangUp _ p s none))
    · split <;> rename_i hsend
      · obtain ⟨socket, rest, hsocket, hinbound, he⟩ := nextIncoming_eq h
        obtain ⟨raw, claimed, issued, mac, rfl, rfl, hp, hg, hv, hk, hm⟩ :=
          Handshake.onIncoming_accepted hstep
        rw [he] at hg
        exact (hc.trans (still_of_eq hsend (still_transmit _ s _))).keeps.follows.enter fun _ =>
          .admitted ht ⟨socket, raw, rest, mac, hsocket, hinbound, hp, hg, hv, hk, hm⟩
      · exact ((hc.trans (still_of_eq hsend (still_transmit _ s _))).trans
          (still_hangUp _ p s none)).keeps.follows

/-- A session starts with a connection of its own and a sender, unless the connection cannot be
recorded; then the registration is taken back. -/
theorem startingTurn_cases (settings : ServerSettings) (device : DeviceRecord)
    (hp : c.processes.has p = true) :
    Keeps c (c.startingTurn t p s settings device).1 ∨
    ∃ c₁ interval due session deadline, session.device = device ∧
      session.conn = c.supply.idOf c.drawn ∧ c.drawn < c₁.drawn ∧
      session.sender = c₁.nextTask + 1 ∧
      Follows c c₁ (fun _ _ => False)
        (fun q other x => q = p ∧ other = device.deviceId ∧ x = session.conn) ∧
      c.startingTurn t p s settings device =
        ((c₁.spawn (.heartbeat p session.conn interval due)).1.spawn
          (.sender p s device session.conn .idle)).1.enter t p s
            (.receiving session deadline) := by
  let conn := c.supply.idOf c.drawn
  let c₁ := (c.freshId.1.register p device.deviceId conn).1
  let c₂ := (c₁.sync p device.deviceId).1
  have hregister := follows_register c.freshId.1 p device.deviceId conn
  have hmark := still_markAlive c₂ p device.deviceId conn
  have hbefore : Follows c c₂ (fun _ _ => False)
      fun q other x => q = p ∧ other = device.deviceId ∧ x = conn := by
    refine Follows.keeps ?_ (keeps_sync c₁ p device.deviceId)
    exact ⟨hregister.supply, Nat.le_of_succ_le hregister.drawn, hregister.processes,
      hregister.sockets, hregister.connections, hregister.tasks⟩
  have hdrawn : c.drawn < c₂.drawn := (keeps_sync c₁ p device.deviceId).drawn
  unfold startingTurn
  dsimp only
  split
  · rename_i c₃ e hr
    left
    have hc := (hbefore.still (still_of_eq hr hmark)).still
      (still_hangUp c₃ p s (some .presenceUnavailable))
    have hleft := hc.keeps
      (keeps_leave (c₃.hangUp p s (some .presenceUnavailable)).1 p device.deviceId conn)
    refine ⟨hleft.supply, hleft.drawn, hleft.processes, hleft.sockets, ?_, hleft.tasks⟩
    intro q other x hx
    rcases hleft.connections q other x hx with hold | ⟨rfl, rfl, rfl⟩
    · exact Or.inl hold
    · refine absurd hx (not_mem_leave _ q ?_ device.deviceId conn)
      exact hc.processes.kept q hp
  · rename_i c₃ hr
    have hstill := still_of_eq hr hmark
    let session : SessionState :=
      ⟨device, conn, { policy := settings.noncePolicy }, c₃.nextTask + 1, c₃.nextTask⟩
    exact Or.inr ⟨c₃, settings.presenceRefresh, c₃.now + settings.presenceRefresh, session,
      c₃.now + settings.idleTimeout, rfl, rfl, hstill.drawn ▸ hdrawn, rfl, hbefore.still hstill,
      rfl⟩

theorem follows_startingTurn (settings : ServerSettings) {device : DeviceRecord}
    (ht : c.tasks.get? t = some (.session p s (.starting device)))
    (hp : c.processes.has p = true) (hs : c.sockets.has s = true) :
    Follows c (c.startingTurn t p s settings device).1
      (Becomes c (c.startingTurn t p s settings device).1 t)
      (Joins c (c.startingTurn t p s settings device).1 t) := by
  rcases startingTurn_cases c t p s settings device hp with
    hkept | ⟨c₁, interval, due, session, deadline, hdevice, hconn, hdrawn, hsender, hc, he⟩
  · exact hkept.follows
  · rw [he]
    let beats := (c₁.spawn (.heartbeat p session.conn interval due)).1
    let final := (beats.spawn (.sender p s device session.conn .idle)).1
    let new : TaskId → Task → Prop := fun u w =>
      (u = beats.nextTask ∧ w = .sender p s device session.conn .idle) ∨
        (u = t ∧ w = .session p s (.receiving session deadline))
    have hplain : Follows c c₁ new _ := hc.mono (fun _ _ _ _ hn => hn.elim) fun _ _ _ hj => hj
    have hbeats : Follows c beats new _ := hplain.spawn False.elim
    have hfinal : Follows c final new _ := hbeats.spawn fun _ => Or.inl ⟨rfl, rfl⟩
    have hentered : Follows c (final.enter t p s (.receiving session deadline)).1 new _ :=
      hfinal.enter fun _ => Or.inr ⟨rfl, rfl⟩
    have hdrawn' : c.drawn < (final.enter t p s (.receiving session deadline)).1.drawn := hdrawn
    have hlast : beats.nextTask + 1 =
        (final.enter t p s (.receiving session deadline)).1.nextTask := rfl
    refine hentered.mono ?_ ?_
    · rintro u w - - (⟨rfl, rfl⟩ | ⟨rfl, rfl⟩)
      · exact .joined ht ⟨hconn, hdrawn'⟩ hlast
      · exact .started ht ⟨hp, hs⟩ hdevice ⟨hconn, hdrawn'⟩ (congrArg (· + 1) hsender)
    · rintro q other x ⟨rfl, rfl, rfl⟩
      exact ⟨s, device, ht, rfl, hconn, hdrawn'⟩

theorem follows_drain {session : SessionState} {deadline : Nat} {reason : Option CloseReason}
    {c₁ : Cluster} (ht : c.tasks.get? t = some (.session p s (.receiving session deadline)))
    (h : Still c c₁) :
    Follows c (c₁.drain t p s session reason).1 (Becomes c c' t) (Joins c c' t) := by
  let told : Cluster := { c₁ with stopping := c₁.stopping ++ [session.conn] }
  have htold : Still c told := h.trans (.of_same ⟨rfl, rfl, rfl, rfl, rfl⟩)
  exact (htold.trans (still_notify told (.stopped session.conn))).keeps.follows.enter fun _ =>
    .drained ht

theorem follows_receivingTurn (settings : ServerSettings) {session : SessionState} {deadline : Nat}
    (ht : c.tasks.get? t = some (.session p s (.receiving session deadline))) :
    Follows c (c.receivingTurn t p s settings session deadline).1 (Becomes c c' t)
      (Joins c c' t) := by
  have hnext := still_nextIncoming c s
  unfold receivingTurn
  dsimp only
  split <;> rename_i h
  · have hc := still_of_eq h hnext
    split
    · exact follows_drain c c' t p s ht hc
    · exact (hc.trans (still_awaitArrival _ t s deadline)).keeps.follows
  · have hc := still_of_eq h hnext
    split <;> rename_i hsend
    · exact (hc.trans (still_of_eq hsend (still_transmit _ s _))).keeps.follows
    · exact follows_drain c c' t p s ht (hc.trans (still_of_eq hsend (still_transmit _ s _)))
  · exact (still_of_eq h hnext).keeps.follows
  · exact follows_drain c c' t p s ht (still_of_eq h hnext)
  · exact follows_drain c c' t p s ht (still_of_eq h hnext)
  · rename_i c₁ data
    have hc : Still c (c₁.takeBinary p session.conn data) :=
      (still_of_eq h hnext).trans (.of_same ⟨rfl, rfl, rfl, rfl, rfl⟩)
    exact hc.keeps.follows.enter fun _ => .received ht
  · have hc := still_of_eq h hnext
    split <;> rename_i htext
    · exact (hc.trans (still_of_eq htext (still_takeText _ p session _))).keeps.follows.enter
        fun _ => .received ht
    · exact follows_drain c c' t p s ht
        (hc.trans (still_of_eq htext (still_takeText _ p session _)))

theorem keeps_cleanUp (session : SessionState) (reason : Option CloseReason) :
    Keeps c (c.cleanUp p s session reason).1 := by
  have hfailed := (still_hangUp c p s reason).trans (still_failConnection _ p session.conn)
  unfold cleanUp
  dsimp only
  refine Follows.keeps ?_ (keeps_leave _ p session.device.deviceId session.conn)
  refine Still.keeps (Still.trans ?_ (still_dropPresence _ p session.conn))
  exact hfailed.trans (.of_same ⟨rfl, rfl, rfl, rfl, rfl⟩)

theorem keeps_drainingTurn (session : SessionState) (reason : Option CloseReason)
    (deadline : Nat) : Keeps c (c.drainingTurn t p s session reason deadline).1 := by
  have hstopped := (keeps_remove c session.sender).keeps (keeps_remove _ session.heartbeat)
  unfold drainingTurn
  dsimp only
  split
  · refine Still.keeps ((still_park c t (.ended session.sender)).trans ?_)
    exact .of_same ⟨rfl, rfl, rfl, rfl, rfl⟩
  · split
    · exact hstopped.still (still_park _ t _)
    · exact hstopped.keeps (keeps_cleanUp _ p s session reason)

theorem follows_sessionTurn {phase : SessionPhase}
    (ht : c.tasks.get? t = some (.session p s phase)) :
    Follows c (c.sessionTurn t p s phase).1 (Becomes c (c.sessionTurn t p s phase).1 t)
      (Joins c (c.sessionTurn t p s phase).1 t) := by
  cases hset : c.settingsOf? p with
  | none =>
    simp only [sessionTurn, hset]
    exact (Still.refl c).keeps.follows
  | some settings =>
    cases hsocket : c.sockets.get? s with
    | none =>
      simp only [sessionTurn, hset, hsocket]
      exact (Still.refl c).keeps.follows
    | some socket =>
      have hp : c.processes.has p = true := by
        cases hq : c.processes.get? p with
        | none => simp [settingsOf?, hq] at hset
        | some q => simp [Table.has, hq]
      have hs : c.sockets.has s = true := by simp [Table.has, hsocket]
      simp only [sessionTurn, hset, hsocket]
      cases phase with
      | opening => exact (keeps_openingTurn c t p s settings _).follows
      | refusing reason => exact (still_refusingTurn c p t s reason).keeps.follows
      | handshaking state deadline => exact follows_handshakeTurn c _ t p s settings _ ht
      | starting device => exact follows_startingTurn c t p s settings ht hp hs
      | receiving session deadline => exact follows_receivingTurn c _ t p s settings ht
      | draining session reason deadline =>
        exact (keeps_drainingTurn c t p s session reason deadline).follows

end Sessions

/-- One turn, on sessions and senders. -/
theorem turn_follows (c : Cluster) (t : TaskId) :
    Follows c (turn c t).1 (Becomes c (turn c t).1 t) (Joins c (turn c t).1 t) := by
  cases ht : c.tasks.get? t with
  | none =>
    simp only [turn, ht]
    exact (Still.refl c).keeps.follows
  | some task =>
    simp only [turn, ht]
    cases task with
    | expiry p id deadline => exact (keeps_expiryTurn c t p id deadline).follows
    | consumer p device => exact (keeps_consumerTurn c t p device).follows
    | popper key deadline => exact (keeps_popperTurn c t key deadline).follows
    | caller p id => exact (keeps_callerTurn c t p id).follows
    | replier p id job => exact (keeps_replierTurn c t p id job).follows
    | call p bridged phase => exact (keeps_callTurn c t p bridged phase).follows
    | worker p device phase => exact (keeps_workerTurn c t p device phase).follows
    | sender p s device conn phase => exact follows_senderTurn c _ ht
    | heartbeat p conn interval due => exact (keeps_heartbeatTurn c t p conn interval due).follows
    | session p s phase => exact follows_sessionTurn c t p s ht

theorem Becomes.congr {c c₁ c' c₁' : Cluster} {t u : TaskId} {w : Task}
    (h : Becomes c c' t u w) (htasks : c₁.tasks = c.tasks) (hsupply : c₁.supply = c.supply)
    (hdrawn : c₁.drawn = c.drawn) (hprocesses : c₁.processes = c.processes)
    (hsockets : c₁.sockets = c.sockets) (hdirectory : c₁.directory = c.directory)
    (hstopping : c₁.stopping = c.stopping) (hdrawn' : c₁'.drawn = c'.drawn)
    (hnext : c₁'.nextTask = c'.nextTask) :
    Becomes c₁ c₁' t u w := by
  have hdraws : ∀ id, Draws c c' id → Draws c₁ c₁' id := fun id hd => by
    unfold Draws
    rwa [hsupply, hdrawn, hdrawn']
  cases h with
  | admitted task proves =>
    refine .admitted (by rwa [htasks]) ?_
    unfold Proves
    rwa [hsockets, hdirectory]
  | started task home same draws last =>
    exact .started (by rwa [htasks]) (by rwa [hprocesses, hsockets]) same (hdraws _ draws)
      (by rwa [hnext])
  | joined task draws last =>
    exact .joined (by rwa [htasks]) (hdraws _ draws) (by rwa [hnext])
  | received task => exact .received (by rwa [htasks])
  | drained task => exact .drained (by rwa [htasks])
  | took task going pops =>
    exact .took (by rwa [htasks]) (by rwa [hstopping]) (by rwa [engine_congr hprocesses])
  | sent task => exact .sent (by rwa [htasks])
  | served task => exact .served (by rwa [htasks])

/-- What one turn in the order of a history makes of sessions, senders and connections. -/
theorem give_follows (c : Cluster) (t : TaskId) :
    Follows c (c.give t) (Becomes c (c.give t) t) (Joins c (c.give t) t) := by
  by_cases hready : t ∈ c.ready
  · let c₀ := { c with ready := c.ready.erase t }
    have hturn : Follows c (turn c₀ t).1 (Becomes c₀ (turn c₀ t).1 t) (Joins c₀ (turn c₀ t).1 t) :=
      let h := turn_follows c₀ t
      ⟨h.supply, h.drawn, h.processes, h.sockets, h.connections, h.tasks⟩
    have hlast : (c.give t).drawn = (turn c₀ t).1.drawn ∧
        (c.give t).nextTask = (turn c₀ t).1.nextTask ∧ Keeps (turn c₀ t).1 (c.give t) := by
      unfold give
      rw [if_pos hready]
      split <;> rename_i hr <;> rw [hr]
      · exact ⟨rfl, rfl, Still.keeps (.of_same ⟨rfl, rfl, rfl, rfl, rfl⟩)⟩
      · exact ⟨rfl, rfl, (Still.refl _).keeps⟩
      · obtain ⟨woken, parked, he⟩ := finish_eq (turn c₀ t).1 t
        rw [hr] at he
        exact ⟨by rw [he]; rfl, by rw [he]; rfl, keeps_finish _ t⟩
    obtain ⟨hdrawn, hnext, hkeeps⟩ := hlast
    refine (hturn.keeps hkeeps).mono ?_ ?_
    · intro u w _ _ hb
      exact hb.congr rfl rfl rfl rfl rfl rfl rfl hdrawn hnext
    · rintro p device conn ⟨s, record, ht, hd, hid, hlt⟩
      exact ⟨s, record, ht, hd, hid, hdrawn ▸ hlt⟩
  · rw [give_of_not_mem hready]
    exact (Still.refl c).keeps.follows

theorem still_arrive (c : Cluster) (s : Nat) (m : Incoming) : Still c (c.arrive s m).1 := by
  unfold arrive
  split
  · exact Still.refl c
  · rename_i socket h
    exact (still_putSocket c s h _).trans (still_notify _ _)

theorem still_pass (c : Cluster) (ms : Nat) : Still c (c.pass ms) := by
  by_cases hr : c.ready = []
  · obtain ⟨now, woken, he, -⟩ := pass_eq hr ms
    rw [he]
    exact .of_same ⟨rfl, rfl, rfl, rfl, rfl⟩
  · rw [pass_of_ready hr]
    exact Still.refl c

theorem still_deafen (c : Cluster) (s : Nat) : Still c (c.deafen s) :=
  (still_updateSocket c s _).trans (still_notify _ _)

theorem keeps_connect (c : Cluster) (p : Nat) (address : Address) :
    Keeps c (c.connect p address).1 := by
  have hsocket : Keeps c { c with
      sockets := c.sockets.put c.sockets.length { process := p, address := address } } := by
    refine ⟨rfl, Nat.le_refl _, .refl _, ?_, fun _ _ _ hc => Or.inl hc, fun _ _ hw _ => Or.inl hw⟩
    intro s hs
    rw [Table.has, Table.get?_put]
    split
    · rfl
    · exact hs
  exact hsocket.spawn id

theorem keeps_addProcess (c : Cluster) (settings : ServerSettings) :
    Keeps c (c.addProcess settings) where
  supply := rfl
  drawn := Nat.le_refl _
  processes := grows_put c.processes _
  sockets _ hs := hs
  connections p device conn hc := by
    left
    simp only [connectionsOf, addProcess, Table.get?_put] at hc
    split at hc
    · cases hc
    · exact hc
  tasks _ _ hw _ := Or.inl hw

/-- What comes from outside concerns no session and no sender. -/
theorem happen_keeps (c : Cluster) {e : Event} (hturn : ∀ t, e ≠ .turn t) :
    Keeps c (happen c e) := by
  cases e with
  | turn t => exact absurd rfl (hturn t)
  | addProcess settings => exact keeps_addProcess c settings
  | pass ms => exact (still_pass c ms).keeps
  | connect p address => exact keeps_connect c p address
  | arrive s m => exact (still_arrive c s m).keeps
  | deafen s => exact (still_deafen c s).keeps
  | stall s => exact (still_updateSocket c s _).keeps
  | resume s => exact ((still_updateSocket c s _).trans (still_notify _ _)).keeps
  | vanish s => exact ((still_deafen c s).trans (still_arrive _ s _)).keeps
  | takeFrames s =>
    have h : Still c (c.takeFrames s).1 := by
      unfold takeFrames
      split
      · exact Still.refl c
      · exact still_updateSocket c s _
    exact h.keeps
  | call p device operation => exact (keeps_freshId c).spawn id
  | callBridged p device command blob timeout => exact (Still.refl c).keeps.spawn id
  | consume p device => exact (Still.refl c).keeps.spawn id
  | await p id => exact (Still.refl c).keeps.spawn False.elim
  | beat p conn interval => exact (Still.refl c).keeps.spawn id
  | pop key timeout =>
    have h : Keeps c (c.pop key timeout).1 := by
      unfold pop
      split
      · exact (Still.refl c).keeps.spawn id
      · exact Still.keeps (.of_same ⟨rfl, rfl, rfl, rfl, rfl⟩)
    exact h
  | popNow key =>
    have h : Keeps c (c.popNow key).1 := by
      unfold popNow
      split
      · exact Still.keeps (.of_same ⟨rfl, rfl, rfl, rfl, rfl⟩)
      · exact (Still.refl c).keeps
    exact h
  | setOutages down => exact Still.keeps (.of_same ⟨rfl, rfl, rfl, rfl, rfl⟩)
  | setDirectory directory => exact Still.keeps (.of_same ⟨rfl, rfl, rfl, rfl, rfl⟩)
  | takeLog => exact Still.keeps (.of_same ⟨rfl, rfl, rfl, rfl, rfl⟩)
  | takeResults => exact Still.keeps (.of_same ⟨rfl, rfl, rfl, rfl, rfl⟩)

/-- What an event makes of sessions, senders and connections: nothing, unless it is the turn of the
task concerned. -/
theorem happen_follows (c : Cluster) (e : Event) : Follows c (happen c e)
    (fun u w => ∃ t, e = .turn t ∧ Becomes c (happen c e) t u w)
    (fun p device conn => ∃ t, e = .turn t ∧ Joins c (happen c e) t p device conn) := by
  by_cases hturn : ∃ t, e = .turn t
  · obtain ⟨t, rfl⟩ := hturn
    exact (give_follows c t).mono (fun _ _ _ _ hb => ⟨t, rfl, hb⟩) fun _ _ _ hj => ⟨t, rfl, hj⟩
  · exact (happen_keeps c fun t ht => hturn ⟨t, ht⟩).follows

end Cluster

end FleetControl
