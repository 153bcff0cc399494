import FleetControl.Cluster.Run
import FleetControl.Proofs.Table

/-! # What the operations of a cluster leave alone

Waking and notifying touch the ready queue and the waiting list only; among the rest, the engine of
a process changes where it is replaced and nowhere else. -/
namespace FleetControl.Cluster

theorem foldl_wake (ts : List TaskId) (c : Cluster) :
    ∃ woken, ts.foldl wake c = { c with ready := c.ready ++ woken } ∧
      ∀ t, t ∈ c.ready ++ woken ↔ t ∈ c.ready ∨ t ∈ ts := by
  induction ts generalizing c with
  | nil => exact ⟨[], by simp, by simp⟩
  | cons t ts ih =>
    obtain ⟨woken, he, hm⟩ := ih (c.wake t)
    rw [List.foldl_cons, he]
    unfold wake at hm ⊢
    by_cases ht : t ∈ c.ready
    · rw [if_pos ht] at hm ⊢
      refine ⟨woken, rfl, fun u => ?_⟩
      rw [hm u, List.mem_cons]
      constructor
      · rintro (h | h)
        · exact Or.inl h
        · exact Or.inr (Or.inr h)
      · rintro (h | rfl | h)
        · exact Or.inl h
        · exact Or.inl ht
        · exact Or.inr h
    · rw [if_neg ht] at hm ⊢
      refine ⟨t :: woken, by simp, fun u => ?_⟩
      have := hm u
      simp only [List.append_assoc, List.singleton_append, List.mem_append, List.mem_cons] at this ⊢
      rw [this, or_assoc]
      simp

theorem notify_eq (c : Cluster) (s : Signal) :
    ∃ woken, c.notify s =
      { c with ready := c.ready ++ woken, parked := c.parked.filter fun e => e.1 ≠ s } := by
  obtain ⟨woken, he, -⟩ := foldl_wake ((c.parked.filter fun e => e.1 = s).map (·.2))
    { c with parked := c.parked.filter fun e => e.1 ≠ s }
  exact ⟨woken, he⟩

theorem mem_ready_notify (c : Cluster) (s : Signal) (u : TaskId) :
    u ∈ (c.notify s).ready ↔ u ∈ c.ready ∨ (s, u) ∈ c.parked := by
  obtain ⟨woken, he, hm⟩ := foldl_wake ((c.parked.filter fun e => e.1 = s).map (·.2))
    { c with parked := c.parked.filter fun e => e.1 ≠ s }
  have hn : c.notify s = _ := he
  rw [hn]
  refine (hm u).trans (or_congr_right ?_)
  simp only [List.mem_map, List.mem_filter, decide_eq_true_eq]
  constructor
  · rintro ⟨⟨s', u'⟩, ⟨hmem, rfl⟩, rfl⟩
    exact hmem
  · exact fun hmem => ⟨(s, u), ⟨hmem, rfl⟩, rfl⟩

theorem foldl_notify {α : Type} (f : α → Signal) (l : List α) (c : Cluster) :
    ∃ woken parked, l.foldl (fun c a => c.notify (f a)) c =
      { c with ready := c.ready ++ woken, parked := parked } := by
  induction l generalizing c with
  | nil => exact ⟨[], c.parked, by simp⟩
  | cons a l ih =>
    obtain ⟨woken, parked, he⟩ := ih (c.notify (f a))
    obtain ⟨first, hn⟩ := c.notify_eq (f a)
    rw [hn] at he
    exact ⟨first ++ woken, parked, by rw [List.foldl_cons, hn, he, List.append_assoc]⟩

theorem finish_eq (c : Cluster) (t : TaskId) : ∃ woken parked, c.finish t =
    { c.remove t with ready := (c.remove t).ready ++ woken, parked := parked } := by
  obtain ⟨woken, h⟩ := (c.remove t).notify_eq (.ended t)
  exact ⟨woken, _, h⟩

theorem park_eq (c : Cluster) (t : TaskId) (s : Signal) :
    ∃ parked, c.park t s = { c with parked := parked } := by
  unfold park
  split
  · exact ⟨c.parked, rfl⟩
  · exact ⟨_, rfl⟩

theorem transmit_eq (c : Cluster) (s : Nat) (f : Frame) :
    ∃ sockets, (c.transmit s f).1 = { c with sockets := sockets } := by
  unfold transmit
  split
  · exact ⟨c.sockets, rfl⟩
  · exact ⟨_, rfl⟩

theorem nextIncoming_eq {c c' : Cluster} {s : Nat} {m : Incoming}
    (h : c.nextIncoming s = (c', some m)) :
    ∃ socket rest, c.sockets.get? s = some socket ∧ socket.inbound = m :: rest ∧
      c' = { c with sockets := c.sockets.put s { socket with inbound := rest } } := by
  unfold nextIncoming at h
  cases hs : c.sockets.get? s with
  | none => rw [hs] at h; cases h
  | some socket =>
    rw [hs] at h
    dsimp only at h
    cases hi : socket.inbound with
    | nil => rw [hi] at h; cases h
    | cons first rest =>
      rw [hi] at h
      cases h
      exact ⟨socket, rest, rfl, hi, rfl⟩

theorem engine_congr {c c' : Cluster} (h : c'.processes = c.processes) (p : Nat) :
    c'.engine p = c.engine p := by
  simp [engine, h]

section Engines
variable (c : Cluster) (p : Nat) (t : TaskId) (s : Nat)

@[simp] theorem engine_wake : (c.wake t).engine p = c.engine p :=
  engine_congr (c.processes_wake t) p

@[simp] theorem engine_notify (sig : Signal) : (c.notify sig).engine p = c.engine p := by
  obtain ⟨woken, h⟩ := c.notify_eq sig
  exact engine_congr (by rw [h]) p

theorem engine_foldl_notify {α : Type} (f : α → Signal) (l : List α) :
    (l.foldl (fun c a => c.notify (f a)) c).engine p = c.engine p := by
  obtain ⟨woken, parked, h⟩ := foldl_notify f l c
  exact engine_congr (by rw [h]) p

@[simp] theorem engine_spawn (task : Task) : (c.spawn task).1.engine p = c.engine p := rfl

@[simp] theorem engine_park (sig : Signal) : (c.park t sig).engine p = c.engine p := by
  obtain ⟨parked, h⟩ := c.park_eq t sig
  exact engine_congr (by rw [h]) p

@[simp] theorem engine_setTimer (due : Nat) : (c.setTimer t due).engine p = c.engine p := rfl

@[simp] theorem engine_keepTimer (due : Nat) : (c.keepTimer t due).engine p = c.engine p := by
  unfold keepTimer; split <;> rfl

@[simp] theorem engine_remove : (c.remove t).engine p = c.engine p := rfl

@[simp] theorem engine_unwait : (c.unwait t).engine p = c.engine p := rfl

@[simp] theorem engine_finish : (c.finish t).engine p = c.engine p := by simp [finish]

@[simp] theorem engine_updateSocket (f : Socket → Socket) :
    (c.updateSocket s f).engine p = c.engine p := rfl

@[simp] theorem engine_transmit (f : Frame) : (c.transmit s f).1.engine p = c.engine p := by
  obtain ⟨sockets, h⟩ := c.transmit_eq s f
  exact engine_congr (by rw [h]) p

@[simp] theorem engine_nextIncoming : (c.nextIncoming s).1.engine p = c.engine p := by
  unfold nextIncoming
  split
  · rfl
  · split <;> rfl

theorem engine_updateProcess (q : Nat) (f : Process → Process) (h : ∀ x, (f x).engine = x.engine) :
    (c.updateProcess q f).engine p = c.engine p := by
  simp only [engine, updateProcess, Table.get?_modify]
  split
  · cases c.processes.get? p <;> simp [h]
  · rfl

theorem engine_setEngine (q : Nat) (e : Engine) :
    (c.setEngine q e).engine p =
      if p = q ∧ c.processes.has p = true then e else c.engine p := by
  simp only [engine, setEngine, updateProcess, Table.get?_modify, Table.has]
  by_cases hp : p = q
  · simp only [hp, if_true, true_and]
    cases c.processes.get? q <;> rfl
  · simp only [hp, false_and, if_false]

theorem engine_decided (q : Nat) (id : Uuid) (changed : Engine × Bool) :
    (c.decide q id changed).1.engine p =
      if p = q ∧ c.processes.has p = true then changed.1 else c.engine p := by
  have hset := engine_setEngine c p q changed.1
  unfold Cluster.decide
  dsimp only
  split
  · exact (engine_notify _ p _).trans hset
  · exact hset

theorem has_setEngine (q : Nat) (e : Engine) :
    (c.setEngine q e).processes.has p = c.processes.has p :=
  Table.has_modify c.processes q p fun x => { x with engine := e }

@[simp] theorem engine_awaitArrival (deadline : Nat) :
    (c.awaitArrival t s deadline).1.engine p = c.engine p := by
  simp [awaitArrival]

@[simp] theorem engine_enter (q : Nat) (phase : SessionPhase) :
    (c.enter t q s phase).1.engine p = c.engine p := rfl

@[simp] theorem engine_push (key value : String) : (c.push key value).1.engine p = c.engine p := by
  unfold push
  dsimp only
  split
  · exact engine_notify _ p _
  · rfl

@[simp] theorem engine_tryPop (key : String) : (c.tryPop key).1.engine p = c.engine p := rfl

@[simp] theorem engine_pushReply (job : Uuid) (reply : BridgeReply) :
    (c.pushReply job reply).engine p = c.engine p := by
  have hpush := engine_push c p (BridgeJob.replyKey job) reply.text
  unfold pushReply
  dsimp only
  split
  · rename_i c' e h
    rw [h] at hpush
    exact hpush
  · rename_i c' h
    rw [h] at hpush
    exact hpush

@[simp] theorem engine_sync (q : Nat) (device : String) :
    (c.sync q device).1.engine p = c.engine p := by
  unfold sync
  split
  · rfl
  · dsimp only
    split
    · exact engine_updateProcess _ p q _ fun _ => rfl
    · exact engine_updateProcess _ p q _ fun _ => rfl
    · rfl

@[simp] theorem engine_setConnections (q : Nat) (changed : Connections × Bool) :
    (c.setConnections q changed).1.engine p = c.engine p :=
  engine_updateProcess c p q _ fun _ => rfl

@[simp] theorem engine_register (q : Nat) (device : String) (conn : Uuid) :
    (c.register q device conn).1.engine p = c.engine p := engine_setConnections c p q _

@[simp] theorem engine_unregister (q : Nat) (device : String) (conn : Uuid) :
    (c.unregister q device conn).1.engine p = c.engine p := engine_setConnections c p q _

@[simp] theorem engine_markAlive (q : Nat) (device : String) (conn : Uuid) :
    (c.markAlive q device conn).1.engine p = c.engine p := by
  unfold markAlive
  split
  · rfl
  · exact engine_updateProcess _ p q _ fun _ => rfl

@[simp] theorem engine_refresh (q : Nat) (conn : Uuid) :
    (c.refresh q conn).1.engine p = c.engine p := by
  unfold refresh
  split <;> rfl

@[simp] theorem engine_dropPresence (q : Nat) (conn : Uuid) :
    (c.dropPresence q conn).1.engine p = c.engine p := by
  unfold dropPresence
  split
  · rfl
  · exact engine_updateProcess _ p q _ fun _ => rfl

@[simp] theorem engine_acquire (q : Nat) (device : String) :
    (c.acquire q device t).1.engine p = c.engine p := by
  unfold acquire
  split
  · rfl
  · exact engine_updateProcess _ p q _ fun _ => rfl

@[simp] theorem engine_release (q : Nat) (device : String) :
    (c.release q device).engine p = c.engine p := by
  unfold release
  split
  · rfl
  · dsimp only
    split
    · exact engine_updateProcess _ p q _ fun _ => rfl
    · exact (engine_wake _ p _).trans (engine_updateProcess _ p q _ fun _ => rfl)

@[simp] theorem engine_awaitPop (key : String) (deadline : Nat) :
    (c.awaitPop t key deadline).1.engine p = c.engine p := by
  unfold awaitPop
  split
  · rename_i c' h
    have hc : c' = (c.tryPop key).1 := by rw [h]
    subst hc
    split <;> simp
  · rename_i c' result _ h
    have hc : c' = (c.tryPop key).1 := by rw [h]
    subst hc
    simp

@[simp] theorem engine_awaitOutcome (q : Nat) (id : Uuid) :
    (c.awaitOutcome t q id).1.engine p = c.engine p := by
  unfold awaitOutcome
  split <;> simp

@[simp] theorem engine_hangUp (q : Nat) (reason : Option CloseReason) :
    (c.hangUp q s reason).1.engine p = c.engine p := by
  have hp : ∀ c' : Cluster,
      (c'.updateProcess q fun x => { x with sockets := x.sockets - 1 }).engine p = c'.engine p :=
    fun c' => engine_updateProcess c' p q _ fun _ => rfl
  unfold hangUp
  cases reason <;> simp [hp]

@[simp] theorem engine_leave (q : Nat) (device : String) (conn : Uuid) :
    (c.leave q device conn).engine p = c.engine p := by
  simp [leave]

@[simp] theorem engine_refuseTurn (q : Nat) (address : Address) (e : ChannelError) :
    (c.refuseTurn t q s address e).1.engine p = c.engine p := by
  have hp : ∀ f : Process → Process, (∀ x, (f x).engine = x.engine) →
      (c.updateProcess q f).engine p = c.engine p := fun f hf => engine_updateProcess c p q f hf
  unfold refuseTurn
  split
  · simp
  · simp [hp]

@[simp] theorem engine_refusingTurn (q : Nat) (reason : CloseReason) :
    (c.refusingTurn t q s reason).1.engine p = c.engine p := by
  unfold refusingTurn
  split <;> simp

@[simp] theorem engine_drain (q : Nat) (session : SessionState) (reason : Option CloseReason) :
    (c.drain t q s session reason).1.engine p = c.engine p := by
  simp only [drain, engine_enter, engine_notify]
  rfl

end Engines

section Stores
variable (c : Cluster) (p : Nat) (t : TaskId) (s : Nat)

@[simp] theorem store_wake : (c.wake t).store = c.store := by
  unfold wake
  split <;> rfl

@[simp] theorem store_notify (sig : Signal) : (c.notify sig).store = c.store := by
  obtain ⟨woken, h⟩ := c.notify_eq sig
  rw [h]

@[simp] theorem now_notify (sig : Signal) : (c.notify sig).now = c.now := by
  obtain ⟨woken, h⟩ := c.notify_eq sig
  rw [h]

theorem tasks_notify (sig : Signal) : (c.notify sig).tasks = c.tasks := by
  obtain ⟨woken, h⟩ := c.notify_eq sig
  rw [h]

theorem results_notify (sig : Signal) : (c.notify sig).results = c.results := by
  obtain ⟨woken, h⟩ := c.notify_eq sig
  rw [h]

@[simp] theorem now_wake : (c.wake t).now = c.now := by
  unfold wake
  split <;> rfl

theorem tasks_park (sig : Signal) : (c.park t sig).tasks = c.tasks := by
  obtain ⟨parked, h⟩ := c.park_eq t sig
  rw [h]

theorem mem_park (sig : Signal) : (sig, t) ∈ (c.park t sig).parked := by
  unfold park
  split
  · assumption
  · exact List.mem_append_right _ (List.mem_singleton_self _)

/-- Who waits waits on. -/
theorem parked_park (sig : Signal) {e : Signal × TaskId} (he : e ∈ c.parked) :
    e ∈ (c.park t sig).parked := by
  unfold park
  split
  · exact he
  · exact List.mem_append_left _ he

@[simp] theorem store_park (sig : Signal) : (c.park t sig).store = c.store := by
  obtain ⟨parked, h⟩ := c.park_eq t sig
  rw [h]

@[simp] theorem store_keepTimer (due : Nat) : (c.keepTimer t due).store = c.store := by
  unfold keepTimer
  split <;> rfl

@[simp] theorem store_finish : (c.finish t).store = c.store := store_notify _ _

@[simp] theorem now_finish : (c.finish t).now = c.now := now_notify _ _

theorem results_finish : (c.finish t).results = c.results := results_notify _ _

theorem tasks_finish : (c.finish t).tasks = c.tasks.erase t := by
  obtain ⟨woken, parked, h⟩ := c.finish_eq t
  rw [h]
  rfl

theorem nextTask_finish : (c.finish t).nextTask = c.nextTask := by
  obtain ⟨woken, parked, h⟩ := c.finish_eq t
  rw [h]
  rfl

theorem processes_finish : (c.finish t).processes = c.processes := by
  obtain ⟨woken, parked, h⟩ := c.finish_eq t
  rw [h]
  rfl

@[simp] theorem store_transmit (f : Frame) : (c.transmit s f).1.store = c.store := by
  obtain ⟨sockets, h⟩ := c.transmit_eq s f
  rw [h]

@[simp] theorem store_nextIncoming : (c.nextIncoming s).1.store = c.store := by
  unfold nextIncoming
  split
  · rfl
  · split <;> rfl

@[simp] theorem store_enter (phase : SessionPhase) : (c.enter t p s phase).1.store = c.store := rfl

@[simp] theorem store_awaitArrival (deadline : Nat) :
    (c.awaitArrival t s deadline).1.store = c.store := by
  simp [awaitArrival]

@[simp] theorem store_decide (id : Uuid) (changed : Engine × Bool) :
    (c.decide p id changed).1.store = c.store := by
  unfold Cluster.decide
  dsimp only
  split
  · exact store_notify _ _
  · rfl

@[simp] theorem store_requeueFront (item : QueuedCommand) :
    (c.requeueFront p item).store = c.store := store_notify _ _

@[simp] theorem store_failConnection (conn : Uuid) :
    (c.failConnection p conn).1.store = c.store := by
  obtain ⟨woken, parked, h⟩ := foldl_notify (fun id => .decided p id)
    ((c.engine p).failConnection conn).2 (c.setEngine p ((c.engine p).failConnection conn).1)
  have hstore := congrArg Cluster.store h
  exact hstore

@[simp] theorem store_enqueue (device : String) (command : Command) (blob : Option ByteArray)
    (timeout : Nat) : (c.enqueue p device command blob timeout).1.store = c.store :=
  store_notify _ _

@[simp] theorem store_awaitOutcome (id : Uuid) : (c.awaitOutcome t p id).1.store = c.store := by
  unfold awaitOutcome
  split
  · rfl
  · exact store_park c t _

@[simp] theorem store_sync (device : String) : (c.sync p device).1.store = c.store := by
  unfold sync
  split
  · rfl
  · dsimp only
    split <;> rfl

@[simp] theorem store_leave (device : String) (conn : Uuid) :
    (c.leave p device conn).store = c.store := store_sync _ p device

@[simp] theorem store_acquire (device : String) : (c.acquire p device t).1.store = c.store := by
  unfold acquire
  split <;> rfl

@[simp] theorem store_release (device : String) : (c.release p device).store = c.store := by
  unfold release
  split
  · rfl
  · dsimp only
    split
    · rfl
    · exact store_wake _ _

@[simp] theorem now_release (device : String) : (c.release p device).now = c.now := by
  unfold release
  split
  · rfl
  · dsimp only
    split
    · rfl
    · exact now_wake _ _

@[simp] theorem store_hangUp (reason : Option CloseReason) :
    (c.hangUp p s reason).1.store = c.store := by
  unfold hangUp
  cases reason with
  | none => rfl
  | some r => exact store_transmit c s (.close r)

@[simp] theorem store_refuseTurn (address : Address) (e : ChannelError) :
    (c.refuseTurn t p s address e).1.store = c.store := by
  unfold refuseTurn
  split
  · exact store_hangUp c p s none
  · rfl

@[simp] theorem store_refusingTurn (reason : CloseReason) :
    (c.refusingTurn t p s reason).1.store = c.store := by
  unfold refusingTurn
  split
  · exact store_park c t _
  · exact store_hangUp c p s _

@[simp] theorem store_takeResponse (conn id : Uuid) (ok : Bool) (result : Json) :
    (c.takeResponse p conn id ok result).store = c.store := by
  unfold takeResponse
  dsimp only
  split <;> exact store_decide _ p id _

@[simp] theorem store_takeMessage (device : String) (conn : Uuid) (message : DeviceMessage) :
    (c.takeMessage p device conn message).store = c.store := by
  unfold takeMessage
  split
  · split
    · exact store_takeResponse c p conn _ _ _
    · rfl
  · rfl
  · rfl

@[simp] theorem store_drain (session : SessionState) (reason : Option CloseReason) :
    (c.drain t p s session reason).1.store = c.store := store_notify _ _

end Stores

/-- Who is there stays the same: the processes and their connections, the sockets, the tasks, and
the identifiers that are drawn. -/
structure Still (c c' : Cluster) : Prop where
  supply : c'.supply = c.supply
  drawn : c'.drawn = c.drawn
  processes : c'.processes.keys = c.processes.keys
  connections : ∀ p, c'.connectionsOf p = c.connectionsOf p
  sockets : c'.sockets.keys = c.sockets.keys
  tasks : c'.tasks = c.tasks

theorem Still.refl (c : Cluster) : Still c c := ⟨rfl, rfl, rfl, fun _ => rfl, rfl, rfl⟩

theorem Still.trans {c₁ c₂ c₃ : Cluster} (h : Still c₁ c₂) (h' : Still c₂ c₃) : Still c₁ c₃ where
  supply := h'.supply.trans h.supply
  drawn := h'.drawn.trans h.drawn
  processes := h'.processes.trans h.processes
  connections p := (h'.connections p).trans (h.connections p)
  sockets := h'.sockets.trans h.sockets
  tasks := h'.tasks.trans h.tasks

/-- Changes of everything else. -/
theorem Still.of_same {c c' : Cluster} (h : c'.supply = c.supply ∧ c'.drawn = c.drawn ∧
    c'.processes = c.processes ∧ c'.sockets = c.sockets ∧ c'.tasks = c.tasks) : Still c c' := by
  obtain ⟨hsupply, hdrawn, hprocesses, hsockets, htasks⟩ := h
  exact ⟨hsupply, hdrawn, by rw [hprocesses], fun p => by simp [connectionsOf, hprocesses],
    by rw [hsockets], htasks⟩

theorem Still.has {c c' : Cluster} (h : Still c c') (p : Nat) :
    c'.processes.has p = c.processes.has p :=
  Table.has_of_keys h.processes p

theorem still_of_eq {α : Type} {c c' : Cluster} {x : Cluster × α} {a : α} (h : x = (c', a))
    (hx : Still c x.1) : Still c c' := by
  rw [h] at hx
  exact hx

section Still
variable (c : Cluster) (p : Nat) (t : TaskId) (s : Nat)

theorem still_wake : Still c (c.wake t) := by
  unfold wake
  split
  · exact Still.refl c
  · exact .of_same ⟨rfl, rfl, rfl, rfl, rfl⟩

theorem still_notify (sig : Signal) : Still c (c.notify sig) := by
  obtain ⟨woken, h⟩ := c.notify_eq sig
  rw [h]
  exact .of_same ⟨rfl, rfl, rfl, rfl, rfl⟩

theorem still_foldl_notify {α : Type} (f : α → Signal) (l : List α) :
    Still c (l.foldl (fun c a => c.notify (f a)) c) := by
  obtain ⟨woken, parked, h⟩ := foldl_notify f l c
  rw [h]
  exact .of_same ⟨rfl, rfl, rfl, rfl, rfl⟩

theorem still_park (sig : Signal) : Still c (c.park t sig) := by
  obtain ⟨parked, h⟩ := c.park_eq t sig
  rw [h]
  exact .of_same ⟨rfl, rfl, rfl, rfl, rfl⟩

theorem still_keepTimer (due : Nat) : Still c (c.keepTimer t due) := by
  unfold keepTimer
  split
  · exact Still.refl c
  · exact .of_same ⟨rfl, rfl, rfl, rfl, rfl⟩

theorem keys_updateProcess (f : Process → Process) :
    (c.updateProcess p f).processes.keys = c.processes.keys := Table.keys_modify _ _ _

theorem still_updateProcess (f : Process → Process)
    (h : ∀ q, (f q).connections = q.connections) :
    Still c (c.updateProcess p f) where
  supply := rfl
  drawn := rfl
  processes := keys_updateProcess c p f
  connections q := by
    simp only [connectionsOf, updateProcess, Table.get?_modify]
    split
    · cases c.processes.get? q <;> simp [h]
    · rfl
  sockets := rfl
  tasks := rfl

theorem still_setEngine (e : Engine) : Still c (c.setEngine p e) :=
  still_updateProcess c p _ fun _ => rfl

/-- Writing to a socket that is there. -/
theorem still_sockets {sockets : Table Nat Socket} (h : sockets.keys = c.sockets.keys) :
    Still c { c with sockets := sockets } := ⟨rfl, rfl, rfl, fun _ => rfl, h, rfl⟩

theorem still_putSocket {socket : Socket} (h : c.sockets.get? s = some socket) (socket' : Socket) :
    Still c { c with sockets := c.sockets.put s socket' } :=
  still_sockets c (by rw [Table.keys_put, if_pos ((Table.has_iff _ _).mpr ⟨socket, h⟩)])

theorem still_updateSocket (f : Socket → Socket) : Still c (c.updateSocket s f) :=
  still_sockets c (Table.keys_modify _ _ _)

theorem still_transmit (f : Frame) : Still c (c.transmit s f).1 := by
  unfold transmit
  split
  · exact Still.refl c
  · rename_i socket h
    exact still_putSocket c s h _

theorem still_nextIncoming : Still c (c.nextIncoming s).1 := by
  unfold nextIncoming
  split
  · exact Still.refl c
  · rename_i socket h
    split
    · exact Still.refl c
    · exact still_putSocket c s h _

theorem still_awaitArrival (deadline : Nat) : Still c (c.awaitArrival t s deadline).1 :=
  (still_park c t _).trans (still_keepTimer _ t deadline)

theorem still_popLive (device : String) : Still c (c.popLive p device).1 := still_setEngine c p _

theorem still_decide (id : Uuid) (changed : Engine × Bool) :
    Still c (c.decide p id changed).1 := by
  refine (still_setEngine c p changed.1).trans ?_
  unfold Cluster.decide
  dsimp only
  split
  · exact still_notify _ _
  · exact Still.refl _

theorem still_requeueFront (item : QueuedCommand) : Still c (c.requeueFront p item) :=
  (still_setEngine c p _).trans (still_notify _ _)

theorem still_failConnection (conn : Uuid) : Still c (c.failConnection p conn).1 :=
  (still_setEngine c p _).trans (still_foldl_notify _ _ _)

theorem still_push (key value : String) : Still c (c.push key value).1 := by
  unfold push
  dsimp only
  split
  · refine Still.trans ?_ (still_notify _ _)
    exact .of_same ⟨rfl, rfl, rfl, rfl, rfl⟩
  · exact .of_same ⟨rfl, rfl, rfl, rfl, rfl⟩

theorem still_pushReply (job : Uuid) (reply : BridgeReply) : Still c (c.pushReply job reply) := by
  have hpush := still_push c (BridgeJob.replyKey job) reply.text
  unfold pushReply
  dsimp only
  split <;> rename_i h
  · exact still_of_eq h hpush
  · exact (still_of_eq h hpush).trans (.of_same ⟨rfl, rfl, rfl, rfl, rfl⟩)

theorem still_markAlive (device : String) (conn : Uuid) :
    Still c (c.markAlive p device conn).1 := by
  unfold markAlive
  split
  · exact Still.refl c
  · dsimp only
    refine Still.trans ?_ (still_updateProcess _ p _ fun _ => rfl)
    exact .of_same ⟨rfl, rfl, rfl, rfl, rfl⟩

theorem still_refresh (conn : Uuid) : Still c (c.refresh p conn).1 := by
  unfold refresh
  split
  · exact Still.refl c
  · exact .of_same ⟨rfl, rfl, rfl, rfl, rfl⟩

theorem still_dropPresence (conn : Uuid) : Still c (c.dropPresence p conn).1 := by
  unfold dropPresence
  split
  · exact Still.refl c
  · dsimp only
    refine Still.trans ?_ (still_updateProcess _ p _ fun _ => rfl)
    exact .of_same ⟨rfl, rfl, rfl, rfl, rfl⟩

theorem still_acquire (device : String) : Still c (c.acquire p device t).1 := by
  unfold acquire
  split
  · exact Still.refl c
  · exact still_updateProcess _ p _ fun _ => rfl

theorem still_release (device : String) : Still c (c.release p device) := by
  unfold release
  split
  · exact Still.refl c
  · dsimp only
    split
    · exact still_updateProcess _ p _ fun _ => rfl
    · exact (still_updateProcess _ p _ (by intro q; rfl)).trans (still_wake _ _)

theorem still_awaitPop (key : String) (deadline : Nat) :
    Still c (c.awaitPop t key deadline).1 := by
  have hpop : Still c (c.tryPop key).1 := .of_same ⟨rfl, rfl, rfl, rfl, rfl⟩
  unfold awaitPop
  split <;> rename_i h
  · have hc := still_of_eq h hpop
    split
    · exact hc.trans (.of_same ⟨rfl, rfl, rfl, rfl, rfl⟩)
    · exact (hc.trans (still_park _ t _)).trans (.of_same ⟨rfl, rfl, rfl, rfl, rfl⟩)
  · exact (still_of_eq h hpop).trans (.of_same ⟨rfl, rfl, rfl, rfl, rfl⟩)

theorem still_awaitOutcome (id : Uuid) : Still c (c.awaitOutcome t p id).1 := by
  unfold awaitOutcome
  split
  · exact Still.refl c
  · exact still_park c t _

theorem still_hangUp (reason : Option CloseReason) : Still c (c.hangUp p s reason).1 := by
  have hend : ∀ (c' : Cluster) (closed : Bool), Still c c' →
      Still c ((c'.updateProcess p fun q => { q with sockets := q.sockets - 1 }).updateSocket s
        (·.finish closed)) := fun c' closed h =>
    (h.trans (still_updateProcess c' p _ (by intro q; rfl))).trans (still_updateSocket _ s _)
  unfold hangUp
  cases reason with
  | none => exact hend c false (Still.refl c)
  | some r => exact hend _ _ (still_transmit c s (.close r))

theorem still_refusingTurn (reason : CloseReason) :
    Still c (c.refusingTurn t p s reason).1 := by
  unfold refusingTurn
  split
  · exact still_park c t _
  · exact still_hangUp c p s _

theorem still_takeResponse (conn id : Uuid) (ok : Bool) (result : Json) :
    Still c (c.takeResponse p conn id ok result) := by
  have hbodies : ∀ bodies, Still c (c.setBodies conn bodies) := fun _ =>
    .of_same ⟨rfl, rfl, rfl, rfl, rfl⟩
  unfold takeResponse
  dsimp only
  split <;> exact (hbodies _).trans (still_decide _ p id _)

theorem still_takeMessage (device : String) (conn : Uuid) (message : DeviceMessage) :
    Still c (c.takeMessage p device conn message) := by
  unfold takeMessage
  split
  · split
    · exact still_takeResponse c p conn _ _ _
    · exact Still.refl c
  · exact .of_same ⟨rfl, rfl, rfl, rfl, rfl⟩
  · exact Still.refl c

theorem still_takeText (session : SessionState) (raw : String) :
    Still c (c.takeText p session raw).1 := by
  unfold takeText
  split
  · exact Still.refl c
  · split
    · exact Still.refl c
    · dsimp only
      split
      · exact still_refresh c p session.conn
      · exact (still_refresh c p session.conn).trans (still_takeMessage _ p _ _ _)

end Still

end FleetControl.Cluster
