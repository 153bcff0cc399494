import FleetControl.Proofs.Cluster.Roster

/-! # What stands on the sockets

What a device has been sent and has not fetched yet stands on its socket. Sessions and senders send
on their own sockets, and nobody else sends anything. -/
namespace FleetControl

/-- The socket that a task may send on. -/
def Task.socket? : Task → Option Nat
  | .session _ s _ => some s
  | .sender _ s _ _ _ => some s
  | _ => none

namespace Cluster

/-- What stands on a socket for its device. -/
def outgoing (c : Cluster) (s : Nat) : List Frame :=
  ((c.sockets.get? s).map (·.outbound)).getD []

theorem outgoing_congr {c c' : Cluster} (h : c'.sockets = c.sockets) :
    c'.outgoing = c.outgoing := by
  funext s
  rw [outgoing, h]
  rfl

theorem outgoing_of_eq {α : Type} {c c' : Cluster} {x : Cluster × α} {a : α} (h : x = (c', a))
    (hx : x.1.outgoing = c.outgoing) : c'.outgoing = c.outgoing := by
  rw [h] at hx
  exact hx

section Silent
variable (c : Cluster) (p : Nat) (t : TaskId) (s : Nat)

@[simp] theorem outgoing_wake : (c.wake t).outgoing = c.outgoing := by
  unfold wake
  split <;> rfl

@[simp] theorem outgoing_notify (sig : Signal) : (c.notify sig).outgoing = c.outgoing := by
  obtain ⟨woken, h⟩ := c.notify_eq sig
  exact outgoing_congr (by rw [h])

@[simp] theorem outgoing_park (sig : Signal) : (c.park t sig).outgoing = c.outgoing := by
  obtain ⟨parked, h⟩ := c.park_eq t sig
  exact outgoing_congr (by rw [h])

@[simp] theorem outgoing_keepTimer (due : Nat) : (c.keepTimer t due).outgoing = c.outgoing := by
  unfold keepTimer
  split <;> rfl

@[simp] theorem outgoing_setTask (task : Task) : (c.setTask t task).outgoing = c.outgoing := rfl

@[simp] theorem outgoing_finish : (c.finish t).outgoing = c.outgoing := outgoing_notify _ _

/-- A socket that is put back with the same frames on it. -/
theorem outgoing_putSocket {socket socket' : Socket} (h : c.sockets.get? s = some socket)
    (hsame : socket'.outbound = socket.outbound) :
    ({ c with sockets := c.sockets.put s socket' } : Cluster).outgoing = c.outgoing := by
  funext r
  simp only [outgoing, Table.get?_put]
  split
  · rename_i hr
    rw [hr, h, Option.map_some, Option.map_some, hsame]
  · rfl

theorem outgoing_updateSocket {f : Socket → Socket} (hf : ∀ x, (f x).outbound = x.outbound) :
    (c.updateSocket s f).outgoing = c.outgoing := by
  funext r
  simp only [outgoing, updateSocket, Table.get?_modify]
  split
  · rw [Option.map_map]
    exact congrArg (fun o => Option.getD o []) (congrArg (Option.map · _) (funext hf))
  · rfl

@[simp] theorem outgoing_nextIncoming : (c.nextIncoming s).1.outgoing = c.outgoing := by
  unfold nextIncoming
  split
  · rfl
  · rename_i socket h
    split
    · rfl
    · exact outgoing_putSocket c s h rfl

@[simp] theorem outgoing_awaitArrival (deadline : Nat) :
    (c.awaitArrival t s deadline).1.outgoing = c.outgoing := by
  simp [awaitArrival]

@[simp] theorem outgoing_popLive (device : String) :
    (c.popLive p device).1.outgoing = c.outgoing := rfl

@[simp] theorem outgoing_decide (id : Uuid) (changed : Engine × Bool) :
    (c.decide p id changed).1.outgoing = c.outgoing := by
  unfold Cluster.decide
  dsimp only
  split
  · exact outgoing_notify _ _
  · rfl

@[simp] theorem outgoing_requeueFront (item : QueuedCommand) :
    (c.requeueFront p item).outgoing = c.outgoing := outgoing_notify _ _

@[simp] theorem outgoing_failConnection (conn : Uuid) :
    (c.failConnection p conn).1.outgoing = c.outgoing := by
  obtain ⟨woken, parked, h⟩ := foldl_notify (fun id => .decided p id)
    ((c.engine p).failConnection conn).2 (c.setEngine p ((c.engine p).failConnection conn).1)
  have hsockets := congrArg Cluster.sockets h
  exact outgoing_congr hsockets

@[simp] theorem outgoing_enqueue (device : String) (command : Command) (blob : Option ByteArray)
    (timeout : Nat) : (c.enqueue p device command blob timeout).1.outgoing = c.outgoing :=
  outgoing_notify _ _

@[simp] theorem outgoing_push (key value : String) :
    (c.push key value).1.outgoing = c.outgoing := by
  unfold push
  dsimp only
  split
  · exact outgoing_notify _ _
  · rfl

@[simp] theorem outgoing_tryPop (key : String) : (c.tryPop key).1.outgoing = c.outgoing := rfl

@[simp] theorem outgoing_awaitPop (key : String) (deadline : Nat) :
    (c.awaitPop t key deadline).1.outgoing = c.outgoing := by
  have hpop := outgoing_tryPop c key
  unfold awaitPop
  split <;> rename_i h <;> have hc := outgoing_of_eq h hpop
  · split
    · exact hc
    · exact (outgoing_park _ t .pushed).trans hc
  · exact hc

@[simp] theorem outgoing_awaitOutcome (id : Uuid) :
    (c.awaitOutcome t p id).1.outgoing = c.outgoing := by
  unfold awaitOutcome
  split
  · rfl
  · exact outgoing_park c t _

@[simp] theorem outgoing_pushReply (job : Uuid) (reply : BridgeReply) :
    (c.pushReply job reply).outgoing = c.outgoing := by
  have hpush := outgoing_push c (BridgeJob.replyKey job) reply.text
  unfold pushReply
  dsimp only
  split <;> rename_i h <;> have hc := outgoing_of_eq h hpush <;> exact hc

@[simp] theorem outgoing_handleJob (device raw : String) :
    (c.handleJob p device raw).outgoing = c.outgoing := by
  unfold handleJob
  split
  · rfl
  · exact outgoing_pushReply c _ _
  · exact outgoing_enqueue c p device _ _ _

@[simp] theorem outgoing_acquire (device : String) :
    (c.acquire p device t).1.outgoing = c.outgoing := by
  unfold acquire
  split <;> rfl

@[simp] theorem outgoing_release (device : String) :
    (c.release p device).outgoing = c.outgoing := by
  unfold release
  split
  · rfl
  · dsimp only
    split
    · rfl
    · exact outgoing_wake _ _

@[simp] theorem outgoing_submit (device : String) (command : Command) (blob : Option ByteArray)
    (timeout : Nat) : (c.submit p device command blob timeout).1.outgoing = c.outgoing := by
  have hpush := outgoing_push c.freshId.1 (BridgeJob.listKey device)
    (BridgeJob.make c.freshId.2 device command blob timeout c.freshId.1.wall).text
  unfold submit
  dsimp only
  split <;> rename_i h <;> have hc := outgoing_of_eq h hpush
  · exact (outgoing_release _ p device).trans hc
  · split
    · exact (outgoing_release _ p device).trans hc
    · exact hc

@[simp] theorem outgoing_carry (bridged : Bool) (program : Program (Outcome RemoteAnswer)) :
    (c.carry t p bridged program).1.outgoing = c.outgoing := by
  induction program generalizing c with
  | finish answer => rfl
  | countAlive device next ih => exact ih _ _
  | log entry next ih => exact ih (c.write [entry])
  | ssh run next ih => exact ih _ c
  | relay a b next ih => exact ih _ c
  | send device command blob timeout next ih =>
    unfold carry
    split
    · exact outgoing_enqueue c p device command blob timeout
    · exact outgoing_acquire c p t device

@[simp] theorem outgoing_sync (device : String) : (c.sync p device).1.outgoing = c.outgoing := by
  unfold sync
  split
  · rfl
  · dsimp only
    split <;> rfl

@[simp] theorem outgoing_leave (device : String) (conn : Uuid) :
    (c.leave p device conn).outgoing = c.outgoing := outgoing_sync _ p device

@[simp] theorem outgoing_markAlive (device : String) (conn : Uuid) :
    (c.markAlive p device conn).1.outgoing = c.outgoing := by
  unfold markAlive
  split <;> rfl

@[simp] theorem outgoing_refresh (conn : Uuid) : (c.refresh p conn).1.outgoing = c.outgoing := by
  unfold refresh
  split <;> rfl

@[simp] theorem outgoing_dropPresence (conn : Uuid) :
    (c.dropPresence p conn).1.outgoing = c.outgoing := by
  unfold dropPresence
  split <;> rfl

@[simp] theorem outgoing_drain (session : SessionState) (reason : Option CloseReason) :
    (c.drain t p s session reason).1.outgoing = c.outgoing := outgoing_notify _ _

@[simp] theorem outgoing_takeMessage (device : String) (conn : Uuid) (message : DeviceMessage) :
    (c.takeMessage p device conn message).outgoing = c.outgoing := by
  unfold takeMessage
  split
  · split
    · unfold takeResponse
      dsimp only
      split <;> exact outgoing_decide _ p _ _
    · rfl
  · rfl
  · rfl

@[simp] theorem outgoing_takeText (session : SessionState) (raw : String) :
    (c.takeText p session raw).1.outgoing = c.outgoing := by
  have hrefresh := outgoing_refresh c p session.conn
  unfold takeText
  split
  · rfl
  · split
    · rfl
    · dsimp only
      split
      · exact hrefresh
      · exact (outgoing_takeMessage _ p _ _ _).trans hrefresh

end Silent

section Turns
variable (c : Cluster) (t : TaskId) (p s : Nat)

theorem outgoing_callTurn (bridged : Bool) (phase : CallPhase) :
    (c.callTurn t p bridged phase).1.outgoing = c.outgoing := by
  unfold callTurn
  split
  · exact outgoing_carry c p t bridged _
  · rename_i id next
    have hwait := outgoing_awaitOutcome c p t id
    split <;> rename_i h <;> have hc := outgoing_of_eq h hwait
    · exact (outgoing_carry _ p t bridged _).trans hc
    · exact hc
  · rename_i device command blob timeout next
    have hsubmit := outgoing_submit c p device command blob timeout
    split
    · split <;> rename_i h <;> have hc := outgoing_of_eq h hsubmit
      · exact (outgoing_carry _ p t bridged _).trans hc
      · exact hc
    · rfl
  · rename_i job device command timeout deadline next
    have hpop := outgoing_awaitPop c t (BridgeJob.replyKey job) deadline
    split <;> rename_i h <;> have hc := outgoing_of_eq h hpop
    · exact hc
    · exact (outgoing_carry _ p t bridged _).trans ((outgoing_release _ p device).trans hc)

theorem outgoing_workerTurn (device : String) (phase : WorkerPhase) :
    (c.workerTurn t p device phase).1.outgoing = c.outgoing := by
  unfold workerTurn
  split
  · rfl
  · rename_i deadline
    have hpop := outgoing_awaitPop c t (BridgeJob.listKey device) deadline
    split <;> rename_i h <;> have hc := outgoing_of_eq h hpop
    · exact hc
    · rename_i c' raw
      cases raw with
      | some raw => exact (outgoing_handleJob c' p device raw).trans hc
      | none => exact hc
    · exact hc
  · split <;> rfl

theorem outgoing_idleTurn (device : DeviceRecord) (conn : Uuid) :
    (c.idleTurn t p s device conn).1.outgoing = c.outgoing := by
  have hpop := outgoing_popLive c p device.deviceId
  unfold idleTurn
  split
  · rfl
  · split <;> rename_i h <;> have hc := outgoing_of_eq h hpop
    · simpa using hc
    · dsimp only
      split
      · unfold dispatch
        split <;> exact hc
      · exact hc

/-- The turn of a task that has no socket sends nothing. -/
theorem outgoing_turn {task : Task} (ht : c.tasks.get? t = some task) (hs : task.socket? = none) :
    (turn c t).1.outgoing = c.outgoing := by
  simp only [turn, ht]
  cases task with
  | expiry p id deadline =>
    dsimp only
    unfold expiryTurn
    split
    · exact outgoing_decide c p id _
    · rfl
  | consumer p device =>
    dsimp only
    have hpop := outgoing_popLive c p device
    unfold consumerTurn
    split <;> rename_i h <;> have hc := outgoing_of_eq h hpop
    · exact hc
    · exact (outgoing_park _ t _).trans hc
  | popper key deadline =>
    dsimp only
    have hpop := outgoing_awaitPop c t key deadline
    unfold popperTurn
    split <;> rename_i h <;> have hc := outgoing_of_eq h hpop <;> exact hc
  | caller p id =>
    dsimp only
    have hwait := outgoing_awaitOutcome c p t id
    unfold callerTurn
    split <;> rename_i h <;> have hc := outgoing_of_eq h hwait <;> exact hc
  | replier p id job =>
    dsimp only
    have hwait := outgoing_awaitOutcome c p t id
    unfold replierTurn
    split <;> rename_i h <;> have hc := outgoing_of_eq h hwait
    · exact (outgoing_pushReply _ job _).trans hc
    · exact hc
  | call p bridged phase => exact outgoing_callTurn c t p bridged phase
  | worker p device phase => exact outgoing_workerTurn c t p device phase
  | heartbeat p conn interval due =>
    dsimp only
    unfold heartbeatTurn
    split
    · rfl
    · split
      · exact outgoing_refresh c p conn
      · rfl
  | session p s phase => cases hs
  | sender p s device conn phase => cases hs

end Turns

/-- Nothing is sent on other sockets. -/
def Elsewhere (s : Nat) (c c' : Cluster) : Prop := ∀ r, r ≠ s → c'.outgoing r = c.outgoing r

section Elsewhere
variable {c c₁ c' : Cluster} {s : Nat}

theorem Elsewhere.trans (h : Elsewhere s c c₁) (h' : Elsewhere s c₁ c') : Elsewhere s c c' :=
  fun r hr => (h' r hr).trans (h r hr)

theorem elsewhere_of_silent (h : c'.outgoing = c.outgoing) : Elsewhere s c c' :=
  fun r _ => congrFun h r

theorem Elsewhere.silent (h : Elsewhere s c c₁) (h' : c'.outgoing = c₁.outgoing) :
    Elsewhere s c c' := h.trans (elsewhere_of_silent h')

theorem elsewhere_of_eq {α : Type} {x : Cluster × α} {a : α} (h : x = (c', a))
    (hx : Elsewhere s c x.1) : Elsewhere s c c' := by
  rw [h] at hx
  exact hx

/-- A frame that is sent stands behind the others on its socket; one that fails leaves no trace. -/
theorem outgoing_transmit (c : Cluster) (s : Nat) (f : Frame) (r : Nat) :
    (c.transmit s f).1.outgoing r =
      c.outgoing r ++ if r = s ∧ (c.transmit s f).2 = true then [f] else [] := by
  unfold transmit
  cases hs : c.sockets.get? s with
  | none => simp
  | some socket =>
    simp only [outgoing, Table.get?_put, Socket.send]
    by_cases hr : r = s
    · rw [if_pos hr, hr, hs]
      split <;> simp
    · simp [hr]

theorem elsewhere_transmit (c : Cluster) (s : Nat) (f : Frame) :
    Elsewhere s c (c.transmit s f).1 := by
  intro r hr
  rw [outgoing_transmit, if_neg fun h => hr h.1, List.append_nil]

theorem elsewhere_hangUp (c : Cluster) (p s : Nat) (reason : Option CloseReason) :
    Elsewhere s c (c.hangUp p s reason).1 := by
  have hend : ∀ {c₁ : Cluster} (closed : Bool), Elsewhere s c c₁ →
      Elsewhere s c ((c₁.updateProcess p fun q => { q with sockets := q.sockets - 1 }).updateSocket
        s (·.finish closed)) := by
    intro c₁ closed h
    refine h.trans fun r hr => ?_
    simp only [outgoing, updateSocket, updateProcess, Table.get?_modify, if_neg hr]
  unfold hangUp
  cases reason with
  | none => exact hend false fun _ _ => rfl
  | some r => exact hend _ (elsewhere_transmit c s (.close r))

theorem elsewhere_refuseTurn (c : Cluster) (t : TaskId) (p s : Nat) (address : Address)
    (e : ChannelError) : Elsewhere s c (c.refuseTurn t p s address e).1 := by
  unfold refuseTurn
  split
  · exact elsewhere_hangUp c p s none
  · exact fun _ _ => rfl

theorem elsewhere_openingTurn (c : Cluster) (t : TaskId) (p s : Nat) (settings : ServerSettings)
    (address : Address) : Elsewhere s c (c.openingTurn t p s settings address).1 := by
  unfold openingTurn
  dsimp only
  split
  · exact fun _ _ => rfl
  · split
    · exact fun _ _ => rfl
    · split <;> exact fun _ _ => rfl

theorem elsewhere_handshakeTurn (c : Cluster) (t : TaskId) (p s : Nat) (settings : ServerSettings)
    (address : Address) (state : HandshakeState) (deadline : Nat) :
    Elsewhere s c (c.handshakeTurn t p s settings address state deadline).1 := by
  have hnext : Elsewhere s c (c.nextIncoming s).1 :=
    elsewhere_of_silent (outgoing_nextIncoming c s)
  unfold handshakeTurn
  split <;> rename_i h
  · have hc := elsewhere_of_eq h hnext
    split
    · exact hc.trans (elsewhere_refuseTurn _ t p s address _)
    · exact hc.silent (outgoing_awaitArrival _ t s deadline)
  · have hc := elsewhere_of_eq h hnext
    split <;> rename_i hsend <;>
      have hsent := hc.trans (elsewhere_of_eq hsend (elsewhere_transmit _ s _))
    · exact hsent
    · exact hsent.trans (elsewhere_hangUp _ p s none)
  · rename_i c₁ incoming _
    have hc := elsewhere_of_eq h hnext
    split
    · exact hc
    · exact hc.trans (elsewhere_refuseTurn _ t p s address _)
    · have hused : Elsewhere s c c₁.useChallenge := hc
      split <;> rename_i hsend <;>
        have hsent := hused.trans (elsewhere_of_eq hsend (elsewhere_transmit _ s _))
      · exact hsent
      · exact hsent.trans (elsewhere_hangUp _ p s none)
    · split <;> rename_i hsend <;>
        have hsent := hc.trans (elsewhere_of_eq hsend (elsewhere_transmit _ s _))
      · exact hsent
      · exact hsent.trans (elsewhere_hangUp _ p s none)

theorem elsewhere_startingTurn (c : Cluster) (t : TaskId) (p s : Nat) (settings : ServerSettings)
    (device : DeviceRecord) : Elsewhere s c (c.startingTurn t p s settings device).1 := by
  let joined := ((c.freshId.1.register p device.deviceId c.freshId.2).1.sync p device.deviceId).1
  have hjoined : joined.outgoing = c.outgoing := outgoing_sync _ p device.deviceId
  have hmarked : (joined.markAlive p device.deviceId c.freshId.2).1.outgoing = c.outgoing :=
    (outgoing_markAlive joined p device.deviceId c.freshId.2).trans hjoined
  unfold startingTurn
  dsimp only
  split <;> rename_i h <;> have hc := elsewhere_of_silent (s := s) (outgoing_of_eq h hmarked)
  · exact (hc.trans (elsewhere_hangUp _ p s _)).silent (outgoing_leave _ p _ _)
  · exact hc

/-- A session that receives answers pings and sends nothing else. -/
theorem outgoing_receivingTurn (c : Cluster) (t : TaskId) (p s : Nat) (settings : ServerSettings)
    (session : SessionState) (deadline : Nat) :
    (c.receivingTurn t p s settings session deadline).1.outgoing = c.outgoing ∨
      ∃ data, ∀ r, (c.receivingTurn t p s settings session deadline).1.outgoing r =
        c.outgoing r ++ if r = s then [.pong data] else [] := by
  have hnext := outgoing_nextIncoming c s
  have hdrain : ∀ {c₁ : Cluster} (reason : Option CloseReason), c₁.outgoing = c.outgoing →
      (c₁.drain t p s session reason).1.outgoing = c.outgoing := fun reason h =>
    (outgoing_drain _ p t s session reason).trans h
  unfold receivingTurn
  dsimp only
  split <;> rename_i h <;> have hc := outgoing_of_eq h hnext
  · split
    · exact Or.inl (hdrain _ hc)
    · exact Or.inl ((outgoing_awaitArrival _ t s deadline).trans hc)
  · rename_i c₁ data
    split <;> rename_i c₂ hsend <;> have hsent := outgoing_transmit c₁ s (.pong data) <;>
      rw [hsend] at hsent
    · exact Or.inr ⟨data, fun r => by simpa [hc] using hsent r⟩
    · refine Or.inl (hdrain _ (funext fun r => ?_))
      simpa [hc] using hsent r
  · exact Or.inl hc
  · exact Or.inl (hdrain _ hc)
  · exact Or.inl (hdrain _ hc)
  · exact Or.inl hc
  · split <;> rename_i htext <;>
      have htaken := outgoing_of_eq htext ((outgoing_takeText _ p session _).trans hc)
    · exact Or.inl htaken
    · exact Or.inl (hdrain _ htaken)

theorem elsewhere_cleanUp (c : Cluster) (p s : Nat) (session : SessionState)
    (reason : Option CloseReason) : Elsewhere s c (c.cleanUp p s session reason).1 := by
  have hfailed := (elsewhere_hangUp c p s reason).silent
    (outgoing_failConnection _ p session.conn)
  unfold cleanUp
  dsimp only
  refine Elsewhere.silent ?_ (outgoing_leave _ p session.device.deviceId session.conn)
  exact Elsewhere.silent hfailed (outgoing_dropPresence _ p session.conn)

theorem elsewhere_drainingTurn (c : Cluster) (t : TaskId) (p s : Nat) (session : SessionState)
    (reason : Option CloseReason) (deadline : Nat) :
    Elsewhere s c (c.drainingTurn t p s session reason deadline).1 := by
  have hstopped : Elsewhere s c ((c.remove session.sender).remove session.heartbeat) :=
    fun _ _ => rfl
  unfold drainingTurn
  dsimp only
  split
  · exact elsewhere_of_silent (outgoing_park c t _)
  · split
    · exact hstopped.silent (outgoing_park _ t _)
    · exact hstopped.trans (elsewhere_cleanUp _ p s session reason)

theorem elsewhere_sessionTurn (c : Cluster) (t : TaskId) (p s : Nat) (phase : SessionPhase) :
    Elsewhere s c (c.sessionTurn t p s phase).1 := by
  unfold sessionTurn
  split
  · rename_i settings socket _ _
    cases phase with
    | opening => exact elsewhere_openingTurn c t p s settings _
    | refusing reason =>
      change Elsewhere s c (c.refusingTurn t p s reason).1
      unfold refusingTurn
      split
      · exact elsewhere_of_silent (outgoing_park c t _)
      · exact elsewhere_hangUp c p s _
    | handshaking state deadline => exact elsewhere_handshakeTurn c t p s settings _ state deadline
    | starting device => exact elsewhere_startingTurn c t p s settings device
    | receiving session deadline =>
      rcases outgoing_receivingTurn c t p s settings session deadline with hsame | ⟨data, hpong⟩
      · exact elsewhere_of_silent hsame
      · intro r hr
        rw [hpong r, if_neg hr, List.append_nil]
    | draining session reason deadline =>
      exact elsewhere_drainingTurn c t p s session reason deadline
  · exact fun _ _ => rfl

theorem elsewhere_sendingTurn (c : Cluster) (t : TaskId) (p s : Nat) (device : DeviceRecord)
    (conn : Uuid) (item : QueuedCommand) (frames : List Frame) :
    Elsewhere s c (c.sendingTurn t p s device conn item frames).1 := by
  cases frames with
  | nil => exact fun _ _ => rfl
  | cons f rest =>
    have hsend := elsewhere_transmit c s f
    simp only [sendingTurn]
    split
    · exact elsewhere_of_silent (outgoing_park c t _)
    · split <;> rename_i h <;> have hc := elsewhere_of_eq h hsend
      · exact hc
      · exact hc.silent (outgoing_requeueFront _ p item)

/-- The turn of a task that has a socket sends nothing on other ones. -/
theorem elsewhere_turn {t : TaskId} {task : Task} (ht : c.tasks.get? t = some task)
    (hs : task.socket? = some s) : Elsewhere s c (turn c t).1 := by
  simp only [turn, ht]
  cases task with
  | session p r phase =>
    obtain rfl : r = s := Option.some_inj.mp hs
    exact elsewhere_sessionTurn c t p r phase
  | sender p r device conn phase =>
    obtain rfl : r = s := Option.some_inj.mp hs
    cases phase with
    | idle => exact elsewhere_of_silent (outgoing_idleTurn c t p r device conn)
    | sending item frames => exact elsewhere_sendingTurn c t p r device conn item frames
  | _ => cases hs

end Elsewhere

/-- What a device fetches off a socket in an event. -/
def fetches (c : Cluster) (s : Nat) : Event → List Frame
  | .takeFrames r => if r = s then (c.takeFrames s).2 else []
  | _ => []

/-- What a device fetches off a socket in a history. -/
def fetched (c : Cluster) (s : Nat) : List Event → List Frame
  | [] => []
  | e :: es => c.fetches s e ++ fetched (happen c e) s es

theorem fetched_append (c : Cluster) (s : Nat) (es fs : List Event) :
    c.fetched s (es ++ fs) = c.fetched s es ++ (c.after es).fetched s fs := by
  induction es generalizing c with
  | nil => rfl
  | cons e es ih => rw [List.cons_append, fetched, fetched, ih, List.append_assoc]; rfl

theorem outgoing_arrive (c : Cluster) (s : Nat) (m : Incoming) :
    (c.arrive s m).1.outgoing = c.outgoing := by
  unfold arrive
  split
  · rfl
  · rename_i socket h
    refine (outgoing_notify _ _).trans (outgoing_putSocket c s h ?_)
    unfold Socket.arrive
    split
    · rfl
    · split <;> rfl

theorem outgoing_takeFrames (c : Cluster) (s r : Nat) :
    c.fetches r (.takeFrames s) ++ (c.takeFrames s).1.outgoing r = c.outgoing r := by
  simp only [fetches]
  by_cases hs : s = r
  · subst hs
    rw [if_pos rfl, takeFrames]
    cases h : c.sockets.get? s with
    | none => simp [outgoing, h]
    | some socket => simp [outgoing, updateSocket, Table.get?_modify, h]
  · rw [if_neg hs, List.nil_append, takeFrames]
    cases h : c.sockets.get? s with
    | none => rfl
    | some socket => simp [outgoing, updateSocket, Table.get?_modify, Ne.symm hs]

theorem outgoing_connect (c : Cluster) (p : Nat) (address : Address) {s : Nat}
    (hs : s ≠ c.sockets.length) : (c.connect p address).1.outgoing s = c.outgoing s := by
  simp only [connect, outgoing, spawn, Table.get?_put, if_neg hs]

theorem outgoing_pass (c : Cluster) (ms : Nat) : (c.pass ms).outgoing = c.outgoing := by
  by_cases hr : c.ready = []
  · obtain ⟨now, woken, he, -⟩ := pass_eq hr ms
    exact outgoing_congr (by rw [he])
  · rw [pass_of_ready hr]

theorem outgoing_deafen (c : Cluster) (s : Nat) : (c.deafen s).outgoing = c.outgoing :=
  (outgoing_notify _ _).trans (outgoing_updateSocket c s fun _ => rfl)

/-- What comes from outside sends nothing; the device may take what stands there. -/
theorem outgoing_happen (c : Cluster) {e : Event} (hturn : ∀ t, e ≠ .turn t) {s : Nat}
    (hs : s ≠ c.sockets.length) : c.fetches s e ++ (happen c e).outgoing s = c.outgoing s := by
  have hsilent : ∀ {c' : Cluster}, c'.outgoing = c.outgoing →
      [] ++ c'.outgoing s = c.outgoing s := fun h => congrFun h s
  cases e with
  | turn t => exact absurd rfl (hturn t)
  | takeFrames r => exact outgoing_takeFrames c r s
  | connect p address => exact outgoing_connect c p address hs
  | pass ms => exact hsilent (outgoing_pass c ms)
  | arrive r m => exact hsilent (outgoing_arrive c r m)
  | deafen r => exact hsilent (outgoing_deafen c r)
  | stall r => exact hsilent (outgoing_updateSocket c r fun _ => rfl)
  | resume r =>
    exact hsilent ((outgoing_notify _ _).trans (outgoing_updateSocket c r fun _ => rfl))
  | vanish r => exact hsilent ((outgoing_arrive _ r _).trans (outgoing_deafen c r))
  | pop key timeout =>
    refine hsilent ?_
    change (c.pop key timeout).1.outgoing = c.outgoing
    unfold pop
    split <;> rfl
  | popNow key =>
    refine hsilent ?_
    change (c.popNow key).1.outgoing = c.outgoing
    unfold popNow
    split <;> rfl
  | _ => rfl

end Cluster

end FleetControl
