import FleetControl.Proofs.Cluster.Roster
import FleetControl.Proofs.Engine.Order

/-! # What turns do to the engines

A turn moves the engine of one process, or none: it submits a command, takes one, puts one back,
lets one expire, resolves the one that a reply names, or fails those of a connection that ends. -/
namespace FleetControl.Cluster
open Engine (Exchange)

/-- One engine goes through some moves; the others stay as they are. -/
def Operates (c c' : Cluster) (p : Nat) (moves : List Exchange.Move) : Prop :=
  ∀ q, c'.engine q =
    if q = p then moves.foldl (fun e m => e.apply m.op) (c.engine p) else c.engine q

section Operates
variable {c c₁ c₂ : Cluster} {p : Nat} {ms ms' : List Exchange.Move}

theorem operates_nil (p : Nat) (h : ∀ q, c₁.engine q = c.engine q) : Operates c c₁ p [] := by
  intro q
  rw [h q]
  split
  · rename_i hq
    rw [hq]
    rfl
  · rfl

theorem Operates.append (h : Operates c c₁ p ms) (h' : Operates c₁ c₂ p ms') :
    Operates c c₂ p (ms ++ ms') := by
  intro q
  rw [h' q, h q, h p, if_pos rfl, List.foldl_append]
  split <;> rfl

theorem Operates.then (h : Operates c c₁ p ms) (he : ∀ q, c₂.engine q = c₁.engine q) :
    Operates c c₂ p ms := by
  simpa using h.append (operates_nil p he)

theorem Operates.after (h : Operates c₁ c₂ p ms) (he : ∀ q, c₁.engine q = c.engine q) :
    Operates c c₂ p ms := (operates_nil p he).append h

theorem operates_setEngine (hp : c.processes.has p = true) (m : Exchange.Move) :
    Operates c (c.setEngine p ((c.engine p).apply m.op)) p [m] := by
  intro q
  rw [engine_setEngine]
  by_cases hq : q = p
  · rw [if_pos ⟨hq, hq ▸ hp⟩, if_pos hq]
    rfl
  · rw [if_neg fun h => hq h.1, if_neg hq]

/-- A process that is not there has no engine to change. -/
theorem engine_setEngine_absent (hp : c.processes.has p = false) (e : Engine) (q : Nat) :
    (c.setEngine p e).engine q = c.engine q := by
  rw [engine_setEngine, if_neg]
  rintro ⟨rfl, hq⟩
  rw [hp] at hq
  cases hq

end Operates

/-- A session has a text before it. -/
def Reads (c : Cluster) (t : TaskId) (p s : Nat) (session : SessionState) (raw : String) : Prop :=
  ∃ deadline socket rest,
    c.tasks.get? t = some (.session p s (.receiving session deadline)) ∧
    c.sockets.get? s = some socket ∧ socket.inbound = .text raw :: rest

/-- A text is a reply that names a command and verifies under the key and the secret of the device
whose connection it is. -/
def Answering (session : SessionState) (raw : String) (id : Uuid) : Prop :=
  ∃ nonce payload name ok result,
    Envelope.open? raw session.device.apiKey session.device.sharedSecret = .ok (nonce, payload) ∧
    DeviceMessage.ofPayload? payload = some (.response name ok result) ∧
    Uuid.parse? name = some id

/-- The moves that the turn of a task may make on the engine of a process. -/
inductive Doing (c c' : Cluster) (t : TaskId) (p : Nat) : List Exchange.Move → Prop
  | rests : Doing c c' t p []
  | submits {k device command blob timeout now}
      (task : (∃ bridged phase, c.tasks.get? t = some (.call p bridged phase)) ∨
        ∃ served phase, c.tasks.get? t = some (.worker p served phase))
      (lower : c.drawn ≤ k) (upper : k < c'.drawn) :
      Doing c c' t p [.enqueue (c.supply.idOf k) device command blob timeout now]
  | polls {device} (task : c.tasks.get? t = some (.consumer p device) ∨
        ∃ s record conn, c.tasks.get? t = some (.sender p s record conn .idle) ∧
          record.deviceId = device ∧ conn ∉ c.stopping) :
      Doing c c' t p [.take t device]
  | takes {s device conn item} (task : c.tasks.get? t = some (.sender p s device conn .idle))
      (going : conn ∉ c.stopping)
      (pops : ((c.engine p).popLive device.deviceId).2 = some item) :
      Doing c c' t p [.take t device.deviceId, .mark t item conn]
  | returns {s device conn item f rest}
      (task : c.tasks.get? t = some (.sender p s device conn (.sending item (f :: rest))))
      (free : c.blocked s = false) (fails : (c.transmit s f).2 = false) :
      Doing c c' t p [.putBack t item]
  | expires {id deadline} (task : c.tasks.get? t = some (.expiry p id deadline))
      (due : deadline ≤ c.now) : Doing c c' t p [.expire id]
  | answers {s session raw id outcome} (reads : Reads c t p s session raw)
      (answering : Answering session raw id) : Doing c c' t p [.resolve id outcome]
  | closes {s session reason deadline}
      (task : c.tasks.get? t = some (.session p s (.draining session reason deadline)))
      (stopped : ¬ (c.tasks.has session.sender = true ∧ c.now < deadline))
      (free : ¬ (reason.isSome = true ∧ c.blocked s = true)) :
      Doing c c' t p [.fail session.conn]

/-- A turn makes such moves. -/
def Does (c c' : Cluster) (t : TaskId) (p : Nat) : Prop :=
  ∃ ms, Doing c c' t p ms ∧ Operates c c' p ms

theorem does_of_engine {c c' : Cluster} (t : TaskId) (p : Nat)
    (h : ∀ q, c'.engine q = c.engine q) : Does c c' t p := ⟨[], .rests, operates_nil p h⟩

theorem engine_of_eq {α : Type} {c c' : Cluster} {x : Cluster × α} {a : α} (h : x = (c', a))
    (hx : ∀ p, x.1.engine p = c.engine p) (p : Nat) : c'.engine p = c.engine p := by
  rw [h] at hx
  exact hx p

section Calls
variable (c : Cluster) (t : TaskId) (p : Nat)

theorem operates_decide (hp : c.processes.has p = true) (id : Uuid) {changed : Engine × Bool}
    {m : Exchange.Move} (h : changed.1 = (c.engine p).apply m.op) :
    Operates c (c.decide p id changed).1 p [m] := by
  refine (h ▸ operates_setEngine hp m : Operates c (c.setEngine p changed.1) p [m]).then
    fun q => ?_
  unfold Cluster.decide
  dsimp only
  split
  · exact engine_notify _ q _
  · rfl

theorem engine_decide_absent (hp : c.processes.has p = false) (id : Uuid)
    (changed : Engine × Bool) (q : Nat) : (c.decide p id changed).1.engine q = c.engine q := by
  rw [engine_decided, if_neg]
  rintro ⟨rfl, hq⟩
  rw [hp] at hq
  cases hq

theorem does_expiryTurn {id : Uuid} {deadline : Nat}
    (ht : c.tasks.get? t = some (.expiry p id deadline)) :
    Does c (c.expiryTurn t p id deadline).1 t p := by
  unfold expiryTurn
  split
  · rename_i hdue
    cases hp : c.processes.has p with
    | true => exact ⟨_, .expires ht hdue, operates_decide c p hp id (m := .expire id) rfl⟩
    | false => exact does_of_engine t p (engine_decide_absent c p hp id _)
  · exact does_of_engine t p fun _ => rfl

/-- A pop alone. -/
theorem operates_popLive (hp : c.processes.has p = true) (device : String) :
    Operates c (c.popLive p device).1 p [.take t device] :=
  operates_setEngine hp (.take t device)

theorem does_consumerTurn {device : String} (ht : c.tasks.get? t = some (.consumer p device)) :
    Does c (c.consumerTurn t p device).1 t p := by
  have hsame : ∀ q, (c.consumerTurn t p device).1.engine q = (c.popLive p device).1.engine q := by
    intro q
    unfold consumerTurn
    split <;> rename_i h <;> rw [h]
    · rfl
    · exact engine_park _ q t _
  cases hp : c.processes.has p with
  | true => exact ⟨_, .polls (Or.inl ht), (operates_popLive c t p hp device).then hsame⟩
  | false => exact does_of_engine t p fun q => (hsame q).trans (engine_setEngine_absent hp _ q)

theorem engine_popperTurn (key : String) (deadline q : Nat) :
    (c.popperTurn t key deadline).1.engine q = c.engine q := by
  unfold popperTurn
  split <;> rename_i h <;> exact engine_of_eq h (fun q => engine_awaitPop c q t key deadline) q

theorem engine_callerTurn (id : Uuid) (q : Nat) :
    (c.callerTurn t p id).1.engine q = c.engine q := by
  unfold callerTurn
  split <;> rename_i h <;> exact engine_of_eq h (fun q => engine_awaitOutcome c q t p id) q

theorem engine_replierTurn (id job : Uuid) (q : Nat) :
    (c.replierTurn t p id job).1.engine q = c.engine q := by
  unfold replierTurn
  split
  · rename_i c' outcome h
    exact (engine_pushReply c' q job _).trans
      (engine_of_eq h (fun q => engine_awaitOutcome c q t p id) q)
  · rename_i c' h
    exact engine_of_eq h (fun q => engine_awaitOutcome c q t p id) q

theorem engine_submit (device : String) (command : Command) (blob : Option ByteArray)
    (timeout q : Nat) : (c.submit p device command blob timeout).1.engine q = c.engine q := by
  unfold submit
  dsimp only
  split
  · rename_i c' e h
    exact (engine_release c' q p device).trans (engine_of_eq h (fun q => engine_push _ q _ _) q)
  · rename_i c' h
    have hc := engine_of_eq h (fun q => engine_push _ q _ _) q
    split
    · exact (engine_release c' q p device).trans hc
    · exact hc

/-- A command is submitted under an identifier drawn on the way, or none is. -/
def Submits (c c' : Cluster) (p : Nat) : Prop :=
  (∀ q, c'.engine q = c.engine q) ∨ ∃ k device command blob timeout now,
    c.drawn ≤ k ∧ k < c'.drawn ∧
      Operates c c' p [.enqueue (c.supply.idOf k) device command blob timeout now]

theorem Submits.after {c c₁ c₂ : Cluster} {p : Nat} (h : Submits c₁ c₂ p) (hk : Keeps c c₁)
    (he : ∀ q, c₁.engine q = c.engine q) : Submits c c₂ p := by
  rcases h with hsame | ⟨k, device, command, blob, timeout, now, hlower, hupper, hops⟩
  · exact Or.inl fun q => (hsame q).trans (he q)
  · exact Or.inr ⟨k, device, command, blob, timeout, now, Nat.le_trans hk.drawn hlower, hupper,
      hk.supply ▸ hops.after he⟩

theorem Submits.then {c c₁ c₂ : Cluster} {p : Nat} (h : Submits c c₁ p)
    (hd : c₁.drawn ≤ c₂.drawn) (he : ∀ q, c₂.engine q = c₁.engine q) : Submits c c₂ p := by
  rcases h with hsame | ⟨k, device, command, blob, timeout, now, hlower, hupper, hops⟩
  · exact Or.inl fun q => (he q).trans (hsame q)
  · exact Or.inr ⟨k, device, command, blob, timeout, now, hlower, Nat.lt_of_lt_of_le hupper hd,
      hops.then he⟩

theorem Submits.does {c c' : Cluster} {t : TaskId} {p : Nat} (h : Submits c c' p)
    (ht : (∃ bridged phase, c.tasks.get? t = some (.call p bridged phase)) ∨
      ∃ served phase, c.tasks.get? t = some (.worker p served phase)) : Does c c' t p := by
  rcases h with hsame | ⟨k, device, command, blob, timeout, now, hlower, hupper, hops⟩
  · exact does_of_engine t p hsame
  · exact ⟨_, .submits ht hlower hupper, hops⟩

theorem submits_enqueue (device : String) (command : Command) (blob : Option ByteArray)
    (timeout : Nat) : Submits c (c.enqueue p device command blob timeout).1 p := by
  let c₁ := (c.freshId.1.spawn (.expiry p c.freshId.2 (c.now + timeout))).1
  let m : Exchange.Move :=
    .enqueue (c.supply.idOf c.drawn) device command blob timeout c.now
  let e := (c₁.engine p).apply m.op
  have hdrawn : c.drawn < (c.enqueue p device command blob timeout).1.drawn :=
    Nat.le_of_eq (still_notify (c₁.setEngine p e) (.queued p device)).drawn.symm
  cases hp : c.processes.has p with
  | true =>
    have hset : Operates c₁ (c₁.setEngine p ((c₁.engine p).apply m.op)) p [m] :=
      operates_setEngine (by exact hp) m
    exact Or.inr ⟨c.drawn, device, command, blob, timeout, c.now, Nat.le_refl _, hdrawn,
      (hset.after fun _ => rfl).then fun q => engine_notify _ q _⟩
  | false =>
    left
    intro q
    have hp₁ : c₁.processes.has p = false := hp
    exact (engine_notify _ q _).trans (engine_setEngine_absent hp₁ _ q)

theorem submits_handleJob (device raw : String) : Submits c (c.handleJob p device raw) p := by
  unfold handleJob
  split
  · exact Or.inl fun _ => rfl
  · exact Or.inl fun q => engine_pushReply c q _ _
  · exact (submits_enqueue c p device _ _ _).then (Nat.le_refl _) fun _ => rfl

theorem submits_carry (bridged : Bool) (program : Program (Outcome RemoteAnswer)) :
    Submits c (c.carry t p bridged program).1 p := by
  induction program generalizing c with
  | finish answer => exact Or.inl fun _ => rfl
  | countAlive device next ih =>
    exact (ih _ (c.countAlive device).1).after
      (Still.keeps (.of_same ⟨rfl, rfl, rfl, rfl, rfl⟩)) fun _ => rfl
  | log entry next ih =>
    exact (ih (c.write [entry])).after (Still.keeps (.of_same ⟨rfl, rfl, rfl, rfl, rfl⟩))
      fun _ => rfl
  | ssh run next ih => exact ih _ c
  | relay a b next ih => exact ih _ c
  | send device command blob timeout next ih =>
    -- here the program waits, so it submits no second command in this turn
    unfold carry
    split
    · exact (submits_enqueue c p device command blob timeout).then (Nat.le_refl _) fun _ => rfl
    · exact Or.inl fun q => engine_acquire c q t p device

theorem submits_callTurn (bridged : Bool) (phase : CallPhase) :
    Submits c (c.callTurn t p bridged phase).1 p := by
  unfold callTurn
  split
  · exact submits_carry c t p bridged _
  · rename_i id next
    have hwait := fun q => engine_awaitOutcome c q t p id
    split <;> rename_i h
    · exact (submits_carry _ t p bridged _).after
        (still_of_eq h (still_awaitOutcome c p t id)).keeps (engine_of_eq h hwait)
    · exact Or.inl (engine_of_eq h hwait)
  · rename_i device command blob timeout next
    have hsubmit := engine_submit c p device command blob timeout
    split
    · split <;> rename_i h
      · exact (submits_carry _ t p bridged _).after
          (keeps_of_eq h (keeps_submit c p device command blob timeout)) (engine_of_eq h hsubmit)
      · have hsame := engine_of_eq h hsubmit
        exact Or.inl hsame
    · exact Or.inl fun _ => rfl
  · rename_i job device command timeout deadline next
    have hpop := fun q => engine_awaitPop c q t (BridgeJob.replyKey job) deadline
    split <;> rename_i h
    · exact Or.inl (engine_of_eq h hpop)
    · have hc := still_of_eq h (still_awaitPop c t (BridgeJob.replyKey job) deadline)
      exact (submits_carry _ t p bridged _).after (hc.trans (still_release _ p device)).keeps
        fun q => (engine_release _ q p device).trans (engine_of_eq h hpop q)

theorem submits_workerTurn (device : String) (phase : WorkerPhase) :
    Submits c (c.workerTurn t p device phase).1 p := by
  unfold workerTurn
  split
  · exact Or.inl fun _ => rfl
  · rename_i deadline
    have hpop := fun q => engine_awaitPop c q t (BridgeJob.listKey device) deadline
    split
    · rename_i c' h
      exact Or.inl (engine_of_eq h hpop)
    · rename_i c' raw h
      have hc := (still_of_eq h (still_awaitPop c t (BridgeJob.listKey device) deadline)).keeps
      cases raw with
      | some raw =>
        exact ((submits_handleJob c' p device raw).then (Nat.le_refl _) fun _ => rfl).after hc
          (engine_of_eq h hpop)
      | none =>
        have hsame := engine_of_eq h hpop
        exact Or.inl hsame
    · rename_i c' e h
      have hsame := engine_of_eq h hpop
      exact Or.inl hsame
  · split <;> exact Or.inl fun _ => rfl

end Calls

section Delivery
variable (c : Cluster) (t : TaskId) (p s : Nat)

/-- Only a process that is there has commands to hand out. -/
theorem has_of_popLive {device : String} {item : QueuedCommand}
    (h : ((c.engine p).popLive device).2 = some item) : c.processes.has p = true := by
  cases hp : c.processes.has p with
  | true => rfl
  | false =>
    rw [Table.has_eq_false] at hp
    simp [engine, hp, Engine.popLive, Engine.queue, Table.getD, Table.get?, Table.has] at h

/-- An idle sender takes the next command and marks it. -/
theorem operates_idleTurn {device : DeviceRecord} {conn : Uuid} {item : QueuedCommand}
    (hgoing : conn ∉ c.stopping) (hpops : ((c.engine p).popLive device.deviceId).2 = some item) :
    Operates c (c.idleTurn t p s device conn).1 p
      [.take t device.deviceId, .mark t item conn] := by
  have hp := has_of_popLive c p hpops
  obtain ⟨c₁, h⟩ : ∃ c₁, c.popLive p device.deviceId = (c₁, some item) :=
    ⟨_, Prod.ext rfl hpops⟩
  have htake : Operates c c₁ p [.take t device.deviceId] := by
    simpa only [h] using operates_popLive c t p hp device.deviceId
  have hp₁ : c₁.processes.has p = true := by
    have hkept : (c.popLive p device.deviceId).1.processes.has p = c.processes.has p :=
      has_setEngine c p p _
    rw [h] at hkept
    exact hkept.trans hp
  have hmark : Operates c₁ (c₁.setEngine p ((c₁.engine p).markSent item.id conn).1) p
      [.mark t item conn] := operates_setEngine hp₁ (.mark t item conn)
  unfold idleTurn
  rw [if_neg hgoing, h]
  refine (htake.append hmark).then fun q => ?_
  dsimp only
  split
  · unfold dispatch
    split <;> rfl
  · rfl

theorem does_idleTurn {device : DeviceRecord} {conn : Uuid}
    (ht : c.tasks.get? t = some (.sender p s device conn .idle)) :
    Does c (c.idleTurn t p s device conn).1 t p := by
  by_cases hgoing : conn ∈ c.stopping
  · unfold idleTurn
    rw [if_pos hgoing]
    exact does_of_engine t p fun _ => rfl
  · cases hpops : ((c.engine p).popLive device.deviceId).2 with
    | some item => exact ⟨_, .takes ht hgoing hpops, operates_idleTurn c t p s hgoing hpops⟩
    | none =>
      obtain ⟨c₁, h⟩ : ∃ c₁, c.popLive p device.deviceId = (c₁, none) := ⟨_, Prod.ext rfl hpops⟩
      have hparked : ∀ q, (c.idleTurn t p s device conn).1.engine q =
          (c.popLive p device.deviceId).1.engine q := by
        intro q
        unfold idleTurn
        rw [if_neg hgoing, h]
        simp
      cases hp : c.processes.has p with
      | true =>
        exact ⟨_, .polls (Or.inr ⟨s, device, conn, ht, rfl, hgoing⟩),
          (operates_popLive c t p hp device.deviceId).then hparked⟩
      | false =>
        exact does_of_engine t p fun q => (hparked q).trans (engine_setEngine_absent hp _ q)

theorem does_sendingTurn {device : DeviceRecord} {conn : Uuid} {item : QueuedCommand}
    {frames : List Frame}
    (ht : c.tasks.get? t = some (.sender p s device conn (.sending item frames))) :
    Does c (c.sendingTurn t p s device conn item frames).1 t p := by
  cases frames with
  | nil => exact does_of_engine t p fun _ => rfl
  | cons f rest =>
    have hsend := fun q => engine_transmit c q s f
    have hstill := still_transmit c s f
    simp only [sendingTurn]
    split
    · exact does_of_engine t p fun q => engine_park c q t _
    · rename_i hfree
      split <;> rename_i c₁ h
      · have hsame := engine_of_eq h hsend
        exact does_of_engine t p hsame
      · have hsame := engine_of_eq h hsend
        let c₂ := c₁.setBodies conn ((c₁.bodiesOf conn).cancel item.id)
        have hc₂ : ∀ q, c₂.engine q = c.engine q := hsame
        have hhas : c₂.processes.has p = c.processes.has p := (still_of_eq h hstill).has p
        cases hp : c.processes.has p with
        | true =>
          have hback := operates_setEngine (hhas.trans hp) (.putBack t item)
          refine ⟨_, .returns ht (by simpa using hfree) (by rw [h]), ?_⟩
          exact (hback.after hc₂).then fun q => engine_notify _ q _
        | false =>
          refine does_of_engine t p fun q => (engine_notify _ q _).trans ?_
          exact (engine_setEngine_absent (hhas.trans hp) _ q).trans (hc₂ q)

theorem engine_heartbeatTurn (conn : Uuid) (interval due q : Nat) :
    (c.heartbeatTurn t p conn interval due).1.engine q = c.engine q := by
  unfold heartbeatTurn
  split
  · rfl
  · split
    · exact engine_refresh c q p conn
    · rfl

end Delivery

section Sessions
variable (c : Cluster) (t : TaskId) (p s : Nat)

theorem engine_openingTurn (settings : ServerSettings) (address : Address) (q : Nat) :
    (c.openingTurn t p s settings address).1.engine q = c.engine q := by
  have hfirst := engine_updateProcess c q p (fun x => { x with sockets := x.sockets + 1 })
    fun _ => rfl
  unfold openingTurn
  dsimp only
  split
  · exact hfirst
  · split
    · exact hfirst
    · have hlimited := fun limiter =>
        (engine_updateProcess _ q p (fun x => { x with limiter := limiter }) fun _ => rfl).trans
          hfirst
      split <;> exact hlimited _

theorem engine_handshakeTurn (settings : ServerSettings) (address : Address)
    (state : HandshakeState) (deadline q : Nat) :
    (c.handshakeTurn t p s settings address state deadline).1.engine q = c.engine q := by
  have hnext := fun q => engine_nextIncoming c q s
  unfold handshakeTurn
  split
  · rename_i c' h
    have hc := engine_of_eq h hnext q
    split
    · exact (engine_refuseTurn c' q t s p address _).trans hc
    · exact (engine_awaitArrival c' q t s deadline).trans hc
  · rename_i c' data h
    have hc := engine_of_eq h hnext q
    split
    · rename_i c'' hsend
      exact (engine_of_eq hsend (fun q => engine_transmit c' q s _) q).trans hc
    · rename_i c'' hsend
      exact (engine_hangUp c'' q s p none).trans
        ((engine_of_eq hsend (fun q => engine_transmit c' q s _) q).trans hc)
  · rename_i c' incoming _ h
    have hc := engine_of_eq h hnext q
    split
    · exact hc
    · exact (engine_refuseTurn c' q t s p address _).trans hc
    · split
      · rename_i c'' hsend
        exact (engine_of_eq hsend (fun q => engine_transmit c'.useChallenge q s _) q).trans hc
      · rename_i c'' hsend
        exact (engine_hangUp c'' q s p none).trans
          ((engine_of_eq hsend (fun q => engine_transmit c'.useChallenge q s _) q).trans hc)
    · split
      · rename_i c'' hsend
        exact (engine_of_eq hsend (fun q => engine_transmit c' q s _) q).trans hc
      · rename_i c'' hsend
        exact (engine_hangUp c'' q s p none).trans
          ((engine_of_eq hsend (fun q => engine_transmit c' q s _) q).trans hc)

theorem engine_startingTurn (settings : ServerSettings) (device : DeviceRecord) (q : Nat) :
    (c.startingTurn t p s settings device).1.engine q = c.engine q := by
  let c₁ := ((c.freshId.1.register p device.deviceId c.freshId.2).1.sync p device.deviceId).1
  have hmark := fun q => (engine_markAlive c₁ q p device.deviceId c.freshId.2).trans
    ((engine_sync _ q p device.deviceId).trans (engine_register _ q p device.deviceId _))
  unfold startingTurn
  dsimp only
  split
  · rename_i c' e h
    have hc := engine_of_eq h hmark q
    exact (engine_leave _ q p device.deviceId _).trans ((engine_hangUp c' q s p _).trans hc)
  · rename_i c' h
    rw [engine_enter, engine_spawn, engine_spawn]
    exact engine_of_eq h hmark q

/-- A session cleaned up fails what its connection has in flight. -/
theorem engine_cleanUp (session : SessionState) (reason : Option CloseReason) (q : Nat) :
    (c.cleanUp p s session reason).1.engine q =
      if q = p ∧ c.processes.has p = true then ((c.engine p).failConnection session.conn).1
      else c.engine q := by
  let c₁ := (c.hangUp p s reason).1
  have h₁ : ∀ q, c₁.engine q = c.engine q := fun q => engine_hangUp c q s p reason
  have hhas : c₁.processes.has p = c.processes.has p := (still_hangUp c p s reason).has p
  have hfailed : (c₁.failConnection p session.conn).1.engine q =
      (c₁.setEngine p ((c₁.engine p).failConnection session.conn).1).engine q :=
    engine_foldl_notify _ q _ _
  unfold cleanUp
  dsimp only
  rw [engine_leave, engine_dropPresence]
  refine hfailed.trans ?_
  rw [engine_setEngine, h₁, h₁]
  by_cases hq : q = p
  · rw [hq, hhas]
  · rw [if_neg fun h => hq h.1, if_neg fun h => hq h.1]

theorem does_drainingTurn {session : SessionState} {reason : Option CloseReason} {deadline : Nat}
    (ht : c.tasks.get? t = some (.session p s (.draining session reason deadline))) :
    Does c (c.drainingTurn t p s session reason deadline).1 t p := by
  unfold drainingTurn
  dsimp only
  split
  · exact does_of_engine t p fun q => engine_park c q t _
  · rename_i hstopped
    split
    · exact does_of_engine t p fun q => engine_park _ q t _
    · rename_i hfree
      cases hp : c.processes.has p with
      | true =>
        refine ⟨_, .closes ht hstopped hfree, fun q => ?_⟩
        rw [engine_cleanUp]
        by_cases hq : q = p
        · rw [if_pos ⟨hq, hp⟩, if_pos hq]
          rfl
        · rw [if_neg fun h => hq h.1, if_neg hq]
          rfl
      | false =>
        refine does_of_engine t p fun q => ?_
        have hp' : ((c.remove session.sender).remove session.heartbeat).processes.has p = false := hp
        rw [engine_cleanUp, if_neg (by simp [hp'])]
        rfl

/-- At most one command of one process is resolved. -/
def Resolves (c c' : Cluster) (p : Nat) (id : Uuid) : Prop :=
  (∀ q, c'.engine q = c.engine q) ∨ ∃ outcome, Operates c c' p [.resolve id outcome]

theorem Resolves.then {c c₁ c₂ : Cluster} {p : Nat} {id : Uuid} (h : Resolves c c₁ p id)
    (he : ∀ q, c₂.engine q = c₁.engine q) : Resolves c c₂ p id := by
  rcases h with hsame | ⟨o, hops⟩
  · exact Or.inl fun q => (he q).trans (hsame q)
  · exact Or.inr ⟨o, hops.then he⟩

theorem Resolves.after {c c₁ c₂ : Cluster} {p : Nat} {id : Uuid} (h : Resolves c₁ c₂ p id)
    (he : ∀ q, c₁.engine q = c.engine q) : Resolves c c₂ p id := by
  rcases h with hsame | ⟨o, hops⟩
  · exact Or.inl fun q => (hsame q).trans (he q)
  · exact Or.inr ⟨o, hops.after he⟩

theorem resolves_decide (id : Uuid) (o : CommandOutcome) :
    Resolves c (c.decide p id ((c.engine p).resolve id o)).1 p id := by
  cases hp : c.processes.has p with
  | true => exact Or.inr ⟨o, operates_decide c p hp id (m := .resolve id o) rfl⟩
  | false => exact Or.inl (engine_decide_absent c p hp id _)

theorem resolves_takeResponse (conn id : Uuid) (ok : Bool) (result : Json) :
    Resolves c (c.takeResponse p conn id ok result) p id := by
  unfold takeResponse
  dsimp only
  split
  · exact (resolves_decide _ p id _).after fun _ => rfl
  · exact (resolves_decide _ p id _).after fun _ => rfl

/-- A text changes no engine, or it is a reply and resolves the command that it names. -/
theorem takeText_cases (session : SessionState) (raw : String) :
    (∀ q, (c.takeText p session raw).1.engine q = c.engine q) ∨
    ∃ id, Answering session raw id ∧ Resolves c (c.takeText p session raw).1 p id := by
  unfold takeText
  cases ho : Envelope.open? raw session.device.apiKey session.device.sharedSecret with
  | error e => exact Or.inl fun _ => rfl
  | ok opened =>
    obtain ⟨nonce, payload⟩ := opened
    dsimp only
    split
    · exact Or.inl fun _ => rfl
    · have hrefresh := fun q => engine_refresh c q p session.conn
      cases hm : DeviceMessage.ofPayload? payload with
      | none => exact Or.inl hrefresh
      | some message =>
        cases message with
        | stream id stream data => exact Or.inl hrefresh
        | unknown => exact Or.inl hrefresh
        | response name ok result =>
          cases hid : Uuid.parse? name with
          | none =>
            left
            simp only [takeMessage, hid]
            exact hrefresh
          | some id =>
            right
            refine ⟨id, ⟨nonce, payload, name, ok, result, ho, hm, hid⟩, ?_⟩
            simp only [takeMessage, hid]
            exact (resolves_takeResponse _ p session.conn id ok result).after hrefresh

theorem does_receivingTurn (settings : ServerSettings) {session : SessionState} {deadline : Nat}
    (ht : c.tasks.get? t = some (.session p s (.receiving session deadline))) :
    Does c (c.receivingTurn t p s settings session deadline).1 t p := by
  have hnext := fun q => engine_nextIncoming c q s
  have hdrain := fun (c₁ : Cluster) reason q => engine_drain c₁ q t s p session reason
  unfold receivingTurn
  dsimp only
  split
  · rename_i c₁ h
    refine does_of_engine t p fun q => ?_
    split
    · exact (hdrain c₁ _ q).trans (engine_of_eq h hnext q)
    · exact (engine_awaitArrival c₁ q t s deadline).trans (engine_of_eq h hnext q)
  · rename_i c₁ data h
    refine does_of_engine t p fun q => ?_
    split <;> rename_i c₂ hsend
    · exact (engine_of_eq hsend (fun q => engine_transmit c₁ q s _) q).trans
        (engine_of_eq h hnext q)
    · exact (hdrain c₂ none q).trans ((engine_of_eq hsend (fun q => engine_transmit c₁ q s _) q).trans
        (engine_of_eq h hnext q))
  · rename_i c₁ h
    exact does_of_engine t p (engine_of_eq h hnext)
  · rename_i c₁ h
    exact does_of_engine t p fun q => (hdrain c₁ none q).trans (engine_of_eq h hnext q)
  · rename_i c₁ reason h
    exact does_of_engine t p fun q => (hdrain c₁ none q).trans (engine_of_eq h hnext q)
  · rename_i c₁ data h
    have hsame := engine_of_eq h hnext
    exact does_of_engine t p hsame
  · rename_i c₁ raw h
    obtain ⟨socket, rest, hsocket, hinbound, -⟩ := nextIncoming_eq h
    have hreads : Reads c t p s session raw := ⟨deadline, socket, rest, ht, hsocket, hinbound⟩
    -- what the text does comes to the engines behind the turn
    have hdone : ∀ c₂ : Cluster, (∀ q, c₂.engine q = (c₁.takeText p session raw).1.engine q) →
        Does c c₂ t p := by
      intro c₂ he
      rcases takeText_cases c₁ p session raw with hsame | ⟨id, hanswering, hresolves⟩
      · exact does_of_engine t p fun q =>
          (he q).trans ((hsame q).trans (engine_of_eq h hnext q))
      · rcases (hresolves.after (engine_of_eq h hnext)).then he with hsame | ⟨o, hops⟩
        · exact does_of_engine t p hsame
        · exact ⟨_, .answers hreads hanswering, hops⟩
    split <;> rename_i c₂ htext
    · exact hdone _ fun q => by rw [htext]; rfl
    · exact hdone _ fun q => (hdrain _ (some .invalidMessage) q).trans (by rw [htext])

theorem does_sessionTurn {phase : SessionPhase}
    (ht : c.tasks.get? t = some (.session p s phase)) :
    Does c (c.sessionTurn t p s phase).1 t p := by
  unfold sessionTurn
  split
  · rename_i settings socket _ _
    cases phase with
    | opening => exact does_of_engine t p (engine_openingTurn c t p s settings _)
    | refusing reason => exact does_of_engine t p fun q => engine_refusingTurn c q t s p reason
    | handshaking state deadline =>
      exact does_of_engine t p (engine_handshakeTurn c t p s settings _ state deadline)
    | starting device => exact does_of_engine t p (engine_startingTurn c t p s settings device)
    | receiving session deadline => exact does_receivingTurn c t p s settings ht
    | draining session reason deadline => exact does_drainingTurn c t p s ht
  · exact does_of_engine t p fun _ => rfl

end Sessions

/-- One turn, on the engines. -/
theorem turn_does (c : Cluster) (t : TaskId) : ∃ p, Does c (turn c t).1 t p := by
  cases ht : c.tasks.get? t with
  | none =>
    simp only [turn, ht]
    exact ⟨0, does_of_engine t 0 fun _ => rfl⟩
  | some task =>
    simp only [turn, ht]
    cases task with
    | expiry p id deadline => exact ⟨p, does_expiryTurn c t p ht⟩
    | consumer p device => exact ⟨p, does_consumerTurn c t p ht⟩
    | popper key deadline => exact ⟨0, does_of_engine t 0 (engine_popperTurn c t key deadline)⟩
    | caller p id => exact ⟨p, does_of_engine t p (engine_callerTurn c t p id)⟩
    | replier p id job => exact ⟨p, does_of_engine t p (engine_replierTurn c t p id job)⟩
    | call p bridged phase =>
      exact ⟨p, (submits_callTurn c t p bridged phase).does (Or.inl ⟨bridged, phase, ht⟩)⟩
    | worker p device phase =>
      exact ⟨p, (submits_workerTurn c t p device phase).does (Or.inr ⟨device, phase, ht⟩)⟩
    | sender p s device conn phase =>
      cases phase with
      | idle => exact ⟨p, does_idleTurn c t p s ht⟩
      | sending item frames => exact ⟨p, does_sendingTurn c t p s ht⟩
    | heartbeat p conn interval due =>
      exact ⟨p, does_of_engine t p (engine_heartbeatTurn c t p conn interval due)⟩
    | session p s phase => exact ⟨p, does_sessionTurn c t p s ht⟩

/-- What a turn does comes to the engines that the cluster has behind it. -/
theorem engine_give_of_mem {c : Cluster} {t : TaskId} (ht : t ∈ c.ready) (q : Nat) :
    (c.give t).engine q = (turn { c with ready := c.ready.erase t } t).1.engine q := by
  unfold give
  rw [if_pos ht]
  split
  · rename_i h; rw [h]; rfl
  · rename_i h; rw [h]
  · rename_i h; rw [h]; exact engine_finish _ q t

/-- Who ends its turn for good is gone. -/
theorem give_over {c : Cluster} {t : TaskId} (ht : t ∈ c.ready)
    (h : (turn { c with ready := c.ready.erase t } t).2 = .over) :
    (c.give t).tasks.get? t = none := by
  unfold give
  rw [if_pos ht]
  split <;> rename_i hr <;> rw [hr] at h
  · cases h
  · cases h
  · rename_i c₁
    obtain ⟨woken, parked, he⟩ := finish_eq c₁ t
    rw [he]
    exact Table.get?_erase_self _ _

theorem drawn_give_of_mem {c : Cluster} {t : TaskId} (ht : t ∈ c.ready) :
    (c.give t).drawn = (turn { c with ready := c.ready.erase t } t).1.drawn := by
  unfold give
  rw [if_pos ht]
  split <;> rename_i h <;> rw [h]
  exact (still_notify _ _).drawn

/-- Whether a frame can be sent depends on the socket alone. -/
theorem sent_congr {c c' : Cluster} (h : c'.sockets = c.sockets) (s : Nat) (f : Frame) :
    (c'.transmit s f).2 = (c.transmit s f).2 := by
  unfold transmit
  rw [h]
  split <;> rfl

/-- What one turn in the order of a history does to the engines. -/
theorem give_does (c : Cluster) {t : TaskId} (ht : t ∈ c.ready) : ∃ p, Does c (c.give t) t p := by
  obtain ⟨p, ms, hdoing, hops⟩ := turn_does { c with ready := c.ready.erase t } t
  refine ⟨p, ms, ?_, fun q => (engine_give_of_mem ht q).trans (hops q)⟩
  cases hdoing with
  | rests => exact .rests
  | submits task lower upper => exact .submits task lower (drawn_give_of_mem ht ▸ upper)
  | polls task => exact .polls task
  | takes task going pops => exact .takes task going pops
  | returns task free fails =>
    let c₀ : Cluster := { c with ready := c.ready.erase t }
    have hsockets : c.sockets = c₀.sockets := rfl
    exact .returns task free ((sent_congr hsockets _ _).trans fails)
  | expires task due => exact .expires task due
  | answers reads answering => exact .answers reads answering
  | closes task stopped free => exact .closes task stopped free

/-- A sender that could not send is gone. -/
theorem give_returns {c : Cluster} {t : TaskId} (ht : t ∈ c.ready) {p s : Nat}
    {device : DeviceRecord} {conn : Uuid} {item : QueuedCommand} {f : Frame} {rest : List Frame}
    (task : c.tasks.get? t = some (.sender p s device conn (.sending item (f :: rest))))
    (free : c.blocked s = false) (fails : (c.transmit s f).2 = false) :
    (c.give t).tasks.get? t = none := by
  let c₀ : Cluster := { c with ready := c.ready.erase t }
  have htask : c₀.tasks.get? t = some (.sender p s device conn (.sending item (f :: rest))) := task
  have hfree : ¬ c₀.blocked s = true := by simpa using (show c₀.blocked s = false from free)
  have hsockets : c₀.sockets = c.sockets := rfl
  obtain ⟨c₁, hsent⟩ : ∃ c₁, c₀.transmit s f = (c₁, false) :=
    ⟨_, Prod.ext rfl ((sent_congr hsockets s f).trans fails)⟩
  have hturn : turn c₀ t = c₀.sendingTurn t p s device conn item (f :: rest) := by
    rw [turn, htask]
    rfl
  apply give_over ht
  rw [hturn, sendingTurn, if_neg hfree, hsent]

theorem engine_pass (c : Cluster) (ms q : Nat) : (c.pass ms).engine q = c.engine q := by
  by_cases hr : c.ready = []
  · obtain ⟨now, woken, he, -⟩ := pass_eq hr ms
    rw [he]
    rfl
  · rw [pass_of_ready hr]

theorem engine_deafen (c : Cluster) (s q : Nat) : (c.deafen s).engine q = c.engine q :=
  engine_notify _ q _

theorem engine_arrive (c : Cluster) (s : Nat) (m : Incoming) (q : Nat) :
    (c.arrive s m).1.engine q = c.engine q := by
  unfold arrive
  split
  · rfl
  · exact engine_notify _ q _

/-- What comes from outside changes no engine. -/
theorem engine_happen (c : Cluster) {e : Event} (hturn : ∀ t, e ≠ .turn t)
    (hadd : ∀ settings, e ≠ .addProcess settings) (q : Nat) :
    (happen c e).engine q = c.engine q := by
  cases e with
  | turn t => exact absurd rfl (hturn t)
  | addProcess settings => exact absurd rfl (hadd settings)
  | pass ms => exact engine_pass c ms q
  | arrive s m => exact engine_arrive c s m q
  | deafen s => exact engine_deafen c s q
  | resume s => exact engine_notify _ q _
  | vanish s => exact (engine_arrive _ s _ q).trans (engine_deafen c s q)
  | takeFrames s =>
    simp only [happen, takeFrames]
    split <;> rfl
  | pop key timeout =>
    simp only [happen, pop]
    split <;> rfl
  | popNow key =>
    simp only [happen, popNow]
    split <;> rfl
  | _ => rfl

theorem engine_addProcess {c : Cluster} (hn : Numbered c.processes) (settings : ServerSettings)
    (q : Nat) : (c.addProcess settings).engine q = c.engine q := by
  simp only [engine, addProcess, Table.get?_put]
  split
  · rename_i hq
    have hfresh : c.processes.get? q = none := by
      cases hp : c.processes.get? q with
      | none => rfl
      | some x => exact absurd (hn q (by simp [Table.has, hp])) (by omega)
    rw [hfresh]
    rfl
  · rfl

/-- A sender that can take a command takes and marks it. -/
theorem give_takes {c : Cluster} {t : TaskId} (ht : t ∈ c.ready) {p s : Nat}
    {device : DeviceRecord} {conn : Uuid} {item : QueuedCommand}
    (task : c.tasks.get? t = some (.sender p s device conn .idle)) (going : conn ∉ c.stopping)
    (pops : ((c.engine p).popLive device.deviceId).2 = some item) :
    Operates c (c.give t) p [.take t device.deviceId, .mark t item conn] := by
  let c₀ : Cluster := { c with ready := c.ready.erase t }
  have htask : c₀.tasks.get? t = some (.sender p s device conn .idle) := task
  have hturn : turn c₀ t = c₀.idleTurn t p s device conn := by
    rw [turn, htask]
    rfl
  have hops : Operates c₀ (turn c₀ t).1 p [.take t device.deviceId, .mark t item conn] :=
    hturn ▸ operates_idleTurn c₀ t p s going pops
  exact fun q => (engine_give_of_mem ht q).trans (hops q)

/-- An event is the turn of a task that makes some moves on the engine of a process, or there are no
moves. -/
structure Acts (c c' : Cluster) (e : Event) (t : TaskId) (p : Nat) (ms : List Exchange.Move) :
    Prop where
  doing : Doing c c' t p ms
  operates : Operates c c' p ms
  turn : ms = [] ∨ e = .turn t ∧ t ∈ c.ready
  takes : ∀ u q s device conn item, e = .turn u → u ∈ c.ready →
    c.tasks.get? u = some (.sender q s device conn .idle) → conn ∉ c.stopping →
    ((c.engine q).popLive device.deviceId).2 = some item →
    u = t ∧ q = p ∧ ms = [.take t device.deviceId, .mark t item conn]

theorem happen_acts {c : Cluster} (hn : Numbered c.processes) (e : Event) :
    ∃ t p ms, Acts c (happen c e) e t p ms := by
  by_cases hturn : ∃ t, e = .turn t
  · obtain ⟨t, rfl⟩ := hturn
    by_cases ht : t ∈ c.ready
    -- the moves of a sender that takes are named, other turns say what they do by themselves
    · by_cases htakes : ∃ q s device conn item,
          c.tasks.get? t = some (.sender q s device conn .idle) ∧ conn ∉ c.stopping ∧
          ((c.engine q).popLive device.deviceId).2 = some item
      · obtain ⟨q, s, device, conn, item, task, going, pops⟩ := htakes
        refine ⟨t, q, _, .takes task going pops, give_takes ht task going pops,
          Or.inr ⟨rfl, ht⟩, ?_⟩
        rintro u q' s' device' conn' item' he - task' - pops'
        obtain rfl : t = u := Event.turn.inj he
        rw [task] at task'
        cases task'
        rw [pops] at pops'
        cases pops'
        exact ⟨rfl, rfl, rfl⟩
      · obtain ⟨p, ms, hdoing, hops⟩ := give_does c ht
        refine ⟨t, p, ms, hdoing, hops, Or.inr ⟨rfl, ht⟩, ?_⟩
        rintro u q s device conn item he - task going pops
        obtain rfl : t = u := Event.turn.inj he
        exact absurd ⟨q, s, device, conn, item, task, going, pops⟩ htakes
    · refine ⟨t, 0, [], .rests, operates_nil 0 fun q => congrArg (engine · q) (give_of_not_mem ht),
        Or.inl rfl, ?_⟩
      rintro u q s device conn item he hu - - -
      obtain rfl : t = u := Event.turn.inj he
      exact absurd hu ht
  · refine ⟨0, 0, [], .rests, operates_nil 0 ?_, Or.inl rfl, ?_⟩
    · by_cases hadd : ∃ settings, e = .addProcess settings
      · obtain ⟨settings, rfl⟩ := hadd
        exact engine_addProcess hn settings
      · exact engine_happen c (fun t ht => hturn ⟨t, ht⟩) fun x hx => hadd ⟨x, hx⟩
    · rintro u q s device conn item he - - - -
      exact absurd ⟨u, he⟩ hturn

end FleetControl.Cluster
