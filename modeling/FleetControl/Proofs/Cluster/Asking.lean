import FleetControl.Proofs.Bridge.Lists
import FleetControl.Proofs.Cluster.Scheduling
import FleetControl.Proofs.Store.Requests

/-! # What a cluster asks of the store

Every turn of a task asks the store for a few things in order, often depending on what the store
answered before. These requests are all that a turn does to the store. -/
namespace FleetControl.Cluster

section Requests
variable (c : Cluster) (t : TaskId) (p s : Nat)

def markRequests (device : String) (conn : Uuid) : List StoreRequest :=
  match c.processes.get? p with
  | none => []
  | some q => [.setEx (Presence.key device conn) "1" q.presence.ttl]

/-- A record that cannot be renewed is written again. -/
def refreshRequests (conn : Uuid) : List StoreRequest :=
  match c.processes.get? p with
  | none => []
  | some q =>
    match q.presence.held.get? conn with
    | none => []
    | some device =>
      let key := Presence.key device conn
      .expire key q.presence.ttl ::
        match (c.store.expire key q.presence.ttl c.now).2 with
        | .ok false => [.setEx key "1" q.presence.ttl]
        | _ => []

def removeRequests (conn : Uuid) : List StoreRequest :=
  match c.processes.get? p with
  | none => []
  | some q =>
    match q.presence.held.get? conn with
    | none => []
    | some device => [.del (Presence.key device conn)]

def replyRequests (job : Uuid) (reply : BridgeReply) : List StoreRequest :=
  let key := BridgeJob.replyKey job
  .rpush key reply.text ::
    match (c.push key reply.text).2 with
    | .ok () => [.expire key BridgeReply.ttl]
    | .error _ => []

def handleRequests (raw : String) : List StoreRequest :=
  match BridgeJob.dispose raw c.wall with
  | .refuse job reply => c.replyRequests job reply
  | _ => []

def submitRequests (device : String) (command : Command) (blob : Option ByteArray)
    (timeout : Nat) : List StoreRequest :=
  [.rpush (BridgeJob.listKey device)
    (BridgeJob.make c.freshId.2 device command blob timeout c.wall).text]

/-- A program asks the store for counts only; its commands are sent in turns of their own. -/
def carryRequests (c : Cluster) : Program (Outcome RemoteAnswer) → List StoreRequest
  | .finish _ => []
  | .countAlive device next =>
    .countPrefix (Presence.keyStem device) ::
      carryRequests (c.countAlive device).1 (next (c.countAlive device).2)
  | .log entry next => carryRequests (c.write [entry]) next
  | .ssh run next => carryRequests c (next (.error ((run.refusal? false).getD .missing)))
  | .relay _ _ next => carryRequests c (next (.error (.transport "no such transport")))
  | .send _ _ _ _ _ => []

def callRequests : CallPhase → List StoreRequest
  | .running program => c.carryRequests program
  | .awaitingLocal id next =>
    match c.awaitOutcome t p id with
    | (c, some outcome) => c.carryRequests (next outcome)
    | (_, none) => []
  | .submitting device command blob timeout next =>
    if c.holds p device t then
      c.submitRequests device command blob timeout ++
        match c.submit p device command blob timeout with
        | (c, .error e) => c.carryRequests (next (.error e))
        | (_, .ok _) => []
    else []
  | .awaitingReply job device command timeout deadline next =>
    .tryPop (BridgeJob.replyKey job) ::
      match c.awaitPop t (BridgeJob.replyKey job) deadline with
      | (_, none) => []
      | (c, some result) =>
        let outcome := match result with
          | .ok (some raw) => BridgeReply.outcomeOf raw device command timeout
          | .ok none => .error (.timeout device command (timeout / 1000))
          | .error e => .error e
        (c.release p device).carryRequests (next outcome)

def workerRequests (device : String) : WorkerPhase → List StoreRequest
  | .polling deadline =>
    .tryPop (BridgeJob.listKey device) ::
      match c.awaitPop t (BridgeJob.listKey device) deadline with
      | (c, some (.ok (some raw))) => c.handleRequests raw
      | _ => []
  | _ => []

def replierRequests (id job : Uuid) : List StoreRequest :=
  match c.awaitOutcome t p id with
  | (c, some outcome) => c.replyRequests job (.ofOutcome outcome)
  | (_, none) => []

def heartbeatRequests (conn : Uuid) (interval due : Nat) : List StoreRequest :=
  if interval ≠ 0 ∧ due ≤ c.now then c.refreshRequests p conn else []

/-- A text that is accepted refreshes the presence of its connection. -/
def textRequests (session : SessionState) (raw : String) : List StoreRequest :=
  match Envelope.open? raw session.device.apiKey session.device.sharedSecret with
  | .error _ => []
  | .ok (nonce, _) =>
    match session.nonces.check (Int64.ofInt nonce) (Int64.ofNat c.wallSeconds) with
    | .error _ => []
    | .ok _ => c.refreshRequests p session.conn

def cleanUpRequests (session : SessionState) (reason : Option CloseReason) : List StoreRequest :=
  ((c.hangUp p s reason).1.failConnection p session.conn).1.removeRequests p session.conn

def phaseRequests : SessionPhase → List StoreRequest
  | .starting device =>
    let (c, conn) := c.freshId
    ((c.register p device.deviceId conn).1.sync p device.deviceId).1.markRequests p
      device.deviceId conn
  | .receiving session _ =>
    match c.nextIncoming s with
    | (c, some (.text raw)) => c.textRequests p session raw
    | _ => []
  | .draining session reason deadline =>
    if c.tasks.has session.sender ∧ c.now < deadline then []
    else
      let c := (c.remove session.sender).remove session.heartbeat
      if reason.isSome ∧ c.blocked s then [] else c.cleanUpRequests p s session reason
  | _ => []

def sessionRequests (phase : SessionPhase) : List StoreRequest :=
  match c.settingsOf? p, c.sockets.get? s with
  | some _, some _ => c.phaseRequests p s phase
  | _, _ => []

/-- What a task asks of the store in its turn. -/
def turnRequests : List StoreRequest :=
  match c.tasks.get? t with
  | some (.replier p id job) => c.replierRequests t p id job
  | some (.call p _ phase) => c.callRequests t p phase
  | some (.worker _ device phase) => c.workerRequests t device phase
  | some (.session p s phase) => c.sessionRequests p s phase
  | some (.heartbeat p conn interval due) => c.heartbeatRequests p conn interval due
  | _ => []

end Requests

/-- The requests, each meant for its key, are all that happened to the store. -/
structure Asks (now : Nat) (s : SharedStore) (rs : List StoreRequest)
    (s' : SharedStore) : Prop where
  store : s' = s.serveAll now rs
  meant : ∀ r ∈ rs, r.Meant

section Asks
variable {now now' : Nat} {s s₁ s₂ : SharedStore} {rs rs' : List StoreRequest}

theorem asks_nothing (h : s₁ = s) : Asks now s [] s₁ := ⟨h, fun _ hr => nomatch hr⟩

theorem asks_one {r : StoreRequest} (h : s₁ = (s.serve now r).1) (hr : r.Meant) :
    Asks now s [r] s₁ := ⟨h, List.forall_mem_singleton.mpr hr⟩

theorem Asks.append (h : Asks now s rs s₁) (hnow : now' = now) (h' : Asks now' s₁ rs' s₂) :
    Asks now s (rs ++ rs') s₂ := by
  subst hnow
  refine ⟨?_, List.forall_mem_append.mpr ⟨h.meant, h'.meant⟩⟩
  rw [SharedStore.serveAll_append, ← h.store]
  exact h'.store

theorem Asks.onward (h : Asks now s rs s₁) (hstore : s₂ = s₁) : Asks now s rs s₂ :=
  ⟨hstore.trans h.store, h.meant⟩

theorem Asks.behind (hstore : s₁ = s) (hnow : now' = now) (h : Asks now' s₁ rs s₂) :
    Asks now s rs s₂ := by
  subst hstore hnow
  exact h

end Asks

section Operations
variable (c : Cluster) (t : TaskId) (p s : Nat)

theorem asks_markAlive (device : String) (conn : Uuid) :
    Asks c.now c.store (c.markRequests p device conn) (c.markAlive p device conn).1.store := by
  unfold markRequests markAlive
  cases c.processes.get? p with
  | none => exact asks_nothing rfl
  | some q =>
    refine asks_one ?_ (.setEx device conn q.presence.ttl)
    unfold Presence.markAlive SharedStore.serve SharedStore.failure?
    dsimp only
    split <;> rename_i hs <;> rw [hs] <;> rfl

/-- A refresh as what it asks of the store. -/
theorem asks_renew (q : Presence) (device : String) (conn : Uuid) (s : SharedStore) (now : Nat)
    (hheld : q.held.get? conn = some device) :
    Asks now s (.expire (Presence.key device conn) q.ttl ::
      match (s.expire (Presence.key device conn) q.ttl now).2 with
      | .ok false => [.setEx (Presence.key device conn) "1" q.ttl]
      | _ => []) (q.refresh s conn now).1 := by
  have hexpire : Asks now s [.expire (Presence.key device conn) q.ttl]
      (s.expire (Presence.key device conn) q.ttl now).1 :=
    asks_one rfl (.renew device conn q.ttl)
  unfold Presence.refresh
  rw [hheld]
  dsimp only
  rcases hr : s.expire (Presence.key device conn) q.ttl now with ⟨s₁, e | _ | _⟩ <;>
    rw [hr] at hexpire
  · exact hexpire
  · exact hexpire.append rfl (asks_one rfl (.setEx device conn q.ttl))
  · exact hexpire

theorem asks_refresh (conn : Uuid) :
    Asks c.now c.store (c.refreshRequests p conn) (c.refresh p conn).1.store := by
  unfold refreshRequests refresh
  cases c.processes.get? p with
  | none => exact asks_nothing rfl
  | some q =>
    dsimp only
    cases hheld : q.presence.held.get? conn with
    | none =>
      refine asks_nothing ?_
      rw [Presence.refresh, hheld]
    | some device => exact asks_renew q.presence device conn c.store c.now hheld

theorem asks_dropPresence (conn : Uuid) (now : Nat) :
    Asks now c.store (c.removeRequests p conn) (c.dropPresence p conn).1.store := by
  unfold removeRequests dropPresence
  cases c.processes.get? p with
  | none => exact asks_nothing rfl
  | some q =>
    unfold Presence.remove
    dsimp only
    cases q.presence.held.get? conn with
    | none => exact asks_nothing rfl
    | some device => exact asks_one rfl (.del device conn)

theorem asks_countAlive (device : String) :
    Asks c.now c.store [.countPrefix (Presence.keyStem device)] (c.countAlive device).1.store :=
  asks_one rfl (.countPrefix device)

theorem asks_push {key : String} (hkey : Store.HoldsList key) (value : String) :
    Asks c.now c.store [.rpush key value] (c.push key value).1.store := by
  refine asks_one ?_ (.rpush hkey value)
  unfold push SharedStore.serve SharedStore.failure?
  dsimp only
  split
  · exact store_notify _ _
  · rfl

theorem asks_awaitPop {key : String} (hkey : Store.HoldsList key) (deadline : Nat) :
    Asks c.now c.store [.tryPop key] (c.awaitPop t key deadline).1.store := by
  have hpop : Asks c.now c.store [.tryPop key] (c.tryPop key).1.store :=
    asks_one rfl (.tryPop hkey)
  unfold awaitPop
  split <;> rename_i h <;> rw [h] at hpop
  · split
    · exact hpop
    · exact hpop.onward (store_park _ t .pushed)
  · exact hpop

theorem asks_pushReply (job : Uuid) (reply : BridgeReply) :
    Asks c.now c.store (c.replyRequests job reply) (c.pushReply job reply).store := by
  have hpush := asks_push c (Or.inr ⟨job, rfl⟩) reply.text
  have hnow := c.now_push (BridgeJob.replyKey job) reply.text
  unfold replyRequests pushReply
  dsimp only
  rcases hr : c.push (BridgeJob.replyKey job) reply.text with ⟨c₁, e | ⟨⟩⟩ <;>
    rw [hr] at hpush hnow
  · exact hpush
  · exact hpush.append hnow (asks_one rfl (.limit job BridgeReply.ttl))

theorem asks_handleJob (device raw : String) :
    Asks c.now c.store (c.handleRequests raw) (c.handleJob p device raw).store := by
  unfold handleRequests handleJob
  cases BridgeJob.dispose raw c.wall with
  | drop => exact asks_nothing rfl
  | refuse job reply => exact asks_pushReply c job reply
  | accept job command blob timeout => exact asks_nothing (store_enqueue c p device _ _ _)

theorem asks_submit (device : String) (command : Command) (blob : Option ByteArray)
    (timeout : Nat) : Asks c.now c.store (c.submitRequests device command blob timeout)
      (c.submit p device command blob timeout).1.store := by
  have hpush : Asks c.now c.store (c.submitRequests device command blob timeout) _ :=
    asks_push c.freshId.1 (Or.inl ⟨device, rfl⟩)
      (BridgeJob.make c.freshId.2 device command blob timeout c.freshId.1.wall).text
  unfold submit
  dsimp only
  split <;> rename_i h <;> rw [h] at hpush
  · exact hpush.onward (store_release _ p device)
  · split
    · exact hpush.onward (store_release _ p device)
    · exact hpush

theorem asks_carry (bridged : Bool) (program : Program (Outcome RemoteAnswer)) :
    Asks c.now c.store (c.carryRequests program) (c.carry t p bridged program).1.store := by
  induction program generalizing c with
  | finish answer => exact asks_nothing rfl
  | countAlive device next ih =>
    exact (asks_countAlive c device).append rfl (ih _ (c.countAlive device).1)
  | log entry next ih => exact ih (c.write [entry])
  | ssh run next ih => exact ih _ c
  | relay a b next ih => exact ih _ c
  | send device command blob timeout next ih =>
    unfold carry carryRequests
    split
    · exact asks_nothing (store_enqueue c p device command blob timeout)
    · exact asks_nothing (store_acquire c p t device)

end Operations

section Turns
variable (c : Cluster) (t : TaskId) (p s : Nat)

theorem store_idleTurn (device : DeviceRecord) (conn : Uuid) :
    (c.idleTurn t p s device conn).1.store = c.store := by
  have hpop : (c.popLive p device.deviceId).1.store = c.store := rfl
  unfold idleTurn
  split
  · rfl
  · split <;> rename_i h <;> rw [h] at hpop
    · simpa using hpop
    · dsimp only
      split
      · unfold dispatch
        split <;> exact hpop
      · exact hpop

theorem store_sendingTurn (device : DeviceRecord) (conn : Uuid) (item : QueuedCommand)
    (frames : List Frame) : (c.sendingTurn t p s device conn item frames).1.store = c.store := by
  cases frames with
  | nil => rfl
  | cons f rest =>
    have hsend := store_transmit c s f
    simp only [sendingTurn]
    split
    · exact store_park c t _
    · split <;> rename_i h <;> rw [h] at hsend
      · exact hsend
      · exact (store_requeueFront _ p item).trans hsend

theorem store_openingTurn (settings : ServerSettings) (address : Address) :
    (c.openingTurn t p s settings address).1.store = c.store := by
  unfold openingTurn
  dsimp only
  split
  · rfl
  · split
    · rfl
    · split <;> rfl

theorem store_handshakeTurn (settings : ServerSettings) (address : Address)
    (state : HandshakeState) (deadline : Nat) :
    (c.handshakeTurn t p s settings address state deadline).1.store = c.store := by
  have hnext := store_nextIncoming c s
  unfold handshakeTurn
  split <;> rename_i h <;> rw [h] at hnext
  · split
    · exact (store_refuseTurn _ p t s address _).trans hnext
    · exact (store_awaitArrival _ t s deadline).trans hnext
  · rename_i c₁ data
    have hsend := store_transmit c₁ s (.pong data)
    split <;> rename_i ht <;> rw [ht] at hsend
    · exact hsend.trans hnext
    · exact ((store_hangUp _ p s none).trans hsend).trans hnext
  · rename_i c₁ incoming _
    split
    · exact hnext
    · exact (store_refuseTurn _ p t s address _).trans hnext
    · rename_i text _
      have hsend := store_transmit c₁.useChallenge s (.text text)
      split <;> rename_i ht <;> rw [ht] at hsend
      · exact hsend.trans hnext
      · exact ((store_hangUp _ p s none).trans hsend).trans hnext
    · rename_i text _
      have hsend := store_transmit c₁ s (.text text)
      split <;> rename_i ht <;> rw [ht] at hsend
      · exact hsend.trans hnext
      · exact ((store_hangUp _ p s none).trans hsend).trans hnext

theorem store_consumerTurn (device : String) :
    (c.consumerTurn t p device).1.store = c.store := by
  have hpop : (c.popLive p device).1.store = c.store := rfl
  unfold consumerTurn
  split <;> rename_i h <;> rw [h] at hpop
  · exact hpop
  · exact (store_park _ t _).trans hpop

theorem store_callerTurn (id : Uuid) : (c.callerTurn t p id).1.store = c.store := by
  have hwait := store_awaitOutcome c p t id
  unfold callerTurn
  split <;> rename_i h <;> rw [h] at hwait <;> exact hwait

theorem now_awaitOutcome (id : Uuid) : (c.awaitOutcome t p id).1.now = c.now := by
  unfold awaitOutcome
  split
  · rfl
  · obtain ⟨parked, h⟩ := c.park_eq t (.decided p id)
    rw [h]

theorem now_awaitPop (key : String) (deadline : Nat) :
    (c.awaitPop t key deadline).1.now = c.now := by
  have hpop : (c.tryPop key).1.now = c.now := rfl
  unfold awaitPop
  split <;> rename_i c₁ h <;> rw [h] at hpop
  · split
    · exact hpop
    · obtain ⟨parked, hpark⟩ := c₁.park_eq t .pushed
      rw [hpark]
      exact hpop
  · exact hpop

theorem now_sync (device : String) : (c.sync p device).1.now = c.now := by
  unfold sync
  split
  · rfl
  · dsimp only
    split <;> rfl

theorem now_nextIncoming : (c.nextIncoming s).1.now = c.now := by
  unfold nextIncoming
  split
  · rfl
  · split <;> rfl

theorem asks_replierTurn (id job : Uuid) :
    Asks c.now c.store (c.replierRequests t p id job) (c.replierTurn t p id job).1.store := by
  have hstore := store_awaitOutcome c p t id
  have hnow := now_awaitOutcome c t p id
  unfold replierRequests replierTurn
  rcases hr : c.awaitOutcome t p id with ⟨c₁, _ | outcome⟩ <;> rw [hr] at hstore hnow
  · exact asks_nothing hstore
  · exact (asks_pushReply c₁ job _).behind hstore hnow

theorem asks_callTurn (bridged : Bool) (phase : CallPhase) :
    Asks c.now c.store (c.callRequests t p phase) (c.callTurn t p bridged phase).1.store := by
  cases phase with
  | running program => exact asks_carry c t p bridged program
  | awaitingLocal id next =>
    have hstore := store_awaitOutcome c p t id
    have hnow := now_awaitOutcome c t p id
    unfold callRequests callTurn
    dsimp only
    rcases hr : c.awaitOutcome t p id with ⟨c₁, _ | outcome⟩ <;> rw [hr] at hstore hnow
    · exact asks_nothing hstore
    · exact (asks_carry c₁ t p bridged (next outcome)).behind hstore hnow
  | submitting device command blob timeout next =>
    have hsubmit := asks_submit c p device command blob timeout
    have hnow := now_submit c p device command blob timeout
    unfold callRequests callTurn
    dsimp only
    split
    · rcases hr : c.submit p device command blob timeout with ⟨c₁, e | job⟩ <;>
        rw [hr] at hsubmit hnow
      · exact hsubmit.append hnow (asks_carry c₁ t p bridged _)
      · exact hsubmit.append rfl (asks_nothing rfl)
    · exact asks_nothing rfl
  | awaitingReply job device command timeout deadline next =>
    have hpop := asks_awaitPop c t (Or.inr ⟨job, rfl⟩) deadline
    have hnow := now_awaitPop c t (BridgeJob.replyKey job) deadline
    unfold callRequests callTurn
    dsimp only
    rcases hr : c.awaitPop t (BridgeJob.replyKey job) deadline with ⟨c₁, _ | result⟩ <;>
      rw [hr] at hpop hnow
    · exact hpop
    · exact (hpop.onward (store_release c₁ p device)).append ((now_release c₁ p device).trans hnow)
        (asks_carry (c₁.release p device) t p bridged _)

theorem asks_workerTurn (device : String) (phase : WorkerPhase) :
    Asks c.now c.store (c.workerRequests t device phase)
      (c.workerTurn t p device phase).1.store := by
  cases phase with
  | ready => exact asks_nothing rfl
  | polling deadline =>
    have hpop := asks_awaitPop c t (Or.inl ⟨device, rfl⟩) deadline
    have hnow := now_awaitPop c t (BridgeJob.listKey device) deadline
    unfold workerRequests workerTurn
    dsimp only
    rcases hr : c.awaitPop t (BridgeJob.listKey device) deadline with
      ⟨c₁, _ | e | _ | raw⟩ <;> rw [hr] at hpop hnow
    · exact hpop
    · exact hpop
    · exact hpop
    · exact hpop.append hnow (asks_handleJob c₁ p device raw)
  | pausing due =>
    refine asks_nothing ?_
    unfold workerTurn
    dsimp only
    split <;> rfl

theorem asks_heartbeatTurn (conn : Uuid) (interval due : Nat) :
    Asks c.now c.store (c.heartbeatRequests p conn interval due)
      (c.heartbeatTurn t p conn interval due).1.store := by
  unfold heartbeatRequests heartbeatTurn
  by_cases hinterval : interval = 0
  · rw [if_neg (fun h => h.1 hinterval), if_pos hinterval]
    exact asks_nothing rfl
  · rw [if_neg hinterval]
    by_cases hdue : due ≤ c.now
    · rw [if_pos ⟨hinterval, hdue⟩, if_pos hdue]
      exact asks_refresh c p conn
    · rw [if_neg (fun h => hdue h.2), if_neg hdue]
      exact asks_nothing rfl

theorem asks_startingTurn (settings : ServerSettings) (device : DeviceRecord) :
    Asks c.now c.store (c.phaseRequests p s (.starting device))
      (c.startingTurn t p s settings device).1.store := by
  let joined := ((c.freshId.1.register p device.deviceId c.freshId.2).1.sync p device.deviceId).1
  have hstore : joined.store = c.store := store_sync _ p device.deviceId
  have hnow : joined.now = c.now := now_sync _ p device.deviceId
  have hmark := (asks_markAlive joined p device.deviceId c.freshId.2).behind hstore hnow
  unfold startingTurn
  dsimp only
  split <;> rename_i c₁ _ h <;> rw [h] at hmark
  · refine hmark.onward ?_
    exact (store_leave _ p device.deviceId _).trans (store_hangUp c₁ p s _)
  · exact hmark

theorem asks_takeText (session : SessionState) (raw : String) :
    Asks c.now c.store (c.textRequests p session raw) (c.takeText p session raw).1.store := by
  unfold textRequests takeText
  cases Envelope.open? raw session.device.apiKey session.device.sharedSecret with
  | error e => exact asks_nothing rfl
  | ok opened =>
    dsimp only
    cases session.nonces.check (Int64.ofInt opened.1) (Int64.ofNat c.wallSeconds) with
    | error e => exact asks_nothing rfl
    | ok nonces =>
      dsimp only
      split
      · exact asks_refresh c p session.conn
      · exact (asks_refresh c p session.conn).onward (store_takeMessage _ p _ _ _)

theorem asks_receivingTurn (settings : ServerSettings) (session : SessionState) (deadline : Nat) :
    Asks c.now c.store (c.phaseRequests p s (.receiving session deadline))
      (c.receivingTurn t p s settings session deadline).1.store := by
  have hstore := store_nextIncoming c s
  have hnow := now_nextIncoming c s
  have hdrain : ∀ {c₁ : Cluster} {rs : List StoreRequest} (reason : Option CloseReason),
      Asks c.now c.store rs c₁.store →
      Asks c.now c.store rs (c₁.drain t p s session reason).1.store := fun reason h =>
    h.onward (store_drain _ p t s session reason)
  unfold phaseRequests receivingTurn
  dsimp only
  rcases hr : c.nextIncoming s with ⟨c₁, _ | m⟩ <;> rw [hr] at hstore hnow
  · dsimp only
    split
    · exact hdrain _ (asks_nothing hstore)
    · exact asks_nothing ((store_awaitArrival _ t s deadline).trans hstore)
  · cases m with
    | ping data =>
      have hsend := store_transmit c₁ s (.pong data)
      dsimp only
      split <;> rename_i ht <;> rw [ht] at hsend
      · exact asks_nothing (hsend.trans hstore)
      · exact hdrain _ (asks_nothing (hsend.trans hstore))
    | pong => exact asks_nothing hstore
    | closed => exact hdrain _ (asks_nothing hstore)
    | failed reason => exact hdrain _ (asks_nothing hstore)
    | binary data => exact asks_nothing hstore
    | text raw =>
      have htext := (asks_takeText c₁ p session raw).behind hstore hnow
      dsimp only
      split <;> rename_i ht <;> rw [ht] at htext
      · exact htext
      · exact hdrain _ htext

theorem asks_cleanUp (session : SessionState) (reason : Option CloseReason) (now : Nat) :
    Asks now c.store (c.cleanUpRequests p s session reason)
      (c.cleanUp p s session reason).1.store := by
  let failed := ((c.hangUp p s reason).1.failConnection p session.conn).1
  have hfailed : failed.store = c.store :=
    (store_failConnection _ p session.conn).trans (store_hangUp c p s reason)
  let cleared : Cluster := { failed with
    bodies := failed.bodies.erase session.conn
    stopping := failed.stopping.filter (· ≠ session.conn) }
  have hdropped := (asks_dropPresence cleared p session.conn now).behind hfailed rfl
  exact hdropped.onward (store_leave _ p _ _)

theorem asks_drainingTurn (session : SessionState) (reason : Option CloseReason)
    (deadline : Nat) : Asks c.now c.store (c.phaseRequests p s (.draining session reason deadline))
      (c.drainingTurn t p s session reason deadline).1.store := by
  unfold phaseRequests drainingTurn
  dsimp only
  split
  · exact asks_nothing (store_park c t _)
  · split
    · exact asks_nothing (store_park _ t _)
    · exact asks_cleanUp ((c.remove session.sender).remove session.heartbeat) p s session reason
        c.now

theorem asks_sessionTurn (phase : SessionPhase) :
    Asks c.now c.store (c.sessionRequests p s phase) (c.sessionTurn t p s phase).1.store := by
  unfold sessionRequests sessionTurn
  cases c.settingsOf? p with
  | none => exact asks_nothing rfl
  | some settings =>
    cases c.sockets.get? s with
    | none => exact asks_nothing rfl
    | some socket =>
      cases phase with
      | opening => exact asks_nothing (store_openingTurn c t p s _ _)
      | refusing reason => exact asks_nothing (store_refusingTurn c p t s reason)
      | handshaking state deadline =>
        exact asks_nothing (store_handshakeTurn c t p s _ _ state deadline)
      | starting device => exact asks_startingTurn c t p s settings device
      | receiving session deadline => exact asks_receivingTurn c t p s settings session deadline
      | draining session reason deadline => exact asks_drainingTurn c t p s session reason deadline

theorem asks_turn (h : ∀ key deadline, c.tasks.get? t ≠ some (.popper key deadline)) :
    Asks c.now c.store (c.turnRequests t) (turn c t).1.store := by
  unfold turnRequests turn
  rcases htask : c.tasks.get? t with _ | task
  · exact asks_nothing rfl
  · cases task with
    | expiry p id deadline =>
      refine asks_nothing ?_
      dsimp only [expiryTurn]
      split
      · exact store_decide c _ _ _
      · rfl
    | consumer p device => exact asks_nothing (store_consumerTurn c t p device)
    | popper key deadline => exact absurd htask (h key deadline)
    | caller p id => exact asks_nothing (store_callerTurn c t p id)
    | replier p id job => exact asks_replierTurn c t p id job
    | call p bridged phase => exact asks_callTurn c t p bridged phase
    | worker p device phase => exact asks_workerTurn c t p device phase
    | session p s phase => exact asks_sessionTurn c t p s phase
    | sender p s device conn phase =>
      cases phase with
      | idle => exact asks_nothing (store_idleTurn c t p s device conn)
      | sending item rest => exact asks_nothing (store_sendingTurn c t p s device conn item rest)
    | heartbeat p conn interval due => exact asks_heartbeatTurn c t p conn interval due

theorem store_conclude (r : Cluster × Turn) : (conclude t r).store = r.1.store := by
  obtain ⟨c', ends⟩ := r
  cases ends with
  | again => rfl
  | waits => rfl
  | _ => exact store_finish c' t

end Turns

def giveRequests (c : Cluster) (t : TaskId) : List StoreRequest :=
  if t ∈ c.ready then turnRequests { c with ready := c.ready.erase t } t else []

theorem asks_give {c : Cluster} {t : TaskId}
    (h : ∀ key deadline, c.tasks.get? t ≠ some (.popper key deadline)) :
    Asks c.now c.store (c.giveRequests t) (c.give t).store := by
  unfold giveRequests
  by_cases ht : t ∈ c.ready
  · rw [if_pos ht, give_of_mem ht]
    exact (asks_turn { c with ready := c.ready.erase t } t h).onward (store_conclude t _)
  · rw [if_neg ht, give_of_not_mem ht]
    exact asks_nothing rfl

end FleetControl.Cluster
