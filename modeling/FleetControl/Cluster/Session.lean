import FleetControl.Cluster.Delivery

/-!
# Sessions

One device connection from the accepted socket to the end: limits, handshake, registration, the
receiving of signed messages and reply bodies, and the cleanup. Everything received while a
session runs is verified under the device's own key and secret before it has any effect.
-/
namespace FleetControl.Cluster

/-- How long cleanup waits for the sender to stop, in milliseconds. -/
def senderGrace : Nat := 5000

/-- The settings of a process. -/
def settingsOf? (c : Cluster) (p : Nat) : Option ServerSettings :=
  (c.processes.get? p).map (·.settings)

/-- Ends the session of a socket, with a close frame if there is a reason. -/
def hangUp (c : Cluster) (p s : Nat) (reason : Option CloseReason) : Cluster × Turn :=
  let (c, closed) := match reason with
    | some r => c.transmit s (.close r)
    | none => (c, false)
  ((c.updateProcess p fun q => { q with sockets := q.sockets - 1 }).updateSocket s
    (·.finish closed), .over)

/-- Goes on to the next phase of a session. -/
def enter (c : Cluster) (t : TaskId) (p s : Nat) (phase : SessionPhase) : Cluster × Turn :=
  ((c.unwait t).setTask t (.session p s phase), .again)

/-- Waits for the next arrival on a socket, until a deadline. -/
def awaitArrival (c : Cluster) (t : TaskId) (s deadline : Nat) : Cluster × Turn :=
  ((c.park t (.arrived s)).keepTimer t deadline, .waits)

/-- An accepted socket takes a place; beyond the limit, or from an address that has failed too
often, it is turned away and keeps its place until it is closed. -/
def openingTurn (c : Cluster) (t : TaskId) (p s : Nat) (settings : ServerSettings)
    (address : Address) : Cluster × Turn :=
  let c := c.updateProcess p fun q => { q with sockets := q.sockets + 1 }
  match c.processes.get? p with
  | none => (c, .over)
  | some q =>
    if q.sockets > settings.maxConnections then c.enter t p s (.refusing .busy)
    else
      let (limiter, allowed) := q.limiter.allows address c.now
      let c := c.updateProcess p fun q => { q with limiter := limiter }
      if allowed then
        c.enter t p s
          (.handshaking (Handshake.accept .connected) (c.now + settings.helloTimeout))
      else c.enter t p s (.refusing .rateLimited)

/-- A handshake has failed. Where the socket still works, the failure counts against the address
and the device is told. -/
def refuseTurn (c : Cluster) (t : TaskId) (p s : Nat) (address : Address) :
    ChannelError → Cluster × Turn
  | .transport _ => c.hangUp p s none
  | _ =>
    (c.updateProcess p fun q =>
      { q with limiter := q.limiter.recordFailure address c.now }).enter t p s
      (.refusing .handshakeFailed)

/-- Closes a socket that is turned away once the device takes data. -/
def refusingTurn (c : Cluster) (t : TaskId) (p s : Nat) (reason : CloseReason) : Cluster × Turn :=
  if c.blocked s then (c.park t (.writable s), .waits) else c.hangUp p s (some reason)

/-- One arrival during the handshake. -/
def handshakeTurn (c : Cluster) (t : TaskId) (p s : Nat) (settings : ServerSettings)
    (address : Address) (state : HandshakeState) (deadline : Nat) : Cluster × Turn :=
  match c.nextIncoming s with
  | (c, none) =>
    if deadline ≤ c.now then
      c.refuseTurn t p s address (Handshake.onSilence state settings.helloTimeout).2
    else c.awaitArrival t s deadline
  | (c, some (.ping data)) =>
    match c.transmit s (.pong data) with
    | (c, true) => (c, .again)
    | (c, false) => c.hangUp p s none
  | (c, some incoming) =>
    match Handshake.onIncoming c.directory c.nextChallenge state incoming with
    | (_, .skip) => (c, .again)
    | (_, .refuse e) => c.refuseTurn t p s address e
    | (state, .proceed text) =>
      match c.useChallenge.transmit s (.text text) with
      | (c, true) => c.enter t p s (.handshaking state (c.now + settings.helloTimeout))
      | (c, false) => c.hangUp p s none
    | (_, .accepted device text) =>
      match c.transmit s (.text text) with
      | (c, true) => c.enter t p s (.starting device)
      | (c, false) => c.hangUp p s none

/-- Drops a connection and the bridge worker that it was the last one for. -/
def leave (c : Cluster) (p : Nat) (device : String) (conn : Uuid) : Cluster :=
  ((c.unregister p device conn).1.sync p device).1

/-- An authenticated connection is registered and gets its sender and heartbeat. Presence goes
last, so that a visible record always has a local route behind it. -/
def startingTurn (c : Cluster) (t : TaskId) (p s : Nat) (settings : ServerSettings)
    (device : DeviceRecord) : Cluster × Turn :=
  let (c, conn) := c.freshId
  let (c, _) := (c.register p device.deviceId conn).1.sync p device.deviceId
  match c.markAlive p device.deviceId conn with
  | (c, .error _) =>
    let (c, turn) := c.hangUp p s (some .presenceUnavailable)
    (c.leave p device.deviceId conn, turn)
  | (c, .ok ()) =>
    let interval := settings.presenceRefresh
    let (c, heartbeat) := c.spawn (.heartbeat p conn interval (c.now + interval))
    let (c, sender) := c.spawn (.sender p s device conn .idle)
    c.enter t p s (.receiving ⟨device, conn, { policy := settings.noncePolicy }, sender, heartbeat⟩
      (c.now + settings.idleTimeout))

/-- Adds a binary frame to the body that it belongs to. -/
def takeBinary (c : Cluster) (p : Nat) (conn : Uuid) (data : ByteArray) : Cluster :=
  c.setBodies conn ((c.bodiesOf conn).append data (c.engine p).isPending).1

/-- A device's answer decides the command that it names, with the body collected for it. -/
def takeResponse (c : Cluster) (p : Nat) (conn id : Uuid) (ok : Bool) (result : Json) : Cluster :=
  let (bodies, body) := (c.bodiesOf conn).take id (c.engine p).isPending
  let c := c.setBodies conn bodies
  match body with
  | .ok body => (c.resolveResponse p id ok result body).1
  | .error e => (c.resolve p id (.error e)).1

/-- Carries out a verified message of a device. -/
def takeMessage (c : Cluster) (p : Nat) (device : String) (conn : Uuid) : DeviceMessage → Cluster
  | .response id ok result =>
    match Uuid.parse? id with
    | some id => c.takeResponse p conn id ok result
    | none => c
  | .stream _ stream data => c.write (LogEntry.lines device stream data)
  | .unknown => c

/-- Takes a text frame: an envelope that verifies and has an acceptable nonce refreshes the
presence of the connection and is carried out. The nonces go on with it, or the connection must
close. -/
def takeText (c : Cluster) (p : Nat) (session : SessionState) (raw : String) :
    Cluster × Option NonceTracker :=
  match Envelope.open? raw session.device.apiKey session.device.sharedSecret with
  | .error _ => (c, none)
  | .ok (nonce, payload) =>
    match session.nonces.check (Int64.ofInt nonce) (Int64.ofNat c.wallSeconds) with
    | .error _ => (c, none)
    | .ok nonces =>
      let (c, _) := c.refresh p session.conn
      match DeviceMessage.ofPayload? payload with
      | none => (c, none)
      | some message => (c.takeMessage p session.device.deviceId session.conn message, some nonces)

/-- A session is over: its sender is told to stop. -/
def drain (c : Cluster) (t : TaskId) (p s : Nat) (session : SessionState)
    (reason : Option CloseReason) : Cluster × Turn :=
  let c := { c with stopping := c.stopping ++ [session.conn] }
  (c.notify (.stopped session.conn)).enter t p s
    (.draining session reason (c.now + senderGrace))

/-- One arrival on an authenticated connection. -/
def receivingTurn (c : Cluster) (t : TaskId) (p s : Nat) (settings : ServerSettings)
    (session : SessionState) (deadline : Nat) : Cluster × Turn :=
  let next (c : Cluster) (session : SessionState) : Cluster × Turn :=
    c.enter t p s (.receiving session (c.now + settings.idleTimeout))
  match c.nextIncoming s with
  | (c, none) =>
    if deadline ≤ c.now then c.drain t p s session (some .idle) else c.awaitArrival t s deadline
  | (c, some (.ping data)) =>
    match c.transmit s (.pong data) with
    | (c, true) => (c, .again)
    | (c, false) => c.drain t p s session none
  | (c, some .pong) => (c, .again)
  | (c, some .closed) => c.drain t p s session none
  | (c, some (.failed _)) => c.drain t p s session none
  | (c, some (.binary data)) => next (c.takeBinary p session.conn data) session
  | (c, some (.text raw)) =>
    match c.takeText p session raw with
    | (c, some nonces) => next c { session with nonces := nonces }
    | (c, none) => c.drain t p s session (some .invalidMessage)

/-- What is left of a session goes: unanswered commands fail, bodies in progress are dropped, and
the connection disappears from presence and registry. -/
def cleanUp (c : Cluster) (p s : Nat) (session : SessionState) (reason : Option CloseReason) :
    Cluster × Turn :=
  let (c, turn) := c.hangUp p s reason
  let (c, _) := c.failConnection p session.conn
  let c := { c with
    bodies := c.bodies.erase session.conn
    stopping := c.stopping.filter (· ≠ session.conn) }
  let (c, _) := c.dropPresence p session.conn
  (c.leave p session.device.deviceId session.conn, turn)

/-- Waits for the sender to stop, for a while; then the sender is stopped in the middle of what it
does, the device is told once it takes data, and the session is cleaned up. -/
def drainingTurn (c : Cluster) (t : TaskId) (p s : Nat) (session : SessionState)
    (reason : Option CloseReason) (deadline : Nat) : Cluster × Turn :=
  if c.tasks.has session.sender ∧ c.now < deadline then
    ((c.park t (.ended session.sender)).setTimer t deadline, .waits)
  else
    let c := (c.remove session.sender).remove session.heartbeat
    if reason.isSome ∧ c.blocked s then (c.park t (.writable s), .waits)
    else c.cleanUp p s session reason

/-- The turn of a session. -/
def sessionTurn (c : Cluster) (t : TaskId) (p s : Nat) (phase : SessionPhase) : Cluster × Turn :=
  match c.settingsOf? p, c.sockets.get? s with
  | some settings, some socket =>
    match phase with
    | .opening => c.openingTurn t p s settings socket.address
    | .refusing reason => c.refusingTurn t p s reason
    | .handshaking state deadline =>
      c.handshakeTurn t p s settings socket.address state deadline
    | .starting device => c.startingTurn t p s settings device
    | .receiving session deadline => c.receivingTurn t p s settings session deadline
    | .draining session reason deadline => c.drainingTurn t p s session reason deadline
  | _, _ => (c, .over)

end FleetControl.Cluster
