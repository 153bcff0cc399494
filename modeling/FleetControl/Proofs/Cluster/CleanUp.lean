import FleetControl.Proofs.Cluster.Belonging
import FleetControl.Proofs.Cluster.Effects

/-! # What the end of a session changes

A session ends in a turn of its own, after its sender has stopped. That turn fails what went out on
the connection and is not answered, drops the bodies in progress there and the registration, and
leaves other connections and all queues alone. -/
namespace FleetControl.Cluster

section Bodies
variable (c : Cluster) (p s : Nat)

theorem bodies_hangUp (reason : Option CloseReason) :
    (c.hangUp p s reason).1.bodies = c.bodies := by
  unfold hangUp
  cases reason with
  | none => rfl
  | some r =>
    obtain ⟨sockets, h⟩ := c.transmit_eq s (.close r)
    have hsent := congrArg Cluster.bodies h
    exact hsent

theorem bodies_failConnection (conn : Uuid) : (c.failConnection p conn).1.bodies = c.bodies := by
  obtain ⟨woken, parked, h⟩ := foldl_notify (fun id => Signal.decided p id)
    ((c.engine p).failConnection conn).2 (c.setEngine p ((c.engine p).failConnection conn).1)
  have hfailed := congrArg Cluster.bodies h
  exact hfailed

theorem bodies_dropPresence (conn : Uuid) : (c.dropPresence p conn).1.bodies = c.bodies := by
  unfold dropPresence
  split <;> rfl

theorem bodies_sync (device : String) : (c.sync p device).1.bodies = c.bodies := by
  unfold sync
  split
  · rfl
  · dsimp only
    split <;> rfl

theorem connectionsOf_sync (device : String) (q : Nat) :
    (c.sync p device).1.connectionsOf q = c.connectionsOf q := by
  unfold sync
  split
  · rfl
  · dsimp only
    split
    · exact (still_updateProcess _ p _ (by intro q; rfl)).connections q
    · exact (still_updateProcess _ p _ (by intro q; rfl)).connections q
    · rfl

theorem bodies_cleanUp (session : SessionState) (reason : Option CloseReason) :
    (c.cleanUp p s session reason).1.bodies = c.bodies.erase session.conn := by
  unfold cleanUp
  dsimp only
  rw [leave, bodies_sync]
  refine (bodies_dropPresence _ p session.conn).trans ?_
  dsimp only
  rw [bodies_failConnection, bodies_hangUp]

theorem connectionsOf_cleanUp (session : SessionState) (reason : Option CloseReason) (q : Nat) :
    (c.cleanUp p s session reason).1.connectionsOf q =
      if q = p ∧ c.processes.has q = true then
        ((c.connectionsOf p).unregister session.device.deviceId session.conn).1
      else c.connectionsOf q := by
  let c₁ := ((c.hangUp p s reason).1.failConnection p session.conn).1
  let c₂ : Cluster := { c₁ with
    bodies := c₁.bodies.erase session.conn
    stopping := c₁.stopping.filter (· ≠ session.conn) }
  have hstill : Still c (c₂.dropPresence p session.conn).1 := by
    have hfailed := (still_hangUp c p s reason).trans (still_failConnection _ p session.conn)
    refine (hfailed.trans ?_).trans (still_dropPresence c₂ p session.conn)
    exact .of_same ⟨rfl, rfl, rfl, rfl, rfl⟩
  have hhas : ∀ q, (c₂.dropPresence p session.conn).1.processes.has q = c.processes.has q :=
    hstill.has
  unfold cleanUp
  dsimp only
  rw [leave, connectionsOf_sync]
  refine (connectionsOf_setConnections _ p q _).trans ?_
  rw [hstill.connections, hstill.connections, hhas]

end Bodies

/-- The turn of a task is its last. -/
def Ends (c : Cluster) (t : TaskId) : Prop :=
  t ∈ c.ready ∧ (turn { c with ready := c.ready.erase t } t).2 = .over

theorem receivingTurn_goes_on (c : Cluster) (t : TaskId) (p s : Nat) (settings : ServerSettings)
    (session : SessionState) (deadline : Nat) :
    (c.receivingTurn t p s settings session deadline).2 ≠ .over := by
  unfold receivingTurn
  dsimp only
  split
  · split <;> simp [drain, awaitArrival, enter]
  · split <;> simp [drain, enter]
  · simp
  · simp [drain, enter]
  · simp [drain, enter]
  · simp [enter]
  · split <;> simp [drain, enter]

section Ending
variable {c : Cluster} {t : TaskId} {p s : Nat} {session : SessionState}

/-- The last turn of a session cleans up. -/
theorem give_of_ends (hs : c.serving? t = some (p, s, session))
    (hp : c.processes.has p = true) (hsocket : c.sockets.has s = true) (he : Ends c t) :
    ∃ reason, c.give t =
      (((({ c with ready := c.ready.erase t } : Cluster).remove session.sender).remove
        session.heartbeat).cleanUp p s session reason).1.finish t := by
  obtain ⟨ht, hover⟩ := he
  obtain ⟨settings, hset⟩ : ∃ settings, c.settingsOf? p = some settings := by
    obtain ⟨x, hx⟩ := (Table.has_iff _ _).mp hp
    exact ⟨x.settings, by simp [settingsOf?, hx]⟩
  obtain ⟨socket, hsocket⟩ := (Table.has_iff _ _).mp hsocket
  obtain ⟨w, hw, hserving⟩ := Option.bind_eq_some_iff.mp hs
  let c₀ : Cluster := { c with ready := c.ready.erase t }
  have hturn : ∀ phase, w = .session p s phase → turn c₀ t = c₀.sessionTurn t p s phase := by
    rintro phase rfl
    have htask : c₀.tasks.get? t = some (.session p s phase) := hw
    rw [turn, htask]
  have hset₀ : c₀.settingsOf? p = some settings := hset
  have hsocket₀ : c₀.sockets.get? s = some socket := hsocket
  cases w with
  | session q r phase =>
    cases phase with
    | receiving session deadline =>
      cases hserving
      have hcase := hturn _ rfl
      rw [sessionTurn, hset₀, hsocket₀] at hcase
      rw [hcase] at hover
      exact absurd hover (receivingTurn_goes_on c₀ t p s settings session deadline)
    | draining session reason deadline =>
      cases hserving
      have hcase := hturn _ rfl
      rw [sessionTurn, hset₀, hsocket₀] at hcase
      dsimp only at hcase
      unfold drainingTurn at hcase
      dsimp only at hcase
      split at hcase
      · rw [hcase] at hover
        cases hover
      · split at hcase
        · rw [hcase] at hover
          cases hover
        · refine ⟨reason, ?_⟩
          unfold give
          rw [if_pos ht, hcase]
          rw [hcase] at hover
          split <;> rename_i hr <;> rw [hr] at hover
          · cases hover
          · cases hover
          · rw [hr]
    | _ => cases hserving
  | _ => cases hserving

/-- What is different behind the last turn of a session. -/
structure Cleans (c c' : Cluster) (p : Nat) (session : SessionState) : Prop where
  engine : ∀ q, c'.engine q =
    if q = p then ((c.engine p).failConnection session.conn).1 else c.engine q
  bodies : c'.bodies = c.bodies.erase session.conn
  connections : ∀ q, c'.connectionsOf q =
    if q = p then ((c.connectionsOf p).unregister session.device.deviceId session.conn).1
    else c.connectionsOf q

theorem over_cleanUp (c : Cluster) (p s : Nat) (session : SessionState)
    (reason : Option CloseReason) : (c.cleanUp p s session reason).2 = .over := by
  unfold cleanUp hangUp
  rfl

/-- A session whose sender has stopped ends, as soon as the device can be told. -/
theorem ends_of_stopped (ht : t ∈ c.ready) {reason : Option CloseReason} {deadline : Nat}
    (task : c.tasks.get? t = some (.session p s (.draining session reason deadline)))
    (stopped : ¬ (c.tasks.has session.sender = true ∧ c.now < deadline))
    (free : ¬ (reason.isSome = true ∧ c.blocked s = true)) : Ends c t := by
  refine ⟨ht, ?_⟩
  let c₀ : Cluster := { c with ready := c.ready.erase t }
  have htask : c₀.tasks.get? t = some (.session p s (.draining session reason deadline)) := task
  have hturn : turn c₀ t = c₀.sessionTurn t p s (.draining session reason deadline) := by
    rw [turn, htask]
  have hdraining : (c₀.drainingTurn t p s session reason deadline).2 = .over := by
    have hstopped : ¬ (c₀.tasks.has session.sender = true ∧ c₀.now < deadline) := stopped
    have hfree : ¬ (reason.isSome = true ∧
        ((c₀.remove session.sender).remove session.heartbeat).blocked s = true) := free
    unfold drainingTurn
    rw [if_neg hstopped]
    dsimp only
    rw [if_neg hfree]
    exact over_cleanUp _ p s session reason
  rw [hturn]
  unfold sessionTurn
  split
  · exact hdraining
  · rfl

theorem bodies_finish (c : Cluster) (t : TaskId) : (c.finish t).bodies = c.bodies := by
  obtain ⟨woken, parked, h⟩ := finish_eq c t
  rw [h]
  rfl

theorem connectionsOf_congr {c c' : Cluster} (h : c'.processes = c.processes) (p : Nat) :
    c'.connectionsOf p = c.connectionsOf p := by
  simp [connectionsOf, h]

theorem cleans_cleanUp {c₀ : Cluster} (hprocesses : c₀.processes = c.processes)
    (hbodies : c₀.bodies = c.bodies) (hp : c.processes.has p = true) (t : TaskId) (s : Nat)
    (reason : Option CloseReason) :
    Cleans c ((c₀.cleanUp p s session reason).1.finish t) p session := by
  have hp₀ : c₀.processes.has p = true := hprocesses ▸ hp
  constructor
  · intro q
    rw [engine_finish, engine_cleanUp, engine_congr hprocesses q, engine_congr hprocesses p]
    by_cases hq : q = p
    · rw [if_pos ⟨hq, hp₀⟩, if_pos hq]
    · rw [if_neg fun h => hq h.1, if_neg hq]
  · rw [bodies_finish, bodies_cleanUp, hbodies]
  · intro q
    rw [connectionsOf_congr (processes_finish _ t), connectionsOf_cleanUp,
      connectionsOf_congr hprocesses q, connectionsOf_congr hprocesses p]
    by_cases hq : q = p
    · subst q
      rw [if_pos ⟨rfl, hp₀⟩, if_pos rfl]
    · rw [if_neg fun h => hq h.1, if_neg hq]

theorem cleans_of_ends (hs : c.serving? t = some (p, s, session))
    (hp : c.processes.has p = true) (hsocket : c.sockets.has s = true) (he : Ends c t) :
    Cleans c (c.give t) p session := by
  obtain ⟨reason, hgive⟩ := give_of_ends hs hp hsocket he
  rw [hgive]
  refine cleans_cleanUp ?_ ?_ hp t s reason
  · rfl
  · rfl

/-- Queues, what was sent on other connections, other bodies and other registrations are
untouched. -/
theorem Cleans.untouched {c' : Cluster} (h : Cleans c c' p session)
    (hsound : (c.engine p).Sound) :
    (∀ q device, (c'.engine q).queue device = (c.engine q).queue device) ∧
    (∀ q id, (∀ pend, (c.engine q).pending.get? id = some pend →
        pend.owner ≠ some session.conn) →
      (c'.engine q).pending.get? id = (c.engine q).pending.get? id ∧
      (c'.engine q).outcome? id = (c.engine q).outcome? id) ∧
    ∀ other, other ≠ session.conn → c'.bodiesOf other = c.bodiesOf other ∧
      ∀ q device, other ∈ (c'.connectionsOf q).of device ↔
        other ∈ (c.connectionsOf q).of device := by
  refine ⟨fun q device => ?_, fun q id hother => ?_, fun other hother => ⟨?_, fun q device => ?_⟩⟩
  · rw [h.engine q]
    split
    · rename_i hq
      rw [hq]
      exact Engine.queue_congr (Engine.queues_failAll _ _) device
    · rfl
  · rw [h.engine q]
    split
    · rename_i hq
      subst q
      have hlost : ∀ x ∈ (c.engine p).owned session.conn, x.1 ≠ id := by
        rintro x hx rfl
        obtain ⟨hpend, howner⟩ := (Engine.mem_owned hsound).mp hx
        exact hother x.2 hpend howner
      obtain ⟨hpending, hcompletion⟩ := Engine.failAll_other (c.engine p) _ id hlost
      exact ⟨hpending, by unfold Engine.outcome?; rw [Engine.failConnection_eq, hcompletion]⟩
    · exact ⟨rfl, rfl⟩
  · rw [bodiesOf, h.bodies, Table.getD, Table.get?_erase, if_neg hother]
    rfl
  · rw [h.connections q]
    split
    · rename_i hq
      rw [hq, Connections.mem_unregister]
      exact and_iff_left fun hx => hother hx.2
    · rfl

end Ending

end FleetControl.Cluster
