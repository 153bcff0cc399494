import FleetControl.Proofs.Cluster.Front
import FleetControl.Proofs.RateLimiter

/-! # Handshakes and their limiters

A session begins a handshake if the limiter of its process allows that, and a handshake that is
refused counts against the address of its socket. Nothing else that happens begins a handshake or
counts against an address. -/
namespace FleetControl
open RateLimiter (Lapses)

/-- The process and the socket of a handshake. -/
def Task.shaking? : Task → Option (Nat × Nat)
  | .session p s (.handshaking _ _) => some (p, s)
  | _ => none

namespace Cluster

def shaking? (c : Cluster) (t : TaskId) : Option (Nat × Nat) :=
  (c.tasks.get? t).bind Task.shaking?

def limiter? (c : Cluster) (p : Nat) : Option RateLimiter := (c.processes.get? p).map (·.limiter)

def address? (c : Cluster) (s : Nat) : Option Address := (c.sockets.get? s).map (·.address)

/-- An operation of the limiter of a process. -/
def limit (c : Cluster) (p : Nat) (f : RateLimiter → RateLimiter) : Cluster :=
  c.updateProcess p fun q => { q with limiter := f q.limiter }

/-- From one state to the other no limiter is used and no handshake begins; some may end. -/
structure Recedes (c c' : Cluster) : Prop where
  processes : c'.processes.keys = c.processes.keys
  limiters : ∀ p, c'.limiter? p = c.limiter? p
  addresses : c'.sockets.image (·.address) = c.sockets.image (·.address)
  now : c'.now = c.now
  onward : c.nextTask ≤ c'.nextTask
  fresh : Fresh c → Fresh c'
  shaking : ∀ t, c'.shaking? t = c.shaking? t ∨ c'.shaking? t = none

theorem shaking_eq (c : Cluster) (t : TaskId) :
    c.shaking? t = (c.post? t).bind Task.shaking? := by
  unfold shaking? post?
  cases c.tasks.get? t with
  | none => rfl
  | some task => cases task <;> rfl

theorem limiter_limit (c : Cluster) (p q : Nat) (f : RateLimiter → RateLimiter) :
    (c.limit p f).limiter? q = if q = p then (c.limiter? q).map f else c.limiter? q := by
  simp only [limiter?, limit, updateProcess, Table.get?_modify]
  split
  · rw [Option.map_map, Option.map_map]
    rfl
  · rfl

theorem shaking_setTask (c : Cluster) (t u : TaskId) (task : Task) :
    (c.setTask t task).shaking? u = if u = t then task.shaking? else c.shaking? u := by
  simp only [shaking?, setTask, Table.get?_put]
  split <;> rfl

theorem shaking_remove (c : Cluster) (t u : TaskId) :
    (c.remove t).shaking? u = if u = t then none else c.shaking? u := by
  simp only [shaking?, remove, clearTimer, Table.get?_erase]
  split <;> rfl

theorem shaking_finish (c : Cluster) (t u : TaskId) :
    (c.finish t).shaking? u = if u = t then none else c.shaking? u := by
  obtain ⟨woken, parked, h⟩ := finish_eq c t
  rw [h]
  exact shaking_remove c t u

section Recedes
variable {c c₁ c' : Cluster} {t : TaskId}

theorem Recedes.trans (h : Recedes c c₁) (h' : Recedes c₁ c') : Recedes c c' where
  processes := h'.processes.trans h.processes
  limiters p := (h'.limiters p).trans (h.limiters p)
  addresses := h'.addresses.trans h.addresses
  now := h'.now.trans h.now
  onward := Nat.le_trans h.onward h'.onward
  fresh hf := h'.fresh (h.fresh hf)
  shaking u := by
    rcases h'.shaking u with hsame | hnone
    · rw [hsame]
      exact h.shaking u
    · exact Or.inr hnone

theorem Aside.recedes (h : Aside c c') : Recedes c c' where
  processes := by
    rw [← Table.keys_image c'.processes Process.desk, h.desks, Table.keys_image]
  limiters p := by
    have hp := congrArg (fun t => (Table.get? t p).map (·.limiter)) h.desks
    simp only [Table.get?_image, Option.map_map] at hp
    exact hp
  addresses := h.addresses
  now := h.now
  onward := h.onward
  fresh := h.fresh
  shaking u := by
    rw [shaking_eq, shaking_eq]
    by_cases hu : u < c.nextTask ∨ c'.nextTask ≤ u
    · exact Or.inl (by rw [h.posts u hu])
    · rw [not_or, Nat.not_lt, Nat.not_le] at hu
      exact Or.inr (by rw [h.others u hu.1 hu.2]; rfl)

theorem Aside.shaking (h : Aside c c') (ht : t < c.nextTask) : c'.shaking? t = c.shaking? t := by
  rw [shaking_eq, shaking_eq, h.posts t (Or.inl ht)]

theorem Recedes.refl (c : Cluster) : Recedes c c := (Aside.refl c).recedes

theorem Recedes.address (h : Recedes c c') (s : Nat) : c'.address? s = c.address? s := by
  have hs := congrArg (Table.get? · s) h.addresses
  simp only [Table.get?_image] at hs
  exact hs

/-- Changes of everything else. -/
theorem Recedes.same (h : Recedes c c₁) (hsame : c'.processes = c₁.processes ∧
    c'.sockets = c₁.sockets ∧ c'.now = c₁.now ∧ c'.nextTask = c₁.nextTask ∧
    c'.tasks = c₁.tasks) : Recedes c c' := by
  obtain ⟨hprocesses, hsockets, hnow, hnext, htasks⟩ := hsame
  refine h.trans ⟨by rw [hprocesses], fun p => ?_, by rw [hsockets], hnow,
    Nat.le_of_eq hnext.symm, fun hf => ?_, fun u => Or.inl ?_⟩
  · rw [limiter?, limiter?, hprocesses]
  · unfold Fresh post?
    rw [hnext, htasks]
    exact hf
  · rw [shaking?, shaking?, htasks]

theorem Recedes.updateProcess (h : Recedes c c₁) (p : Nat) {f : Process → Process}
    (hf : ∀ q, (f q).limiter = q.limiter) : Recedes c (c₁.updateProcess p f) := by
  refine h.trans ⟨keys_updateProcess c₁ p f, fun q => ?_, rfl, rfl, Nat.le_refl _, id,
    fun _ => Or.inl rfl⟩
  simp only [limiter?, Cluster.updateProcess, Table.get?_modify]
  split
  · rw [Option.map_map]
    exact congrArg (Option.map · _) (funext hf)
  · rfl

/-- A task goes on, and begins no handshake. -/
theorem Recedes.setTask (h : Recedes c c₁) (ht : t < c₁.nextTask) {task : Task}
    (hs : task.shaking? = c₁.shaking? t ∨ task.shaking? = none) :
    Recedes c (c₁.setTask t task) := by
  refine h.trans ⟨rfl, fun _ => rfl, rfl, rfl, Nat.le_refl _, fun hf u hu => ?_, fun u => ?_⟩
  · have hne : u ≠ t := Nat.ne_of_gt (Nat.lt_of_lt_of_le ht hu)
    rw [post_setTask, if_neg hne]
    exact hf u hu
  · rw [shaking_setTask]
    split
    · rename_i hu
      rw [hu]
      exact hs
    · exact Or.inl rfl

theorem Recedes.spawn (h : Recedes c c₁) {task : Task} (hs : task.shaking? = none) :
    Recedes c (c₁.spawn task).1 := by
  refine h.trans ⟨rfl, fun _ => rfl, rfl, rfl, Nat.le_succ _, fun hf u hu => ?_, fun u => ?_⟩
  · refine (post_setTask c₁ c₁.nextTask u task).trans ?_
    rw [if_neg (Nat.ne_of_gt hu)]
    exact hf u (Nat.le_of_succ_le hu)
  · have hset := shaking_setTask c₁ c₁.nextTask u task
    rw [hs] at hset
    by_cases hu : u = c₁.nextTask
    · exact Or.inr (hset.trans (if_pos hu))
    · exact Or.inl (hset.trans (if_neg hu))

theorem Recedes.remove (h : Recedes c c₁) (t : TaskId) : Recedes c (c₁.remove t) := by
  refine h.trans ⟨rfl, fun _ => rfl, rfl, rfl, Nat.le_refl _, fun hf u hu => ?_, fun u => ?_⟩
  · refine (post_erase c₁ t u).trans ?_
    split
    · rfl
    · exact hf u hu
  · rw [shaking_remove]
    split
    · exact Or.inr rfl
    · exact Or.inl rfl

theorem Recedes.finish (h : Recedes c c₁) (t : TaskId) : Recedes c (c₁.finish t) := by
  obtain ⟨woken, parked, he⟩ := finish_eq c₁ t
  rw [he]
  exact (h.remove t).same ⟨rfl, rfl, rfl, rfl, rfl⟩

theorem Recedes.enter (h : Recedes c c₁) (ht : t < c.nextTask) (p s : Nat) {phase : SessionPhase}
    (hs : (Task.session p s phase).shaking? = c₁.shaking? t ∨
      (Task.session p s phase).shaking? = none) : Recedes c (c₁.enter t p s phase).1 := by
  have hwait : Recedes c (c₁.unwait t) := h.same ⟨rfl, rfl, rfl, rfl, rfl⟩
  exact hwait.setTask (Nat.lt_of_lt_of_le ht hwait.onward) hs

theorem Recedes.aside (h : Recedes c c₁) (h' : Aside c₁ c') : Recedes c c' := h.trans h'.recedes

theorem Recedes.of_eq {α : Type} {x : Cluster × α} {a : α} (h : x = (c', a))
    (hx : Recedes c x.1) : Recedes c c' := by
  rw [h] at hx
  exact hx

theorem Recedes.conclude {r : Cluster × Turn} (h : Recedes c r.1) (t : TaskId) :
    Recedes c (Cluster.conclude t r) := by
  obtain ⟨c', ends⟩ := r
  cases ends with
  | again => exact h.same ⟨rfl, rfl, rfl, rfl, rfl⟩
  | waits => exact h
  | _ => exact h.finish t

end Recedes

section Operations
variable (c : Cluster) (p s : Nat) {t : TaskId}

theorem recedes_hangUp (reason : Option CloseReason) : Recedes c (c.hangUp p s reason).1 := by
  have hend : ∀ {c₁ : Cluster} (closed : Bool), Recedes c c₁ →
      Recedes c ((c₁.updateProcess p fun q => { q with sockets := q.sockets - 1 }).updateSocket s
        (·.finish closed)) := by
    intro c₁ closed h
    refine (h.updateProcess p (by intro q; rfl)).aside (aside_updateSocket _ s fun socket => ?_)
    unfold Socket.finish
    split <;> rfl
  unfold hangUp
  cases reason with
  | none => exact hend false (.refl c)
  | some r => exact hend _ (aside_transmit c s (.close r)).recedes

theorem recedes_sync (device : String) : Recedes c (c.sync p device).1 := by
  unfold sync
  split
  · exact .refl c
  · dsimp only
    split
    · exact ((Recedes.refl c).spawn rfl).updateProcess p fun _ => rfl
    · exact ((Recedes.refl c).remove _).updateProcess p fun _ => rfl
    · exact .refl c

theorem recedes_leave (device : String) (conn : Uuid) : Recedes c (c.leave p device conn) :=
  ((Recedes.refl c).updateProcess p (by intro q; rfl)).trans (recedes_sync _ p device)

theorem recedes_presence (store : SharedStore) (presence : Presence) :
    Recedes c (({ c with store := store } : Cluster).updateProcess p
      fun q => { q with presence := presence }) := by
  have hstore : Recedes c { c with store := store } :=
    (Recedes.refl c).same ⟨rfl, rfl, rfl, rfl, rfl⟩
  exact hstore.updateProcess p fun _ => rfl

theorem recedes_markAlive (device : String) (conn : Uuid) :
    Recedes c (c.markAlive p device conn).1 := by
  unfold markAlive
  split
  · exact .refl c
  · exact recedes_presence c p _ _

theorem recedes_dropPresence (conn : Uuid) : Recedes c (c.dropPresence p conn).1 := by
  unfold dropPresence
  split
  · exact .refl c
  · exact recedes_presence c p _ _

theorem aside_failConnection (conn : Uuid) : Aside c (c.failConnection p conn).1 := by
  refine (aside_setEngine c p ((c.engine p).failConnection conn).1).trans ?_
  obtain ⟨woken, parked, h⟩ := foldl_notify (Signal.decided p)
    ((c.engine p).failConnection conn).2
    (c.setEngine p ((c.engine p).failConnection conn).1)
  unfold failConnection
  dsimp only
  rw [h]
  exact (Aside.refl _).same ⟨rfl, rfl, rfl, rfl, rfl, rfl⟩

theorem aside_takeMessage (device : String) (conn : Uuid) (message : DeviceMessage) :
    Aside c (c.takeMessage p device conn message) := by
  unfold takeMessage
  split
  · split
    · unfold takeResponse
      have hbodies : ∀ bodies, Aside c (c.setBodies conn bodies) := fun _ =>
        (Aside.refl c).same ⟨rfl, rfl, rfl, rfl, rfl, rfl⟩
      dsimp only
      split <;> exact (hbodies _).trans (aside_decide _ p _ _)
    · exact .refl c
  · exact (Aside.refl c).same ⟨rfl, rfl, rfl, rfl, rfl, rfl⟩
  · exact .refl c

theorem aside_takeText (session : SessionState) (raw : String) :
    Aside c (c.takeText p session raw).1 := by
  have hrefresh := aside_refresh c p session.conn
  unfold takeText
  split
  · exact .refl c
  · split
    · exact .refl c
    · dsimp only
      split
      · exact hrefresh
      · exact hrefresh.trans (aside_takeMessage _ p _ _ _)

theorem aside_awaitArrival (deadline : Nat) : Aside c (c.awaitArrival t s deadline).1 := by
  refine (aside_park c t (.arrived s)).trans ?_
  unfold awaitArrival keepTimer
  dsimp only
  split
  · exact .refl _
  · exact (Aside.refl _).same ⟨rfl, rfl, rfl, rfl, rfl, rfl⟩

end Operations

section Turns
variable (c : Cluster) {t : TaskId} (p s : Nat) (ht : t < c.nextTask)
include ht

theorem recedes_startingTurn (settings : ServerSettings) (device : DeviceRecord) :
    Recedes c (c.startingTurn t p s settings device).1 := by
  have hfresh : Recedes c c.freshId.1 := (Recedes.refl c).same ⟨rfl, rfl, rfl, rfl, rfl⟩
  have hregistered : Recedes c (c.freshId.1.register p device.deviceId c.freshId.2).1 :=
    hfresh.updateProcess p fun _ => rfl
  have hsynced := hregistered.trans (recedes_sync _ p device.deviceId)
  have hmarked := hsynced.trans (recedes_markAlive _ p device.deviceId c.freshId.2)
  unfold startingTurn
  dsimp only
  split <;> rename_i h
  · exact ((Recedes.of_eq h hmarked).trans (recedes_hangUp _ p s _)).trans
      (recedes_leave _ p device.deviceId c.freshId.2)
  · exact (((Recedes.of_eq h hmarked).spawn rfl).spawn rfl).enter ht p s (Or.inr rfl)

omit ht in
theorem recedes_refusingTurn (reason : CloseReason) :
    Recedes c (c.refusingTurn t p s reason).1 := by
  unfold refusingTurn
  split
  · exact (aside_park c t _).recedes
  · exact recedes_hangUp c p s _

theorem recedes_drain {c₁ : Cluster} (h : Recedes c c₁) (session : SessionState)
    (reason : Option CloseReason) : Recedes c (c₁.drain t p s session reason).1 := by
  have htold : Recedes c { c₁ with stopping := c₁.stopping ++ [session.conn] } :=
    h.same ⟨rfl, rfl, rfl, rfl, rfl⟩
  exact (htold.aside (aside_notify _ _)).enter ht p s (Or.inr rfl)

theorem recedes_receivingTurn (settings : ServerSettings) (session : SessionState)
    (deadline : Nat) : Recedes c (c.receivingTurn t p s settings session deadline).1 := by
  have hnext := (aside_nextIncoming c s).recedes
  have hgoes : ∀ {c₁} (_ : Recedes c c₁) (session : SessionState) (deadline : Nat),
      Recedes c (c₁.enter t p s (.receiving session deadline)).1 :=
    fun h _ _ => h.enter ht p s (Or.inr rfl)
  unfold receivingTurn
  dsimp only
  split <;> rename_i h
  · have hc := Recedes.of_eq h hnext
    split
    · exact recedes_drain c p s ht hc session _
    · exact hc.aside (aside_awaitArrival _ s deadline)
  · have hc := Recedes.of_eq h hnext
    split <;> rename_i hsend
    · exact hc.aside (aside_of_eq hsend (aside_transmit _ s _))
    · exact recedes_drain c p s ht (hc.aside (aside_of_eq hsend (aside_transmit _ s _))) session _
  · exact Recedes.of_eq h hnext
  · exact recedes_drain c p s ht (Recedes.of_eq h hnext) session _
  · exact recedes_drain c p s ht (Recedes.of_eq h hnext) session _
  · rename_i c₁ data
    have htaken : Recedes c (c₁.takeBinary p session.conn data) :=
      (Recedes.of_eq h hnext).same ⟨rfl, rfl, rfl, rfl, rfl⟩
    exact hgoes htaken _ _
  · have hc := Recedes.of_eq h hnext
    split <;> rename_i htext
    · exact hgoes (hc.aside (aside_of_eq htext (aside_takeText _ p session _))) _ _
    · exact recedes_drain c p s ht (hc.aside (aside_of_eq htext (aside_takeText _ p session _)))
        session _

omit ht in
theorem recedes_cleanUp (session : SessionState) (reason : Option CloseReason) :
    Recedes c (c.cleanUp p s session reason).1 := by
  have hfailed := (recedes_hangUp c p s reason).aside (aside_failConnection _ p session.conn)
  unfold cleanUp
  dsimp only
  refine Recedes.trans ?_ (recedes_leave _ p session.device.deviceId session.conn)
  refine Recedes.trans ?_ (recedes_dropPresence _ p session.conn)
  exact hfailed.same ⟨rfl, rfl, rfl, rfl, rfl⟩

omit ht in
theorem recedes_drainingTurn (session : SessionState) (reason : Option CloseReason)
    (deadline : Nat) : Recedes c (c.drainingTurn t p s session reason deadline).1 := by
  have hstopped := ((Recedes.refl c).remove session.sender).remove session.heartbeat
  unfold drainingTurn
  dsimp only
  split
  · exact (aside_park c t _).recedes.same ⟨rfl, rfl, rfl, rfl, rfl⟩
  · split
    · exact hstopped.aside (aside_park _ t _)
    · exact hstopped.trans (recedes_cleanUp _ p s session reason)

end Turns

/-- What is done with limiters and handshakes. -/
inductive Deals (c c' : Cluster) : Prop
  | lapses {p f c₁} (lapses : Lapses c.now f) (before : Recedes c c₁)
      (after : Recedes (c₁.limit p f) c') : Deals c c'
  /-- A limiter allows a handshake, and it begins. -/
  | admits {t p s a r state deadline c₁} (started : t < c.nextTask)
      (address : c.address? s = some a) (limiter : c.limiter? p = some r)
      (allowed : (r.allows a c.now).2 = true) (before : Recedes c c₁)
      (after : Recedes ((c₁.setTask t (.session p s (.handshaking state deadline))).limit p
        fun r => (r.allows a c.now).1) c') : Deals c c'
  /-- A handshake is over and counts against its address. -/
  | refuses {t p s a r c₁} (shaking : c.shaking? t = some (p, s))
      (address : c.address? s = some a) (limiter : c.limiter? p = some r) (before : Recedes c c₁)
      (after : Recedes (c₁.limit p fun r => r.recordFailure a c.now) c')
      (ended : c'.shaking? t = none) : Deals c c'

theorem Deals.now {c c' : Cluster} (h : Deals c c') : c'.now = c.now := by
  cases h with
  | lapses lapses before after => exact after.now.trans before.now
  | admits started address limiter allowed before after => exact after.now.trans before.now
  | refuses shaking address limiter before after ended => exact after.now.trans before.now

theorem limit_id (c : Cluster) (p : Nat) : c.limit p id = c := by
  have hsame : c.processes.modify p (fun q => q) = c.processes := by
    simp [Table.modify]
  unfold limit updateProcess
  exact congrArg (fun processes => { c with processes := processes }) hsame

theorem Recedes.deals {c c' : Cluster} (h : Recedes c c') : Deals c c' := by
  refine .lapses (p := 0) (RateLimiter.lapses_id c.now) (.refl c) ?_
  rw [limit_id]
  exact h

section Handshakes
variable (c : Cluster) {t : TaskId} (p s : Nat) {a : Address}

/-- What is written for a limiter that was looked up is what the operation makes of it. -/
theorem recedes_limit {q : Process} (hq : c.processes.get? p = some q)
    (f : RateLimiter → RateLimiter) :
    Recedes (c.limit p f) (c.updateProcess p fun x => { x with limiter := f q.limiter }) := by
  refine ⟨?_, fun r => ?_, rfl, rfl, Nat.le_refl _, id, fun _ => Or.inl rfl⟩
  · exact (keys_updateProcess c p _).trans (keys_updateProcess c p _).symm
  · rw [limiter_limit]
    simp only [limiter?, updateProcess, Table.get?_modify]
    split
    · rename_i hr
      rw [hr, hq]
      rfl
    · rfl

theorem deals_openingTurn (ht : t < c.nextTask) (ha : c.address? s = some a)
    (settings : ServerSettings) : Deals c (conclude t (c.openingTurn t p s settings a)) := by
  let c₁ := c.updateProcess p fun q => { q with sockets := q.sockets + 1 }
  have hcounted : Recedes c c₁ := (Recedes.refl c).updateProcess p fun _ => rfl
  unfold openingTurn
  dsimp only
  split
  · exact (hcounted.conclude t).deals
  · rename_i q hq
    split
    · exact ((hcounted.enter ht p s (Or.inr rfl)).conclude t).deals
    · have hlimit := recedes_limit c₁ p hq fun r => (r.allows a c.now).1
      split
      · rename_i hallowed
        have hlimiter : c.limiter? p = some q.limiter :=
          (hcounted.limiters p).symm.trans (congrArg _ hq)
        let begun := c₁.setTask t (.session p s
          (.handshaking (Handshake.accept .connected) (c.now + settings.helloTimeout)))
        have hbegun := recedes_limit begun p hq fun r => (r.allows a c.now).1
        exact .admits ht ha hlimiter hallowed hcounted
          (Recedes.conclude (hbegun.same ⟨rfl, rfl, rfl, rfl, rfl⟩) t)
      · exact .lapses (RateLimiter.lapses_allows a c.now) hcounted
          ((hlimit.enter ht p s (Or.inr rfl)).conclude t)

theorem deals_refuseTurn {c₁ : Cluster} (h : Recedes c c₁) (hlt : t < c.nextTask)
    (ht : c.shaking? t = some (p, s)) (ha : c.address? s = some a) {r : RateLimiter}
    (hr : c.limiter? p = some r) (e : ChannelError) :
    Deals c (conclude t (c₁.refuseTurn t p s a e)) := by
  unfold refuseTurn
  split
  · exact ((h.trans (recedes_hangUp c₁ p s none)).conclude t).deals
  · have hlt₁ : t < c₁.nextTask := Nat.lt_of_lt_of_le hlt h.onward
    refine .refuses ht ha hr h ?_ ((shaking_setTask _ t t _).trans (if_pos rfl))
    rw [← h.now]
    exact ((Recedes.refl (c₁.limit p fun r => r.recordFailure a c₁.now)).enter hlt₁ p s
      (Or.inr rfl)).conclude t

theorem deals_handshakeTurn (hlt : t < c.nextTask) (ht : c.shaking? t = some (p, s))
    (ha : c.address? s = some a) {r : RateLimiter} (hr : c.limiter? p = some r)
    (settings : ServerSettings) (state : HandshakeState) (deadline : Nat) :
    Deals c (conclude t (c.handshakeTurn t p s settings a state deadline)) := by
  have hnext := aside_nextIncoming c s
  -- What a handshake does with an arrival that is no mistake leaves the limiter alone.
  have hends : ∀ {c₁}, Aside c c₁ → Deals c (conclude t (c₁.hangUp p s none)) :=
    fun h => ((h.recedes.trans (recedes_hangUp _ p s none)).conclude t).deals
  have hgoes : ∀ {c₁} (_ : Aside c c₁) {phase : SessionPhase},
      (Task.session p s phase).shaking? = some (p, s) ∨
        (Task.session p s phase).shaking? = none →
      Deals c (conclude t (c₁.enter t p s phase)) := by
    intro c₁ h phase hs
    rw [← ht, ← h.shaking hlt] at hs
    exact ((h.recedes.enter hlt p s hs).conclude t).deals
  unfold handshakeTurn
  split <;> rename_i h
  · have hc := aside_of_eq h hnext
    split
    · exact deals_refuseTurn c p s hc.recedes hlt ht ha hr _
    · exact ((hc.trans (aside_awaitArrival _ s deadline)).recedes.conclude t).deals
  · have hc := aside_of_eq h hnext
    split <;> rename_i hsend
    · exact ((hc.trans (aside_of_eq hsend (aside_transmit _ s _))).recedes.conclude t).deals
    · exact hends (hc.trans (aside_of_eq hsend (aside_transmit _ s _)))
  · rename_i c₁ incoming _
    have hc := aside_of_eq h hnext
    split
    · exact (hc.recedes.conclude t).deals
    · exact deals_refuseTurn c p s hc.recedes hlt ht ha hr _
    · have hused : Aside c c₁.useChallenge := hc.same ⟨rfl, rfl, rfl, rfl, rfl, rfl⟩
      split <;> rename_i hsend
      · exact hgoes (hused.trans (aside_of_eq hsend (aside_transmit _ s _))) (Or.inl rfl)
      · exact hends (hused.trans (aside_of_eq hsend (aside_transmit _ s _)))
    · split <;> rename_i hsend
      · exact hgoes (hc.trans (aside_of_eq hsend (aside_transmit _ s _))) (Or.inr rfl)
      · exact hends (hc.trans (aside_of_eq hsend (aside_transmit _ s _)))

theorem deals_sessionTurn {phase : SessionPhase} (hlt : t < c.nextTask)
    (ht : c.tasks.get? t = some (.session p s phase)) :
    Deals c (conclude t (c.sessionTurn t p s phase)) := by
  unfold sessionTurn
  split
  · rename_i settings socket hsettings hsocket
    obtain ⟨q, hq, -⟩ := Option.map_eq_some_iff.mp hsettings
    have hr : c.limiter? p = some q.limiter := congrArg _ hq
    have ha : c.address? s = some socket.address := congrArg _ hsocket
    split
    · exact deals_openingTurn c p s hlt ha settings
    · exact ((recedes_refusingTurn c p s _).conclude t).deals
    · rename_i state deadline
      have hshaking : c.shaking? t = some (p, s) := by
        rw [shaking?, ht]
        rfl
      exact deals_handshakeTurn c p s hlt hshaking ha hr settings state deadline
    · exact ((recedes_startingTurn c p s hlt settings _).conclude t).deals
    · exact ((recedes_receivingTurn c p s hlt settings _ _).conclude t).deals
    · exact ((recedes_drainingTurn c p s _ _ _).conclude t).deals
  · exact ((Recedes.refl c).conclude t).deals

end Handshakes

theorem Fresh.lt {c : Cluster} (hf : Fresh c) {t : TaskId} {p s : Nat} {phase : SessionPhase}
    (ht : c.tasks.get? t = some (.session p s phase)) : t < c.nextTask := by
  refine Nat.lt_of_not_le fun hle => ?_
  have hpost : c.post? t = some (.session p s phase) := by
    rw [post?, ht]
    rfl
  rw [hf t hle] at hpost
  cases hpost

theorem Deals.of_ready {c c' : Cluster} {ready : List TaskId}
    (h : Deals { c with ready := ready } c') : Deals c c' := by
  have hready : Recedes c { c with ready := ready } :=
    (Recedes.refl c).same ⟨rfl, rfl, rfl, rfl, rfl⟩
  cases h with
  | lapses lapses before after => exact .lapses lapses (hready.trans before) after
  | admits started address limiter allowed before after =>
    exact .admits started address limiter allowed (hready.trans before) after
  | refuses shaking address limiter before after ended =>
    exact .refuses shaking address limiter (hready.trans before) after ended

/-- The turn of a session deals with the limiter of its process and its own handshake. -/
theorem deals_give {c : Cluster} (hf : Fresh c) (t : TaskId) : Deals c (c.give t) := by
  by_cases hs : ∃ p s phase, c.tasks.get? t = some (.session p s phase)
  · by_cases hr : t ∈ c.ready
    · obtain ⟨p, s, phase, ht⟩ := hs
      let lifted : Cluster := { c with ready := c.ready.erase t }
      have hturn : turn lifted t = lifted.sessionTurn t p s phase := by
        simp only [turn, show lifted.tasks.get? t = _ from ht]
      rw [give_of_mem hr, hturn]
      exact (deals_sessionTurn lifted p s (hf.lt ht) ht).of_ready
    · rw [give_of_not_mem hr]
      exact (Recedes.refl c).deals
  · exact (aside_give hf fun p s phase ht => hs ⟨p, s, phase, ht⟩).recedes.deals

end Cluster

end FleetControl
