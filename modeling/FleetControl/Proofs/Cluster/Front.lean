import FleetControl.Proofs.Cluster.Filing
import FleetControl.Proofs.Presence.Records

/-! # The front of a cluster

What stands between a process and its devices: the sessions, the bridge workers, and what the
process notes about connections, addresses and presence. All other tasks work behind it: what they
do in their turns leaves the front as it is, except that heartbeats renew presence records. -/
namespace FleetControl

/-- A process apart from what commands change in it, its engine and its locks. -/
def Process.desk (q : Process) : Process := { q with engine := {}, locks := [] }

/-- A session as it stands, or a bridge worker whatever it is about. -/
def Task.post? : Task → Option Task
  | .session p s phase => some (.session p s phase)
  | .worker p device _ => some (.worker p device .ready)
  | _ => none

namespace Cluster

def post? (c : Cluster) (t : TaskId) : Option Task := (c.tasks.get? t).bind Task.post?

/-- Posts are numbered like all tasks, below the next one. -/
def Fresh (c : Cluster) : Prop := ∀ u, c.nextTask ≤ u → c.post? u = none

/-- A presence record stands in the store, lapsed or not. -/
def Noted (c : Cluster) (device : String) (conn : Uuid) : Prop :=
  ∃ slot, c.store.store.slots.get? (Presence.key device conn) = some slot

/-- The store serves what it served, and no record comes up in it, unless a process holds the
connection. -/
structure Sheds (c : Cluster) (s : SharedStore) : Prop where
  down : s.down = c.store.down
  noted : ∀ device conn slot, s.store.slots.get? (Presence.key device conn) = some slot →
    c.Noted device conn ∨ ∃ p, c.recorded? p conn = some device

/-- From one state to the other the front stays as it is. -/
structure Aside (c c' : Cluster) : Prop where
  desks : c'.processes.image Process.desk = c.processes.image Process.desk
  addresses : c'.sockets.image (·.address) = c.sockets.image (·.address)
  now : c'.now = c.now
  onward : c.nextTask ≤ c'.nextTask
  posts : ∀ u, u < c.nextTask ∨ c'.nextTask ≤ u → c'.post? u = c.post? u
  others : ∀ u, c.nextTask ≤ u → u < c'.nextTask → c'.post? u = none
  records : Sheds c c'.store

section Aside
variable {c c₁ c' : Cluster}

theorem presence_of_desks (h : c'.processes.image Process.desk = c.processes.image Process.desk)
    (p : Nat) : c'.presence? p = c.presence? p := by
  have hp := congrArg (fun t => (Table.get? t p).map (·.presence)) h
  simp only [Table.get?_image, Option.map_map] at hp
  exact hp

theorem recorded_of_desks (h : c'.processes.image Process.desk = c.processes.image Process.desk)
    (p : Nat) (conn : Uuid) : c'.recorded? p conn = c.recorded? p conn := by
  rw [recorded?, recorded?, presence_of_desks h]

theorem sheds_of_slots {s : SharedStore} (hdown : s.down = c.store.down) (h : ∀ device conn,
    s.store.slots.get? (Presence.key device conn) =
      c.store.store.slots.get? (Presence.key device conn)) : Sheds c s :=
  ⟨hdown, fun device conn slot hslot => Or.inl ⟨slot, h device conn ▸ hslot⟩⟩

theorem Sheds.refl (c : Cluster) : Sheds c c.store := sheds_of_slots rfl fun _ _ => rfl

/-- Changes of everything else. -/
theorem aside_of_same (h : c'.processes = c.processes ∧ c'.sockets = c.sockets ∧
    c'.now = c.now ∧ c'.nextTask = c.nextTask ∧ c'.tasks = c.tasks) (hs : Sheds c c'.store) :
    Aside c c' := by
  obtain ⟨hprocesses, hsockets, hnow, hnext, htasks⟩ := h
  refine ⟨by rw [hprocesses], by rw [hsockets], hnow, Nat.le_of_eq hnext.symm, fun u _ => ?_,
    fun u hu hlt => absurd hlt (Nat.not_lt.mpr (hnext ▸ hu)), hs⟩
  rw [post?, post?, htasks]

theorem Aside.refl (c : Cluster) : Aside c c :=
  aside_of_same ⟨rfl, rfl, rfl, rfl, rfl⟩ (.refl c)

theorem Aside.trans (h : Aside c c₁) (h' : Aside c₁ c') : Aside c c' where
  desks := h'.desks.trans h.desks
  addresses := h'.addresses.trans h.addresses
  now := h'.now.trans h.now
  onward := Nat.le_trans h.onward h'.onward
  posts u hu := by
    rcases hu with hlt | hle
    · rw [h'.posts u (Or.inl (Nat.lt_of_lt_of_le hlt h.onward)), h.posts u (Or.inl hlt)]
    · rw [h'.posts u (Or.inr hle), h.posts u (Or.inr (Nat.le_trans h'.onward hle))]
  others u hu hlt := by
    by_cases hu' : u < c₁.nextTask
    · rw [h'.posts u (Or.inl hu'), h.others u hu hu']
    · exact h'.others u (Nat.le_of_not_lt hu') hlt
  records := by
    refine ⟨h'.records.down.trans h.records.down, fun device conn slot hslot => ?_⟩
    rcases h'.records.noted device conn slot hslot with ⟨old, hold⟩ | ⟨p, hheld⟩
    · exact h.records.noted device conn old hold
    · exact Or.inr ⟨p, recorded_of_desks h.desks p conn ▸ hheld⟩

theorem Aside.fresh (h : Aside c c') (hf : Fresh c) : Fresh c' := fun u hu =>
  (h.posts u (Or.inr hu)).trans (hf u (Nat.le_trans h.onward hu))

/-- A task without a post has none later either. -/
theorem Aside.unposted (h : Aside c c') {t : TaskId} (ht : c.post? t = none) :
    c'.post? t = none := by
  by_cases hlt : t < c.nextTask
  · exact (h.posts t (Or.inl hlt)).trans ht
  · by_cases hle : c'.nextTask ≤ t
    · exact (h.posts t (Or.inr hle)).trans ht
    · exact h.others t (Nat.le_of_not_lt hlt) (Nat.lt_of_not_le hle)

theorem Aside.same (h : Aside c c₁) (hsame : c'.processes = c₁.processes ∧
    c'.sockets = c₁.sockets ∧ c'.now = c₁.now ∧ c'.nextTask = c₁.nextTask ∧
    c'.tasks = c₁.tasks ∧ c'.store = c₁.store) : Aside c c' := by
  obtain ⟨hprocesses, hsockets, hnow, hnext, htasks, hstore⟩ := hsame
  refine h.trans (aside_of_same ⟨hprocesses, hsockets, hnow, hnext, htasks⟩ ?_)
  rw [hstore]
  exact .refl c₁

theorem aside_of_eq {α : Type} {x : Cluster × α} {a : α} (h : x = (c', a)) (hx : Aside c x.1) :
    Aside c c' := by
  rw [h] at hx
  exact hx

theorem post_setTask (c : Cluster) (t u : TaskId) (task : Task) :
    (c.setTask t task).post? u = if u = t then task.post? else c.post? u := by
  simp only [post?, setTask, Table.get?_put]
  split <;> rfl

theorem post_erase (c : Cluster) (t u : TaskId) :
    ({ c with tasks := c.tasks.erase t } : Cluster).post? u =
      if u = t then none else c.post? u := by
  simp only [post?, Table.get?_erase]
  split <;> rfl

/-- A task goes on in another phase. -/
theorem Aside.setTask (h : Aside c c₁) {t : TaskId} {task : Task}
    (ht : c₁.post? t = task.post?) : Aside c (c₁.setTask t task) := by
  refine h.trans ⟨rfl, rfl, rfl, Nat.le_refl _, fun u _ => ?_, ?_, .refl c₁⟩
  · rw [post_setTask]
    split
    · rename_i hu
      rw [hu, ht]
    · rfl
  · exact fun u hu hlt => absurd hlt (Nat.not_lt.mpr hu)

/-- A task that takes no post starts. -/
theorem Aside.spawn (h : Aside c c₁) {task : Task} (ht : task.post? = none) :
    Aside c (c₁.spawn task).1 := by
  have hpost : ∀ u, (c₁.spawn task).1.post? u = if u = c₁.nextTask then none else c₁.post? u := by
    intro u
    have hset := post_setTask c₁ c₁.nextTask u task
    rw [ht] at hset
    exact hset
  refine h.trans ⟨rfl, rfl, rfl, Nat.le_succ _, fun u hu => ?_, fun u hu hlt => ?_, .refl c₁⟩
  · rw [hpost, if_neg ?_]
    rintro rfl
    exact hu.elim (Nat.lt_irrefl _) (Nat.not_succ_le_self _)
  · rw [hpost, if_pos (Nat.le_antisymm (Nat.le_of_lt_succ hlt) hu)]

/-- A task without a post is over. -/
theorem Aside.finish (h : Aside c c₁) {t : TaskId} (ht : c₁.post? t = none) :
    Aside c (c₁.finish t) := by
  obtain ⟨woken, parked, he⟩ := finish_eq c₁ t
  have hpost : ∀ u, (c₁.finish t).post? u = c₁.post? u := by
    intro u
    rw [he]
    refine (post_erase c₁ t u).trans ?_
    split
    · rename_i hu
      rw [hu, ht]
    · rfl
  refine h.trans ⟨?_, ?_, ?_, ?_, fun u _ => hpost u, fun u hu hlt => ?_, ?_⟩
  all_goals rw [he] at *
  · rfl
  · rfl
  · rfl
  · exact Nat.le_refl _
  · exact absurd hlt (Nat.not_lt.mpr hu)
  · exact .refl c₁

end Aside

section Operations
variable (c : Cluster) (p : Nat) (t : TaskId) (s : Nat)

theorem aside_store {store : SharedStore} (h : Sheds c store) :
    Aside c { c with store := store } := aside_of_same ⟨rfl, rfl, rfl, rfl, rfl⟩ h

theorem aside_updateProcess {f : Process → Process} (h : ∀ q, (f q).desk = q.desk) :
    Aside c (c.updateProcess p f) where
  desks := Table.image_modify c.processes p h
  addresses := rfl
  now := rfl
  onward := Nat.le_refl _
  posts _ _ := rfl
  others _ hu hlt := absurd hlt (Nat.not_lt.mpr hu)
  records := .refl c

theorem aside_setEngine (e : Engine) : Aside c (c.setEngine p e) :=
  aside_updateProcess c p fun _ => rfl

theorem aside_wake : Aside c (c.wake t) := by
  unfold wake
  split
  · exact .refl c
  · exact (Aside.refl c).same ⟨rfl, rfl, rfl, rfl, rfl, rfl⟩

theorem aside_notify (sig : Signal) : Aside c (c.notify sig) := by
  obtain ⟨woken, h⟩ := c.notify_eq sig
  rw [h]
  exact (Aside.refl c).same ⟨rfl, rfl, rfl, rfl, rfl, rfl⟩

theorem aside_park (sig : Signal) : Aside c (c.park t sig) := by
  obtain ⟨parked, h⟩ := c.park_eq t sig
  rw [h]
  exact (Aside.refl c).same ⟨rfl, rfl, rfl, rfl, rfl, rfl⟩

theorem aside_putSocket {socket socket' : Socket} (h : c.sockets.get? s = some socket)
    (ha : socket'.address = socket.address) :
    Aside c { c with sockets := c.sockets.put s socket' } where
  desks := rfl
  addresses := Table.image_put h ha
  now := rfl
  onward := Nat.le_refl _
  posts _ _ := rfl
  others _ hu hlt := absurd hlt (Nat.not_lt.mpr hu)
  records := .refl c

theorem aside_updateSocket {f : Socket → Socket} (h : ∀ x, (f x).address = x.address) :
    Aside c (c.updateSocket s f) where
  desks := rfl
  addresses := Table.image_modify c.sockets s h
  now := rfl
  onward := Nat.le_refl _
  posts _ _ := rfl
  others _ hu hlt := absurd hlt (Nat.not_lt.mpr hu)
  records := .refl c

theorem aside_transmit (f : Frame) : Aside c (c.transmit s f).1 := by
  unfold transmit
  split
  · exact .refl c
  · rename_i socket h
    refine aside_putSocket c s h ?_
    unfold Socket.send
    split <;> rfl

theorem aside_nextIncoming : Aside c (c.nextIncoming s).1 := by
  unfold nextIncoming
  split
  · exact .refl c
  · rename_i socket h
    split
    · exact .refl c
    · exact aside_putSocket c s h rfl

theorem aside_popLive (device : String) : Aside c (c.popLive p device).1 := aside_setEngine c p _

theorem aside_decide (id : Uuid) (changed : Engine × Bool) :
    Aside c (c.decide p id changed).1 := by
  refine (aside_setEngine c p changed.1).trans ?_
  unfold Cluster.decide
  dsimp only
  split
  · exact aside_notify _ _
  · exact .refl _

theorem aside_requeueFront (item : QueuedCommand) : Aside c (c.requeueFront p item) :=
  (aside_setEngine c p _).trans (aside_notify _ _)

theorem aside_awaitOutcome (id : Uuid) : Aside c (c.awaitOutcome t p id).1 := by
  unfold awaitOutcome
  split
  · exact .refl c
  · exact aside_park c t _

theorem aside_acquire (device : String) : Aside c (c.acquire p device t).1 := by
  unfold acquire
  split
  · exact .refl c
  · exact aside_updateProcess c p fun _ => rfl

theorem aside_release (device : String) : Aside c (c.release p device) := by
  unfold release
  split
  · exact .refl c
  · dsimp only
    split
    · exact aside_updateProcess c p fun _ => rfl
    · exact (aside_updateProcess c p (by intro q; rfl)).trans (aside_wake _ _)

theorem aside_enqueue (device : String) (command : Command) (blob : Option ByteArray)
    (timeout : Nat) : Aside c (c.enqueue p device command blob timeout).1 := by
  have hfresh : Aside c c.freshId.1 := (Aside.refl c).same ⟨rfl, rfl, rfl, rfl, rfl, rfl⟩
  exact ((hfresh.spawn rfl).trans (aside_setEngine _ p _)).trans (aside_notify _ _)

/-- A write at a key for a list. -/
theorem sheds_of_touches {key : String} (hkey : Store.HoldsList key) {s : SharedStore}
    (h : SharedStore.Touches key c.store s) : Sheds c s :=
  sheds_of_slots h.down fun device conn => by
    refine h.slots _ ?_
    rcases hkey with ⟨other, rfl⟩ | ⟨job, rfl⟩
    · exact (BridgeJob.listKey_ne_key other device conn).symm
    · exact (BridgeJob.replyKey_ne_key job device conn).symm

theorem aside_push {key : String} (hkey : Store.HoldsList key) (value : String) :
    Aside c (c.push key value).1 := by
  have hstore := aside_store c (sheds_of_touches c hkey (c.store.touches_rpush key c.now value))
  unfold push
  dsimp only
  split
  · exact hstore.trans (aside_notify _ _)
  · exact hstore

theorem sheds_tryPop (key : String) : Sheds c (c.tryPop key).1.store := by
  refine ⟨(c.store.touches_tryPop key c.now).down, fun device conn slot hslot => ?_⟩
  by_cases hk : Presence.key device conn = key
  · -- An attempt may change a list, but where nothing stands it puts nothing.
    subst hk
    cases hold : c.store.store.slots.get? (Presence.key device conn) with
    | some old => exact Or.inl ⟨old, hold⟩
    | none =>
      simp [tryPop, SharedStore.tryPop, Store.tryPop, Store.live?, hold, Store.del] at hslot
  · exact Or.inl ⟨slot, (c.store.touches_tryPop key c.now).slots _ hk ▸ hslot⟩

theorem aside_tryPop (key : String) : Aside c (c.tryPop key).1 :=
  aside_store c (sheds_tryPop c key)

theorem aside_awaitPop (key : String) (deadline : Nat) :
    Aside c (c.awaitPop t key deadline).1 := by
  have hpop := aside_tryPop c key
  unfold awaitPop
  split <;> rename_i h
  · have hc := aside_of_eq h hpop
    split
    · exact hc.same ⟨rfl, rfl, rfl, rfl, rfl, rfl⟩
    · exact (hc.trans (aside_park _ t _)).same ⟨rfl, rfl, rfl, rfl, rfl, rfl⟩
  · exact (aside_of_eq h hpop).same ⟨rfl, rfl, rfl, rfl, rfl, rfl⟩

theorem aside_pushReply (job : Uuid) (reply : BridgeReply) : Aside c (c.pushReply job reply) := by
  have hkey : Store.HoldsList (BridgeJob.replyKey job) := Or.inr ⟨job, rfl⟩
  have hpush := aside_push c hkey reply.text
  unfold pushReply
  dsimp only
  split <;> rename_i h
  · exact aside_of_eq h hpush
  · refine (aside_of_eq h hpush).trans (aside_store _ ?_)
    exact sheds_of_touches _ hkey (SharedStore.touches_expire _ _ _ _)

theorem aside_handleJob (device raw : String) : Aside c (c.handleJob p device raw) := by
  unfold handleJob
  split
  · exact .refl c
  · exact aside_pushReply c _ _
  · exact (aside_enqueue c p device _ _ _).spawn rfl

theorem aside_submit (device : String) (command : Command) (blob : Option ByteArray)
    (timeout : Nat) : Aside c (c.submit p device command blob timeout).1 := by
  have hfresh : Aside c c.freshId.1 := (Aside.refl c).same ⟨rfl, rfl, rfl, rfl, rfl, rfl⟩
  have hpush := fun value => hfresh.trans (aside_push c.freshId.1 (Or.inl ⟨device, rfl⟩) value)
  unfold submit
  dsimp only
  split <;> rename_i h
  · exact (aside_of_eq h (hpush _)).trans (aside_release _ p device)
  · split
    · exact (aside_of_eq h (hpush _)).trans (aside_release _ p device)
    · exact aside_of_eq h (hpush _)

theorem aside_countAlive (device : String) : Aside c (c.countAlive device).1 := by
  refine aside_store c ?_
  cases c.store.refusal? .countPrefix with
  | some e => exact .refl c
  | none =>
    refine ⟨rfl, fun other conn slot hslot => Or.inl ?_⟩
    have hmem := (List.mem_filter.mp (Table.mem_of_get? hslot)).1
    exact (Table.has_iff _ _).mp ((Table.mem_keys_iff _ _).mp (List.mem_map.mpr ⟨_, hmem, rfl⟩))

theorem sheds_refresh (conn : Uuid) {q : Process} (hq : c.processes.get? p = some q) :
    Sheds c (q.presence.refresh c.store conn c.now).1 := by
  cases hd : q.presence.held.get? conn with
  | none =>
    simp only [Presence.refresh, hd]
    exact .refl c
  | some device =>
    have htouches := q.presence.touches_refresh c.store conn c.now hd
    refine ⟨htouches.down, fun other x slot hslot => ?_⟩
    by_cases hk : Presence.key other x = Presence.key device conn
    · obtain ⟨rfl, rfl⟩ := Presence.key_inj hk
      refine Or.inr ⟨p, ?_⟩
      rw [recorded?, presence?, hq]
      exact hd
    · exact Or.inl ⟨slot, htouches.slots _ hk ▸ hslot⟩

/-- A refresh may write the record of a connection that its process holds. -/
theorem aside_refresh (conn : Uuid) : Aside c (c.refresh p conn).1 := by
  unfold refresh
  split
  · exact .refl c
  · rename_i q hq
    exact aside_store c (sheds_refresh c p conn hq)

end Operations

section Turns
variable (c : Cluster) {t : TaskId} (p : Nat)

theorem aside_consumerTurn (device : String) : Aside c (c.consumerTurn t p device).1 := by
  have hpop := aside_popLive c p device
  unfold consumerTurn
  split <;> rename_i h
  · exact (aside_of_eq h hpop).same ⟨rfl, rfl, rfl, rfl, rfl, rfl⟩
  · exact (aside_of_eq h hpop).trans (aside_park _ t _)

theorem aside_popperTurn (key : String) (deadline : Nat) :
    Aside c (c.popperTurn t key deadline).1 := by
  have hpop := aside_awaitPop c t key deadline
  unfold popperTurn
  split <;> rename_i h
  · exact (aside_of_eq h hpop).same ⟨rfl, rfl, rfl, rfl, rfl, rfl⟩
  · exact aside_of_eq h hpop

theorem aside_callerTurn (id : Uuid) : Aside c (c.callerTurn t p id).1 := by
  have hwait := aside_awaitOutcome c p t id
  unfold callerTurn
  split <;> rename_i h
  · exact (aside_of_eq h hwait).same ⟨rfl, rfl, rfl, rfl, rfl, rfl⟩
  · exact aside_of_eq h hwait

theorem aside_replierTurn (id job : Uuid) : Aside c (c.replierTurn t p id job).1 := by
  have hwait := aside_awaitOutcome c p t id
  unfold replierTurn
  split <;> rename_i h
  · exact (aside_of_eq h hwait).trans (aside_pushReply _ job _)
  · exact aside_of_eq h hwait

theorem aside_expiryTurn (id : Uuid) (deadline : Nat) :
    Aside c (c.expiryTurn t p id deadline).1 := by
  unfold expiryTurn
  split
  · exact aside_decide c p id _
  · exact (Aside.refl c).same ⟨rfl, rfl, rfl, rfl, rfl, rfl⟩

theorem aside_carry (bridged : Bool) (program : Program (Outcome RemoteAnswer))
    (ht : c.post? t = none) : Aside c (c.carry t p bridged program).1 := by
  induction program generalizing c with
  | finish answer => exact (Aside.refl c).same ⟨rfl, rfl, rfl, rfl, rfl, rfl⟩
  | countAlive device next ih =>
    have hcount := aside_countAlive c device
    exact hcount.trans (ih _ (c.countAlive device).1 (hcount.unposted ht))
  | log entry next ih =>
    have hwrite : Aside c (c.write [entry]) :=
      (Aside.refl c).same ⟨rfl, rfl, rfl, rfl, rfl, rfl⟩
    exact hwrite.trans (ih (c.write [entry]) (hwrite.unposted ht))
  | ssh run next ih => exact ih _ c ht
  | relay a b next ih => exact ih _ c ht
  | send device command blob timeout next ih =>
    unfold carry
    split
    · have hqueued := aside_enqueue c p device command blob timeout
      exact hqueued.setTask (hqueued.unposted ht)
    · have hasked := aside_acquire c p t device
      exact hasked.setTask (hasked.unposted ht)

theorem aside_callTurn (bridged : Bool) (phase : CallPhase) (ht : c.post? t = none) :
    Aside c (c.callTurn t p bridged phase).1 := by
  unfold callTurn
  split
  · exact aside_carry c p bridged _ ht
  · rename_i id next
    have hwait := aside_awaitOutcome c p t id
    split <;> rename_i h
    · have hc := aside_of_eq h hwait
      exact hc.trans (aside_carry _ p bridged _ (hc.unposted ht))
    · exact aside_of_eq h hwait
  · rename_i device command blob timeout next
    have hsubmit := aside_submit c p device command blob timeout
    split
    · split <;> rename_i h
      · have hc := aside_of_eq h hsubmit
        exact hc.trans (aside_carry _ p bridged _ (hc.unposted ht))
      · have hc := aside_of_eq h hsubmit
        exact hc.setTask (hc.unposted ht)
    · exact .refl c
  · rename_i job device command timeout deadline next
    have hpop := aside_awaitPop c t (BridgeJob.replyKey job) deadline
    split <;> rename_i h
    · exact aside_of_eq h hpop
    · have hc := (aside_of_eq h hpop).trans (aside_release _ p device)
      exact hc.trans (aside_carry _ p bridged _ (hc.unposted ht))

/-- A worker goes on with its device, whatever it finds on the list. -/
theorem aside_workerTurn {device : String} {phase : WorkerPhase} (hlt : t < c.nextTask)
    (ht : c.tasks.get? t = some (.worker p device phase)) :
    Aside c (c.workerTurn t p device phase).1 ∧ (c.workerTurn t p device phase).2 ≠ .over := by
  have hpost : c.post? t = some (.worker p device .ready) := by
    rw [post?, ht]
    rfl
  have hgoes : ∀ {c₁} (_ : Aside c c₁) (later : WorkerPhase),
      Aside c (c₁.setTask t (.worker p device later)) := by
    intro c₁ hc later
    exact hc.setTask ((hc.posts t (Or.inl hlt)).trans hpost)
  unfold workerTurn
  split
  · exact ⟨hgoes (.refl c) _, Turn.noConfusion⟩
  · rename_i deadline
    have hpop := aside_awaitPop c t (BridgeJob.listKey device) deadline
    split <;> rename_i h
    · exact ⟨aside_of_eq h hpop, Turn.noConfusion⟩
    · rename_i c' raw
      have hc := aside_of_eq h hpop
      refine ⟨hgoes ?_ _, Turn.noConfusion⟩
      cases raw with
      | some raw => exact hc.trans (aside_handleJob c' p device raw)
      | none => exact hc
    · exact ⟨hgoes (aside_of_eq h hpop) _, Turn.noConfusion⟩
  · split
    · exact ⟨hgoes (.refl c) _, Turn.noConfusion⟩
    · exact ⟨(Aside.refl c).same ⟨rfl, rfl, rfl, rfl, rfl, rfl⟩, Turn.noConfusion⟩

theorem aside_heartbeatTurn (conn : Uuid) (interval due : Nat) (ht : c.post? t = none) :
    Aside c (c.heartbeatTurn t p conn interval due).1 := by
  have hrefresh := aside_refresh c p conn
  unfold heartbeatTurn
  split
  · exact .refl c
  · split
    · exact hrefresh.setTask (hrefresh.unposted ht)
    · exact (Aside.refl c).same ⟨rfl, rfl, rfl, rfl, rfl, rfl⟩

theorem aside_senderTurn (s : Nat) (device : DeviceRecord) (conn : Uuid) (phase : SenderPhase)
    (ht : c.post? t = none) : Aside c (c.senderTurn t p s device conn phase).1 := by
  cases phase with
  | idle =>
    have hpop := aside_popLive c p device.deviceId
    rw [senderTurn, idleTurn]
    split
    · exact .refl c
    · split <;> rename_i h
      · exact ((aside_of_eq h hpop).trans (aside_park _ t _)).trans (aside_park _ t _)
      · rename_i c₁ item
        have hmarked := (aside_of_eq h hpop).trans
          (aside_setEngine c₁ p ((c₁.engine p).markSent item.id conn).1)
        dsimp only
        split
        · unfold dispatch
          have hexpects : ∀ bodies, Aside c
              ((c₁.setEngine p ((c₁.engine p).markSent item.id conn).1).setBodies conn bodies) :=
            fun _ => hmarked.same ⟨rfl, rfl, rfl, rfl, rfl, rfl⟩
          dsimp only
          split
          · exact (hexpects _).setTask ((hexpects _).unposted ht)
          · exact hmarked.setTask (hmarked.unposted ht)
        · exact hmarked
  | sending item frames =>
    rw [senderTurn]
    cases frames with
    | nil => exact (Aside.refl c).setTask ht
    | cons f rest =>
      have hsend := aside_transmit c s f
      simp only [sendingTurn]
      split
      · exact aside_park c t _
      · split <;> rename_i h
        · have hc := aside_of_eq h hsend
          exact hc.setTask (hc.unposted ht)
        · refine ((aside_of_eq h hsend).same ?_).trans (aside_requeueFront _ p item)
          exact ⟨rfl, rfl, rfl, rfl, rfl, rfl⟩

end Turns

/-- The turn of a task that is no session leaves the front as it is. -/
theorem aside_turn {c : Cluster} (hf : Fresh c) {t : TaskId}
    (hs : ∀ p s phase, c.tasks.get? t ≠ some (.session p s phase)) :
    Aside c (turn c t).1 ∧ ((turn c t).2 = .over → c.post? t = none) := by
  have hlt : ∀ {w}, c.post? t = some w → t < c.nextTask := by
    intro w hw
    refine Nat.lt_of_not_le fun hle => ?_
    rw [hf t hle] at hw
    cases hw
  cases ht : c.tasks.get? t with
  | none =>
    have hnone : c.post? t = none := by rw [post?, ht]; rfl
    simp only [turn, ht]
    exact ⟨.refl c, fun _ => hnone⟩
  | some task =>
    have hpost : c.post? t = task.post? := by rw [post?, ht]; rfl
    simp only [turn, ht]
    cases task with
    | expiry p id deadline => exact ⟨aside_expiryTurn c p id deadline, fun _ => hpost⟩
    | consumer p device => exact ⟨aside_consumerTurn c p device, fun _ => hpost⟩
    | popper key deadline => exact ⟨aside_popperTurn c key deadline, fun _ => hpost⟩
    | caller p id => exact ⟨aside_callerTurn c p id, fun _ => hpost⟩
    | replier p id job => exact ⟨aside_replierTurn c p id job, fun _ => hpost⟩
    | call p bridged phase => exact ⟨aside_callTurn c p bridged phase hpost, fun _ => hpost⟩
    | worker p device phase =>
      obtain ⟨hturn, hgoes⟩ := aside_workerTurn c p (hlt hpost) ht
      exact ⟨hturn, fun hover => absurd hover hgoes⟩
    | sender p s device conn phase =>
      exact ⟨aside_senderTurn c p s device conn phase hpost, fun _ => hpost⟩
    | heartbeat p conn interval due =>
      exact ⟨aside_heartbeatTurn c p conn interval due hpost, fun _ => hpost⟩
    | session p s phase => exact absurd ht (hs p s phase)

/-- A turn that leaves the front as it is ends. -/
theorem aside_conclude {c : Cluster} {t : TaskId} {r : Cluster × Turn} (h : Aside c r.1)
    (hover : r.2 = .over → c.post? t = none) : Aside c (conclude t r) := by
  obtain ⟨c', ends⟩ := r
  cases ends with
  | again => exact h.same ⟨rfl, rfl, rfl, rfl, rfl, rfl⟩
  | waits => exact h
  | _ => exact h.finish (h.unposted (hover rfl))

/-- Whether a process or a session comes with an event. -/
def Event.opens : Event → Bool
  | .addProcess _ => true
  | .connect _ _ => true
  | _ => false

section Events
variable {c : Cluster}

theorem aside_give (hf : Fresh c) {t : TaskId}
    (hs : ∀ p s phase, c.tasks.get? t ≠ some (.session p s phase)) : Aside c (c.give t) := by
  by_cases hr : t ∈ c.ready
  · rw [give_of_mem hr]
    have hlifted : Aside c { c with ready := c.ready.erase t } :=
      (Aside.refl c).same ⟨rfl, rfl, rfl, rfl, rfl, rfl⟩
    obtain ⟨hturn, hover⟩ := aside_turn (c := { c with ready := c.ready.erase t }) hf hs
    exact aside_conclude (hlifted.trans hturn) hover
  · rw [give_of_not_mem hr]
    exact .refl c

theorem aside_arrive (c : Cluster) (s : Nat) (m : Incoming) : Aside c (c.arrive s m).1 := by
  unfold arrive
  split
  · exact .refl c
  · rename_i socket h
    refine (aside_putSocket c s h ?_).trans (aside_notify _ _)
    unfold Socket.arrive
    split
    · rfl
    · split <;> rfl

theorem aside_deafen (c : Cluster) (s : Nat) : Aside c (c.deafen s) :=
  (aside_updateSocket (f := Socket.deafen) c s fun _ => rfl).trans (aside_notify _ _)

/-- Whatever happens, the front changes only with time, with what the store refuses, in the turns of
sessions, and where a process or a session comes. -/
structure Occurs (c : Cluster) (e : Event) (c' : Cluster) : Prop where
  aside : Aside { c with now := c'.now, store := { c.store with down := c'.store.down } } c'
  onward : c.now ≤ c'.now
  down : c'.store.down = c.store.down ∨ e = .setOutages c'.store.down

theorem Aside.occurs {c' : Cluster} (h : Aside c c') (e : Event) : Occurs c e c' := by
  refine ⟨?_, Nat.le_of_eq h.now.symm, Or.inl h.records.down⟩
  rw [h.now, h.records.down]
  exact h

theorem occurs_happen (hf : Fresh c) {e : Event} (he : e.opens = false)
    (hs : ∀ t, e = .turn t → ∀ p s phase, c.tasks.get? t ≠ some (.session p s phase)) :
    Occurs c e (happen c e) := by
  cases e with
  | turn t => exact (aside_give hf (hs t rfl)).occurs _
  | pass ms =>
    obtain ⟨now, timers, ready, hle, hpass⟩ := pass_keeps c ms
    change Occurs c _ (c.pass ms)
    rw [hpass]
    exact ⟨(Aside.refl { c with now := now }).same ⟨rfl, rfl, rfl, rfl, rfl, rfl⟩, hle, Or.inl rfl⟩
  | addProcess settings => cases he
  | setOutages down =>
    exact ⟨Aside.refl { c with store := { c.store with down := down } }, Nat.le_refl _, Or.inr rfl⟩
  | setDirectory directory =>
    refine Aside.occurs ?_ _
    exact (Aside.refl c).same ⟨rfl, rfl, rfl, rfl, rfl, rfl⟩
  | connect p address => cases he
  | arrive s m => exact (aside_arrive c s m).occurs _
  | deafen s => exact (aside_deafen c s).occurs _
  | stall s => exact (aside_updateSocket (f := Socket.stall) c s fun _ => rfl).occurs _
  | resume s =>
    have hupdate := aside_updateSocket (f := Socket.resume) c s fun _ => rfl
    exact (hupdate.trans (aside_notify _ _)).occurs _
  | vanish s => exact ((aside_deafen c s).trans (aside_arrive _ s _)).occurs _
  | takeFrames s =>
    refine Aside.occurs ?_ _
    simp only [happen, takeFrames]
    split
    · exact .refl c
    · exact aside_updateSocket c s fun _ => rfl
  | takeLog =>
    refine Aside.occurs ?_ _
    exact (Aside.refl c).same ⟨rfl, rfl, rfl, rfl, rfl, rfl⟩
  | takeResults =>
    refine Aside.occurs ?_ _
    exact (Aside.refl c).same ⟨rfl, rfl, rfl, rfl, rfl, rfl⟩
  | call p device operation =>
    have hfresh : Aside c c.freshId.1 := (Aside.refl c).same ⟨rfl, rfl, rfl, rfl, rfl, rfl⟩
    exact (hfresh.spawn rfl).occurs _
  | callBridged p device command blob timeout => exact ((Aside.refl c).spawn rfl).occurs _
  | consume p device => exact ((Aside.refl c).spawn rfl).occurs _
  | await p id => exact ((Aside.refl c).spawn rfl).occurs _
  | pop key timeout =>
    refine Aside.occurs ?_ _
    simp only [happen, pop]
    split
    · exact (Aside.refl c).spawn rfl
    · exact ⟨rfl, rfl, rfl, Nat.le_succ _, fun _ _ => rfl, fun u hu _ => hf u hu, .refl c⟩
  | popNow key =>
    refine Aside.occurs ?_ _
    simp only [happen, popNow]
    split
    · exact aside_tryPop c key
    · exact .refl c
  | beat p conn interval => exact ((Aside.refl c).spawn rfl).occurs _

end Events

end Cluster

end FleetControl
