import FleetControl.Proofs.Bridge.Handling
import FleetControl.Proofs.Bridge.Projection

/-! # Entries of job lists

What a worker does with the first entry of its list is said by the verdict on the text alone. A
reply goes onto the list of its job and onto no other, and with a store that refuses nothing every
reply list lapses after a while. -/
namespace FleetControl.Cluster
open BridgeJob (listKey replyKey)
open SharedStore (Touches)

section Lists
variable {c c' : Cluster}

theorem listed_of_touches {key other : String} (h : Touches key c.store c'.store)
    (hnow : c'.now = c.now) (hne : other ≠ key) : c'.listed other = c.listed other := by
  rw [listed, listed, hnow, Store.listed_congr (h.slots other hne)]

theorem listed_of_store (hstore : c'.store = c.store) (hnow : c'.now = c.now) (key : String) :
    c'.listed key = c.listed key := by
  rw [listed, listed, hstore, hnow]

theorem touches_pushReply (c : Cluster) (job : Uuid) (reply : BridgeReply) :
    Touches (replyKey job) c.store (c.pushReply job reply).store := by
  have hpush := c.touches_push (replyKey job) reply.text
  unfold pushReply
  dsimp only
  split <;> rename_i h <;> rw [h] at hpush
  · exact hpush
  · exact hpush.trans (SharedStore.touches_expire ..)

theorem now_pushReply (c : Cluster) (job : Uuid) (reply : BridgeReply) :
    (c.pushReply job reply).now = c.now := by
  have hpush := c.now_push (replyKey job) reply.text
  unfold pushReply
  dsimp only
  split <;> rename_i h <;> rw [h] at hpush <;> exact hpush

theorem now_enqueue (c : Cluster) (p : Nat) (device : String) (command : Command)
    (blob : Option ByteArray) (timeout : Nat) :
    (c.enqueue p device command blob timeout).1.now = c.now := now_notify _ _

theorem push_down (h : .rpush ∈ c.store.down) (key value : String) :
    ∃ e, c.push key value = (c, .error e) := by
  refine ⟨.store (StoreOp.rpush.name ++ " unavailable"), ?_⟩
  rw [push, SharedStore.rpush, SharedStore.refusal?, if_pos h]

theorem push_up (h : .rpush ∉ c.store.down) (hfiled : c.store.store.Filed) {key : String}
    (hkey : Store.HoldsList key) (value : String) : ∃ c₁, c.push key value = (c₁, .ok ()) := by
  obtain ⟨store, hstore⟩ := hfiled.rpush_ok hkey value c.now
  refine ⟨({ c with store := { c.store with store := store } } : Cluster).notify .pushed, ?_⟩
  rw [push, SharedStore.rpush, SharedStore.refusal?, if_neg h]
  simp only [hstore]

theorem listed_pushReply (hfiled : c.store.store.Filed) (job : Uuid) (reply : BridgeReply) :
    (c.pushReply job reply).listed (replyKey job) =
      c.listed (replyKey job) ++ if .rpush ∈ c.store.down then [] else [reply.text] := by
  by_cases hdown : .rpush ∈ c.store.down
  · obtain ⟨e, hpush⟩ := push_down hdown (replyKey job) reply.text
    rw [if_pos hdown, List.append_nil, pushReply, hpush]
  · obtain ⟨c₁, hpush⟩ := push_up hdown hfiled (.inr ⟨job, rfl⟩) reply.text
    have hnow : c₁.now = c.now := (congrArg (·.1.now) hpush).symm.trans (c.now_push ..)
    rw [if_neg hdown, ← listed_push hpush, pushReply, hpush]
    dsimp only
    rw [listed, listed, SharedStore.expire]
    split
    · rfl
    · exact Store.listed_expire _ _ _ (by decide)

end Lists

namespace Handling

/-- The lists of replies are as they were. -/
def Silent (c c' : Cluster) : Prop := ∀ job, c'.listed (replyKey job) = c.listed (replyKey job)

/-- One reply is left, for one job, unless the store refuses it. -/
def Replied (c c' : Cluster) (job : Uuid) (reply : BridgeReply) : Prop :=
  ∀ other, c'.listed (replyKey other) = c.listed (replyKey other) ++
    if other = job ∧ .rpush ∉ c.store.down then [reply.text] else []

/-- No command is queued, and nobody is to wait for one. -/
structure Idle (c c' : Cluster) : Prop where
  engines : ∀ p, c'.engine p = c.engine p
  tasks : c'.nextTask = c.nextTask

/-- One command is queued, with its time limit and with somebody who replies to its job. -/
structure Queued (c c' : Cluster) (p : Nat) (device : String) (job : BridgeJob)
    (blob : Option ByteArray) (timeout : Nat) : Prop where
  queued : c.processes.has p = true → c'.engine p =
    (c.engine p).enqueue (c.supply.idOf c.drawn) device job.command blob timeout c.now
  others : ∀ q, q ≠ p → c'.engine q = c.engine q
  limit : c'.tasks.get? c.nextTask =
    some (.expiry p (c.supply.idOf c.drawn) (c.now + timeout))
  replier : c'.tasks.get? (c.nextTask + 1) = some (.replier p (c.supply.idOf c.drawn) job.id)
  tasks : c'.nextTask = c.nextTask + 2

/-- What is done about a text. -/
def Settles (c c' : Cluster) (p : Nat) (device : String) : BridgeJob.Verdict → Prop
  | .unreadable => Silent c c' ∧ Idle c c'
  | .malformed id => Replied c c' id (.failure .other "malformed job: not a job") ∧ Idle c c'
  | .late => Silent c c' ∧ Idle c c'
  | .undecodable id => Replied c c' id (.failure .decode "bad blob: not base64") ∧ Idle c c'
  | .sound job blob timeout => Silent c c' ∧ Queued c c' p device job blob timeout

/-- A worker takes the first entry off its list, does what is to be done about it, and goes on. -/
structure Handles (c c' : Cluster) (t : TaskId) (p : Nat) (device raw : String)
    (rest : List String) : Prop where
  taken : c'.listed (listKey device) = rest
  others : ∀ other, other ≠ device → c'.listed (listKey other) = c.listed (listKey other)
  settled : Settles c c' p device (BridgeJob.verdict raw (.ofInt c.wall))
  goes : c'.tasks.get? t = some (.worker p device .ready) ∧ t ∈ c'.ready

section Replied
variable {c c' : Cluster}

theorem replied_pushReply (hfiled : c.store.store.Filed) (job : Uuid) (reply : BridgeReply) :
    Replied c (c.pushReply job reply) job reply := by
  intro other
  by_cases hjob : other = job
  · subst hjob
    rw [listed_pushReply hfiled]
    by_cases hdown : .rpush ∈ c.store.down <;> simp [hdown]
  · have hkey : replyKey other ≠ replyKey job := fun he => hjob (BridgeJob.replyKey_inj he)
    rw [listed_of_touches (touches_pushReply c job reply) (now_pushReply c job reply) hkey,
      if_neg fun h => hjob h.1, List.append_nil]

theorem silent_of_touches {device : String} (h : Touches (listKey device) c.store c'.store)
    (hnow : c'.now = c.now) : Silent c c' := fun job =>
  listed_of_touches h hnow (BridgeJob.listKey_ne_replyKey device job).symm

end Replied

section Entries
variable {c : Cluster}

theorem nextTask_pushReply (c : Cluster) (job : Uuid) (reply : BridgeReply) :
    (c.pushReply job reply).nextTask = c.nextTask := by
  have hpush : (c.push (replyKey job) reply.text).1.nextTask = c.nextTask := by
    unfold push
    dsimp only
    split
    · obtain ⟨woken, h⟩ := notify_eq { c with store := _ } .pushed
      rw [h]
    · rfl
  unfold pushReply
  dsimp only
  split <;> rename_i h <;> rw [h] at hpush <;> exact hpush

theorem idle_pushReply (c : Cluster) (job : Uuid) (reply : BridgeReply) :
    Idle c (c.pushReply job reply) :=
  ⟨fun p => engine_pushReply c p job reply, nextTask_pushReply c job reply⟩

theorem queued_enqueue (c : Cluster) (p : Nat) (device : String) (job : BridgeJob)
    (blob : Option ByteArray) (timeout : Nat) :
    let taken := c.enqueue p device job.command blob timeout
    Queued c (taken.1.spawn (.replier p taken.2 job.id)).1 p device job blob timeout := by
  let started := (c.freshId.1.spawn (.expiry p c.freshId.2 (c.now + timeout))).1
  let e := (c.engine p).enqueue c.freshId.2 device job.command blob timeout c.now
  have hengine (q : Nat) : (c.enqueue p device job.command blob timeout).1.engine q =
      (started.setEngine p e).engine q := engine_notify _ q _
  obtain ⟨woken, he⟩ := notify_eq (started.setEngine p e) (.queued p device)
  have htaken : c.enqueue p device job.command blob timeout =
      ((started.setEngine p e).notify (.queued p device), c.freshId.2) := rfl
  have hnext : (c.enqueue p device job.command blob timeout).1.nextTask = c.nextTask + 1 := by
    rw [htaken, he]
    rfl
  refine ⟨fun hp => ?_, fun q hq => ?_, ?_, ?_, ?_⟩
  · rw [engine_spawn, hengine, engine_setEngine, if_pos ⟨rfl, hp⟩]
    rfl
  · rw [engine_spawn, hengine, engine_setEngine, if_neg fun h => hq h.1]
    rfl
  · have hother : c.nextTask ≠ (c.enqueue p device job.command blob timeout).1.nextTask := by
      rw [hnext]
      exact Nat.ne_of_lt (Nat.lt_succ_self _)
    refine (Table.get?_put_of_ne _ _ hother).trans ?_
    rw [htaken, he]
    exact Table.get?_put_self ..
  · rw [← hnext]
    exact Table.get?_put_self ..
  · exact congrArg (· + 1) hnext

/-- What a worker does with a text is what the verdict on it says. -/
theorem settles_handleJob (hfiled : c.store.store.Filed) (p : Nat) (device raw : String) :
    Settles c (c.handleJob p device raw) p device (BridgeJob.verdict raw (.ofInt c.wall)) := by
  have hidle : Idle c c := ⟨fun _ => rfl, rfl⟩
  have hsilent : Silent c c := fun _ => rfl
  unfold handleJob
  rw [BridgeJob.dispose_eq]
  cases BridgeJob.verdict raw (.ofInt c.wall) with
  | unreadable => exact ⟨hsilent, hidle⟩
  | malformed id => exact ⟨replied_pushReply hfiled id _, idle_pushReply c id _⟩
  | late => exact ⟨hsilent, hidle⟩
  | undecodable id => exact ⟨replied_pushReply hfiled id _, idle_pushReply c id _⟩
  | sound job blob timeout =>
    have hstore := store_enqueue c p device job.command blob timeout
    have hnow := now_enqueue c p device job.command blob timeout
    exact ⟨fun id => listed_of_store hstore hnow _, queued_enqueue c p device job blob timeout⟩

/-- Replies stand on lists of their own. -/
theorem listed_handleJob (c : Cluster) (p : Nat) (device raw other : String) :
    (c.handleJob p device raw).listed (listKey other) = c.listed (listKey other) := by
  unfold handleJob
  split
  · rfl
  · exact listed_of_touches (touches_pushReply c _ _) (now_pushReply c _ _)
      (BridgeJob.listKey_ne_replyKey other _)
  · exact listed_of_store (store_enqueue c p device _ _ _) (now_enqueue c p device _ _ _) _

/-- It makes no difference that the worker waited before, and what it does next. -/
theorem settles_framed {c₁ c₂ : Cluster} {ready : List TaskId} {t p : Nat} {device : String}
    {v : BridgeJob.Verdict} (hstore : Touches (listKey device) c.store c₁.store)
    (hsame : c₁.nextTask = c.nextTask ∧ c₁.supply = c.supply ∧ c₁.drawn = c.drawn ∧
      c₁.now = c.now ∧ c₁.processes = c.processes)
    (h : Settles c₁ c₂ p device v) (ht : t < c.nextTask) (task : Task) :
    Settles c { c₂.setTask t task with ready := ready } p device v := by
  obtain ⟨hnext, hsupply, hdrawn, hnow, hprocesses⟩ := hsame
  have hengine (q : Nat) : c₁.engine q = c.engine q := engine_congr hprocesses q
  have hbefore : Silent c c₁ := silent_of_touches hstore hnow
  have hsilent (h : Silent c₁ c₂) : Silent c { c₂.setTask t task with ready := ready } :=
    fun job => (h job).trans (hbefore job)
  have hidle (h : Idle c₁ c₂) : Idle c { c₂.setTask t task with ready := ready } :=
    ⟨fun q => (h.engines q).trans (hengine q), h.tasks.trans hnext⟩
  have hreplied {id : Uuid} {reply : BridgeReply} (h : Replied c₁ c₂ id reply) :
      Replied c { c₂.setTask t task with ready := ready } id reply := by
    intro job
    rw [← hbefore job, ← hstore.down]
    exact h job
  cases v with
  | unreadable => exact ⟨hsilent h.1, hidle h.2⟩
  | malformed id => exact ⟨hreplied h.1, hidle h.2⟩
  | late => exact ⟨hsilent h.1, hidle h.2⟩
  | undecodable id => exact ⟨hreplied h.1, hidle h.2⟩
  | sound job blob timeout =>
    obtain ⟨hqueued, hothers, hlimit, hreplier, htasks⟩ := h.2
    rw [hnext, hsupply, hdrawn] at hreplier
    rw [hnext, hsupply, hdrawn, hnow] at hlimit
    rw [hengine, hprocesses, hsupply, hdrawn, hnow] at hqueued
    refine ⟨hsilent h.1, hqueued, fun q hq => (hothers q hq).trans (hengine q), ?_, ?_,
      htasks.trans (by rw [hnext])⟩
    · exact (Table.get?_put_of_ne _ _ (Nat.ne_of_gt ht)).trans hlimit
    · exact (Table.get?_put_of_ne _ _ (Nat.ne_of_gt (Nat.lt_succ_of_lt ht))).trans hreplier

theorem handles_give (h : Tended c) (hfiled : c.store.store.Filed) {t p due : Nat}
    {device raw : String} {rest : List String} (ht : t ∈ c.ready)
    (hget : c.tasks.get? t = some (.worker p device (.polling due)))
    (hlisted : c.listed (listKey device) = raw :: rest) :
    Handles c (c.give t) t p device raw rest := by
  let popped : Cluster := ((tryPop { c with ready := c.ready.erase t } (listKey device)).1).unwait t
  have hpop := awaitPop_listed (c := { c with ready := c.ready.erase t }) hlisted t due
  let handled := (popped.handleJob p device raw).setTask t (.worker p device .ready)
  have hgive : c.give t = { handled with ready := t :: handled.ready.filter (· ≠ t) } := by
    rw [give_of_mem ht, turn, hget]
    dsimp only
    rw [workerTurn, hpop]
    rfl
  have htouches : Touches (listKey device) c.store popped.store := touches_tryPop c (listKey device)
  have hpopped : popped.store.store.Filed := hfiled.tryPop _ _
  have hlist (other : String) :
      (c.give t).listed (listKey other) = popped.listed (listKey other) := by
    rw [hgive]
    exact listed_handleJob popped p device raw other
  rw [hgive] at hlist ⊢
  refine ⟨?_, fun other hother => ?_, ?_, Table.get?_put_self .., List.mem_cons_self⟩
  · rw [hlist]
    exact (Store.tryPop_listed hlisted).2
  · rw [hlist]
    exact listed_of_touches htouches rfl fun he => hother (BridgeJob.listKey_inj he)
  · exact settles_framed htouches ⟨rfl, rfl, rfl, rfl, rfl⟩
      (settles_handleJob hpopped p device raw) (h.tasks t _ hget).1 _

end Entries

section Expiry
variable {c c₁ c₂ : Cluster}

/-- Every list of replies lapses before long. -/
def Expiring (c : Cluster) : Prop :=
  ∀ job slot, c.store.store.slots.get? (replyKey job) = some slot →
    ∃ due, slot.expiresAt = some due ∧ due ≤ c.now + BridgeReply.ttl

/-- The store refuses what it refused, and lists of replies lapse if it refuses nothing. -/
structure Ages (c c₁ : Cluster) : Prop where
  down : c₁.store.down = c.store.down
  files : Files c.store c₁.store
  expiring : c.store.down = [] → c.store.store.Filed → Expiring c → Expiring c₁

theorem Ages.refl (c : Cluster) : Ages c c := ⟨rfl, Files.refl _, fun _ _ h => h⟩

theorem Ages.trans (h : Ages c c₁) (h' : Ages c₁ c₂) : Ages c c₂ where
  down := h'.down.trans h.down
  files := h.files.trans h'.files
  expiring hup hf he := h'.expiring (h.down.trans hup) (h.files hf) (h.expiring hup hf he)

/-- What is not on the list of a job stays on its list, and time goes on. -/
theorem ages_of_slots (hdown : c₁.store.down = c.store.down) (hfiles : Files c.store c₁.store)
    (hnow : c.now ≤ c₁.now) (hslots : ∀ job, c₁.store.store.slots.get? (replyKey job) =
      c.store.store.slots.get? (replyKey job)) : Ages c c₁ := by
  refine ⟨hdown, hfiles, fun _ _ he job slot hget => ?_⟩
  obtain ⟨due, hdue, hle⟩ := he job slot ((hslots job).symm.trans hget)
  exact ⟨due, hdue, Nat.le_trans hle (Nat.add_le_add_right hnow _)⟩

theorem ages_of_store (hstore : c₁.store = c.store) (hnow : c.now ≤ c₁.now) : Ages c c₁ :=
  ages_of_slots (by rw [hstore]) (files_of_store hstore) hnow fun _ => by rw [hstore]

theorem ages_of_touches {device : String} (h : Touches (listKey device) c.store c₁.store)
    (hfiles : Files c.store c₁.store) (hnow : c₁.now = c.now) : Ages c c₁ :=
  ages_of_slots h.down hfiles (Nat.le_of_eq hnow.symm) fun job =>
    h.slots _ (BridgeJob.listKey_ne_replyKey device job).symm

/-- What is not about a job leaves its list alone. -/
theorem ages_of_touches_reply {job : Uuid} (h : Touches (replyKey job) c.store c₁.store)
    (hfiles : Files c.store c₁.store) (hnow : c₁.now = c.now)
    (hself : c.store.down = [] → c.store.store.Filed → Expiring c → ∀ slot,
      c₁.store.store.slots.get? (replyKey job) = some slot →
        ∃ due, slot.expiresAt = some due ∧ due ≤ c₁.now + BridgeReply.ttl) : Ages c c₁ := by
  refine ⟨h.down, hfiles, fun hup hf he other slot hget => ?_⟩
  by_cases hjob : other = job
  · subst hjob
    exact hself hup hf he slot hget
  · rw [h.slots _ fun hk => hjob (BridgeJob.replyKey_inj hk)] at hget
    rw [hnow]
    exact he other slot hget

theorem ages_collect (c : Cluster) (job : Uuid) : Ages c (c.tryPop (replyKey job)).1 := by
  refine ages_of_touches_reply (c.touches_tryPop _) (files_tryPop c _) rfl
    fun _ _ he slot hget => ?_
  obtain ⟨before, hbefore, hsame⟩ := Store.slot_tryPop hget
  rw [hsame]
  exact he job before hbefore

/-- A list with a reply on it lapses, unless the store refused to see to it. -/
theorem ages_pushReply (c : Cluster) (job : Uuid) (reply : BridgeReply) :
    Ages c (c.pushReply job reply) := by
  refine ages_of_touches_reply (touches_pushReply c job reply) (files_pushReply c job reply)
    (now_pushReply c job reply) fun hup hf he slot hget => ?_
  have hnone (op : StoreOp) : op ∉ c.store.down := by simp [hup]
  obtain ⟨store, hstore⟩ := hf.rpush_ok (.inr ⟨job, rfl⟩) reply.text c.now
  obtain ⟨held, hlive⟩ := Store.live_rpush hstore
  have hpushed : (c.pushReply job reply).store.store =
      (store.expire (replyKey job) BridgeReply.ttl c.now).1 := by
    simp only [pushReply, push, SharedStore.rpush, SharedStore.expire, SharedStore.refusal?,
      if_neg (hnone _), hstore, store_notify, now_notify]
  rw [hpushed, Store.slot_expire hlive] at hget
  cases hget
  exact ⟨_, rfl, Nat.le_of_eq (by rw [now_pushReply])⟩

theorem ages_handleJob (c : Cluster) (p : Nat) (device raw : String) :
    Ages c (c.handleJob p device raw) := by
  unfold handleJob
  split
  · exact .refl c
  · exact ages_pushReply c _ _
  · exact ages_of_store (store_enqueue c p device _ _ _)
      (Nat.le_of_eq (now_enqueue c p device _ _ _).symm)

theorem ages_awaitPop (c : Cluster) (t : TaskId) (device : String) (deadline : Nat) :
    Ages c (c.awaitPop t (listKey device) deadline).1 := by
  have hpop : Ages c (c.tryPop (listKey device)).1 :=
    ages_of_touches (c.touches_tryPop _) (files_tryPop c _) rfl
  unfold awaitPop
  split <;> rename_i h <;> rw [h] at hpop
  · split
    · exact hpop.trans (ages_of_store rfl (Nat.le_refl _))
    · obtain ⟨parked, he⟩ := park_eq _ t .pushed
      rw [he]
      exact hpop.trans (ages_of_store rfl (Nat.le_refl _))
  · exact hpop.trans (ages_of_store rfl (Nat.le_refl _))

theorem ages_notify (c : Cluster) (s : Signal) : Ages c (c.notify s) :=
  ages_of_store (store_notify c s) (Nat.le_of_eq (now_notify c s).symm)

theorem ages_decide (c : Cluster) (p : Nat) (id : Uuid) (changed : Engine × Bool) :
    Ages c (c.decide p id changed).1 := by
  have hset : Ages c (c.setEngine p changed.1) := ages_of_store rfl (Nat.le_refl _)
  unfold Cluster.decide
  dsimp only
  split
  · exact hset.trans (ages_notify _ _)
  · exact hset

theorem ages_park (c : Cluster) (t : TaskId) (s : Signal) : Ages c (c.park t s) := by
  obtain ⟨parked, h⟩ := c.park_eq t s
  rw [h]
  exact ages_of_store rfl (Nat.le_refl _)

theorem ages_workerTurn (c : Cluster) (t p : Nat) (device : String) (phase : WorkerPhase) :
    Ages c (c.workerTurn t p device phase).1 := by
  have hset (c₁ : Cluster) (task : Task) : Ages c₁ (c₁.setTask t task) :=
    ages_of_store rfl (Nat.le_refl _)
  unfold workerTurn
  split
  · exact hset c _
  · rename_i deadline
    have hpop := ages_awaitPop c t device deadline
    split <;> rename_i h <;> rw [h] at hpop
    · exact hpop
    · rename_i popped raw
      cases raw with
      | none => exact hpop.trans (hset _ _)
      | some raw => exact (hpop.trans (ages_handleJob popped p device raw)).trans (hset _ _)
    · exact hpop.trans (hset _ _)
  · split
    · exact hset c _
    · exact ages_of_store rfl (Nat.le_refl _)

theorem ages_turn {t : TaskId} {task : Task} (hget : c.tasks.get? t = some task)
    (hkind : task.OfBridge) : Ages c (turn c t).1 := by
  unfold turn
  rw [hget]
  cases hkind with
  | expiry p id deadline =>
    dsimp only
    unfold expiryTurn
    split
    · exact ages_decide c p id _
    · exact ages_of_store rfl (Nat.le_refl _)
  | consumer p device =>
    have hpop : Ages c (c.popLive p device).1 := ages_of_store rfl (Nat.le_refl _)
    dsimp only
    unfold consumerTurn
    split <;> rename_i h <;> rw [h] at hpop
    · exact hpop.trans (ages_of_store rfl (Nat.le_refl _))
    · exact hpop.trans (ages_park _ t _)
  | worker p device phase => exact ages_workerTurn c t p device phase
  | replier p id job =>
    dsimp only
    unfold replierTurn awaitOutcome
    split <;> rename_i h <;> split at h <;> cases h
    · exact ages_pushReply c job _
    · exact ages_park c t _

theorem ages_conclude (t : TaskId) (r : Cluster × Turn) : Ages r.1 (conclude t r) := by
  obtain ⟨c, ends⟩ := r
  cases ends with
  | again => exact ages_of_store rfl (Nat.le_refl _)
  | waits => exact .refl c
  | _ => exact ages_of_store (store_finish c t) (Nat.le_of_eq (now_finish c t).symm)

theorem ages_give (h : Tended c) (t : TaskId) : Ages c (c.give t) := by
  by_cases ht : t ∈ c.ready
  · rw [give_of_mem ht]
    have hturn : Ages c (turn { c with ready := c.ready.erase t } t).1 := by
      have hleft : Ages c { c with ready := c.ready.erase t } :=
        ages_of_store rfl (Nat.le_refl _)
      cases hget : c.tasks.get? t with
      | none => rw [turn, hget]; exact hleft
      | some task =>
        exact hleft.trans (ages_turn (c := { c with ready := c.ready.erase t }) hget
          (h.tasks t task hget).2)
    exact hturn.trans (ages_conclude t _)
  · rw [give_of_not_mem ht]
    exact .refl c

theorem ages_act (h : Tended c) {a : Act} (hup : ∀ down, a ≠ .outage down) : Ages c (act c a) := by
  have hset (p : Nat) (e : Engine) : Ages c (c.setEngine p e) := ages_of_store rfl (Nat.le_refl _)
  cases a with
  | outage down => exact absurd rfl (hup down)
  | post device raw =>
    exact ages_of_touches (c.touches_push _ raw) (files_push c (.inl ⟨device, rfl⟩) raw)
      (c.now_push _ raw)
  | collect job => exact ages_collect c job
  | hire p device => exact ages_of_store rfl (Nat.le_refl _)
  | enqueue p device command blob timeout =>
    exact ages_of_store (store_enqueue c p device command blob timeout)
      (Nat.le_of_eq (now_enqueue c p device command blob timeout).symm)
  | consume p device => exact ages_of_store rfl (Nat.le_refl _)
  | mark p id conn => exact hset p _
  | unmark p id => exact hset p _
  | requeue p item => exact (hset p _).trans (ages_notify _ _)
  | resolve p id outcome => exact ages_decide c p id _
  | respond p id ok result body => exact ages_decide c p id _
  | fail p conn =>
    have hnow : (c.failConnection p conn).1.now = c.now := by
      obtain ⟨woken, parked, he⟩ := foldl_notify (fun id => .decided p id)
        ((c.engine p).failConnection conn).2 (c.setEngine p ((c.engine p).failConnection conn).1)
      have hnow := congrArg Cluster.now he
      exact hnow
    exact ages_of_store (store_failConnection c p conn) (Nat.le_of_eq hnow.symm)
  | turn t => exact ages_give h t
  | pass ms =>
    obtain ⟨now, timers, ready, hle, he⟩ := pass_keeps c ms
    refine ages_of_store (store_pass c ms) ?_
    change c.now ≤ (c.pass ms).now
    rw [he]
    exact hle

theorem filed_act (h : Tended c) (hf : c.store.store.Filed) (a : Act) :
    (act c a).store.store.Filed := by
  by_cases hdown : ∃ down, a = .outage down
  · obtain ⟨down, rfl⟩ := hdown
    exact hf
  · exact (ages_act h fun down he => hdown ⟨down, he⟩).files hf

theorem filed_play (h : Tended c) (hf : c.store.store.Filed) (as : List Act) :
    (play c as).store.store.Filed := by
  induction as generalizing c with
  | nil => exact hf
  | cons a as ih => exact ih (tended_act h a) (filed_act h hf a)

theorem ages_play (h : Tended c) {as : List Act} (hup : ∀ a ∈ as, ∀ down, a ≠ .outage down) :
    Ages c (play c as) := by
  induction as generalizing c with
  | nil => exact .refl c
  | cons a as ih =>
    obtain ⟨hfirst, hrest⟩ := List.forall_mem_cons.mp hup
    exact (ages_act h hfirst).trans (ih (tended_act h a) hrest)

end Expiry

/-- One reply is left for a job, in the turn of its replier after its command is decided; before and
after that, the replier leaves the store alone. Where nothing moves, no decided command is without
its reply. -/
def Answers (c : Cluster) (u p : Nat) (id job : Uuid) (as : List Act) : Prop :=
  (Quiet u c as ∧ ((play c as).ready = [] → ((play c as).engine p).outcome? id = none)) ∨
  ∃ before after o, as = before ++ .turn u :: after ∧ Quiet u c before ∧
    ((play c before).engine p).outcome? id = some o ∧
    Replied (play c before) (act (play c before) (.turn u)) job (.ofOutcome o) ∧
    Quiet u (act (play c before) (.turn u)) after

theorem answers_play {c : Cluster} (h : Tended c) (hfiled : c.store.store.Filed) {u p : Nat}
    {id job : Uuid} (hget : c.tasks.get? u = some (.replier p id job)) (as : List Act) :
    Answers c u p id job as := by
  rcases replier_play h hget as with ⟨hquiet, -, hend⟩ | hsaid
  · exact .inl ⟨hquiet, hend⟩
  · obtain ⟨before, after, o, has, hbefore, hdecided, hact, hafter⟩ := hsaid
    refine .inr ⟨before, after, o, has, hbefore, hdecided, ?_, hafter⟩
    let taken : Cluster := { play c before with ready := (play c before).ready.erase u }
    have hreplied := replied_pushReply (c := taken) (filed_play h hfiled before) job (.ofOutcome o)
    rw [hact]
    intro other
    rw [listed_of_store (store_finish _ u) (now_finish _ u)]
    exact hreplied other

theorem filed_running (supply : Supply) (epoch : Nat) (settings : List ServerSettings) :
    (running supply epoch settings).store.store.Filed := by
  rw [running_eq]
  exact Store.filed_empty

theorem expiring_running (supply : Supply) (epoch : Nat) (settings : List ServerSettings) :
    Expiring (running supply epoch settings) := by
  rw [running_eq]
  exact nofun

/-- A job that is to be done within a second. -/
def listing : BridgeJob := .make ⟨7⟩ "d" (.shell "ls") none 1000 0

/-- A worker is about to take an entry off its list. -/
def about (raw : String) : List Act := [.hire 0 "d", .post "d" raw, .turn 0]

end Handling

end FleetControl.Cluster
