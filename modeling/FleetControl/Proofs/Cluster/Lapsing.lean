import FleetControl.Proofs.Cluster.History
import FleetControl.Proofs.Store.Prompt

/-! # Lapsed keys are not missed

Keys are set, renewed, forgotten and counted, values are pushed, and tasks wait for them, are
cancelled or give up, while the clock goes on. Whether the store takes a lapsed key out at its
instant or when an operation comes across it, all answers are the same. -/
namespace FleetControl.Cluster
open PromptStore (Mirrors Clear)

/-- Everything but the store. -/
def apart (c : Cluster) : Cluster := { c with store := {} }

section Apart
variable (c : Cluster) (t : TaskId)

theorem apart_wake : (c.wake t).apart = c.apart.wake t := by
  unfold wake
  exact apply_ite apart _ _ _

theorem apart_foldl_wake (l : List TaskId) :
    (l.foldl wake c).apart = l.foldl wake c.apart :=
  (List.foldl_hom apart fun c t => (apart_wake c t).symm).symm

theorem apart_notify (s : Signal) : (c.notify s).apart = c.apart.notify s := apart_foldl_wake _ _

theorem apart_park (s : Signal) : (c.park t s).apart = c.apart.park t s := by
  unfold park
  exact apply_ite apart _ _ _

theorem apart_finish : (c.finish t).apart = c.apart.finish t := apart_notify _ _

theorem apart_conclude (ends : Turn) :
    (conclude t (c, ends)).apart = conclude t (c.apart, ends) := by
  cases ends with
  | again => rfl
  | waits => rfl
  | _ => exact apart_finish c t

theorem apart_fire : c.fire.apart = c.apart.fire := by
  simp only [fire, ← List.foldl_map]
  exact apart_foldl_wake _ _

theorem apart_pass (ms : Nat) : (c.pass ms).apart = c.apart.pass ms := by
  by_cases hr : c.ready = []
  · have hr' : c.apart.ready = [] := hr
    have hdue : c.apart.nextDue? = c.nextDue? := rfl
    rw [pass, if_pos hr, pass, if_pos hr', hdue]
    cases c.nextDue? with
    | none => rfl
    | some due => exact apart_fire _
  · rw [pass_of_ready hr]
    exact (pass_of_ready (show c.apart.ready ≠ [] from hr) ms).symm

end Apart

/-- How a wait goes on with what an attempt has brought. -/
def heed (c : Cluster) (t : TaskId) (deadline : Nat) : Outcome (Option String) → Cluster × Turn
  | .ok none =>
    if deadline ≤ c.now then ((c.unwait t).deliver t (.popped (.ok none)), .over)
    else ((c.park t .pushed).setTimer t deadline, .waits)
  | result => ((c.unwait t).deliver t (.popped result), .over)

theorem popperTurn_eq_heed (c : Cluster) (t : TaskId) (key : String) (deadline : Nat) :
    c.popperTurn t key deadline = (c.tryPop key).1.heed t deadline (c.tryPop key).2 := by
  unfold popperTurn awaitPop
  obtain ⟨c', popped⟩ := c.tryPop key
  rcases popped with e | _ | value
  · rfl
  · by_cases hd : deadline ≤ c'.now
    · simp only [heed, if_pos hd]
    · simp only [heed, if_neg hd]
  · rfl

theorem apart_heed (c : Cluster) (t : TaskId) (deadline : Nat)
    (popped : Outcome (Option String)) :
    c.apart.heed t deadline popped =
      ((c.heed t deadline popped).1.apart, (c.heed t deadline popped).2) := by
  rcases popped with e | _ | value
  · rfl
  · have hnow : c.apart.now = c.now := rfl
    simp only [heed, hnow]
    split
    · rfl
    · refine Prod.ext ?_ rfl
      exact congrArg (setTimer · t deadline) (apart_park c t .pushed).symm
  · rfl

namespace Lapsing

inductive Act where
  | setEx (key value : String) (ttl : Nat)
  | expire (key : String) (ttl : Nat)
  | del (key : String)
  | countPrefix (start : String)
  | rpush (key value : String)
  /-- A task begins to wait for the head of a list. -/
  | blpop (key : String) (timeout : Nat)
  | cancel (t : TaskId)
  | turn (t : TaskId)
  | pass (ms : Nat)

inductive Answer where
  | done (r : Outcome Unit)
  | found (r : Outcome Bool)
  | counted (r : Outcome Nat)
  | waits (t : TaskId)
  | nothing

/-- The shared store, where lapsed keys stay until an operation meets them. -/
def act (c : Cluster) : Act → Cluster × Answer
  | .setEx key value ttl =>
    let (store, r) := c.store.setEx key value ttl c.now
    ({ c with store := store }, .done r)
  | .expire key ttl =>
    let (store, r) := c.store.expire key ttl c.now
    ({ c with store := store }, .found r)
  | .del key =>
    let (store, r) := c.store.del key
    ({ c with store := store }, .done r)
  | .countPrefix start =>
    let (store, r) := c.store.countPrefix start c.now
    ({ c with store := store }, .counted r)
  | .rpush key value =>
    let (c, r) := c.push key value
    (c, .done r)
  | .blpop key timeout =>
    let (c, t) := c.pop key timeout
    (c, .waits t)
  | .cancel t => (c.remove t, .nothing)
  | .turn t => (c.give t, .nothing)
  | .pass ms => (c.pass ms, .nothing)

/-- The same tasks over a store from which keys go at once. -/
structure Prompt where
  cluster : Cluster
  store : PromptStore := {}

namespace Prompt

def give (w : Prompt) (t : TaskId) : Prompt :=
  if t ∈ w.cluster.ready then
    match w.cluster.tasks.get? t with
    | some (.popper key deadline) =>
      let (store, popped) := w.store.tryPop key
      let c := { w.cluster with ready := w.cluster.ready.erase t }
      ⟨conclude t (c.heed t deadline popped), store⟩
    | _ =>
      { w with cluster := conclude t ({ w.cluster with ready := w.cluster.ready.erase t }, .over) }
  else w

/-- What an act does to the tasks and the keys that are there. -/
def carry (w : Prompt) : Act → Prompt × Answer
  | .setEx key value ttl =>
    ({ w with store := w.store.setEx key value (w.cluster.now + ttl) }, .done (.ok ()))
  | .expire key ttl =>
    let (store, found) := w.store.expire key (w.cluster.now + ttl)
    ({ w with store := store }, .found (.ok found))
  | .del key => ({ w with store := w.store.del key }, .done (.ok ()))
  | .countPrefix start => (w, .counted (.ok (w.store.countPrefix start)))
  | .rpush key value =>
    match w.store.rpush key value with
    | .ok store => (⟨w.cluster.notify .pushed, store⟩, .done (.ok ()))
    | .error e => (w, .done (.error e))
  | .blpop key timeout =>
    let (c, t) := w.cluster.spawn (.popper key (w.cluster.now + timeout))
    ({ w with cluster := c }, .waits t)
  | .cancel t => ({ w with cluster := w.cluster.remove t }, .nothing)
  | .turn t => (w.give t, .nothing)
  | .pass ms => ({ w with cluster := w.cluster.pass ms }, .nothing)

/-- Then the keys go whose time has come. -/
def act (w : Prompt) (a : Act) : Prompt × Answer :=
  let (w, answer) := w.carry a
  ({ w with store := w.store.sweep w.cluster.now }, answer)

end Prompt

/-- The answer to each act, and everything else after it: the clock, who waits for what, and the
results that have come in. -/
def transcript (c : Cluster) : List Act → List (Answer × Cluster)
  | [] => []
  | a :: as => ((act c a).2, (act c a).1.apart) :: transcript (act c a).1 as

def Prompt.transcript (w : Prompt) : List Act → List (Answer × Cluster)
  | [] => []
  | a :: as => ((w.act a).2, (w.act a).1.cluster) :: Prompt.transcript (w.act a).1 as

def Prompt.play (w : Prompt) : List Act → Prompt
  | [] => w
  | a :: as => Prompt.play (w.act a).1 as

/-- Both stores have the same live keys for the same tasks, before what lapses since is taken
out. -/
structure Follows (now : Nat) (c : Cluster) (w : Prompt) : Prop where
  rest : w.cluster = c.apart
  up : c.store.down = []
  poppers : ∀ t task, c.tasks.get? t = some task → ∃ key deadline, task = .popper key deadline
  onward : now ≤ c.now
  mirrors : Mirrors now c.store.store w.store

/-- Both stores have the same live keys for the same tasks. -/
structure Agrees (c : Cluster) (w : Prompt) : Prop extends Follows c.now c w where
  clear : w.store.Clear c.now

section Agrees
variable {now : Nat} {c : Cluster} {w : Prompt}

theorem Follows.sweep (h : Follows now c w) :
    Agrees c { w with store := w.store.sweep w.cluster.now } := by
  have hnow : w.cluster.now = c.now := by
    rw [h.rest]
    rfl
  obtain ⟨hmirrors, hclear⟩ := h.mirrors.sweep h.onward
  rw [hnow]
  exact ⟨⟨h.rest, h.up, h.poppers, Nat.le_refl _, hmirrors⟩, hclear⟩

/-- The store changes, and the tasks do not. -/
theorem Follows.store (h : Follows now c w) {s : Store} {m : PromptStore}
    (hm : Mirrors now s m) :
    Follows now { c with store := { c.store with store := s } } { w with store := m } :=
  ⟨h.rest, h.up, h.poppers, h.onward, hm⟩

theorem serves (h : Follows now c w) (op : StoreOp) : c.store.refusal? op = none :=
  SharedStore.refusal_eq_none h.up op

/-- The tasks wait or are over, and all else stays. -/
structure Idles (c c' : Cluster) : Prop where
  store : c'.store = c.store
  now : c'.now = c.now
  tasks : ∀ u task, c'.tasks.get? u = some task → c.tasks.get? u = some task

theorem idles_heed (c : Cluster) (t : TaskId) (deadline : Nat) (popped : Outcome (Option String)) :
    Idles c (c.heed t deadline popped).1 := by
  rcases popped with e | _ | value
  · exact ⟨rfl, rfl, fun _ _ => id⟩
  · simp only [heed]
    split
    · exact ⟨rfl, rfl, fun _ _ => id⟩
    · obtain ⟨parked, he⟩ := c.park_eq t .pushed
      rw [he]
      exact ⟨rfl, rfl, fun _ _ => id⟩
  · exact ⟨rfl, rfl, fun _ _ => id⟩

theorem idles_conclude (t : TaskId) (r : Cluster × Turn) : Idles r.1 (conclude t r) := by
  obtain ⟨c, ends⟩ := r
  cases ends with
  | again => exact ⟨rfl, rfl, fun _ _ => id⟩
  | waits => exact ⟨rfl, rfl, fun _ _ => id⟩
  | _ =>
    refine ⟨store_finish c t, now_finish c t, fun u task hu => ?_⟩
    rw [conclude, tasks_finish, Table.get?_erase] at hu
    split at hu
    · cases hu
    · exact hu

theorem Follows.idles (h : Follows now c w) {c' : Cluster} (hi : Idles c c') :
    Follows now c' { w with cluster := c'.apart } where
  rest := rfl
  up := hi.store ▸ h.up
  poppers t task ht := h.poppers t task (hi.tasks t task ht)
  onward := hi.now ▸ h.onward
  mirrors := hi.store ▸ h.mirrors

theorem Follows.conclude (h : Follows now c w) (t : TaskId) (ends : Turn) :
    Follows now (Cluster.conclude t (c, ends))
      { w with cluster := Cluster.conclude t (c.apart, ends) } := by
  rw [← apart_conclude]
  exact h.idles (idles_conclude t (c, ends))

theorem Follows.heed (h : Follows now c w) (t : TaskId) (deadline : Nat)
    (popped : Outcome (Option String)) :
    Follows now (Cluster.conclude t (c.heed t deadline popped))
      { w with cluster := Cluster.conclude t (c.apart.heed t deadline popped) } := by
  rw [apart_heed]
  exact (h.idles (idles_heed c t deadline popped)).conclude t _

/-- A task that can go on has its turn, whatever has become of the store. -/
theorem Agrees.lifted (h : Agrees c w) (t : TaskId) {s : Store} {m : PromptStore}
    (hm : Mirrors c.now s m) :
    Follows c.now { c with ready := c.ready.erase t, store := { c.store with store := s } }
      { w with store := m, cluster := { c.apart with ready := c.ready.erase t } } :=
  ⟨rfl, h.up, h.poppers, Nat.le_refl _, hm⟩

/-- The turn of a task that waits. -/
theorem follows_give (h : Agrees c w) (t : TaskId) : Follows c.now (c.give t) (w.give t) := by
  by_cases hr : t ∈ c.ready
  · have hr' : t ∈ c.apart.ready := hr
    rw [give_of_mem hr, Prompt.give, h.rest, if_pos hr']
    have hsame : c.apart.tasks.get? t = c.tasks.get? t := rfl
    rw [hsame]
    cases ht : c.tasks.get? t with
    | none =>
      have hturn : turn { c with ready := c.ready.erase t } t =
          ({ c with ready := c.ready.erase t }, .over) := by
        simp only [turn, ht]
      rw [hturn]
      exact (h.lifted t h.mirrors).conclude t .over
    | some task =>
      obtain ⟨key, deadline, rfl⟩ := h.poppers t task ht
      obtain ⟨hpopped, hm⟩ := h.mirrors.tryPop h.clear key
      have hturn : turn { c with ready := c.ready.erase t } t =
          ({ c with
            ready := c.ready.erase t
            store := { c.store with store := (c.store.store.tryPop key c.now).1 } } :
            Cluster).heed t deadline (c.store.store.tryPop key c.now).2 := by
        simp only [turn, ht]
        exact popperTurn_eq_heed { c with ready := c.ready.erase t } t key deadline
      rw [hturn, hpopped]
      exact (h.lifted t hm).heed t deadline _
  · have hr' : t ∉ c.apart.ready := hr
    rw [give_of_not_mem hr, Prompt.give, h.rest, if_neg hr']
    exact h.toFollows

theorem follows_push (h : Agrees c w) (key value : String) :
    Follows c.now (c.push key value).1 (w.carry (.rpush key value)).1 ∧
      Answer.done (c.push key value).2 = (w.carry (.rpush key value)).2 := by
  have hf := h.toFollows
  rcases h.mirrors.rpush h.clear key value with ⟨e, hs, hm⟩ | ⟨s, m, hs, hm, hmirrors⟩
  · simp only [push, Prompt.carry, SharedStore.rpush, serves hf, hs, hm, and_true]
    exact hf.store h.mirrors
  · simp only [push, Prompt.carry, SharedStore.rpush, serves hf, hs, hm, and_true]
    have hpushed := hf.store hmirrors
    generalize { c with store := { c.store with store := s } } = c' at hpushed ⊢
    have hidles : Idles c' (c'.notify .pushed) := by
      obtain ⟨woken, he⟩ := c'.notify_eq .pushed
      rw [he]
      exact ⟨rfl, rfl, fun _ _ => id⟩
    have hrest : w.cluster = c'.apart := hpushed.rest
    rw [hrest, ← apart_notify]
    exact hpushed.idles hidles

theorem follows_carry (h : Agrees c w) (a : Act) :
    Follows c.now (act c a).1 (w.carry a).1 ∧ (act c a).2 = (w.carry a).2 := by
  have hnow : w.cluster.now = c.now := congrArg (·.now) h.rest
  have hf := h.toFollows
  cases a with
  | setEx key value ttl =>
    simp only [act, Prompt.carry, SharedStore.setEx, serves hf, hnow, and_true]
    exact hf.store (h.mirrors.setEx key value ttl)
  | expire key ttl =>
    obtain ⟨hfound, hm⟩ := h.mirrors.expire h.clear key ttl
    simp only [act, Prompt.carry, SharedStore.expire, serves hf, hnow, hfound, and_true]
    exact hf.store hm
  | del key =>
    simp only [act, Prompt.carry, SharedStore.del, serves hf, and_true]
    exact hf.store (h.mirrors.del key)
  | countPrefix start =>
    obtain ⟨hcount, hm⟩ := h.mirrors.countPrefix h.clear start
    simp only [act, Prompt.carry, SharedStore.countPrefix, serves hf, hcount, and_true]
    exact hf.store hm
  | rpush key value => exact follows_push h key value
  | blpop key timeout =>
    simp only [act, Prompt.carry, pop, serves hf, h.rest]
    refine ⟨⟨rfl, h.up, fun t task ht => ?_, Nat.le_refl _, h.mirrors⟩, rfl⟩
    simp only [spawn, Table.get?_put] at ht
    split at ht
    · obtain rfl := Option.some_inj.mp ht
      exact ⟨_, _, rfl⟩
    · exact h.poppers t task ht
  | cancel t =>
    simp only [act, Prompt.carry, h.rest]
    refine ⟨⟨rfl, h.up, fun u task hu => ?_, Nat.le_refl _, h.mirrors⟩, trivial⟩
    simp only [remove, clearTimer, Table.get?_erase] at hu
    split at hu
    · cases hu
    · exact h.poppers u task hu
  | turn t => exact ⟨follows_give h t, rfl⟩
  | pass ms =>
    obtain ⟨now, timers, ready, hle, he⟩ := pass_keeps c ms
    refine ⟨⟨?_, ?_, ?_, ?_, ?_⟩, rfl⟩
    · simp only [act, Prompt.carry, h.rest]
      exact (apart_pass c ms).symm
    all_goals simp only [act, he]
    · exact h.up
    · exact h.poppers
    · exact hle
    · exact h.mirrors

theorem agrees_act (h : Agrees c w) (a : Act) :
    Agrees (act c a).1 (w.act a).1 ∧ (act c a).2 = (w.act a).2 := by
  obtain ⟨hfollows, hanswer⟩ := follows_carry h a
  exact ⟨hfollows.sweep, hanswer⟩

theorem transcript_eq (h : Agrees c w) (as : List Act) : transcript c as = w.transcript as := by
  induction as generalizing c w with
  | nil => rfl
  | cons a as ih =>
    obtain ⟨hagrees, hanswer⟩ := agrees_act h a
    rw [transcript, Prompt.transcript, hanswer, hagrees.rest, ih hagrees]

theorem clear_play (h : Agrees c w) (as : List Act) :
    (w.play as).store.Clear (w.play as).cluster.now := by
  induction as generalizing c w with
  | nil =>
    rw [Prompt.play, h.rest]
    exact h.clear
  | cons a as ih => exact ih (agrees_act h a).1

end Agrees

theorem agrees_running (supply : Supply) (epoch : Nat) (settings : List ServerSettings) :
    Agrees (running supply epoch settings)
      { cluster := (running supply epoch settings).apart } := by
  rw [running_eq]
  refine ⟨⟨rfl, rfl, fun _ _ ht => ?_, Nat.le_refl _, PromptStore.mirrors_empty _⟩,
    fun _ _ hs => ?_⟩
  · cases ht
  · cases hs

/-- Whatever is asked of the store and whenever, nobody can tell from the answers that it keeps
lapsed keys: a store that has none at any time gives the same ones. -/
theorem lapsing_unseen (supply : Supply) (epoch : Nat) (settings : List ServerSettings)
    (as : List Act) :
    let c := running supply epoch settings
    let w : Prompt := { cluster := c.apart }
    transcript c as = w.transcript as ∧
      (w.play as).store.Clear (w.play as).cluster.now :=
  have h := agrees_running supply epoch settings
  ⟨transcript_eq h as, clear_play h as⟩

end Lapsing

end FleetControl.Cluster
