import FleetControl.Proofs.Cluster.Course
import FleetControl.Proofs.Engine.Sharing

/-! # What a device has of a run

The commands and the tasks of one device among those of all devices, and what is left of a run when
whatever is about other devices is taken away from it. -/
namespace FleetControl.Cluster.Lifetime
open Engine (Agree Allotted Belongs)

/-- What a device has of a run: its commands, and the tasks that keep their time limits and wait for
them, the first ones first. -/
structure Share where
  ids : List Uuid := []
  tasks : List TaskId := []

/-- The number that a task has among those of its device. -/
def Share.name (s : Share) (t : TaskId) : TaskId := s.tasks.idxOf t

def Share.next (device : String) (s : Share) (c : Cluster) : Deed → Share
  | .act (.enqueue other _ _ _) =>
    if other = device then ⟨s.ids ++ [c.supply.idOf c.drawn], s.tasks ++ [c.nextTask]⟩ else s
  | .act (.consume other) =>
    if other = device then { s with tasks := s.tasks ++ [c.nextTask] } else s
  | _ => s

def share (device : String) (s : Share) (c : Cluster) : List Deed → Share
  | [] => s
  | d :: ds => share device (s.next device c d) (perform c d) ds

/-- What is left of an act without the other devices. As much time passes as did. -/
def ownAct? (device : String) (serves : Uuid → String) (s : Share) (c : Cluster) :
    Act → Option Act
  | .enqueue other command blob timeout =>
    if other = device then some (.enqueue other command blob timeout) else none
  | .consume other => if other = device then some (.consume other) else none
  | .mark id conn => if id ∈ s.ids then some (.mark id conn) else none
  | .unmark id => if id ∈ s.ids then some (.unmark id) else none
  | .requeue item => if item.deviceId = device then some (.requeue item) else none
  | .resolve id outcome => if id ∈ s.ids then some (.resolve id outcome) else none
  | .respond id ok result body => if id ∈ s.ids then some (.respond id ok result body) else none
  | .fail conn => if serves conn = device then some (.fail conn) else none
  | .turn t => if t ∈ s.tasks then some (.turn (s.name t)) else none
  | .pass ms => some (.pass ((c.pass ms).now - c.now))

def own? (device : String) (serves : Uuid → String) (s : Share) (c : Cluster) :
    Deed → Option Deed
  | .act a => (ownAct? device serves s c a).map .act
  | .quit t => if t ∈ s.tasks then some (.quit (s.name t)) else none

/-- What is left of a run without the other devices. -/
def own (device : String) (serves : Uuid → String) (s : Share) (c : Cluster) :
    List Deed → List Deed
  | [] => []
  | d :: ds =>
    (own? device serves s c d).toList ++ own device serves (s.next device c d) (perform c d) ds

/-- Commands go out on connections of their device, and what is put back was handed out. -/
def Permitted (serves : Uuid → String) (c : Cluster) : Deed → Prop
  | .act (.mark id conn) =>
    ∀ p, (c.engine 0).pending.get? id = some p → serves conn = p.deviceId
  | .act (.requeue item) => ∃ t, (t, .item item) ∈ c.results
  | _ => True

def Orderly (serves : Uuid → String) (c : Cluster) : List Deed → Prop
  | [] => True
  | d :: ds => Permitted serves c d ∧ Orderly serves (perform c d) ds

section Runs
variable (device : String) (serves : Uuid → String) (s : Share) (c : Cluster)

theorem share_append (ds es : List Deed) :
    share device s c (ds ++ es) = share device (share device s c ds) (course c ds) es := by
  induction ds generalizing s c with
  | nil => rfl
  | cons d ds ih => exact ih (s.next device c d) (perform c d)

theorem own_append (ds es : List Deed) :
    own device serves s c (ds ++ es) =
      own device serves s c ds ++ own device serves (share device s c ds) (course c ds) es := by
  induction ds generalizing s c with
  | nil => rfl
  | cons d ds ih =>
    rw [List.cons_append, own, own, ih, List.append_assoc]
    rfl

variable {serves c} in
theorem orderly_append {ds es : List Deed} : Orderly serves c (ds ++ es) ↔
    Orderly serves c ds ∧ Orderly serves (course c ds) es := by
  induction ds generalizing c with
  | nil => exact ⟨fun h => ⟨trivial, h⟩, fun h => h.2⟩
  | cons d ds ih => exact (and_congr_right fun _ => ih).trans and_assoc.symm

/-- One more command of the device, or none. -/
theorem ids_next (d : Deed) : (s.next device c d).ids = s.ids ∧
      requests (own? device serves s c d).toList = 0 ∨
    (s.next device c d).ids = s.ids ++ [c.supply.idOf c.drawn] ∧
      requests (own? device serves s c d).toList = 1 := by
  have hkept {a : Act} {p : Prop} [Decidable p] (ha : submissions [a] = 0) :
      requests ((if p then some a else none).map Deed.act).toList = 0 := by
    split
    · exact ha
    · rfl
  cases d with
  | act a =>
    cases a with
    | enqueue other command blob timeout =>
      by_cases he : other = device
      · exact .inr (by simp [Share.next, own?, ownAct?, he, requests, Deed.act?, submissions])
      · exact .inl (by simp [Share.next, own?, ownAct?, he, requests, submissions])
    | consume other =>
      refine .inl ⟨?_, hkept rfl⟩
      change (if other = device then _ else s : Share).ids = s.ids
      split <;> rfl
    | pass ms => exact .inl ⟨rfl, rfl⟩
    | _ => exact .inl ⟨rfl, hkept rfl⟩
  | quit t =>
    refine .inl ⟨rfl, ?_⟩
    rw [own?]
    split <;> rfl

theorem ids_share (ds : List Deed) : s.ids <+: (share device s c ds).ids := by
  induction ds generalizing s c with
  | nil => exact List.prefix_rfl
  | cons d ds ih =>
    refine List.IsPrefix.trans ?_ (ih (s.next device c d) (perform c d))
    obtain ⟨he, -⟩ | ⟨he, -⟩ := ids_next device (fun _ => device) s c d
    · exact he.symm ▸ List.prefix_rfl
    · exact he.symm ▸ List.prefix_append ..

end Runs

/-- Commands and tasks that are of the device and those that are not are told apart. -/
structure Dealt (device : String) (serves : Uuid → String) (s : Share) (c : Cluster) : Prop where
  allotted : (c.engine 0).Allotted device serves s.ids
  distinct : s.tasks.Nodup
  named : ∀ t ∈ s.tasks, t < c.nextTask
  limits : ∀ t id due, c.tasks.get? t = some (.expiry 0 id due) →
    (∃ k, (c.engine 0).completions.get? id = some k) ∧ (t ∈ s.tasks ↔ id ∈ s.ids)
  consumers : ∀ t other, c.tasks.get? t = some (.consumer 0 other) →
    (t ∈ s.tasks ↔ other = device)
  handed : ∀ t item, (t, .item item) ∈ c.results →
    Belongs device s.ids (c.engine 0) item.id item.deviceId

section Dealt
variable {device : String} {serves : Uuid → String} {s : Share} {c c₁ : Cluster}

theorem dealt_start (device : String) (serves : Uuid → String) (supply : Supply)
    (settings : ServerSettings) : Dealt device serves {} (start supply settings) where
  allotted := Engine.allotted_empty device serves
  distinct := List.nodup_nil
  named := nofun
  limits := by simp [start, addProcess, Table.get?]
  consumers := by simp [start, addProcess, Table.get?]
  handed := nofun

/-- The engine stays as it is, no task starts and nothing is handed out. -/
theorem Dealt.same (h : Dealt device serves s c) (hengine : c₁.engine 0 = c.engine 0)
    (htasks : ∀ t task, c₁.tasks.get? t = some task → c.tasks.get? t = some task)
    (hnext : c₁.nextTask = c.nextTask) (hresults : c₁.results = c.results) :
    Dealt device serves s c₁ := by
  refine ⟨hengine ▸ h.allotted, h.distinct, fun t ht => hnext ▸ h.named t ht,
    fun t id due ht => ?_, fun t other ht => h.consumers t other (htasks t _ ht), ?_⟩
  · rw [hengine]
    exact h.limits t id due (htasks t _ ht)
  · rw [hengine, hresults]
    exact h.handed

theorem dealt_remove (h : Dealt device serves s c) (t : TaskId) :
    Dealt device serves s (c.remove t) := by
  refine h.same rfl (fun u task hu => ?_) rfl rfl
  change (c.tasks.erase t).get? u = some task at hu
  rw [Table.get?_erase] at hu
  split at hu
  · cases hu
  · exact hu

theorem dealt_deliver (h : Dealt device serves s c) (t : TaskId) {item : QueuedCommand}
    (hitem : Belongs device s.ids (c.engine 0) item.id item.deviceId) :
    Dealt device serves s (c.deliver t (.item item)) := by
  refine ⟨h.allotted, h.distinct, h.named, h.limits, h.consumers, fun u other hu => ?_⟩
  rcases List.mem_append.mp hu with hu | hu
  · exact h.handed u other hu
  · cases List.mem_singleton.mp hu
    exact hitem

theorem dealt_notify (h : Dealt device serves s c) (sig : Signal) :
    Dealt device serves s (c.notify sig) := by
  have hengine := engine_notify c 0 sig
  obtain ⟨woken, he⟩ := c.notify_eq sig
  rw [he] at hengine ⊢
  exact h.same hengine (fun _ _ ht => ht) rfl rfl

theorem engine_operate (hk : Keeping c) (op : Engine.Op) :
    (operate c op).engine 0 = (c.engine 0).apply op := hk.engine_setEngine _

theorem dealt_operate (h : Dealt device serves s c) (hk : Keeping c) (op : Engine.Op)
    (hn : op.submits? = none)
    (hmark : ∀ id conn p, op = .mark id conn → (c.engine 0).pending.get? id = some p →
      serves conn = p.deviceId)
    (hback : ∀ item, op = .requeue item →
      Belongs device s.ids (c.engine 0) item.id item.deviceId) :
    Dealt device serves s (operate c op) := by
  have hf := Engine.fresh_of_submits hn (c.engine 0)
  refine ⟨?_, h.distinct, h.named, fun t id due ht => ?_, h.consumers, fun t item ht => ?_⟩
  · rw [engine_operate hk]
    exact Engine.allotted_apply hk.sound h.allotted hn hmark hback
  · obtain ⟨⟨k, hknown⟩, hmine⟩ := h.limits t id due ht
    rw [engine_operate hk]
    exact ⟨Engine.known_apply hk.sound hf hknown, hmine⟩
  · rw [engine_operate hk]
    exact (h.handed t item ht).apply hk.sound hf

/-- What is handed out belongs to the device that it is for. -/
theorem Dealt.popped (h : Dealt device serves s c) {other : String} {item : QueuedCommand}
    (hpop : ((c.engine 0).popLive other).2 = some item) :
    Belongs device s.ids (c.engine 0) item.id item.deviceId := by
  obtain ⟨passed, -, ⟨-, hnone, -⟩ | ⟨found, rest, hqueue, -, hfound, -⟩⟩ :=
    Engine.popLive_cases (c.engine 0) other
  · rw [hpop] at hnone
    cases hnone
  · cases hpop.symm.trans hfound
    have hmem : item ∈ (c.engine 0).queue other := by simp [hqueue]
    obtain ⟨hdevice, hbelongs⟩ := h.allotted.queued other item hmem
    exact hdevice ▸ hbelongs

theorem dealt_give (h : Dealt device serves s c) (hk : Keeping c) (ht : Tidy c) (t : TaskId) :
    Dealt device serves s (c.give t) := by
  by_cases hr : t ∈ c.ready
  · have htaken : Dealt device serves s (take c t) :=
      h.same rfl (fun _ _ hu => hu) rfl rfl
    have hkept (op : Engine.Op) (hn : op.submits? = none) (hm : ∀ id conn, op ≠ .mark id conn)
        (hb : ∀ item, op ≠ .requeue item) : Dealt device serves s (operate (take c t) op) :=
      (dealt_operate h hk op hn (fun id conn _ he => absurd he (hm id conn))
        fun item he => absurd he (hb item)).same rfl (fun _ _ hu => hu) rfl rfl
    rw [give_eq ht hk hr]
    cases htask : c.tasks.get? t with
    | none => exact dealt_remove htaken t
    | some task =>
      obtain ⟨-, ⟨other, rfl⟩ | ⟨id, due, rfl, -⟩⟩ := hk.tasks t task htask
      · have hpopped := hkept (.pop other) rfl nofun nofun
        dsimp only
        split
        · rename_i item hpop
          refine dealt_remove (dealt_deliver hpopped t ?_) t
          have hengine : (operate (take c t) (.pop other)).engine 0 =
              (c.engine 0).apply (.pop other) := engine_operate hk (.pop other)
          have hf : (Engine.Op.pop other).Fresh (c.engine 0) := trivial
          rw [hengine]
          exact (h.popped hpop).apply hk.sound hf
        · obtain ⟨parked, he⟩ := park_eq (operate (take c t) (.pop other)) t (.queued 0 other)
          rw [he]
          exact hpopped.same rfl (fun _ _ hu => hu) rfl rfl
      · dsimp only
        split
        · exact dealt_remove (hkept (.expire id) rfl nofun nofun) t
        · exact htaken.same rfl (fun _ _ hu => hu) rfl rfl
  · rw [give_of_not_mem hr]
    exact h

theorem dealt_pass (h : Dealt device serves s c) (ms : Nat) :
    Dealt device serves s (c.pass ms) := by
  obtain ⟨now, timers, ready, -, he⟩ := pass_keeps c ms
  rw [he]
  exact h.same rfl (fun _ _ ht => ht) rfl rfl

theorem Dealt.unknown (h : Dealt device serves s c) : c.nextTask ∉ s.tasks :=
  fun ht => Nat.lt_irrefl _ (h.named _ ht)

theorem dealt_consume (h : Dealt device serves s c) (other : String) :
    Dealt device serves (s.next device c (.act (.consume other)))
      (act c (.consume other)) := by
  have hnext : s.next device c (.act (.consume other)) =
      { s with tasks := if other = device then s.tasks ++ [c.nextTask] else s.tasks } := by
    change (if other = device then _ else s) = _
    split <;> rfl
  have hget (t : TaskId) : (act c (.consume other)).tasks.get? t =
      if t = c.nextTask then some (.consumer 0 other) else c.tasks.get? t :=
    Table.get?_put c.tasks c.nextTask t _
  rw [hnext]
  refine ⟨h.allotted, Engine.nodup_grow h.distinct h.unknown _, fun t hmem => ?_,
    fun t id due htask => ?_, fun t target htask => ?_, h.handed⟩
  · change t < c.nextTask + 1
    rcases Engine.mem_grow.mp hmem with hmem | ⟨-, rfl⟩
    · exact Nat.lt_succ_of_lt (h.named t hmem)
    · exact Nat.lt_succ_self _
  · rw [hget] at htask
    split at htask
    · cases htask
    · rename_i hne
      rw [Engine.mem_grow, or_iff_left fun hnew => hne hnew.2]
      exact h.limits t id due htask
  · rw [hget] at htask
    rw [Engine.mem_grow]
    split at htask
    · rename_i hnew
      cases htask
      rw [or_iff_right (hnew ▸ h.unknown)]
      exact and_iff_left hnew
    · rename_i hne
      rw [or_iff_left fun hnew => hne hnew.2]
      exact h.consumers t target htask

theorem dealt_enqueue (h : Dealt device serves s c) (hk : Keeping c)
    (hids : ∀ i < c.drawn, c.supply.idOf i ≠ c.supply.idOf c.drawn) (other : String)
    (command : Command) (blob : Option ByteArray) (timeout : Nat) :
    Dealt device serves (s.next device c (.act (.enqueue other command blob timeout)))
      (act c (.enqueue other command blob timeout)) := by
  let id := c.supply.idOf c.drawn
  have hf : (c.engine 0).completions.get? id = none := fresh_id hk hids
  have hnext : s.next device c (.act (.enqueue other command blob timeout)) =
      { ids := if other = device then s.ids ++ [id] else s.ids
        tasks := if other = device then s.tasks ++ [c.nextTask] else s.tasks } := by
    change (if other = device then _ else s) = _
    split <;> rfl
  obtain ⟨woken, parked, he⟩ := act_enqueue c other command blob timeout
  have hengine : (act c (.enqueue other command blob timeout)).engine 0 =
      (c.engine 0).enqueue id other command blob timeout c.now := by
    rw [he]
    exact hk.engine_setEngine _
  have hget (t : TaskId) : (act c (.enqueue other command blob timeout)).tasks.get? t =
      if t = c.nextTask then some (.expiry 0 id (c.now + timeout)) else c.tasks.get? t := by
    rw [he]
    exact Table.get?_put c.tasks c.nextTask t _
  have hsame : (act c (.enqueue other command blob timeout)).nextTask = c.nextTask + 1 ∧
      (act c (.enqueue other command blob timeout)).results = c.results := by
    rw [he]
    exact ⟨rfl, rfl⟩
  have hnew := Engine.belongs_enqueue h.allotted hf other command blob timeout c.now
  rw [hnext]
  refine ⟨?_, Engine.nodup_grow h.distinct h.unknown _, fun t hmem => ?_, fun t j due htask => ?_,
    fun t target htask => ?_, fun t item hitem => ?_⟩
  · rw [hengine]
    exact Engine.allotted_enqueue h.allotted hf other command blob timeout c.now
  · rw [hsame.1]
    rcases Engine.mem_grow.mp hmem with hmem | ⟨-, rfl⟩
    · exact Nat.lt_succ_of_lt (h.named t hmem)
    · exact Nat.lt_succ_self _
  · rw [hget] at htask
    rw [hengine, Engine.mem_grow]
    split at htask
    · rename_i hborn
      cases htask
      rw [or_iff_right (hborn ▸ h.unknown), hnew.2]
      exact ⟨hnew.1, and_iff_left hborn⟩
    · rename_i hne
      obtain ⟨⟨k, hknown⟩, hmine⟩ := h.limits t j due htask
      have hold : j ≠ id := Engine.ne_of_known hf hknown
      rw [or_iff_left fun hborn => hne hborn.2, hmine, Engine.completions_enqueue, if_neg hold,
        Engine.mem_grow, or_iff_left fun hsubmitted => hold hsubmitted.2]
      exact ⟨⟨k, hknown⟩, Iff.rfl⟩
  · rw [hget] at htask
    rw [Engine.mem_grow]
    split at htask
    · cases htask
    · rename_i hne
      rw [or_iff_left fun hborn => hne hborn.2]
      exact h.consumers t target htask
  · rw [hsame.2] at hitem
    rw [hengine]
    exact (h.handed t item hitem).enqueue hf other command blob timeout c.now

theorem dealt_act (h : Dealt device serves s c) (hk : Keeping c) (ht : Tidy c) {a : Act}
    (hp : Permitted serves c (.act a)) (hids : Apart c.supply (c.drawn + submissions [a])) :
    Dealt device serves (s.next device c (.act a)) (act c a) := by
  have hoperate {a : Act} {op : Engine.Op} (ha : a.op? = some op)
      (hback : ∀ item, a ≠ .requeue item)
      (hm : ∀ id conn p, op = .mark id conn → (c.engine 0).pending.get? id = some p →
        serves conn = p.deviceId) (hb : ∀ item, op ≠ .requeue item) :
      Dealt device serves s (act c a) := by
    rw [act_operate ht ha hback]
    exact dealt_operate h hk op (Act.submits_op ha) hm fun item he => absurd he (hb item)
  cases a with
  | enqueue other command blob timeout =>
    exact dealt_enqueue h hk (fun i hi => hids i c.drawn hi (Nat.lt_succ_self _)) other command blob
      timeout
  | consume other => exact dealt_consume h other
  | mark id conn =>
    refine hoperate rfl nofun (fun j via p he hpending => ?_) nofun
    cases he
    exact hp p hpending
  | requeue item =>
    obtain ⟨t, hitem⟩ := hp
    refine dealt_notify (dealt_operate h hk (.requeue item) rfl nofun fun back he => ?_) _
    cases he
    exact h.handed t item hitem
  | turn t => exact dealt_give h hk ht t
  | pass ms => exact dealt_pass h ms
  | _ => exact hoperate rfl nofun nofun nofun

theorem dealt_quit (h : Dealt device serves s c) (t : TaskId) :
    Dealt device serves s (quit c t) := by
  obtain he | ⟨-, -, -, he⟩ := quit_cases c t <;> rw [he]
  · exact h
  · exact dealt_remove h t

theorem dealt_perform (h : Dealt device serves s c) (hk : Keeping c) (ht : Tidy c) {d : Deed}
    (hp : Permitted serves c d) (hids : Apart c.supply (c.drawn + requests [d])) :
    Dealt device serves (s.next device c d) (perform c d) := by
  cases d with
  | act a => exact dealt_act h hk ht hp hids
  | quit t => exact dealt_quit h t

/-- A run deals its commands and its tasks out. -/
theorem dealt_course {ds : List Deed} (h : Dealt device serves s c) (hk : Keeping c) (ht : Tidy c)
    (hp : Orderly serves c ds) (hids : Apart c.supply (c.drawn + requests ds)) :
    Dealt device serves (share device s c ds) (course c ds) := by
  induction ds generalizing s c with
  | nil => exact h
  | cons d ds ih =>
    obtain ⟨hfirst, hkeep, htidy, hrest⟩ := perform_first hk ht hids
    exact ih (dealt_perform h hk ht hp.1 hfirst) hkeep htidy hp.2 hrest

end Dealt

end FleetControl.Cluster.Lifetime
