import FleetControl.Proofs.Engine.Operation
import Mathlib.Logic.ExistsUnique

/-! # Where a pending command is

Consumers take commands off the queues, mark the ones that go out on a connection and put back what
they could not deliver. As long as they handle only what they took and put back each taking at most
once, a pending command is in one place at a time: in the queue of its device, with a consumer, or
with the connection that it went out on. Commands may be decided at any moment in between. -/
namespace FleetControl.Engine

/-- An engine with what its consumers took from it and did not put back. -/
structure Exchange where
  engine : Engine := {}
  hands : List (Nat × QueuedCommand) := []

namespace Exchange

inductive Move where
  | enqueue (id : Uuid) (device : String) (command : Command) (blob : Option ByteArray)
      (timeout now : Nat)
  | take (consumer : Nat) (device : String)
  | mark (consumer : Nat) (item : QueuedCommand) (conn : Uuid)
  | unmark (id : Uuid)
  | putBack (consumer : Nat) (item : QueuedCommand)
  | resolve (id : Uuid) (outcome : CommandOutcome)
  | respond (id : Uuid) (ok : Bool) (result : Json) (body : Option ByteArray)
  | expire (id : Uuid)
  | fail (conn : Uuid)

/-- Identifiers are fresh, and a consumer handles only what it has in hand. -/
def Permitted (s : Exchange) : Move → Prop
  | .enqueue id .. => s.engine.completions.get? id = none
  | .mark k item _ | .putBack k item => (k, item) ∈ s.hands
  | _ => True

/-- One taking of an item is over. -/
def drop (hands : List (Nat × QueuedCommand)) (k : Nat) (id : Uuid) :
    List (Nat × QueuedCommand) :=
  hands.eraseP fun h => h.1 = k ∧ h.2.id = id

def next (s : Exchange) : Move → Exchange
  | .enqueue id device command blob timeout now =>
    { s with engine := s.engine.enqueue id device command blob timeout now }
  | .take k device =>
    match s.engine.popLive device with
    | (e, none) => { s with engine := e }
    | (e, some item) => { engine := e, hands := s.hands ++ [(k, item)] }
  | .mark _ item conn => { s with engine := (s.engine.markSent item.id conn).1 }
  | .unmark id => { s with engine := s.engine.unmark id }
  | .putBack k item =>
    { engine := s.engine.requeueFront item, hands := drop s.hands k item.id }
  | .resolve id o => { s with engine := (s.engine.resolve id o).1 }
  | .respond id ok result body =>
    { s with engine := (s.engine.resolveResponse id ok result body).1 }
  | .expire id => { s with engine := (s.engine.expire id).1 }
  | .fail conn => { s with engine := (s.engine.failConnection conn).1 }

def run (s : Exchange) : List Move → Exchange
  | [] => s
  | m :: ms => run (next s m) ms

/-- Every move of a run keeps to the discipline. -/
def Orderly (s : Exchange) : List Move → Prop
  | [] => True
  | m :: ms => Permitted s m ∧ Orderly (next s m) ms

/-- How often a command stands in the queue of a device. -/
def waiting (s : Exchange) (device : String) (id : Uuid) : Nat :=
  (s.engine.queue device).countP fun item => item.id = id

/-- How often consumers have a command in hand. -/
def held (s : Exchange) (id : Uuid) : Nat := s.hands.countP fun h => h.2.id = id

/-- The items that stand in a queue or are in somebody's hand. -/
def Circulates (s : Exchange) (item : QueuedCommand) : Prop :=
  (∃ device, item ∈ s.engine.queue device) ∨ ∃ k, (k, item) ∈ s.hands

structure Placed (s : Exchange) : Prop where
  sound : s.engine.Sound
  addressed : ∀ device, ∀ item ∈ s.engine.queue device, item.deviceId = device
  known : ∀ item, s.Circulates item → ∃ c, s.engine.completions.get? item.id = some c
  own : ∀ item, s.Circulates item → ∀ p, s.engine.pending.get? item.id = some p →
    item.deviceId = p.deviceId
  once : ∀ id p, s.engine.pending.get? id = some p → s.waiting p.deviceId id + s.held id = 1
  unowned : ∀ id p, s.engine.pending.get? id = some p → 0 < s.waiting p.deviceId id →
    p.owner = none

theorem placed_empty : Placed {} where
  sound := sound_empty
  addressed := by simp [queue, Table.getD, Table.get?]
  known := by simp [Circulates, queue, Table.getD, Table.get?]
  own := by simp [Table.get?]
  once := by simp [Table.get?]
  unowned := by simp [Table.get?]

end Exchange

theorem queue_put (e : Engine) (device other : String) (q : List QueuedCommand) :
    ({ e with queues := e.queues.put device q } : Engine).queue other =
      if other = device then q else e.queue other := by
  simp only [queue, Table.getD, Table.get?_put]
  split <;> rfl

theorem queue_congr {e e' : Engine} (h : e'.queues = e.queues) (device : String) :
    e'.queue device = e.queue device := by
  simp [queue, h]

theorem Op.deviceId_marks (op : Op) (id : Uuid) (p : Pending) :
    (op.marks id p).deviceId = p.deviceId := by
  cases op <;> simp only [Op.marks] <;> split <;> rfl

/-- A pop drops decided commands and hands out the first pending one, if there is one. -/
theorem popLive_cases (e : Engine) (device : String) :
    ∃ passed, (∀ item ∈ passed, e.pending.get? item.id = none) ∧
      ((e.queue device = passed ∧ (e.popLive device).2 = none ∧
          ∀ other, (e.popLive device).1.queue other =
            if other = device then [] else e.queue other) ∨
       ∃ item rest, e.queue device = passed ++ item :: rest ∧
          (∃ p, e.pending.get? item.id = some p) ∧ (e.popLive device).2 = some item ∧
          ∀ other, (e.popLive device).1.queue other =
            if other = device then rest else e.queue other) := by
  let dead := fun item : QueuedCommand => decide ¬ e.isPending item.id = true
  have hsplit : e.queue device =
      (e.queue device).takeWhile dead ++ (e.queue device).dropWhile dead :=
    List.takeWhile_append_dropWhile.symm
  refine ⟨(e.queue device).takeWhile dead, ?_, ?_⟩
  · intro item hm
    have := List.all_eq_true.mp List.all_takeWhile item hm
    apply (e.isPending_eq_false item.id).mp
    simpa [dead] using this
  · unfold popLive
    cases hd : (e.queue device).dropWhile dead with
    | nil =>
      rw [hd, List.append_nil] at hsplit
      refine Or.inl ⟨hsplit, ?_, ?_⟩
      · dsimp only; split <;> rfl
      · intro other
        by_cases hq : e.queues.has device = true
        · simp only [if_pos hq]; exact queue_put e device other []
        · simp only [if_neg hq]
          by_cases ho : other = device
          · subst other
            have hn : e.queues.get? device = none := by
              simpa [Table.has] using hq
            simp [queue, Table.getD, hn]
          · rw [if_neg ho]
    | cons item rest =>
      rw [hd] at hsplit
      refine Or.inr ⟨item, rest, hsplit, ?_, rfl, fun other => queue_put e device other rest⟩
      have hlive := List.head_dropWhile_not dead (l := e.queue device) (by simp [hd])
      simp only [hd, List.head_cons] at hlive
      exact (e.isPending_iff item.id).mp (by simpa [dead] using hlive)

namespace Exchange

theorem waiting_congr {s t : Exchange} (h : t.engine.queues = s.engine.queues) (device : String)
    (id : Uuid) : t.waiting device id = s.waiting device id := by
  simp [waiting, queue_congr h]

/-- A command in somebody's hand stands in no queue. -/
theorem Placed.waiting_eq_zero {s : Exchange} (h : Placed s) {k : Nat} {item : QueuedCommand}
    (hm : (k, item) ∈ s.hands) {p : Pending} (hp : s.engine.pending.get? item.id = some p) :
    s.waiting p.deviceId item.id = 0 := by
  have : 0 < s.held item.id := List.countP_pos_iff.mpr ⟨(k, item), hm, by simp⟩
  have := h.once item.id p hp
  omega

/-- What the operations that submit nothing have in common: items only change places, a pending
command keeps its device and stands as often in its queue and in hands together, and nobody owns one
that waits. -/
structure Shifts (s t : Exchange) : Prop where
  sound : t.engine.Sound
  addressed : ∀ device, ∀ item ∈ t.engine.queue device, item.deviceId = device
  circulates : ∀ item, t.Circulates item → s.Circulates item
  known : ∀ id c, s.engine.completions.get? id = some c →
    ∃ c', t.engine.completions.get? id = some c'
  pending : ∀ id q, t.engine.pending.get? id = some q →
    ∃ p, s.engine.pending.get? id = some p ∧ q.deviceId = p.deviceId ∧
      t.waiting p.deviceId id + t.held id = s.waiting p.deviceId id + s.held id ∧
      (0 < t.waiting p.deviceId id → q.owner = none)

theorem Placed.shift {s t : Exchange} (h : Placed s) (ht : Shifts s t) : Placed t where
  sound := ht.sound
  addressed := ht.addressed
  known := by
    intro item hi
    obtain ⟨c, hc⟩ := h.known item (ht.circulates item hi)
    exact ht.known item.id c hc
  own := by
    intro item hi q hq
    obtain ⟨p, hp, hd, -, -⟩ := ht.pending item.id q hq
    rw [hd]
    exact h.own item (ht.circulates item hi) p hp
  once := by
    intro id q hq
    obtain ⟨p, hp, hd, hone, -⟩ := ht.pending id q hq
    rw [hd, hone]
    exact h.once id p hp
  unowned := by
    intro id q hq hw
    obtain ⟨p, -, hd, -, ho⟩ := ht.pending id q hq
    exact ho (hd ▸ hw)

/-- Operations that leave the queues alone keep the placement if no command in a queue gets an
owner. -/
theorem Placed.apply {s : Exchange} (h : Placed s) (op : Op) (hn : op.submits? = none)
    (hq : (s.engine.apply op).queues = s.engine.queues)
    (hm : ∀ id p, s.engine.pending.get? id = some p → 0 < s.waiting p.deviceId id →
      (op.marks id p).owner = p.owner) :
    Placed { s with engine := s.engine.apply op } := by
  have hf : op.Fresh s.engine := by cases op <;> simp_all [Op.Fresh, Op.submits?]
  refine h.shift ⟨sound_apply h.sound op hf, ?_, ?_, fun _ _ => known_apply h.sound hf, ?_⟩
  · intro device item hd
    exact h.addressed device item (by simpa [queue_congr hq] using hd)
  · rintro item (⟨device, hd⟩ | hk)
    · exact Or.inl ⟨device, by simpa [queue_congr hq] using hd⟩
    · exact Or.inr hk
  · intro id q hg
    obtain ⟨p, hp, -, rfl⟩ := pending_origin h.sound hn hg
    refine ⟨p, hp, op.deviceId_marks id p, ?_⟩
    rw [waiting_congr hq]
    refine ⟨rfl, fun hw => ?_⟩
    rw [hm id p hp hw]
    exact h.unowned id p hp hw

/-- A fresh identifier is neither in a queue nor in a hand. -/
theorem Placed.ne_of_fresh {s : Exchange} (h : Placed s) {id : Uuid}
    (hf : s.engine.completions.get? id = none) {item : QueuedCommand} (hi : s.Circulates item) :
    item.id ≠ id := by
  intro he
  obtain ⟨c, hc⟩ := h.known item hi
  rw [he, hf] at hc
  cases hc

theorem Placed.waiting_fresh {s : Exchange} (h : Placed s) {id : Uuid}
    (hf : s.engine.completions.get? id = none) (device : String) : s.waiting device id = 0 := by
  apply List.countP_eq_zero.mpr
  intro item hi
  simpa using h.ne_of_fresh hf (Or.inl ⟨device, hi⟩)

theorem Placed.held_fresh {s : Exchange} (h : Placed s) {id : Uuid}
    (hf : s.engine.completions.get? id = none) : s.held id = 0 := by
  apply List.countP_eq_zero.mpr
  intro x hx
  simpa using h.ne_of_fresh hf (Or.inr ⟨x.1, hx⟩)

theorem Placed.enqueue {s : Exchange} (h : Placed s) {id : Uuid}
    (hf : s.engine.completions.get? id = none) (device : String) (command : Command)
    (blob : Option ByteArray) (timeout now : Nat) :
    Placed { s with engine := s.engine.enqueue id device command blob timeout now } := by
  let item : QueuedCommand := ⟨id, device, command, blob⟩
  let t : Exchange := { s with engine := s.engine.enqueue id device command blob timeout now }
  have hqueue : ∀ other, t.engine.queue other =
      if other = device then s.engine.queue device ++ [item] else s.engine.queue other :=
    fun other => queue_put _ device other _
  have hcirc : ∀ x, t.Circulates x → x = item ∨ s.Circulates x := by
    rintro x (⟨other, hx⟩ | hx)
    · rw [hqueue] at hx
      split at hx
      · rcases List.mem_append.mp hx with hx | hx
        · exact Or.inr (Or.inl ⟨device, hx⟩)
        · exact Or.inl (List.mem_singleton.mp hx)
      · exact Or.inr (Or.inl ⟨other, hx⟩)
    · exact Or.inr (Or.inr hx)
  have hcount : ∀ other j, t.waiting other j =
      s.waiting other j + if other = device ∧ j = id then 1 else 0 := by
    intro other j
    by_cases ho : other = device
    · subst other
      by_cases hj : id = j
      · simp [waiting, hqueue, item, hj]
      · simp [waiting, hqueue, item, hj, Ne.symm hj]
    · simp [waiting, hqueue, ho]
  refine ⟨sound_apply h.sound (.enqueue id device command blob timeout now) hf, ?_, ?_, ?_, ?_, ?_⟩
  · intro other x hx
    rw [hqueue] at hx
    split at hx
    · rename_i ho
      rcases List.mem_append.mp hx with hx | hx
      · exact ho ▸ h.addressed device x hx
      · rw [List.mem_singleton.mp hx, ho]
    · exact h.addressed other x hx
  · intro x hx
    rw [completions_enqueue]
    rcases hcirc x hx with rfl | hx
    · exact ⟨.unresolved, by simp [item]⟩
    · rw [if_neg (h.ne_of_fresh hf hx)]
      exact h.known x hx
  · intro x hx p hp
    rw [pending_enqueue] at hp
    rcases hcirc x hx with rfl | hx
    · simp only [item, if_true, Option.some.injEq] at hp
      rw [← hp]
    · rw [if_neg (h.ne_of_fresh hf hx)] at hp
      exact h.own x hx p hp
  · intro j p hp
    rw [pending_enqueue] at hp
    change t.waiting p.deviceId j + s.held j = 1
    rw [hcount]
    by_cases hj : j = id
    · subst j
      simp only [if_true, Option.some.injEq] at hp
      subst p
      simp [h.waiting_fresh hf, h.held_fresh hf]
    · rw [if_neg hj] at hp
      simpa [hj] using h.once j p hp
  · intro j p hp hw
    rw [pending_enqueue] at hp
    change 0 < t.waiting p.deviceId j at hw
    rw [hcount] at hw
    by_cases hj : j = id
    · simp only [hj, if_true, Option.some.injEq] at hp
      rw [← hp]
    · rw [if_neg hj] at hp
      exact h.unowned j p hp (by simpa [hj] using hw)

/-- What a pop passes over counts nowhere for a pending command. -/
theorem countP_passed {e : Engine} {passed : List QueuedCommand}
    (hpassed : ∀ item ∈ passed, e.pending.get? item.id = none) {id : Uuid} {p : Pending}
    (hp : e.pending.get? id = some p) : passed.countP (fun item => item.id = id) = 0 := by
  apply List.countP_eq_zero.mpr
  intro item hi he
  have hn := hpassed item hi
  rw [of_decide_eq_true he, hp] at hn
  cases hn

/-- A pop that finds nothing pending empties the queue. -/
theorem Placed.swept {s : Exchange} (h : Placed s) {device : String} {passed : List QueuedCommand}
    (hpassed : ∀ item ∈ passed, s.engine.pending.get? item.id = none)
    (hq : s.engine.queue device = passed)
    (hqueue : ∀ other, (s.engine.popLive device).1.queue other =
      if other = device then [] else s.engine.queue other) :
    Shifts s { s with engine := (s.engine.popLive device).1 } where
  sound := sound_apply h.sound (.pop device) trivial
  addressed := by
    intro other x hx
    rw [hqueue] at hx
    split at hx
    · cases hx
    · exact h.addressed other x hx
  circulates := by
    rintro x (⟨other, hx⟩ | hx)
    · rw [hqueue] at hx
      split at hx
      · cases hx
      · exact Or.inl ⟨other, hx⟩
    · exact Or.inr hx
  known := fun _ c hc => ⟨c, by simpa using hc⟩
  pending := by
    intro id p hp
    have hp : s.engine.pending.get? id = some p := by simpa using hp
    have hwait : ∀ other, Exchange.waiting { s with engine := (s.engine.popLive device).1 }
        other id = s.waiting other id := by
      intro other
      by_cases ho : other = device
      · subst other; simp [waiting, hqueue, hq, countP_passed hpassed hp]
      · simp [waiting, hqueue, ho]
    refine ⟨p, hp, rfl, ?_⟩
    rw [hwait]
    exact ⟨rfl, h.unowned id p hp⟩

/-- A pop that finds a pending command moves it from the queue to the consumer's hand. -/
theorem Placed.taken {s : Exchange} (h : Placed s) (k : Nat) {device : String}
    {passed rest : List QueuedCommand} {item : QueuedCommand}
    (hpassed : ∀ x ∈ passed, s.engine.pending.get? x.id = none)
    (hq : s.engine.queue device = passed ++ item :: rest)
    (hqueue : ∀ other, (s.engine.popLive device).1.queue other =
      if other = device then rest else s.engine.queue other) :
    Shifts s { engine := (s.engine.popLive device).1, hands := s.hands ++ [(k, item)] } := by
  have hin : item ∈ s.engine.queue device := by rw [hq]; simp
  refine ⟨sound_apply h.sound (.pop device) trivial, ?_, ?_, fun _ c hc => ⟨c, ?_⟩, ?_⟩
  · intro other x hx
    rw [hqueue] at hx
    split at hx
    · rename_i ho
      exact ho ▸ h.addressed device x (by rw [hq]; simp [hx])
    · exact h.addressed other x hx
  · rintro x (⟨other, hx⟩ | ⟨j, hx⟩)
    · rw [hqueue] at hx
      split at hx
      · exact Or.inl ⟨device, by rw [hq]; simp [hx]⟩
      · exact Or.inl ⟨other, hx⟩
    · rcases List.mem_append.mp hx with hx | hx
      · exact Or.inr ⟨j, hx⟩
      · have : x = item := congrArg Prod.snd (List.mem_singleton.mp hx)
        exact Or.inl ⟨device, this ▸ hin⟩
  · simpa using hc
  · intro id p hp
    have hp : s.engine.pending.get? id = some p := by simpa using hp
    let t : Exchange := ⟨(s.engine.popLive device).1, s.hands ++ [(k, item)]⟩
    -- only the queue that was popped and the command that was found count differently
    have hmove : t.waiting p.deviceId id + t.held id = s.waiting p.deviceId id + s.held id ∧
        t.waiting p.deviceId id ≤ s.waiting p.deviceId id := by
      by_cases hi : item.id = id
      · have hd : p.deviceId = device := by
          rw [← h.own item (Or.inl ⟨device, hin⟩) p (hi ▸ hp)]
          exact h.addressed device item hin
        simp only [t, waiting, held, hqueue, hd, if_true, hq, List.countP_append,
          countP_passed hpassed hp, List.countP_cons, List.countP_nil, hi, decide_true]
        omega
      · by_cases ho : p.deviceId = device
        · simp only [t, waiting, held, hqueue, ho, if_true, hq, List.countP_append,
            countP_passed hpassed hp, List.countP_cons, List.countP_nil, hi, decide_false]
          simp
        · simp [t, waiting, held, hqueue, ho, hi]
    exact ⟨p, hp, rfl, hmove.1, fun hw => h.unowned id p hp (Nat.lt_of_lt_of_le hw hmove.2)⟩

theorem Placed.take {s : Exchange} (h : Placed s) (k : Nat) (device : String) :
    Placed (next s (.take k device)) := by
  obtain ⟨passed, hpassed, ⟨hq, hnone, hqueue⟩ | ⟨item, rest, hq, -, hsome, hqueue⟩⟩ :=
    popLive_cases s.engine device
  · have hnext : next s (.take k device) = { s with engine := (s.engine.popLive device).1 } := by
      simp only [next]; split <;> simp_all
    rw [hnext]
    exact h.shift (h.swept hpassed hq hqueue)
  · have hnext : next s (.take k device) =
        { engine := (s.engine.popLive device).1, hands := s.hands ++ [(k, item)] } := by
      simp only [next]; split <;> simp_all
    rw [hnext]
    exact h.shift (h.taken k hpassed hq hqueue)

/-- A command that is put back loses its owner, if it still waits for an answer. -/
theorem pending_putBack {s : Exchange} {k : Nat} {item : QueuedCommand} {id : Uuid} {q : Pending}
    (hq : (next s (.putBack k item)).engine.pending.get? id = some q) :
    ∃ p, s.engine.pending.get? id = some p ∧ q.deviceId = p.deviceId ∧
      q.owner = if id = item.id then none else p.owner := by
  change (s.engine.requeueFront item).pending.get? id = some q at hq
  rw [pending_requeueFront] at hq
  by_cases hi : id = item.id
  · rw [if_pos hi] at hq
    obtain ⟨p, hp, rfl⟩ := Option.map_eq_some_iff.mp hq
    exact ⟨p, hp, rfl, (if_pos hi).symm⟩
  · rw [if_neg hi] at hq
    exact ⟨q, hq, rfl, (if_neg hi).symm⟩

theorem Placed.putBack {s : Exchange} (h : Placed s) {k : Nat} {item : QueuedCommand}
    (hm : (k, item) ∈ s.hands) : Placed (next s (.putBack k item)) := by
  obtain ⟨x, before, after, hfree, hx, hhands, hdrop⟩ := List.exists_of_eraseP
    (p := fun h : Nat × QueuedCommand => decide (h.1 = k ∧ h.2.id = item.id)) hm (by simp)
  have hxi : x.2.id = item.id := (of_decide_eq_true hx).2
  let t : Exchange := next s (.putBack k item)
  have hqueue : ∀ other, t.engine.queue other =
      if other = item.deviceId then item :: s.engine.queue item.deviceId
      else s.engine.queue other := fun other => queue_put (s.engine.unmark item.id) _ other _
  have hthands : t.hands = before ++ after := hdrop
  -- what leaves the hand is what comes to the queue
  have hheld : ∀ id, s.held id = t.held id + if item.id = id then 1 else 0 := by
    intro id
    simp only [held, hthands, hhands, List.countP_append, List.countP_cons, hxi]
    by_cases hi : item.id = id
    · simp [hi]
      omega
    · simp [hi]
  have hwaiting : ∀ id p, s.engine.pending.get? id = some p →
      t.waiting p.deviceId id = s.waiting p.deviceId id + if item.id = id then 1 else 0 := by
    intro id p hp
    by_cases hi : item.id = id
    · have hd : item.deviceId = p.deviceId := h.own item (Or.inr ⟨k, hm⟩) p (hi ▸ hp)
      simp [waiting, hqueue, hd, hi]
    · by_cases hd : p.deviceId = item.deviceId
      · simp [waiting, hqueue, hd, hi]
      · simp [waiting, hqueue, hd, hi]
  refine h.shift ⟨sound_apply h.sound (.requeue item) trivial, ?_, ?_, fun _ c hc => ⟨c, hc⟩, ?_⟩
  · intro other y hy
    change y ∈ t.engine.queue other at hy
    rw [hqueue] at hy
    split at hy
    · rename_i ho
      rcases List.mem_cons.mp hy with rfl | hy
      · exact ho.symm
      · exact ho ▸ h.addressed item.deviceId y hy
    · exact h.addressed other y hy
  · rintro y (⟨other, hy⟩ | ⟨j, hy⟩)
    · change y ∈ t.engine.queue other at hy
      rw [hqueue] at hy
      split at hy
      · rcases List.mem_cons.mp hy with rfl | hy
        · exact Or.inr ⟨k, hm⟩
        · exact Or.inl ⟨item.deviceId, hy⟩
      · exact Or.inl ⟨other, hy⟩
    · change (j, y) ∈ t.hands at hy
      rw [hthands] at hy
      refine Or.inr ⟨j, ?_⟩
      rw [hhands]
      rcases List.mem_append.mp hy with hy | hy <;> simp [hy]
  · intro id q hq
    obtain ⟨p, hp, hd, ho⟩ := pending_putBack hq
    have hw := hwaiting id p hp
    refine ⟨p, hp, hd, ?_, fun hpos => ?_⟩
    · have := hheld id
      change t.waiting p.deviceId id + t.held id = _
      omega
    · rw [ho]
      split
      · rfl
      · rename_i hne
        change 0 < t.waiting p.deviceId id at hpos
        rw [hw, if_neg (Ne.symm hne)] at hpos
        exact h.unowned id p hp hpos

theorem placed_next {s : Exchange} (h : Placed s) {m : Move} (hm : Permitted s m) :
    Placed (next s m) := by
  cases m with
  | enqueue id device command blob timeout now =>
    exact h.enqueue hm device command blob timeout now
  | take k device => exact h.take k device
  | mark k item conn =>
    refine h.apply (.mark item.id conn) rfl (queues_markSent _ _ _) ?_
    intro id p hp hw
    by_cases hi : item.id = id
    · subst hi; rw [h.waiting_eq_zero hm hp] at hw; omega
    · simp [Op.marks, hi]
  | unmark i =>
    refine h.apply (.unmark i) rfl rfl ?_
    intro id p hp hw
    simp only [Op.marks]
    split
    · exact (h.unowned id p hp hw).symm
    · rfl
  | putBack k item => exact h.putBack hm
  | resolve id o => exact h.apply (.resolve id o) rfl (queues_resolve _ _ _) fun _ _ _ _ => rfl
  | respond id ok result body =>
    exact h.apply (.respond id ok result body) rfl (queues_resolve _ _ _) fun _ _ _ _ => rfl
  | expire id =>
    refine h.apply (.expire id) rfl ?_ fun _ _ _ _ => rfl
    simp only [Engine.apply, Engine.expire]
    split
    · rfl
    · exact queues_resolve _ _ _
  | fail conn => exact h.apply (.fail conn) rfl (queues_failAll _ _) fun _ _ _ _ => rfl

theorem placed_run {s : Exchange} (h : Placed s) {ms : List Move} (hm : Orderly s ms) :
    Placed (run s ms) := by
  induction ms generalizing s with
  | nil => exact h
  | cons m ms ih => exact ih (placed_next h hm.1) hm.2

inductive Place where
  | queued
  | held (consumer : Nat)
  | owned (conn : Uuid)
  deriving DecidableEq

/-- Where a command is. A consumer that marked an item has it in hand until its delivery is over;
meanwhile the command counts as the connection's. -/
def At (s : Exchange) (id : Uuid) : Place → Prop
  | .queued => ∃ device, ∃ item ∈ s.engine.queue device, item.id = id
  | .held k => (∃ item, (k, item) ∈ s.hands ∧ item.id = id) ∧
      ∃ p, s.engine.pending.get? id = some p ∧ p.owner = none
  | .owned conn => ∃ p, s.engine.pending.get? id = some p ∧ p.owner = some conn

theorem eq_of_countP_eq_one {α : Type} {f : α → Bool} {l : List α} (h : l.countP f = 1)
    {a b : α} (ha : a ∈ l) (hb : b ∈ l) (fa : f a = true) (fb : f b = true) : a = b := by
  obtain ⟨l₁, l₂, rfl⟩ := List.append_of_mem ha
  simp only [List.countP_append, List.countP_cons, fa, if_true] at h
  have h₁ : l₁.countP f = 0 := by omega
  have h₂ : l₂.countP f = 0 := by omega
  rcases List.mem_append.mp hb with hb | hb
  · exact absurd fb (List.countP_eq_zero.mp h₁ b hb)
  · rcases List.mem_cons.mp hb with rfl | hb
    · rfl
    · exact absurd fb (List.countP_eq_zero.mp h₂ b hb)

theorem Placed.queued_iff {s : Exchange} (h : Placed s) {id : Uuid} {p : Pending}
    (hp : s.engine.pending.get? id = some p) : At s id .queued ↔ 0 < s.waiting p.deviceId id := by
  constructor
  · rintro ⟨device, item, hi, rfl⟩
    have hd : item.deviceId = p.deviceId := h.own item (Or.inl ⟨device, hi⟩) p hp
    have ha := h.addressed device item hi
    exact List.countP_pos_iff.mpr ⟨item, by rw [← hd, ha]; exact hi, by simp⟩
  · intro hw
    obtain ⟨item, hi, he⟩ := List.countP_pos_iff.mp hw
    exact ⟨p.deviceId, item, hi, of_decide_eq_true he⟩

theorem held_iff {s : Exchange} {id : Uuid} {p : Pending}
    (hp : s.engine.pending.get? id = some p) {k : Nat} :
    At s id (.held k) ↔ (∃ item, (k, item) ∈ s.hands ∧ item.id = id) ∧ p.owner = none := by
  simp [At, hp]

theorem owned_iff {s : Exchange} {id : Uuid} {p : Pending}
    (hp : s.engine.pending.get? id = some p) {conn : Uuid} :
    At s id (.owned conn) ↔ p.owner = some conn := by
  simp [At, hp]

theorem Placed.one_place {s : Exchange} (h : Placed s) {id : Uuid}
    (hp : s.engine.isPending id = true) : ∃! place, At s id place := by
  obtain ⟨p, hp⟩ := (s.engine.isPending_iff id).mp hp
  have hone := h.once id p hp
  have hqueued := h.queued_iff hp
  by_cases hw : 0 < s.waiting p.deviceId id
  · have ho := h.unowned id p hp hw
    refine ⟨.queued, hqueued.mpr hw, ?_⟩
    rintro (_ | k | conn) hat
    · rfl
    · obtain ⟨⟨item, hm, hi⟩, -⟩ := (held_iff hp).mp hat
      have : 0 < s.held id := List.countP_pos_iff.mpr ⟨(k, item), hm, by simp [hi]⟩
      omega
    · rw [owned_iff hp, ho] at hat
      cases hat
  · have hh : s.held id = 1 := by omega
    cases ho : p.owner with
    | none =>
      obtain ⟨⟨k, item⟩, hm, hi⟩ := List.countP_pos_iff.mp (show 0 < s.held id by omega)
      refine ⟨.held k, (held_iff hp).mpr ⟨⟨item, hm, of_decide_eq_true hi⟩, ho⟩, ?_⟩
      rintro (_ | j | conn) hat
      · exact absurd (hqueued.mp hat) hw
      · obtain ⟨⟨item', hm', hi'⟩, -⟩ := (held_iff hp).mp hat
        have hjk : j = k := congrArg Prod.fst (eq_of_countP_eq_one hh hm' hm (by simp [hi']) hi)
        rw [hjk]
      · rw [owned_iff hp, ho] at hat
        cases hat
    | some conn =>
      refine ⟨.owned conn, (owned_iff hp).mpr ho, ?_⟩
      rintro (_ | k | conn') hat
      · exact absurd (hqueued.mp hat) hw
      · rw [held_iff hp, ho] at hat
        cases hat.2
      · rw [owned_iff hp, ho] at hat
        rw [Option.some.inj hat]

theorem Placed.waiting_le_one {s : Exchange} (h : Placed s) (device : String) {id : Uuid}
    (hp : s.engine.isPending id = true) : s.waiting device id ≤ 1 := by
  obtain ⟨p, hp⟩ := (s.engine.isPending_iff id).mp hp
  by_cases hd : device = p.deviceId
  · have := h.once id p hp
    rw [hd]
    omega
  · have : s.waiting device id = 0 := by
      apply List.countP_eq_zero.mpr
      intro item hi he
      have he : item.id = id := of_decide_eq_true he
      apply hd
      rw [← h.own item (Or.inl ⟨device, hi⟩) p (he ▸ hp)]
      exact (h.addressed device item hi).symm
    omega

/-- Nothing is lost and nothing is doubled: in every state that consumers of this discipline can
reach, a pending command is in exactly one place, a queue holds no command twice and none of
another device, and what a pop hands out is pending. -/
theorem pending_in_one_place (ms : List Move) (hm : Orderly {} ms) :
    (∀ id, (run {} ms).engine.isPending id = true → ∃! place, At (run {} ms) id place) ∧
    (∀ id p, (run {} ms).engine.pending.get? id = some p → At (run {} ms) id .queued →
      (run {} ms).waiting p.deviceId id = 1 ∧ p.owner = none ∧ (run {} ms).held id = 0) ∧
    (∀ id, (run {} ms).engine.isPending id = true →
      (∀ device, (run {} ms).waiting device id ≤ 1) ∧ (run {} ms).held id ≤ 1) ∧
    (∀ device, ∀ item ∈ (run {} ms).engine.queue device, item.deviceId = device ∧
      ∀ p, (run {} ms).engine.pending.get? item.id = some p → p.deviceId = device) ∧
    (∀ device item, ((run {} ms).engine.popLive device).2 = some item →
      (run {} ms).engine.isPending item.id = true ∧ item.deviceId = device) := by
  have h : Placed (run {} ms) := placed_run placed_empty hm
  refine ⟨fun id hp => h.one_place hp, ?_, ?_, ?_, ?_⟩
  · intro id p hp hat
    have hw := (h.queued_iff hp).mp hat
    have := h.once id p hp
    exact ⟨by omega, h.unowned id p hp hw, by omega⟩
  · intro id hp
    refine ⟨fun device => h.waiting_le_one device hp, ?_⟩
    obtain ⟨p, hp⟩ := (Engine.isPending_iff _ id).mp hp
    have := h.once id p hp
    omega
  · intro device item hi
    refine ⟨h.addressed device item hi, ?_⟩
    intro p hp
    rw [← h.own item (Or.inl ⟨device, hi⟩) p hp]
    exact h.addressed device item hi
  · intro device item hs
    obtain ⟨passed, -, ⟨-, hn, -⟩ | ⟨other, rest, hq, hp, hsome, -⟩⟩ :=
      popLive_cases (run {} ms).engine device
    · rw [hn] at hs; cases hs
    · obtain rfl : other = item := Option.some.inj (hsome.symm.trans hs)
      exact ⟨(Engine.isPending_iff _ _).mpr hp,
        h.addressed device other (by rw [hq]; simp)⟩

/-- A consumer takes one of two commands, marks it and puts it back; another consumer takes it. -/
def handedOver : List Move :=
  let item : QueuedCommand := ⟨⟨1⟩, "frame-1", .fileRead "/a", none⟩
  [.enqueue ⟨1⟩ "frame-1" (.fileRead "/a") none 1000 0,
    .enqueue ⟨2⟩ "frame-1" (.fileRead "/b") none 1000 0,
    .take 0 "frame-1", .mark 0 item ⟨7⟩, .putBack 0 item, .take 1 "frame-1"]

theorem orderly_handedOver : Orderly {} handedOver := by
  refine ⟨rfl, rfl, trivial, ?_, ?_, trivial, trivial⟩
  · exact List.mem_singleton.mpr rfl
  · exact List.mem_singleton.mpr rfl

theorem pending_in_one_place_handedOver :
    Orderly {} handedOver ∧ (∃! place, At (run {} handedOver) ⟨1⟩ place) ∧
      (run {} handedOver).waiting "frame-1" ⟨2⟩ ≤ 1 :=
  have h := pending_in_one_place handedOver orderly_handedOver
  ⟨orderly_handedOver, h.1 ⟨1⟩ rfl, (h.2.2.1 ⟨2⟩ rfl).1 "frame-1"⟩

end Exchange

end FleetControl.Engine
