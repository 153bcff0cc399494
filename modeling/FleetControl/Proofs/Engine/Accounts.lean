import FleetControl.Proofs.Engine.Sharing
import Mathlib.Data.List.Perm.Subperm

/-! # What was put on the queues and what was handed out

Submitting a command and putting one back hold one lock after the other, so other threads may get
in between: a command is pending before it stands on its queue, and is nobody's before it is back.
However these steps are mixed, each copy that was put on a queue is handed out at most once, and
that of a pending command either was handed out or is on the queue still. -/
namespace FleetControl.Engine

/-- A command is pending from now on; it is on no queue yet. -/
def record (e : Engine) (id : Uuid) (device : String) (command : Command) (timeout now : Nat) :
    Engine :=
  { e with
    pending := e.pending.put id ⟨device, command.name, none, timeout, now + timeout⟩
    completions := e.completions.put id .unresolved }

/-- A command goes to the end of the queue of its device. -/
def append (e : Engine) (item : QueuedCommand) : Engine :=
  { e with queues := e.queues.put item.deviceId (e.queue item.deviceId ++ [item]) }

/-- A command goes to the head of the queue of its device. -/
def prepend (e : Engine) (item : QueuedCommand) : Engine :=
  { e with queues := e.queues.put item.deviceId (item :: e.queue item.deviceId) }

theorem enqueue_eq (e : Engine) (id : Uuid) (device : String) (command : Command)
    (blob : Option ByteArray) (timeout now : Nat) :
    e.enqueue id device command blob timeout now =
      (e.record id device command timeout now).append ⟨id, device, command, blob⟩ := rfl

theorem requeueFront_eq (e : Engine) (item : QueuedCommand) :
    e.requeueFront item = (e.unmark item.id).prepend item := rfl

/-- The queue of a device holds no pending command. -/
def Dry (e : Engine) (device : String) : Prop :=
  ∀ item ∈ e.queue device, e.isPending item.id = false

/-- Those of some commands that are pending. -/
def live (e : Engine) (items : List QueuedCommand) : List QueuedCommand :=
  items.filter fun item => e.isPending item.id

/-- Those of some commands that are for a device. -/
def addressed (device : String) (items : List QueuedCommand) : List QueuedCommand :=
  items.filter fun item => item.deviceId = device

/-- Of what was put on the queues, each copy was handed out at most once, and those of pending
commands that were not are on the queue of their device. -/
structure Accounted (e : Engine) (put handed : List QueuedCommand) : Prop where
  own : ∀ device, ∀ item ∈ e.queue device, item.deviceId = device
  known : ∀ item ∈ put, e.completions.has item.id = true
  once : ∀ device, (addressed device handed ++ e.queue device).Subperm (addressed device put)
  all : ∀ device,
    (e.live (addressed device handed ++ e.queue device)).Perm (e.live (addressed device put))

theorem accounted_empty : Accounted {} [] [] where
  own := nofun
  known := nofun
  once _ := List.Subperm.refl _
  all _ := List.Perm.refl _

section Changes
variable {e e' : Engine} {put handed : List QueuedCommand} {device : String}

theorem Dry.mono (h : Dry e device) (hqueue : ∀ item ∈ e'.queue device, item ∈ e.queue device)
    (hpending : ∀ item ∈ e.queue device, e.isPending item.id = false →
      e'.isPending item.id = false) : Dry e' device :=
  fun item hitem => hpending item (hqueue item hitem) (h item (hqueue item hitem))

theorem live_congr {items : List QueuedCommand}
    (h : ∀ item ∈ items, e'.isPending item.id = e.isPending item.id) :
    e'.live items = e.live items := List.filter_congr h

theorem live_dead {items : List QueuedCommand} (h : ∀ item ∈ items, e.isPending item.id = false) :
    e.live items = [] := List.filter_eq_nil_iff.mpr fun item hitem => by simp [h item hitem]

theorem live_append (items more : List QueuedCommand) :
    e.live (items ++ more) = e.live items ++ e.live more := List.filter_append ..

theorem addressed_append (items more : List QueuedCommand) :
    addressed device (items ++ more) = addressed device items ++ addressed device more :=
  List.filter_append ..

theorem addressed_cons (item : QueuedCommand) (items : List QueuedCommand) :
    addressed device (item :: items) =
      if device = item.deviceId then item :: addressed device items
      else addressed device items := by
  by_cases hd : device = item.deviceId
  · simp [addressed, hd]
  · simp [addressed, hd, Ne.symm hd]

theorem isPending_congr (h : e'.pending = e.pending) (id : Uuid) :
    e'.isPending id = e.isPending id := by
  rw [isPending, isPending, h]

/-- What is decided stays so, and nothing else becomes pending. -/
theorem not_pending_apply (hs : e.Sound) {op : Op} (hn : op.submits? = none) {id : Uuid}
    (h : e.isPending id = false) : (e.apply op).isPending id = false :=
  ((e.apply op).isPending_eq_false id).mpr
    (apply_not_pending hs ((e.isPending_eq_false id).mp h) (by simp [hn])).1

theorem has_apply (hs : e.Sound) {op : Op} (hn : op.submits? = none) {id : Uuid}
    (h : e.completions.has id = true) : (e.apply op).completions.has id = true := by
  obtain ⟨k, hk⟩ := (Table.has_iff _ _).mp h
  exact (Table.has_iff _ _).mpr (known_apply hs (fresh_of_submits hn e) hk)

theorem isPending_record {id j : Uuid} (hj : j ≠ id) (command : Command) (timeout now : Nat) :
    (e.record id device command timeout now).isPending j = e.isPending j :=
  congrArg Option.isSome (Table.get?_put_of_ne e.pending _ hj)

/-- What a pop passes over is decided; what it hands out was next on the queue. -/
theorem popLive_split (e : Engine) (device : String) :
    ∃ passed, (∀ item ∈ passed, e.isPending item.id = false) ∧
      e.queue device =
        passed ++ ((e.popLive device).2.toList ++ (e.popLive device).1.queue device) ∧
      ∀ other, other ≠ device → (e.popLive device).1.queue other = e.queue other := by
  obtain ⟨passed, hdead, ⟨hqueue, hnone, hrest⟩ | ⟨item, rest, hqueue, -, hitem, hrest⟩⟩ :=
    popLive_cases e device
  all_goals
    refine ⟨passed, fun x hx => (e.isPending_eq_false x.id).mpr (hdead x hx), ?_,
      fun other ho => (hrest other).trans (if_neg ho)⟩
  · rw [hnone, hrest, if_pos rfl, hqueue]
    simp
  · rw [hitem, hrest, if_pos rfl, hqueue]
    rfl

/-- Who finds nothing leaves nothing behind. -/
theorem dry_popLive (h : (e.popLive device).2 = none) : Dry (e.popLive device).1 device := by
  obtain ⟨passed, -, ⟨-, -, hrest⟩ | ⟨item, rest, -, -, hitem, -⟩⟩ := popLive_cases e device
  · intro item hitem
    rw [hrest, if_pos rfl] at hitem
    cases hitem
  · rw [h] at hitem
    cases hitem

theorem Dry.apply (h : Dry e device) (hs : e.Sound) {op : Op} (hn : op.submits? = none)
    (hback : ∀ item, op ≠ .requeue item) : Dry (e.apply op) device := by
  refine h.mono (fun item hitem => ?_) fun item _ => not_pending_apply hs hn
  by_cases hpop : ∃ other, op = .pop other
  · obtain ⟨other, rfl⟩ := hpop
    exact (queue_popLive_sublist e other device).subset hitem
  · have hqueues := queues_apply e op hn (fun other he => hpop ⟨other, he⟩) hback
    exact queue_congr hqueues device ▸ hitem

namespace Accounted

theorem queued (h : Accounted e put handed) {item : QueuedCommand} (hitem : item ∈ e.queue device) :
    item ∈ put :=
  (List.mem_filter.mp ((h.once device).subset (List.mem_append_right _ hitem))).1

/-- A new command is known from before nowhere. -/
theorem record (h : Accounted e put handed) {id : Uuid} (hf : e.completions.get? id = none)
    (device : String) (command : Command) (timeout now : Nat) :
    Accounted (e.record id device command timeout now) put handed := by
  have hold (item : QueuedCommand) (hitem : item ∈ put) : item.id ≠ id := by
    obtain ⟨k, hk⟩ := (Table.has_iff _ _).mp (h.known item hitem)
    exact ne_of_known hf hk
  have hput (other : String) (item : QueuedCommand) (hitem : item ∈ addressed other put) :
      (e.record id device command timeout now).isPending item.id = e.isPending item.id :=
    isPending_record (hold item (List.mem_filter.mp hitem).1) command timeout now
  refine ⟨h.own, fun item hitem => ?_, h.once, fun other => ?_⟩
  · refine (Table.has_iff _ _).mpr ?_
    rw [Engine.record, Table.get?_put_of_ne _ _ (hold item hitem)]
    exact (Table.has_iff _ _).mp (h.known item hitem)
  · have hgot := live_congr fun item hitem => hput other item ((h.once other).subset hitem)
    have hall := h.all other
    rw [← hgot, ← live_congr (hput other)] at hall
    exact hall

/-- Where on its queue a copy goes does not matter here. -/
theorem insert (h : Accounted e put handed) {item : QueuedCommand}
    (hknown : e.completions.has item.id = true) (hpending : e'.pending = e.pending)
    (hcompletions : e'.completions = e.completions)
    (hqueue : ∀ other, (e'.queue other).Perm
      (if other = item.deviceId then item :: e.queue other else e.queue other)) :
    Accounted e' (item :: put) handed := by
  have hmoved (other : String) : (addressed other handed ++ e'.queue other).Perm
      (if other = item.deviceId then item :: (addressed other handed ++ e.queue other)
        else addressed other handed ++ e.queue other) := by
    refine ((hqueue other).append_left _).trans ?_
    split
    · exact List.perm_middle
    · exact List.Perm.refl _
  have hlive (items : List QueuedCommand) : e'.live items = e.live items :=
    live_congr fun x _ => isPending_congr hpending x.id
  refine ⟨fun other x hx => ?_, fun x hx => ?_, fun other => ?_, fun other => ?_⟩
  · have hmem := (hqueue other).subset hx
    split at hmem
    · rename_i hown
      rcases List.mem_cons.mp hmem with rfl | hmem
      · exact hown.symm
      · exact h.own other x hmem
    · exact h.own other x hmem
  · rw [hcompletions]
    rcases List.mem_cons.mp hx with rfl | hx
    · exact hknown
    · exact h.known x hx
  · refine (hmoved other).subperm.trans ?_
    rw [addressed_cons]
    split
    · exact (List.subperm_cons item).mpr (h.once other)
    · exact h.once other
  · rw [hlive, hlive]
    refine ((hmoved other).filter _).trans ?_
    rw [addressed_cons]
    split
    · have hcons (items : List QueuedCommand) : e.live (item :: items) =
          e.live [item] ++ e.live items := live_append [item] items
      rw [hcons (addressed other put)]
      change (e.live (item :: (addressed other handed ++ e.queue other))).Perm _
      rw [hcons]
      exact (h.all other).append_left _
    · exact h.all other

theorem append (h : Accounted e put handed) {item : QueuedCommand}
    (hknown : e.completions.has item.id = true) :
    Accounted (e.append item) (item :: put) handed := by
  refine h.insert hknown rfl rfl fun other => ?_
  rw [Engine.append, queue_put]
  split
  · rename_i hown
    rw [hown]
    exact List.perm_append_singleton item _
  · exact List.Perm.refl _

theorem prepend (h : Accounted e put handed) {item : QueuedCommand}
    (hknown : e.completions.has item.id = true) :
    Accounted (e.prepend item) (item :: put) handed := by
  refine h.insert hknown rfl rfl fun other => ?_
  rw [Engine.prepend, queue_put]
  split
  · rename_i hown
    rw [hown]
  · exact List.Perm.refl _

/-- What is done to commands without a look at the queues. -/
theorem apply (h : Accounted e put handed) (hs : e.Sound) {op : Op} (hn : op.submits? = none)
    (hpop : ∀ other, op ≠ .pop other) (hback : ∀ item, op ≠ .requeue item) :
    Accounted (e.apply op) put handed := by
  have hqueue := queue_congr (queues_apply e op hn hpop hback)
  have hlive (items : List QueuedCommand) : (e.apply op).live (e.live items) =
      (e.apply op).live items := by
    rw [live, live, live, List.filter_filter]
    refine List.filter_congr fun item _ => ?_
    cases hp : e.isPending item.id with
    | true => exact Bool.and_true _
    | false => rw [not_pending_apply hs hn hp, Bool.false_and]
  refine ⟨fun other item hitem => h.own other item (hqueue other ▸ hitem),
    fun item hitem => has_apply hs hn (h.known item hitem), fun other => ?_, fun other => ?_⟩
  · rw [hqueue]
    exact h.once other
  · rw [hqueue, ← hlive, ← hlive (addressed other put)]
    exact (h.all other).filter _

/-- What leaves a queue is handed out, or was decided. -/
theorem popLive (h : Accounted e put handed) (device : String) :
    Accounted (e.popLive device).1 put (handed ++ (e.popLive device).2.toList) := by
  obtain ⟨passed, hdead, hqueue, hother⟩ := popLive_split e device
  have hlive (items : List QueuedCommand) : (e.popLive device).1.live items = e.live items :=
    live_congr fun x _ => isPending_congr (pending_popLive e device) x.id
  have howner (item : QueuedCommand) (hitem : item ∈ (e.popLive device).2.toList) :
      item.deviceId = device := by
    refine h.own device item ?_
    rw [hqueue]
    exact List.mem_append_right _ (List.mem_append_left _ hitem)
  -- The queue and what was handed out, but for what was passed over.
  have hkept (other : String) : ∃ dead, (∀ item ∈ dead, e.isPending item.id = false) ∧
      addressed other handed ++ e.queue other = addressed other handed ++ (dead ++
        (addressed other (e.popLive device).2.toList ++ (e.popLive device).1.queue other)) := by
    by_cases ho : other = device
    · subst ho
      have hall : addressed other (e.popLive other).2.toList = (e.popLive other).2.toList :=
        List.filter_eq_self.mpr fun item hitem => by simpa using howner item hitem
      exact ⟨passed, hdead, by rw [hall, ← hqueue]⟩
    · have hnone : addressed other (e.popLive device).2.toList = [] :=
        List.filter_eq_nil_iff.mpr fun item hitem => by simp [howner item hitem, Ne.symm ho]
      exact ⟨[], nofun, by rw [hnone, hother other ho]; rfl⟩
  refine ⟨fun other item hitem => ?_, fun item hitem => ?_, fun other => ?_, fun other => ?_⟩
  · exact h.own other item ((queue_popLive_sublist e device other).subset hitem)
  · rw [completions_popLive]
    exact h.known item hitem
  · obtain ⟨dead, -, hsplit⟩ := hkept other
    refine List.Subperm.trans (List.Sublist.subperm ?_) (h.once other)
    rw [hsplit, addressed_append, List.append_assoc]
    exact (List.Sublist.refl _).append (List.sublist_append_right dead _)
  · obtain ⟨dead, hgone, hsplit⟩ := hkept other
    have hall := h.all other
    rw [hsplit, live_append, live_append, live_dead hgone, List.nil_append, ← live_append] at hall
    rw [hlive, hlive, addressed_append, List.append_assoc]
    exact hall

end Accounted

end Changes

end FleetControl.Engine
