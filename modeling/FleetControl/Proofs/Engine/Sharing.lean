import FleetControl.Proofs.Engine.Serving
import Mathlib.Data.List.Nodup

/-! # Devices that share an engine

The commands of all devices are pending in one table, and the loss of a connection goes through all
of it. Still, what an operation does to the queue of a device and to its commands depends on these
alone, and an operation that is about another device does nothing to them. -/
namespace FleetControl.Engine

/-- Two engines have the same queue for a device, and the same to say about certain commands. -/
structure Agree (device : String) (ids : List Uuid) (e e' : Engine) : Prop where
  queue : e'.queue device = e.queue device
  pending : ∀ id ∈ ids, e'.pending.get? id = e.pending.get? id
  completions : ∀ id ∈ ids, e'.completions.get? id = e.completions.get? id

/-- A command was submitted, and for this device. -/
def Belongs (device : String) (ids : List Uuid) (e : Engine) (id : Uuid) (other : String) : Prop :=
  (∃ k, e.completions.get? id = some k) ∧ (id ∈ ids ↔ other = device)

/-- An engine in which certain commands are those of a device, and in which each connection serves
one device. -/
structure Allotted (device : String) (serves : Uuid → String) (ids : List Uuid) (e : Engine) :
    Prop where
  nodup : ids.Nodup
  known : ∀ id ∈ ids, ∃ k, e.completions.get? id = some k
  pending : ∀ id p, e.pending.get? id = some p → (id ∈ ids ↔ p.deviceId = device)
  sent : ∀ id p conn, e.pending.get? id = some p → p.owner = some conn → serves conn = p.deviceId
  queued : ∀ other, ∀ item ∈ e.queue other,
    item.deviceId = other ∧ Belongs device ids e item.id other

section Agree
variable {device : String} {ids : List Uuid} {e e' e'' : Engine}

theorem Agree.refl (device : String) (ids : List Uuid) (e : Engine) : Agree device ids e e :=
  ⟨rfl, fun _ _ => rfl, fun _ _ => rfl⟩

theorem Agree.symm (h : Agree device ids e e') : Agree device ids e' e :=
  ⟨h.queue.symm, fun id hid => (h.pending id hid).symm, fun id hid => (h.completions id hid).symm⟩

theorem Agree.trans (h : Agree device ids e e') (h' : Agree device ids e' e'') :
    Agree device ids e e'' where
  queue := h'.queue.trans h.queue
  pending id hid := (h'.pending id hid).trans (h.pending id hid)
  completions id hid := (h'.completions id hid).trans (h.completions id hid)

theorem Agree.outcome (h : Agree device ids e e') {id : Uuid} (hid : id ∈ ids) :
    e'.outcome? id = e.outcome? id := by
  rw [outcome?, outcome?, h.completions id hid]

theorem fresh_of_submits {op : Op} (h : op.submits? = none) (e : Engine) : op.Fresh e := by
  cases op <;> simp_all [Op.Fresh, Op.submits?]

/-- What becomes of a command is a matter of what is known of it and of what is done. -/
theorem command_apply (hs : e.Sound) (hs' : e'.Sound) {op : Op} (hn : op.submits? = none)
    {id : Uuid} (hp : e'.pending.get? id = e.pending.get? id)
    (hc : e'.completions.get? id = e.completions.get? id) :
    (e'.apply op).pending.get? id = (e.apply op).pending.get? id ∧
      (e'.apply op).completions.get? id = (e.apply op).completions.get? id := by
  have hne : op.submits? ≠ some id := by simp [hn]
  cases hpending : e.pending.get? id with
  | none =>
    obtain ⟨hgone, hkept⟩ := apply_not_pending hs hpending hne
    obtain ⟨hgone', hkept'⟩ := apply_not_pending hs' (hp.trans hpending) hne
    exact ⟨hgone'.trans hgone.symm, hkept'.trans (hc.trans hkept.symm)⟩
  | some p =>
    have h := apply_pending hs (fresh_of_submits hn e) hpending
    have h' := apply_pending hs' (fresh_of_submits hn e') (hp.trans hpending)
    cases hd : op.decides? id p <;> rw [hd] at h h' <;>
      exact ⟨h'.1.trans h.1.symm, h'.2.trans h.2.symm⟩

theorem dropWhile_congr {α : Type} {p q : α → Bool} {l : List α} (h : ∀ a ∈ l, p a = q a) :
    l.dropWhile p = l.dropWhile q := by
  induction l with
  | nil => rfl
  | cons a l ih =>
    obtain ⟨ha, hl⟩ := List.forall_mem_cons.mp h
    rw [List.dropWhile_cons, List.dropWhile_cons, ha, ih hl]

/-- What is taken off a queue and what is left on it. -/
theorem popLive_eq (e : Engine) (device : String) :
    ((e.popLive device).2, (e.popLive device).1.queue device) =
      match (e.queue device).dropWhile fun item => ¬ e.isPending item.id with
      | [] => (none, [])
      | item :: rest => (some item, rest) := by
  unfold popLive
  cases hlive : (e.queue device).dropWhile fun item => ¬ e.isPending item.id with
  | nil =>
    dsimp only
    split
    · rw [queue_put, if_pos rfl]
    · rename_i hnone
      rw [queue, Table.getD, (Table.has_eq_false _ _).mp (by simpa using hnone)]
      rfl
  | cons item rest =>
    dsimp only
    rw [queue_put, if_pos rfl]

/-- The next command of a device is found by its queue and by what is pending of that. -/
theorem popLive_agree (hitems : ∀ item ∈ e.queue device, item.id ∈ ids)
    (h : Agree device ids e e') : (e'.popLive device).2 = (e.popLive device).2 ∧
      (e'.popLive device).1.queue device = (e.popLive device).1.queue device := by
  have hlive : ((e.queue device).dropWhile fun item => ¬ e'.isPending item.id) =
      (e.queue device).dropWhile fun item => ¬ e.isPending item.id := by
    refine dropWhile_congr fun item hitem => ?_
    rw [isPending, isPending, Table.has, Table.has, h.pending item.id (hitems item hitem)]
  have heq := popLive_eq e' device
  rw [h.queue, hlive, ← popLive_eq e device] at heq
  exact Prod.mk.inj heq

theorem queue_popLive_of_ne (e : Engine) {device other : String} (h : device ≠ other) :
    (e.popLive other).1.queue device = e.queue device := by
  obtain ⟨passed, -, ⟨-, -, hq⟩ | ⟨item, rest, -, -, -, hq⟩⟩ := popLive_cases e other <;>
    exact (hq device).trans (if_neg h)

/-- The same operation, done to both. -/
theorem agree_apply (hs : e.Sound) (hs' : e'.Sound) {op : Op} (hn : op.submits? = none)
    (hitems : ∀ item ∈ e.queue device, item.id ∈ ids) (h : Agree device ids e e') :
    Agree device ids (e.apply op) (e'.apply op) := by
  have hcommand (id : Uuid) (hid : id ∈ ids) :=
    command_apply hs hs' hn (h.pending id hid) (h.completions id hid)
  refine ⟨?_, fun id hid => (hcommand id hid).1, fun id hid => (hcommand id hid).2⟩
  cases op with
  | enqueue id other command blob timeout now => cases hn
  | pop other =>
    by_cases hd : device = other
    · subst hd
      exact (popLive_agree hitems h).2
    · exact (queue_popLive_of_ne e' hd).trans (h.queue.trans (queue_popLive_of_ne e hd).symm)
  | requeue item =>
    rw [apply, apply, queue_requeueFront, queue_requeueFront]
    split
    · rename_i hd
      rw [← hd, h.queue]
    · exact h.queue
  | _ =>
    have hqueue (e : Engine) := queue_congr (queues_apply e _ hn (by simp) (by simp)) device
    exact (hqueue e').trans (h.queue.trans (hqueue e).symm)

/-- An operation that leaves certain commands and a queue alone. -/
theorem agree_spared (hs : e.Sound) {op : Op} (hf : op.Fresh e)
    (hsubmits : ∀ id ∈ ids, op.submits? ≠ some id)
    (hspares : ∀ id ∈ ids, ∀ p, e.pending.get? id = some p →
      op.decides? id p = none ∧ op.marks id p = p)
    (hqueue : (e.apply op).queue device = e.queue device) : Agree device ids e (e.apply op) := by
  have hcommand (id : Uuid) (hid : id ∈ ids) :
      (e.apply op).pending.get? id = e.pending.get? id ∧
        (e.apply op).completions.get? id = e.completions.get? id := by
    cases hp : e.pending.get? id with
    | none => exact apply_not_pending hs hp (hsubmits id hid)
    | some p =>
      obtain ⟨hdecides, hmarks⟩ := hspares id hid p hp
      have h := apply_pending hs hf hp
      rw [hdecides, hmarks] at h
      exact ⟨h.1, h.2.trans (hs.unresolved id p hp).symm⟩
  exact ⟨hqueue, fun id hid => (hcommand id hid).1, fun id hid => (hcommand id hid).2⟩

/-- The same command, submitted to both. -/
theorem agree_enqueue (h : Agree device ids e e') (id : Uuid) (command : Command)
    (blob : Option ByteArray) (timeout now : Nat) : Agree device (ids ++ [id])
      (e.enqueue id device command blob timeout now)
      (e'.enqueue id device command blob timeout now) := by
  have hids {j : Uuid} (hj : j ∈ ids ++ [id]) (hne : j ≠ id) : j ∈ ids := by
    rcases List.mem_append.mp hj with hj | hj
    · exact hj
    · exact absurd (List.mem_singleton.mp hj) hne
  refine ⟨?_, fun j hj => ?_, fun j hj => ?_⟩
  · rw [queue_enqueue, queue_enqueue, if_pos rfl, if_pos rfl, h.queue]
  · rw [pending_enqueue, pending_enqueue]
    split
    · rfl
    · exact h.pending j (hids hj ‹_›)
  · rw [completions_enqueue, completions_enqueue]
    split
    · rfl
    · exact h.completions j (hids hj ‹_›)

end Agree

section Allotted
variable {device : String} {serves : Uuid → String} {ids : List Uuid} {e : Engine}

/-- Those of the device, and one more if that is of it. -/
theorem mem_grow {α : Type} {l : List α} {a b : α} {p : Prop} [Decidable p] :
    b ∈ (if p then l ++ [a] else l) ↔ b ∈ l ∨ (p ∧ b = a) := by
  by_cases hp : p <;> simp [hp]

theorem nodup_grow {α : Type} {l : List α} {a : α} (h : l.Nodup) (ha : a ∉ l) (p : Prop)
    [Decidable p] : (if p then l ++ [a] else l).Nodup := by
  split
  · exact List.concat_eq_append ▸ h.concat ha
  · exact h

theorem ne_of_known {id j : Uuid} {k : Completion} (hf : e.completions.get? id = none)
    (hk : e.completions.get? j = some k) : j ≠ id := by
  rintro rfl
  rw [hf] at hk
  cases hk

theorem Allotted.unknown (h : Allotted device serves ids e) {id : Uuid}
    (hf : e.completions.get? id = none) : id ∉ ids := by
  intro hid
  obtain ⟨k, hk⟩ := h.known id hid
  exact ne_of_known hf hk rfl

theorem Belongs.apply (hs : e.Sound) {op : Op} (hf : op.Fresh e) {id : Uuid} {other : String}
    (h : Belongs device ids e id other) : Belongs device ids (e.apply op) id other := by
  obtain ⟨⟨k, hk⟩, hid⟩ := h
  exact ⟨known_apply hs hf hk, hid⟩

/-- Behind a command of any device, the others belong to whom they did. -/
theorem Belongs.enqueue {id : Uuid} (hf : e.completions.get? id = none) {j : Uuid}
    {other : String} (h : Belongs device ids e j other) (target : String) (command : Command)
    (blob : Option ByteArray) (timeout now : Nat) :
    Belongs device (if target = device then ids ++ [id] else ids)
      (e.enqueue id target command blob timeout now) j other := by
  obtain ⟨⟨k, hk⟩, hj⟩ := h
  have hne := ne_of_known hf hk
  refine ⟨⟨k, by rw [completions_enqueue, if_neg hne]; exact hk⟩, ?_⟩
  rw [mem_grow, or_iff_left fun hnew => hne hnew.2]
  exact hj

/-- A command belongs to the device that it is submitted for. -/
theorem belongs_enqueue (h : Allotted device serves ids e) {id : Uuid}
    (hf : e.completions.get? id = none) (target : String) (command : Command)
    (blob : Option ByteArray) (timeout now : Nat) :
    Belongs device (if target = device then ids ++ [id] else ids)
      (e.enqueue id target command blob timeout now) id target := by
  refine ⟨⟨.unresolved, by rw [completions_enqueue, if_pos rfl]⟩, ?_⟩
  rw [mem_grow, or_iff_right (h.unknown hf)]
  exact and_iff_left rfl

/-- Nothing is submitted; a command goes out on a connection of its device only, and what is put
back belongs where it goes. -/
theorem allotted_apply (hs : e.Sound) (h : Allotted device serves ids e) {op : Op}
    (hn : op.submits? = none)
    (hmark : ∀ id conn p, op = .mark id conn → e.pending.get? id = some p →
      serves conn = p.deviceId)
    (hback : ∀ item, op = .requeue item → Belongs device ids e item.id item.deviceId) :
    Allotted device serves ids (e.apply op) := by
  have hf := fresh_of_submits hn e
  refine ⟨h.nodup, fun id hid => ?_, fun id q hq => ?_, fun id q conn hq howner => ?_,
    fun other item hitem => ?_⟩
  · obtain ⟨k, hk⟩ := h.known id hid
    exact known_apply hs hf hk
  · obtain ⟨p, hp, -, rfl⟩ := pending_origin hs hn hq
    rw [op.deviceId_marks id p]
    exact h.pending id p hp
  · obtain ⟨p, hp, -, rfl⟩ := pending_origin hs hn hq
    rw [op.deviceId_marks id p]
    have hkept : op.marks id p = p → serves conn = p.deviceId := fun hm =>
      h.sent id p conn hp (hm ▸ howner)
    cases op with
    | mark i via =>
      by_cases hi : i = id
      · subst hi
        rw [Op.marks, if_pos rfl] at howner
        cases howner
        exact hmark i conn p rfl hp
      · exact hkept (if_neg hi)
    | unmark i =>
      by_cases hi : i = id
      · rw [Op.marks, if_pos hi] at howner
        cases howner
      · exact hkept (if_neg hi)
    | requeue item =>
      by_cases hi : item.id = id
      · rw [Op.marks, if_pos hi] at howner
        cases howner
      · exact hkept (if_neg hi)
    | _ => exact hkept rfl
  · have hold : item ∈ e.queue other →
        item.deviceId = other ∧ Belongs device ids (e.apply op) item.id other := fun hold =>
      ⟨(h.queued other item hold).1, (h.queued other item hold).2.apply hs hf⟩
    cases op with
    | enqueue id target command blob timeout now => cases hn
    | pop target => exact hold ((queue_popLive_sublist e target other).subset hitem)
    | requeue back =>
      rw [apply, queue_requeueFront] at hitem
      split at hitem
      · rename_i hd
        rcases List.mem_cons.mp hitem with rfl | hitem
        · subst hd
          exact ⟨rfl, (hback item rfl).apply hs hf⟩
        · exact hold (hd ▸ hitem)
      · exact hold hitem
    | _ =>
      rw [queue_congr (queues_apply e _ hn (by simp) (by simp)) other] at hitem
      exact hold hitem

theorem allotted_enqueue (h : Allotted device serves ids e) {id : Uuid}
    (hf : e.completions.get? id = none) (target : String) (command : Command)
    (blob : Option ByteArray) (timeout now : Nat) :
    Allotted device serves (if target = device then ids ++ [id] else ids)
      (e.enqueue id target command blob timeout now) := by
  have hnew := belongs_enqueue h hf target command blob timeout now
  refine ⟨nodup_grow h.nodup (h.unknown hf) _, fun j hj => ?_, fun j q hq => ?_,
    fun j q conn hq howner => ?_, fun other item hitem => ?_⟩
  · rw [completions_enqueue]
    by_cases hjid : j = id
    · exact ⟨_, if_pos hjid⟩
    · rw [if_neg hjid]
      exact h.known j ((mem_grow.mp hj).resolve_right fun hnew => hjid hnew.2)
  · rw [pending_enqueue] at hq
    split at hq
    · rename_i hjid
      cases hq
      exact hjid ▸ hnew.2
    · rename_i hjid
      rw [← h.pending j q hq, mem_grow]
      exact or_iff_left fun hnew => hjid hnew.2
  · rw [pending_enqueue] at hq
    split at hq
    · cases hq
      cases howner
    · exact h.sent j q conn hq howner
  · rw [queue_enqueue] at hitem
    split at hitem
    · rename_i hd
      subst hd
      rcases List.mem_append.mp hitem with hitem | hitem
      · obtain ⟨hdevice, hbelongs⟩ := h.queued other item hitem
        exact ⟨hdevice, hbelongs.enqueue hf other command blob timeout now⟩
      · rw [List.mem_singleton.mp hitem]
        exact ⟨rfl, hnew⟩
    · obtain ⟨hdevice, hbelongs⟩ := h.queued other item hitem
      exact ⟨hdevice, hbelongs.enqueue hf target command blob timeout now⟩

theorem allotted_empty (device : String) (serves : Uuid → String) :
    Allotted device serves [] {} where
  nodup := List.nodup_nil
  known := nofun
  pending := by simp [Table.get?]
  sent := by simp [Table.get?]
  queued := by simp [queue, Table.getD, Table.get?]

end Allotted

end FleetControl.Engine
