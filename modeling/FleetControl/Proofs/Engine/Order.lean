import FleetControl.Proofs.Engine.Placement
import Mathlib.Data.List.Basic

/-! # The order of submission

Completions are kept in the order in which their commands were submitted, so a state tells of two
commands which came first. Submissions join a queue at its end and pops leave it at its head; what
is put back goes to the head, and that is its place only if nothing submitted before it is queued
already. With two commands of a device in hand at once, that may fail. -/
namespace FleetControl.Engine

/-- Every command submitted so far, in order. -/
def submitted (e : Engine) : List Uuid := e.completions.keys

/-- One command was submitted before another. -/
def Earlier (e : Engine) (a b : Uuid) : Prop :=
  b ∈ e.submitted ∧ e.submitted.idxOf a < e.submitted.idxOf b

theorem mem_submitted_iff (e : Engine) (id : Uuid) :
    id ∈ e.submitted ↔ ∃ c, e.completions.get? id = some c :=
  (Table.mem_keys_iff e.completions id).trans (Table.has_iff _ _)

theorem Earlier.asymm {e : Engine} {a b : Uuid} (h : e.Earlier a b) : ¬ e.Earlier b a :=
  fun h' => Nat.lt_asymm h.2 h'.2

theorem Earlier.ne {e : Engine} {a b : Uuid} (h : e.Earlier a b) : a ≠ b := by
  rintro rfl
  exact Nat.lt_irrefl _ h.2

theorem Earlier.mem {e : Engine} {a b : Uuid} (h : e.Earlier a b) : a ∈ e.submitted :=
  List.idxOf_lt_length_iff.mp (Nat.lt_trans h.2 (List.idxOf_lt_length_of_mem h.1))

theorem submitted_resolve {e : Engine} (hs : e.Sound) (id : Uuid) (o : CommandOutcome) :
    (e.resolve id o).1.submitted = e.submitted := by
  cases hp : e.pending.get? id with
  | none => rw [resolve_of_get?_eq_none hp]
  | some p =>
    have hk : e.completions.has id = true :=
      (Table.has_iff _ _).mpr ⟨_, hs.unresolved id p hp⟩
    unfold resolve
    split
    · split
      · simp only [submitted]
        rw [Table.keys_put, if_pos hk]
      · rfl
    · rfl

theorem submitted_failAll {e : Engine} (hs : e.Sound) (lost : List (Uuid × Pending)) :
    (e.failAll lost).submitted = e.submitted := by
  induction lost generalizing e with
  | nil => rfl
  | cons x rest ih =>
    exact (ih (sound_resolve hs x.1 x.2.lost)).trans (submitted_resolve hs x.1 x.2.lost)

/-- Submissions add to the end; nothing else changes the order. -/
theorem submitted_apply {e : Engine} (hs : e.Sound) {op : Op} (hf : op.Fresh e) :
    (e.apply op).submitted = e.submitted ++ op.submits?.toList := by
  cases op with
  | enqueue id device command blob timeout now =>
    have hk : e.completions.has id = false := (Table.has_eq_false _ _).mpr hf
    simp [apply, enqueue, submitted, Table.keys_put, hk, Op.submits?]
  | pop device => simp [apply, submitted, Op.submits?]
  | mark id conn => simp [apply, submitted, Op.submits?]
  | unmark id => simp [apply, submitted, Op.submits?]
  | requeue item => simp [apply, submitted, Op.submits?]
  | resolve id o => simpa [apply, Op.submits?] using submitted_resolve hs id o
  | respond id ok result body =>
    simpa [apply, resolveResponse, Op.submits?] using submitted_resolve hs id _
  | expire id =>
    have h : (e.expire id).1.submitted = e.submitted := by
      cases hp : e.pending.get? id with
      | none => rw [expire_of_get?_eq_none hp]
      | some p => rw [expire_eq hp]; exact submitted_resolve hs id _
    simpa [apply, Op.submits?] using h
  | fail conn =>
    simpa [apply, failConnection_eq, Op.submits?] using submitted_failAll hs (e.owned conn)

theorem Earlier.apply {e : Engine} (hs : e.Sound) {op : Op} (hf : op.Fresh e) {a b : Uuid}
    (h : e.Earlier a b) : (e.apply op).Earlier a b := by
  unfold Earlier
  rw [submitted_apply hs hf, List.idxOf_append_of_mem h.mem, List.idxOf_append_of_mem h.1]
  exact ⟨List.mem_append_left _ h.1, h.2⟩

/-- What was submitted comes before what is submitted next. -/
theorem earlier_enqueue {e : Engine} {id : Uuid} (hf : e.completions.get? id = none)
    (device : String) (command : Command) (blob : Option ByteArray) (timeout now : Nat) {a : Uuid}
    (ha : a ∈ e.submitted) : (e.enqueue id device command blob timeout now).Earlier a id := by
  have hn : id ∉ e.submitted := by
    intro h
    obtain ⟨c, hc⟩ := (e.mem_submitted_iff id).mp h
    rw [hf] at hc
    cases hc
  have hsub : (e.enqueue id device command blob timeout now).submitted = e.submitted ++ [id] := by
    have hk : e.completions.has id = false := (Table.has_eq_false _ _).mpr hf
    simp [enqueue, submitted, Table.keys_put, hk]
  unfold Earlier
  rw [hsub, List.idxOf_append_of_mem ha, List.idxOf_append_of_notMem hn]
  refine ⟨by simp, ?_⟩
  have := List.idxOf_lt_length_of_mem ha
  omega

theorem queue_enqueue (e : Engine) (id : Uuid) (device other : String) (command : Command)
    (blob : Option ByteArray) (timeout now : Nat) :
    (e.enqueue id device command blob timeout now).queue other =
      if other = device then e.queue device ++ [⟨id, device, command, blob⟩] else e.queue other :=
  queue_put _ device other _

theorem queue_requeueFront (e : Engine) (item : QueuedCommand) (other : String) :
    (e.requeueFront item).queue other =
      if other = item.deviceId then item :: e.queue item.deviceId else e.queue other :=
  queue_put (e.unmark item.id) item.deviceId other _

theorem queue_popLive_sublist (e : Engine) (device other : String) :
    ((e.popLive device).1.queue other).Sublist (e.queue other) := by
  obtain ⟨passed, -, ⟨-, -, hqueue⟩ | ⟨item, rest, hq, -, -, hqueue⟩⟩ := popLive_cases e device
  · rw [hqueue]
    split
    · exact List.nil_sublist _
    · exact List.Sublist.refl _
  · rw [hqueue]
    split
    · rename_i ho
      rw [ho, hq]
      exact (List.sublist_cons_self item rest).trans (List.sublist_append_right passed _)
    · exact List.Sublist.refl _

/-- The operations that leave the queues alone. -/
theorem queues_apply (e : Engine) (op : Op) (hn : op.submits? = none)
    (hp : ∀ device, op ≠ .pop device) (hr : ∀ item, op ≠ .requeue item) :
    (e.apply op).queues = e.queues := by
  cases op with
  | enqueue id device command blob timeout now => cases hn
  | pop device => exact absurd rfl (hp device)
  | requeue item => exact absurd rfl (hr item)
  | mark id conn => exact queues_markSent _ _ _
  | unmark id => rfl
  | resolve id o => exact queues_resolve _ _ _
  | respond id ok result body => exact queues_resolve _ _ _
  | expire id =>
    simp only [apply, expire]
    split
    · rfl
    · exact queues_resolve _ _ _
  | fail conn => exact queues_failAll _ _

/-- A queue lists its commands as they were submitted. -/
def InOrder (e : Engine) (device : String) : Prop :=
  (e.queue device).Pairwise fun x y => e.Earlier x.id y.id

/-- Whatever is queued was submitted. -/
def Known (e : Engine) : Prop := ∀ device, ∀ x ∈ e.queue device, x.id ∈ e.submitted

theorem InOrder.of_queue {e e' : Engine} {device : String} (h : e.InOrder device)
    (hq : (e'.queue device).Sublist (e.queue device))
    (he : ∀ a b, e.Earlier a b → e'.Earlier a b) : e'.InOrder device :=
  (h.sublist hq).imp fun hab => he _ _ hab

/-- An operation keeps the order if nothing that it puts back is late. -/
theorem inOrder_apply {e : Engine} (hs : e.Sound) {op : Op} (hf : op.Fresh e) (hk : e.Known)
    (h : ∀ device, e.InOrder device)
    (hback : ∀ item, op = .requeue item → ∀ x ∈ e.queue item.deviceId, e.Earlier item.id x.id)
    (device : String) : (e.apply op).InOrder device := by
  have hlater : ∀ a b, e.Earlier a b → (e.apply op).Earlier a b := fun a b hab => hab.apply hs hf
  cases op with
  | enqueue id other command blob timeout now =>
    unfold InOrder
    simp only [apply, queue_enqueue]
    split
    · refine List.pairwise_append.mpr ⟨(h other).imp fun hab => hlater _ _ hab, by simp, ?_⟩
      intro x hx y hy
      rw [List.mem_singleton.mp hy]
      exact earlier_enqueue hf other command blob timeout now (hk other x hx)
    · exact (h device).imp fun hab => hlater _ _ hab
  | pop other => exact (h device).of_queue (queue_popLive_sublist e other device) hlater
  | requeue item =>
    unfold InOrder
    simp only [apply, queue_requeueFront]
    split
    · refine List.pairwise_cons.mpr ⟨fun x hx => hlater _ _ (hback item rfl x hx), ?_⟩
      exact (h item.deviceId).imp fun hab => hlater _ _ hab
    · exact (h device).imp fun hab => hlater _ _ hab
  | mark id conn => exact (h device).of_queue (by simp [queue, apply]) hlater
  | unmark id => exact (h device).of_queue (by simp [queue, apply]) hlater
  | resolve id o => exact (h device).of_queue (by simp [queue, apply]) hlater
  | respond id ok result body =>
    exact (h device).of_queue (by simp [queue, apply, resolveResponse]) hlater
  | expire id =>
    have hq := queues_apply e (.expire id) rfl (by simp) (by simp)
    exact (h device).of_queue (by simp [queue, hq]) hlater
  | fail conn =>
    have hq := queues_apply e (.fail conn) rfl (by simp) (by simp)
    exact (h device).of_queue (by simp [queue, hq]) hlater

theorem inOrder_empty (device : String) : InOrder {} device := by
  simp [InOrder, queue, Table.getD, Table.get?]

instance (e : Engine) (a b : Uuid) : Decidable (e.Earlier a b) :=
  inferInstanceAs (Decidable (_ ∧ _))

instance (e : Engine) (device : String) : Decidable (e.InOrder device) :=
  inferInstanceAs (Decidable (List.Pairwise _ _))

namespace Exchange

/-- What a move does to the engine. -/
def Move.op : Move → Op
  | .enqueue id device command blob timeout now => .enqueue id device command blob timeout now
  | .take _ device => .pop device
  | .mark _ item conn => .mark item.id conn
  | .unmark id => .unmark id
  | .putBack _ item => .requeue item
  | .resolve id o => .resolve id o
  | .respond id ok result body => .respond id ok result body
  | .expire id => .expire id
  | .fail conn => .fail conn

@[simp] theorem engine_next (s : Exchange) (m : Move) :
    (next s m).engine = s.engine.apply m.op := by
  cases m with
  | take k device =>
    simp only [next, Move.op, apply]
    split <;> simp_all
  | _ => rfl

theorem Permitted.fresh {s : Exchange} {m : Move} (h : Permitted s m) : m.op.Fresh s.engine := by
  cases m <;> first | exact h | trivial

theorem run_append (s : Exchange) (ms ms' : List Move) :
    run s (ms ++ ms') = run (run s ms) ms' := by
  induction ms generalizing s with
  | nil => rfl
  | cons m ms ih => exact ih (next s m)

theorem orderly_append {s : Exchange} {ms ms' : List Move} :
    Orderly s (ms ++ ms') ↔ Orderly s ms ∧ Orderly (run s ms) ms' := by
  induction ms generalizing s with
  | nil => exact ⟨fun h => ⟨trivial, h⟩, fun h => h.2⟩
  | cons m ms ih => exact (and_congr_right fun _ => ih).trans and_assoc.symm

theorem Placed.queued_known {s : Exchange} (h : Placed s) : s.engine.Known := fun device x hx =>
  (s.engine.mem_submitted_iff x.id).mpr (h.known x (Or.inl ⟨device, hx⟩))

/-- What a move puts back was submitted before everything that is queued for its device. -/
def Timely (s : Exchange) : Move → Prop
  | .putBack _ item => ∀ x ∈ s.engine.queue item.deviceId, s.engine.Earlier item.id x.id
  | _ => True

theorem inOrder_next {s : Exchange} (hp : Placed s) {m : Move} (hm : Permitted s m)
    (ht : Timely s m) (h : ∀ device, s.engine.InOrder device) (device : String) :
    (next s m).engine.InOrder device := by
  rw [engine_next]
  refine inOrder_apply hp.sound hm.fresh hp.queued_known h ?_ device
  intro item he
  cases m <;> cases he
  exact ht

theorem timely_of_inOrder {s : Exchange} {m : Move}
    (h : ∀ device, (next s m).engine.InOrder device) : Timely s m := by
  cases m with
  | putBack k item =>
    have hq := h item.deviceId
    unfold InOrder at hq
    simp only [engine_next, Move.op, apply, queue_requeueFront, if_true,
      List.pairwise_cons] at hq
    intro x hx
    have hsub : (s.engine.requeueFront item).submitted = s.engine.submitted := rfl
    simpa only [Earlier, hsub] using hq.1 x hx
  | _ => trivial

theorem inOrder_run {s : Exchange} (hp : Placed s) (h : ∀ device, s.engine.InOrder device)
    {ms : List Move} (hm : Orderly s ms)
    (ht : ∀ before m after, ms = before ++ m :: after → Timely (run s before) m)
    (device : String) : (run s ms).engine.InOrder device := by
  induction ms generalizing s with
  | nil => exact h device
  | cons m ms ih =>
    refine ih (placed_next hp hm.1) (inOrder_next hp hm.1 (ht [] m ms rfl) h) hm.2 ?_
    intro before m' after he
    exact ht (m :: before) m' after (by rw [he]; rfl)

/-- The queues keep the order of submission for exactly as long as nothing is put back late. One
consumer at a time never is late; two with an item each may be. -/
theorem queues_in_order_iff (ms : List Move) (hm : Orderly {} ms) :
    (∀ before after, ms = before ++ after →
      ∀ device, (run {} before).engine.InOrder device) ↔
    ∀ before m after, ms = before ++ m :: after → Timely (run {} before) m := by
  constructor
  · rintro h before m after rfl
    obtain ⟨hb, -⟩ := orderly_append.mp hm
    refine timely_of_inOrder ?_
    have hnext := h (before ++ [m]) after (by simp)
    rwa [run_append] at hnext
  · rintro h before after rfl
    obtain ⟨hb, -⟩ := orderly_append.mp hm
    refine inOrder_run placed_empty inOrder_empty hb ?_
    intro b m a he
    exact h b m (a ++ after) (by rw [he]; simp)

theorem queues_in_order_iff_handedOver : Orderly {} handedOver ∧
    ((∀ before after, handedOver = before ++ after →
      ∀ device, (run {} before).engine.InOrder device) ↔
    ∀ before m after, handedOver = before ++ m :: after → Timely (run {} before) m) :=
  ⟨orderly_handedOver, queues_in_order_iff handedOver orderly_handedOver⟩

/-- Two connections of a device take a command each; both fail to deliver, the first one first. -/
def crossed : List Move :=
  let first : QueuedCommand := ⟨⟨1⟩, "frame-1", .fileRead "/a", none⟩
  let second : QueuedCommand := ⟨⟨2⟩, "frame-1", .fileRead "/b", none⟩
  [.enqueue ⟨1⟩ "frame-1" (.fileRead "/a") none 1000 0,
    .enqueue ⟨2⟩ "frame-1" (.fileRead "/b") none 1000 0,
    .take 0 "frame-1", .mark 0 first ⟨7⟩, .take 1 "frame-1", .mark 1 second ⟨8⟩,
    .putBack 0 first, .putBack 1 second]

/-- Overlapping connections can reverse the queue. -/
theorem crossed_reverses : Orderly {} crossed ∧
    ((run {} crossed).engine.queue "frame-1").map (·.id) = [⟨2⟩, ⟨1⟩] ∧
    ¬ (run {} crossed).engine.InOrder "frame-1" := by
  refine ⟨⟨rfl, rfl, trivial, ?_, trivial, ?_, ?_, ?_, trivial⟩, rfl, by decide⟩
  · exact List.mem_singleton.mpr rfl
  · exact List.mem_cons_of_mem _ (List.mem_singleton.mpr rfl)
  · exact List.mem_cons_self
  · exact List.mem_singleton.mpr rfl

end Exchange

end FleetControl.Engine
