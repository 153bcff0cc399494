import FleetControl.Proofs.Engine.Order

/-! # Send loops, one after the other

A device is served by one send loop at a time. What a loop takes it marks, and then either delivers
it, or drops it as decided, or puts it back before anything else is taken. Around that anything may
happen to the engine: commands of any device are submitted, decided and handed out elsewhere. What
is delivered, what is in hand and what is queued then form one line in the order of submission. The
senders of a cluster are such loops (`Cluster.senders_serve`). -/
namespace FleetControl.Engine

/-- What the send loop of a device has taken. -/
inductive Hand where
  | empty
  | taken (item : QueuedCommand)
  | marked (item : QueuedCommand)

def Hand.item? : Hand → Option QueuedCommand
  | .empty => none
  | .taken item | .marked item => some item

@[simp] theorem Hand.item?_empty : Hand.empty.item? = none := rfl

@[simp] theorem Hand.item?_taken (item : QueuedCommand) : (Hand.taken item).item? = some item := rfl

@[simp] theorem Hand.item?_marked (item : QueuedCommand) : (Hand.marked item).item? = some item :=
  rfl

/-- An engine with the send loop of one device and what was delivered to it, first one first. -/
structure Service where
  engine : Engine := {}
  hand : Hand := .empty
  delivered : List Uuid := []

namespace Service

inductive Move where
  | other (op : Op)
  | take
  | mark (conn : Uuid)
  | deliver
  | putBack
  /-- The loop is stopped in the middle of a delivery. -/
  | abandon

def next (device : String) (s : Service) : Move → Service
  | .other op => { s with engine := s.engine.apply op }
  | .take =>
    match s.engine.popLive device with
    | (e, none) => { s with engine := e }
    | (e, some item) => { s with engine := e, hand := .taken item }
  | .mark conn =>
    match s.hand with
    | .taken item =>
      match s.engine.markSent item.id conn with
      | (e, true) => { s with engine := e, hand := .marked item }
      | (e, false) => { s with engine := e, hand := .empty }
    | _ => s
  | .deliver =>
    match s.hand with
    | .marked item => { s with hand := .empty, delivered := s.delivered ++ [item.id] }
    | _ => s
  | .putBack =>
    match s.hand.item? with
    | some item => { s with engine := s.engine.requeueFront item, hand := .empty }
    | none => s
  | .abandon => { s with hand := .empty }

/-- An operation that is not one of the send loop of the device. -/
def Elsewhere (device : String) (e : Engine) (op : Op) : Prop :=
  op.Fresh e ∧ op ≠ .pop device ∧ ∀ item, op = .requeue item → item.deviceId ≠ device

/-- The loop takes with an empty hand only, and a delivery is given up only once the command is
decided. -/
def Permitted (device : String) (s : Service) : Move → Prop
  | .other op => Elsewhere device s.engine op
  | .take => s.hand = .empty
  | .mark _ => ∃ item, s.hand = .taken item
  | .deliver => ∃ item, s.hand = .marked item
  | .putBack => ∃ item, s.hand.item? = some item
  | .abandon => ∃ item, s.hand = .marked item ∧ s.engine.pending.get? item.id = none

def run (device : String) (s : Service) : List Move → Service
  | [] => s
  | m :: ms => run device (next device s m) ms

def Orderly (device : String) (s : Service) : List Move → Prop
  | [] => True
  | m :: ms => Permitted device s m ∧ Orderly device (next device s m) ms

/-- The commands of the device from the first delivered to the last queued. -/
def line (s : Service) (device : String) : List Uuid :=
  s.delivered ++ s.hand.item?.toList.map (·.id) ++ (s.engine.queue device).map (·.id)

structure InLine (device : String) (s : Service) : Prop where
  sound : s.engine.Sound
  known : ∀ id ∈ s.line device, id ∈ s.engine.submitted
  sorted : (s.line device).Pairwise s.engine.Earlier
  addressed : ∀ item, s.hand.item? = some item → item.deviceId = device
  queued : ∀ item ∈ s.engine.queue device, item.deviceId = device
  complete : ∀ id p, s.engine.pending.get? id = some p → p.deviceId = device → id ∈ s.line device

theorem inLine_empty (device : String) : InLine device {} where
  sound := sound_empty
  known := by simp [line, queue, Table.getD, Table.get?]
  sorted := by simp [line, queue, Table.getD, Table.get?]
  addressed := by simp
  queued := by simp [queue, Table.getD, Table.get?]
  complete := by simp [Table.get?]

end Service

/-- Nothing is submitted from one state to the other. -/
structure Descends (e e' : Engine) : Prop where
  sound : e'.Sound
  submitted : e'.submitted = e.submitted
  pending : ∀ id q, e'.pending.get? id = some q →
    ∃ p, e.pending.get? id = some p ∧ q.deviceId = p.deviceId

theorem descends_refl {e : Engine} (hs : e.Sound) : Descends e e :=
  ⟨hs, rfl, fun _ q hq => ⟨q, hq, rfl⟩⟩

theorem descends_apply {e : Engine} (hs : e.Sound) (op : Op) (hn : op.submits? = none) :
    Descends e (e.apply op) := by
  have hf : op.Fresh e := by cases op <;> simp_all [Op.Fresh, Op.submits?]
  refine ⟨sound_apply hs op hf, ?_, ?_⟩
  · simp [submitted_apply hs hf, hn]
  · intro id q hq
    obtain ⟨p, hp, -, rfl⟩ := pending_origin hs hn hq
    exact ⟨p, hp, op.deviceId_marks id p⟩

namespace Service

/-- Elsewhere a queue can only grow, at its end. -/
theorem queue_elsewhere {device : String} {e : Engine} {op : Op} (h : Elsewhere device e op) :
    ((e.apply op).queue device = e.queue device ∧
      ∀ id, op.submits? = some id → ∀ p, (e.apply op).pending.get? id = some p →
        p.deviceId ≠ device) ∨
    ∃ item : QueuedCommand, op.submits? = some item.id ∧ item.deviceId = device ∧
      (e.apply op).queue device = e.queue device ++ [item] := by
  obtain ⟨-, hpop, hback⟩ := h
  cases op with
  | enqueue id other command blob timeout now =>
    by_cases hd : device = other
    · subst hd
      exact Or.inr ⟨⟨id, device, command, blob⟩, rfl, rfl, by simp [apply, queue_enqueue]⟩
    · refine Or.inl ⟨by simp [apply, queue_enqueue, hd], ?_⟩
      rintro _ ⟨⟩ p hp
      rw [(apply_submits ..).1] at hp
      exact Option.some.inj hp ▸ Ne.symm hd
  | pop other =>
    refine Or.inl ⟨?_, by simp [Op.submits?]⟩
    have hd : device ≠ other := fun he => hpop (he ▸ rfl)
    obtain ⟨passed, -, ⟨-, -, hq⟩ | ⟨item, rest, -, -, -, hq⟩⟩ := popLive_cases e other
    · exact (hq device).trans (if_neg hd)
    · exact (hq device).trans (if_neg hd)
  | requeue item =>
    have hd : device ≠ item.deviceId := Ne.symm (hback item rfl)
    exact Or.inl ⟨by simp [apply, queue_requeueFront, hd], by simp [Op.submits?]⟩
  | _ =>
    refine Or.inl ⟨?_, by simp [Op.submits?]⟩
    exact queue_congr (queues_apply e _ rfl (by simp) (by simp)) device

section Steps
variable {device : String} {s s' : Service}

/-- The line may lose what is decided. -/
theorem InLine.descend (h : InLine device s) (he : Descends s.engine s'.engine)
    (hsub : (s'.line device).Sublist (s.line device))
    (haddressed : ∀ item, s'.hand.item? = some item → item.deviceId = device)
    (hqueued : ∀ item ∈ s'.engine.queue device, item.deviceId = device)
    (hlost : ∀ id p, s'.engine.pending.get? id = some p → id ∈ s.line device →
      id ∈ s'.line device) : InLine device s' := by
  refine ⟨he.sound, ?_, ?_, haddressed, hqueued, ?_⟩
  · intro id hid
    rw [he.submitted]
    exact h.known id (hsub.subset hid)
  · refine (h.sorted.sublist hsub).imp fun hab => ?_
    simpa only [Earlier, he.submitted] using hab
  · intro id q hq hd
    obtain ⟨p, hp, hsame⟩ := he.pending id q hq
    exact hlost id q hq (h.complete id p hp (hsame ▸ hd))

theorem InLine.submit (h : InLine device s) {op : Op} (hf : op.Fresh s.engine)
    {item : QueuedCommand} (hsubmits : op.submits? = some item.id) (hd : item.deviceId = device)
    (hq : (s.engine.apply op).queue device = s.engine.queue device ++ [item]) :
    InLine device { s with engine := s.engine.apply op } := by
  have hsub := submitted_apply h.sound hf
  rw [hsubmits] at hsub
  have hline : line { s with engine := s.engine.apply op } device = s.line device ++ [item.id] := by
    simp [line, hq]
  refine ⟨sound_apply h.sound op hf, ?_, ?_, h.addressed, ?_, ?_⟩
  · intro id hid
    rw [hline] at hid
    change id ∈ (s.engine.apply op).submitted
    rw [hsub]
    rcases List.mem_append.mp hid with hid | hid
    · exact List.mem_append_left _ (h.known id hid)
    · exact List.mem_append_right _ hid
  · rw [hline]
    refine List.pairwise_append.mpr ⟨h.sorted.imp fun hab => hab.apply h.sound hf, by simp, ?_⟩
    intro a ha b hb
    rw [List.mem_singleton.mp hb]
    cases op <;> cases hsubmits
    exact earlier_enqueue hf _ _ _ _ _ (h.known a ha)
  · intro x hx
    change x ∈ (s.engine.apply op).queue device at hx
    rw [hq] at hx
    rcases List.mem_append.mp hx with hx | hx
    · exact h.queued x hx
    · rw [List.mem_singleton.mp hx, hd]
  · intro id p hp hdev
    rw [hline]
    by_cases hi : id = item.id
    · simp [hi]
    · have hold : ∃ q, s.engine.pending.get? id = some q ∧ p.deviceId = q.deviceId := by
        cases op <;> cases hsubmits
        simp only [apply, pending_enqueue, if_neg hi] at hp
        exact ⟨p, hp, rfl⟩
      obtain ⟨q, hq', hsame⟩ := hold
      exact List.mem_append_left _ (h.complete id q hq' (hsame ▸ hdev))

theorem InLine.other (h : InLine device s) {op : Op} (ho : Elsewhere device s.engine op) :
    InLine device (next device s (.other op)) := by
  rcases queue_elsewhere ho with ⟨hq, hnew⟩ | ⟨item, hsubmits, hd, hq⟩
  · have hline : line (next device s (.other op)) device = s.line device := by
      simp [line, next, hq]
    have hqueued : ∀ item ∈ (s.engine.apply op).queue device, item.deviceId = device := by
      rw [hq]
      exact h.queued
    cases hs : op.submits? with
    | none =>
      refine h.descend (descends_apply h.sound op hs) (by rw [hline]) h.addressed hqueued ?_
      intro id _ _ hid
      rwa [hline]
    | some id =>
      have hsub := submitted_apply h.sound ho.1
      refine ⟨sound_apply h.sound op ho.1, ?_, ?_, h.addressed, hqueued, ?_⟩
      · intro a ha
        rw [hline] at ha
        change a ∈ (s.engine.apply op).submitted
        rw [hsub]
        exact List.mem_append_left _ (h.known a ha)
      · rw [hline]
        exact h.sorted.imp fun hab => hab.apply h.sound ho.1
      · intro a p hp hdev
        rw [hline]
        by_cases ha : a = id
        · exact absurd hdev (hnew id hs p (ha ▸ hp))
        · refine h.complete a p ?_ hdev
          cases op <;> cases hs
          simpa [next, apply, pending_enqueue, ha] using hp
  · exact h.submit ho.1 hsubmits hd hq

theorem InLine.take (h : InLine device s) (hempty : s.hand = .empty) :
    InLine device (next device s .take) := by
  have hdesc : Descends s.engine (s.engine.popLive device).1 :=
    descends_apply h.sound (.pop device) rfl
  obtain ⟨passed, hpassed, hcase⟩ := popLive_cases s.engine device
  -- what is passed over is decided, so nothing that is pending leaves the line
  have hskip : ∀ id p, (s.engine.popLive device).1.pending.get? id = some p →
      id ∉ passed.map (·.id) := by
    intro id p hp hid
    obtain ⟨item, hm, rfl⟩ := List.mem_map.mp hid
    rw [pending_popLive, hpassed item hm] at hp
    cases hp
  rcases hcase with ⟨hq, hnone, hrest⟩ | ⟨item, rest, hq, hlive, hsome, hrest⟩
  · have hnext : next device s .take = { s with engine := (s.engine.popLive device).1 } := by
      simp only [next]
      split <;> simp_all
    have hrest := (hrest device).trans (if_pos rfl)
    rw [hnext]
    refine h.descend hdesc ?_ h.addressed (by simp [hrest]) ?_
    · simp [line, hrest]
    · intro id p hp hid
      simp only [line, hq, hrest, List.map_nil, List.append_nil] at hid ⊢
      exact (List.mem_append.mp hid).resolve_right (hskip id p hp)
  · have hnext : next device s .take =
        { s with engine := (s.engine.popLive device).1, hand := .taken item } := by
      simp only [next]
      split <;> simp_all
    have hrest := (hrest device).trans (if_pos rfl)
    have hold : s.line device = s.delivered ++ (passed.map (·.id) ++ item.id :: rest.map (·.id)) := by
      simp [line, hempty, hq]
    have hnew : line (next device s .take) device = s.delivered ++ item.id :: rest.map (·.id) := by
      simp [hnext, line, hrest]
    refine h.descend (hnext ▸ hdesc) ?_ ?_ ?_ ?_
    · rw [hold, hnew]
      exact (List.sublist_append_right _ _).append_left _
    · rintro x hx
      obtain rfl : item = x := by simpa [hnext] using hx
      exact h.queued item (by simp [hq])
    · intro x hx
      rw [hnext] at hx
      exact h.queued x (by rw [hq]; simp [hrest ▸ hx])
    · intro id p hp hid
      rw [hnext] at hp
      rw [hold] at hid
      rw [hnew]
      rcases List.mem_append.mp hid with hid | hid
      · exact List.mem_append_left _ hid
      · exact List.mem_append_right _ ((List.mem_append.mp hid).resolve_left (hskip id p hp))

/-- The hand may be emptied of what is decided. -/
theorem InLine.drop (h : InLine device s) {item : QueuedCommand} (hi : s.hand.item? = some item)
    (hn : s.engine.pending.get? item.id = none) : InLine device { s with hand := .empty } := by
  have hold : s.line device =
      s.delivered ++ item.id :: (s.engine.queue device).map (·.id) := by
    simp [line, hi]
  have hnew : line { s with hand := .empty } device =
      s.delivered ++ (s.engine.queue device).map (·.id) := by
    simp [line]
  refine h.descend (descends_refl h.sound) ?_ (by simp) h.queued ?_
  · rw [hold, hnew]
    exact (List.sublist_cons_self _ _).append_left _
  · intro id p hp hid
    have hne : id ≠ item.id := by
      rintro rfl
      rw [hn] at hp
      cases hp
    rw [hold] at hid
    rw [hnew]
    simpa [hne] using hid

theorem InLine.mark (h : InLine device s) {item : QueuedCommand} (hi : s.hand = .taken item)
    (conn : Uuid) : InLine device (next device s (.mark conn)) := by
  cases hp : s.engine.isPending item.id with
  | true =>
    have hnext : next device s (.mark conn) =
        { s with engine := s.engine.apply (.mark item.id conn), hand := .marked item } := by
      simp [next, hi, apply, markSent, hp]
    have hq := queue_congr (queues_apply s.engine (.mark item.id conn) rfl (by simp) (by simp))
      device
    have hline : line (next device s (.mark conn)) device = s.line device := by
      simp [hnext, line, hi, hq]
    refine h.descend ?_ (by rw [hline]) ?_ ?_ ?_
    · rw [hnext]
      exact descends_apply h.sound (.mark item.id conn) rfl
    · intro x hx
      exact h.addressed x (by simpa [hnext, hi] using hx)
    · rw [hnext]
      exact hq ▸ h.queued
    · intro id _ _ hid
      rwa [hline]
  | false =>
    have hnext : next device s (.mark conn) = { s with hand := .empty } := by
      simp [next, hi, markSent, hp]
    rw [hnext]
    exact h.drop (by simp [hi]) ((s.engine.isPending_eq_false _).mp hp)

theorem InLine.deliver (h : InLine device s) {item : QueuedCommand} (hi : s.hand = .marked item) :
    InLine device (next device s .deliver) := by
  have hnext : next device s .deliver =
      { s with hand := .empty, delivered := s.delivered ++ [item.id] } := by
    simp [next, hi]
  have hline : line (next device s .deliver) device = s.line device := by
    simp [hnext, line, hi]
  refine h.descend (by rw [hnext]; exact descends_refl h.sound) (by rw [hline]) ?_ ?_ ?_
  · simp [hnext]
  · simpa [hnext] using h.queued
  · intro id _ _ hid
    rwa [hline]

theorem InLine.putBack (h : InLine device s) {item : QueuedCommand}
    (hi : s.hand.item? = some item) : InLine device (next device s .putBack) := by
  have hd := h.addressed item hi
  have hnext : next device s .putBack =
      { s with engine := s.engine.requeueFront item, hand := .empty } := by
    simp [next, hi]
  have hq : (s.engine.requeueFront item).queue device = item :: s.engine.queue device := by
    rw [queue_requeueFront, hd, if_pos rfl]
  have hline : line (next device s .putBack) device = s.line device := by
    simp [hnext, line, hi, hq]
  refine h.descend ?_ (by rw [hline]) (by simp [hnext]) ?_ ?_
  · rw [hnext]
    exact descends_apply h.sound (.requeue item) rfl
  · intro x hx
    simp only [hnext, hq] at hx
    rcases List.mem_cons.mp hx with rfl | hx
    · exact hd
    · exact h.queued x hx
  · intro id _ _ hid
    rwa [hline]

theorem inLine_next (h : InLine device s) {m : Move} (hm : Permitted device s m) :
    InLine device (next device s m) := by
  cases m with
  | other op => exact h.other hm
  | take => exact h.take hm
  | mark conn =>
    obtain ⟨item, hi⟩ := hm
    exact h.mark hi conn
  | deliver =>
    obtain ⟨item, hi⟩ := hm
    exact h.deliver hi
  | putBack =>
    obtain ⟨item, hi⟩ := hm
    exact h.putBack hi
  | abandon =>
    obtain ⟨item, hi, hn⟩ := hm
    exact h.drop (by simp [hi]) hn

end Steps

theorem inLine_run {device : String} {s : Service} (h : InLine device s) {ms : List Move}
    (hm : Orderly device s ms) : InLine device (run device s ms) := by
  induction ms generalizing s with
  | nil => exact h
  | cons m ms ih => exact ih (inLine_next h hm.1) hm.2

theorem run_append (device : String) (s : Service) (ms ms' : List Move) :
    run device s (ms ++ ms') = run device (run device s ms) ms' := by
  induction ms generalizing s with
  | nil => rfl
  | cons m ms ih => exact ih (next device s m)

theorem orderly_append {device : String} {s : Service} {ms ms' : List Move} :
    Orderly device s (ms ++ ms') ↔ Orderly device s ms ∧ Orderly device (run device s ms) ms' := by
  induction ms generalizing s with
  | nil => exact ⟨fun h => ⟨trivial, h⟩, fun h => h.2⟩
  | cons m ms ih => exact (and_congr_right fun _ => ih).trans and_assoc.symm

/-- What was submitted before a command of the line and is pending was delivered, or stands before
it. -/
theorem InLine.delivered_of_earlier {device : String} {s : Service} (h : InLine device s)
    {item : QueuedCommand} (hi : s.hand.item? = some item) {id : Uuid} {p : Pending}
    (hp : s.engine.pending.get? id = some p) (hd : p.deviceId = device)
    (he : s.engine.Earlier id item.id) : id ∈ s.delivered := by
  have hline : s.line device = s.delivered ++ item.id :: (s.engine.queue device).map (·.id) := by
    simp [line, hi]
  have hsorted := h.sorted
  have hid := h.complete id p hp hd
  rw [hline] at hsorted hid
  obtain ⟨-, hrest, -⟩ := List.pairwise_append.mp hsorted
  rcases List.mem_append.mp hid with hid | hid
  · exact hid
  · rcases List.mem_cons.mp hid with rfl | hid
    · exact absurd rfl he.ne
    · exact absurd he ((List.pairwise_cons.mp hrest).1 id hid).asymm

/-- The command that a move submits. -/
def Move.submits? : Move → Option Uuid
  | .other op => op.submits?
  | _ => none

theorem submitted_next {device : String} {s : Service} (hs : s.engine.Sound) {m : Move}
    (hm : Permitted device s m) :
    (next device s m).engine.submitted = s.engine.submitted ++ m.submits?.toList := by
  cases m with
  | other op => exact submitted_apply hs hm.1
  | take =>
    have hpop := completions_popLive s.engine device
    simp only [next]
    split <;> rename_i h <;> rw [h] at hpop <;>
      simpa [submitted, Move.submits?] using congrArg Table.keys hpop
  | mark conn =>
    obtain ⟨item, hi⟩ := hm
    have hmark := completions_markSent s.engine item.id conn
    simp only [next, hi]
    split <;> rename_i h <;> rw [h] at hmark <;>
      simpa [submitted, Move.submits?] using congrArg Table.keys hmark
  | deliver =>
    obtain ⟨item, hi⟩ := hm
    simp [next, hi, Move.submits?]
  | putBack =>
    obtain ⟨item, hi⟩ := hm
    simp [next, hi, submitted, Move.submits?]
  | abandon => simp [next, Move.submits?]

/-- The order of submission is the order of the submissions in the run. -/
theorem submitted_run {device : String} {s : Service} (h : InLine device s) {ms : List Move}
    (hm : Orderly device s ms) :
    (run device s ms).engine.submitted = s.engine.submitted ++ ms.filterMap Move.submits? := by
  induction ms generalizing s with
  | nil => simp [run]
  | cons m ms ih =>
    refine (ih (inLine_next h hm.1) hm.2).trans ?_
    rw [submitted_next h.sound hm.1, List.append_assoc]
    cases hs : m.submits? <;> simp [hs]

/-- First in, first out, over any number of send loops one after the other. -/
theorem deliveries_in_order (device : String) (ms : List Move) (hm : Orderly device {} ms) :
    (run device {} ms).engine.submitted = ms.filterMap Move.submits? ∧
    (run device {} ms).delivered.Pairwise (run device {} ms).engine.Earlier ∧
    ∀ before after item, ms = before ++ .deliver :: after →
      (run device {} before).hand = .marked item →
      ∀ id p, (run device {} before).engine.pending.get? id = some p → p.deviceId = device →
        (run device {} before).engine.Earlier id item.id →
        id ∈ (run device {} before).delivered := by
  have h := inLine_run (inLine_empty device) hm
  refine ⟨submitted_run (inLine_empty device) hm, ?_, ?_⟩
  · have hsorted := h.sorted
    rw [line, List.append_assoc] at hsorted
    exact (List.pairwise_append.mp hsorted).1
  · rintro before after item rfl hi id p hp hd he
    have hb := inLine_run (inLine_empty device) (orderly_append.mp hm).1
    exact hb.delivered_of_earlier (by simp [hi]) hp hd he

/-- Three commands: the first cannot be delivered at first, the second expires in its queue. -/
def interrupted : List Move :=
  [.other (.enqueue ⟨1⟩ "frame-1" (.fileRead "/a") none 1000 0),
    .other (.enqueue ⟨2⟩ "frame-1" (.fileRead "/b") none 1000 0),
    .take, .mark ⟨7⟩,
    .other (.enqueue ⟨3⟩ "frame-1" (.fileRead "/c") none 1000 0),
    .putBack, .other (.expire ⟨2⟩), .take, .mark ⟨8⟩, .deliver, .take, .mark ⟨8⟩, .deliver]

theorem orderly_interrupted : Orderly "frame-1" {} interrupted := by
  refine ⟨⟨rfl, by simp, by simp⟩, ⟨rfl, by simp, by simp⟩, rfl, ⟨_, rfl⟩,
    ⟨rfl, by simp, by simp⟩, ⟨_, rfl⟩, ⟨trivial, by simp, by simp⟩, rfl, ⟨_, rfl⟩, ⟨_, rfl⟩, rfl,
    ⟨_, rfl⟩, ⟨_, rfl⟩, trivial⟩

theorem deliveries_in_order_interrupted : Orderly "frame-1" {} interrupted ∧
    (run "frame-1" {} interrupted).delivered = [⟨1⟩, ⟨3⟩] ∧
    (run "frame-1" {} interrupted).delivered.Pairwise
      (run "frame-1" {} interrupted).engine.Earlier :=
  ⟨orderly_interrupted, by decide,
    (deliveries_in_order "frame-1" interrupted orderly_interrupted).2.1⟩

end Service

end FleetControl.Engine
