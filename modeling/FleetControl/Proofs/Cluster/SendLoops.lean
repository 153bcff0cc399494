import FleetControl.Proofs.Cluster.Custody
import FleetControl.Proofs.Engine.Serving

/-! # Senders as send loops

The senders of a device serve it like one send loop, as long as each finds nobody else at it when it
comes to take. What a history delivers to the device is then what a service delivers, and in the
order in which it was submitted. -/
namespace FleetControl

namespace Engine.Service
variable {device : String} {s : Service} {item : QueuedCommand}

theorem InLine.not_delivered (h : InLine device s) (hi : s.hand.item? = some item) :
    item.id ∉ s.delivered := by
  intro hm
  have hsorted := h.sorted
  rw [line, hi, List.append_assoc] at hsorted
  obtain ⟨-, -, hbefore⟩ := List.pairwise_append.mp hsorted
  exact (hbefore item.id hm item.id (by simp)).ne rfl

theorem InLine.known_in_hand (h : InLine device s) (hi : s.hand.item? = some item) :
    ∃ x, s.engine.completions.get? item.id = some x :=
  (mem_submitted_iff s.engine item.id).mp (h.known item.id (by simp [line, hi]))

/-- A hand that is empty or holds what is decided can be emptied. -/
theorem emptied (h : ∀ item, s.hand.item? = some item →
    s.hand = .marked item ∧ s.engine.pending.get? item.id = none) :
    ∃ ms, Orderly device s ms ∧ run device s ms = { s with hand := .empty } := by
  cases hh : s.hand with
  | empty => exact ⟨[], trivial, by rw [run, ← hh]⟩
  | taken item =>
    obtain ⟨hm, -⟩ := h item (by rw [hh]; rfl)
    rw [hh] at hm
    cases hm
  | marked item =>
    obtain ⟨hm, hnone⟩ := h item (by rw [hh]; rfl)
    exact ⟨[.abandon], ⟨⟨item, hm, hnone⟩, trivial⟩, rfl⟩

theorem take_nothing (hempty : s.hand = .empty) (hpops : (s.engine.popLive device).2 = none) :
    Orderly device s [.take] ∧
      run device s [.take] = { s with engine := s.engine.apply (.pop device) } := by
  refine ⟨⟨hempty, trivial⟩, ?_⟩
  simp only [run, next]
  split <;> rename_i hp <;> rw [hp] at hpops <;> cases hpops
  simp [apply, hp]

theorem take_and_mark (hempty : s.hand = .empty)
    (hpops : (s.engine.popLive device).2 = some item)
    (hpending : ∃ pend, s.engine.pending.get? item.id = some pend) (conn : Uuid) :
    Orderly device s [.take, .mark conn] ∧
      run device s [.take, .mark conn] =
        { s with
          engine := (s.engine.apply (.pop device)).apply (.mark item.id conn)
          hand := .marked item } := by
  have htake : next device s .take =
      { s with engine := s.engine.apply (.pop device), hand := .taken item } := by
    simp only [next]
    split <;> rename_i hp <;> rw [hp] at hpops <;> cases hpops
    simp [apply, hp]
  obtain ⟨e, live, hm⟩ : ∃ e live,
      (s.engine.apply (.pop device)).markSent item.id conn = (e, live) := ⟨_, _, rfl⟩
  have hmark : (s.engine.apply (.pop device)).apply (.mark item.id conn) = e :=
    congrArg Prod.fst hm
  have hlive : live = true := by
    have hp : (s.engine.apply (.pop device)).isPending item.id = true := by
      rw [isPending_iff, apply, pending_popLive]
      exact hpending
    rw [markSent, if_pos hp] at hm
    exact (congrArg Prod.snd hm).symm
  refine ⟨⟨hempty, ⟨item, by rw [htake]⟩, trivial⟩, ?_⟩
  rw [run, htake, run, run, next, hmark]
  simp only [hm, hlive]

theorem run_others (ops : List Op) :
    run device s (ops.map .other) = { s with engine := ops.foldl apply s.engine } := by
  induction ops generalizing s with
  | nil => rfl
  | cons op ops ih => exact ih

end Engine.Service

namespace Cluster
open Engine (Exchange Service)
open Engine.Service (InLine)
open Lifetime (Apart)

/-- A sender has a command of a device in hand. -/
def Sends (c : Cluster) (p : Nat) (device : String) (u : TaskId) (item : QueuedCommand) : Prop :=
  ∃ s record conn rest,
    c.tasks.get? u = some (.sender p s record conn (.sending item rest)) ∧ record.deviceId = device

/-- The command of which a sender of a device has sent the last frame. -/
def delivers? (c : Cluster) (p : Nat) (device : String) : Event → Option Uuid
  | .turn t =>
    match c.tasks.get? t with
    | some (.sender q _ record _ (.sending item [])) =>
      if t ∈ c.ready ∧ q = p ∧ record.deviceId = device then some item.id else none
    | _ => none
  | _ => none

/-- What a history delivers to a device, first one first. -/
def deliveries (p : Nat) (device : String) : Cluster → List Event → List Uuid
  | _, [] => []
  | c, e :: es => (c.delivers? p device e).toList ++ deliveries p device (happen c e) es

/-- Nobody is at the device: no sender has a command of it in hand, and what is out and not decided
was delivered. -/
structure Idle (c : Cluster) (p : Nat) (device : String) (delivered : List Uuid) : Prop where
  sending : ∀ u item, ¬ c.Sends p device u item
  sent : ∀ id pend, (c.engine p).pending.get? id = some pend → pend.deviceId = device →
    pend.owner ≠ none → id ∈ delivered

/-- Only senders take the commands of the device, and who comes to take finds nobody at it. -/
structure Alone (c : Cluster) (p : Nat) (device : String) (delivered : List Uuid) (e : Event) :
    Prop where
  consumers : ∀ t, c.tasks.get? t ≠ some (.consumer p device)
  idle : ∀ t s record conn, e = .turn t →
    c.tasks.get? t = some (.sender p s record conn .idle) → record.deviceId = device →
    c.Idle p device delivered

def OneByOne (p : Nat) (device : String) : Cluster → List Uuid → List Event → Prop
  | _, _, [] => True
  | c, delivered, e :: es =>
    c.Alone p device delivered e ∧
      OneByOne p device (happen c e) (delivered ++ (c.delivers? p device e).toList) es

/-- The senders of a device are where its service is. -/
structure Serves (c : Cluster) (p : Nat) (device : String) (s : Service) : Prop where
  engine : s.engine = c.engine p
  hand : ∀ u item, c.Sends p device u item → s.hand = .marked item
  sole : ∀ u v item other, c.Sends p device u item → c.Sends p device v other → u = v
  addressed : ∀ d u item, c.Sends p d u item → item.deviceId = d
  marked : ∀ item, s.hand.item? = some item → s.hand = .marked item ∧
    ∀ pend, (c.engine p).pending.get? item.id = some pend →
      pend.deviceId = device ∧ pend.owner ≠ none

theorem delivers?_eq_some {c : Cluster} {p : Nat} {device : String} {e : Event} {id : Uuid}
    (h : c.delivers? p device e = some id) : ∃ t s record conn item, e = .turn t ∧ t ∈ c.ready ∧
      c.tasks.get? t = some (.sender p s record conn (.sending item [])) ∧
      record.deviceId = device ∧ item.id = id := by
  unfold delivers? at h
  split at h
  · rename_i t
    split at h
    · rename_i q s record conn item task
      split at h
      · rename_i hall
        obtain ⟨ht, rfl, hdevice⟩ := hall
        exact ⟨t, s, record, conn, item, rfl, ht, task, hdevice, Option.some.inj h⟩
      · cases h
    · cases h
  · cases h

/-- A sender that has sent the last frame goes on with an empty hand. -/
theorem give_delivers {c : Cluster} {t : TaskId} (ht : t ∈ c.ready) {p s : Nat}
    {record : DeviceRecord} {conn : Uuid} {item : QueuedCommand}
    (task : c.tasks.get? t = some (.sender p s record conn (.sending item []))) :
    (c.give t).tasks.get? t = some (.sender p s record conn .idle) ∧
      ∀ q, (c.give t).engine q = c.engine q := by
  let c₀ : Cluster := { c with ready := c.ready.erase t }
  have htask : c₀.tasks.get? t = some (.sender p s record conn (.sending item [])) := task
  have hturn : turn c₀ t = (c₀.setTask t (.sender p s record conn .idle), .again) := by
    rw [turn, htask]
    rfl
  unfold give
  rw [if_pos ht, hturn]
  exact ⟨Table.get?_put_self _ _ _, fun _ => rfl⟩

section Step
variable {c : Cluster} {e : Event} {hands : Nat → List (Nat × QueuedCommand)} {p q : Nat}
  {device : String} {s s' : Service} {t : TaskId} {ms : List Exchange.Move}

theorem sends_origin {u : TaskId} {item : QueuedCommand}
    (h : (happen c e).Sends p device u item) : c.Sends p device u item ∨
      ∃ r record conn, e = .turn u ∧ u ∈ c.ready ∧
        c.tasks.get? u = some (.sender p r record conn .idle) ∧ record.deviceId = device ∧
        conn ∉ c.stopping ∧ ((c.engine p).popLive device).2 = some item := by
  obtain ⟨r, record, conn, rest, hu, rfl⟩ := h
  rcases sending_origin hu with ⟨before, hbefore⟩ | ⟨he, hready, task, going, pops⟩
  · exact Or.inl ⟨r, record, conn, before, hbefore, rfl⟩
  · exact Or.inr ⟨r, record, conn, he, hready, task, rfl, going, pops⟩

/-- Unless a command of the device is taken, who has one in hand had it before. -/
theorem sends_before (hacts : Acts c (happen c e) e t q ms)
    (hms : ∀ item conn, q = p → ms ≠ [.take t device, .mark t item conn]) {u : TaskId}
    {item : QueuedCommand} (h : (happen c e).Sends p device u item) : c.Sends p device u item := by
  rcases sends_origin h with hold | ⟨r, record, conn, he, hready, task, rfl, going, pops⟩
  · exact hold
  · obtain ⟨rfl, rfl, hmoves⟩ := hacts.takes u p r record conn item he hready task going pops
    exact absurd hmoves (hms item conn rfl)

theorem addressed_happen (hk : Custody c hands) (h : Serves c p device s) (d : String)
    (u : TaskId) (item : QueuedCommand) (hu : (happen c e).Sends p d u item) :
    item.deviceId = d := by
  rcases sends_origin hu with hold | ⟨-, -, -, -, -, -, -, -, pops⟩
  · exact h.addressed d u item hold
  · exact (hk.placed p).addressed d item (Engine.mem_queue_of_popLive pops)

/-- Nobody has a command of the device in hand. -/
theorem Serves.of_empty (hengine : s'.engine = (happen c e).engine p) (hempty : s'.hand = .empty)
    (hnobody : ∀ u item, ¬ (happen c e).Sends p device u item)
    (haddressed : ∀ d u item, (happen c e).Sends p d u item → item.deviceId = d) :
    Serves (happen c e) p device s' where
  engine := hengine
  hand u item hu := absurd hu (hnobody u item)
  sole u _ item _ hu := absurd hu (hnobody u item)
  addressed := haddressed
  marked item hi := by
    rw [hempty] at hi
    cases hi

/-- The hands stay as they are. -/
theorem Serves.keep (h : Serves c p device s) (hk : Custody c hands)
    (hbefore : ∀ u item, (happen c e).Sends p device u item → c.Sends p device u item)
    (hengine : s'.engine = (happen c e).engine p) (hhand : s'.hand = s.hand)
    (hmarked : ∀ item, s.hand.item? = some item → ∀ pend,
      ((happen c e).engine p).pending.get? item.id = some pend →
        pend.deviceId = device ∧ pend.owner ≠ none) : Serves (happen c e) p device s' where
  engine := hengine
  hand u item hu := hhand.trans (h.hand u item (hbefore u item hu))
  sole u v item other hu hv := h.sole u v item other (hbefore u item hu) (hbefore v other hv)
  addressed := addressed_happen hk h
  marked item hi := by
    rw [hhand] at hi
    exact ⟨hhand.trans (h.marked item hi).1, hmarked item hi⟩

/-- What the service has in hand stays out, unless its sender gives it back. -/
theorem Serves.marked_happen (h : Serves c p device s) (hk : Custody c hands)
    (hline : InLine device s) (ha : Apart c.supply (happen c e).drawn)
    (hacts : Acts c (happen c e) e t p ms) (hother : ∀ item, ¬ c.Sends p device t item)
    {item : QueuedCommand} (hi : s.hand.item? = some item) {pend : Pending}
    (hpend : ((happen c e).engine p).pending.get? item.id = some pend) :
    pend.deviceId = device ∧ pend.owner ≠ none := by
  obtain ⟨-, hown⟩ := h.marked item hi
  cases hk.origin ha hacts hpend with
  | kept same => exact hown pend same
  | submitted fresh free =>
    obtain ⟨x, hx⟩ := hline.known_in_hand hi
    rw [h.engine, fresh] at hx
    cases hx
  | marked task pops named owner =>
    obtain ⟨was, hwas, hfree⟩ := (hk.placed p).pops pops
    exact absurd hfree (hown was (named ▸ hwas)).2
  | @returned r record conn other f rest was task gone named hwas owner =>
    have hin : (t, other) ∈ hands p := (hk.sending t p r record conn other _ task).1
    have hsame := (hk.placed p).own other (Or.inr ⟨t, hin⟩) was (named ▸ hwas)
    have haddressed := h.addressed record.deviceId t other ⟨r, record, conn, _, task, rfl⟩
    have hdevice : record.deviceId = device :=
      haddressed.symm.trans (hsame.trans (hown was hwas).1)
    exact absurd ⟨r, record, conn, _, task, hdevice⟩ (hother other)

theorem not_sends {w : Task} (task : c.tasks.get? t = some w)
    (hw : ∀ r record conn item rest, w ≠ .sender p r record conn (.sending item rest))
    (item : QueuedCommand) : ¬ c.Sends p device t item := by
  rintro ⟨r, record, conn, rest, hu, -⟩
  exact hw r record conn item rest (Option.some.inj (task.symm.trans hu))

/-- What the service may do when an event delivers nothing. -/
def Follow (c' : Cluster) (p : Nat) (device : String) (s : Service) : Prop :=
  ∃ ms, Service.Orderly device s ms ∧ Serves c' p device (Service.run device s ms) ∧
    (Service.run device s ms).delivered = s.delivered

theorem Serves.rest (h : Serves c p device s) (hk : Custody c hands)
    (hbefore : ∀ u item, (happen c e).Sends p device u item → c.Sends p device u item)
    (hsame : (happen c e).engine p = c.engine p) : Follow (happen c e) p device s := by
  refine ⟨[], trivial, h.keep hk hbefore (h.engine.trans hsame.symm) rfl ?_, rfl⟩
  intro item hi pend hpend
  exact (h.marked item hi).2 pend (hsame ▸ hpend)

/-- What others do to the engine is nothing of the service's. -/
theorem Serves.others (h : Serves c p device s) (hk : Custody c hands) (hline : InLine device s)
    (ha : Apart c.supply (happen c e).drawn) (hacts : Acts c (happen c e) e t p ms)
    (hms : ∀ item conn, ms ≠ [.take t device, .mark t item conn])
    (hother : ∀ item, ¬ c.Sends p device t item)
    (horderly : Service.Orderly device s ((ms.map (·.op)).map .other)) :
    Follow (happen c e) p device s := by
  have hrun : Service.run device s ((ms.map (·.op)).map .other) = _ :=
    Service.run_others (ms.map (·.op))
  refine ⟨_, horderly, ?_, by rw [hrun]⟩
  rw [hrun]
  refine h.keep hk (fun _ _ => sends_before hacts fun item conn _ => hms item conn) ?_ rfl
    fun _ hi _ hpend => h.marked_happen hk hline ha hacts hother hi hpend
  have hengine := hacts.operates p
  rw [if_pos rfl] at hengine
  rw [hengine, List.foldl_map, h.engine]

/-- Who finds nobody at the device finds the hand of the service empty, or holding what is
decided. -/
theorem Idle.emptied (hidle : c.Idle p device s.delivered) (h : Serves c p device s)
    (hline : InLine device s) :
    ∃ ms, Service.Orderly device s ms ∧ Service.run device s ms = { s with hand := .empty } := by
  refine Service.emptied fun item hi => ?_
  obtain ⟨hm, hown⟩ := h.marked item hi
  refine ⟨hm, ?_⟩
  cases hp : s.engine.pending.get? item.id with
  | none => rfl
  | some pend =>
    rw [h.engine] at hp
    obtain ⟨hdevice, howner⟩ := hown pend hp
    exact absurd (hidle.sent item.id pend hp hdevice howner) (hline.not_delivered hi)

theorem Serves.takes (h : Serves c p device s) (hk : Custody c hands) (hline : InLine device s)
    {item : QueuedCommand} {conn : Uuid}
    (hacts : Acts c (happen c e) e t p [.take t device, .mark t item conn])
    (hidle : c.Idle p device s.delivered)
    (pops : ((c.engine p).popLive device).2 = some item) : Follow (happen c e) p device s := by
  obtain ⟨ms₀, horderly₀, hrun₀⟩ := hidle.emptied h hline
  obtain ⟨pend, hpend, -⟩ := (hk.placed p).pops pops
  have hengine := hacts.operates p
  rw [if_pos rfl] at hengine
  obtain ⟨horderly, hrun⟩ := Service.take_and_mark (s := { s with hand := .empty }) rfl
    (h.engine ▸ pops) (h.engine ▸ ⟨pend, hpend⟩) conn
  have hboth : Service.run device s (ms₀ ++ [.take, .mark conn]) =
      { s with engine := (happen c e).engine p, hand := .marked item } := by
    rw [Service.run_append, hrun₀, hrun, hengine, h.engine]
    rfl
  refine ⟨ms₀ ++ [.take, .mark conn], Service.orderly_append.mpr ⟨horderly₀, hrun₀ ▸ horderly⟩, ?_,
    by rw [hboth]⟩
  -- before, nobody had anything in hand
  have hnew : ∀ u other, (happen c e).Sends p device u other → u = t ∧ other = item := by
    intro u other hu
    rcases sends_origin hu with hold | ⟨r, record, conn', he, hready, task, rfl, going, pops'⟩
    · exact absurd hold (hidle.sending u other)
    · obtain ⟨rfl, -, -⟩ := hacts.takes u p r record conn' other he hready task going pops'
      exact ⟨rfl, Option.some.inj (pops'.symm.trans pops)⟩
  rw [hboth]
  refine ⟨rfl, fun u other hu => ?_, fun u v other other' hu hv => ?_, addressed_happen hk h, ?_⟩
  · rw [(hnew u other hu).2]
  · exact (hnew u other hu).1.trans (hnew v other' hv).1.symm
  · rintro other hi
    obtain rfl : item = other := Option.some.inj hi
    refine ⟨rfl, fun pend' hpend' => ?_⟩
    rw [hengine] at hpend'
    simp only [List.foldl, Exchange.Move.op, Engine.apply, Engine.pending_markSent, if_true,
      Engine.pending_popLive, hpend, Option.map_some, Option.some.injEq] at hpend'
    subst hpend'
    have hqueued := Engine.mem_queue_of_popLive pops
    have hown := (hk.placed p).own item (Or.inl ⟨device, hqueued⟩) pend hpend
    exact ⟨hown.symm.trans ((hk.placed p).addressed device item hqueued), by simp⟩

theorem Serves.polls (h : Serves c p device s) (hk : Custody c hands) (hline : InLine device s)
    (hacts : Acts c (happen c e) e t p [.take t device]) (hidle : c.Idle p device s.delivered)
    (pops : ((c.engine p).popLive device).2 = none) : Follow (happen c e) p device s := by
  obtain ⟨ms₀, horderly₀, hrun₀⟩ := hidle.emptied h hline
  have hengine := hacts.operates p
  rw [if_pos rfl] at hengine
  obtain ⟨horderly, hrun⟩ := Service.take_nothing (s := { s with hand := .empty }) rfl
    (h.engine ▸ pops)
  have hboth : Service.run device s (ms₀ ++ [.take]) =
      { s with engine := (happen c e).engine p, hand := .empty } := by
    rw [Service.run_append, hrun₀, hrun, hengine, h.engine]
    rfl
  refine ⟨ms₀ ++ [.take], Service.orderly_append.mpr ⟨horderly₀, hrun₀ ▸ horderly⟩, ?_,
    by rw [hboth]⟩
  rw [hboth]
  refine .of_empty rfl rfl (fun u item hu => ?_) (addressed_happen hk h)
  exact hidle.sending u item (sends_before hacts (fun _ _ _ => by simp) hu)

theorem Serves.returns (h : Serves c p device s) (hk : Custody c hands) {item : QueuedCommand}
    (hacts : Acts c (happen c e) e t p [.putBack t item]) (hsends : c.Sends p device t item)
    (gone : (happen c e).tasks.get? t = none) : Follow (happen c e) p device s := by
  have hhand := h.hand t item hsends
  have hengine := hacts.operates p
  rw [if_pos rfl] at hengine
  have hrun : Service.run device s [.putBack] =
      { s with engine := (happen c e).engine p, hand := .empty } := by
    rw [hengine, ← h.engine]
    simp only [Service.run, Service.next, hhand]
    rfl
  refine ⟨[.putBack], ⟨⟨item, by rw [hhand]; rfl⟩, trivial⟩, ?_, by rw [hrun]⟩
  rw [hrun]
  refine .of_empty rfl rfl (fun u other hu => ?_) (addressed_happen hk h)
  obtain rfl : u = t :=
    h.sole u t other item (sends_before hacts (fun _ _ _ => by simp) hu) hsends
  obtain ⟨r, record, conn, rest, hu, -⟩ := hu
  rw [gone] at hu
  cases hu

/-- What was sent in full is delivered. -/
theorem Serves.delivers (h : Serves c p device s) (hk : Custody c hands) {id : Uuid}
    (hd : c.delivers? p device e = some id) :
    ∃ ms, Service.Orderly device s ms ∧ Serves (happen c e) p device (Service.run device s ms) ∧
      (Service.run device s ms).delivered = s.delivered ++ [id] := by
  obtain ⟨t, r, record, conn, item, rfl, ht, task, hdevice, rfl⟩ := delivers?_eq_some hd
  have hsends : c.Sends p device t item := ⟨r, record, conn, [], task, hdevice⟩
  have hhand := h.hand t item hsends
  obtain ⟨hidle, hsame⟩ := give_delivers ht task
  have hrun : Service.run device s [.deliver] =
      { s with hand := .empty, delivered := s.delivered ++ [item.id] } := by
    simp only [Service.run, Service.next, hhand]
  refine ⟨[.deliver], ⟨⟨item, hhand⟩, trivial⟩, ?_, by rw [hrun]⟩
  rw [hrun]
  refine .of_empty (h.engine.trans (hsame p).symm) rfl (fun u other hu => ?_)
    (addressed_happen hk h)
  rcases sends_origin hu with hold | ⟨_, _, _, he, -, task', -⟩
  · obtain rfl : u = t := h.sole u t other item hold hsends
    obtain ⟨_, _, _, _, hu, -⟩ := hu
    have hnone := hidle.symm.trans hu
    cases hnone
  · obtain rfl : t = u := Event.turn.inj he
    rw [task] at task'
    cases task'

theorem Serves.acts (h : Serves c p device s) (hk : Custody c hands) (hline : InLine device s)
    (ha : Apart c.supply (happen c e).drawn) (halone : c.Alone p device s.delivered e)
    (hacts : Acts c (happen c e) e t p ms) : Follow (happen c e) p device s := by
  -- apart from its senders' own moves, nothing that is done concerns the service of the device
  have hfresh : ∀ k, c.drawn ≤ k → k < (happen c e).drawn →
      s.engine.completions.get? (c.supply.idOf k) = none :=
    fun k hlower hupper => h.engine ▸ hk.fresh ha hlower hupper p
  have hengine := hacts.operates p
  rw [if_pos rfl] at hengine
  cases hacts.doing with
  | rests => exact h.rest hk (fun _ _ => sends_before hacts fun _ _ _ => by simp) hengine
  | submits task lower upper =>
    refine h.others hk hline ha hacts (by simp) ?_
      ⟨⟨hfresh _ lower upper, by simp [Exchange.Move.op], by simp [Exchange.Move.op]⟩, trivial⟩
    rcases task with ⟨_, _, task⟩ | ⟨_, _, task⟩
    · exact not_sends task (by simp)
    · exact not_sends task (by simp)
  | @polls other task =>
    by_cases hdevice : other = device
    · subst other
      rcases task with task | ⟨r, record, conn, task, hrecord, going⟩
      · exact absurd task (halone.consumers t)
      · obtain ⟨rfl, ht⟩ := hacts.turn.resolve_left (by simp)
        have hidle := halone.idle t r record conn rfl task hrecord
        refine h.polls hk hline hacts hidle ?_
        -- a sender that finds a command takes and marks it
        cases pops : ((c.engine p).popLive device).2 with
        | none => rfl
        | some item =>
          have htakes := hacts.takes t p r record conn item rfl ht task going (hrecord ▸ pops)
          simp at htakes
    · refine h.others hk hline ha hacts (by simp) ?_
        ⟨⟨trivial, ?_, by simp [Exchange.Move.op]⟩, trivial⟩
      · rcases task with task | ⟨_, _, _, task, -⟩
        · exact not_sends task (by simp)
        · exact not_sends task (by simp)
      · simpa [Exchange.Move.op] using hdevice
  | @takes r record conn item task going pops =>
    by_cases hdevice : record.deviceId = device
    · subst device
      obtain ⟨rfl, -⟩ := hacts.turn.resolve_left (by simp)
      exact h.takes hk hline hacts (halone.idle t r record conn rfl task rfl) pops
    · refine h.others hk hline ha hacts ?_ (not_sends task (by simp))
        ⟨⟨trivial, ?_, by simp [Exchange.Move.op]⟩, ⟨trivial, by simp [Exchange.Move.op],
          by simp [Exchange.Move.op]⟩, trivial⟩
      · simp [hdevice]
      · simpa [Exchange.Move.op] using hdevice
  | @returns r record conn item f rest task free fails =>
    have haddressed := h.addressed record.deviceId t item ⟨r, record, conn, _, task, rfl⟩
    by_cases hdevice : record.deviceId = device
    · exact h.returns hk hacts ⟨r, record, conn, _, task, hdevice⟩
        (hacts.gone (by simp) task free fails)
    · refine h.others hk hline ha hacts (by simp) ?_ ⟨⟨trivial, by simp [Exchange.Move.op], ?_⟩,
        trivial⟩
      · rintro other ⟨r', record', conn', rest', task', hother⟩
        rw [task] at task'
        cases task'
        exact hdevice hother
      · rintro other hother
        cases hother
        exact haddressed ▸ hdevice
  | expires task due =>
    exact h.others hk hline ha hacts (by simp) (not_sends task (by simp))
      ⟨⟨trivial, by simp [Exchange.Move.op], by simp [Exchange.Move.op]⟩, trivial⟩
  | answers reads answering =>
    obtain ⟨_, _, _, task, -⟩ := reads
    exact h.others hk hline ha hacts (by simp) (not_sends task (by simp))
      ⟨⟨trivial, by simp [Exchange.Move.op], by simp [Exchange.Move.op]⟩, trivial⟩
  | closes task stopped free =>
    exact h.others hk hline ha hacts (by simp) (not_sends task (by simp))
      ⟨⟨trivial, by simp [Exchange.Move.op], by simp [Exchange.Move.op]⟩, trivial⟩

/-- The service keeps up with every event. -/
theorem serves_happen (hc : Kept c) (h : Serves c p device s) (hline : InLine device s)
    (ha : Apart c.supply (happen c e).drawn) (halone : c.Alone p device s.delivered e) :
    ∃ ms, Service.Orderly device s ms ∧ Serves (happen c e) p device (Service.run device s ms) ∧
      (Service.run device s ms).delivered =
        s.delivered ++ (c.delivers? p device e).toList := by
  obtain ⟨hands, hk⟩ := hc.custody
  cases hd : c.delivers? p device e with
  | some id => exact h.delivers hk hd
  | none =>
    simp only [Option.toList_none, List.append_nil]
    obtain ⟨t, q, ms, hacts⟩ := happen_acts hc.housed.numbered e
    by_cases hq : q = p
    · subst q
      exact h.acts hk hline ha halone hacts
    · refine h.rest hk (fun _ _ => sends_before hacts fun _ _ he => absurd he hq) ?_
      rw [hacts.operates p, if_neg (Ne.symm hq)]

end Step

section Run
variable {c : Cluster} {p : Nat} {device : String} {s : Service} {es : List Event}

theorem serves_after (hc : Kept c) (h : Serves c p device s) (hline : InLine device s)
    (ha : Apart c.supply (c.after es).drawn) (hone : OneByOne p device c s.delivered es) :
    ∃ ms, Service.Orderly device s ms ∧ Serves (c.after es) p device (Service.run device s ms) ∧
      (Service.run device s ms).delivered = s.delivered ++ deliveries p device c es := by
  induction es generalizing c s with
  | nil => exact ⟨[], trivial, h, by simp [Service.run, deliveries]⟩
  | cons e es ih =>
    have hfirst := ha.mono (drawn_after (happen c e) es)
    have hlater : Apart (happen c e).supply ((happen c e).after es).drawn := by
      rwa [(happen_follows c e).supply]
    obtain ⟨ms, horderly, hserves, hdelivered⟩ := serves_happen hc h hline hfirst hone.1
    obtain ⟨ms', horderly', hserves', hdelivered'⟩ := ih (hc.happen hfirst) hserves
      (Service.inLine_run hline horderly) hlater (hdelivered ▸ hone.2)
    refine ⟨ms ++ ms', Service.orderly_append.mpr ⟨horderly, horderly'⟩, ?_, ?_⟩
    · rw [Service.run_append]
      exact hserves'
    · rw [Service.run_append, hdelivered', hdelivered, List.append_assoc]
      rfl

theorem OneByOne.of_append {c : Cluster} {delivered : List Uuid} {es fs : List Event}
    (h : OneByOne p device c delivered (es ++ fs)) : OneByOne p device c delivered es := by
  induction es generalizing c delivered with
  | nil => trivial
  | cons e es ih => exact ⟨h.1, ih h.2⟩

end Run

theorem serves_initial (supply : Supply) (epoch : Nat) (directory : DirectoryService) (p : Nat)
    (device : String) : Serves (initial supply epoch directory) p device {} where
  engine := rfl
  hand _ _ := by rintro ⟨_, _, _, _, hu, -⟩; cases hu
  sole _ _ _ _ := by rintro ⟨_, _, _, _, hu, -⟩; cases hu
  addressed _ _ _ := by rintro ⟨_, _, _, _, hu, -⟩; cases hu
  marked _ hi := by cases hi

/-- The senders of a device that come one after the other are the send loop of a service. -/
theorem senders_serve (supply : Supply) (epoch : Nat) (directory : DirectoryService)
    (es : List Event) (p : Nat) (device : String) :
    let start := initial supply epoch directory
    Apart supply (start.after es).drawn → OneByOne p device start [] es →
    ∃ ms, Service.Orderly device {} ms ∧ Serves (start.after es) p device (Service.run device {} ms) ∧
      (Service.run device {} ms).delivered = deliveries p device start es := by
  intro start ha hone
  simpa using serves_after (kept_initial supply epoch directory)
    (serves_initial supply epoch directory p device) (Service.inLine_empty device) ha hone

/-- What the senders of a device deliver, they deliver in the order of submission, and when they
deliver a command, everything submitted before it was delivered or is decided. -/
theorem delivers_in_order (supply : Supply) (epoch : Nat) (directory : DirectoryService)
    (es : List Event) (p : Nat) (device : String) :
    let start := initial supply epoch directory
    Apart supply (start.after es).drawn → OneByOne p device start [] es →
    (deliveries p device start es).Pairwise ((start.after es).engine p).Earlier ∧
    ∀ before e later id, es = before ++ e :: later →
      (start.after before).delivers? p device e = some id →
      ∀ other pend, ((start.after before).engine p).pending.get? other = some pend →
        pend.deviceId = device → ((start.after before).engine p).Earlier other id →
        other ∈ deliveries p device start before := by
  intro start ha hone
  constructor
  · obtain ⟨ms, horderly, hserves, hdelivered⟩ :=
      senders_serve supply epoch directory es p device ha hone
    have hsorted := (Service.inLine_run (Service.inLine_empty device) horderly).sorted
    rw [Service.line, List.append_assoc, hdelivered, hserves.engine] at hsorted
    exact (List.pairwise_append.mp hsorted).1
  · rintro before e later id rfl hd other pend hpend hdevice hearlier
    have hbefore : Apart supply (start.after before).drawn := by
      rw [after_append] at ha
      exact ha.mono (drawn_after _ _)
    obtain ⟨ms, horderly, hserves, hdelivered⟩ :=
      senders_serve supply epoch directory before p device hbefore hone.of_append
    obtain ⟨t, r, record, conn, item, -, -, task, hrecord, rfl⟩ := delivers?_eq_some hd
    have hhand := hserves.hand t item ⟨r, record, conn, [], task, hrecord⟩
    have hline := Service.inLine_run (Service.inLine_empty device) horderly
    rw [← hserves.engine] at hpend hearlier
    rw [← hdelivered]
    exact hline.delivered_of_earlier (by rw [hhand]; rfl) hpend hdevice hearlier

end Cluster

end FleetControl
