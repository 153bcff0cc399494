import FleetControl.Proofs.Cluster.Belonging
import FleetControl.Proofs.Cluster.Effects

/-! # Who has a command in hand

Senders are consumers of the engines: each keeps in hand what it took, until it has put it back, and
marks it with its own connection. So nobody else can hand out, mark or put back a command that goes
out on a connection. -/
namespace FleetControl

/-- What a pop hands out stood in the queue. -/
theorem Engine.mem_queue_of_popLive {e : Engine} {device : String} {item : QueuedCommand}
    (h : (e.popLive device).2 = some item) : item ∈ e.queue device := by
  obtain ⟨passed, -, ⟨-, hnone, -⟩ | ⟨first, rest, hqueue, -, hfirst, -⟩⟩ := e.popLive_cases device
  · rw [hnone] at h
    cases h
  · obtain rfl : first = item := Option.some.inj (hfirst.symm.trans h)
    simp [hqueue]

namespace Engine.Exchange

theorem engine_run (s : Exchange) (ms : List Move) :
    (s.run ms).engine = ms.foldl (fun e m => e.apply m.op) s.engine := by
  induction ms generalizing s with
  | nil => rfl
  | cons m ms ih => rw [run, ih, engine_next, List.foldl_cons]

theorem hands_take {s : Exchange} (k : Nat) {device : String} {item : QueuedCommand}
    (h : (s.engine.popLive device).2 = some item) :
    (s.next (.take k device)).hands = s.hands ++ [(k, item)] := by
  simp only [next]
  split <;> rename_i hp <;> rw [hp] at h <;> cases h
  rfl

/-- Only what is put back leaves the hands. -/
theorem mem_hands_next {s : Exchange} {m : Move} {k : Nat} {item : QueuedCommand}
    (hm : (k, item) ∈ s.hands) (h : ∀ other, m ≠ .putBack k other) :
    (k, item) ∈ (s.next m).hands := by
  cases m with
  | take j device =>
    simp only [next]
    split
    · exact hm
    · exact List.mem_append_left _ hm
  | putBack j other =>
    refine (List.mem_eraseP_of_neg ?_).mpr hm
    intro hj
    obtain ⟨rfl, -⟩ := of_decide_eq_true hj
    exact h other rfl
  | _ => exact hm

theorem mem_hands_run {s : Exchange} {ms : List Move} {k : Nat} {item : QueuedCommand}
    (hm : (k, item) ∈ s.hands) (h : ∀ m ∈ ms, ∀ other, m ≠ .putBack k other) :
    (k, item) ∈ (s.run ms).hands := by
  induction ms generalizing s with
  | nil => exact hm
  | cons m ms ih =>
    exact ih (mem_hands_next hm (h m List.mem_cons_self))
      fun m' hm' => h m' (List.mem_cons_of_mem m hm')

/-- What a pop hands out is pending and was not sent. -/
theorem Placed.pops {s : Exchange} (h : Placed s) {device : String} {item : QueuedCommand}
    (hpops : (s.engine.popLive device).2 = some item) :
    ∃ pend, s.engine.pending.get? item.id = some pend ∧ pend.owner = none := by
  obtain ⟨passed, -, ⟨-, hnone, -⟩ | ⟨first, rest, hqueue, ⟨pend, hpend⟩, hfirst, -⟩⟩ :=
    s.engine.popLive_cases device
  · rw [hnone] at hpops
    cases hpops
  · obtain rfl : first = item := Option.some.inj (hfirst.symm.trans hpops)
    refine ⟨pend, hpend, h.unowned first.id pend hpend ((h.queued_iff hpend).mp ?_)⟩
    exact ⟨device, first, by rw [hqueue]; simp, rfl⟩

end Engine.Exchange

namespace Engine

/-- What was submitted behind operations that submit nothing was submitted before. -/
theorem completion_origin {e : Engine} (hs : e.Sound) {op : Op} (hn : op.submits? = none)
    {id : Uuid} {x : Completion} (h : (e.apply op).completions.get? id = some x) :
    ∃ y, e.completions.get? id = some y := by
  cases hp : e.pending.get? id with
  | some pend => exact ⟨_, hs.unresolved id pend hp⟩
  | none => exact ⟨x, (apply_not_pending hs hp (by simp [hn])).2.symm.trans h⟩

end Engine

namespace Cluster
open Engine (Exchange)
open Lifetime (Apart)

structure Custody (c : Cluster) (hands : Nat → List (Nat × QueuedCommand)) : Prop where
  placed : ∀ p, Exchange.Placed ⟨c.engine p, hands p⟩
  known : ∀ p id x, (c.engine p).completions.get? id = some x → c.InUse id
  sending : ∀ u p s device conn item rest,
    c.tasks.get? u = some (.sender p s device conn (.sending item rest)) →
    (u, item) ∈ hands p ∧
      ∀ pend, (c.engine p).pending.get? item.id = some pend → pend.owner = some conn
  owned : ∀ p id pend conn, (c.engine p).pending.get? id = some pend → pend.owner = some conn →
    Home c p conn

theorem custody_initial (supply : Supply) (epoch : Nat) (directory : DirectoryService) :
    Custody (initial supply epoch directory) fun _ => [] where
  placed _ := Exchange.placed_empty
  known := by simp [initial, engine, Table.get?]
  sending := by simp [initial, Table.get?]
  owned := by simp [initial, engine, Table.get?]

/-- How a command comes to be pending as it is. -/
inductive Origin (c c' : Cluster) (t : TaskId) (p : Nat) (id : Uuid) (pend : Pending) : Prop
  | kept (same : (c.engine p).pending.get? id = some pend)
  | submitted (fresh : (c.engine p).completions.get? id = none) (free : pend.owner = none)
  | marked {s device conn item} (task : c.tasks.get? t = some (.sender p s device conn .idle))
      (pops : ((c.engine p).popLive device.deviceId).2 = some item) (named : item.id = id)
      (owner : pend.owner = some conn)
  | returned {s device conn item f rest before}
      (task : c.tasks.get? t = some (.sender p s device conn (.sending item (f :: rest))))
      (gone : c'.tasks.get? t = none) (named : item.id = id)
      (was : (c.engine p).pending.get? id = some before) (owner : pend.owner = none)

section Step
variable {c : Cluster} {e : Event} {hands : Nat → List (Nat × QueuedCommand)} {t : TaskId} {p : Nat}
  {ms : List Exchange.Move}

theorem Custody.fresh (h : Custody c hands) (ha : Apart c.supply (happen c e).drawn) {k : Nat}
    (lower : c.drawn ≤ k) (upper : k < (happen c e).drawn) (p : Nat) :
    (c.engine p).completions.get? (c.supply.idOf k) = none := by
  cases hx : (c.engine p).completions.get? (c.supply.idOf k) with
  | none => rfl
  | some x =>
    obtain ⟨j, hj, hid⟩ := h.known p _ x hx
    exact absurd hid.symm (ha j k (by omega) upper)

/-- Senders keep to the discipline of consumers. -/
theorem Custody.orderly (h : Custody c hands) (ha : Apart c.supply (happen c e).drawn)
    (hd : Doing c (happen c e) t p ms) : Exchange.Orderly ⟨c.engine p, hands p⟩ ms := by
  cases hd with
  | submits task lower upper => exact ⟨h.fresh ha lower upper p, trivial⟩
  | takes task going pops =>
    refine ⟨trivial, ?_, trivial⟩
    unfold Exchange.Permitted
    rw [Exchange.hands_take t pops]
    exact List.mem_append_right _ (List.mem_singleton.mpr rfl)
  | returns task free fails => exact ⟨(h.sending t p _ _ _ _ _ task).1, trivial⟩
  | rests => trivial
  | polls task => exact ⟨trivial, trivial⟩
  | expires task due => exact ⟨trivial, trivial⟩
  | answers reads answering => exact ⟨trivial, trivial⟩
  | closes task stopped free => exact ⟨trivial, trivial⟩

/-- Who puts a command back is gone. -/
theorem Acts.gone (h : Acts c (happen c e) e t p ms) (hms : ms ≠ []) {s : Nat}
    {device : DeviceRecord} {conn : Uuid} {item : QueuedCommand} {f : Frame} {rest : List Frame}
    (task : c.tasks.get? t = some (.sender p s device conn (.sending item (f :: rest))))
    (free : c.blocked s = false) (fails : (c.transmit s f).2 = false) :
    (happen c e).tasks.get? t = none := by
  obtain ⟨rfl, ht⟩ := h.turn.resolve_left hms
  exact give_returns ht task free fails

theorem Custody.origin (h : Custody c hands) (ha : Apart c.supply (happen c e).drawn)
    (hacts : Acts c (happen c e) e t p ms) {id : Uuid} {pend : Pending}
    (hp : ((happen c e).engine p).pending.get? id = some pend) :
    Origin c (happen c e) t p id pend := by
  rw [hacts.operates p, if_pos rfl] at hp
  have hplain : ∀ op : Engine.Op, op.submits? = none → (∀ x, op.marks id x = x) →
      ((c.engine p).apply op).pending.get? id = some pend →
      Origin c (happen c e) t p id pend := by
    intro op hn hmarks hp
    obtain ⟨before, hbefore, -, rfl⟩ := Engine.pending_origin (h.placed p).sound hn hp
    exact .kept ((hmarks before).symm ▸ hbefore)
  cases hacts.doing with
  | rests => exact .kept hp
  | submits task lower upper =>
    simp only [List.foldl, Exchange.Move.op, Engine.apply, Engine.pending_enqueue] at hp
    split at hp
    · rename_i hid
      cases hp
      exact .submitted (hid ▸ h.fresh ha lower upper p) rfl
    · exact .kept hp
  | polls task => exact hplain (.pop _) rfl (fun _ => rfl) hp
  | takes task going pops =>
    simp only [List.foldl, Exchange.Move.op, Engine.apply, Engine.pending_markSent,
      Engine.pending_popLive] at hp
    split at hp
    · rename_i hid
      obtain ⟨before, -, rfl⟩ := Option.map_eq_some_iff.mp hp
      exact .marked task pops hid.symm rfl
    · exact .kept hp
  | returns task free fails =>
    simp only [List.foldl, Exchange.Move.op, Engine.apply, Engine.pending_requeueFront] at hp
    split at hp
    · rename_i hid
      obtain ⟨before, hbefore, rfl⟩ := Option.map_eq_some_iff.mp hp
      exact .returned task (hacts.gone (by simp) task free fails) hid.symm hbefore rfl
    · exact .kept hp
  | expires task due => exact hplain (.expire _) rfl (fun _ => rfl) hp
  | answers reads answering => exact hplain (.resolve _ _) rfl (fun _ => rfl) hp
  | closes task stopped free => exact hplain (.fail _) rfl (fun _ => rfl) hp

/-- A command goes out as before, or its sender has just taken it. -/
theorem sending_origin {u : TaskId} {q s : Nat} {device : DeviceRecord} {conn : Uuid}
    {item : QueuedCommand} {rest : List Frame}
    (hu : (happen c e).tasks.get? u = some (.sender q s device conn (.sending item rest))) :
    (∃ before, c.tasks.get? u = some (.sender q s device conn (.sending item before))) ∨
    e = .turn u ∧ u ∈ c.ready ∧ c.tasks.get? u = some (.sender q s device conn .idle) ∧
      conn ∉ c.stopping ∧ ((c.engine q).popLive device.deviceId).2 = some item := by
  by_cases hidle : ∃ t, e = .turn t ∧ t ∉ c.ready
  · obtain ⟨t, rfl, ht⟩ := hidle
    rw [happen, give_of_not_mem ht] at hu
    exact Or.inl ⟨rest, hu⟩
  · rcases (happen_follows c e).tasks u _ hu trivial with hold | ⟨t, rfl, hnew⟩
    · exact Or.inl ⟨rest, hold⟩
    · have ht : t ∈ c.ready := by
        by_contra hn
        exact hidle ⟨t, rfl, hn⟩
      cases hnew with
      | took task going pops => exact Or.inr ⟨rfl, ht, task, going, pops⟩
      | sent task => exact Or.inl ⟨_, task⟩

/-- What the consumers have in hand behind some moves. -/
def handsAfter (c : Cluster) (hands : Nat → List (Nat × QueuedCommand)) (p : Nat)
    (ms : List Exchange.Move) (q : Nat) : List (Nat × QueuedCommand) :=
  if q = p then (Exchange.run ⟨c.engine p, hands p⟩ ms).hands else hands q

theorem placed_happen (h : Custody c hands) (ha : Apart c.supply (happen c e).drawn)
    (hacts : Acts c (happen c e) e t p ms) (q : Nat) :
    Exchange.Placed ⟨(happen c e).engine q, handsAfter c hands p ms q⟩ := by
  rw [hacts.operates q, handsAfter]
  by_cases hq : q = p
  · rw [if_pos hq, if_pos hq, ← Exchange.engine_run ⟨c.engine p, hands p⟩ ms]
    exact Exchange.placed_run (h.placed p) (h.orderly ha hacts.doing)
  · rw [if_neg hq, if_neg hq]
    exact h.placed q

theorem known_happen (h : Custody c hands) (hacts : Acts c (happen c e) e t p ms) (q : Nat)
    (id : Uuid) (x : Completion)
    (hx : ((happen c e).engine q).completions.get? id = some x) : (happen c e).InUse id := by
  have hold : ∀ q y, (c.engine q).completions.get? id = some y → (happen c e).InUse id :=
    fun q y hy => (h.known q id y hy).happen e
  rw [hacts.operates q] at hx
  split at hx
  · have hs := (h.placed p).sound
    have hone : ∀ op : Engine.Op, op.submits? = none →
        ((c.engine p).apply op).completions.get? id = some x → (happen c e).InUse id :=
      fun op hn hx => by
        obtain ⟨y, hy⟩ := Engine.completion_origin hs hn hx
        exact hold p y hy
    cases hacts.doing with
    | rests => exact hold p x hx
    | submits task lower upper =>
      simp only [List.foldl, Exchange.Move.op, Engine.apply, Engine.completions_enqueue] at hx
      split at hx
      · rename_i hid
        exact ⟨_, upper, by rw [hid, (happen_follows c e).supply]⟩
      · exact hold p x hx
    | takes task going pops =>
      simp only [List.foldl, Exchange.Move.op, Engine.apply, Engine.completions_markSent,
        Engine.completions_popLive] at hx
      exact hold p x hx
    | polls task => exact hone (.pop _) rfl hx
    | returns task free fails => exact hone (.requeue _) rfl hx
    | expires task due => exact hone (.expire _) rfl hx
    | answers reads answering => exact hone (.resolve _ _) rfl hx
    | closes task stopped free => exact hone (.fail _) rfl hx
  · exact hold q x hx

/-- What a sender that goes on has in hand stays there. -/
theorem inHand_happen (hacts : Acts c (happen c e) e t p ms) {u : TaskId} {q : Nat}
    {item : QueuedCommand} {w : Task} (hhand : (u, item) ∈ hands q)
    (hu : (happen c e).tasks.get? u = some w) : (u, item) ∈ handsAfter c hands p ms q := by
  unfold handsAfter
  split
  · rename_i hq
    subst q
    refine Exchange.mem_hands_run hhand ?_
    rintro m hm other rfl
    cases hacts.doing with
    | returns task free fails =>
      simp only [List.mem_singleton, Exchange.Move.putBack.injEq] at hm
      obtain ⟨rfl, -⟩ := hm
      rw [hacts.gone (by simp) task free fails] at hu
      cases hu
    | _ => simp at hm
  · exact hhand

/-- What goes out on a connection is marked with no other. -/
theorem marked_happen (hh : Housed c) (h : Custody c hands)
    (ha : Apart c.supply (happen c e).drawn) (hacts : Acts c (happen c e) e t p ms) {u : TaskId}
    {q s : Nat} {device : DeviceRecord} {conn : Uuid} {item : QueuedCommand} {rest : List Frame}
    {w : Task} (hbefore : c.tasks.get? u = some (.sender q s device conn (.sending item rest)))
    (hu : (happen c e).tasks.get? u = some w) {pend : Pending}
    (hpend : ((happen c e).engine q).pending.get? item.id = some pend) :
    pend.owner = some conn := by
  obtain ⟨hhand, howner⟩ := h.sending u q s device conn item rest hbefore
  by_cases hq : q = p
  · subst q
    cases h.origin ha hacts hpend with
    | kept same => exact howner pend same
    | submitted fresh free =>
      obtain ⟨x, hx⟩ := (h.placed p).known item (Or.inr ⟨u, hhand⟩)
      rw [fresh] at hx
      cases hx
    | marked task pops named owner =>
      obtain ⟨was, hwas, hfree⟩ := (h.placed p).pops pops
      have hsent := howner was (named ▸ hwas)
      rw [hfree] at hsent
      cases hsent
    | returned task gone named was owner =>
      -- the connection has one sender, and it would be gone
      have hmine := howner _ was
      have hother := (h.sending t p _ _ _ _ _ task).2 _ (named ▸ was)
      rw [hmine, Option.some.injEq] at hother
      subst hother
      obtain rfl : t = u := hh.only t u _ _ _ _ _ _ _ _ _ task hbefore
      rw [gone] at hu
      cases hu
  · rw [hacts.operates q, if_neg hq] at hpend
    exact howner pend hpend

theorem sending_happen (hh : Housed c) (h : Custody c hands)
    (ha : Apart c.supply (happen c e).drawn) (hacts : Acts c (happen c e) e t p ms) {u : TaskId}
    {q s : Nat} {device : DeviceRecord} {conn : Uuid} {item : QueuedCommand} {rest : List Frame}
    (hu : (happen c e).tasks.get? u = some (.sender q s device conn (.sending item rest))) :
    (u, item) ∈ handsAfter c hands p ms q ∧
      ∀ pend, ((happen c e).engine q).pending.get? item.id = some pend →
        pend.owner = some conn := by
  rcases sending_origin hu with ⟨before, hbefore⟩ | ⟨he, hready, task, going, pops⟩
  · have hhand := (h.sending u q s device conn item before hbefore).1
    exact ⟨inHand_happen hacts hhand hu,
      fun pend hpend => marked_happen hh h ha hacts hbefore hu hpend⟩
  · obtain ⟨rfl, rfl, rfl⟩ := hacts.takes u q s device conn item he hready task going pops
    constructor
    · rw [handsAfter, if_pos rfl]
      refine Exchange.mem_hands_next (m := .mark u item conn) ?_ (by simp)
      rw [Exchange.hands_take u pops]
      simp
    · intro pend hpend
      rw [hacts.operates q, if_pos rfl] at hpend
      simp only [List.foldl, Exchange.Move.op, Engine.apply, Engine.pending_markSent, if_true]
        at hpend
      obtain ⟨before, -, rfl⟩ := Option.map_eq_some_iff.mp hpend
      rfl

theorem owned_happen (hh : Housed c) (h : Custody c hands)
    (ha : Apart c.supply (happen c e).drawn) (hacts : Acts c (happen c e) e t p ms) {q : Nat}
    {id : Uuid} {pend : Pending} {conn : Uuid}
    (hpend : ((happen c e).engine q).pending.get? id = some pend) (howner : pend.owner = some conn) :
    Home (happen c e) q conn := by
  by_cases hq : q = p
  · subst q
    cases h.origin ha hacts hpend with
    | kept same => exact (h.owned p id pend conn same howner).happen ha
    | submitted fresh free =>
      rw [free] at howner
      cases howner
    | marked task pops named owner =>
      rw [owner] at howner
      cases howner
      exact (hh.sender t p _ _ _ _ task).1.happen ha
    | returned task gone named was owner =>
      rw [owner] at howner
      cases howner
  · rw [hacts.operates q, if_neg hq] at hpend
    exact (h.owned q id pend conn hpend howner).happen ha

theorem custody_happen (hh : Housed c) (h : Custody c hands)
    (ha : Apart c.supply (happen c e).drawn) : ∃ hands', Custody (happen c e) hands' := by
  obtain ⟨t, p, ms, hacts⟩ := happen_acts hh.numbered e
  exact ⟨handsAfter c hands p ms, placed_happen h ha hacts, known_happen h hacts,
    fun _ _ _ _ _ _ _ hu => sending_happen hh h ha hacts hu,
    fun _ _ _ _ hpend howner => owned_happen hh h ha hacts hpend howner⟩

end Step

/-- Connections are where they belong, and commands with their senders. -/
structure Kept (c : Cluster) : Prop where
  housed : Housed c
  custody : ∃ hands, Custody c hands

theorem kept_initial (supply : Supply) (epoch : Nat) (directory : DirectoryService) :
    Kept (initial supply epoch directory) :=
  ⟨housed_initial supply epoch directory, _, custody_initial supply epoch directory⟩

theorem Kept.happen {c : Cluster} {e : Event} (h : Kept c)
    (ha : Apart c.supply (happen c e).drawn) : Kept (happen c e) := by
  obtain ⟨hands, hk⟩ := h.custody
  exact ⟨housed_happen ha h.housed, custody_happen h.housed hk ha⟩

theorem kept_after {c : Cluster} (h : Kept c) {es : List Event}
    (ha : Apart c.supply (c.after es).drawn) : Kept (c.after es) :=
  preserved_after (P := Kept) (fun _ _ ha h => h.happen ha) ha h

end Cluster

end FleetControl
