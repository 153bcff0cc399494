import FleetControl.Proofs.Cluster.Admission
import FleetControl.Proofs.Cluster.CleanUp
import FleetControl.Proofs.Cluster.Custody

/-! # What becomes of commands when their connection closes

A command that a sender took goes out on its connection until a reply or the end of its time limit
decides it, its delivery fails, or the session of the connection ends. -/
namespace FleetControl.Cluster
open Engine (Exchange)
open Lifetime (Apart)

/-- The sender of a connection is about to take a command. -/
def Takes (c : Cluster) (u : TaskId) (conn : Uuid) (item : QueuedCommand) : Prop :=
  u ∈ c.ready ∧ ∃ p s device, c.tasks.get? u = some (.sender p s device conn .idle) ∧
    conn ∉ c.stopping ∧ ((c.engine p).popLive device.deviceId).2 = some item

/-- A pending command is decided by a reply that names it, or by the end of its time limit. -/
def Decides (c : Cluster) (e : Event) (p : Nat) (id : Uuid) : Prop :=
  (∃ pend, (c.engine p).pending.get? id = some pend) ∧
  ((happen c e).engine p).pending.get? id = none ∧
  ∃ t, e = .turn t ∧ t ∈ c.ready ∧
    ((∃ s session raw, Reads c t p s session raw ∧ Answering session raw id) ∨
      ∃ deadline, c.tasks.get? t = some (.expiry p id deadline) ∧ deadline ≤ c.now)

/-- A frame of a command cannot be sent, and the command is put back: it is pending, on no
connection, and ahead of everything that is queued for its device. -/
def PutsBack (c : Cluster) (u : TaskId) (p : Nat) (conn : Uuid) (item : QueuedCommand) : Prop :=
  u ∈ c.ready ∧ ∃ s device f rest pend,
    c.tasks.get? u = some (.sender p s device conn (.sending item (f :: rest))) ∧
    c.blocked s = false ∧ (c.transmit s f).2 = false ∧
    ((c.give u).engine p).queue item.deviceId = item :: (c.engine p).queue item.deviceId ∧
    ((c.give u).engine p).pending.get? item.id = some pend ∧ pend.owner = none

/-- The end of a session fails a command that went out on its connection. -/
def Fails (c : Cluster) (t : TaskId) (p : Nat) (conn id : Uuid) : Prop :=
  ∃ pend, (c.engine p).pending.get? id = some pend ∧ pend.owner = some conn ∧
    ((c.give t).engine p).pending.get? id = none ∧
    ((c.give t).engine p).outcome? id =
      some (.error (.connectionClosed pend.deviceId pend.command))

def Decided (c : Cluster) (es : List Event) (p : Nat) (id : Uuid) : Prop :=
  ∃ before e later, es = before ++ e :: later ∧ Decides (c.after before) e p id

def PutBack (c : Cluster) (es : List Event) (u : TaskId) (p : Nat) (conn : Uuid)
    (item : QueuedCommand) : Prop :=
  ∃ before later, es = before ++ .turn u :: later ∧ PutsBack (c.after before) u p conn item

/-- A command goes out on a connection, whose only sender is `u`. -/
structure Held (c : Cluster) (u : TaskId) (p : Nat) (conn : Uuid) (item : QueuedCommand) : Prop where
  sent : ∃ pend, (c.engine p).pending.get? item.id = some pend ∧ pend.owner = some conn
  mine : ∀ v q s device phase, c.tasks.get? v = some (.sender q s device conn phase) →
    v = u ∧ q = p
  same : ∀ q s device other rest,
    c.tasks.get? u = some (.sender q s device conn (.sending other rest)) →
    other.id = item.id → other = item

/-- A command does not go out on a connection that has no sender. -/
structure Released (c : Cluster) (p : Nat) (conn id : Uuid) : Prop where
  used : c.InUse conn
  unsent : ∀ pend, (c.engine p).pending.get? id = some pend → pend.owner ≠ some conn
  nobody : ∀ v q s device phase, c.tasks.get? v ≠ some (.sender q s device conn phase)

/-- A connection had a session and has none. -/
structure Over (c : Cluster) (conn : Uuid) : Prop where
  used : c.InUse conn
  nobody : ∀ t q s session, c.serving? t = some (q, s, session) → session.conn ≠ conn

section Step
variable {c : Cluster} {e : Event} {hands : Nat → List (Nat × QueuedCommand)} {conn : Uuid}

theorem Over.happen (h : Over c conn) (ha : Apart c.supply (happen c e).drawn) :
    Over (happen c e) conn where
  used := h.used.happen e
  nobody t q s session hs hconn := by
    obtain ⟨before, hbefore, hsame, -⟩ := serving_before ha h.used hs hconn
    exact h.nobody t q s before hbefore hsame

theorem Released.happen (hh : Housed c) (hk : Custody c hands) {p : Nat} {id : Uuid}
    (h : Released c p conn id) (ha : Apart c.supply (happen c e).drawn) :
    Released (happen c e) p conn id where
  used := h.used.happen e
  nobody v q s device phase hv := by
    obtain ⟨before, hbefore⟩ := sender_before ha h.used hv
    exact h.nobody v q s device before hbefore
  unsent pend hpend howner := by
    obtain ⟨t, p', ms, hacts⟩ := happen_acts hh.numbered e
    by_cases hp : p = p'
    · subst p'
      cases hk.origin ha hacts hpend with
      | kept was => exact h.unsent pend was howner
      | submitted fresh free =>
        rw [free] at howner
        cases howner
      | marked task pops named owner =>
        rw [owner] at howner
        cases howner
        exact h.nobody t _ _ _ _ task
      | returned task gone named was owner =>
        rw [owner] at howner
        cases howner
    · rw [hacts.operates p, if_neg hp] at hpend
      exact h.unsent pend hpend howner

/-- Who puts a command back lets go of it. -/
theorem PutsBack.released (hh : Housed c) {u : TaskId} {p : Nat} {item : QueuedCommand}
    (h : PutsBack c u p conn item) (ha : Apart c.supply (c.give u).drawn) :
    Released (c.give u) p conn item.id := by
  obtain ⟨hu, s, device, f, rest, pend, task, free, fails, -, hpend, howner⟩ := h
  have hused := (hh.sender u p s device conn _ task).1.used
  refine ⟨hused.happen (.turn u), ?_, ?_⟩
  · intro pend' hpend' howner'
    rw [hpend] at hpend'
    cases hpend'
    rw [howner] at howner'
    cases howner'
  · intro v q s' device' phase hv
    obtain ⟨before, hbefore⟩ := sender_before (e := .turn u) ha hused hv
    obtain rfl : v = u := hh.only v u _ _ _ _ _ _ _ _ _ hbefore task
    rw [give_returns hu task free fails] at hv
    cases hv

/-- A taken command goes out on the connection. -/
theorem held_of_takes (hh : Housed c) (hk : Custody c hands) {u : TaskId} {item : QueuedCommand}
    (h : Takes c u conn item) (ha : Apart c.supply (c.give u).drawn) :
    ∃ p, Home c p conn ∧ Held (c.give u) u p conn item := by
  obtain ⟨hu, p, s, device, task, going, pops⟩ := h
  have hhome := (hh.sender u p s device conn _ task).1
  refine ⟨p, hhome, ?_, ?_, ?_⟩
  · obtain ⟨pend, hpend, -⟩ := (hk.placed p).pops pops
    refine ⟨{ pend with owner := some conn }, ?_, rfl⟩
    rw [give_takes hu task going pops p, if_pos rfl]
    simp only [List.foldl, Exchange.Move.op, Engine.apply, Engine.pending_markSent, if_true,
      Engine.pending_popLive]
    exact congrArg (Option.map _) hpend
  · intro v q s' device' phase hv
    obtain ⟨before, hbefore⟩ := sender_before (e := .turn u) ha hhome.used hv
    obtain rfl : v = u := hh.only v u _ _ _ _ _ _ _ _ _ hbefore task
    rw [task] at hbefore
    cases hbefore
    exact ⟨rfl, rfl⟩
  · rintro q s' device' other rest hother -
    rcases sending_origin (e := .turn u) hother with ⟨before, hbefore⟩ | ⟨-, -, task', -, pops'⟩
    · rw [task] at hbefore
      cases hbefore
    · rw [task] at task'
      cases task'
      exact Option.some.inj (pops'.symm.trans pops)

/-- When a session has ended, its connection is over. -/
theorem over_of_ends (hh : Housed c) {t : TaskId} {p s : Nat} {session : SessionState}
    (hs : c.serving? t = some (p, s, session)) (he : Ends c t)
    (ha : Apart c.supply (c.give t).drawn) : Over (c.give t) session.conn := by
  have hused := (hh.room t p s session hs).2.2.used
  refine ⟨hused.happen (.turn t), fun u q r other hu hconn => ?_⟩
  obtain ⟨before, hbefore, hsame, -⟩ := serving_before (e := .turn t) ha hused hu hconn
  obtain rfl : u = t := hh.alone u t q r before p s session hbefore hs hsame
  have hgone : (c.give u).serving? u = none := by
    rw [serving?, give_over he.1 he.2]
    rfl
  rw [hgone] at hu
  cases hu

/-- What goes out on a connection is not handed out again. -/
theorem Held.not_popped (hk : Custody c hands) {u : TaskId} {p : Nat} {item : QueuedCommand}
    (h : Held c u p conn item) {device : String} {other : QueuedCommand}
    (pops : ((c.engine p).popLive device).2 = some other) : item.id ≠ other.id := by
  intro hid
  obtain ⟨pend, hpend, howner⟩ := h.sent
  obtain ⟨was, hwas, hfree⟩ := (hk.placed p).pops pops
  obtain rfl : was = pend := Option.some.inj (hwas.symm.trans (hid ▸ hpend))
  rw [howner] at hfree
  cases hfree

theorem Held.keep (hk : Custody c hands) {u : TaskId} {p : Nat} {item : QueuedCommand}
    (h : Held c u p conn item) (ha : Apart c.supply (happen c e).drawn) {pend : Pending}
    (hpend : (c.engine p).pending.get? item.id = some pend) (howner : pend.owner = some conn)
    (hkept : ((happen c e).engine p).pending.get? item.id = some pend) :
    Held (happen c e) u p conn item where
  sent := ⟨pend, hkept, howner⟩
  mine v q s device phase hv := by
    have hused := (hk.owned p item.id pend conn hpend howner).used
    obtain ⟨before, hbefore⟩ := sender_before ha hused hv
    exact h.mine v q s device before hbefore
  same q s device other rest hother hid := by
    rcases sending_origin hother with ⟨before, hbefore⟩ | ⟨-, -, task, -, pops⟩
    · exact h.same q s device other before hbefore hid
    · obtain ⟨-, rfl⟩ := h.mine u q s device .idle task
      exact absurd hid.symm (h.not_popped hk pops)

/-- The sender of a command that cannot be sent puts it back. -/
theorem Held.putsBack (hk : Custody c hands) {u : TaskId} {p : Nat} {item : QueuedCommand}
    (h : Held c u p conn item) {t : TaskId} {s : Nat} {device : DeviceRecord} {conn' : Uuid}
    {other : QueuedCommand} {f : Frame} {rest : List Frame} (ht : t ∈ c.ready)
    (task : c.tasks.get? t = some (.sender p s device conn' (.sending other (f :: rest))))
    (free : c.blocked s = false) (fails : (c.transmit s f).2 = false)
    (hops : Operates c (c.give t) p [.putBack t other]) (hid : other.id = item.id) :
    t = u ∧ PutsBack c u p conn item := by
  obtain ⟨pend, hpend, howner⟩ := h.sent
  have hother := (hk.sending t p s device conn' other _ task).2 pend (hid ▸ hpend)
  obtain rfl : conn = conn' := Option.some.inj (howner.symm.trans hother)
  obtain ⟨rfl, -⟩ := h.mine t p s device _ task
  obtain rfl : other = item := h.same p s device other _ task hid
  have hengine := hops p
  rw [if_pos rfl] at hengine
  refine ⟨rfl, ht, s, device, f, rest, { pend with owner := none }, task, free, fails, ?_, ?_, rfl⟩
  · rw [hengine]
    simp [Exchange.Move.op, Engine.apply, Engine.queue_requeueFront]
  · rw [hengine]
    simp [Exchange.Move.op, Engine.apply, Engine.pending_requeueFront, hpend]

/-- What an event may do to a command that goes out. -/
theorem held_step (hh : Housed c) (hk : Custody c hands) {u : TaskId} {p : Nat}
    {item : QueuedCommand} (h : Held c u p conn item) (ha : Apart c.supply (happen c e).drawn) :
    Held (happen c e) u p conn item ∨ Decides c e p item.id ∨
      (e = .turn u ∧ PutsBack c u p conn item) ∨ Over (happen c e) conn := by
  obtain ⟨pend, hpend, howner⟩ := h.sent
  have hkeep := h.keep hk ha hpend howner
  have hs := (hk.placed p).sound
  obtain ⟨t, p', ms, hacts⟩ := happen_acts hh.numbered e
  have hengine := hacts.operates p
  by_cases hp : p = p'
  · subst p'
    rw [if_pos rfl] at hengine
    -- in each case the command is another one, and stays as it is, or this one
    cases hacts.doing with
    | rests => exact Or.inl (hkeep (hengine ▸ hpend))
    | @submits k device command blob timeout now task lower upper =>
      have hid : item.id ≠ c.supply.idOf k := by
        intro hid
        have hknown := hs.unresolved item.id pend hpend
        rw [hid, hk.fresh ha lower upper p] at hknown
        cases hknown
      refine Or.inl (hkeep ?_)
      rw [hengine]
      simpa [Exchange.Move.op, Engine.apply, Engine.pending_enqueue, hid] using hpend
    | polls task =>
      refine Or.inl (hkeep ?_)
      rw [hengine]
      simpa [Exchange.Move.op, Engine.apply] using hpend
    | takes task going pops =>
      refine Or.inl (hkeep ?_)
      rw [hengine]
      simpa [Exchange.Move.op, Engine.apply, Engine.pending_markSent, h.not_popped hk pops] using hpend
    | @returns s device conn' other f rest task free fails =>
      by_cases hid : other.id = item.id
      · obtain ⟨rfl, ht⟩ := hacts.turn.resolve_left (by simp)
        obtain ⟨rfl, hputs⟩ := h.putsBack hk ht task free fails hacts.operates hid
        exact Or.inr (Or.inr (Or.inl ⟨rfl, hputs⟩))
      · refine Or.inl (hkeep ?_)
        rw [hengine]
        simpa [Exchange.Move.op, Engine.apply, Engine.pending_requeueFront, Ne.symm hid] using hpend
    | @expires id deadline task due =>
      have hfresh : (Engine.Op.expire id).Fresh (c.engine p) := trivial
      have hnext := Engine.apply_pending hs hfresh hpend
      by_cases hid : id = item.id
      · obtain ⟨rfl, ht⟩ := hacts.turn.resolve_left (by simp)
        refine Or.inr (Or.inl ⟨⟨pend, hpend⟩, ?_, t, rfl, ht, Or.inr ⟨deadline, hid ▸ task, due⟩⟩)
        rw [hengine]
        exact hid ▸ Engine.pending_expire id
      · simp only [Engine.Op.decides?, if_neg hid] at hnext
        exact Or.inl (hkeep (hengine ▸ hnext.1))
    | @answers s session raw id outcome reads answering =>
      by_cases hid : id = item.id
      · obtain ⟨rfl, ht⟩ := hacts.turn.resolve_left (by simp)
        refine Or.inr (Or.inl ⟨⟨pend, hpend⟩, ?_, t, rfl, ht,
          Or.inl ⟨s, session, raw, reads, hid ▸ answering⟩⟩)
        rw [hengine]
        simp [Exchange.Move.op, Engine.apply, Engine.pending_resolve, hid]
      · refine Or.inl (hkeep ?_)
        rw [hengine]
        simpa [Exchange.Move.op, Engine.apply, Engine.pending_resolve, Ne.symm hid] using hpend
    | @closes s session reason deadline task stopped free =>
      obtain ⟨rfl, ht⟩ := hacts.turn.resolve_left (by simp)
      by_cases hconn : session.conn = conn
      · have hserving : c.serving? t = some (p, s, session) := by
          simp [serving?, task, Task.serving?]
        exact Or.inr (Or.inr (Or.inr
          (hconn ▸ over_of_ends hh hserving (ends_of_stopped ht task stopped free) ha)))
      · have hnext := Engine.failConnection_spec hs session.conn hpend
        rw [howner, if_neg fun h => hconn (Option.some.inj h).symm] at hnext
        exact Or.inl (hkeep (hengine ▸ hnext.1))
  · rw [if_neg hp] at hengine
    exact Or.inl (hkeep (hengine ▸ hpend))

end Step

section Run
variable {c : Cluster} {conn : Uuid} {es : List Event}

theorem over_after (h : Over c conn) (ha : Apart c.supply (c.after es).drawn) :
    Over (c.after es) conn :=
  preserved_after (P := (Over · conn)) (fun _ _ ha h => h.happen ha) ha h

theorem released_after (hc : Kept c) {p : Nat} {id : Uuid} (h : Released c p conn id)
    (ha : Apart c.supply (c.after es).drawn) : Released (c.after es) p conn id := by
  -- the step needs what holds of the cluster in general
  have hboth : Kept (c.after es) ∧ Released (c.after es) p conn id := by
    refine preserved_after (P := fun c => Kept c ∧ Released c p conn id) ?_ ha ⟨hc, h⟩
    rintro c e ha ⟨hc, h⟩
    obtain ⟨hands, hk⟩ := hc.custody
    exact ⟨hc.happen ha, h.happen hc.housed hk ha⟩
  exact hboth.2

/-- A command that goes out still does so, or it was decided, or it was put back, or the session of
the connection has ended. -/
theorem held_after (hc : Kept c) {u : TaskId} {p : Nat} {item : QueuedCommand}
    (h : Held c u p conn item) (ha : Apart c.supply (c.after es).drawn) :
    Held (c.after es) u p conn item ∨ Decided c es p item.id ∨ PutBack c es u p conn item ∨
      Over (c.after es) conn := by
  induction es generalizing c with
  | nil => exact Or.inl h
  | cons e es ih =>
    have hfirst := ha.mono (drawn_after (happen c e) es)
    have hlater : Apart (happen c e).supply ((happen c e).after es).drawn := by
      rwa [(happen_follows c e).supply]
    obtain ⟨hands, hk⟩ := hc.custody
    rcases held_step hc.housed hk h hfirst with hheld | hdecides | ⟨rfl, hputs⟩ | hover
    · rcases ih (hc.happen hfirst) hheld hlater with hheld | hdecided | hback | hover
      · exact Or.inl hheld
      · obtain ⟨before, e', later, rfl, hdecides⟩ := hdecided
        exact Or.inr (Or.inl ⟨e :: before, e', later, rfl, hdecides⟩)
      · obtain ⟨before, later, rfl, hputs⟩ := hback
        exact Or.inr (Or.inr (Or.inl ⟨e :: before, later, rfl, hputs⟩))
      · exact Or.inr (Or.inr (Or.inr hover))
    · exact Or.inr (Or.inl ⟨[], e, es, rfl, hdecides⟩)
    · exact Or.inr (Or.inr (Or.inl ⟨[], es, rfl, hputs⟩))
    · have hlast : Over ((happen c e).after es) conn := over_after hover hlater
      exact Or.inr (Or.inr (Or.inr hlast))

/-- What was put back does not go out on the connection again. -/
theorem PutBack.unsent (hc : Kept c) {u : TaskId} {p : Nat} {item : QueuedCommand}
    (h : PutBack c es u p conn item) (ha : Apart c.supply (c.after es).drawn) {pend : Pending}
    (hpend : ((c.after es).engine p).pending.get? item.id = some pend) :
    pend.owner ≠ some conn := by
  obtain ⟨before, later, rfl, hputs⟩ := h
  rw [after_append] at ha hpend
  have hb : Kept (c.after before) := kept_after hc (ha.mono (drawn_after _ _))
  have hlater : Apart (c.after before).supply ((c.after before).after (.turn u :: later)).drawn := by
    rwa [supply_after]
  have hgive : Apart (c.after before).supply ((c.after before).give u).drawn :=
    hlater.mono (drawn_after ((c.after before).give u) later)
  have hg : Kept ((c.after before).give u) := hb.happen (e := .turn u) hgive
  have hend : Apart ((c.after before).give u).supply
      (((c.after before).give u).after later).drawn := by
    rw [supply_give]
    exact hlater
  exact (released_after hg (hputs.released hb.housed hgive) hend).unsent pend hpend

end Run

section End
variable {c : Cluster} {hands : Nat → List (Nat × QueuedCommand)} {t : TaskId} {p s : Nat}
  {session : SessionState}

/-- What still goes out when the session ends fails. -/
theorem fails_of_held (hk : Custody c hands) (hc : Cleans c (c.give t) p session) {u : TaskId}
    {item : QueuedCommand} (h : Held c u p session.conn item) :
    Fails c t p session.conn item.id := by
  obtain ⟨pend, hpend, howner⟩ := h.sent
  have hspec := Engine.failConnection_spec (hk.placed p).sound session.conn hpend
  rw [if_pos howner] at hspec
  refine ⟨pend, hpend, howner, ?_, ?_⟩
  · rw [hc.engine p, if_pos rfl]
    exact hspec.1
  · rw [hc.engine p, if_pos rfl]
    exact Engine.outcome?_of_resolved hspec.2

/-- Nothing of the connection is left. -/
theorem nothing_left (hh : Housed c) (hk : Custody c hands)
    (hs : c.serving? t = some (p, s, session)) (hc : Cleans c (c.give t) p session) :
    (∀ q id pend, ((c.give t).engine q).pending.get? id = some pend →
      pend.owner ≠ some session.conn) ∧
    (c.give t).bodiesOf session.conn = Reassembly.empty ∧
    ∀ q device, session.conn ∉ ((c.give t).connectionsOf q).of device := by
  refine ⟨fun q id pend hpend howner => ?_, ?_, fun q device hmem => ?_⟩
  · rw [hc.engine q] at hpend
    split at hpend
    · have hnone : (Engine.Op.fail session.conn).submits? = none := rfl
      obtain ⟨before, hbefore, hopen, hsame⟩ :=
        Engine.pending_origin (hk.placed p).sound hnone hpend
      obtain rfl : pend = before := hsame
      simp [Engine.Op.decides?, howner] at hopen
    · rename_i hq
      exact hq ((hk.owned q id pend session.conn hpend howner).here t p s session hs rfl).symm
  · rw [bodiesOf, hc.bodies, Table.getD, Table.get?_erase, if_pos rfl]
    rfl
  · rw [hc.connections q] at hmem
    split at hmem
    · rename_i hq
      rw [Connections.mem_unregister] at hmem
      have hdevice := (hh.registered p device session.conn hmem.1).2 t p s session hs rfl
      exact hmem.2 ⟨hdevice.symm, rfl⟩
    · rename_i hq
      exact hq ((hh.registered q device session.conn hmem).1.here t p s session hs rfl).symm

/-- What becomes of a command that was taken, when the session of its connection ends later. -/
theorem fate_of_takes (hc : Kept c) {u : TaskId} {item : QueuedCommand} {later : List Event}
    (htakes : Takes c u session.conn item)
    (ha : Apart c.supply (c.after (.turn u :: later)).drawn)
    (hs : (c.after (.turn u :: later)).serving? t = some (p, s, session))
    (hends : Ends (c.after (.turn u :: later)) t) :
    (Decided (c.give u) later p item.id ∨
      Fails (c.after (.turn u :: later)) t p session.conn item.id ∨
      PutBack (c.give u) later u p session.conn item) ∧
    ¬ (Fails (c.after (.turn u :: later)) t p session.conn item.id ∧
      PutBack (c.give u) later u p session.conn item) := by
  have hfirst : Apart c.supply (c.give u).drawn := ha.mono (drawn_after (c.give u) later)
  have hlater : Apart (c.give u).supply ((c.give u).after later).drawn := by
    rw [supply_give]
    exact ha
  have hg : Kept (c.give u) := hc.happen (e := .turn u) hfirst
  obtain ⟨hands, hk⟩ := hc.custody
  obtain ⟨q, hhome, hheld⟩ := held_of_takes hc.housed hk htakes hfirst
  obtain rfl : p = q := (home_after hhome ha).here t p s session hs rfl
  constructor
  · rcases held_after hg hheld hlater with hheld | hdecided | hback | hover
    · obtain ⟨hh, hands', hk'⟩ := kept_after hc ha
      obtain ⟨hp, hsocket, -⟩ := hh.room t p s session hs
      exact Or.inr (Or.inl (fails_of_held hk' (cleans_of_ends hs hp hsocket hends) hheld))
    · exact Or.inl hdecided
    · exact Or.inr (Or.inr hback)
    · exact absurd rfl (hover.nobody t p s session hs)
  · rintro ⟨⟨pend, hpend, howner, -⟩, hback⟩
    exact hback.unsent hg hlater hpend howner

end End

/-- However a session ends: a command that its sender took is decided earlier, or fails with the
session, or was put back in front of its queue, and the last two exclude each other. Other
connections and all queues are left alone, and nothing of the connection remains. -/
theorem closing_loses_nothing (supply : Supply) (epoch : Nat) (directory : DirectoryService)
    (es : List Event) (t : TaskId) (p s : Nat) (session : SessionState) :
    let start := initial supply epoch directory
    let c := start.after es
    Apart supply c.drawn → c.serving? t = some (p, s, session) → Ends c t →
    (∀ before u later item, es = before ++ .turn u :: later →
      Takes (start.after before) u session.conn item →
      let taken := start.after (before ++ [.turn u])
      (Decided taken later p item.id ∨ Fails c t p session.conn item.id ∨
        PutBack taken later u p session.conn item) ∧
      ¬ (Fails c t p session.conn item.id ∧ PutBack taken later u p session.conn item)) ∧
    ((∀ q device, ((c.give t).engine q).queue device = (c.engine q).queue device) ∧
      (∀ q id, (∀ pend, (c.engine q).pending.get? id = some pend →
          pend.owner ≠ some session.conn) →
        ((c.give t).engine q).pending.get? id = (c.engine q).pending.get? id ∧
        ((c.give t).engine q).outcome? id = (c.engine q).outcome? id) ∧
      ∀ other, other ≠ session.conn → (c.give t).bodiesOf other = c.bodiesOf other ∧
        ∀ q device, other ∈ ((c.give t).connectionsOf q).of device ↔
          other ∈ (c.connectionsOf q).of device) ∧
    (∀ q id pend, ((c.give t).engine q).pending.get? id = some pend →
      pend.owner ≠ some session.conn) ∧
    (c.give t).bodiesOf session.conn = Reassembly.empty ∧
    ∀ q device, session.conn ∉ ((c.give t).connectionsOf q).of device := by
  intro start c ha hs hends
  have hstart : Kept start := kept_initial supply epoch directory
  obtain ⟨hh, hands, hk⟩ := kept_after hstart ha
  obtain ⟨hp, hsocket, -⟩ := hh.room t p s session hs
  have hc := cleans_of_ends hs hp hsocket hends
  refine ⟨?_, hc.untouched (hk.placed p).sound, nothing_left hh hk hs hc⟩
  intro before u later item hes htakes taken
  have hlast : c = (start.after before).after (.turn u :: later) := by rw [← after_append, ← hes]
  have htaken : taken = (start.after before).give u := after_append start before [.turn u]
  have hsupply : (start.after before).supply = supply := supply_after start before
  have hbefore : Apart supply (start.after before).drawn :=
    ha.mono (hlast ▸ drawn_after (start.after before) (.turn u :: later))
  have hkept := kept_after hstart hbefore
  rw [htaken, hlast]
  rw [hlast] at ha hs hends
  rw [← hsupply] at ha
  exact fate_of_takes hkept htakes ha hs hends

instance (c : Cluster) (t : TaskId) : Decidable (Ends c t) :=
  inferInstanceAs (Decidable (_ ∧ _))

/-- The connection of a sender that is about to take a command, with the command. -/
def taking? (c : Cluster) (u : TaskId) : Option (Uuid × QueuedCommand) :=
  match c.tasks.get? u with
  | some (.sender p _ device conn .idle) =>
    if u ∈ c.ready ∧ conn ∉ c.stopping then
      ((c.engine p).popLive device.deviceId).2.map fun item => (conn, item)
    else none
  | _ => none

theorem takes_of_taking? {c : Cluster} {u : TaskId} {conn : Uuid} {item : QueuedCommand}
    (h : c.taking? u = some (conn, item)) : Takes c u conn item := by
  unfold taking? at h
  split at h
  · rename_i p s device conn' task
    split at h
    · rename_i hgo
      obtain ⟨item', hpops, he⟩ := Option.map_eq_some_iff.mp h
      cases he
      exact ⟨hgo.1, p, s, device, task, hgo.2, hpops⟩
    · cases h
  · cases h

def called : List Event := [.call 0 firstFrame (.sendCommand (.shell "uptime") none none), .turn 4]

/-- A command is sent, the next one cannot be sent any more, and the connection closes. -/
def unplugged : List Event :=
  [.turn 3, .turn 3, .call 0 firstFrame (.sendCommand (.shell "reboot") none none), .turn 6,
    .deafen 0, .turn 3, .turn 3, .arrive 0 .closed, .turn 0]

theorem after_unplugged :
    (initial counted 0 twoFrames).after (joining ++ called ++ .turn 3 :: unplugged) =
      firstJoined.after (called ++ .turn 3 :: unplugged) := by
  rw [List.append_assoc, after_joining]

theorem apart_counted : Apart counted 6 := by
  intro i j hij hj h
  have hbits := congrArg (fun id => id.bits.toNat) h
  simp only [counted, BitVec.toNat_ofNat] at hbits
  omega

theorem apart_unplugged : Apart counted
    ((initial counted 0 twoFrames).after (joining ++ called ++ .turn 3 :: unplugged)).drawn := by
  have hdrawn : (firstJoined.after (called ++ .turn 3 :: unplugged)).drawn = 6 := by decide +kernel
  rw [after_unplugged, hdrawn]
  exact apart_counted

theorem ends_unplugged :
    Ends ((initial counted 0 twoFrames).after (joining ++ called ++ .turn 3 :: unplugged)) 0 := by
  rw [after_unplugged]
  decide +kernel

theorem serving_unplugged : ∃ session, session.conn = ⟨1⟩ ∧
    ((initial counted 0 twoFrames).after (joining ++ called ++ .turn 3 :: unplugged)).serving? 0 =
      some (0, 0, session) := by
  have hserved : ((firstJoined.after (called ++ .turn 3 :: unplugged)).serving? 0).map
      (fun x => (x.1, x.2.1, x.2.2.conn)) = some (0, 0, ⟨1⟩) := by decide +kernel
  obtain ⟨⟨p, s, session⟩, hserving, hparts⟩ := Option.map_eq_some_iff.mp hserved
  obtain ⟨rfl, rfl, hconn⟩ : p = 0 ∧ s = 0 ∧ session.conn = ⟨1⟩ := by simpa using hparts
  refine ⟨session, hconn, ?_⟩
  rw [after_unplugged]
  exact hserving

theorem takes_called :
    ∃ item, Takes ((initial counted 0 twoFrames).after (joining ++ called)) 3 ⟨1⟩ item := by
  have htaking : ((firstJoined.after called).taking? 3).map (·.1) = some ⟨1⟩ := by decide +kernel
  obtain ⟨⟨conn, item⟩, htaken, hconn⟩ := Option.map_eq_some_iff.mp htaking
  obtain rfl : conn = ⟨1⟩ := hconn
  refine ⟨item, ?_⟩
  rw [after_joining]
  exact takes_of_taking? htaken

theorem closing_loses_nothing_unplugged : ∃ session item,
    let start := initial counted 0 twoFrames
    let taken := start.after (joining ++ called ++ [.turn 3])
    let c := start.after (joining ++ called ++ .turn 3 :: unplugged)
    Apart counted c.drawn ∧ c.serving? 0 = some (0, 0, session) ∧ Ends c 0 ∧
    Takes (start.after (joining ++ called)) 3 session.conn item ∧
    (Decided taken unplugged 0 item.id ∨ Fails c 0 0 session.conn item.id ∨
      PutBack taken unplugged 3 0 session.conn item) ∧
    ¬ (Fails c 0 0 session.conn item.id ∧ PutBack taken unplugged 3 0 session.conn item) ∧
    (c.give 0).bodiesOf session.conn = Reassembly.empty ∧
    ∀ q device, session.conn ∉ ((c.give 0).connectionsOf q).of device := by
  obtain ⟨session, hconn, hserving⟩ := serving_unplugged
  obtain ⟨item, htakes⟩ := takes_called
  rw [← hconn] at htakes
  obtain ⟨hfates, -, -, hbodies, hconnections⟩ := closing_loses_nothing counted 0 twoFrames
    (joining ++ called ++ .turn 3 :: unplugged) 0 0 0 session apart_unplugged hserving
    ends_unplugged
  obtain ⟨hfate, hone⟩ := hfates (joining ++ called) 3 unplugged item (Eq.refl _) htakes
  refine ⟨session, item, ?_⟩
  intro start taken c
  exact ⟨apart_unplugged, hserving, ends_unplugged, htakes, hfate, hone, hbodies, hconnections⟩

end FleetControl.Cluster
