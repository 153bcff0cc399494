import FleetControl.Proofs.Cluster.Lifetime
import FleetControl.Proofs.Cluster.Roster

/-! # Where connections belong

A connection gets an identifier of its own when its session starts. From then on it belongs to one
process, one session serves it, and one sender may send on it, the one that the session started. -/
namespace FleetControl

/-- The connection that a session serves, with its process and its socket. -/
def Task.serving? : Task → Option (Nat × Nat × SessionState)
  | .session p s (.receiving state _) => some (p, s, state)
  | .session p s (.draining state _ _) => some (p, s, state)
  | _ => none

namespace Cluster
open Lifetime (Apart)

def serving? (c : Cluster) (t : TaskId) : Option (Nat × Nat × SessionState) :=
  (c.tasks.get? t).bind Task.serving?

/-- An identifier is in use. -/
def InUse (c : Cluster) (id : Uuid) : Prop := ∃ k < c.drawn, id = c.supply.idOf k

/-- A connection is in use, and if a session serves it, it does so in this process. -/
structure Home (c : Cluster) (p : Nat) (conn : Uuid) : Prop where
  used : c.InUse conn
  here : ∀ t q s session, c.serving? t = some (q, s, session) → session.conn = conn → q = p

structure Housed (c : Cluster) : Prop where
  numbered : Numbered c.processes
  room : ∀ t p s session, c.serving? t = some (p, s, session) →
    c.processes.has p = true ∧ c.sockets.has s = true ∧ Home c p session.conn
  alone : ∀ t u p s session q r other, c.serving? t = some (p, s, session) →
    c.serving? u = some (q, r, other) → session.conn = other.conn → t = u
  sender : ∀ u p s device conn phase, c.tasks.get? u = some (.sender p s device conn phase) →
    Home c p conn ∧ ∀ t q r session, c.serving? t = some (q, r, session) →
      session.conn = conn → session.sender = u
  only : ∀ u v p s device conn phase q r device' phase',
    c.tasks.get? u = some (.sender p s device conn phase) →
    c.tasks.get? v = some (.sender q r device' conn phase') → u = v
  registered : ∀ p device conn, conn ∈ (c.connectionsOf p).of device →
    Home c p conn ∧ ∀ t q s session, c.serving? t = some (q, s, session) →
      session.conn = conn → session.device.deviceId = device

theorem housed_initial (supply : Supply) (epoch : Nat) (directory : DirectoryService) :
    Housed (initial supply epoch directory) := by
  constructor <;> simp [initial, Numbered, serving?, connectionsOf, Connections.of, Table.getD,
    Table.get?, Table.has]

section Step
variable {c : Cluster} {e : Event} (ha : Apart c.supply (happen c e).drawn)

theorem InUse.happen {id : Uuid} (h : c.InUse id) (e : Event) : (happen c e).InUse id := by
  have hf := happen_follows c e
  obtain ⟨k, hk, rfl⟩ := h
  exact ⟨k, Nat.lt_of_lt_of_le hk hf.drawn, by rw [hf.supply]⟩

theorem inUse_of_draws {id : Uuid} (h : Draws c (happen c e) id) : (happen c e).InUse id :=
  ⟨c.drawn, h.2, by rw [(happen_follows c e).supply, h.1]⟩

include ha in
/-- What is drawn was not in use. -/
theorem not_inUse_of_draws {id : Uuid} (h : Draws c (happen c e) id) : ¬ c.InUse id := by
  rintro ⟨k, hk, hid⟩
  exact ha k c.drawn hk h.2 (hid.symm.trans h.1)

/-- A session serves its connection as before, or it has just started. -/
theorem serving_origin {t : TaskId} {p s : Nat} {session : SessionState}
    (h : (happen c e).serving? t = some (p, s, session)) :
    (∃ before, c.serving? t = some (p, s, before) ∧ before.conn = session.conn ∧
      before.device = session.device ∧ before.sender = session.sender) ∨
    e = .turn t ∧ c.tasks.get? t = some (.session p s (.starting session.device)) ∧
      c.processes.has p = true ∧ c.sockets.has s = true ∧ Draws c (happen c e) session.conn ∧
      session.sender + 1 = (happen c e).nextTask := by
  obtain ⟨w, hw, hserving⟩ := Option.bind_eq_some_iff.mp h
  have hlasting : w.Lasting := by
    cases w with
    | session q r phase => cases phase <;> trivial
    | _ => cases hserving
  rcases (happen_follows c e).tasks t w hw hlasting with hold | ⟨u, rfl, hnew⟩
  · exact Or.inl ⟨session, by simp [serving?, hold, hserving], rfl, rfl, rfl⟩
  · cases hnew with
    | started task home same draws last =>
      cases hserving
      exact Or.inr ⟨rfl, same ▸ task, home.1, home.2, draws, last⟩
    | @received q r before nonces deadline later task =>
      cases hserving
      exact Or.inl ⟨before, by simp [serving?, task, Task.serving?], rfl, rfl, rfl⟩
    | drained task =>
      cases hserving
      exact Or.inl ⟨_, by simp [serving?, task, Task.serving?], rfl, rfl, rfl⟩
    | admitted task proves => cases hserving
    | joined task draws last => cases hserving
    | took task going pops => cases hserving
    | sent task => cases hserving
    | served task => cases hserving

/-- A sender was there before, or its session has just started. -/
theorem sender_origin {u : TaskId} {p s : Nat} {device : DeviceRecord} {conn : Uuid}
    {phase : SenderPhase}
    (h : (happen c e).tasks.get? u = some (.sender p s device conn phase)) :
    (∃ before, c.tasks.get? u = some (.sender p s device conn before)) ∨
    ∃ t, e = .turn t ∧ c.tasks.get? t = some (.session p s (.starting device)) ∧
      Draws c (happen c e) conn ∧ u + 1 = (happen c e).nextTask := by
  rcases (happen_follows c e).tasks u _ h trivial with hold | ⟨t, rfl, hnew⟩
  · exact Or.inl ⟨phase, hold⟩
  · cases hnew with
    | joined task draws last => exact Or.inr ⟨t, rfl, task, draws, last⟩
    | took task going pops => exact Or.inl ⟨_, task⟩
    | sent task => exact Or.inl ⟨_, task⟩
    | served task => exact Or.inl ⟨_, task⟩

include ha in
/-- Who serves a connection in use served it before. -/
theorem serving_before {conn : Uuid} (hused : c.InUse conn) {t : TaskId} {p s : Nat}
    {session : SessionState} (hs : (happen c e).serving? t = some (p, s, session))
    (hconn : session.conn = conn) :
    ∃ before, c.serving? t = some (p, s, before) ∧ before.conn = conn ∧
      before.device = session.device ∧ before.sender = session.sender := by
  rcases serving_origin hs with ⟨before, hbefore, hsame, hrest⟩ | ⟨-, -, -, -, hdraws, -⟩
  · exact ⟨before, hbefore, hsame.trans hconn, hrest⟩
  · exact absurd (hconn ▸ hused) (not_inUse_of_draws ha hdraws)

include ha in
/-- The senders of a connection in use were there before. -/
theorem sender_before {conn : Uuid} (hused : c.InUse conn) {u : TaskId} {p s : Nat}
    {device : DeviceRecord} {phase : SenderPhase}
    (hu : (happen c e).tasks.get? u = some (.sender p s device conn phase)) :
    ∃ before, c.tasks.get? u = some (.sender p s device conn before) := by
  rcases sender_origin hu with hbefore | ⟨t, -, -, hdraws, -⟩
  · exact hbefore
  · exact absurd hused (not_inUse_of_draws ha hdraws)

include ha in
/-- Who serves a connection that has just been drawn has just started. -/
theorem serving_drawn (hh : Housed c) {conn : Uuid} (hdraws : Draws c (happen c e) conn)
    {t : TaskId} {p s : Nat} {session : SessionState}
    (hs : (happen c e).serving? t = some (p, s, session)) (hconn : session.conn = conn) :
    e = .turn t ∧ c.tasks.get? t = some (.session p s (.starting session.device)) ∧
      session.sender + 1 = (happen c e).nextTask := by
  rcases serving_origin hs with ⟨before, hbefore, hsame, -⟩ | ⟨he, hstarting, -, -, -, hlast⟩
  · obtain ⟨-, -, hhome⟩ := hh.room t p s before hbefore
    exact absurd (hsame.trans hconn ▸ hhome.used) (not_inUse_of_draws ha hdraws)
  · exact ⟨he, hstarting, hlast⟩

include ha in
theorem Home.happen {p : Nat} {conn : Uuid} (h : Home c p conn) : Home (happen c e) p conn where
  used := h.used.happen e
  here t q s session hs hconn := by
    obtain ⟨before, hbefore, hsame, -⟩ := serving_before ha h.used hs hconn
    exact h.here t q s before hbefore hsame

include ha in
/-- A connection that has just been drawn belongs to the process of its session. -/
theorem home_of_draws (hh : Housed c) {t : TaskId} {p s : Nat} {device : DeviceRecord}
    {conn : Uuid} (he : e = .turn t) (ht : c.tasks.get? t = some (.session p s (.starting device)))
    (hdraws : Draws c (happen c e) conn) : Home (happen c e) p conn where
  used := inUse_of_draws hdraws
  here u q r session hs hconn := by
    obtain ⟨hu, hstarting, -⟩ := serving_drawn ha hh hdraws hs hconn
    obtain rfl : t = u := Event.turn.inj (he.symm.trans hu)
    rw [ht] at hstarting
    cases hstarting
    rfl

include ha in
theorem housed_happen (h : Housed c) : Housed (happen c e) where
  numbered := (happen_follows c e).processes.numbered h.numbered
  room t p s session hs := by
    rcases serving_origin hs with ⟨before, hbefore, hsame, -⟩ |
      ⟨he, hstarting, hp, hsocket, hdraws, -⟩
    · obtain ⟨hp, hsocket, hhome⟩ := h.room t p s before hbefore
      exact ⟨(happen_follows c e).processes.kept p hp, (happen_follows c e).sockets s hsocket,
        hsame ▸ hhome.happen ha⟩
    · exact ⟨(happen_follows c e).processes.kept p hp, (happen_follows c e).sockets s hsocket,
        home_of_draws ha h he hstarting hdraws⟩
  alone t u p s session q r other hs ho hconn := by
    rcases serving_origin hs with ⟨before, hbefore, hsame, -⟩ | ⟨he, -, -, -, hdraws, -⟩
    · obtain ⟨-, -, hhome⟩ := h.room t p s before hbefore
      obtain ⟨before', hbefore', hsame', -⟩ :=
        serving_before ha (hsame ▸ hhome.used) ho hconn.symm
      exact h.alone t u p s before q r before' hbefore hbefore' (hsame.trans hsame'.symm)
    · exact Event.turn.inj (he.symm.trans (serving_drawn ha h hdraws ho hconn.symm).1)
  sender u p s device conn phase hu := by
    rcases sender_origin hu with ⟨before, hbefore⟩ | ⟨t, he, hstarting, hdraws, hlast⟩
    · obtain ⟨hhome, hown⟩ := h.sender u p s device conn before hbefore
      refine ⟨hhome.happen ha, fun t q r session hs hconn => ?_⟩
      obtain ⟨old, hold, hsame, -, hsender⟩ := serving_before ha hhome.used hs hconn
      exact hsender.symm.trans (hown t q r old hold hsame)
    · refine ⟨home_of_draws ha h he hstarting hdraws, fun v q r session hs hconn => ?_⟩
      obtain ⟨-, -, hlast'⟩ := serving_drawn ha h hdraws hs hconn
      exact Nat.succ.inj (hlast'.trans hlast.symm)
  only u v p s device conn phase q r device' phase' hu hv := by
    rcases sender_origin hu with ⟨before, hbefore⟩ | ⟨t, -, -, hdraws, hlast⟩
    · have hused := (h.sender u p s device conn before hbefore).1.used
      obtain ⟨before', hbefore'⟩ := sender_before ha hused hv
      exact h.only u v p s device conn before q r device' before' hbefore hbefore'
    · rcases sender_origin hv with ⟨before', hbefore'⟩ | ⟨t', -, -, -, hlast'⟩
      · exact absurd (h.sender v q r device' conn before' hbefore').1.used
          (not_inUse_of_draws ha hdraws)
      · exact Nat.succ.inj (hlast.trans hlast'.symm)
  registered p device conn hc := by
    rcases (happen_follows c e).connections p device conn hc with
      hold | ⟨t, he, s, record, hstarting, hdevice, hdraws⟩
    · obtain ⟨hhome, hdevice⟩ := h.registered p device conn hold
      refine ⟨hhome.happen ha, fun t q s session hs hconn => ?_⟩
      obtain ⟨before, hbefore, hsame, hrecord, -⟩ := serving_before ha hhome.used hs hconn
      exact hrecord ▸ hdevice t q s before hbefore hsame
    · refine ⟨home_of_draws ha h he hstarting hdraws, fun u q r session hs hconn => ?_⟩
      obtain ⟨hu, hstarted, -⟩ := serving_drawn ha h hdraws hs hconn
      obtain rfl : t = u := Event.turn.inj (he.symm.trans hu)
      rw [hstarting] at hstarted
      cases hstarted
      exact hdevice

end Step

theorem drawn_after (c : Cluster) (es : List Event) : c.drawn ≤ (c.after es).drawn := by
  induction es generalizing c with
  | nil => exact Nat.le_refl _
  | cons e es ih => exact Nat.le_trans (happen_follows c e).drawn (ih _)

theorem supply_after (c : Cluster) (es : List Event) : (c.after es).supply = c.supply := by
  induction es generalizing c with
  | nil => rfl
  | cons e es ih => exact (ih _).trans (happen_follows c e).supply

theorem supply_give (c : Cluster) (t : TaskId) : (c.give t).supply = c.supply :=
  (happen_follows c (.turn t)).supply

/-- What each event preserves as long as identifiers differ, a history preserves. -/
theorem preserved_after {P : Cluster → Prop}
    (step : ∀ c e, Apart c.supply (happen c e).drawn → P c → P (happen c e)) {c : Cluster}
    {es : List Event} (ha : Apart c.supply (c.after es).drawn) (h : P c) : P (c.after es) := by
  induction es generalizing c with
  | nil => exact h
  | cons e es ih =>
    have hfirst := step c e (ha.mono (drawn_after (happen c e) es)) h
    exact ih (by rwa [(happen_follows c e).supply]) hfirst

theorem home_after {c : Cluster} {p : Nat} {conn : Uuid} (h : Home c p conn) {es : List Event}
    (ha : Apart c.supply (c.after es).drawn) : Home (c.after es) p conn :=
  preserved_after (P := (Home · p conn)) (fun _ _ ha h => h.happen ha) ha h

end Cluster

end FleetControl
