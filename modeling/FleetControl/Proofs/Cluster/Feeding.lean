import FleetControl.Proofs.Cluster.Belonging
import FleetControl.Proofs.Cluster.Places

/-! # Who sends commands on a socket

A socket has one sender at most, the one that the session of the socket has started. While that
sender is there, the session is past its handshake. -/
namespace FleetControl

/-- What a session keeps once its connection is registered. -/
def SessionPhase.state? : SessionPhase → Option SessionState
  | .receiving state _ => some state
  | .draining state _ _ => some state
  | _ => none

theorem SessionPhase.Leads.keeps {first next : TaskId} {phase later : SessionPhase}
    (h : Leads first next phase later) {state : SessionState} (hs : phase.state? = some state) :
    ∃ state', later.state? = some state' ∧ state'.sender = state.sender := by
  cases h <;> cases hs <;> exact ⟨_, rfl, rfl⟩

namespace Cluster
open Function (update)

/-- A sender sends the commands for a device on its socket. -/
def Feeds (c : Cluster) (v : TaskId) (s : Nat) : Prop :=
  ∃ p device conn phase, c.tasks.get? v = some (.sender p s device conn phase)

/-- A socket that has a sender has no other one, and no session but the one that started it. -/
structure Fed (c : Cluster) : Prop where
  seated : Seated c
  known : ∀ v s, c.Feeds v s → v < c.nextTask ∧ c.sockets.has s = true
  session : ∀ v t p s phase, c.Feeds v s → c.session? t = some (p, s, phase) →
    ∃ state, phase.state? = some state ∧ state.sender = v
  only : ∀ v w s, c.Feeds v s → c.Feeds w s → v = w

theorem fed_initial (supply : Supply) (epoch : Nat) (directory : DirectoryService) :
    Fed (initial supply epoch directory) := by
  refine ⟨seated_initial supply epoch directory, ?_, ?_, ?_⟩ <;> simp [initial, Feeds, Table.get?]

theorem Keeps.conclude {c : Cluster} {r : Cluster × Turn} (h : Keeps c r.1) (t : TaskId) :
    Keeps c (Cluster.conclude t r) := by
  obtain ⟨c', ends⟩ := r
  cases ends with
  | again => exact h.still (.of_same ⟨rfl, rfl, rfl, rfl, rfl⟩)
  | waits => exact h
  | _ => exact h.keeps (keeps_finish c' t)

section Step
variable {c : Cluster} {e : Event} {p s : Nat} {t v : TaskId}

/-- A session starts with a sender of its own, or the turn brings no sender. -/
theorem starts_of_starting (h : Seated c) {device : DeviceRecord}
    (own : c.session? t = some (p, s, .starting device)) : Keeps c (c.give t) ∨
    ∃ state deadline, (c.give t).session? t = some (p, s, .receiving state deadline) ∧
      state.sender + 1 = (c.give t).nextTask ∧ c.nextTask ≤ state.sender := by
  by_cases hready : t ∈ c.ready
  · let lifted : Cluster := { c with ready := c.ready.erase t }
    have hp := h.home t p s _ own rfl
    obtain ⟨q, hq⟩ := (Table.has_iff _ _).mp hp
    obtain ⟨socket, hsocket⟩ := (Table.has_iff _ _).mp (h.socket t p s _ own)
    have hset : lifted.settingsOf? p = some q.settings := congrArg _ hq
    have hturn : turn lifted t = lifted.startingTurn t p s q.settings device := by
      simp only [turn, show lifted.tasks.get? t = _ from session_iff.mp own, sessionTurn, hset,
        show lifted.sockets.get? s = _ from hsocket]
    have hgive := give_of_mem hready
    rw [hturn] at hgive
    rcases startingTurn_cases lifted t p s q.settings device hp with
      hkeeps | ⟨c₁, interval, due, state, deadline, -, -, -, hsender, -, he⟩
    · have hlifted : Still c lifted := .of_same ⟨rfl, rfl, rfl, rfl, rfl⟩
      have hsame : Keeps c (lifted.startingTurn t p s q.settings device).1 :=
        hlifted.keeps.keeps hkeeps
      rw [hgive]
      exact Or.inl (hsame.conclude t)
    · rw [he] at hgive
      have hafter : (c.give t).session? t = some (p, s, .receiving state deadline) := by
        rw [hgive, session_iff]
        exact Table.get?_put_self _ _ _
      refine Or.inr ⟨state, deadline, hafter, ?_, ?_⟩
      · rw [hgive, hsender]
        rfl
      · cases h.fate_give own with
        | stays comes =>
          rw [comes.sessions, own] at hafter
          cases hafter
        | goes own' leads comes =>
          rw [own] at own'
          cases own'
          rw [comes.sessions, Function.update_self] at hafter
          cases hafter
          cases leads with
          | started sender heartbeat => exact sender.1
        | opens own' capacity begun room comes =>
          rw [own] at own'
          cases own'
        | lost own' comes =>
          rw [own] at own'
          cases own'
        | ends own' begun comes =>
          rw [comes.sessions, Function.update_self] at hafter
          cases hafter
  · rw [give_of_not_mem hready]
    exact Or.inl (Still.refl c).keeps

/-- A sender is where it was, had its turn, or is the one of a session that has just started. -/
theorem sender_after (h : Seated c) {device : DeviceRecord} {conn : Uuid}
    {phase : SenderPhase}
    (hv : (happen c e).tasks.get? v = some (.sender p s device conn phase)) :
    c.tasks.get? v = some (.sender p s device conn phase) ∨
    (e = .turn v ∧ ∃ before, c.tasks.get? v = some (.sender p s device conn before)) ∨
    ∃ t state deadline, c.session? t = some (p, s, .starting device) ∧
      (happen c e).session? t = some (p, s, .receiving state deadline) ∧ state.sender = v ∧
      v < (happen c e).nextTask ∧ c.nextTask ≤ v := by
  rcases (happen_follows c e).tasks v _ hv trivial with hold | ⟨t, rfl, hnew⟩
  · exact Or.inl hold
  · cases hnew with
    | took task going pops => exact Or.inr (Or.inl ⟨rfl, _, task⟩)
    | sent task => exact Or.inr (Or.inl ⟨rfl, _, task⟩)
    | served task => exact Or.inr (Or.inl ⟨rfl, _, task⟩)
    | joined task draws last =>
      have own := session_iff.mpr task
      rcases starts_of_starting h own with hkeeps | ⟨state, deadline, hafter, hlast, hfirst⟩
      · exact Or.inl ((hkeeps.tasks v _ hv trivial).resolve_right id)
      · obtain rfl : state.sender = v := Nat.succ.inj (hlast.trans last.symm)
        exact Or.inr (Or.inr ⟨t, state, deadline, own, hafter, rfl,
          Nat.lt_of_succ_le (Nat.le_of_eq hlast), hfirst⟩)

/-- A session that has a socket now had it before, or the socket is new. -/
theorem session_origin (h : Seated c) {phase : SessionPhase}
    (ht : (happen c e).session? t = some (p, s, phase)) :
    (∃ old, c.session? t = some (p, s, old)) ∨ s = c.sockets.length := by
  by_cases hlt : t < c.nextTask
  · obtain ⟨old, hold, -⟩ := session_before h hlt ht
    exact Or.inl ⟨old, hold⟩
  · have hnone := h.manned.fresh.session (Nat.le_of_not_lt hlt)
    cases h.happens e with
    | leaves comes =>
      rw [comes.sessions, hnone] at ht
      cases ht
    | turn event fate =>
      obtain ⟨new, hsessions, hnew⟩ := fate.sessions
      rw [hsessions, Function.update_apply] at ht
      split at ht
      · rename_i htu
        obtain ⟨old, hold, -⟩ := hnew p s phase ht
        exact Or.inl ⟨old, htu ▸ hold⟩
      · cases hnone.symm.trans ht
    | @connects q address event =>
      subst event
      change (c.connect q address).1.session? t = _ at ht
      rw [(h.connect q address).1, Function.update_apply] at ht
      split at ht
      · cases ht
        exact Or.inr rfl
      · cases hnone.symm.trans ht
    | starts event =>
      subst event
      cases hnone.symm.trans ht

theorem Fate.keeps {c' : Cluster} {u : TaskId} (h : Fate c u c') {phase later : SessionPhase}
    {state : SessionState} (hbefore : c.session? t = some (p, s, phase))
    (hstate : phase.state? = some state) (hafter : c'.session? t = some (p, s, later)) :
    ∃ state', later.state? = some state' ∧ state'.sender = state.sender := by
  have hsame : c'.session? t = c.session? t →
      ∃ state', later.state? = some state' ∧ state'.sender = state.sender := by
    intro heq
    rw [heq, hbefore] at hafter
    cases hafter
    exact ⟨state, hstate, rfl⟩
  obtain ⟨new, hsessions, -⟩ := h.sessions
  by_cases htu : t = u
  · subst htu
    cases h with
    | stays comes => exact hsame (congrFun comes.sessions t)
    | goes own leads comes =>
      rw [hbefore] at own
      cases own
      rw [comes.sessions, Function.update_self] at hafter
      cases hafter
      exact leads.keeps hstate
    | opens own capacity begun room comes =>
      rw [hbefore] at own
      cases own
      cases hstate
    | lost own comes =>
      rw [hbefore] at own
      cases own
      cases hstate
    | ends own begun comes =>
      rw [comes.sessions, Function.update_self] at hafter
      cases hafter
  · exact hsame (by rw [hsessions, Function.update_of_ne htu])

/-- A session that has a sender keeps it as long as it is there. -/
theorem keeps_sender (h : Seated c) {phase later : SessionPhase} {state : SessionState}
    (hbefore : c.session? t = some (p, s, phase)) (hstate : phase.state? = some state)
    (hafter : (happen c e).session? t = some (p, s, later)) :
    ∃ state', later.state? = some state' ∧ state'.sender = state.sender := by
  have hsame : (happen c e).session? t = c.session? t →
      ∃ state', later.state? = some state' ∧ state'.sender = state.sender := by
    intro heq
    rw [heq, hbefore] at hafter
    cases hafter
    exact ⟨state, hstate, rfl⟩
  cases h.happens e with
  | leaves comes => exact hsame (congrFun comes.sessions t)
  | turn event fate => exact fate.keeps hbefore hstate hafter
  | @connects q address event =>
    subst event
    refine hsame ?_
    change (c.connect q address).1.session? t = _
    rw [(h.connect q address).1,
      Function.update_of_ne (Nat.ne_of_lt (h.manned.fresh.lt_of_session hbefore))]
  | starts event =>
    subst event
    exact hsame rfl

/-- A socket that is fed was fed before, or its session has just started. -/
theorem feeds_after (h : Seated c) (hv : (happen c e).Feeds v s) : c.Feeds v s ∨
    ∃ t p device state deadline, c.session? t = some (p, s, .starting device) ∧
      (happen c e).session? t = some (p, s, .receiving state deadline) ∧ state.sender = v ∧
      v < (happen c e).nextTask := by
  obtain ⟨p, device, conn, phase, hv⟩ := hv
  rcases sender_after h hv with
    hold | ⟨-, before, hold⟩ | ⟨t, state, deadline, hstarting, hafter, hsender, hlt, -⟩
  · exact Or.inl ⟨p, device, conn, phase, hold⟩
  · exact Or.inl ⟨p, device, conn, before, hold⟩
  · exact Or.inr ⟨t, p, device, state, deadline, hstarting, hafter, hsender, hlt⟩

/-- A session that is about to start has no sender on its socket yet. -/
theorem Fed.unfed (h : Fed c) {device : DeviceRecord}
    (ht : c.session? t = some (p, s, .starting device)) : ¬ c.Feeds v s := by
  intro hv
  obtain ⟨state, hstate, -⟩ := h.session v t p s _ hv ht
  cases hstate

theorem Fed.happen (h : Fed c) (e : Event) : Fed (Cluster.happen c e) := by
  have hs := h.seated
  have hafter := hs.happen e
  refine ⟨hafter, fun v s hv => ?_, fun v t p s phase hv ht => ?_, fun v w s hv hw => ?_⟩
  · rcases feeds_after hs hv with hold | ⟨t, p, device, state, deadline, -, hlater, -, hlt⟩
    · obtain ⟨hlt, hsocket⟩ := h.known v s hold
      exact ⟨Nat.lt_of_lt_of_le hlt (nextTask_happen hs e), (happen_follows c e).sockets s hsocket⟩
    · exact ⟨hlt, hafter.socket t p s _ hlater⟩
  · rcases feeds_after hs hv with hold | ⟨u, q, device, state, deadline, -, hlater, hsender, -⟩
    · rcases session_origin hs ht with ⟨old, hold'⟩ | rfl
      · obtain ⟨state, hstate, hsender⟩ := h.session v t p s old hold hold'
        obtain ⟨state', hstate', hsame⟩ := keeps_sender hs hold' hstate ht
        exact ⟨state', hstate', hsame.trans hsender⟩
      · exact absurd (hs.sockets _ (h.known v _ hold).2) (Nat.lt_irrefl _)
    · obtain rfl : t = u := hafter.alone t u p q s phase _ ht hlater
      rw [hlater] at ht
      cases ht
      exact ⟨state, rfl, hsender⟩
  · rcases feeds_after hs hv with hv | ⟨t, p, device, state, deadline, hstart, hlater, rfl, -⟩
    · rcases feeds_after hs hw with hw | ⟨t, p, device, state, deadline, hstart, -, -, -⟩
      · exact h.only v w s hv hw
      · exact absurd hv (h.unfed hstart)
    · rcases feeds_after hs hw with
        hw | ⟨u, q, device', state', deadline', hstart', hlater', rfl, -⟩
      · exact absurd hw (h.unfed hstart)
      · obtain rfl : t = u := hs.alone t u p q s _ _ hstart hstart'
        rw [hlater] at hlater'
        cases hlater'
        rfl

end Step

theorem Fed.after {c : Cluster} (h : Fed c) (es : List Event) : Fed (c.after es) := by
  induction es generalizing c with
  | nil => exact h
  | cons e es ih => exact ih (h.happen e)

theorem nextTask_after {c : Cluster} (h : Seated c) (es : List Event) :
    c.nextTask ≤ (c.after es).nextTask := by
  induction es generalizing c with
  | nil => exact Nat.le_refl _
  | cons e es ih => exact Nat.le_trans (nextTask_happen h e) (ih (h.happen e))

end Cluster

end FleetControl
