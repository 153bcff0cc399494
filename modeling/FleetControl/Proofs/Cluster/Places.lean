import FleetControl.Proofs.Cluster.Sessions
import Mathlib.Data.Finset.Card
import Mathlib.Data.List.Induction

/-! # Places of a process

Whoever is served has a place, and so has who is turned away until it is gone, so the count of
places may exceed the limit. Who is let in found the count below the limit, and everybody who had
been let in before was counted. -/
namespace FleetControl

/-- Whether a session has been let in. Who comes too late is turned away as busy. -/
def SessionPhase.admitted : SessionPhase → Bool
  | .opening => false
  | .refusing reason => reason ≠ .busy
  | _ => true

namespace Cluster
open Function (update)

/-- Whether somebody is a session of a process that has begun. -/
def begun (p : Nat) (x : Option (Nat × Nat × SessionPhase)) : Bool :=
  x.any fun x => x.1 = p ∧ x.2.2.isOpening = false

/-- The sessions of a process from their first turn to their end. -/
def calls (c : Cluster) (p : Nat) : Finset TaskId :=
  (Finset.range c.nextTask).filter fun t => begun p (c.session? t) = true

/-- Whether an event lets a session into a process. -/
def admits (c : Cluster) (p : Nat) (t : TaskId) (e : Event) : Bool :=
  ((c.session? t).any fun x => x.2.2.isOpening) &&
    ((happen c e).session? t).any fun x => x.1 = p ∧ x.2.2.admitted = true

/-- Whether a session was ever let into a process. -/
def admitted (c : Cluster) (p : Nat) (t : TaskId) : List Event → Bool
  | [] => false
  | e :: es => c.admits p t e || admitted (happen c e) p t es

/-- The sessions that were let into a process in a history and have not ended. -/
def guests (c : Cluster) (p : Nat) (es : List Event) : Finset TaskId :=
  (Finset.range (c.after es).nextTask).filter fun t =>
    c.admitted p t es = true ∧ ((c.after es).session? t).isSome = true

/-- Every session has a socket of its own and, once it has begun, a process. Its helpers are no
sessions. -/
structure Seated (c : Cluster) : Prop where
  manned : Manned c
  processes : Numbered c.processes
  sockets : ∀ s, c.sockets.has s = true → s < c.sockets.length
  socket : ∀ t p s phase, c.session? t = some (p, s, phase) → c.sockets.has s = true
  alone : ∀ t u p q s phase other, c.session? t = some (p, s, phase) →
    c.session? u = some (q, s, other) → t = u
  home : ∀ t p s phase, c.session? t = some (p, s, phase) → phase.isOpening = false →
    c.processes.has p = true
  helpers : ∀ t p s phase, c.session? t = some (p, s, phase) → ∀ u ∈ phase.helpers,
    u < c.nextTask ∧ c.session? u = none

theorem seated_initial (supply : Supply) (epoch : Nat) (directory : DirectoryService) :
    Seated (initial supply epoch directory) := by
  have hmanned : Manned (initial supply epoch directory) := by
    constructor <;> simp [initial, Fresh, post?, workerOf?, Table.get?]
  refine ⟨hmanned, ?_, ?_, ?_, ?_, ?_, ?_⟩ <;>
    simp [initial, Numbered, session?, Table.get?, Table.has]

/-- What an event is to sessions. -/
inductive Happens (c : Cluster) (e : Event) : Prop
  | leaves (comes : Leaves c (happen c e))
  | turn {t} (event : e = .turn t) (fate : Fate c t (happen c e))
  | connects {p address} (event : e = .connect p address)
  | starts {settings} (event : e = .addProcess settings)

section Seated
variable {c c' : Cluster} {sessions : TaskId → Option (Nat × Nat × SessionPhase)}
  {taken : Nat → Nat} {t : TaskId}

theorem Fate.of_ready {ready : List TaskId} (h : Fate { c with ready := ready } t c') :
    Fate c t c' := by
  have hlift : ∀ {sessions taken}, Comes { c with ready := ready } sessions taken c' →
      Comes c sessions taken c' := fun h =>
    ⟨h.manned, h.sessions, h.places, h.capacities, h.processes, h.sockets, h.onward⟩
  cases h with
  | stays comes => exact .stays (hlift comes)
  | goes own leads comes => exact .goes own leads (hlift comes)
  | opens own capacity begun room comes => exact .opens own capacity begun room (hlift comes)
  | lost own comes => exact .lost own (hlift comes)
  | ends own begun comes => exact .ends own begun (hlift comes)

theorem Seated.fate_give (h : Seated c) {p s : Nat} {phase : SessionPhase}
    (own : c.session? t = some (p, s, phase)) : Fate c t (c.give t) := by
  by_cases hr : t ∈ c.ready
  · let lifted : Cluster := { c with ready := c.ready.erase t }
    have hturn : turn lifted t = lifted.sessionTurn t p s phase := by
      simp only [turn, show lifted.tasks.get? t = _ from session_iff.mp own]
    have hlifted : Leaves c lifted := h.manned.same ⟨rfl, rfl, rfl, rfl⟩
    rw [give_of_mem hr, hturn]
    refine Fate.of_ready (fate_sessionTurn hlifted.manned own (fun hbegun => ?_) fun u hu => ?_)
    · exact ⟨h.home t p s phase own hbegun, h.socket t p s phase own⟩
    · exact (h.helpers t p s phase own u hu).2
  · rw [give_of_not_mem hr]
    exact .stays h.manned.refl

theorem Seated.happens (h : Seated c) (e : Event) : Happens c e := by
  by_cases hturn : ∃ t p s phase, e = .turn t ∧ c.session? t = some (p, s, phase)
  · obtain ⟨t, p, s, phase, rfl, own⟩ := hturn
    exact .turn rfl (h.fate_give own)
  · have helse : e.opens = false → Happens c e := by
      intro hopens
      have hoccurs := occurs_happen h.manned.fresh hopens fun t ht p s phase htask =>
        hturn ⟨t, p, s, phase, ht, session_iff.mpr htask⟩
      let later : Cluster := { c with
        now := (happen c e).now
        store := { c.store with down := (happen c e).store.down } }
      have hlater : Leaves c later := h.manned.same ⟨rfl, rfl, rfl, rfl⟩
      exact .leaves (hlater.aside hoccurs.aside)
    cases e with
    | addProcess settings => exact .starts rfl
    | connect p address => exact .connects rfl
    | _ => exact helse rfl

/-- Sessions that were there before, in other phases. -/
theorem Seated.comes (h : Seated c) (hc : Comes c sessions taken c')
    (hold : ∀ t p s phase, sessions t = some (p, s, phase) →
      (∃ old, c.session? t = some (p, s, old)) ∧
        (phase.isOpening = false → c.processes.has p = true) ∧
        ∀ u ∈ phase.helpers, u < c'.nextTask ∧ sessions u = none) : Seated c' := by
  have hsessions := hc.sessions
  subst hsessions
  refine ⟨hc.manned, Table.lt_length_of_keys hc.processes h.processes,
    Table.lt_length_of_keys hc.sockets h.sockets, fun t p s phase ht => ?_,
    fun t u p q s phase other ht hu => ?_, fun t p s phase ht hbegun => ?_,
    fun t p s phase ht => (hold t p s phase ht).2.2⟩
  · obtain ⟨old, hwas⟩ := (hold t p s phase ht).1
    exact (Table.has_of_keys hc.sockets s).trans (h.socket t p s old hwas)
  · obtain ⟨old, hwas⟩ := (hold t p s phase ht).1
    obtain ⟨old', hwas'⟩ := (hold u q s other hu).1
    exact h.alone t u p q s old old' hwas hwas'
  · exact (Table.has_of_keys hc.processes p).trans ((hold t p s phase ht).2.1 hbegun)

/-- One session comes to another phase, or to its end. -/
theorem Seated.change (h : Seated c) {p s : Nat} {phase : SessionPhase}
    (own : c.session? t = some (p, s, phase)) {new : Option (Nat × Nat × SessionPhase)}
    (hc : Comes c (update c.session? t new) taken c')
    (hnew : ∀ x, new = some x → ∃ later, x = (p, s, later) ∧
      (later.isOpening = false → c.processes.has p = true) ∧
      ∀ u ∈ later.helpers, u ∈ phase.helpers ∨ c.nextTask ≤ u ∧ u < c'.nextTask) :
    Seated c' := by
  have hidle : ∀ u, c.session? u = none → update c.session? t new u = none := by
    intro u hu
    rw [Function.update_of_ne]
    · exact hu
    · rintro rfl
      cases hu.symm.trans own
  refine h.comes hc fun u q r other hu => ?_
  by_cases ht : u = t
  · subst ht
    rw [Function.update_self] at hu
    obtain ⟨later, heq, hhome, hhelpers⟩ := hnew _ hu
    obtain ⟨rfl, rfl, rfl⟩ : q = p ∧ r = s ∧ other = later := by simpa using heq
    refine ⟨⟨phase, own⟩, hhome, fun v hv => ?_⟩
    rcases hhelpers v hv with hv | ⟨hle, hlt⟩
    · obtain ⟨hlt, hnone⟩ := h.helpers u q r phase own v hv
      exact ⟨Nat.lt_of_lt_of_le hlt hc.onward, hidle v hnone⟩
    · exact ⟨hlt, hidle v (h.manned.fresh.session hle)⟩
  · rw [Function.update_of_ne ht] at hu
    refine ⟨⟨other, hu⟩, h.home u q r other hu, fun v hv => ?_⟩
    obtain ⟨hlt, hnone⟩ := h.helpers u q r other hu v hv
    exact ⟨Nat.lt_of_lt_of_le hlt hc.onward, hidle v hnone⟩

theorem Seated.leaves (h : Seated c) (hc : Leaves c c') : Seated c' := by
  refine h.comes hc fun t p s phase ht => ⟨⟨phase, ht⟩, h.home t p s phase ht, fun u hu => ?_⟩
  obtain ⟨hlt, hnone⟩ := h.helpers t p s phase ht u hu
  exact ⟨Nat.lt_of_lt_of_le hlt hc.onward, hnone⟩

theorem has_of_capacity {p m : Nat} (h : c.capacity? p = some m) : c.processes.has p = true := by
  obtain ⟨q, hq, -⟩ := Option.map_eq_some_iff.mp h
  exact (Table.has_iff _ _).mpr ⟨q, hq⟩

theorem Seated.fate (h : Seated c) (hf : Fate c t c') : Seated c' := by
  cases hf with
  | stays comes => exact h.leaves comes
  | @goes p s phase later own leads comes =>
    refine h.change own comes fun x hx => ⟨later, (Option.some_inj.mp hx).symm, fun _ => ?_, ?_⟩
    · exact h.home t p s phase own leads.begun.1
    · exact fun u hu => leads.helpers hu
  | @opens p s later m own capacity begun room comes =>
    refine h.change own comes fun x hx => ⟨later, (Option.some_inj.mp hx).symm, fun _ => ?_, ?_⟩
    · exact has_of_capacity capacity
    · rw [begun.2]
      exact nofun
  | lost own comes => exact h.change own comes fun x hx => by cases hx
  | ends own begun comes => exact h.change own comes fun x hx => by cases hx

/-- A device connects: its session is the next task, on the next socket. -/
theorem Seated.connect (h : Seated c) (p : Nat) (address : Address) :
    (c.connect p address).1.session? =
        update c.session? c.nextTask (some (p, c.sockets.length, .opening)) ∧
      Seated (c.connect p address).1 := by
  have hsessions : (c.connect p address).1.session? =
      update c.session? c.nextTask (some (p, c.sockets.length, .opening)) :=
    session_setTask { c with sockets := _ } c.nextTask (.session p c.sockets.length .opening)
  have hfree := h.manned.fresh.session (Nat.le_refl c.nextTask)
  have hcases : ∀ t q s phase, (c.connect p address).1.session? t = some (q, s, phase) →
      (t = c.nextTask ∧ s = c.sockets.length ∧ phase = .opening) ∨
        c.session? t = some (q, s, phase) ∧ s < c.sockets.length := by
    intro t q s phase ht
    rw [hsessions] at ht
    by_cases hnew : t = c.nextTask
    · rw [hnew, Function.update_self] at ht
      cases ht
      exact Or.inl ⟨hnew, rfl, rfl⟩
    · rw [Function.update_of_ne hnew] at ht
      exact Or.inr ⟨ht, h.sockets s (h.socket t q s phase ht)⟩
  have hidle : ∀ u, u < c.nextTask → c.session? u = none →
      u < c.nextTask + 1 ∧ (c.connect p address).1.session? u = none := by
    intro u hlt hnone
    rw [hsessions, Function.update_of_ne (Nat.ne_of_lt hlt)]
    exact ⟨Nat.lt_succ_of_lt hlt, hnone⟩
  refine ⟨hsessions, ⟨fun u hu => ?_, fun q device u hu => ?_⟩, h.processes,
    Table.lt_length_put h.sockets _, fun t q s phase ht => ?_,
    fun t u q r s phase other ht hu => ?_, fun t q s phase ht hbegun => ?_, fun t q s phase ht u hu => ?_⟩
  · have hle : c.nextTask + 1 ≤ u := hu
    refine (post_setTask { c with sockets := _ } c.nextTask u _).trans ?_
    rw [if_neg (Nat.ne_of_gt hle)]
    exact h.manned.fresh u (Nat.le_of_succ_le hle)
  · obtain ⟨hlt, hnone⟩ := h.manned.workers q device u hu
    exact hidle u hlt hnone
  · change (c.sockets.put _ _).has s = true
    rw [Table.has, Table.get?_put]
    split
    · rfl
    · rename_i hs
      rcases hcases t q s phase ht with ⟨-, hnew, -⟩ | ⟨hold, -⟩
      · exact absurd hnew hs
      · exact h.socket t q s phase hold
  · rcases hcases t q s phase ht with ⟨rfl, rfl, -⟩ | ⟨ht, hlt⟩
    · rcases hcases u r _ other hu with ⟨rfl, -, -⟩ | ⟨-, hlt⟩
      · rfl
      · exact absurd hlt (Nat.lt_irrefl _)
    · rcases hcases u r s other hu with ⟨-, rfl, -⟩ | ⟨hu, -⟩
      · exact absurd hlt (Nat.lt_irrefl _)
      · exact h.alone t u q r s phase other ht hu
  · rcases hcases t q s phase ht with ⟨-, -, rfl⟩ | ⟨ht, -⟩
    · cases hbegun
    · exact h.home t q s phase ht hbegun
  · rcases hcases t q s phase ht with ⟨-, -, rfl⟩ | ⟨ht, -⟩
    · cases hu
    · obtain ⟨hlt, hnone⟩ := h.helpers t q s phase ht u hu
      exact hidle u hlt hnone

theorem Seated.addProcess (h : Seated c) (settings : ServerSettings) :
    Seated (c.addProcess settings) := by
  have hworkers : ∀ p device t, (c.addProcess settings).workerOf? p device = some t →
      c.workerOf? p device = some t := by
    intro p device t ht
    simp only [workerOf?, Cluster.addProcess, Table.get?_put] at ht
    split at ht
    · cases ht
    · exact ht
  have hgrows := grows_put c.processes (.fresh settings)
  exact ⟨⟨h.manned.fresh,
    fun p device t ht => h.manned.workers p device t (hworkers p device t ht)⟩,
    hgrows.numbered h.processes, h.sockets, h.socket, h.alone,
    fun t p s phase ht hbegun => hgrows.kept p (h.home t p s phase ht hbegun), h.helpers⟩

theorem Seated.happen (h : Seated c) (e : Event) : Seated (Cluster.happen c e) := by
  cases h.happens e with
  | leaves comes => exact h.leaves comes
  | turn event fate => exact h.fate fate
  | @connects p address event =>
    subst event
    exact (h.connect p address).2
  | @starts settings event =>
    subst event
    exact h.addProcess settings

end Seated

section Counting
variable {c c' : Cluster} {p : Nat} {t : TaskId}

theorem begun_iff {x : Option (Nat × Nat × SessionPhase)} : begun p x = true ↔
    ∃ s phase, x = some (p, s, phase) ∧ phase.isOpening = false := by
  cases x with
  | none => simp [begun]
  | some x =>
    obtain ⟨q, s, phase⟩ := x
    simp only [begun, Option.any_some, decide_eq_true_eq, Option.some.injEq, Prod.mk.injEq]
    constructor
    · rintro ⟨rfl, hbegun⟩
      exact ⟨s, phase, ⟨rfl, rfl, rfl⟩, hbegun⟩
    · rintro ⟨s, phase, ⟨rfl, rfl, rfl⟩, hbegun⟩
      exact ⟨rfl, hbegun⟩

theorem mem_calls (hf : Fresh c) : t ∈ c.calls p ↔ begun p (c.session? t) = true := by
  rw [calls, Finset.mem_filter, Finset.mem_range]
  refine and_iff_right_of_imp fun h => ?_
  obtain ⟨s, phase, hs, -⟩ := begun_iff.mp h
  exact hf.lt_of_session hs

theorem calls_of_session (hf : Fresh c) (hf' : Fresh c') (h : c'.session? = c.session?) :
    c'.calls p = c.calls p := by
  ext t
  rw [mem_calls hf, mem_calls hf', h]

/-- One session is different. -/
theorem calls_update (hf : Fresh c) (hf' : Fresh c') {new : Option (Nat × Nat × SessionPhase)}
    (h : c'.session? = update c.session? t new) : c'.calls p =
      if begun p new = true then insert t (c.calls p) else (c.calls p).erase t := by
  ext u
  rw [mem_calls hf', h, Function.update_apply]
  split <;> split <;> rename_i hu hnew <;> simp [hu, hnew, mem_calls hf]

/-- A session comes to another phase in the same process. -/
theorem calls_change (hf : Fresh c) (hf' : Fresh c') {q s : Nat} {phase later : SessionPhase}
    (own : c.session? t = some (q, s, phase))
    (h : c'.session? = update c.session? t (some (q, s, later)))
    (hsame : later.isOpening = phase.isOpening) : c'.calls p = c.calls p := by
  have hmem : t ∈ c.calls p ↔ begun p (some (q, s, later)) = true := by
    rw [mem_calls hf, own]
    simp [begun, hsame]
  rw [calls_update hf hf' h]
  split
  · exact Finset.insert_eq_of_mem (hmem.mpr ‹_›)
  · exact Finset.erase_eq_of_notMem (mt hmem.mp ‹_›)

theorem Fate.counted (hs : Seated c) (h : Fate c t c') (hc : ∀ p, c.places p = (c.calls p).card)
    (p : Nat) : c'.places p = (c'.calls p).card := by
  have hf := hs.manned.fresh
  have hmem : ∀ {q s phase}, c.session? t = some (q, s, phase) →
      (t ∈ c.calls p ↔ q = p ∧ phase.isOpening = false) := by
    intro q s phase own
    rw [mem_calls hf, own]
    simp [begun]
  cases h with
  | stays comes =>
    rw [comes.places, calls_of_session hf comes.manned.fresh comes.sessions]
    exact hc p
  | goes own leads comes =>
    rw [comes.places, calls_change hf comes.manned.fresh own comes.sessions
      (leads.begun.2.trans leads.begun.1.symm)]
    exact hc p
  | @opens q s later m own capacity opened room comes =>
    have hnot : t ∉ c.calls p := fun ht => by cases ((hmem own).mp ht).2
    rw [comes.places, calls_update hf comes.manned.fresh comes.sessions, Function.update_apply]
    by_cases hq : p = q
    · subst hq
      rw [if_pos rfl, if_pos (by simp [begun, opened]), Finset.card_insert_of_notMem hnot, hc]
    · rw [if_neg hq, if_neg (by simp [begun, Ne.symm hq]), Finset.erase_eq_of_notMem hnot]
      exact hc p
  | lost own comes =>
    have hnot : t ∉ c.calls p := fun ht => by cases ((hmem own).mp ht).2
    rw [comes.places, calls_update hf comes.manned.fresh comes.sessions, if_neg (by simp [begun]),
      Finset.erase_eq_of_notMem hnot]
    exact hc p
  | @ends q s phase own hbegun comes =>
    rw [comes.places, calls_update hf comes.manned.fresh comes.sessions, if_neg (by simp [begun]),
      Function.update_apply]
    by_cases hq : p = q
    · subst hq
      rw [if_pos rfl, Finset.card_erase_of_mem ((hmem own).mpr ⟨rfl, hbegun⟩), hc]
    · rw [if_neg hq, Finset.erase_eq_of_notMem fun ht => hq ((hmem own).mp ht).1.symm]
      exact hc p

theorem counted_happen (hs : Seated c) (e : Event) (hc : ∀ p, c.places p = (c.calls p).card)
    (p : Nat) : (happen c e).places p = ((happen c e).calls p).card := by
  have hf := hs.manned.fresh
  cases hs.happens e with
  | leaves comes =>
    rw [comes.places, calls_of_session hf comes.manned.fresh comes.sessions]
    exact hc p
  | turn event fate => exact fate.counted hs hc p
  | @connects q address event =>
    subst event
    obtain ⟨hsessions, hseated⟩ := hs.connect q address
    have hnot : c.nextTask ∉ c.calls p := fun ht => Nat.lt_irrefl _
      (Finset.mem_range.mp (Finset.mem_filter.mp ht).1)
    have hcalls : (c.connect q address).1.calls p = c.calls p := by
      rw [calls_update hf hseated.manned.fresh hsessions, if_neg (by simp [begun,
        SessionPhase.isOpening]), Finset.erase_eq_of_notMem hnot]
    change c.places p = ((c.connect q address).1.calls p).card
    rw [hcalls]
    exact hc p
  | @starts settings event =>
    subst event
    change (c.addProcess settings).places p = (c.calls p).card
    rw [← hc]
    simp only [places, addProcess, Table.get?_put]
    split
    · rename_i hp
      rw [hp, Table.get?_length hs.processes]
      rfl
    · rfl

end Counting

section Guests
variable {c : Cluster} {e : Event} {p : Nat} {t : TaskId}

theorem begun_of_admitted {phase : SessionPhase} (h : phase.admitted = true) :
    phase.isOpening = false := by
  cases phase <;> first | rfl | cases h

theorem Fate.comes {c' : Cluster} (h : Fate c t c') :
    ∃ sessions taken, Comes c sessions taken c' := by
  cases h with
  | stays comes => exact ⟨_, _, comes⟩
  | goes own leads comes => exact ⟨_, _, comes⟩
  | opens own capacity begun room comes => exact ⟨_, _, comes⟩
  | lost own comes => exact ⟨_, _, comes⟩
  | ends own begun comes => exact ⟨_, _, comes⟩

/-- Only the session that has its turn is different, and it stays in its place. -/
theorem Fate.sessions {c' : Cluster} (h : Fate c t c') :
    ∃ new, c'.session? = update c.session? t new ∧ ∀ q s phase, new = some (q, s, phase) →
      ∃ old, c.session? t = some (q, s, old) ∧
        (old.isOpening = false → phase.isOpening = false) := by
  cases h with
  | stays comes =>
    refine ⟨c.session? t, ?_, fun q s phase own => ⟨phase, own, id⟩⟩
    rw [comes.sessions, Function.update_eq_self]
  | goes own leads comes =>
    refine ⟨_, comes.sessions, fun q s phase hnew => ?_⟩
    cases hnew
    exact ⟨_, own, fun _ => leads.begun.2⟩
  | opens own capacity begun room comes =>
    refine ⟨_, comes.sessions, fun q s phase hnew => ?_⟩
    cases hnew
    exact ⟨_, own, fun _ => begun.1⟩
  | lost own comes => exact ⟨none, comes.sessions, nofun⟩
  | ends own begun comes => exact ⟨none, comes.sessions, nofun⟩

/-- Who is a session now was one before, in the same place, and never begins again. -/
theorem session_before (hs : Seated c) {q s : Nat} {phase : SessionPhase} (hlt : t < c.nextTask)
    (ht : (happen c e).session? t = some (q, s, phase)) :
    ∃ old, c.session? t = some (q, s, old) ∧ (old.isOpening = false → phase.isOpening = false) := by
  cases hs.happens e with
  | leaves comes =>
    rw [comes.sessions] at ht
    exact ⟨phase, ht, id⟩
  | @turn u event fate =>
    obtain ⟨new, hsessions, hnew⟩ := fate.sessions
    rw [hsessions, Function.update_apply] at ht
    split at ht
    · rename_i htu
      rw [htu]
      exact hnew q s phase ht
    · exact ⟨phase, ht, id⟩
  | @connects r address event =>
    subst event
    change (c.connect r address).1.session? t = _ at ht
    rw [(hs.connect r address).1, Function.update_of_ne (Nat.ne_of_lt hlt)] at ht
    exact ⟨phase, ht, id⟩
  | starts event =>
    subst event
    exact ⟨phase, ht, id⟩

/-- Who is let in was about to begin. -/
theorem admits_iff : c.admits p t e = true ↔
    (∃ q s, c.session? t = some (q, s, .opening)) ∧
      ∃ s phase, (happen c e).session? t = some (p, s, phase) ∧ phase.admitted = true := by
  have hopening : ∀ phase : SessionPhase, phase.isOpening = true ↔ phase = .opening := by
    intro phase
    cases phase <;> simp [SessionPhase.isOpening]
  simp only [admits, Bool.and_eq_true, Option.any_eq_true, Prod.exists, decide_eq_true_eq,
    hopening]
  constructor
  · rintro ⟨⟨q, s, phase, hwas, rfl⟩, r, s', later, hnow, rfl, hadmitted⟩
    exact ⟨⟨q, s, hwas⟩, s', later, hnow, hadmitted⟩
  · rintro ⟨⟨q, s, hwas⟩, s', later, hnow, hadmitted⟩
    exact ⟨⟨q, s, _, hwas, rfl⟩, p, s', later, hnow, rfl, hadmitted⟩

/-- Nobody is let in by an event, or one session, and that while there is room. -/
theorem admits_cases (hs : Seated c) (e : Event) (p : Nat) : (∀ t, c.admits p t e = false) ∨
    ∃ t m, (∀ u, c.admits p u e = true → u = t) ∧ c.capacity? p = some m ∧ c.places p < m := by
  -- A session that stays as it is has no first turn.
  have hsame : ∀ u, (happen c e).session? u = c.session? u → c.admits p u e = false := by
    intro u hu
    refine Bool.eq_false_iff.mpr fun hadmits => ?_
    obtain ⟨⟨q, s, hwas⟩, s', phase, hnow, hadmitted⟩ := admits_iff.mp hadmits
    rw [hu, hwas] at hnow
    cases hnow
    cases hadmitted
  cases hs.happens e with
  | leaves comes => exact Or.inl fun u => hsame u (congrFun comes.sessions u)
  | @turn t event fate =>
    have hother : ∀ u, u ≠ t → c.admits p u e = false := by
      intro u hu
      obtain ⟨new, hsessions, -⟩ := fate.sessions
      exact hsame u (by rw [hsessions, Function.update_of_ne hu])
    have hbut : c.admits p t e = false → ∀ u, c.admits p u e = false := by
      intro ht u
      by_cases hu : u = t
      · rw [hu, ht]
      · exact hother u hu
    cases fate with
    | stays comes => exact Or.inl (hbut (hsame t (congrFun comes.sessions t)))
    | goes own leads comes =>
      refine Or.inl (hbut (Bool.eq_false_iff.mpr fun hadmits => ?_))
      obtain ⟨q, s, hwas⟩ := (admits_iff.mp hadmits).1
      rw [own] at hwas
      cases hwas
      cases leads.begun.1
    | @opens q s later m own capacity opened room comes =>
      by_cases hadmits : c.admits p t e = true
      · obtain ⟨-, s', phase, hnow, hadmitted⟩ := admits_iff.mp hadmits
        rw [comes.sessions, Function.update_self] at hnow
        cases hnow
        refine Or.inr ⟨t, m, fun u hu => ?_, capacity, room.resolve_left ?_⟩
        · by_contra hne
          rw [hother u hne] at hu
          cases hu
        · rintro rfl
          cases hadmitted
      · exact Or.inl (hbut (Bool.eq_false_iff.mpr hadmits))
    | lost own comes =>
      refine Or.inl (hbut (Bool.eq_false_iff.mpr fun hadmits => ?_))
      obtain ⟨s, phase, hnow, -⟩ := (admits_iff.mp hadmits).2
      rw [comes.sessions, Function.update_self] at hnow
      cases hnow
    | ends own hbegun comes =>
      refine Or.inl (hbut (Bool.eq_false_iff.mpr fun hadmits => ?_))
      obtain ⟨s, phase, hnow, -⟩ := (admits_iff.mp hadmits).2
      rw [comes.sessions, Function.update_self] at hnow
      cases hnow
  | @connects q address event =>
    subst event
    refine Or.inl fun u => ?_
    by_cases hu : u = c.nextTask
    · refine Bool.eq_false_iff.mpr fun hadmits => ?_
      obtain ⟨r, s, hwas⟩ := (admits_iff.mp hadmits).1
      rw [hs.manned.fresh.session (Nat.le_of_eq hu.symm)] at hwas
      cases hwas
    · refine hsame u ?_
      change (c.connect q address).1.session? u = _
      rw [(hs.connect q address).1, Function.update_of_ne hu]
  | starts event =>
    subst event
    exact Or.inl fun u => hsame u rfl

/-- The room of a process is what it was, or the process has just started. -/
theorem capacity_before (hs : Seated c) (e : Event) {m : Nat}
    (h : (happen c e).capacity? p = some m) : c.capacity? p = some m ∨ c.capacity? p = none := by
  cases hs.happens e with
  | leaves comes => exact Or.inl (comes.capacities ▸ h)
  | turn event fate =>
    obtain ⟨_, _, comes⟩ := fate.comes
    exact Or.inl (comes.capacities ▸ h)
  | connects event =>
    subst event
    exact Or.inl h
  | @starts settings event =>
    subst event
    simp only [capacity?, happen, addProcess, Table.get?_put] at h ⊢
    split at h
    · rename_i hp
      rw [hp, Table.get?_length hs.processes]
      exact Or.inr rfl
    · exact Or.inl h

theorem nextTask_happen (hs : Seated c) (e : Event) : c.nextTask ≤ (happen c e).nextTask := by
  cases hs.happens e with
  | leaves comes => exact comes.onward
  | turn event fate =>
    obtain ⟨_, _, comes⟩ := fate.comes
    exact comes.onward
  | connects event =>
    subst event
    exact Nat.le_succ _
  | starts event =>
    subst event
    exact Nat.le_refl _

end Guests

/-- What is so in every history. -/
structure Hosted (c : Cluster) (es : List Event) : Prop where
  seated : Seated (c.after es)
  counted : ∀ p, (c.after es).places p = ((c.after es).calls p).card
  known : ∀ p t, c.admitted p t es = true → t < (c.after es).nextTask
  present : ∀ p t, c.admitted p t es = true → ∀ x, (c.after es).session? t = some x →
    begun p (some x) = true
  bounded : ∀ p m, (c.after es).capacity? p = some m → (c.guests p es).card ≤ m

section Hosted
variable {c : Cluster} {es : List Event}

theorem admitted_concat (c : Cluster) (p : Nat) (t : TaskId) (es : List Event) (e : Event) :
    c.admitted p t (es ++ [e]) = (c.admitted p t es || (c.after es).admits p t e) := by
  induction es generalizing c with
  | nil => simp [admitted, after]
  | cons x es ih => simp [admitted, after, ih, Bool.or_assoc]

theorem mem_guests {p : Nat} {t : TaskId} : t ∈ c.guests p es ↔
    t < (c.after es).nextTask ∧ c.admitted p t es = true ∧
      ((c.after es).session? t).isSome = true := by
  rw [guests, Finset.mem_filter, Finset.mem_range]

theorem Hosted.guests_subset (h : Hosted c es) (p : Nat) :
    c.guests p es ⊆ (c.after es).calls p := by
  intro t ht
  obtain ⟨-, hadmitted, hthere⟩ := mem_guests.mp ht
  obtain ⟨x, hx⟩ := Option.isSome_iff_exists.mp hthere
  rw [mem_calls h.seated.manned.fresh, hx]
  exact h.present p t hadmitted x hx

/-- A process that is not there has no guests. -/
theorem Hosted.vacant (h : Hosted c es) {p : Nat} (hp : (c.after es).capacity? p = none) :
    c.guests p es = ∅ := by
  refine Finset.eq_empty_of_forall_notMem fun t ht => ?_
  have hcalls := h.guests_subset p ht
  rw [mem_calls h.seated.manned.fresh] at hcalls
  obtain ⟨s, phase, hs, hbegun⟩ := begun_iff.mp hcalls
  obtain ⟨q, hq⟩ := (Table.has_iff _ _).mp (h.seated.home t p s phase hs hbegun)
  rw [capacity?, hq] at hp
  cases hp

theorem Hosted.bounded_concat (h : Hosted c es) (e : Event)
    (hknown : ∀ p t, c.admitted p t (es ++ [e]) = true → t < (c.after es).nextTask) {p m : Nat}
    (hm : (happen (c.after es) e).capacity? p = some m) :
    (c.guests p (es ++ [e])).card ≤ m := by
  -- Who is a guest now was one before, or is let in by this event.
  have hguests : ∀ t ∈ c.guests p (es ++ [e]), t ∈ c.guests p es ∨
      (c.after es).admits p t e = true := by
    intro t ht
    obtain ⟨-, hadmitted, hthere⟩ := mem_guests.mp ht
    have hlt := hknown p t hadmitted
    rw [admitted_concat, Bool.or_eq_true] at hadmitted
    refine hadmitted.imp_left fun hadmitted => mem_guests.mpr ⟨hlt, hadmitted, ?_⟩
    rw [after_append] at hthere
    obtain ⟨⟨q, s, phase⟩, hx⟩ := Option.isSome_iff_exists.mp hthere
    obtain ⟨old, hold, -⟩ := session_before h.seated hlt hx
    rw [hold]
    rfl
  rcases admits_cases h.seated e p with hnobody | ⟨t, m', honly, hcapacity, hroom⟩
  · have hsubset : c.guests p (es ++ [e]) ⊆ c.guests p es := fun t ht =>
      (hguests t ht).resolve_right (by simp [hnobody t])
    refine Nat.le_trans (Finset.card_le_card hsubset) ?_
    rcases capacity_before h.seated e hm with hsame | hnew
    · exact h.bounded p m hsame
    · rw [h.vacant hnew]
      exact Nat.zero_le m
  · have hsame : m' = m := by
      rcases capacity_before h.seated e hm with hsame | hnew
      · exact Option.some_inj.mp (hcapacity.symm.trans hsame)
      · cases hcapacity.symm.trans hnew
    have hsubset : c.guests p (es ++ [e]) ⊆ insert t (c.guests p es) := fun u hu =>
      Finset.mem_insert.mpr ((hguests u hu).symm.imp_left (honly u))
    calc (c.guests p (es ++ [e])).card
        ≤ (insert t (c.guests p es)).card := Finset.card_le_card hsubset
      _ ≤ (c.guests p es).card + 1 := Finset.card_insert_le ..
      _ ≤ ((c.after es).calls p).card + 1 :=
          Nat.succ_le_succ (Finset.card_le_card (h.guests_subset p))
      _ = (c.after es).places p + 1 := by rw [h.counted]
      _ ≤ m := hsame ▸ hroom

theorem Hosted.concat (h : Hosted c es) (e : Event) : Hosted c (es ++ [e]) := by
  have hafter : c.after (es ++ [e]) = happen (c.after es) e := after_append c es [e]
  have hknown : ∀ p t, c.admitted p t (es ++ [e]) = true → t < (c.after es).nextTask := by
    intro p t ht
    rw [admitted_concat, Bool.or_eq_true] at ht
    rcases ht with ht | ht
    · exact h.known p t ht
    · obtain ⟨q, s, hs⟩ := (admits_iff.mp ht).1
      exact h.seated.manned.fresh.lt_of_session hs
  refine ⟨hafter ▸ h.seated.happen e, hafter ▸ counted_happen h.seated e h.counted,
    fun p t ht => ?_, fun p t ht x hx => ?_, fun p m hm => ?_⟩
  · rw [hafter]
    exact Nat.lt_of_lt_of_le (hknown p t ht) (nextTask_happen h.seated e)
  · rw [hafter] at hx
    obtain ⟨q, s, phase⟩ := x
    obtain ⟨old, hold, hlater⟩ := session_before h.seated (hknown p t ht) hx
    rw [admitted_concat, Bool.or_eq_true] at ht
    rcases ht with ht | ht
    · obtain ⟨s', old', heq, hbegun⟩ := begun_iff.mp (h.present p t ht _ hold)
      cases heq
      exact begun_iff.mpr ⟨s, phase, rfl, hlater hbegun⟩
    · obtain ⟨s', phase', hnow, hadmitted⟩ := (admits_iff.mp ht).2
      cases hx.symm.trans hnow
      exact begun_iff.mpr ⟨s, phase, rfl, begun_of_admitted hadmitted⟩
  · exact h.bounded_concat e hknown (hafter ▸ hm)

theorem hosted_initial (supply : Supply) (epoch : Nat) (directory : DirectoryService)
    (es : List Event) : Hosted (initial supply epoch directory) es := by
  induction es using List.reverseRecOn with
  | nil =>
    refine ⟨seated_initial supply epoch directory, fun p => rfl, nofun, nofun, fun p m hm => ?_⟩
    cases hm
  | append_singleton es e ih => exact ih.concat e

end Hosted

/-- In every history of every cluster, the count of each process is the number of sessions that have
begun and not ended, and those among them that were let in are never more than its limit. -/
theorem places_are_calls (supply : Supply) (epoch : Nat) (directory : DirectoryService)
    (es : List Event) (p : Nat) (q : Process)
    (hq : ((initial supply epoch directory).after es).processes.get? p = some q) :
    q.sockets = (((initial supply epoch directory).after es).calls p).card ∧
      ((initial supply epoch directory).guests p es).card ≤ q.settings.maxConnections := by
  have h := hosted_initial supply epoch directory es
  refine ⟨?_, h.bounded p _ (congrArg _ hq)⟩
  rw [← h.counted, places, hq]
  rfl

/-- Where there is one place, the second device is turned away; while it takes no data it keeps a
place of its own. -/
theorem places_are_calls_busy :
    let c := initial ⟨Uuid.numbered 1, toString⟩ 0 { directory := {} }
    let es := [.addProcess (.ofConfig { maxConnections := 1 }), .connect 0 (.v4 [10, 0, 0, 1]),
      .connect 0 (.v4 [10, 0, 0, 2]), .stall 1, .turn 0, .turn 1, .turn 1]
    (∃ q, (c.after es).processes.get? 0 = some q ∧ q.settings.maxConnections = 1 ∧
      q.sockets = ((c.after es).calls 0).card ∧ (c.guests 0 es).card ≤ 1) ∧
      (c.after es).calls 0 = {0, 1} ∧ c.guests 0 es = {0} := by
  intro c es
  refine ⟨?_, by decide +kernel, by decide +kernel⟩
  have hlimit : (c.after es).capacity? 0 = some 1 := by decide +kernel
  obtain ⟨q, hq, hmax⟩ := Option.map_eq_some_iff.mp hlimit
  have hboth := places_are_calls _ 0 { directory := {} } es 0 q hq
  exact ⟨q, hq, hmax, hboth.1, hmax ▸ hboth.2⟩

end Cluster

end FleetControl
