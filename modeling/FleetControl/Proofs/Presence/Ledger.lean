import FleetControl.Proofs.Cluster.Filing
import FleetControl.Proofs.Presence.Requests

/-! # The ledger of presence

Processes mark, refresh and remove connections over one store, in any order and whether or not the
store serves them, while heartbeats run and time goes on. All that they ask of the store is written
down with the time. -/
namespace FleetControl.Cluster

/-- A process does something about a connection. -/
def carryOut (c : Cluster) (p : Nat) : Deed → Cluster
  | .mark device conn => (c.markAlive p device conn).1
  | .refresh conn => (c.refresh p conn).1
  | .remove conn => (c.dropPresence p conn).1

theorem carryOut_eq (c : Cluster) (p : Nat) (d : Deed) : ∃ store processes,
    c.carryOut p d = { c with store := store, processes := processes } := by
  cases d with
  | mark device conn =>
    unfold carryOut markAlive
    dsimp only
    split <;> exact ⟨_, _, rfl⟩
  | refresh conn =>
    unfold carryOut refresh
    dsimp only
    split <;> exact ⟨_, _, rfl⟩
  | remove conn =>
    unfold carryOut dropPresence
    dsimp only
    split <;> exact ⟨_, _, rfl⟩

theorem carryOut_absent {c : Cluster} {p : Nat} (h : c.presence? p = none) (d : Deed) :
    c.carryOut p d = c := by
  have hp : c.processes.get? p = none := Option.map_eq_none_iff.mp h
  cases d with
  | mark device conn => simp only [carryOut, markAlive, hp]
  | refresh conn => simp only [carryOut, refresh, hp]
  | remove conn => simp only [carryOut, dropPresence, hp]

theorem presence_updateProcess (c : Cluster) (p r : Nat) (presence : Presence) :
    (c.updateProcess p fun q => { q with presence := presence }).presence? r =
      if r = p then (c.presence? r).map fun _ => presence else c.presence? r := by
  simp only [presence?, updateProcess, Table.get?_modify]
  split
  · simp only [Option.map_map]
    rfl
  · rfl

theorem carryOut_effect {c : Cluster} {p : Nat} {q : Presence} (h : c.presence? p = some q)
    (d : Deed) : (c.carryOut p d).store = (d.effect q c.store c.now).2 ∧
      ∀ r, (c.carryOut p d).presence? r =
        if r = p then some (d.effect q c.store c.now).1 else c.presence? r := by
  obtain ⟨process, hp, rfl⟩ := Option.map_eq_some_iff.mp h
  have hput : ∀ presence r, (c.updateProcess p fun x => { x with presence := presence }).presence? r
      = if r = p then some presence else c.presence? r := by
    intro presence r
    rw [presence_updateProcess]
    split
    · rename_i hr
      rw [hr, h, Option.map_some]
    · rfl
  cases d with
  | mark device conn =>
    simp only [carryOut, markAlive, hp, Deed.effect]
    exact ⟨rfl, hput _⟩
  | refresh conn =>
    simp only [carryOut, refresh, hp, Deed.effect, true_and]
    intro r
    split
    · rename_i hr
      rw [hr]
      exact h
    · rfl
  | remove conn =>
    simp only [carryOut, dropPresence, hp, Deed.effect]
    exact ⟨rfl, hput _⟩

namespace Ledger

inductive Act where
  | outage (down : List StoreOp)
  | mark (p : Nat) (device : String) (conn : Uuid)
  | refresh (p : Nat) (conn : Uuid)
  | remove (p : Nat) (conn : Uuid)
  | count (device : String)
  | beat (p : Nat) (conn : Uuid) (interval : Nat)
  | stop (t : TaskId)
  | turn (t : TaskId)
  | pass (ms : Nat)

def act (c : Cluster) : Act → Cluster
  | .outage down => c.setOutages down
  | .mark p device conn => (c.markAlive p device conn).1
  | .refresh p conn => (c.refresh p conn).1
  | .remove p conn => (c.dropPresence p conn).1
  | .count device => (c.countAlive device).1
  | .beat p conn interval => (c.beat p conn interval).1
  | .stop t => c.remove t
  | .turn t => c.give t
  | .pass ms => c.pass ms

def play (c : Cluster) : List Act → Cluster
  | [] => c
  | a :: as => play (act c a) as

theorem play_append (c : Cluster) (as bs : List Act) :
    play c (as ++ bs) = play (play c as) bs := by
  induction as generalizing c with
  | nil => rfl
  | cons a as ih => exact ih (act c a)

/-- The connection that a task refreshes in its turn. -/
def due? (c : Cluster) (t : TaskId) : Option (Nat × Deed) :=
  match c.tasks.get? t with
  | some (.heartbeat p conn interval due) =>
    if t ∈ c.ready ∧ interval ≠ 0 ∧ due ≤ c.now then some (p, .refresh conn) else none
  | _ => none

/-- What a process does in an act. -/
def deed? (c : Cluster) : Act → Option (Nat × Deed)
  | .mark p device conn => some (p, .mark device conn)
  | .refresh p conn => some (p, .refresh conn)
  | .remove p conn => some (p, .remove conn)
  | .turn t => due? c t
  | _ => none

/-- What is asked of the store in an act. -/
def asked (c : Cluster) (a : Act) : List Request :=
  match deed? c a with
  | none => []
  | some (p, d) =>
    match c.presence? p with
    | none => []
    | some q => d.asks q c.store c.now

/-- All that is asked of the store, with the time. -/
def ledger (c : Cluster) : List Act → List (Nat × Request)
  | [] => []
  | a :: as => (asked c a).map (fun r => (c.now, r)) ++ ledger (act c a) as

/-- Everything stands where it belongs, and only heartbeats run. -/
structure Tidy (c : Cluster) : Prop where
  filed : c.store.store.Filed
  beats : ∀ t task, c.tasks.get? t = some task →
    ∃ p conn interval due, task = .heartbeat p conn interval due

/-- What the store holds stays, apart from records that have lapsed. -/
def Fades (now : Nat) (s s' : Store) : Prop :=
  ∀ key, s'.slots.get? key = s.slots.get? key ∨ s'.slots.get? key = s.live? key now

theorem Fades.refl (now : Nat) (s : Store) : Fades now s s := fun _ => Or.inl rfl

theorem get?_countPrefix {s : Store} (h : s.slots.Distinct) (start : String) (now : Nat)
    (key : String) : (s.countPrefix start now).1.slots.get? key = s.live? key now :=
  Table.get?_filter h (·.isLive now) key

theorem fades_countAlive {c : Cluster} (h : c.store.store.Filed) (device : String) :
    Fades c.now c.store.store (c.countAlive device).1.store.store := by
  unfold countAlive Presence.countAlive SharedStore.countPrefix
  cases c.store.refusal? .countPrefix with
  | some e => exact Fades.refl _ _
  | none =>
    exact fun key => Or.inr (get?_countPrefix h.distinct (Presence.keyStem device) c.now key)

theorem down_countAlive (c : Cluster) (device : String) :
    (c.countAlive device).1.store.down = c.store.down := by
  unfold countAlive Presence.countAlive SharedStore.countPrefix
  cases c.store.refusal? .countPrefix <;> rfl

section Turns
variable {c : Cluster} {t : TaskId}

theorem due_some {p : Nat} {d : Deed} (h : due? c t = some (p, d)) : ∃ conn interval due,
    c.tasks.get? t = some (.heartbeat p conn interval due) ∧ t ∈ c.ready ∧ interval ≠ 0 ∧
      due ≤ c.now ∧ d = .refresh conn := by
  unfold due? at h
  split at h
  · rename_i q conn interval due ht
    split at h
    · rename_i hc
      cases h
      exact ⟨conn, interval, due, ht, hc.1, hc.2.1, hc.2.2, rfl⟩
    · cases h
  · cases h

theorem give_due {p : Nat} {conn : Uuid} {interval due : Nat}
    (ht : c.tasks.get? t = some (.heartbeat p conn interval due)) (hr : t ∈ c.ready)
    (hi : interval ≠ 0) (hd : due ≤ c.now) :
    c.give t = { (c.refresh p conn).1 with
      tasks := c.tasks.put t (.heartbeat p conn interval (due + interval))
      ready := t :: (c.ready.erase t).filter (· ≠ t) } := by
  have hrefresh : (({ c with ready := c.ready.erase t } : Cluster).refresh p conn).1 =
      { (c.refresh p conn).1 with ready := c.ready.erase t } := by
    simp only [refresh]
    split <;> rfl
  have htasks : (c.refresh p conn).1.tasks = c.tasks := by
    unfold refresh
    split <;> rfl
  simp only [give, if_pos hr, turn, ht, heartbeatTurn, if_neg hi, if_pos hd, hrefresh, setTask,
    htasks]

theorem give_early {p : Nat} {conn : Uuid} {interval due : Nat}
    (ht : c.tasks.get? t = some (.heartbeat p conn interval due)) (hr : t ∈ c.ready)
    (hi : interval ≠ 0) (hd : ¬ due ≤ c.now) :
    c.give t = ({ c with ready := c.ready.erase t } : Cluster).setTimer t due := by
  simp only [give, if_pos hr, turn, ht, heartbeatTurn, if_neg hi, if_neg hd]

theorem give_over (hr : t ∈ c.ready) (h : c.tasks.get? t = none ∨
    ∃ p conn due, c.tasks.get? t = some (.heartbeat p conn 0 due)) :
    c.give t = ({ c with ready := c.ready.erase t } : Cluster).finish t := by
  rcases h with h | ⟨p, conn, due, h⟩
  · simp only [give, if_pos hr, turn, h]
  · simp only [give, if_pos hr, turn, h, heartbeatTurn, if_pos]

/-- What a turn comes to: the task has none or is over, its connection is refreshed, or it is too
early for that. -/
inductive Turned (c : Cluster) (t : TaskId) : Cluster → Prop where
  | asleep (hr : t ∉ c.ready) : Turned c t c
  | ends (hr : t ∈ c.ready) : Turned c t (({ c with ready := c.ready.erase t } : Cluster).finish t)
  | due (p : Nat) (conn : Uuid) (interval due : Nat)
      (ht : c.tasks.get? t = some (.heartbeat p conn interval due)) (hr : t ∈ c.ready)
      (hi : interval ≠ 0) (hd : due ≤ c.now) :
    Turned c t { (c.refresh p conn).1 with
      tasks := c.tasks.put t (.heartbeat p conn interval (due + interval))
      ready := t :: (c.ready.erase t).filter (· ≠ t) }
  | early (p : Nat) (conn : Uuid) (interval due : Nat)
      (ht : c.tasks.get? t = some (.heartbeat p conn interval due)) (hr : t ∈ c.ready)
      (hi : interval ≠ 0) (hd : ¬ due ≤ c.now) :
    Turned c t (({ c with ready := c.ready.erase t } : Cluster).setTimer t due)

theorem turned_give (h : Tidy c) (t : TaskId) : Turned c t (c.give t) := by
  by_cases hr : t ∈ c.ready
  · cases ht : c.tasks.get? t with
    | none => exact give_over hr (Or.inl ht) ▸ .ends hr
    | some task =>
      obtain ⟨p, conn, interval, due, rfl⟩ := h.beats t task ht
      by_cases hi : interval = 0
      · subst hi
        exact give_over hr (Or.inr ⟨p, conn, due, ht⟩) ▸ .ends hr
      · by_cases hd : due ≤ c.now
        · exact give_due ht hr hi hd ▸ .due p conn interval due ht hr hi hd
        · exact give_early ht hr hi hd ▸ .early p conn interval due ht hr hi hd
  · exact (give_of_not_mem hr).symm ▸ .asleep hr

end Turns

/-- What an act does, seen from the store and from the processes: a deed of one process, or
nothing but that lapsed records may disappear. -/
theorem act_deed {c : Cluster} {a : Act} {p : Nat} {d : Deed} (h : deed? c a = some (p, d)) :
    (act c a).store = (c.carryOut p d).store ∧ (act c a).now = c.now ∧
      ∀ r, (act c a).presence? r = (c.carryOut p d).presence? r := by
  cases a with
  | mark q device conn =>
    cases h
    exact ⟨rfl, now_markAlive c p conn device, fun _ => rfl⟩
  | refresh q conn =>
    cases h
    exact ⟨rfl, now_refresh c p conn, fun _ => rfl⟩
  | remove q conn =>
    cases h
    exact ⟨rfl, now_dropPresence c p conn, fun _ => rfl⟩
  | turn t =>
    obtain ⟨conn, interval, due, ht, hr, hi, hd, rfl⟩ := due_some h
    simp only [act, give_due ht hr hi hd]
    exact ⟨rfl, now_refresh c p conn, fun _ => rfl⟩
  | _ => cases h

theorem act_idle {c : Cluster} (h : Tidy c) {a : Act} (hd : deed? c a = none) :
    Fades c.now c.store.store (act c a).store.store ∧
      ((∀ down, a ≠ .outage down) → (act c a).store.down = c.store.down) ∧
      (∀ r, (act c a).presence? r = c.presence? r) ∧ c.now ≤ (act c a).now := by
  have hsame : ∀ c' : Cluster, c'.store = c.store → c'.processes = c.processes → c'.now = c.now →
      Fades c.now c.store.store c'.store.store ∧
        ((∀ down, a ≠ .outage down) → c'.store.down = c.store.down) ∧
        (∀ r, c'.presence? r = c.presence? r) ∧ c.now ≤ c'.now := by
    intro c' hstore hprocesses hnow
    refine ⟨fun key => Or.inl (by rw [hstore]), fun _ => by rw [hstore], fun r => ?_,
      Nat.le_of_eq hnow.symm⟩
    rw [presence?, presence?, hprocesses]
  cases a with
  | outage down =>
    exact ⟨fun _ => Or.inl rfl, fun h => absurd rfl (h down), fun _ => rfl, Nat.le_refl _⟩
  | mark q device conn => cases hd
  | refresh q conn => cases hd
  | remove q conn => cases hd
  | count device =>
    exact ⟨fades_countAlive h.filed device, fun _ => down_countAlive c device, fun _ => rfl,
      Nat.le_refl _⟩
  | beat p conn interval => exact hsame _ rfl rfl rfl
  | stop t => exact hsame _ rfl rfl rfl
  | turn t =>
    have hturned := turned_give h t
    simp only [act]
    generalize c.give t = c' at hturned ⊢
    cases hturned with
    | asleep => exact hsame c rfl rfl rfl
    | ends => exact hsame _ (store_finish _ t) (processes_finish _ t) (now_finish _ t)
    | due p conn interval due ht hr hi hdue =>
      simp only [deed?, due?, ht, if_pos (And.intro hr (And.intro hi hdue))] at hd
      cases hd
    | early => exact hsame _ rfl rfl rfl
  | pass ms =>
    obtain ⟨now, timers, ready, hle, he⟩ := pass_keeps c ms
    simp only [act, he]
    exact ⟨fun _ => Or.inl rfl, fun _ => trivial, fun _ => rfl, hle⟩

theorem files_act (c : Cluster) (a : Act) : Files c.store (act c a).store := by
  cases a with
  | mark p device conn => exact files_markAlive c p device conn
  | refresh p conn => exact files_refresh c p conn
  | remove p conn => exact files_dropPresence c p conn
  | count device => exact files_countAlive c device
  | turn t => exact files_give c t
  | pass ms => exact files_of_store (store_pass c ms)
  | _ => exact Files.refl _

/-- The tasks are those that were there, a new heartbeat apart. -/
theorem tasks_act {c : Cluster} (h : Tidy c) {a : Act} {t : TaskId} {task : Task}
    (ht : (act c a).tasks.get? t = some task) :
    c.tasks.get? t = some task ∨ ∃ p conn interval due, task = .heartbeat p conn interval due := by
  have hput : ∀ {tasks : Table TaskId Task} {u p conn interval due},
      (tasks.put u (.heartbeat p conn interval due)).get? t = some task →
      tasks.get? t = some task ∨ ∃ p conn interval due, task = .heartbeat p conn interval due := by
    intro tasks u p conn interval due hu
    rw [Table.get?_put] at hu
    split at hu
    · cases hu
      exact Or.inr ⟨p, conn, interval, due, rfl⟩
    · exact Or.inl hu
  have herase : ∀ {u}, (c.tasks.erase u).get? t = some task → c.tasks.get? t = some task := by
    intro u hu
    rw [Table.get?_erase] at hu
    split at hu
    · cases hu
    · exact hu
  have hfinish : ∀ {u ready}, (({ c with ready := ready } : Cluster).finish u).tasks.get? t =
      some task → c.tasks.get? t = some task := by
    intro u ready hu
    rw [tasks_finish] at hu
    exact herase hu
  have hdeed : ∀ {p d}, (c.carryOut p d).tasks.get? t = some task →
      c.tasks.get? t = some task := by
    intro p d hd
    obtain ⟨store, processes, he⟩ := c.carryOut_eq p d
    rw [he] at hd
    exact hd
  cases a with
  | mark p device conn => exact Or.inl (hdeed (d := .mark device conn) ht)
  | refresh p conn => exact Or.inl (hdeed (d := .refresh conn) ht)
  | remove p conn => exact Or.inl (hdeed (d := .remove conn) ht)
  | beat p conn interval => exact hput ht
  | stop u => exact Or.inl (herase ht)
  | turn u =>
    have hturned := turned_give h u
    rw [act] at ht
    generalize c.give u = c' at hturned ht
    cases hturned with
    | asleep | early => exact Or.inl ht
    | ends => exact Or.inl (hfinish ht)
    | due => exact hput ht
  | pass ms =>
    obtain ⟨now, timers, ready, -, he⟩ := pass_keeps c ms
    rw [act, he] at ht
    exact Or.inl ht
  | _ => exact Or.inl ht

theorem tidy_act {c : Cluster} (h : Tidy c) (a : Act) : Tidy (act c a) where
  filed := files_act c a h.filed
  beats t task ht := (tasks_act h ht).elim (h.beats t task) id

theorem tidy_running (supply : Supply) (epoch : Nat) (settings : List ServerSettings) :
    Tidy (running supply epoch settings) := by
  rw [running_eq]
  exact ⟨Store.filed_empty, fun _ _ h => nomatch h⟩

theorem tidy_play {c : Cluster} (h : Tidy c) (as : List Act) : Tidy (play c as) := by
  induction as generalizing c with
  | nil => exact h
  | cons a as ih => exact ih (tidy_act h a)

theorem now_le_act {c : Cluster} (h : Tidy c) (a : Act) : c.now ≤ (act c a).now := by
  cases hd : deed? c a with
  | none => exact (act_idle h hd).2.2.2
  | some e => exact Nat.le_of_eq (act_deed hd).2.1.symm

theorem now_le_play {c : Cluster} (h : Tidy c) (as : List Act) : c.now ≤ (play c as).now := by
  induction as generalizing c with
  | nil => exact Nat.le_refl _
  | cons a as ih => exact Nat.le_trans (now_le_act h a) (ih (tidy_act h a))

/-- The store serves what is asked of it; then lapsed records may disappear. -/
theorem served_act {c : Cluster} (h : Tidy c) (a : Act) : ∃ s,
    Served c.now c.store (asked c a) s ∧ Fades c.now s.store (act c a).store.store := by
  cases hd : deed? c a with
  | none =>
    refine ⟨c.store, ?_, (act_idle h hd).1⟩
    simp only [asked, hd]
    exact .nil _
  | some e =>
    obtain ⟨p, d⟩ := e
    refine ⟨(act c a).store, ?_, Fades.refl _ _⟩
    rw [(act_deed hd).1, asked, hd]
    cases hq : c.presence? p with
    | none =>
      simp only [hq, carryOut_absent hq]
      exact .nil _
    | some q =>
      simp only [hq, (carryOut_effect hq d).1]
      exact d.served q c.store c.now

/-- A record stood there before the act, or the act renewed it. -/
theorem dated_act {c : Cluster} (h : Tidy c) {a : Act} {device : String} {conn : Uuid}
    {slot : StoreSlot}
    (hslot : (act c a).store.store.slots.get? (Presence.key device conn) = some slot) :
    c.store.store.slots.get? (Presence.key device conn) = some slot ∨
      ∃ r ∈ asked c a, r.Renews device conn ∧ slot.expiresAt = some (c.now + r.ttl) := by
  obtain ⟨s, hserved, hfades⟩ := served_act h a
  refine hserved.dated ?_
  rcases hfades (Presence.key device conn) with hsame | hlive
  · rw [← hsame]
    exact hslot
  · rw [hlive, Store.live?] at hslot
    exact (Option.filter_eq_some_iff.mp hslot).1

/-- A record stood there before the run, or a request in it renewed the record. -/
theorem dated_play {c : Cluster} (h : Tidy c) (as : List Act) {device : String} {conn : Uuid}
    {slot : StoreSlot}
    (hslot : (play c as).store.store.slots.get? (Presence.key device conn) = some slot) :
    c.store.store.slots.get? (Presence.key device conn) = some slot ∨
      ∃ e ∈ ledger c as, e.2.Renews device conn ∧ slot.expiresAt = some (e.1 + e.2.ttl) := by
  induction as generalizing c with
  | nil => exact Or.inl hslot
  | cons a as ih =>
    rcases ih (tidy_act h a) hslot with hold | ⟨e, he, hrenews⟩
    · refine (dated_act h hold).imp_right ?_
      rintro ⟨r, hr, hrenews⟩
      exact ⟨(c.now, r), List.mem_append_left _ (List.mem_map.mpr ⟨r, hr, rfl⟩), hrenews⟩
    · exact Or.inr ⟨e, List.mem_append_right _ he, hrenews⟩

/-- The connection that an act marks. -/
def Act.marks? : Act → Option Uuid
  | .mark _ _ conn => some conn
  | _ => none

/-- The connections that a run marks, in order. -/
def marked (as : List Act) : List Uuid := as.filterMap Act.marks?

theorem marks_of_deed {c : Cluster} {a : Act} {p : Nat} {device : String} {conn : Uuid}
    (h : deed? c a = some (p, .mark device conn)) : a = .mark p device conn := by
  cases a with
  | mark q other x =>
    cases h
    rfl
  | turn t =>
    obtain ⟨x, interval, due, -, -, -, -, hd⟩ := due_some h
    cases hd
  | _ => cases h

theorem removes_of_deed {c : Cluster} {a : Act} {p : Nat} {conn : Uuid}
    (h : deed? c a = some (p, .remove conn)) : a = .remove p conn := by
  cases a with
  | remove q x =>
    cases h
    rfl
  | turn t =>
    obtain ⟨x, interval, due, -, -, -, -, hd⟩ := due_some h
    cases hd
  | _ => cases h

/-- A request is part of a deed of a process about the connection that the request names. -/
theorem deed_of_asked {c : Cluster} {a : Act} {r : Request} (hr : r ∈ asked c a) : ∃ p d q,
    deed? c a = some (p, d) ∧ c.presence? p = some q ∧ r ∈ d.asks q c.store c.now ∧
      r.conn = d.conn ∧ r.ttl = q.ttl := by
  unfold asked at hr
  cases hd : deed? c a with
  | none =>
    simp only [hd] at hr
    cases hr
  | some e =>
    obtain ⟨p, d⟩ := e
    simp only [hd] at hr
    cases hq : c.presence? p with
    | none =>
      simp only [hq] at hr
      cases hr
    | some q =>
      simp only [hq] at hr
      exact ⟨p, d, q, rfl, hq, hr, Deed.named q c.store c.now hr⟩

theorem recorded_of_presence {c : Cluster} {p : Nat} {q : Presence} (hq : c.presence? p = some q)
    (conn : Uuid) : c.recorded? p conn = q.held.get? conn := by
  rw [recorded?, hq, Option.bind_some]

/-- A connection that a process does not hold is not asked about there, unless it is marked. -/
theorem recorded_of_asked {c : Cluster} {a : Act} {r : Request} (hr : r ∈ asked c a)
    (hm : a.marks? ≠ some r.conn) : ∃ p d, deed? c a = some (p, d) ∧ d.conn = r.conn ∧
      c.recorded? p r.conn ≠ none := by
  obtain ⟨p, d, q, hd, hq, hasks, hconn, -⟩ := deed_of_asked hr
  refine ⟨p, d, hd, hconn.symm, fun hnone => ?_⟩
  rw [recorded_of_presence hq, hconn] at hnone
  rw [d.asks_of_absent q c.store c.now hnone] at hasks
  · cases hasks
  · rintro device conn rfl
    rw [marks_of_deed hd] at hm
    exact hm (by rw [hconn]; rfl)

/-- A connection that a process does not hold comes to it by a mark only. -/
theorem unrecorded_act {c : Cluster} (h : Tidy c) {a : Act} {p : Nat} {conn : Uuid}
    (hp : c.recorded? p conn = none) (hm : ∀ device, a ≠ .mark p device conn) :
    (act c a).recorded? p conn = none := by
  cases hd : deed? c a with
  | none =>
    rw [recorded?, (act_idle h hd).2.2.1]
    exact hp
  | some e =>
    obtain ⟨r, d⟩ := e
    rw [recorded?, (act_deed hd).2.2]
    cases hq : c.presence? r with
    | none =>
      rw [carryOut_absent hq]
      exact hp
    | some q =>
      rw [(carryOut_effect hq d).2]
      split
      · rename_i hpr
        subst hpr
        rw [recorded_of_presence hq] at hp
        by_cases hc : conn = d.conn
        · subst hc
          refine d.held_effect_of_absent q c.store c.now hp ?_
          rintro device x rfl
          exact hm device (marks_of_deed hd)
        · exact (d.held_effect_of_ne q c.store c.now hc).trans hp
      · exact hp

/-- What a run marks, its first act marks or the rest of it. -/
theorem not_marked_cons {a : Act} {as : List Act} {conn : Uuid} (h : conn ∉ marked (a :: as)) :
    a.marks? ≠ some conn ∧ conn ∉ marked as := by
  refine ⟨fun he => h (List.mem_filterMap.mpr ⟨a, List.mem_cons_self, he⟩), fun he => ?_⟩
  obtain ⟨b, hb, hmarks⟩ := List.mem_filterMap.mp he
  exact h (List.mem_filterMap.mpr ⟨b, List.mem_cons_of_mem _ hb, hmarks⟩)

theorem recorded_play {c : Cluster} (h : Tidy c) {as : List Act} {p : Nat} {conn : Uuid}
    (hp : c.recorded? p conn = none) (hm : conn ∉ marked as) :
    (play c as).recorded? p conn = none := by
  induction as generalizing c with
  | nil => exact hp
  | cons a as ih =>
    obtain ⟨ha, has⟩ := not_marked_cons hm
    exact ih (tidy_act h a) (unrecorded_act h hp (by rintro device rfl; exact ha rfl)) has

/-- A process forgets what it removes, whether or not the store does. -/
theorem recorded_remove (c : Cluster) (p : Nat) (conn : Uuid) :
    (act c (.remove p conn)).recorded? p conn = none := by
  change (c.carryOut p (.remove conn)).recorded? p conn = none
  cases hq : c.presence? p with
  | none =>
    rw [carryOut_absent hq, recorded?, hq]
    rfl
  | some q =>
    rw [recorded?, (carryOut_effect hq _).2, if_pos rfl, Option.bind_some]
    exact q.held_remove c.store conn

/-- No process holds a connection. -/
def Unrecorded (c : Cluster) (conn : Uuid) : Prop := ∀ p, c.recorded? p conn = none

/-- No record of a connection is in the store. -/
def Absent (c : Cluster) (conn : Uuid) : Prop :=
  ∀ device, c.store.store.slots.get? (Presence.key device conn) = none

section Unrecorded
variable {c : Cluster} {conn : Uuid}

theorem not_asked_of_unrecorded (h : Unrecorded c conn) {a : Act} (hm : a.marks? ≠ some conn) :
    ∀ r ∈ asked c a, r.conn ≠ conn := by
  rintro r hr rfl
  obtain ⟨p, d, -, -, hheld⟩ := recorded_of_asked hr hm
  exact hheld (h p)

theorem unrecorded_of_act (h : Unrecorded c conn) (ht : Tidy c) {a : Act}
    (hm : a.marks? ≠ some conn) : Unrecorded (act c a) conn := fun p =>
  unrecorded_act ht (h p) (by rintro device rfl; exact hm rfl)

/-- Nobody asks about a connection that no process holds, and no record of it comes up. -/
theorem unrecorded_play (h : Unrecorded c conn) (ht : Tidy c) {as : List Act}
    (hm : conn ∉ marked as) : Unrecorded (play c as) conn ∧
      (∀ e ∈ ledger c as, e.2.conn ≠ conn) ∧ (Absent c conn → Absent (play c as) conn) := by
  induction as generalizing c with
  | nil => exact ⟨h, fun e he => absurd he List.not_mem_nil, id⟩
  | cons a as ih =>
    obtain ⟨ha, has⟩ := not_marked_cons hm
    have hasked := not_asked_of_unrecorded h ha
    obtain ⟨hend, hledger, habsent⟩ := ih (unrecorded_of_act h ht ha) (tidy_act ht a) has
    refine ⟨hend, fun e he => ?_, fun hnone => habsent fun device => ?_⟩
    · rcases List.mem_append.mp he with he | he
      · obtain ⟨r, hr, rfl⟩ := List.mem_map.mp he
        exact hasked r hr
      · exact hledger e he
    · cases hslot : (act c a).store.store.slots.get? (Presence.key device conn) with
      | none => rfl
      | some slot =>
        rcases dated_act ht hslot with hold | ⟨r, hr, hrenews, -⟩
        · rw [hnone device] at hold
          cases hold
        · exact absurd hrenews.2.2.1 (hasked r hr)

end Unrecorded

section Running
variable (supply : Supply) (epoch : Nat) (settings : List ServerSettings)

theorem presence_running (p : Nat) : (running supply epoch settings).presence? p =
    settings[p]?.map fun s => ⟨s.presenceTtl, []⟩ := by
  rw [presence?, get?_running, Option.map_map]
  rfl

theorem unrecorded_running (conn : Uuid) : Unrecorded (running supply epoch settings) conn := by
  intro p
  rw [recorded?, presence_running]
  cases settings[p]? <;> rfl

theorem absent_running (conn : Uuid) : Absent (running supply epoch settings) conn := by
  rw [running_eq]
  exact fun _ => rfl

end Running

/-- A process keeps the time that its records live. -/
theorem ttl_act {c : Cluster} (h : Tidy c) (a : Act) (p : Nat) :
    ((act c a).presence? p).map (·.ttl) = (c.presence? p).map (·.ttl) := by
  cases hd : deed? c a with
  | none => rw [(act_idle h hd).2.2.1]
  | some e =>
    obtain ⟨r, d⟩ := e
    rw [(act_deed hd).2.2]
    cases hq : c.presence? r with
    | none => rw [carryOut_absent hq]
    | some q =>
      rw [(carryOut_effect hq d).2]
      split
      · rename_i hp
        rw [hp, hq, Option.map_some, Option.map_some, d.ttl_effect q c.store c.now]
      · rfl

theorem ttl_play {c : Cluster} (h : Tidy c) (as : List Act) (p : Nat) :
    ((play c as).presence? p).map (·.ttl) = (c.presence? p).map (·.ttl) := by
  induction as generalizing c with
  | nil => rfl
  | cons a as ih => exact (ih (tidy_act h a)).trans (ttl_act h a p)

theorem ttl_of_ledger {c : Cluster} (h : Tidy c) {as : List Act} {e : Nat × Request}
    (he : e ∈ ledger c as) : ∃ p q, c.presence? p = some q ∧ e.2.ttl = q.ttl := by
  induction as generalizing c with
  | nil => cases he
  | cons a as ih =>
    rcases List.mem_append.mp he with he | he
    · obtain ⟨r, hr, rfl⟩ := List.mem_map.mp he
      obtain ⟨p, d, q, -, hq, -, -, httl⟩ := deed_of_asked hr
      exact ⟨p, q, hq, httl⟩
    · obtain ⟨p, q, hq, httl⟩ := ih (tidy_act h a) he
      have hsame := ttl_act h a p
      rw [hq, Option.map_some] at hsame
      obtain ⟨q', hq', hsame'⟩ := Option.map_eq_some_iff.mp hsame.symm
      exact ⟨p, q', hq', httl.trans hsame'.symm⟩

/-- A mark that the store refuses leaves everything as it was. -/
theorem mark_refused {c : Cluster} {p : Nat} {device : String} {conn : Uuid} {e : ChannelError}
    (h : (c.markAlive p device conn).2 = .error e) :
    (c.markAlive p device conn).1.store = c.store ∧
      ∀ r, (c.markAlive p device conn).1.presence? r = c.presence? r := by
  unfold markAlive at h ⊢
  cases hp : c.processes.get? p with
  | none =>
    rw [hp] at h
    cases h
  | some q =>
    rw [hp] at h
    unfold Presence.markAlive SharedStore.setEx at h ⊢
    cases hr : c.store.refusal? .setEx with
    | none =>
      rw [hr] at h
      cases h
    | some e' =>
      refine ⟨rfl, fun r => ?_⟩
      dsimp only
      rw [presence_updateProcess]
      split
      · rename_i hrp
        subst hrp
        simp only [presence?, hp, Option.map_some]
      · rfl

end Ledger

end FleetControl.Cluster
