import FleetControl.Proofs.Bridge.Workers
import FleetControl.Proofs.Presence.Ledger

/-! # Routes behind records

Sessions of any devices start and end in every process, one step at a time and in any order: a
connection is registered, synced with the bridge and marked, and later its presence is removed, it
is unregistered and synced again. Whoever sees the record of a connection finds a process that holds
it and runs a worker for its device. -/
namespace FleetControl

/-- The store takes a new record, or all stays as it is. -/
theorem Presence.markAlive_cases (q : Presence) (s : SharedStore) (device : String) (conn : Uuid)
    (now : Nat) : (∃ s', q.markAlive s device conn now =
        ({ q with held := q.held.put conn device }, s', .ok ())) ∨
      ∃ e, q.markAlive s device conn now = (q, s, .error e) := by
  unfold Presence.markAlive SharedStore.setEx
  cases s.refusal? .setEx with
  | none => exact Or.inl ⟨_, rfl⟩
  | some e => exact Or.inr ⟨e, rfl⟩

namespace Cluster

section Presence
variable {c c' : Cluster} {p : Nat} {device : String} {conn : Uuid}

theorem unmoved_presence (h : Staffed c) (p : Nat) (store : SharedStore) (presence : Presence) :
    Unmoved c (({ c with store := store } : Cluster).updateProcess p
      fun q => { q with presence := presence }) := by
  have hstore : Unmoved c { c with store := store } := h.same ⟨rfl, rfl, rfl⟩
  exact hstore.trans (hstore.staffed.updateProcess p fun _ => ⟨rfl, rfl⟩)

theorem unmoved_markAlive (h : Staffed c) (p : Nat) (device : String) (conn : Uuid) :
    Unmoved c (c.markAlive p device conn).1 := by
  unfold markAlive
  split
  · exact h.same ⟨rfl, rfl, rfl⟩
  · exact unmoved_presence h p _ _

theorem unmoved_dropPresence (h : Staffed c) (p : Nat) (conn : Uuid) :
    Unmoved c (c.dropPresence p conn).1 := by
  unfold dropPresence
  split
  · exact h.same ⟨rfl, rfl, rfl⟩
  · exact unmoved_presence h p _ _

theorem noted_of_touches {key : String}
    (h : SharedStore.Touches key c.store c'.store) {other : String} {x : Uuid}
    (hx : c'.Noted other x) : c.Noted other x ∨ Presence.key other x = key := by
  by_cases hk : Presence.key other x = key
  · exact Or.inr hk
  · obtain ⟨slot, hslot⟩ := hx
    exact Or.inl ⟨slot, h.slots _ hk ▸ hslot⟩

theorem recorded_updateProcess {q : Process} (hq : c.processes.get? p = some q)
    (store : SharedStore) (presence : Presence) (r : Nat) (x : Uuid) :
    (({ c with store := store } : Cluster).updateProcess p
      fun q => { q with presence := presence }).recorded? r x =
      if r = p then presence.held.get? x else c.recorded? r x := by
  rw [recorded?, presence_updateProcess, presence?]
  split
  · rename_i hr
    rw [hr, hq]
    rfl
  · rfl

/-- A mark that the store takes leaves a record, and its process holds the connection. -/
theorem mark_ok (h : c.markAlive p device conn = (c', .ok ())) (hp : c.processes.has p = true) :
    c'.store.down = c.store.down ∧
      (∀ q x, c'.recorded? q x = if q = p ∧ x = conn then some device else c.recorded? q x) ∧
      ∀ other x, c'.Noted other x → c.Noted other x ∨ other = device ∧ x = conn := by
  have htouches := c.touches_markAlive p conn device
  rw [h] at htouches
  refine ⟨htouches.down, fun r x => ?_, fun other x hx =>
    (noted_of_touches htouches hx).imp_right Presence.key_inj⟩
  obtain ⟨q, hq⟩ := (Table.has_iff _ _).mp hp
  rcases q.presence.markAlive_cases c.store device conn c.now with ⟨s, hs⟩ | ⟨e, he⟩
  · simp only [markAlive, hq, hs] at h
    obtain rfl := congrArg Prod.fst h
    refine (recorded_updateProcess hq _ _ r x).trans ?_
    rw [Table.get?_put]
    by_cases hr : r = p
    · simp [hr, recorded?, presence?, hq]
    · simp only [hr, false_and, if_false]
  · simp only [markAlive, hq, he] at h
    cases congrArg Prod.snd h

/-- A mark that the store refuses changes nothing. -/
theorem mark_error {e : ChannelError} (h : c.markAlive p device conn = (c', .error e)) :
    c'.store = c.store ∧ ∀ r x, c'.recorded? r x = c.recorded? r x := by
  unfold markAlive at h
  cases hq : c.processes.get? p with
  | none =>
    rw [hq] at h
    cases congrArg Prod.snd h
  | some q =>
    rcases q.presence.markAlive_cases c.store device conn c.now with ⟨s, hs⟩ | ⟨e, he⟩
    · simp only [hq, hs] at h
      cases congrArg Prod.snd h
    · simp only [hq, he] at h
      obtain rfl := congrArg Prod.fst h
      refine ⟨rfl, fun r x => (recorded_updateProcess hq _ _ r x).trans ?_⟩
      split
      · rename_i hr
        rw [hr, recorded?, presence?, hq]
        rfl
      · rfl

/-- A removal that the store serves leaves no record. -/
theorem remove_ok (hup : StoreOp.del ∉ c.store.down) (h : c.recorded? p conn = some device) :
    (c.dropPresence p conn).1.store.down = c.store.down ∧
      (∀ r x, (c.dropPresence p conn).1.recorded? r x =
        if r = p ∧ x = conn then none else c.recorded? r x) ∧
      ∀ other x, (c.dropPresence p conn).1.Noted other x →
        c.Noted other x ∧ ¬ (other = device ∧ x = conn) := by
  have htouches := c.touches_dropPresence p conn h
  obtain ⟨presence, hpresence, hheld⟩ := Option.bind_eq_some_iff.mp h
  obtain ⟨q, hq, rfl⟩ := Option.map_eq_some_iff.mp hpresence
  have hserves : c.store.refusal? .del = none := if_neg hup
  have hdrops : (c.dropPresence p conn).1 =
      ({ c with store := { c.store with store := c.store.store.del (Presence.key device conn) } } :
        Cluster).updateProcess p fun x => { x with
          presence := { q.presence with held := q.presence.held.erase conn } } := by
    simp only [dropPresence, hq, Presence.remove, hheld, SharedStore.del, hserves]
  refine ⟨htouches.down, fun r x => ?_, fun other x hx => ?_⟩
  · rw [hdrops]
    refine (recorded_updateProcess hq _ _ r x).trans ?_
    rw [Table.get?_erase]
    by_cases hr : r = p
    · simp [hr, recorded?, presence?, hq]
    · simp only [hr, false_and, if_false]
  · have hgone : ¬ (other = device ∧ x = conn) := by
      rintro ⟨rfl, rfl⟩
      obtain ⟨slot, hslot⟩ := hx
      rw [hdrops] at hslot
      cases (Table.get?_erase_self c.store.store.slots _).symm.trans hslot
    have hold := (noted_of_touches htouches hx).resolve_right fun hk => hgone (Presence.key_inj hk)
    exact ⟨hold, hgone⟩

end Presence

namespace Routes

/-- How far a session has come with its connection. -/
inductive Stage where
  | registered
  /-- The sync of its start has looked at the connections. -/
  | syncing
  | synced
  | unregistered
  /-- The sync of its end has looked at the connections. -/
  | leaving
  | over
  deriving DecidableEq

/-- What has become of the record of a connection. -/
inductive Mark where
  | none
  | alive
  /-- The store would not take it, or it is removed. -/
  | gone
  deriving DecidableEq

/-- Whether the connection of a session is registered. -/
def Stage.enrolled : Stage → Bool
  | .registered => true
  | .syncing => true
  | .synced => true
  | _ => false

/-- The stage in which a sync begins, and the one in which it is under way. -/
def Stage.look? : Stage → Option Stage
  | .registered => some .syncing
  | .unregistered => some .leaving
  | _ => none

/-- A sync is done. -/
def Stage.settle : Stage → Stage
  | .syncing => .synced
  | .leaving => .over
  | stage => stage

structure Session where
  process : Nat
  device : String
  stage : Stage

/-- A cluster with the sessions that are there. -/
structure State where
  cluster : Cluster
  session : Uuid → Option Session := fun _ => none
  mark : Uuid → Mark := fun _ => .none
  /-- The session whose sync has the lock of each process, and whether the process held a
  connection of its device when the sync looked. -/
  seen : Nat → Option (Uuid × Bool) := fun _ => none

inductive Act where
  /-- A session starts and registers its connection, one that is new. -/
  | start (p : Nat) (device : String) (conn : Uuid)
  /-- A sync of a session gets the lock of its process, if it is free, and looks. -/
  | look (conn : Uuid)
  /-- The sync that has the lock starts or stops its worker and gives the lock back. -/
  | settle (p : Nat)
  | mark (conn : Uuid)
  | refresh (p : Nat) (conn : Uuid)
  | remove (conn : Uuid)
  | unregister (conn : Uuid)
  /-- Anything else, short of a new process, another kind of session, or deletes that fail. -/
  | event (e : Event)

/-- Whether the store goes on to serve deletes. -/
def Spares : Event → Bool
  | .setOutages down => .del ∉ down
  | _ => true

/-- A session comes to another stage. -/
def State.enter (s : State) (conn : Uuid) (x : Session) (stage : Stage) : State :=
  { s with session := Function.update s.session conn (some { x with stage := stage }) }

def act (s : State) : Act → State
  | .start p device conn =>
    if s.session conn = none ∧ s.cluster.processes.has p = true then
      { s.enter conn ⟨p, device, .registered⟩ .registered with
        cluster := (s.cluster.register p device conn).1 }
    else s
  | .look conn =>
    match s.session conn with
    | none => s
    | some x =>
      match s.seen x.process, x.stage.look? with
      | none, some stage =>
        { s.enter conn x stage with
          seen := Function.update s.seen x.process
            (some (conn, s.cluster.hasLocal x.process x.device)) }
      | _, _ => s
  | .settle p =>
    match s.seen p with
    | none => s
    | some (conn, wanted) =>
      match s.session conn with
      | none => s
      | some x =>
        { s.enter conn x x.stage.settle with
          cluster := s.cluster.staff p x.device wanted
          seen := Function.update s.seen p none }
  | .mark conn =>
    match s.session conn with
    | some ⟨p, device, .synced⟩ =>
      if s.mark conn = .none then
        match s.cluster.markAlive p device conn with
        | (c, .ok ()) => { s with cluster := c, mark := Function.update s.mark conn .alive }
        | (c, .error _) => { s with cluster := c, mark := Function.update s.mark conn .gone }
      else s
    | _ => s
  | .refresh p conn => { s with cluster := (s.cluster.refresh p conn).1 }
  | .remove conn =>
    match s.session conn with
    | some ⟨p, _, .synced⟩ =>
      if s.mark conn = .alive then
        { s with
          cluster := (s.cluster.dropPresence p conn).1
          mark := Function.update s.mark conn .gone }
      else s
    | _ => s
  | .unregister conn =>
    match s.session conn with
    | some ⟨p, device, .synced⟩ =>
      if s.mark conn = .gone then
        { s.enter conn ⟨p, device, .synced⟩ .unregistered with
          cluster := (s.cluster.unregister p device conn).1 }
      else s
    | _ => s
  | .event e =>
    if e.opens = false ∧ Spares e = true then { s with cluster := happen s.cluster e } else s

def play (s : State) : List Act → State
  | [] => s
  | a :: as => play (act s a) as

/-- Sessions, connections and workers agree. -/
structure Placed (s : State) : Prop where
  staffed : Staffed s.cluster
  home : ∀ {conn x}, s.session conn = some x → s.cluster.processes.has x.process = true
  enrolled : ∀ {conn x}, s.session conn = some x → x.stage.enrolled = true →
    conn ∈ (s.cluster.connectionsOf x.process).of x.device
  backed : ∀ {conn p device}, s.session conn = some ⟨p, device, .synced⟩ →
    s.cluster.Runs p device
  /-- Who starts has seen its own connection. -/
  holder : ∀ {p conn wanted}, s.seen p = some (conn, wanted) → ∃ device stage,
    s.session conn = some ⟨p, device, stage⟩ ∧ (stage = .syncing ∧ wanted = true ∨ stage = .leaving)
  syncing : ∀ {p conn device}, s.session conn = some ⟨p, device, .syncing⟩ →
    ∃ wanted, s.seen p = some (conn, wanted)
  /-- Who is about to stop a worker has seen that nobody depends on it. -/
  spared : ∀ {p conn device stage other}, s.seen p = some (conn, false) →
    s.session conn = some ⟨p, device, stage⟩ → s.session other ≠ some ⟨p, device, .synced⟩

/-- A record in the store is that of a session that has marked it. -/
structure Recorded (s : State) : Prop where
  serves : StoreOp.del ∉ s.cluster.store.down
  recorded : ∀ {p conn device}, s.cluster.recorded? p conn = some device ↔
    s.mark conn = .alive ∧ s.session conn = some ⟨p, device, .synced⟩
  noted : ∀ {device conn}, s.cluster.Noted device conn →
    s.mark conn = .alive ∧ ∃ p, s.session conn = some ⟨p, device, .synced⟩
  alive : ∀ {conn}, s.mark conn = .alive → ∃ p device, s.session conn = some ⟨p, device, .synced⟩

section Placed
variable {s : State}

theorem Placed.hasLocal (h : Placed s) {conn : Uuid} {x : Session} (hx : s.session conn = some x)
    (he : x.stage.enrolled = true) : s.cluster.hasLocal x.process x.device = true :=
  (h.staffed.hasLocal_iff x.process x.device).mpr ⟨conn, h.enrolled hx he⟩

/-- Sessions, connections and workers as before. -/
theorem Placed.unmoved (h : Placed s) {c : Cluster} (hc : Unmoved s.cluster c)
    (mark : Uuid → Mark) : Placed { s with cluster := c, mark := mark } where
  staffed := hc.staffed
  home hx := (hc.has _).trans (h.home hx)
  enrolled hx he := (hc.connectionsOf _).symm ▸ h.enrolled hx he
  backed hx := (hc.runs _ _).mpr (h.backed hx)
  holder := h.holder
  syncing := h.syncing
  spared := h.spared

theorem session_enter (s : State) (conn : Uuid) (x : Session) (stage : Stage) {other : Uuid}
    {y : Session} (hy : (s.enter conn x stage).session other = some y) :
    (other = conn ∧ y = { x with stage := stage }) ∨ other ≠ conn ∧ s.session other = some y := by
  by_cases ho : other = conn
  · subst ho
    have hself : (s.enter other x stage).session other = some { x with stage := stage } :=
      Function.update_self ..
    exact Or.inl ⟨rfl, Option.some_inj.mp (hy.symm.trans hself)⟩
  · have hother : (s.enter conn x stage).session other = s.session other :=
      Function.update_of_ne ho ..
    exact Or.inr ⟨ho, hother.symm.trans hy⟩

theorem session_enter_of_ne (s : State) {conn other : Uuid} (ho : other ≠ conn) (x : Session)
    (stage : Stage) : (s.enter conn x stage).session other = s.session other :=
  Function.update_of_ne ho ..

theorem Placed.start (h : Placed s) {p : Nat} {device : String} {conn : Uuid}
    (hnew : s.session conn = none) (hp : s.cluster.processes.has p = true) :
    Placed { s.enter conn ⟨p, device, .registered⟩ .registered with
      cluster := (s.cluster.register p device conn).1 } := by
  have hold : ∀ {other y}, s.session other = some y → other ≠ conn := by
    rintro other y hy rfl
    cases hnew.symm.trans hy
  have hhas : ∀ q, (s.cluster.register p device conn).1.processes.has q =
      s.cluster.processes.has q :=
    fun q => Table.has_of_keys (keys_updateProcess s.cluster p _) q
  refine ⟨h.staffed.register p device conn, fun hx => ?_, fun hx he => ?_, fun hx => ?_,
    fun hs => ?_, fun hx => ?_, fun hs hx hy => ?_⟩
  · rcases session_enter _ _ _ _ hx with ⟨-, rfl⟩ | ⟨-, hx⟩
    · exact (hhas p).trans hp
    · exact (hhas _).trans (h.home hx)
  · rcases session_enter _ _ _ _ hx with ⟨rfl, rfl⟩ | ⟨-, hx⟩
    · exact (mem_of_register hp).mpr (Or.inr ⟨rfl, rfl, rfl⟩)
    · exact (mem_of_register (h.home hx)).mpr (Or.inl (h.enrolled hx he))
  · rcases session_enter _ _ _ _ hx with ⟨-, hx⟩ | ⟨-, hx⟩
    · cases hx
    · exact h.backed hx
  · obtain ⟨other, stage, hx, hstage⟩ := h.holder hs
    exact ⟨other, stage, (session_enter_of_ne s (hold hx) _ _).trans hx, hstage⟩
  · rcases session_enter _ _ _ _ hx with ⟨-, hx⟩ | ⟨-, hx⟩
    · cases hx
    · exact h.syncing hx
  · obtain ⟨other, stage, hholder, -⟩ := h.holder hs
    rcases session_enter _ _ _ _ hx with ⟨ho, -⟩ | ⟨-, hx⟩
    · exact hold hholder ho
    · rcases session_enter _ _ _ _ hy with ⟨-, hy⟩ | ⟨-, hy⟩
      · cases hy
      · exact h.spared hs hx hy

theorem Stage.look_of_enrolled {stage later : Stage} (h : stage.look? = some later) :
    stage.enrolled = later.enrolled ∧
      (stage.enrolled = true ∧ later = .syncing ∨ later = .leaving) := by
  cases stage <;> cases h <;> simp [Stage.enrolled]

theorem seen_update {seen : Nat → Option (Uuid × Bool)} {p q : Nat} {e : Option (Uuid × Bool)}
    {y : Uuid × Bool} (h : Function.update seen p e q = some y) :
    (q = p ∧ e = some y) ∨ q ≠ p ∧ seen q = some y := by
  by_cases hq : q = p
  · subst hq
    rw [Function.update_self] at h
    exact Or.inl ⟨rfl, h⟩
  · rw [Function.update_of_ne hq] at h
    exact Or.inr ⟨hq, h⟩

theorem Placed.look (h : Placed s) {conn : Uuid} {x : Session} {stage : Stage}
    (hx : s.session conn = some x) (hfree : s.seen x.process = none)
    (hstage : x.stage.look? = some stage) :
    Placed { s.enter conn x stage with
      seen := Function.update s.seen x.process
        (some (conn, s.cluster.hasLocal x.process x.device)) } := by
  obtain ⟨henrolled, hlook⟩ := Stage.look_of_enrolled hstage
  have hne : stage ≠ .synced := by
    rcases hlook with ⟨-, rfl⟩ | rfl <;> exact Stage.noConfusion
  have hhome := h.home hx
  refine ⟨h.staffed, fun hy => ?_, fun hy he => ?_, fun hy => ?_, fun hs => ?_, fun hy => ?_,
    fun hs hy hz => ?_⟩
  · rcases session_enter _ _ _ _ hy with ⟨-, rfl⟩ | ⟨-, hy⟩
    · exact hhome
    · exact h.home hy
  · rcases session_enter _ _ _ _ hy with ⟨rfl, rfl⟩ | ⟨-, hy⟩
    · have hof := h.enrolled hx (henrolled.trans he)
      exact hof
    · exact h.enrolled hy he
  · rcases session_enter _ _ _ _ hy with ⟨-, hy⟩ | ⟨-, hy⟩
    · exact absurd (congrArg Session.stage hy).symm hne
    · exact h.backed hy
  · rcases seen_update hs with ⟨rfl, hseen⟩ | ⟨hq, hseen⟩
    · -- Who is registered sees at least itself.
      obtain ⟨rfl, rfl⟩ := Prod.mk.inj (Option.some_inj.mp hseen)
      refine ⟨x.device, stage, Function.update_self .., ?_⟩
      exact hlook.imp_left fun hl => ⟨hl.2, h.hasLocal hx hl.1⟩
    · obtain ⟨device, later, hy, hlater⟩ := h.holder hseen
      refine ⟨device, later, (session_enter_of_ne s ?_ _ _).trans hy, hlater⟩
      rintro rfl
      exact hq (congrArg Session.process (Option.some_inj.mp (hy.symm.trans hx)))
  · rcases session_enter _ _ _ _ hy with ⟨rfl, hsame⟩ | ⟨-, hy⟩
    · obtain ⟨rfl, -, -⟩ := Session.mk.inj hsame
      exact ⟨_, Function.update_self ..⟩
    · obtain ⟨wanted, hseen⟩ := h.syncing hy
      refine ⟨wanted, (Function.update_of_ne ?_ ..).trans hseen⟩
      rintro rfl
      cases hfree.symm.trans hseen
  · rcases session_enter _ _ _ _ hz with ⟨-, hz⟩ | ⟨-, hz⟩
    · exact absurd (congrArg Session.stage hz).symm hne
    · rcases seen_update hs with ⟨rfl, hseen⟩ | ⟨hq, hseen⟩
      · obtain ⟨rfl, hlocal⟩ := Prod.mk.inj (Option.some_inj.mp hseen)
        have hself := (session_enter _ _ _ _ hy).resolve_right fun ho => ho.1 rfl
        have hdevice := congrArg Session.device hself.2
        have hheld := h.hasLocal hz rfl
        dsimp only at hheld hdevice
        rw [hdevice, hlocal] at hheld
        cases hheld
      · rcases session_enter _ _ _ _ hy with ⟨-, hy⟩ | ⟨-, hy⟩
        · exact hq (congrArg Session.process hy)
        · exact h.spared hseen hy hz

theorem Placed.settle (h : Placed s) {p : Nat} {conn : Uuid} {wanted : Bool} {x : Session}
    (hs : s.seen p = some (conn, wanted)) (hx : s.session conn = some x) :
    Placed { s.enter conn x x.stage.settle with
      cluster := s.cluster.staff p x.device wanted
      seen := Function.update s.seen p none } := by
  obtain ⟨device, stage, hholds, hstage⟩ := h.holder hs
  obtain rfl := Option.some_inj.mp (hx.symm.trans hholds)
  have hhome := h.home hx
  have hstaffs := h.staffed.staff p device wanted fun _ => hhome
  have hlater : ∀ {q e}, Function.update s.seen p none q = some e → q ≠ p ∧ s.seen q = some e :=
    fun he => (seen_update he).resolve_left fun hq => nomatch hq.2
  refine ⟨hstaffs.staffed, fun hy => (hstaffs.has _).trans ?_, fun hy he => ?_, fun hy => ?_,
    fun hs' => ?_, fun hy => ?_, fun hs' hy hz => ?_⟩
  · rcases session_enter _ _ _ _ hy with ⟨-, rfl⟩ | ⟨-, hy⟩
    · exact hhome
    · exact h.home hy
  · rw [hstaffs.connectionsOf]
    rcases session_enter _ _ _ _ hy with ⟨rfl, rfl⟩ | ⟨-, hy⟩
    · rcases hstage with ⟨rfl, -⟩ | rfl
      · have hof := h.enrolled hx rfl
        exact hof
      · cases he
    · exact h.enrolled hy he
  · rw [hstaffs.runs]
    rcases session_enter _ _ _ _ hy with ⟨-, hsame⟩ | ⟨-, hother⟩
    · obtain ⟨rfl, rfl, hsettle⟩ := Session.mk.inj hsame
      rw [if_pos ⟨rfl, rfl⟩]
      rcases hstage with ⟨-, hw⟩ | rfl
      · exact hw
      · cases hsettle
    · split
      · rename_i hq
        obtain ⟨rfl, rfl⟩ := hq
        -- Nobody stops a worker that a synced session depends on.
        refine eq_true_of_ne_false ?_
        rintro rfl
        exact h.spared hs hx hother
      · exact h.backed hother
  · obtain ⟨hq, hseen⟩ := hlater hs'
    obtain ⟨other, later, hy, hlate⟩ := h.holder hseen
    refine ⟨other, later, (session_enter_of_ne s ?_ _ _).trans hy, hlate⟩
    rintro rfl
    exact hq (congrArg Session.process (Option.some_inj.mp (hy.symm.trans hx)))
  · rcases session_enter _ _ _ _ hy with ⟨-, hsame⟩ | ⟨hother, hy⟩
    · rcases hstage with ⟨rfl, -⟩ | rfl <;> cases hsame
    · obtain ⟨w, hseen⟩ := h.syncing hy
      refine ⟨w, (Function.update_of_ne ?_ ..).trans hseen⟩
      rintro rfl
      exact hother (Prod.mk.inj (Option.some_inj.mp (hseen.symm.trans hs))).1
  · obtain ⟨hq, hseen⟩ := hlater hs'
    rcases session_enter _ _ _ _ hy with ⟨-, hsame⟩ | ⟨-, hy⟩
    · exact hq (Session.mk.inj hsame).1
    · rcases session_enter _ _ _ _ hz with ⟨-, hsame⟩ | ⟨-, hz⟩
      · exact hq (Session.mk.inj hsame).1
      · exact h.spared hseen hy hz

theorem Placed.unregister (h : Placed s) {p : Nat} {device : String} {conn : Uuid}
    (hx : s.session conn = some ⟨p, device, .synced⟩) :
    Placed { s.enter conn ⟨p, device, .synced⟩ .unregistered with
      cluster := (s.cluster.unregister p device conn).1 } := by
  have hhome := h.home hx
  have hhas : ∀ q, (s.cluster.unregister p device conn).1.processes.has q =
      s.cluster.processes.has q :=
    fun q => Table.has_of_keys (keys_updateProcess s.cluster p _) q
  refine ⟨h.staffed.unregister p device conn, fun hy => (hhas _).trans ?_, fun hy he => ?_,
    fun hy => ?_, fun hs => ?_, fun hy => ?_, fun hs hy hz => ?_⟩
  · rcases session_enter _ _ _ _ hy with ⟨-, rfl⟩ | ⟨-, hy⟩
    · exact hhome
    · exact h.home hy
  · rcases session_enter _ _ _ _ hy with ⟨-, rfl⟩ | ⟨hother, hy⟩
    · cases he
    · exact (mem_of_unregister (h.home hy)).mpr ⟨h.enrolled hy he, fun hsame => hother hsame.2.2⟩
  · rcases session_enter _ _ _ _ hy with ⟨-, hsame⟩ | ⟨-, hy⟩
    · cases hsame
    · exact h.backed hy
  · obtain ⟨other, stage, hy, hstage⟩ := h.holder hs
    refine ⟨other, stage, (session_enter_of_ne s ?_ _ _).trans hy, hstage⟩
    rintro rfl
    obtain ⟨-, -, rfl⟩ := Session.mk.inj (Option.some_inj.mp (hy.symm.trans hx))
    rcases hstage with ⟨hs, -⟩ | hs <;> cases hs
  · rcases session_enter _ _ _ _ hy with ⟨-, hsame⟩ | ⟨-, hy⟩
    · cases hsame
    · exact h.syncing hy
  · rcases session_enter _ _ _ _ hz with ⟨-, hsame⟩ | ⟨-, hz⟩
    · cases hsame
    · obtain ⟨other, stage, hholds, hstage⟩ := h.holder hs
      rcases session_enter _ _ _ _ hy with ⟨rfl, -⟩ | ⟨-, hy⟩
      · obtain ⟨-, -, rfl⟩ := Session.mk.inj (Option.some_inj.mp (hholds.symm.trans hx))
        rcases hstage with ⟨hs, -⟩ | hs <;> cases hs
      · exact h.spared hs hy hz

end Placed

section Recorded
variable {s : State}

/-- Sessions whose connections have no record change. -/
theorem Recorded.sessions (h : Recorded s) {s' : State} (hmark : s'.mark = s.mark)
    (hstore : s'.cluster.store = s.cluster.store)
    (hrecorded : ∀ p conn, s'.cluster.recorded? p conn = s.cluster.recorded? p conn)
    (hsession : ∀ conn, s.mark conn = .alive → s'.session conn = s.session conn) : Recorded s' := by
  have hsame : ∀ {conn y}, s'.mark conn = .alive ∧ s'.session conn = some y ↔
      s.mark conn = .alive ∧ s.session conn = some y := by
    intro conn y
    rw [hmark]
    exact and_congr_right fun ha => by rw [hsession conn ha]
  refine ⟨hstore ▸ h.serves, fun {p conn device} => ?_, fun {device conn} hn => ?_,
    fun {conn} ha => ?_⟩
  · rw [hrecorded, hsame]
    exact h.recorded
  · obtain ⟨slot, hslot⟩ := hn
    obtain ⟨ha, p, hx⟩ := h.noted ⟨slot, hstore ▸ hslot⟩
    exact ⟨hmark ▸ ha, p, (hsession conn ha).trans hx⟩
  · rw [hmark] at ha
    rw [hsession conn ha]
    exact h.alive ha

theorem Recorded.not_alive (h : Recorded s) {conn : Uuid} {x : Session}
    (hx : s.session conn = some x) (hne : x.stage ≠ .synced) : s.mark conn ≠ .alive := by
  intro ha
  obtain ⟨p, device, hy⟩ := h.alive ha
  obtain rfl := Option.some_inj.mp (hx.symm.trans hy)
  exact hne rfl

/-- A session without a record comes to another stage. -/
theorem Recorded.enter (h : Recorded s) {conn : Uuid} (hne : s.mark conn ≠ .alive) (c : Cluster)
    (hstore : c.store = s.cluster.store)
    (hrecorded : ∀ p x, c.recorded? p x = s.cluster.recorded? p x) (x : Session) (stage : Stage)
    (seen : Nat → Option (Uuid × Bool)) :
    Recorded { s.enter conn x stage with cluster := c, seen := seen } := by
  refine h.sessions rfl hstore hrecorded fun other ha => session_enter_of_ne s ?_ x stage
  rintro rfl
  exact hne ha

/-- What happens besides brings up records of held connections only. -/
theorem Recorded.aside (h : Recorded s) {c : Cluster}
    (hrecorded : ∀ p conn, c.recorded? p conn = s.cluster.recorded? p conn)
    (hserves : StoreOp.del ∉ c.store.down)
    (hnoted : ∀ device conn, c.Noted device conn →
      s.cluster.Noted device conn ∨ ∃ p, s.cluster.recorded? p conn = some device) :
    Recorded { s with cluster := c } := by
  refine ⟨hserves, fun {p conn device} => ?_, fun {device conn} hn => ?_, h.alive⟩
  · rw [hrecorded]
    exact h.recorded
  · rcases hnoted device conn hn with hold | ⟨p, hheld⟩
    · exact h.noted hold
    · obtain ⟨ha, hx⟩ := h.recorded.mp hheld
      exact ⟨ha, p, hx⟩

/-- The record of one connection changes, and its mark with it. -/
theorem Recorded.update (h : Recorded s) {p : Nat} {device : String} {conn : Uuid} {c : Cluster}
    {m : Mark} (hx : s.session conn = some ⟨p, device, .synced⟩)
    (hserves : StoreOp.del ∉ c.store.down)
    (hrecorded : ∀ q x, x ≠ conn → c.recorded? q x = s.cluster.recorded? q x)
    (hself : ∀ q d, c.recorded? q conn = some d ↔ m = .alive ∧ q = p ∧ d = device)
    (hnoted : ∀ d x, c.Noted d x → s.cluster.Noted d x ∧ x ≠ conn ∨
      d = device ∧ x = conn ∧ m = .alive) :
    Recorded { s with cluster := c, mark := Function.update s.mark conn m } := by
  refine ⟨hserves, fun {q x d} => ?_, fun {d x} hn => ?_, fun {x} ha => ?_⟩ <;> dsimp only at *
  · by_cases hc : x = conn
    · subst hc
      rw [hself, Function.update_self]
      refine and_congr_right fun _ => ⟨?_, fun hy => ?_⟩
      · rintro ⟨rfl, rfl⟩
        exact hx
      · obtain ⟨rfl, rfl, -⟩ := Session.mk.inj (Option.some_inj.mp (hy.symm.trans hx))
        exact ⟨rfl, rfl⟩
    · rw [hrecorded q x hc, Function.update_of_ne hc]
      exact h.recorded
  · rcases hnoted d x hn with ⟨hold, hc⟩ | ⟨rfl, rfl, rfl⟩
    · rw [Function.update_of_ne hc]
      exact h.noted hold
    · exact ⟨Function.update_self .., p, hx⟩
  · by_cases hc : x = conn
    · subst hc
      exact ⟨p, device, hx⟩
    · rw [Function.update_of_ne hc] at ha
      exact h.alive ha

theorem Recorded.not_noted (h : Recorded s) {conn : Uuid} (hne : s.mark conn ≠ .alive)
    (device : String) : ¬ s.cluster.Noted device conn := fun hn => hne (h.noted hn).1

theorem Recorded.mark_ok (h : Recorded s) {p : Nat} {device : String} {conn : Uuid} {c : Cluster}
    (hx : s.session conn = some ⟨p, device, .synced⟩) (hne : s.mark conn ≠ .alive)
    (hp : s.cluster.processes.has p = true)
    (hc : s.cluster.markAlive p device conn = (c, .ok ())) :
    Recorded { s with cluster := c, mark := Function.update s.mark conn .alive } := by
  obtain ⟨hdown, hrecorded, hnoted⟩ := Cluster.mark_ok hc hp
  refine h.update hx (hdown ▸ h.serves) (fun q x hxc => ?_) (fun q d => ?_) fun d x hn => ?_
  · rw [hrecorded, if_neg fun hq => hxc hq.2]
  · rw [hrecorded]
    by_cases hq : q = p
    · simp [hq, eq_comm]
    · simp only [hq, false_and, if_false, and_false, iff_false]
      exact fun hheld => hne (h.recorded.mp hheld).1
  · rcases hnoted d x hn with hold | ⟨hd, hxc⟩
    · refine Or.inl ⟨hold, ?_⟩
      rintro rfl
      exact h.not_noted hne d hold
    · exact Or.inr ⟨hd, hxc, rfl⟩

theorem Recorded.mark_error (h : Recorded s) {p : Nat} {device : String} {conn : Uuid}
    {c : Cluster} {e : ChannelError} (hx : s.session conn = some ⟨p, device, .synced⟩)
    (hne : s.mark conn ≠ .alive) (hc : s.cluster.markAlive p device conn = (c, .error e)) :
    Recorded { s with cluster := c, mark := Function.update s.mark conn .gone } := by
  obtain ⟨hstore, hrecorded⟩ := Cluster.mark_error hc
  refine h.update hx (hstore ▸ h.serves) (fun q x _ => hrecorded q x) (fun q d => ?_)
    fun d x hn => ?_
  · rw [hrecorded]
    simp only [reduceCtorEq, false_and, iff_false]
    exact fun hheld => hne (h.recorded.mp hheld).1
  · obtain ⟨slot, hslot⟩ := hn
    have hold : s.cluster.Noted d x := ⟨slot, hstore ▸ hslot⟩
    refine Or.inl ⟨hold, ?_⟩
    rintro rfl
    exact h.not_noted hne d hold

theorem Recorded.remove (h : Recorded s) {p : Nat} {device : String} {conn : Uuid}
    (hx : s.session conn = some ⟨p, device, .synced⟩) (ha : s.mark conn = .alive) :
    Recorded { s with
      cluster := (s.cluster.dropPresence p conn).1
      mark := Function.update s.mark conn .gone } := by
  obtain ⟨hdown, hrecorded, hnoted⟩ := remove_ok h.serves (h.recorded.mpr ⟨ha, hx⟩)
  refine h.update hx (hdown ▸ h.serves) (fun q x hxc => ?_) (fun q d => ?_) fun d x hn => ?_
  · rw [hrecorded, if_neg fun hq => hxc hq.2]
  · rw [hrecorded]
    simp only [reduceCtorEq, false_and, iff_false]
    split
    · exact Option.some_ne_none _ ∘ Eq.symm
    · rename_i hq
      intro hheld
      obtain ⟨rfl, -, -⟩ :=
        Session.mk.inj (Option.some_inj.mp ((h.recorded.mp hheld).2.symm.trans hx))
      exact hq ⟨rfl, trivial⟩
  · obtain ⟨hold, hgone⟩ := hnoted d x hn
    refine Or.inl ⟨hold, ?_⟩
    rintro rfl
    obtain ⟨-, q, hy⟩ := h.noted hold
    obtain ⟨-, rfl, -⟩ := Session.mk.inj (Option.some_inj.mp (hy.symm.trans hx))
    exact hgone ⟨rfl, rfl⟩

end Recorded

section Step
variable {s : State}

structure Sound (s : State) : Prop where
  placed : Placed s
  recorded : Recorded s

theorem Sound.event (h : Sound s) {e : Event} (he : e.opens = false) (hs : Spares e = true) :
    Sound { s with cluster := happen s.cluster e } := by
  have hoccurs := occurs_happen h.placed.staffed.fresh he
    fun t _ p x phase ht => h.placed.staffed.vacant t ⟨p, x, phase, ht⟩
  refine ⟨h.placed.unmoved (h.placed.staffed.happen he) s.mark, h.recorded.aside ?_ ?_ ?_⟩
  · exact recorded_of_desks hoccurs.aside.desks
  · rcases hoccurs.down with hsame | hset
    · rw [hsame]
      exact h.recorded.serves
    · rw [hset] at hs
      simpa [Spares] using hs
  · rintro device conn ⟨slot, hslot⟩
    exact hoccurs.aside.records.noted device conn slot hslot

theorem store_staff (c : Cluster) (p : Nat) (device : String) (wanted : Bool) :
    (c.staff p device wanted).store = c.store ∧
      ∀ q conn, (c.staff p device wanted).recorded? q conn = c.recorded? q conn := by
  have hworkers : ∀ (c : Cluster) (workers : Table String TaskId → Table String TaskId) q conn,
      (c.updateProcess p fun x => { x with workers := workers x.workers }).recorded? q conn =
        c.recorded? q conn := by
    intro c workers q conn
    simp only [recorded?, presence?, updateProcess, Table.get?_modify]
    split
    · rw [Option.map_map]
      rfl
    · rfl
  unfold staff
  split
  · exact ⟨rfl, fun _ _ => rfl⟩
  · split
    · exact ⟨rfl, hworkers _ (·.put device _)⟩
    · exact ⟨rfl, hworkers _ (·.erase device)⟩
    · exact ⟨rfl, fun _ _ => rfl⟩

theorem recorded_setConnections (c : Cluster) (p : Nat) (changed : Connections × Bool) (q : Nat)
    (conn : Uuid) : (c.setConnections p changed).1.recorded? q conn = c.recorded? q conn := by
  simp only [recorded?, presence?, setConnections, updateProcess, Table.get?_modify]
  split
  · rw [Option.map_map]
    rfl
  · rfl

theorem sound_act (h : Sound s) (a : Act) : Sound (act s a) := by
  cases a with
  | start p device conn =>
    simp only [act]
    split
    · rename_i hnew
      refine ⟨h.placed.start hnew.1 hnew.2,
        h.recorded.enter (fun ha => ?_) (s.cluster.register p device conn).1 rfl
          (recorded_setConnections _ p _) _ _ s.seen⟩
      obtain ⟨q, other, hx⟩ := h.recorded.alive ha
      cases hnew.1.symm.trans hx
    · exact h
  | look conn =>
    simp only [act]
    split
    · exact h
    · rename_i x hx
      split
      · rename_i hfree hstage
        refine ⟨h.placed.look hx hfree hstage,
          h.recorded.enter (h.recorded.not_alive hx ?_) s.cluster rfl (fun _ _ => rfl) x _ _⟩
        intro hsynced
        rw [hsynced] at hstage
        cases hstage
      · exact h
  | settle p =>
    simp only [act]
    split
    · exact h
    · rename_i conn wanted hseen
      split
      · exact h
      · rename_i x hx
        obtain ⟨hstore, hrecorded⟩ := store_staff s.cluster p x.device wanted
        refine ⟨h.placed.settle hseen hx,
          h.recorded.enter (h.recorded.not_alive hx ?_) _ hstore hrecorded x _ _⟩
        obtain ⟨device, stage, hy, hstage⟩ := h.placed.holder hseen
        obtain rfl := Option.some_inj.mp (hx.symm.trans hy)
        rcases hstage with ⟨rfl, -⟩ | rfl <;> exact Stage.noConfusion
  | mark conn =>
    simp only [act]
    split
    · rename_i p device hx
      split
      · rename_i hnone
        have hne : s.mark conn ≠ .alive := by
          rw [hnone]
          exact Mark.noConfusion
        have hmoved := unmoved_markAlive h.placed.staffed p device conn
        split <;> rename_i hc <;> rw [hc] at hmoved
        · exact ⟨h.placed.unmoved hmoved _, h.recorded.mark_ok hx hne (h.placed.home hx) hc⟩
        · exact ⟨h.placed.unmoved hmoved _, h.recorded.mark_error hx hne hc⟩
      · exact h
    · exact h
  | refresh p conn =>
    have haside := aside_refresh s.cluster p conn
    have hserves := haside.records.down ▸ h.recorded.serves
    refine ⟨h.placed.unmoved (h.placed.staffed.unmoved haside) s.mark,
      h.recorded.aside (recorded_of_desks haside.desks) hserves ?_⟩
    rintro device x ⟨slot, hslot⟩
    exact haside.records.noted device x slot hslot
  | remove conn =>
    simp only [act]
    split
    · rename_i p device hx
      split
      · rename_i ha
        exact ⟨h.placed.unmoved (unmoved_dropPresence h.placed.staffed p conn) _,
          h.recorded.remove hx ha⟩
      · exact h
    · exact h
  | unregister conn =>
    simp only [act]
    split
    · rename_i p device hx
      split
      · rename_i hgone
        refine ⟨h.placed.unregister hx,
          h.recorded.enter ?_ (s.cluster.unregister p device conn).1 rfl
            (recorded_setConnections _ p _) _ _ s.seen⟩
        rw [hgone]
        exact Mark.noConfusion
      · exact h
    · exact h
  | event e =>
    simp only [act]
    split
    · rename_i he
      exact h.event he.1 he.2
    · exact h

theorem sound_play (h : Sound s) (as : List Act) : Sound (play s as) := by
  induction as generalizing s with
  | nil => exact h
  | cons a as ih => exact ih (sound_act h a)

end Step

theorem sound_running (supply : Supply) (epoch : Nat) (settings : List ServerSettings) :
    Sound { cluster := running supply epoch settings } where
  placed :=
    { staffed := staffed_running supply epoch settings
      home := fun hx => nomatch hx
      enrolled := fun hx => nomatch hx
      backed := fun hx => nomatch hx
      holder := fun hs => nomatch hs
      syncing := fun hx => nomatch hx
      spared := fun hs => nomatch hs }
  recorded := by
    refine ⟨?_, fun {p conn device} => ?_, fun {device conn} hn => ?_, fun ha => nomatch ha⟩
    · rw [running_eq]
      exact List.not_mem_nil
    · refine ⟨fun hheld => ?_, fun h => nomatch h.1⟩
      exact nomatch (Ledger.unrecorded_running supply epoch settings conn p).symm.trans hheld
    · obtain ⟨slot, hslot⟩ := hn
      exact nomatch (Ledger.absent_running supply epoch settings conn device).symm.trans hslot

/-- Whose record can be seen, that connection is held by the process of its session, which runs a
worker for its device. -/
theorem record_has_route (supply : Supply) (epoch : Nat) (settings : List ServerSettings)
    (as : List Act) (device : String) (conn : Uuid) :
    let s := play { cluster := running supply epoch settings } as
    s.cluster.Present device conn → ∃ p, s.session conn = some ⟨p, device, .synced⟩ ∧
      conn ∈ (s.cluster.connectionsOf p).of device ∧ s.cluster.hasLocal p device = true ∧
      s.cluster.Runs p device := by
  intro s hpresent
  obtain ⟨hplaced, hrecorded⟩ := sound_play (sound_running supply epoch settings) as
  obtain ⟨slot, hslot⟩ := Option.isSome_iff_exists.mp hpresent
  obtain ⟨-, p, hx⟩ := hrecorded.noted ⟨slot, (Option.filter_eq_some_iff.mp hslot).1⟩
  exact ⟨p, hx, hplaced.enrolled hx rfl, hplaced.hasLocal hx rfl, hplaced.backed hx⟩

/-- A connection of a device ends while another one comes up. -/
def handedOver : List Act :=
  [.start 0 "d" ⟨1⟩, .look ⟨1⟩, .settle 0, .mark ⟨1⟩, .remove ⟨1⟩, .unregister ⟨1⟩, .look ⟨1⟩,
    .start 0 "d" ⟨2⟩, .settle 0, .look ⟨2⟩, .settle 0, .event (.setOutages [.setEx]),
    .start 0 "d" ⟨3⟩, .look ⟨3⟩, .settle 0, .mark ⟨3⟩, .event (.setOutages []), .mark ⟨2⟩,
    .unregister ⟨3⟩, .look ⟨3⟩, .settle 0]

theorem record_has_route_handedOver :
    let s := play { cluster := running ⟨Uuid.numbered 1, toString⟩ 0 [.ofConfig {}] } handedOver
    s.cluster.Present "d" ⟨2⟩ ∧ ∃ p, s.session ⟨2⟩ = some ⟨p, "d", .synced⟩ ∧
      ⟨2⟩ ∈ (s.cluster.connectionsOf p).of "d" ∧ s.cluster.hasLocal p "d" = true ∧
      s.cluster.Runs p "d" := by
  have hpresent : (play { cluster := running ⟨Uuid.numbered 1, toString⟩ 0 [.ofConfig {}] }
      handedOver).cluster.Present "d" ⟨2⟩ := by decide +kernel
  exact ⟨hpresent, record_has_route ⟨Uuid.numbered 1, toString⟩ 0 [.ofConfig {}] handedOver "d" ⟨2⟩
    hpresent⟩

end Routes

end Cluster

end FleetControl
