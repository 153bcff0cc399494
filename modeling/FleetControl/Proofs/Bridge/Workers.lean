import FleetControl.Proofs.Cluster.Front
import FleetControl.Proofs.Cluster.Roster

/-! # Workers and connections of a process

A process looks whether it holds a connection of a device, and then starts or stops its worker for
the device. Between the two the connections may change. -/
namespace FleetControl

namespace Connections

/-- No device has an entry without a connection. -/
def Filled (k : Connections) : Prop := ∀ device, k.byDevice.get? device ≠ some []

section Filled
variable {k : Connections}

theorem Filled.hasLocal_iff (h : k.Filled) (device : String) :
    k.hasLocal device = true ↔ ∃ conn, conn ∈ k.of device := by
  unfold hasLocal Connections.of Table.getD
  rw [Table.has_iff]
  cases hget : Table.get? k.byDevice device with
  | none => simp
  | some conns =>
    have hne : conns ≠ [] := fun he => h device (he ▸ hget)
    simpa using List.exists_mem_of_ne_nil conns hne

theorem Filled.register (h : k.Filled) (device : String) (conn : Uuid) :
    (k.register device conn).1.Filled := by
  intro other
  unfold Connections.register
  dsimp only
  rw [Table.get?_put]
  split
  · intro he
    split at he <;> rename_i hm
    · rw [Option.some_inj.mp he] at hm
      cases hm
    · simp at he
  · exact h other

theorem Filled.unregister (h : k.Filled) (device : String) (conn : Uuid) :
    (k.unregister device conn).1.Filled := by
  intro other
  unfold Connections.unregister
  dsimp only
  split
  · split
    · rw [Table.get?_erase]
      split
      · exact Option.some_ne_none _ ∘ Eq.symm
      · exact h other
    · rename_i hne
      rw [Table.get?_put]
      split
      · intro he
        exact hne (by rw [Option.some_inj.mp he]; rfl)
      · exact h other
  · exact h other

end Filled

theorem hasLocal_register_of_ne (k : Connections) {device other : String} (h : other ≠ device)
    (conn : Uuid) : (k.register device conn).1.hasLocal other = k.hasLocal other := by
  unfold hasLocal register Table.has
  dsimp only
  rw [Table.get?_put_of_ne _ _ h]

theorem hasLocal_unregister_of_ne (k : Connections) {device other : String} (h : other ≠ device)
    (conn : Uuid) : (k.unregister device conn).1.hasLocal other = k.hasLocal other := by
  unfold hasLocal unregister Table.has
  dsimp only
  split
  · split
    · rw [Table.get?_erase_of_ne _ h]
    · rw [Table.get?_put_of_ne _ _ h]
  · rfl

end Connections

namespace Cluster

/-- Makes a worker for a device run, or makes sure that none does. -/
def staff (c : Cluster) (p : Nat) (device : String) (wanted : Bool) : Cluster :=
  match c.processes.get? p with
  | none => c
  | some q =>
    match wanted, q.workers.get? device with
    | true, none =>
      let (c, t) := c.spawn (.worker p device .ready)
      c.updateProcess p fun q => { q with workers := q.workers.put device t }
    | false, some t =>
      (c.remove t).updateProcess p fun q => { q with workers := q.workers.erase device }
    | _, _ => c

/-- A process that is not disturbed in between staffs what it has just seen. -/
theorem sync_eq_staff (c : Cluster) (p : Nat) (device : String) :
    (c.sync p device).1 = c.staff p device (c.hasLocal p device) := by
  unfold sync staff hasLocal connectionsOf
  cases c.processes.get? p with
  | none => rfl
  | some q =>
    dsimp only [Option.map_some, Option.getD_some]
    cases q.connections.hasLocal device <;> cases q.workers.get? device <;> rfl

/-- The worker that a process has for a device, by its own account. -/
def workerOf? (c : Cluster) (p : Nat) (device : String) : Option TaskId :=
  (c.processes.get? p).bind (·.workers.get? device)

/-- A task is a worker of a process for a device. -/
def WorksFor (c : Cluster) (t : TaskId) (p : Nat) (device : String) : Prop :=
  ∃ phase, c.tasks.get? t = some (.worker p device phase)

/-- A process runs a worker for a device. -/
def Runs (c : Cluster) (p : Nat) (device : String) : Prop := ∃ t, c.WorksFor t p device

theorem worksFor_iff (c : Cluster) (t : TaskId) (p : Nat) (device : String) :
    c.WorksFor t p device ↔ c.post? t = some (.worker p device .ready) := by
  unfold WorksFor post?
  cases c.tasks.get? t with
  | none => simp
  | some task => cases task <;> simp [Task.post?, and_comm]

theorem attended_iff (c : Cluster) (t : TaskId) :
    (∃ p s phase, c.tasks.get? t = some (.session p s phase)) ↔
      ∃ p s phase, c.post? t = some (.session p s phase) := by
  unfold post?
  cases c.tasks.get? t with
  | none => simp
  | some task => cases task <;> simp [Task.post?]

/-- Every process knows its workers, and no sessions are there that would register connections
by themselves. -/
structure Staffed (c : Cluster) : Prop where
  fresh : Fresh c
  roll : ∀ t p device, c.WorksFor t p device ↔ c.workerOf? p device = some t
  vacant : ∀ t, ¬ ∃ p s phase, c.tasks.get? t = some (.session p s phase)
  filled : ∀ p, (c.connectionsOf p).Filled

section Staffed
variable {c c' : Cluster}

theorem Staffed.one (h : Staffed c) {t u : TaskId} {p : Nat} {device : String}
    (ht : c.WorksFor t p device) (hu : c.WorksFor u p device) : t = u :=
  Option.some_inj.mp (((h.roll t p device).mp ht).symm.trans ((h.roll u p device).mp hu))

theorem Staffed.runs_iff (h : Staffed c) (p : Nat) (device : String) :
    c.Runs p device ↔ (c.workerOf? p device).isSome = true := by
  simp only [Runs, h.roll, Option.isSome_iff_exists]

theorem Staffed.hasLocal_iff (h : Staffed c) (p : Nat) (device : String) :
    c.hasLocal p device = true ↔ ∃ conn, conn ∈ (c.connectionsOf p).of device :=
  (h.filled p).hasLocal_iff device

theorem has_of_hasLocal {p : Nat} {device : String} (h : c.hasLocal p device = true) :
    c.processes.has p = true := by
  rw [Table.has_iff]
  cases hq : c.processes.get? p with
  | none =>
    rw [hasLocal, connectionsOf, hq] at h
    cases h
  | some q => exact ⟨q, rfl⟩

theorem workerOf_of_desks (h : c'.processes.image Process.desk = c.processes.image Process.desk)
    (p : Nat) (device : String) : c'.workerOf? p device = c.workerOf? p device := by
  have hp := congrArg (fun t => (Table.get? t p).bind (·.workers.get? device)) h
  simp only [Table.get?_image, Option.bind_map] at hp
  exact hp

theorem has_of_desks (h : c'.processes.image Process.desk = c.processes.image Process.desk)
    (p : Nat) : c'.processes.has p = c.processes.has p := by
  refine Table.has_of_keys ?_ p
  rw [← Table.keys_image c'.processes Process.desk, h, Table.keys_image]

theorem connectionsOf_of_desks
    (h : c'.processes.image Process.desk = c.processes.image Process.desk) (p : Nat) :
    c'.connectionsOf p = c.connectionsOf p := by
  have hp := congrArg (fun t => ((Table.get? t p).map (·.connections)).getD {}) h
  simp only [Table.get?_image, Option.map_map] at hp
  exact hp

theorem Aside.post_eq (h : Aside c c') (hf : Fresh c) (u : TaskId) : c'.post? u = c.post? u := by
  by_cases hu : u < c.nextTask
  · exact h.posts u (Or.inl hu)
  · have hnone := hf u (Nat.le_of_not_lt hu)
    exact (h.unposted hnone).trans hnone.symm

/-- Nothing about workers and connections is different. -/
structure Unmoved (c c' : Cluster) : Prop where
  staffed : Staffed c'
  has : ∀ p, c'.processes.has p = c.processes.has p
  worksFor : ∀ t p device, c'.WorksFor t p device ↔ c.WorksFor t p device
  connectionsOf : ∀ p, c'.connectionsOf p = c.connectionsOf p

theorem Unmoved.runs (h : Unmoved c c') (p : Nat) (device : String) :
    c'.Runs p device ↔ c.Runs p device := exists_congr fun t => h.worksFor t p device

theorem Unmoved.hasLocal (h : Unmoved c c') (p : Nat) (device : String) :
    c'.hasLocal p device = c.hasLocal p device := congrArg (·.hasLocal device) (h.connectionsOf p)

theorem Staffed.unmoved (h : Staffed c) (ha : Aside c c') : Unmoved c c' := by
  have hworks : ∀ t p device, c'.WorksFor t p device ↔ c.WorksFor t p device := fun t p device => by
    rw [worksFor_iff, worksFor_iff, ha.post_eq h.fresh]
  have hconns := connectionsOf_of_desks ha.desks
  refine ⟨⟨ha.fresh h.fresh, fun t p device => ?_, fun t => ?_, fun p => ?_⟩,
    has_of_desks ha.desks, hworks, hconns⟩
  · rw [hworks, workerOf_of_desks ha.desks]
    exact h.roll t p device
  · rw [attended_iff, ha.post_eq h.fresh, ← attended_iff]
    exact h.vacant t
  · rw [hconns]
    exact h.filled p

theorem Unmoved.trans {c₁ : Cluster} (h : Unmoved c c₁) (h' : Unmoved c₁ c') : Unmoved c c' where
  staffed := h'.staffed
  has p := (h'.has p).trans (h.has p)
  worksFor t p device := (h'.worksFor t p device).trans (h.worksFor t p device)
  connectionsOf p := (h'.connectionsOf p).trans (h.connectionsOf p)

/-- Changes of everything else. -/
theorem Staffed.same (h : Staffed c) (hsame : c'.processes = c.processes ∧ c'.tasks = c.tasks ∧
    c'.nextTask = c.nextTask) : Unmoved c c' := by
  obtain ⟨hprocesses, htasks, hnext⟩ := hsame
  refine ⟨⟨?_, ?_, ?_, ?_⟩, fun p => by rw [hprocesses], fun t p device => ?_, fun p => ?_⟩
  · unfold Fresh post?
    rw [htasks, hnext]
    exact h.fresh
  · unfold WorksFor workerOf?
    rw [htasks, hprocesses]
    exact h.roll
  · rw [htasks]
    exact h.vacant
  · unfold Cluster.connectionsOf
    rw [hprocesses]
    exact h.filled
  · unfold WorksFor
    rw [htasks]
  · unfold Cluster.connectionsOf
    rw [hprocesses]

theorem Staffed.updateProcess (h : Staffed c) (p : Nat) {f : Process → Process}
    (hf : ∀ q, (f q).workers = q.workers ∧ (f q).connections = q.connections) :
    Unmoved c (c.updateProcess p f) := by
  have hconns := (still_updateProcess c p f fun q => (hf q).2).connections
  have hworker : ∀ q device, (c.updateProcess p f).workerOf? q device = c.workerOf? q device := by
    intro q device
    simp only [workerOf?, Cluster.updateProcess, Table.get?_modify]
    split
    · simp only [Option.bind_map, Function.comp_def, (hf _).1]
    · rfl
  refine ⟨⟨h.fresh, fun t q device => ?_, h.vacant, fun q => ?_⟩,
    fun q => Table.has_of_keys (keys_updateProcess c p f) q, fun _ _ _ => Iff.rfl, hconns⟩
  · rw [hworker]
    exact h.roll t q device
  · rw [hconns]
    exact h.filled q

/-- Whatever happens, short of a new process or session. -/
theorem Staffed.happen (h : Staffed c) {e : Event} (he : e.opens = false) :
    Unmoved c (Cluster.happen c e) := by
  have hoccurs := occurs_happen h.fresh he fun t _ p s phase hs => h.vacant t ⟨p, s, phase, hs⟩
  have hthen : Unmoved c { c with
      now := (Cluster.happen c e).now
      store := { c.store with down := (Cluster.happen c e).store.down } } :=
    h.same ⟨rfl, rfl, rfl⟩
  exact hthen.trans (hthen.staffed.unmoved hoccurs.aside)

end Staffed

section Changes
variable {c c' : Cluster} {p : Nat} {device : String} {conn : Uuid}

theorem Staffed.setConnections (h : Staffed c) {changed : Connections × Bool}
    (hfilled : changed.1.Filled) : Staffed (c.setConnections p changed).1 := by
  refine ⟨h.fresh, fun t q other => ?_, h.vacant, fun q => ?_⟩
  · have hsame : (c.setConnections p changed).1.workerOf? q other = c.workerOf? q other := by
      simp only [workerOf?, Cluster.setConnections, Cluster.updateProcess, Table.get?_modify]
      split
      · rw [Option.bind_map]
        rfl
      · rfl
    rw [hsame]
    exact h.roll t q other
  · rw [connectionsOf_setConnections]
    split
    · exact hfilled
    · exact h.filled q

theorem Staffed.register (h : Staffed c) (p : Nat) (device : String) (conn : Uuid) :
    Staffed (c.register p device conn).1 := h.setConnections ((h.filled p).register device conn)

theorem Staffed.unregister (h : Staffed c) (p : Nat) (device : String) (conn : Uuid) :
    Staffed (c.unregister p device conn).1 := h.setConnections ((h.filled p).unregister device conn)

/-- Only what is held of one device changes. -/
theorem hasLocal_setConnections {changed : Connections × Bool}
    (h : ∀ other, other ≠ device → changed.1.hasLocal other = (c.connectionsOf p).hasLocal other)
    {q : Nat} {other : String} (hne : ¬ (q = p ∧ other = device)) :
    (c.setConnections p changed).1.hasLocal q other = c.hasLocal q other := by
  rw [Cluster.hasLocal, connectionsOf_setConnections]
  split
  · rename_i hq
    rw [h other fun ho => hne ⟨hq.1, ho⟩, hq.1]
    rfl
  · rfl

theorem mem_of_register {q : Nat} (hhas : c.processes.has q = true) {other : String} {x : Uuid} :
    x ∈ ((c.register p device conn).1.connectionsOf q).of other ↔
      x ∈ (c.connectionsOf q).of other ∨ (q = p ∧ other = device ∧ x = conn) := by
  rw [register, connectionsOf_setConnections]
  by_cases hq : q = p
  · subst hq
    rw [if_pos ⟨rfl, hhas⟩, Connections.of_register]
    split
    · rename_i ho
      subst ho
      split
      · simp only [true_and]
        exact ⟨Or.inl, fun hx => hx.elim id fun hx => hx ▸ ‹_›⟩
      · simp
    · rename_i ho
      simp [ho]
  · simp [hq]

theorem mem_of_unregister {q : Nat} (hhas : c.processes.has q = true) {other : String} {x : Uuid} :
    x ∈ ((c.unregister p device conn).1.connectionsOf q).of other ↔
      x ∈ (c.connectionsOf q).of other ∧ ¬ (q = p ∧ other = device ∧ x = conn) := by
  rw [unregister, connectionsOf_setConnections]
  by_cases hq : q = p
  · subst hq
    rw [if_pos ⟨rfl, hhas⟩, Connections.mem_unregister]
    simp
  · simp [hq]

/-- What staffing does about the connections and the workers. -/
structure Staffs (c : Cluster) (p : Nat) (device : String) (wanted : Bool) (c' : Cluster) :
    Prop where
  staffed : Staffed c'
  has : ∀ q, c'.processes.has q = c.processes.has q
  connectionsOf : ∀ q, c'.connectionsOf q = c.connectionsOf q
  runs : ∀ q other, c'.Runs q other ↔
    if q = p ∧ other = device then wanted = true else c.Runs q other

theorem workerOf_updateProcess {q : Process} (hq : c.processes.get? p = some q)
    (workers : Table String TaskId → Table String TaskId) (r : Nat) (other : String) :
    (c.updateProcess p fun q => { q with workers := workers q.workers }).workerOf? r other =
      if r = p then (workers q.workers).get? other else c.workerOf? r other := by
  simp only [workerOf?, updateProcess, Table.get?_modify]
  split
  · rename_i hr
    rw [hr, hq]
    rfl
  · rfl

theorem connectionsOf_updateWorkers (c : Cluster) (p : Nat)
    (workers : Table String TaskId → Table String TaskId) (r : Nat) :
    (c.updateProcess p fun q => { q with workers := workers q.workers }).connectionsOf r =
      c.connectionsOf r :=
  (still_updateProcess c p (fun q => { q with workers := workers q.workers })
    fun _ => rfl).connections r

theorem Staffed.staffs (h : Staffed c) (new : Option TaskId) (hfresh : Fresh c')
    (hkeys : c'.processes.keys = c.processes.keys)
    (hvacant : ∀ t, ¬ ∃ q s phase, c'.tasks.get? t = some (.session q s phase))
    (hconns : ∀ q, c'.connectionsOf q = c.connectionsOf q)
    (hworks : ∀ t q other, c'.WorksFor t q other ↔
      if q = p ∧ other = device then new = some t else c.WorksFor t q other)
    (hworker : ∀ q other, c'.workerOf? q other =
      if q = p ∧ other = device then new else c.workerOf? q other) :
    Staffs c p device new.isSome c' := by
  refine ⟨⟨hfresh, fun t q other => ?_, hvacant, fun q => ?_⟩, Table.has_of_keys hkeys, hconns,
    fun q other => ?_⟩
  · rw [hworks, hworker]
    split
    · rfl
    · exact h.roll t q other
  · rw [hconns]
    exact h.filled q
  · unfold Runs
    simp only [hworks]
    split
    · exact Option.isSome_iff_exists.symm
    · rfl

/-- A process starts a worker for a device that it has none for. -/
theorem Staffed.start (h : Staffed c) {q : Process} (hq : c.processes.get? p = some q)
    (hnone : q.workers.get? device = none) :
    Staffs c p device true ((c.spawn (.worker p device .ready)).1.updateProcess p
      fun q => { q with workers := q.workers.put device c.nextTask }) := by
  have hpost : ∀ u, (c.spawn (.worker p device .ready)).1.post? u =
      if u = c.nextTask then some (.worker p device .ready) else c.post? u :=
    fun u => post_setTask c c.nextTask u (.worker p device .ready)
  have hidle : c.workerOf? p device = none := by
    rw [workerOf?, hq]
    exact hnone
  refine h.staffs (some c.nextTask) (fun u hu => ?_) ?_ (fun t => ?_) (fun r => ?_)
    (fun t r other => ?_) (fun r other => ?_)
  · have hle : c.nextTask + 1 ≤ u := hu
    refine (hpost u).trans ?_
    rw [if_neg (Nat.ne_of_gt hle)]
    exact h.fresh u (Nat.le_of_succ_le hle)
  · exact keys_updateProcess (c.spawn (.worker p device .ready)).1 p _
  · rw [attended_iff]
    change ¬ ∃ r s phase, (c.spawn (.worker p device .ready)).1.post? t =
      some (.session r s phase)
    rw [hpost]
    split
    · rintro ⟨r, s, phase, hs⟩
      cases hs
    · rw [← attended_iff]
      exact h.vacant t
  · exact connectionsOf_updateWorkers _ p (·.put device c.nextTask) r
  · -- The number of the new task was not taken, and the device had no worker.
    rw [worksFor_iff, worksFor_iff]
    change (c.spawn (.worker p device .ready)).1.post? t = _ ↔ _
    rw [hpost, ← worksFor_iff]
    by_cases ht : t = c.nextTask
    · subst ht
      have hfree : ¬ c.WorksFor c.nextTask r other := by
        rw [worksFor_iff, h.fresh _ (Nat.le_refl _)]
        exact Option.some_ne_none _ ∘ Eq.symm
      simp [hfree, eq_comm]
    · rw [if_neg ht, ← worksFor_iff]
      split
      · rename_i hr
        rw [hr.1, hr.2, h.roll, hidle]
        simp [Ne.symm ht]
      · rfl
  · refine (workerOf_updateProcess (c := (c.spawn (.worker p device .ready)).1) hq
      (·.put device c.nextTask) r other).trans ?_
    rw [Table.get?_put]
    by_cases hr : r = p
    · subst hr
      simp [workerOf?, hq]
    · rw [if_neg hr, if_neg fun h => hr h.1]
      rfl

/-- A process stops the worker that it has for a device. -/
theorem Staffed.stop (h : Staffed c) {q : Process} (hq : c.processes.get? p = some q) {t : TaskId}
    (ht : q.workers.get? device = some t) :
    Staffs c p device false ((c.remove t).updateProcess p
      fun q => { q with workers := q.workers.erase device }) := by
  have hpost : ∀ u, (c.remove t).post? u = if u = t then none else c.post? u :=
    fun u => post_erase c t u
  have hbusy : c.workerOf? p device = some t := by
    rw [workerOf?, hq]
    exact ht
  have hwork : c.WorksFor t p device := (h.roll t p device).mpr hbusy
  refine h.staffs none (fun u hu => ?_) ?_ (fun u => ?_) (fun r => ?_)
    (fun u r other => ?_) (fun r other => ?_)
  · refine (hpost u).trans ?_
    split
    · rfl
    · exact h.fresh u hu
  · exact keys_updateProcess (c.remove t) p _
  · rw [attended_iff]
    change ¬ ∃ r s phase, (c.remove t).post? u = some (.session r s phase)
    rw [hpost]
    split
    · rintro ⟨r, s, phase, hs⟩
      cases hs
    · rw [← attended_iff]
      exact h.vacant u
  · exact connectionsOf_updateWorkers _ p (·.erase device) r
  · rw [worksFor_iff, worksFor_iff]
    change (c.remove t).post? u = _ ↔ _
    rw [hpost, ← worksFor_iff]
    by_cases hu : u = t
    · subst hu
      have hother : ¬ (r = p ∧ other = device) → ¬ c.WorksFor u r other := by
        intro hne hr
        rw [worksFor_iff] at hr hwork
        cases hr.symm.trans hwork
        exact hne ⟨rfl, rfl⟩
      simpa using hother
    · rw [if_neg hu, ← worksFor_iff]
      split
      · rename_i hr
        rw [hr.1, hr.2]
        simpa using fun hw => hu (h.one hw hwork)
      · rfl
  · refine (workerOf_updateProcess (c := c.remove t) hq (·.erase device) r other).trans ?_
    rw [Table.get?_erase]
    by_cases hr : r = p
    · subst hr
      simp [workerOf?, hq]
    · rw [if_neg hr, if_neg fun h => hr h.1]
      rfl

/-- A worker runs afterwards exactly if one is wanted. -/
theorem Staffed.staff (h : Staffed c) (p : Nat) (device : String) (wanted : Bool)
    (hp : wanted = true → c.processes.has p = true) :
    Staffs c p device wanted (c.staff p device wanted) := by
  have hsame : (c.Runs p device ↔ wanted = true) → Staffs c p device wanted c := by
    intro hruns
    refine ⟨h, fun _ => rfl, fun _ => rfl, fun r other => ?_⟩
    split
    · rename_i hr
      rw [hr.1, hr.2]
      exact hruns
    · exact Iff.rfl
  unfold Cluster.staff
  cases hq : c.processes.get? p with
  | none =>
    refine hsame ?_
    rw [h.runs_iff, workerOf?, hq]
    have hw : wanted ≠ true := fun hw => by
      have hhas := hp hw
      rw [Table.has, hq] at hhas
      cases hhas
    simp [hw]
  | some q =>
    have hruns : c.Runs p device ↔ (q.workers.get? device).isSome = true := by
      rw [h.runs_iff, workerOf?, hq]
      rfl
    cases wanted <;> cases hw : q.workers.get? device <;> rw [hw] at hruns <;> simp only [hw]
    · exact hsame (hruns.trans (by simp))
    · exact h.stop hq hw
    · exact h.start hq hw
    · exact hsame (hruns.trans (by simp))

end Changes

section Running
variable (supply : Supply) (epoch : Nat) (settings : List ServerSettings)

theorem connectionsOf_running (p : Nat) : (running supply epoch settings).connectionsOf p = {} := by
  rw [connectionsOf, get?_running]
  cases settings[p]? <;> rfl

theorem has_running {p : Nat} :
    (running supply epoch settings).processes.has p = true ↔ p < settings.length := by
  rw [Table.has, get?_running, Option.isSome_map]
  simp

theorem staffed_running : Staffed (running supply epoch settings) := by
  have htasks : (running supply epoch settings).tasks = [] := by
    rw [running_eq]
    rfl
  have hnone : ∀ t, (running supply epoch settings).tasks.get? t = none := by
    rw [htasks]
    exact fun _ => rfl
  refine ⟨fun u _ => ?_, fun t p device => ?_, ?_, fun p => ?_⟩
  · rw [post?, hnone]
    rfl
  · simp only [WorksFor, workerOf?, hnone, get?_running]
    cases settings[p]? <;> simp [Process.fresh, Table.get?]
  · rintro t ⟨p, s, phase, hs⟩
    cases (hnone t).symm.trans hs
  · rw [connectionsOf_running]
    exact fun device => Option.some_ne_none _ ∘ Eq.symm

end Running

end Cluster

end FleetControl
