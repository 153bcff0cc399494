import FleetControl.Proofs.Cluster.Shares

/-! # Devices do not interfere

Take away from a run whatever is about other devices: what is left is a run by itself, in which the
device is served as it was before. The commands that are left have the identifiers that they had;
the tasks that are left are numbered anew, in order. -/
namespace FleetControl.Cluster.Lifetime
open Engine (Agree Allotted Belongs)

/-- Identifiers that are given beforehand. -/
def given (ids : List Uuid) : Supply := ⟨fun i => ids.getD i ⟨0⟩, fun _ => ""⟩

/-- What the tasks of a device are handed. -/
def Share.handed (s : Share) (results : List (TaskId × TaskResult)) :
    List (TaskId × TaskResult) :=
  results.filterMap fun e => if e.1 ∈ s.tasks then some (s.name e.1, e.2) else none

/-- A device is served alike in two clusters, in the other of which its tasks are numbered anew. -/
structure Alike (device : String) (s : Share) (c c' : Cluster) : Prop where
  now : c'.now = c.now
  agree : Agree device s.ids (c.engine 0) (c'.engine 0)
  standings : ∀ t ∈ s.tasks, standing device c' (s.name t) = standing device c t
  results : c'.results = s.handed c.results
  born : c'.nextTask = s.tasks.length

theorem alike_start (device : String) (supply supply' : Supply) (settings : ServerSettings) :
    Alike device {} (start supply settings) (start supply' settings) where
  now := rfl
  agree := ⟨rfl, nofun, nofun⟩
  standings := nofun
  results := rfl
  born := rfl

section Handed
variable {s : Share} {results : List (TaskId × TaskResult)} {t u : TaskId}

theorem name_lt (ht : t ∈ s.tasks) : s.name t < s.tasks.length := List.idxOf_lt_length_iff.mpr ht

theorem name_inj (ht : t ∈ s.tasks) : s.name u = s.name t ↔ u = t := by
  rw [eq_comm, Share.name, Share.name, List.idxOf_inj ht, eq_comm]

theorem handed_concat (results : List (TaskId × TaskResult)) (ht : t ∈ s.tasks) (r : TaskResult) :
    s.handed (results ++ [(t, r)]) = s.handed results ++ [(s.name t, r)] := by
  simp [Share.handed, ht]

theorem handed_concat_other (results : List (TaskId × TaskResult)) (ht : t ∉ s.tasks)
    (r : TaskResult) : s.handed (results ++ [(t, r)]) = s.handed results := by
  simp [Share.handed, ht]

/-- Nothing was handed to who is new. -/
theorem handed_grow (ids : List Uuid) (hnew : ∀ e ∈ results, e.1 ≠ t) :
    Share.handed ⟨ids, s.tasks ++ [t]⟩ results = s.handed results := by
  refine List.filterMap_congr fun e he => ?_
  have hmem : e.1 ∈ s.tasks ++ [t] ↔ e.1 ∈ s.tasks := by
    rw [List.mem_append, List.mem_singleton, or_iff_left (hnew e he)]
  simp only [hmem]
  split
  · rename_i hold
    rw [Share.name, Share.name, List.idxOf_append_of_mem hold]
  · rfl

end Handed

section Alike
variable {device : String} {serves : Uuid → String} {s : Share} {c c' c₁ c₁' : Cluster}
  {t : TaskId} {f : Standing → Standing}

/-- What happens to a task of the device happens in both clusters. -/
theorem standings_move (h : Alike device s c c') (ht : t ∈ s.tasks) (hm : Moves device t f c c₁)
    (hm' : Moves device (s.name t) f c' c₁') :
    ∀ u ∈ s.tasks, standing device c₁' (s.name u) = standing device c₁ u := by
  intro u hu
  rw [hm' (s.name u), hm u, h.standings u hu]
  simp only [name_inj ht]

theorem alike_take (h : Alike device s c c') (hn : c.ready.Nodup) (hn' : c'.ready.Nodup)
    (ht : t ∈ s.tasks) : Alike device s (take c t) (take c' (s.name t)) :=
  ⟨h.now, h.agree, standings_move h ht (moves_take device hn t) (moves_take device hn' _),
    h.results, h.born⟩

theorem alike_setTimer (h : Alike device s c c') (ht : t ∈ s.tasks) (due : Nat) :
    Alike device s (c.setTimer t due) (c'.setTimer (s.name t) due) :=
  ⟨h.now, h.agree, standings_move h ht (moves_setTimer device c t due)
    (moves_setTimer device c' _ due), h.results, h.born⟩

theorem alike_remove (h : Alike device s c c') (ht : t ∈ s.tasks) :
    Alike device s (c.remove t) (c'.remove (s.name t)) :=
  ⟨h.now, h.agree, standings_move h ht (moves_remove device c t) (moves_remove device c' _),
    h.results, h.born⟩

theorem alike_park (h : Alike device s c c') (ht : t ∈ s.tasks) (other : String) :
    Alike device s (c.park t (.queued 0 other)) (c'.park (s.name t) (.queued 0 other)) := by
  have hmoved := standings_move h ht (moves_park device c t other) (moves_park device c' _ other)
  obtain ⟨parked, he⟩ := c.park_eq t (.queued 0 other)
  obtain ⟨parked', he'⟩ := c'.park_eq (s.name t) (.queued 0 other)
  rw [he, he'] at hmoved ⊢
  exact ⟨h.now, h.agree, hmoved, h.results, h.born⟩

theorem alike_deliver (h : Alike device s c c') (ht : t ∈ s.tasks) (r : TaskResult) :
    Alike device s (c.deliver t r) (c'.deliver (s.name t) r) := by
  refine ⟨h.now, h.agree, h.standings, ?_, h.born⟩
  change c'.results ++ [(s.name t, r)] = s.handed (c.results ++ [(t, r)])
  rw [handed_concat c.results ht, h.results]

/-- Both wait for the same. -/
theorem alike_notify (h : Alike device s c c') :
    Alike device s (c.notify (.queued 0 device)) (c'.notify (.queued 0 device)) := by
  have hmoved (u : TaskId) (hu : u ∈ s.tasks) :
      standing device (c'.notify (.queued 0 device)) (s.name u) =
        standing device (c.notify (.queued 0 device)) u := by
    rw [standing_notify, standing_notify, h.standings u hu]
  have hengine := engine_notify c 0 (.queued 0 device)
  have hengine' := engine_notify c' 0 (.queued 0 device)
  obtain ⟨woken, he⟩ := c.notify_eq (.queued 0 device)
  obtain ⟨woken', he'⟩ := c'.notify_eq (.queued 0 device)
  rw [he, he'] at hmoved
  rw [he] at hengine ⊢
  rw [he'] at hengine' ⊢
  refine ⟨h.now, ?_, hmoved, h.results, h.born⟩
  rw [hengine, hengine']
  exact h.agree

theorem alike_operate (h : Alike device s c c') (hd : Dealt device serves s c) (hk : Keeping c)
    (hk' : Keeping c') (op : Engine.Op) (hn : op.submits? = none) :
    Alike device s (operate c op) (operate c' op) := by
  refine ⟨h.now, ?_, h.standings, h.results, h.born⟩
  rw [engine_operate hk, engine_operate hk']
  refine Engine.agree_apply hk.sound hk'.sound hn (fun item hitem => ?_) h.agree
  exact (hd.allotted.queued device item hitem).2.2.mpr rfl

/-- What is about other devices happens in one cluster alone. -/
theorem Alike.stay (h : Alike device s c c') (hnow : c₁.now = c.now)
    (hagree : Agree device s.ids (c.engine 0) (c₁.engine 0))
    (hstandings : ∀ t ∈ s.tasks, standing device c₁ t = standing device c t)
    (hresults : s.handed c₁.results = s.handed c.results) : Alike device s c₁ c' :=
  ⟨h.now.trans hnow.symm, hagree.symm.trans h.agree,
    fun t ht => (h.standings t ht).trans (hstandings t ht).symm, h.results.trans hresults.symm,
    h.born⟩

theorem Alike.elsewhere (h : Alike device s c c') (ht : t ∉ s.tasks) (hm : Moves device t f c c₁)
    (hnow : c₁.now = c.now) (hengine : c₁.engine 0 = c.engine 0)
    (hresults : s.handed c₁.results = s.handed c.results) : Alike device s c₁ c' := by
  refine h.stay hnow ?_ (fun u hu => hm.other fun he => ht (he ▸ hu)) hresults
  rw [hengine]
  exact Agree.refl device s.ids _

/-- An operation that leaves the queue of the device and its commands alone. -/
theorem Alike.spared (h : Alike device s c c') (hk : Keeping c) (op : Engine.Op)
    (hn : op.submits? = none)
    (hspares : ∀ id ∈ s.ids, ∀ p, (c.engine 0).pending.get? id = some p →
      op.decides? id p = none ∧ op.marks id p = p)
    (hqueue : ((c.engine 0).apply op).queue device = (c.engine 0).queue device) :
    Alike device s (operate c op) c' := by
  refine h.stay rfl ?_ (fun _ _ => rfl) rfl
  rw [engine_operate hk]
  exact Engine.agree_spared hk.sound (Engine.fresh_of_submits hn _) (fun _ _ => by simp [hn])
    hspares hqueue

/-- An operation on commands of other devices, wherever these are. -/
theorem Alike.aside (h : Alike device s c c') (hk : Keeping c) (op : Engine.Op)
    (hn : op.submits? = none) (hpop : ∀ other, op ≠ .pop other) (hback : ∀ item, op ≠ .requeue item)
    (hspares : ∀ id ∈ s.ids, ∀ p, (c.engine 0).pending.get? id = some p →
      op.decides? id p = none ∧ op.marks id p = p) : Alike device s (operate c op) c' :=
  h.spared hk op hn hspares
    (Engine.queue_congr (Engine.queues_apply (c.engine 0) op hn hpop hback) device)

/-- Who waits for a command of another device is not of this one. -/
theorem not_waiting (hd : Dealt device serves s c) (ht : Tidy c) {other : String}
    (hne : other ≠ device) : ∀ u ∈ s.tasks, (.queued 0 other, u) ∉ c.parked := by
  intro u hu hparked
  obtain ⟨target, he, hget⟩ := ht.parked _ hparked
  cases he
  exact hne ((hd.consumers u other hget).mp hu)

theorem Alike.notify_other (h : Alike device s c c') {other : String} (hne : other ≠ device)
    (hwaits : ∀ u ∈ s.tasks, (.queued 0 other, u) ∉ c.parked) :
    Alike device s (c.notify (.queued 0 other)) c' := by
  have hstays (u : TaskId) (hu : u ∈ s.tasks) :
      standing device (c.notify (.queued 0 other)) u = standing device c u :=
    standing_notify_other hne (hwaits u hu)
  have hengine := engine_notify c 0 (.queued 0 other)
  obtain ⟨woken, he⟩ := c.notify_eq (.queued 0 other)
  rw [he] at hengine hstays ⊢
  refine h.stay rfl ?_ hstays rfl
  rw [hengine]
  exact Agree.refl device s.ids _

theorem alike_spawn (h : Alike device s c c') (hd : Dealt device serves s c) (ht : Tidy c)
    (ht' : Tidy c') {task task' : Task} (htask : task' = task) :
    Alike device { s with tasks := s.tasks ++ [c.nextTask] } (c.spawn task).1
      (c'.spawn task').1 := by
  subst htask
  have hold {u : TaskId} (hu : u ∈ s.tasks) :
      Share.name ⟨s.ids, s.tasks ++ [c.nextTask]⟩ u = s.name u := List.idxOf_append_of_mem hu
  have hnew : Share.name ⟨s.ids, s.tasks ++ [c.nextTask]⟩ c.nextTask = c'.nextTask := by
    rw [Share.name, List.idxOf_append_of_notMem hd.unknown, List.idxOf_cons_self, h.born]
    rfl
  refine ⟨h.now, h.agree, fun u hu => ?_, ?_, ?_⟩
  · rcases List.mem_append.mp hu with hu | hu
    · rw [hold hu, standing_spawn device c _ u (Nat.ne_of_lt (hd.named u hu)),
        standing_spawn device c' _ _ (h.born ▸ Nat.ne_of_lt (name_lt hu))]
      exact h.standings u hu
    · rw [List.mem_singleton.mp hu, hnew, standing_born device ht, standing_born device ht']
  · exact h.results.trans (handed_grow s.ids fun e he => Nat.ne_of_lt (ht.results e he)).symm
  · change c'.nextTask + 1 = (s.tasks ++ [c.nextTask]).length
    rw [List.length_append, h.born]
    rfl

/-- Who is new is not of the device. -/
theorem Alike.spawn_other (h : Alike device s c c') (hd : Dealt device serves s c) (task : Task) :
    Alike device s (c.spawn task).1 c' :=
  h.stay rfl (Agree.refl device s.ids _)
    (fun u hu => standing_spawn device c _ u (Nat.ne_of_lt (hd.named u hu))) rfl

theorem engine_submit (hk : Keeping c) (id : Uuid) (other : String) (command : Command)
    (blob : Option ByteArray) (timeout : Nat) :
    (submit c id other command blob timeout).engine 0 =
      (c.engine 0).enqueue id other command blob timeout c.now := hk.engine_setEngine _

theorem alike_submit (h : Alike device s c c') (hd : Dealt device serves s c) (hk : Keeping c)
    (hk' : Keeping c') (ht : Tidy c) (ht' : Tidy c') (id : Uuid) (command : Command)
    (blob : Option ByteArray) (timeout : Nat) :
    Alike device ⟨s.ids ++ [id], s.tasks ++ [c.nextTask]⟩
      (submit c id device command blob timeout) (submit c' id device command blob timeout) := by
  have hlimit : Task.expiry 0 id (c'.now + timeout) = .expiry 0 id (c.now + timeout) := by
    rw [h.now]
  have hspawned := alike_spawn h hd ht ht' hlimit
  refine ⟨h.now, ?_, hspawned.standings, hspawned.results, hspawned.born⟩
  rw [engine_submit hk, engine_submit hk', h.now]
  exact Engine.agree_enqueue h.agree id command blob timeout c.now

theorem Alike.submit_other (h : Alike device s c c') (hd : Dealt device serves s c)
    (hk : Keeping c) {id : Uuid} (hf : (c.engine 0).completions.get? id = none) {other : String}
    (hne : other ≠ device) (command : Command) (blob : Option ByteArray) (timeout : Nat) :
    Alike device s (submit c id other command blob timeout) c' := by
  have hunknown : id ∉ s.ids := hd.allotted.unknown hf
  have hfresh : (Engine.Op.enqueue id other command blob timeout c.now).Fresh (c.engine 0) := hf
  refine h.stay rfl ?_ (fun u hu => standing_spawn device c _ u (Nat.ne_of_lt (hd.named u hu))) rfl
  rw [engine_submit hk]
  refine Engine.agree_spared hk.sound hfresh
    (fun j hj he => hunknown (Option.some.inj he ▸ hj)) (fun _ _ _ _ => ⟨rfl, rfl⟩) ?_
  exact (Engine.queue_enqueue ..).trans (if_neg fun he => hne he.symm)

/-- A task of the device has its turn in both clusters. -/
theorem alike_give (h : Alike device s c c') (hd : Dealt device serves s c) (hk : Keeping c)
    (hk' : Keeping c') (ht : Tidy c) (ht' : Tidy c') (hmem : t ∈ s.tasks) :
    Alike device s (c.give t) (c'.give (s.name t)) := by
  have hstanding := h.standings t hmem
  have hready : s.name t ∈ c'.ready ↔ t ∈ c.ready := (congrArg Standing.ready hstanding).to_iff
  have htasks : c'.tasks.get? (s.name t) = c.tasks.get? t := congrArg Standing.task hstanding
  by_cases hr : t ∈ c.ready
  · have htaken := alike_take h ht.nodup ht'.nodup hmem
    have hoperated (op : Engine.Op) (hn : op.submits? = none) :
        Alike device s (operate (take c t) op) (operate (take c' (s.name t)) op) :=
      alike_take (alike_operate h hd hk hk' op hn) ht.nodup ht'.nodup hmem
    rw [give_eq ht hk hr, give_eq ht' hk' (hready.mpr hr), htasks, h.now]
    cases htask : c.tasks.get? t with
    | none => exact alike_remove htaken hmem
    | some task =>
      obtain ⟨-, ⟨other, rfl⟩ | ⟨id, due, rfl, -⟩⟩ := hk.tasks t task htask
      · obtain rfl := (hd.consumers t other htask).mp hmem
        have hitems (item : QueuedCommand) (hitem : item ∈ (c.engine 0).queue other) :
            item.id ∈ s.ids := (hd.allotted.queued other item hitem).2.2.mpr rfl
        have hpopped := hoperated (.pop other) rfl
        dsimp only
        rw [(Engine.popLive_agree hitems h.agree).1]
        split
        · exact alike_remove (alike_deliver hpopped hmem _) hmem
        · exact alike_park hpopped hmem other
      · dsimp only
        split
        · exact alike_remove (hoperated (.expire id) rfl) hmem
        · exact alike_setTimer htaken hmem due
  · rw [give_of_not_mem hr, give_of_not_mem (mt hready.mp hr)]
    exact h

/-- A task of another device has its turn. -/
theorem Alike.give_other (h : Alike device s c c') (hd : Dealt device serves s c)
    (hk : Keeping c) (ht : Tidy c) (hmem : t ∉ s.tasks) : Alike device s (c.give t) c' := by
  have htake {c : Cluster} (hn : c.ready.Nodup) (h : Alike device s c c') :
      Alike device s (take c t) c' := h.elsewhere hmem (moves_take device hn t) rfl rfl rfl
  have hremove {c : Cluster} (h : Alike device s c c') : Alike device s (c.remove t) c' :=
    h.elsewhere hmem (moves_remove device c t) rfl rfl rfl
  by_cases hr : t ∈ c.ready
  · rw [give_eq ht hk hr]
    cases htask : c.tasks.get? t with
    | none => exact hremove (htake ht.nodup h)
    | some task =>
      obtain ⟨-, ⟨other, rfl⟩ | ⟨id, due, rfl, -⟩⟩ := hk.tasks t task htask
      · have hne : device ≠ other := fun he => hmem ((hd.consumers t other htask).mpr he.symm)
        have hspared := h.spared hk (.pop other) rfl (fun _ _ _ _ => ⟨rfl, rfl⟩)
          (Engine.queue_popLive_of_ne (c.engine 0) hne)
        have hpopped : Alike device s (operate (take c t) (.pop other)) c' :=
          htake (c := operate c (.pop other)) ht.nodup hspared
        dsimp only
        split
        · refine hremove (hpopped.elsewhere hmem (f := id) (fun u => ?_) rfl rfl ?_)
          · exact (ite_self _).symm
          · exact handed_concat_other _ hmem _
        · have hmoved := moves_park device (operate (take c t) (.pop other)) t other
          obtain ⟨parked, he⟩ := (operate (take c t) (.pop other)).park_eq t (.queued 0 other)
          rw [he] at hmoved ⊢
          exact hpopped.elsewhere hmem hmoved rfl rfl rfl
      · have hforeign : id ∉ s.ids := mt (hd.limits t id due htask).2.mpr hmem
        have hspared := h.aside hk (.expire id) rfl (by simp) (by simp) fun j hj p _ =>
          ⟨if_neg fun he : id = j => hforeign (he ▸ hj), rfl⟩
        have hexpired : Alike device s (operate (take c t) (.expire id)) c' :=
          htake (c := operate c (.expire id)) ht.nodup hspared
        dsimp only
        split
        · exact hremove hexpired
        · exact (htake ht.nodup h).elsewhere hmem (moves_setTimer device _ t due) rfl rfl rfl
  · rw [give_of_not_mem hr]
    exact h

theorem exists_name (hd : Dealt device serves s c) {n : TaskId} (hn : n < s.tasks.length) :
    ∃ u ∈ s.tasks, s.name u = n :=
  ⟨s.tasks[n], List.getElem_mem hn, hd.distinct.idxOf_getElem n hn⟩

/-- Time goes on as it did: without the other devices nothing is due before. -/
theorem Alike.now_pass (h : Alike device s c c') (hd : Dealt device serves s c) (hk : Keeping c)
    (ht' : Tidy c') (ms : Nat) : (c'.pass ((c.pass ms).now - c.now)).now = (c.pass ms).now := by
  by_cases hr : c.ready = []
  · obtain ⟨now, woken, he, hle, hbound, -⟩ := pass_eq hr ms
    have hpassed : (c.pass ms).now = now := by rw [he]
    have hthen : c'.now + ((c.pass ms).now - c.now) = now := by
      rw [h.now, hpassed, Nat.add_sub_cancel' hle]
    have hr' : c'.ready = [] := by
      refine List.eq_nil_iff_forall_not_mem.mpr fun n hn => ?_
      obtain ⟨u, hu, rfl⟩ := exists_name hd (h.born ▸ ht'.ready n hn)
      have hready : u ∈ c.ready :=
        (congrArg Standing.ready (h.standings u hu)).to_iff.mp hn
      rw [hr] at hready
      cases hready
    refine (Lifetime.now_pass hr' fun e hmem => ?_).trans (hthen.trans hpassed.symm)
    obtain ⟨u, hu, hname⟩ := exists_name hd (h.born ▸ ht'.timers e hmem)
    have hdue : (e.1, u) ∈ c.timers := by
      refine (congrFun (congrArg Standing.due (h.standings u hu)) e.1).to_iff.mp ?_
      rw [hname]
      exact hmem
    have hahead : c.now ≤ e.1 := Nat.le_of_lt (hk.ahead (e.1, u) hdue)
    have hmost : now ≤ max c.now e.1 := hbound (e.1, u) hdue
    rw [hthen]
    exact Nat.le_trans hmost (Nat.max_le.mpr ⟨hahead, Nat.le_refl _⟩)
  · rw [pass_of_ready hr, Nat.sub_self, now_pass_zero, h.now]

theorem alike_pass (h : Alike device s c c') (hd : Dealt device serves s c) (hk : Keeping c)
    (hk' : Keeping c') (ht' : Tidy c') (ms : Nat) :
    Alike device s (c.pass ms) (c'.pass ((c.pass ms).now - c.now)) := by
  have hnow := h.now_pass hd hk ht' ms
  have hmoved (u : TaskId) (hu : u ∈ s.tasks) :
      standing device (c'.pass ((c.pass ms).now - c.now)) (s.name u) =
        standing device (c.pass ms) u := by
    rw [standing_pass hk', standing_pass hk, hnow, h.standings u hu]
  obtain ⟨now, timers, ready, -, he⟩ := pass_keeps c ms
  obtain ⟨now', timers', ready', -, he'⟩ := pass_keeps c' ((c.pass ms).now - c.now)
  rw [he'] at hnow hmoved ⊢
  rw [he] at hnow hmoved ⊢
  exact ⟨hnow, h.agree, hmoved, h.results, h.born⟩

/-- What is done about a command is done in both clusters if it is of the device. -/
theorem alike_named (h : Alike device s c c') (hd : Dealt device serves s c) (hk : Keeping c)
    (hk' : Keeping c') (ht : Tidy c) (ht' : Tidy c') (a : Act) (id : Uuid) {op : Engine.Op}
    (ha : a.op? = some op) (hback : ∀ item, a ≠ .requeue item) (hpop : ∀ other, op ≠ .pop other)
    (hput : ∀ item, op ≠ .requeue item)
    (hspares : ∀ j p, id ≠ j → op.decides? j p = none ∧ op.marks j p = p) :
    Alike device s (act c a)
      (course c' ((if id ∈ s.ids then some a else none).map .act).toList) := by
  rw [act_operate ht ha hback]
  split
  · change Alike device s (operate c op) (act c' a)
    rw [act_operate ht' ha hback]
    exact alike_operate h hd hk hk' op (Act.submits_op ha)
  · rename_i hforeign
    exact h.aside hk op (Act.submits_op ha) hpop hput fun j hj p _ =>
      hspares j p fun he => hforeign (he ▸ hj)

/-- An act of a run, and what is left of it. -/
theorem alike_act (h : Alike device s c c') (hd : Dealt device serves s c) (hk : Keeping c)
    (hk' : Keeping c') (ht : Tidy c) (ht' : Tidy c') {a : Act} (hp : Permitted serves c (.act a))
    (hids : Apart c.supply (c.drawn + submissions [a]))
    (hid : (s.next device c (.act a)).ids = s.ids ++ [c.supply.idOf c.drawn] →
      c'.supply.idOf c'.drawn = c.supply.idOf c.drawn) :
    Alike device (s.next device c (.act a)) (act c a)
      (course c' (own? device serves s c (.act a)).toList) := by
  have hnamed (a : Act) (id : Uuid) {op : Engine.Op} (ha : a.op? = some op) :=
    alike_named h hd hk hk' ht ht' a id ha
  rw [own?]
  cases a with
  | enqueue other command blob timeout =>
    by_cases he : other = device
    · subst he
      have hnext : s.next other c (.act (.enqueue other command blob timeout)) =
          ⟨s.ids ++ [c.supply.idOf c.drawn], s.tasks ++ [c.nextTask]⟩ := if_pos rfl
      have hdrawn := hid (by rw [hnext])
      rw [hnext, ownAct?, if_pos rfl]
      change Alike other _ (act c (.enqueue other command blob timeout))
        (act c' (.enqueue other command blob timeout))
      rw [act_submit, act_submit, hdrawn]
      exact alike_notify (alike_submit h hd hk hk' ht ht' _ command blob timeout)
    · have hnext : s.next device c (.act (.enqueue other command blob timeout)) = s := if_neg he
      have hf := fresh_id hk fun i hi => hids i c.drawn hi (Nat.lt_succ_self _)
      rw [hnext, ownAct?, if_neg he]
      exact (h.submit_other hd hk hf he command blob timeout).notify_other he
        (not_waiting hd ht he)
  | consume other =>
    by_cases he : other = device
    · subst he
      have hnext : s.next other c (.act (.consume other)) =
          { s with tasks := s.tasks ++ [c.nextTask] } := if_pos rfl
      rw [hnext, ownAct?, if_pos rfl]
      exact alike_spawn h hd ht ht' rfl
    · have hnext : s.next device c (.act (.consume other)) = s := if_neg he
      rw [hnext, ownAct?, if_neg he]
      exact h.spawn_other hd _
  | mark id conn =>
    exact hnamed (.mark id conn) id rfl (by simp) (by simp) (by simp) fun j p hj =>
      ⟨rfl, if_neg hj⟩
  | unmark id =>
    exact hnamed (.unmark id) id rfl (by simp) (by simp) (by simp) fun j p hj =>
      ⟨rfl, if_neg hj⟩
  | resolve id outcome =>
    exact hnamed (.resolve id outcome) id rfl (by simp) (by simp) (by simp) fun j p hj =>
      ⟨if_neg hj, rfl⟩
  | respond id ok result body =>
    exact hnamed (.respond id ok result body) id rfl (by simp) (by simp) (by simp) fun j p hj =>
      ⟨if_neg hj, rfl⟩
  | requeue item =>
    rw [ownAct?]
    split
    · rename_i he
      subst he
      exact alike_notify (alike_operate h hd hk hk' (.requeue item) rfl)
    · rename_i hne
      obtain ⟨t, hitem⟩ := hp
      have hforeign : item.id ∉ s.ids := mt (hd.handed t item hitem).2.mp hne
      have hput := h.spared hk (.requeue item) rfl
        (fun j hj p _ => ⟨rfl, if_neg fun he : item.id = j => hforeign (he ▸ hj)⟩)
        ((Engine.queue_requeueFront ..).trans (if_neg fun he => hne he.symm))
      exact hput.notify_other hne (not_waiting hd ht hne)
  | fail conn =>
    rw [ownAct?, act_operate (a := .fail conn) ht rfl (by simp)]
    split
    · change Alike device s (operate c (.fail conn)) (act c' (.fail conn))
      rw [act_operate (a := .fail conn) ht' rfl (by simp)]
      exact alike_operate h hd hk hk' (.fail conn) rfl
    · -- What went out on a connection is for the device that the connection serves.
      rename_i hserves
      refine h.aside hk (.fail conn) rfl (by simp) (by simp) fun j hj p hp =>
        ⟨if_neg fun ho => ?_, rfl⟩
      have hdevice := (hd.allotted.pending j p hp).mp hj
      exact hserves ((hd.allotted.sent j p conn hp ho).trans hdevice)
  | turn t =>
    rw [ownAct?]
    split
    · exact alike_give h hd hk hk' ht ht' ‹_›
    · exact h.give_other hd hk ht ‹_›
  | pass ms => exact alike_pass h hd hk hk' ht' ms

theorem alike_quit (h : Alike device s c c') (t : TaskId) :
    Alike device s (quit c t) (course c' (own? device serves s c (.quit t)).toList) := by
  rw [own?]
  split
  · rename_i hmem
    have htasks : c'.tasks.get? (s.name t) = c.tasks.get? t :=
      congrArg Standing.task (h.standings t hmem)
    change Alike device s (quit c t) (quit c' (s.name t))
    unfold quit
    rw [htasks]
    split
    · exact alike_remove h hmem
    · exact h
  · rename_i hmem
    obtain he | ⟨-, -, -, he⟩ := quit_cases c t <;> rw [he]
    · exact h
    · exact h.elsewhere hmem (moves_remove device c t) rfl rfl rfl

theorem apart_given {ids : List Uuid} (h : ids.Nodup) : Apart (given ids) ids.length := by
  intro i j hij hj
  have hget (k : Nat) (hk : k < ids.length) : (given ids).idOf k = ids[k] := by
    simp [given, hk]
  rw [hget i (by omega), hget j hj]
  exact List.pairwise_iff_getElem.mp h i j (by omega) hj hij

/-- A run and what is left of it, with the identifiers that its commands of the device have. -/
theorem alike_course {ids : List Uuid} {ds : List Deed} (hs : (share device s c ds).ids <+: ids)
    (hn : ids.Nodup) (h : Alike device s c c') (hd : Dealt device serves s c) (hk : Keeping c)
    (hk' : Keeping c') (ht : Tidy c) (ht' : Tidy c') (hp : Orderly serves c ds)
    (hids : Apart c.supply (c.drawn + requests ds)) (hsupply : c'.supply = given ids)
    (hdrawn : c'.drawn = s.ids.length) :
    Alike device (share device s c ds) (course c ds) (course c' (own device serves s c ds)) := by
  induction ds generalizing s c c' with
  | nil => exact h
  | cons d ds ih =>
    obtain ⟨hfirst, hkeep, htidy, hrest⟩ := perform_first hk ht hids
    have hprefix : (s.next device c d).ids <+: ids :=
      (ids_share device (s.next device c d) (perform c d) ds).trans hs
    have hcount : c'.drawn + requests (own? device serves s c d).toList =
        (s.next device c d).ids.length := by
      obtain ⟨he, hr⟩ | ⟨he, hr⟩ := ids_next device serves s c d
      · rw [he, hr, hdrawn, Nat.add_zero]
      · rw [he, hr, hdrawn, List.length_append, List.length_singleton]
    have hapart : Apart c'.supply (c'.drawn + requests (own? device serves s c d).toList) := by
      rw [hsupply, hcount]
      exact (apart_given hn).mono hprefix.length_le
    obtain ⟨hkeep', htidy', hsupply', hdrawn'⟩ := course_keeps hk' ht' hapart
    -- The next identifier is the one that the command had.
    have hid (he : (s.next device c d).ids = s.ids ++ [c.supply.idOf c.drawn]) :
        c'.supply.idOf c'.drawn = c.supply.idOf c.drawn := by
      rw [he] at hprefix
      obtain ⟨later, hlater⟩ := hprefix
      rw [hsupply, hdrawn, given, ← hlater]
      simp
    have hnext : Alike device (s.next device c d) (perform c d)
        (course c' (own? device serves s c d).toList) := by
      cases d with
      | act a => exact alike_act h hd hk hk' ht ht' hp.1 hfirst hid
      | quit t => exact alike_quit h t
    rw [own, course_append]
    exact ih hs hnext (dealt_perform hd hk ht hp.1 hfirst) hkeep hkeep' htidy htidy' hp.2 hrest
      (hsupply'.trans hsupply) (hdrawn'.trans hcount)

end Alike

/-- Devices do not interfere. Of a run in which each connection serves one device, take away all
that is about other devices: up to each point of the run, the same time passes, the same commands
are handed to the same tasks of the device, its tasks stand as they did, and its commands have the
same outcomes. -/
theorem devices_apart (device : String) (serves : Uuid → String) (supply : Supply)
    (settings : ServerSettings) (before after : List Deed)
    (hids : Apart supply (requests (before ++ after)))
    (hp : Orderly serves (start supply settings) (before ++ after)) :
    let c₀ := start supply settings
    let ids := (share device {} c₀ (before ++ after)).ids
    let s := share device {} c₀ before
    let c := course c₀ before
    let c' := course (start (given ids) settings) (own device serves {} c₀ before)
    own device serves {} c₀ before <+: own device serves {} c₀ (before ++ after) ∧
    Alike device s c c' ∧
    ∀ id ∈ s.ids, (c'.engine 0).outcome? id = (c.engine 0).outcome? id := by
  intro c₀ ids s c c'
  have hk : Keeping c₀ := keeping_start supply settings
  have ht : Tidy c₀ := tidy_start supply settings
  have hd : Dealt device serves {} c₀ := dealt_start device serves supply settings
  have hdrawn : c₀.drawn = 0 := rfl
  have hall : Apart c₀.supply (c₀.drawn + requests (before ++ after)) := by
    rw [hdrawn, Nat.zero_add]
    exact hids
  have hbefore : Apart c₀.supply (c₀.drawn + requests before) := by
    rw [requests_append, ← Nat.add_assoc] at hall
    exact hall.mono (Nat.le_add_right ..)
  have hprefix : s.ids <+: ids := by
    change s.ids <+: (share device {} c₀ (before ++ after)).ids
    rw [share_append]
    exact ids_share device s c after
  have hnodup : ids.Nodup := (dealt_course hd hk ht hp hall).allotted.nodup
  have halike : Alike device s c c' :=
    alike_course hprefix hnodup (alike_start device supply (given ids) settings) hd hk
      (keeping_start (given ids) settings) ht (tidy_start (given ids) settings)
      (orderly_append.mp hp).1 hbefore rfl rfl
  refine ⟨?_, halike, fun id hid => halike.agree.outcome hid⟩
  rw [own_append]
  exact List.prefix_append ..

/-- Two devices take turns: the connection of the second is lost, the command of the first is handed
out and ends with its time limit. -/
def mingled : List Deed :=
  [.act (.consume "frame-1"), .act (.turn 0),
    .act (.enqueue "frame-2" (.shell "reboot") none 1000), .act (.consume "frame-2"),
    .act (.turn 2), .act (.mark ⟨0⟩ ⟨20⟩), .act (.turn 1), .act (.consume "frame-2"),
    .act (.enqueue "frame-1" (.shell "uptime") none 5000), .act (.turn 3), .quit 3,
    .act (.turn 0), .act (.mark ⟨1⟩ ⟨10⟩), .act (.turn 4), .act (.pass 9000), .act (.fail ⟨20⟩),
    .act (.turn 1), .act (.pass 9000), .act (.turn 4)]

def connections (conn : Uuid) : String := if conn = ⟨10⟩ then "frame-1" else "frame-2"

theorem apart_mingled : Apart counting (requests mingled) := by
  intro i j hij hj
  have hj : j < 2 := hj
  obtain ⟨rfl, rfl⟩ : i = 0 ∧ j = 1 := by omega
  exact nofun

theorem orderly_mingled : Orderly connections (start counting (.ofConfig {})) mingled := by
  refine ⟨trivial, trivial, trivial, trivial, trivial, fun p hp => ?_, trivial, trivial, trivial,
    trivial, trivial, trivial, fun p hp => ?_, trivial, trivial, trivial, trivial, trivial, trivial,
    trivial⟩
  · exact Option.some.inj hp ▸ rfl
  · exact Option.some.inj hp ▸ rfl

theorem own_mingled : own "frame-1" connections {} (start counting (.ofConfig {})) mingled =
    [.act (.consume "frame-1"), .act (.turn 0),
      .act (.enqueue "frame-1" (.shell "uptime") none 5000), .act (.turn 0),
      .act (.mark ⟨1⟩ ⟨10⟩), .act (.turn 1), .act (.pass 1000), .act (.pass 4000),
      .act (.turn 1)] := rfl

theorem share_mingled : share "frame-1" {} (start counting (.ofConfig {})) mingled =
    ⟨[⟨1⟩], [0, 4]⟩ := rfl

/-- The first device is served as if it were alone. -/
theorem devices_apart_mingled : Apart counting (requests mingled) ∧
    Orderly connections (start counting (.ofConfig {})) mingled ∧
    let alone := course (start (given [⟨1⟩]) (.ofConfig {})) [.act (.consume "frame-1"),
      .act (.turn 0), .act (.enqueue "frame-1" (.shell "uptime") none 5000), .act (.turn 0),
      .act (.mark ⟨1⟩ ⟨10⟩), .act (.turn 1), .act (.pass 1000), .act (.pass 4000), .act (.turn 1)]
    alone.now = 5000 ∧
    alone.results = [(0, .item ⟨⟨1⟩, "frame-1", .shell "uptime", none⟩)] ∧
    (alone.engine 0).outcome? ⟨1⟩ = some (.error (.timeout "frame-1" "shell" 5)) := by
  obtain ⟨-, halike, houtcomes⟩ := devices_apart "frame-1" connections counting (.ofConfig {})
    mingled [] apart_mingled orderly_mingled
  rw [List.append_nil, share_mingled, own_mingled] at halike houtcomes
  have hnow : (course (start counting (.ofConfig {})) mingled).now = 5000 := by decide
  exact ⟨apart_mingled, orderly_mingled, halike.now.trans hnow, halike.results.trans rfl,
    (houtcomes ⟨1⟩ (List.mem_singleton_self _)).trans rfl⟩

end FleetControl.Cluster.Lifetime
