import FleetControl.Proofs.Cluster.Sections

/-! # Waiters

A waiter asks to be woken before it looks at its queue, and who puts a command on a queue wakes all
that asked afterwards. So nobody sleeps beside a pending command, however the steps are mixed,
whatever is decided in between, and whoever gives up. -/
namespace FleetControl.Cluster.Lifetime
open Engine (Dry Accounted addressed)

/-- What was handed out so far. -/
def handedOut (c : Cluster) : List QueuedCommand :=
  c.results.filterMap fun r => match r.2 with
    | .item item => some item
    | _ => none

/-- What came of a task. -/
def returned (c : Cluster) (t : TaskId) : List (TaskId × TaskResult) :=
  c.results.filter fun r => r.1 = t

/-- A task has ended. -/
def Over (c : Cluster) (t : TaskId) : Prop := c.tasks.get? t = none ∧ t < c.nextTask

/-- A waiter goes on, or will be woken: it sleeps only if there is nothing for it, or if someone is
about to wake it, or if it has yet to look. -/
def Minded (m : Moment) (t : TaskId) (device : String) : Prop :=
  t ∈ m.cluster.ready ∨ (.queued 0 device, t) ∈ m.cluster.parked ∧
    (Dry (m.cluster.engine 0) device ∨ device ∈ m.owed ∨ t ∈ m.looking)

def Attentive (m : Moment) : Prop :=
  ∀ t device, m.cluster.tasks.get? t = some (.consumer 0 device) → Minded m t device

structure Heedful (m : Moment) : Prop where
  attentive : Attentive m
  accounted : Accounted (m.cluster.engine 0) m.put (handedOut m.cluster)
  served : ∀ r ∈ m.cluster.results, Over m.cluster r.1 ∧ returned m.cluster r.1 = [r]

theorem heedful_start (supply : Supply) (settings : ServerSettings) :
    Heedful (.start supply settings) where
  attentive t device ht := by cases ht
  accounted := Engine.accounted_empty
  served := nofun

/-- No waiter is put to sleep; a new one goes on. -/
def Stays (c c' : Cluster) : Prop :=
  ∀ t device, c'.tasks.get? t = some (.consumer 0 device) →
    t ∈ c'.ready ∨ c.tasks.get? t = some (.consumer 0 device) ∧ (t ∈ c.ready → t ∈ c'.ready) ∧
      ((.queued 0 device, t) ∈ c.parked → (.queued 0 device, t) ∈ c'.parked)

/-- Nothing is put on a queue and nothing handed out, and no waiter is put to sleep. -/
structure Aside (c c' : Cluster) : Prop where
  stays : Stays c c'
  ended : ∀ t, Over c t → Over c' t
  results : c'.results = c.results
  engine : ∀ put handed, Accounted (c.engine 0) put handed →
    Accounted (c'.engine 0) put handed ∧
      ∀ device, Dry (c.engine 0) device → Dry (c'.engine 0) device

section Aside
variable {c c' c'' : Cluster} {m : Moment} {t : TaskId}

theorem Stays.trans (h : Stays c c') (h' : Stays c' c'') : Stays c c'' := by
  intro t device ht
  obtain hready | ⟨ht, hready', hparked'⟩ := h' t device ht
  · exact .inl hready
  · obtain hready | ⟨ht, hready, hparked⟩ := h t device ht
    · exact .inl (hready' hready)
    · exact .inr ⟨ht, fun hr => hready' (hready hr), fun hp => hparked' (hparked hp)⟩

theorem Aside.trans (h : Aside c c') (h' : Aside c' c'') : Aside c c'' where
  stays := h.stays.trans h'.stays
  ended t ht := h'.ended t (h.ended t ht)
  results := h'.results.trans h.results
  engine put handed ha :=
    have ⟨ha', hdry⟩ := h.engine put handed ha
    have ⟨ha'', hdry'⟩ := h'.engine put handed ha'
    ⟨ha'', fun device hd => hdry' device (hdry device hd)⟩

/-- Changes that the engine has no part in. -/
theorem Aside.of_engine (hengine : c'.engine 0 = c.engine 0) (hstays : Stays c c')
    (hover : ∀ t, Over c t → Over c' t) (hresults : c'.results = c.results) : Aside c c' :=
  ⟨hstays, hover, hresults, fun _ _ ha => by
    rw [hengine]
    exact ⟨ha, fun _ hd => hd⟩⟩

theorem Aside.refl (c : Cluster) : Aside c c :=
  .of_engine rfl (fun _ _ ht => .inr ⟨ht, id, id⟩) (fun _ => id) rfl

theorem aside_operate (hk : Keeping c) {op : Engine.Op} (hn : op.submits? = none)
    (hpop : ∀ device, op ≠ .pop device) (hback : ∀ item, op ≠ .requeue item) :
    Aside c (operate c op) := by
  refine ⟨fun _ _ ht => .inr ⟨ht, id, id⟩, fun _ => id, rfl, fun put handed ha => ?_⟩
  rw [engine_operate hk]
  exact ⟨ha.apply hk.sound hn hpop hback, fun device hd => hd.apply hk.sound hn hback⟩

theorem over_spawn (task : Task) (h : Over c t) : Over (c.spawn task).1 t :=
  ⟨(Table.get?_put_of_ne c.tasks task (Nat.ne_of_lt h.2)).trans h.1, Nat.lt_succ_of_lt h.2⟩

/-- Who is new can go on. -/
theorem stays_spawn (c : Cluster) (task : Task) : Stays c (c.spawn task).1 := by
  intro t device ht
  change (c.tasks.put c.nextTask task).get? t = _ at ht
  by_cases hnew : t = c.nextTask
  · exact .inl (hnew ▸ List.mem_append_right _ (List.mem_singleton_self _))
  · rw [Table.get?_put_of_ne _ _ hnew] at ht
    exact .inr ⟨ht, List.mem_append_left _, id⟩

theorem aside_spawn (c : Cluster) (task : Task) : Aside c (c.spawn task).1 :=
  .of_engine rfl (stays_spawn c task) (fun _ => over_spawn task) rfl

theorem aside_remove (c : Cluster) (t : TaskId) : Aside c (c.remove t) := by
  have hget (u : TaskId) : (c.remove t).tasks.get? u = if u = t then none else c.tasks.get? u :=
    Table.get?_erase c.tasks t u
  refine .of_engine rfl (fun u device hu => .inr ?_) (fun u hu => ⟨?_, hu.2⟩) rfl
  · rw [hget] at hu
    split at hu
    · cases hu
    · rename_i hne
      exact ⟨hu, fun hr => List.mem_filter.mpr ⟨hr, by simpa using hne⟩,
        fun hp => List.mem_filter.mpr ⟨hp, by simpa using hne⟩⟩
  · rw [hget, hu.1]
    exact ite_self _

/-- Other tasks than waiters have their turns. -/
theorem aside_take (ht : ∀ device, c.tasks.get? t ≠ some (.consumer 0 device)) :
    Aside c (take c t) := by
  refine .of_engine rfl (fun u device hu => .inr ⟨hu, fun hr => ?_, id⟩) (fun _ => id) rfl
  have hne : u ≠ t := fun he => ht device (he ▸ hu)
  exact (List.mem_erase_of_ne hne).mpr hr

theorem aside_setTimer (c : Cluster) (t : TaskId) (due : Nat) : Aside c (c.setTimer t due) :=
  .of_engine rfl (fun _ _ ht => .inr ⟨ht, id, id⟩) (fun _ => id) rfl

theorem aside_pass (hk : Keeping c) (ms : Nat) : Aside c (c.pass ms) := by
  have hready (t : TaskId) (hr : t ∈ c.ready) : t ∈ (c.pass ms).ready := by
    have hlater := standing_pass hk "" ms t
    exact (congrArg Standing.ready hlater).to_iff.mpr (.inl hr)
  obtain ⟨now, timers, ready, -, he⟩ := pass_keeps c ms
  rw [he] at hready ⊢
  exact .of_engine rfl (fun t _ ht => .inr ⟨ht, hready t, id⟩) (fun _ => id) rfl

theorem aside_give (hk : Keeping c) (ht : Tidy c)
    (hother : ∀ device, c.tasks.get? t ≠ some (.consumer 0 device)) : Aside c (c.give t) := by
  by_cases hr : t ∈ c.ready
  · have htaken := aside_take hother
    rw [give_eq ht hk hr]
    cases htask : c.tasks.get? t with
    | none => exact htaken.trans (aside_remove _ t)
    | some task =>
      obtain ⟨-, ⟨device, rfl⟩ | ⟨id, due, rfl, -⟩⟩ := hk.tasks t task htask
      · exact absurd htask (hother device)
      · have hoperated : Aside c (operate c (.expire id)) := aside_operate hk rfl nofun nofun
        have hexpired : Aside c (operate (take c t) (.expire id)) :=
          hoperated.trans (aside_take (c := operate c (.expire id)) hother)
        dsimp only
        split
        · exact hexpired.trans (aside_remove _ t)
        · exact htaken.trans (aside_setTimer _ t due)
  · rw [give_of_not_mem hr]
    exact Aside.refl c

theorem aside_act (hk : Keeping m.cluster) (ht : Tidy m.cluster) {a : Act}
    (hm : m.Allows (.act a)) : Aside m.cluster (act m.cluster a) := by
  have hoperate {op : Engine.Op} (ha : a.op? = some op) (hback : ∀ item, a ≠ .requeue item)
      (hpop : ∀ device, op ≠ .pop device) (hput : ∀ item, op ≠ .requeue item) :
      Aside m.cluster (act m.cluster a) := by
    rw [act_operate ht ha hback]
    exact aside_operate hk (Act.submits_op ha) hpop hput
  cases a with
  | enqueue device command blob timeout => exact hm.elim
  | requeue item => exact hm.elim
  | consume device => exact aside_spawn _ _
  | turn t => exact aside_give hk ht hm
  | pass ms => exact aside_pass hk ms
  | _ => exact hoperate rfl nofun nofun nofun

theorem aside_record (hk : Keeping c) (hids : ∀ i < c.drawn,
    c.supply.idOf i ≠ c.supply.idOf c.drawn) (device : String) (command : Command)
    (timeout : Nat) : Aside c (record c device command timeout) := by
  have hf := fresh_id hk hids
  refine ⟨stays_spawn c _, fun _ => over_spawn _, rfl, fun put handed ha => ?_⟩
  rw [engine_record hk]
  refine ⟨ha.record hf device command timeout c.now, fun other hd => ?_⟩
  refine hd.mono (fun item hitem => hitem) fun item hitem hdead => ?_
  obtain ⟨k, hknown⟩ := (Table.has_iff _ _).mp (ha.known item (ha.queued hitem))
  exact (Engine.isPending_record (Engine.ne_of_known hf hknown) ..).trans hdead

/-- Who gave up waits no more. -/
theorem quit_consumer (c : Cluster) (t : TaskId) (device : String) :
    (quit c t).tasks.get? t ≠ some (.consumer 0 device) := by
  unfold quit
  split
  · have hgone : (c.remove t).tasks.get? t = none := Table.get?_erase_self c.tasks t
    rw [hgone]
    exact (Option.some_ne_none _).symm
  · rename_i hother
    exact hother 0 device

theorem aside_quit (c : Cluster) (t : TaskId) : Aside c (quit c t) := by
  obtain he | ⟨-, -, -, he⟩ := quit_cases c t <;> rw [he]
  · exact Aside.refl c
  · exact aside_remove c t

end Aside

section Heedful
variable {m : Moment} {c' : Cluster} {move : Move} {t : TaskId} {device : String}

theorem Minded.stays {m' : Moment} (h : Minded m t device)
    (hready : t ∈ m.cluster.ready → t ∈ m'.cluster.ready)
    (hparked : (.queued 0 device, t) ∈ m.cluster.parked →
      (.queued 0 device, t) ∈ m'.cluster.parked)
    (hdry : Dry (m.cluster.engine 0) device →
      Dry (m'.cluster.engine 0) device ∨ device ∈ m'.owed)
    (howed : device ∈ m.owed → device ∈ m'.owed) (hlooking : t ∈ m.looking → t ∈ m'.looking) :
    Minded m' t device := by
  obtain hr | ⟨hp, hd | ho | hl⟩ := h
  · exact .inl (hready hr)
  · exact .inr ⟨hparked hp, (hdry hd).imp_right .inl⟩
  · exact .inr ⟨hparked hp, .inr (.inl (howed ho))⟩
  · exact .inr ⟨hparked hp, .inr (.inr (hlooking hl))⟩

theorem Heedful.aside (h : Heedful m) (ha : Aside m.cluster c') (looking : List TaskId)
    (hlooking : ∀ t ∈ m.looking, ∀ device, c'.tasks.get? t = some (.consumer 0 device) →
      t ∈ looking) : Heedful { m with cluster := c', looking := looking } := by
  obtain ⟨haccounted, hdry⟩ := ha.engine _ _ h.accounted
  refine ⟨fun t device ht => ?_, ?_, fun r hr => ?_⟩
  · obtain hready | ⟨hold, hready, hparked⟩ := ha.stays t device ht
    · exact .inl hready
    · exact (h.attentive t device hold).stays hready hparked (fun hd => .inl (hdry device hd)) id
        fun hl => hlooking t hl device ht
  · change Accounted (c'.engine 0) m.put (c'.results.filterMap _)
    rw [ha.results]
    exact haccounted
  · obtain ⟨hover, hone⟩ := h.served r (ha.results ▸ hr)
    refine ⟨ha.ended r.1 hover, ?_⟩
    change c'.results.filter _ = [r]
    rw [ha.results]
    exact hone

/-- Something goes on a queue, and those who wait for it are still to be woken. -/
theorem Heedful.insert (h : Heedful m) (hk : Keeping m.cluster) {e : Engine} {item : QueuedCommand}
    (haccounted : Accounted e (item :: m.put) (handedOut m.cluster))
    (hdry : ∀ device, device ≠ item.deviceId → Dry (m.cluster.engine 0) device → Dry e device) :
    Heedful { m with
      cluster := m.cluster.setEngine 0 e
      owed := item.deviceId :: m.owed
      put := item :: m.put } := by
  have hengine := hk.engine_setEngine e
  refine ⟨fun t device ht => ?_, ?_, h.served⟩
  · refine (h.attentive t device ht).stays id id (fun hd => ?_) (List.mem_cons_of_mem _) id
    by_cases hown : device = item.deviceId
    · exact .inr (hown ▸ List.mem_cons_self)
    · rw [hengine]
      exact .inl (hdry device hown hd)
  · change Accounted ((m.cluster.setEngine 0 e).engine 0) _ (handedOut m.cluster)
    rw [hengine]
    exact haccounted

/-- Whoever waits for a command of the device goes on. -/
theorem Heedful.notify (h : Heedful m) (device : String) : Heedful (m.next (.notify device)) := by
  have hready := mem_ready_notify m.cluster (.queued 0 device)
  have hengine := engine_notify m.cluster 0 (.queued 0 device)
  obtain ⟨woken, he⟩ := m.cluster.notify_eq (.queued 0 device)
  dsimp only [Moment.next]
  rw [he] at hready hengine ⊢
  refine ⟨fun t other ht => ?_, hengine.symm ▸ h.accounted, h.served⟩
  by_cases ho : other = device
  · subst ho
    obtain hr | ⟨hp, -⟩ := h.attentive t other ht
    · exact .inl ((hready t).mpr (.inl hr))
    · exact .inl ((hready t).mpr (.inr hp))
  · refine (h.attentive t other ht).stays (fun hr => (hready t).mpr (.inl hr)) (fun hp => ?_)
      (fun hd => .inl (hengine.symm ▸ hd)) (List.mem_erase_of_ne ho).mpr id
    exact List.mem_filter.mpr ⟨hp, by simpa using ho⟩

/-- A waiter sleeps once it has looked, and not before. -/
theorem Heedful.enable (h : Heedful m)
    (ht : m.cluster.tasks.get? t = some (.consumer 0 device)) :
    Heedful (m.next (.enable t device)) := by
  have hengine : ((take m.cluster t).park t (.queued 0 device)).engine 0 = m.cluster.engine 0 :=
    engine_park ..
  have hmem := mem_park (take m.cluster t) t (.queued 0 device)
  have hold (u : TaskId) (other : String) :=
    parked_park (take m.cluster t) t (.queued 0 device) (e := (.queued 0 other, u))
  obtain ⟨parked, he⟩ := (take m.cluster t).park_eq t (.queued 0 device)
  dsimp only [Moment.next]
  rw [he] at hengine hmem hold ⊢
  refine ⟨fun u other hu => ?_, hengine.symm ▸ h.accounted, h.served⟩
  by_cases hut : u = t
  · subst hut
    cases Option.some.inj (ht.symm.trans hu)
    exact .inr ⟨hmem, .inr (.inr List.mem_cons_self)⟩
  · exact (h.attentive u other hu).stays (List.mem_erase_of_ne hut).mpr (hold u other)
      (fun hd => .inl (hengine.symm ▸ hd)) id (List.mem_cons_of_mem t)

theorem returned_deliver (c : Cluster) (t u : TaskId) (r : TaskResult) :
    returned (c.deliver t r) u =
      if u = t then returned c u ++ [(t, r)] else returned c u := by
  simp only [returned, deliver, List.filter_append]
  by_cases hut : u = t
  · simp [hut]
  · simp [hut, Ne.symm hut]

/-- Who still waits was handed nothing. -/
theorem Heedful.returned_eq_nil (h : Heedful m) {task : Task}
    (ht : m.cluster.tasks.get? t = some task) : returned m.cluster t = [] := by
  refine List.filter_eq_nil_iff.mpr fun r hr he => ?_
  have hgone := (h.served r hr).1.1
  rw [of_decide_eq_true he, ht] at hgone
  cases hgone

theorem dry_pop (hk : Keeping m.cluster) (device : String) {other : String}
    (hd : Dry (m.cluster.engine 0) other) :
    Dry ((operate m.cluster (.pop device)).engine 0) other := by
  have hn : (Engine.Op.pop device).submits? = none := rfl
  rw [engine_operate hk]
  exact hd.apply hk.sound hn nofun

/-- Who finds nothing sleeps beside an empty queue, unless someone has woken it already. -/
theorem Heedful.finds_nothing (h : Heedful m) (hk : Keeping m.cluster)
    (ht : m.cluster.tasks.get? t = some (.consumer 0 device))
    (hpop : ((m.cluster.engine 0).popLive device).2 = none) :
    Heedful { m with
      cluster := operate m.cluster (.pop device), looking := m.looking.erase t } := by
  have hengine := engine_operate hk (.pop device)
  refine ⟨fun u other hu => ?_, ?_, h.served⟩
  · by_cases hut : u = t
    · subst hut
      cases Option.some.inj (ht.symm.trans hu)
      obtain hr | ⟨hp, -⟩ := h.attentive u device ht
      · exact .inl hr
      · refine .inr ⟨hp, .inl ?_⟩
        change Dry ((operate m.cluster (.pop device)).engine 0) device
        rw [hengine]
        exact Engine.dry_popLive hpop
    · exact (h.attentive u other hu).stays id id (fun hd => .inl (dry_pop hk device hd)) id
        (List.mem_erase_of_ne hut).mpr
  · have haccounted := h.accounted.popLive device
    change Accounted ((operate m.cluster (.pop device)).engine 0) _ (handedOut m.cluster)
    rw [hpop, Option.toList_none, List.append_nil] at haccounted
    rw [hengine]
    exact haccounted

/-- Who finds a command is handed that one, and is over. -/
theorem Heedful.finds (h : Heedful m) (hk : Keeping m.cluster) (hty : Tidy m.cluster)
    (ht : m.cluster.tasks.get? t = some (.consumer 0 device)) {item : QueuedCommand}
    (hpop : ((m.cluster.engine 0).popLive device).2 = some item) :
    Heedful { m with
      cluster := ((operate m.cluster (.pop device)).deliver t (.item item)).remove t
      looking := m.looking.erase t } := by
  have hengine := engine_operate hk (.pop device)
  have hremoved := aside_remove ((operate m.cluster (.pop device)).deliver t (.item item)) t
  have hover : Over (((operate m.cluster (.pop device)).deliver t (.item item)).remove t) t :=
    ⟨Table.get?_erase_self _ _, hty.tasks t _ ht⟩
  refine ⟨fun u other hu => ?_, ?_, fun r hr => ?_⟩
  · obtain hr | ⟨hold, hready, hparked⟩ := hremoved.stays u other hu
    · exact .inl hr
    · have hut : u ≠ t := by
        rintro rfl
        cases hover.1.symm.trans hu
      exact (h.attentive u other hold).stays hready hparked
        (fun hd => .inl (dry_pop hk device hd)) id (List.mem_erase_of_ne hut).mpr
  · have haccounted := h.accounted.popLive device
    change Accounted ((operate m.cluster (.pop device)).engine 0) _
      ((m.cluster.results ++ [(t, TaskResult.item item)]).filterMap _)
    rw [hengine, List.filterMap_append]
    rw [hpop] at haccounted
    exact haccounted
  · have hone := returned_deliver (operate m.cluster (.pop device)) t r.1 (.item item)
    change Over _ r.1 ∧ returned ((operate m.cluster (.pop device)).deliver t (.item item)) r.1 = _
    rw [hone]
    rcases List.mem_append.mp hr with hr | hr
    · obtain ⟨hgone, hreturned⟩ := h.served r hr
      have hne : r.1 ≠ t := by
        intro he
        rw [he] at hgone
        cases hgone.1.symm.trans ht
      rw [if_neg hne]
      exact ⟨hremoved.ended r.1 hgone, hreturned⟩
    · obtain rfl := List.mem_singleton.mp hr
      have hnone : returned (operate m.cluster (.pop device)) t = [] := h.returned_eq_nil ht
      rw [if_pos rfl, hnone]
      exact ⟨hover, rfl⟩

theorem Heedful.look (h : Heedful m) (hk : Keeping m.cluster) (hty : Tidy m.cluster)
    (ht : m.cluster.tasks.get? t = some (.consumer 0 device)) :
    Heedful (m.next (.look t device)) := by
  dsimp only [Moment.next]
  rw [look_eq]
  cases hpop : ((m.cluster.engine 0).popLive device).2 with
  | none => exact h.finds_nothing hk ht hpop
  | some item =>
    have hdelivered : Tidy ((operate m.cluster (.pop device)).deliver t (.item item)) :=
      (hty.operate (.pop device)).deliver (hty.tasks t _ ht) (.item item)
    dsimp only
    rw [hdelivered.finish t]
    exact h.finds hk hty ht hpop

theorem heedful_next (h : Heedful m) (hk : Keeping m.cluster) (ht : Tidy m.cluster)
    (hm : m.Allows move) (hids : Apart m.cluster.supply (m.cluster.drawn + draws [move])) :
    Heedful (m.next move) := by
  cases move with
  | act a => exact h.aside (aside_act hk ht hm) m.looking fun _ hl _ _ => hl
  | record device command timeout =>
    have hrecorded := aside_record hk (fun i hi => hids i m.cluster.drawn hi (Nat.lt_succ_self _))
      device command timeout
    exact h.aside hrecorded m.looking fun _ hl _ _ => hl
  | append item =>
    refine h.insert hk (h.accounted.append hm) fun device hd hdry => ?_
    exact hdry.mono (fun x hx => (Engine.queue_put ..).trans (if_neg hd) ▸ hx) fun _ _ => id
  | prepend item =>
    refine h.insert hk (h.accounted.prepend hm) fun device hd hdry => ?_
    exact hdry.mono (fun x hx => (Engine.queue_put ..).trans (if_neg hd) ▸ hx) fun _ _ => id
  | notify device => exact h.notify device
  | enable t device => exact h.enable hm.1
  | look t device => exact h.look hk ht hm.1
  | expire id =>
    have hexpired : Aside m.cluster (operate m.cluster (.expire id)) :=
      aside_operate hk rfl nofun nofun
    rw [← expire_eq ht] at hexpired
    exact h.aside hexpired m.looking fun _ hl _ _ => hl
  | quit t =>
    refine h.aside (aside_quit m.cluster t) _ fun u hl device hu => ?_
    refine (List.mem_erase_of_ne ?_).mpr hl
    rintro rfl
    exact quit_consumer m.cluster u device hu

/-- Nothing comes of a task that is over. -/
theorem over_next (hk : Keeping m.cluster) (ht : Tidy m.cluster) (hm : m.Allows move)
    (hids : Apart m.cluster.supply (m.cluster.drawn + draws [move])) (hover : Over m.cluster t) :
    Over (m.next move).cluster t ∧ returned (m.next move).cluster t = returned m.cluster t := by
  have haside {c' : Cluster} (ha : Aside m.cluster c') :
      Over c' t ∧ returned c' t = returned m.cluster t :=
    ⟨ha.ended t hover, by rw [returned, ha.results]; rfl⟩
  cases move with
  | act a => exact haside (aside_act hk ht hm)
  | record device command timeout =>
    exact haside (aside_record hk (fun i hi => hids i m.cluster.drawn hi (Nat.lt_succ_self _)) ..)
  | append item => exact ⟨hover, rfl⟩
  | prepend item => exact ⟨hover, rfl⟩
  | notify device =>
    obtain ⟨woken, he⟩ := m.cluster.notify_eq (.queued 0 device)
    dsimp only [Moment.next]
    rw [he]
    exact ⟨hover, rfl⟩
  | enable u device =>
    obtain ⟨parked, he⟩ := (take m.cluster u).park_eq u (.queued 0 device)
    dsimp only [Moment.next]
    rw [he]
    exact ⟨hover, rfl⟩
  | look u device =>
    have hne : t ≠ u := by
      rintro rfl
      have htask := hm.1
      rw [hover.1] at htask
      cases htask
    dsimp only [Moment.next]
    rw [look_eq]
    split
    · rename_i item _
      have hdelivered : Tidy ((operate m.cluster (.pop device)).deliver u (.item item)) :=
        (ht.operate (.pop device)).deliver (ht.tasks u _ hm.1) (.item item)
      rw [hdelivered.finish u]
      refine ⟨(aside_remove _ u).ended t hover, ?_⟩
      exact (returned_deliver (operate m.cluster (.pop device)) u t (.item item)).trans
        (if_neg hne)
    · exact ⟨hover, rfl⟩
  | expire id =>
    have hexpired : Aside m.cluster (operate m.cluster (.expire id)) :=
      aside_operate hk rfl nofun nofun
    rw [← expire_eq ht] at hexpired
    exact haside hexpired
  | quit u => exact haside (aside_quit m.cluster u)

/-- What holds before a run holds after it. -/
theorem heedful_run {moves : List Move} (h : Heedful m) (hk : Keeping m.cluster)
    (ht : Tidy m.cluster) (hm : m.Proper moves)
    (hids : Apart m.cluster.supply (m.cluster.drawn + draws moves)) :
    Heedful (m.run moves) ∧ Keeping (m.run moves).cluster ∧ Tidy (m.run moves).cluster ∧
      (m.run moves).cluster.supply = m.cluster.supply ∧
      (m.run moves).cluster.drawn = m.cluster.drawn + draws moves := by
  induction moves generalizing m with
  | nil => exact ⟨h, hk, ht, rfl, rfl⟩
  | cons move moves ih =>
    obtain ⟨hfirst, hrest⟩ := next_first hk ht hm.1 hids
    obtain ⟨hsupply, hdrawn⟩ := next_same hk ht hm.1
    obtain ⟨hh, hk', ht', hs, hd⟩ := ih (heedful_next h hk ht hm.1 hfirst)
      (keeping_next hk ht hm.1 hfirst) (tidy_next hk ht hm.1) hm.2 hrest
    refine ⟨hh, hk', ht', hs.trans hsupply, hd.trans ?_⟩
    rw [hdrawn, draws_cons move moves, Nat.add_assoc]

theorem over_run {moves : List Move} (hk : Keeping m.cluster) (ht : Tidy m.cluster)
    (hm : m.Proper moves) (hids : Apart m.cluster.supply (m.cluster.drawn + draws moves))
    (hover : Over m.cluster t) : returned (m.run moves).cluster t = returned m.cluster t := by
  induction moves generalizing m with
  | nil => rfl
  | cons move moves ih =>
    obtain ⟨hfirst, hrest⟩ := next_first hk ht hm.1 hids
    obtain ⟨hover', hsame⟩ := over_next hk ht hm.1 hfirst hover
    exact (ih (keeping_next hk ht hm.1 hfirst) (tidy_next hk ht hm.1) hm.2 hrest hover').trans hsame

end Heedful

/-- No waiter misses a command, and none loses one when it gives up. However the steps of any
number of waiters, submissions, puttings back and decisions are mixed: a waiter that cannot go on,
does not look at its queue and is not about to be woken is registered to be, and its queue holds no
pending command; every copy that was put on a queue was handed out at most once, and that of a
pending command was or is still queued; a waiter that came back has one command and is gone; and
when one gives up, the engine and the other tasks stay as they are, and nothing is ever handed to
it. -/
theorem waiters_served (supply : Supply) (settings : ServerSettings) (before : List Move)
    (hids : Apart supply (draws before)) (hp : (Moment.start supply settings).Proper before) :
    let m := (Moment.start supply settings).run before
    let c := m.cluster
    (∀ t device, c.tasks.get? t = some (.consumer 0 device) → t ∉ c.ready → t ∉ m.looking →
      device ∉ m.owed → (.queued 0 device, t) ∈ c.parked ∧
        ∀ item ∈ (c.engine 0).queue device, (c.engine 0).isPending item.id = false) ∧
    Accounted (c.engine 0) m.put (handedOut c) ∧
    (∀ r ∈ c.results, c.tasks.get? r.1 = none ∧ returned c r.1 = [r]) ∧
    ∀ t device, c.tasks.get? t = some (.consumer 0 device) →
      (quit c t).engine 0 = c.engine 0 ∧ handedOut (quit c t) = handedOut c ∧
      (∀ u, u ≠ t → ∀ other, standing other (quit c t) u = standing other c u) ∧
      ∀ after, m.Proper (.quit t :: after) → Apart supply (draws (before ++ .quit t :: after)) →
        returned (m.run (.quit t :: after)).cluster t = [] := by
  intro m c
  obtain ⟨hheedful, hk, ht, hsupply, hdrawn⟩ := heedful_run (heedful_start supply settings)
    (keeping_start supply settings) (tidy_start supply settings) hp
    (show Apart supply (0 + draws before) from (Nat.zero_add _).symm ▸ hids)
  refine ⟨fun t device htask hready hlooking howed => ?_, hheedful.accounted,
    fun r hr => ⟨(hheedful.served r hr).1.1, (hheedful.served r hr).2⟩, fun t device htask => ?_⟩
  · obtain hr | ⟨hparked, hdry | ho | hl⟩ := hheedful.attentive t device htask
    · exact absurd hr hready
    · exact ⟨hparked, hdry⟩
    · exact absurd ho howed
    · exact absurd hl hlooking
  · have hquit : quit c t = c.remove t := by
      unfold quit
      rw [htask]
    refine ⟨by rw [hquit]; rfl, by rw [hquit]; rfl, fun u hu other => ?_, fun after hproper hall => ?_⟩
    · rw [hquit]
      exact (moves_remove other c t).other hu
    · have hover : Over (m.next (.quit t)).cluster t := by
        change Over (quit c t) t
        rw [hquit]
        exact ⟨Table.get?_erase_self _ _, ht.tasks t _ htask⟩
      have hapart : Apart m.cluster.supply (m.cluster.drawn + draws (.quit t :: after)) := by
        rw [draws_append] at hall
        rw [hsupply, hdrawn]
        exact (Nat.zero_add (draws before)).symm ▸ hall
      obtain ⟨hfirst, hrest⟩ := next_first hk ht hproper.1 hapart
      have hsilent := over_run (keeping_next hk ht hproper.1 hfirst) (tidy_next hk ht hproper.1)
        hproper.2 hrest hover
      refine hsilent.trans ?_
      change returned (quit c t) t = []
      rw [hquit]
      exact hheedful.returned_eq_nil htask

/-- The second of two waiters looks before anyone is woken, the command comes back and ends with
its time limit, and the first wakes for nothing. -/
def relay : List Move :=
  let item : QueuedCommand := ⟨⟨0⟩, "frame-1", .shell "uptime", none⟩
  [.act (.consume "frame-1"), .act (.consume "frame-1"), .enable 0 "frame-1", .look 0 "frame-1",
    .enable 1 "frame-1", .record "frame-1" (.shell "uptime") 5000, .append item,
    .look 1 "frame-1", .notify "frame-1", .act (.unmark ⟨0⟩), .prepend item, .expire ⟨0⟩,
    .notify "frame-1", .enable 0 "frame-1", .look 0 "frame-1"]

theorem apart_relay : Apart counting (draws relay) := by
  intro i j hij hj
  have hj : j < 1 := hj
  omega

theorem proper_relay : (Moment.start counting (.ofConfig {})).Proper relay :=
  ⟨trivial, trivial, ⟨rfl, by decide, by decide⟩, ⟨rfl, by decide⟩, ⟨rfl, by decide, by decide⟩,
    trivial, rfl, ⟨rfl, by decide⟩, trivial, trivial, rfl, trivial, trivial,
    ⟨rfl, by decide, by decide⟩, ⟨rfl, by decide⟩, trivial⟩

theorem waiters_served_relay : Apart counting (draws relay) ∧
    (Moment.start counting (.ofConfig {})).Proper relay ∧
    let m := (Moment.start counting (.ofConfig {})).run relay
    m.cluster.tasks.get? 0 = some (.consumer 0 "frame-1") ∧
    (.queued 0 "frame-1", 0) ∈ m.cluster.parked ∧
    returned m.cluster 1 = [(1, .item ⟨⟨0⟩, "frame-1", .shell "uptime", none⟩)] ∧
    (quit m.cluster 0).engine 0 = m.cluster.engine 0 ∧
    returned (m.run [.quit 0]).cluster 0 = [] := by
  obtain ⟨hawake, -, hserved, hquit⟩ := waiters_served counting (.ofConfig {}) relay apart_relay
    proper_relay
  have hparked := (hawake 0 "frame-1" rfl (by decide) (by decide) (by decide)).1
  obtain ⟨hengine, -, -, hsilent⟩ := hquit 0 "frame-1" rfl
  exact ⟨apart_relay, proper_relay, rfl, hparked,
    (hserved (1, .item ⟨⟨0⟩, "frame-1", .shell "uptime", none⟩) (List.mem_singleton_self _)).2,
    hengine, hsilent [] ⟨trivial, trivial⟩ apart_relay⟩

end FleetControl.Cluster.Lifetime
