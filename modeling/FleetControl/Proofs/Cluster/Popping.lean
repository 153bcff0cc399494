import FleetControl.Proofs.Cluster.Attempts
import FleetControl.Proofs.Store.Lasting
import Mathlib.Data.List.Nodup

/-! # Lists as channels

Tasks wait for the head of a list up to some instant each, and are cancelled, while texts are pushed
and other keys come and go, and the steps of all of them mix. Who waits is told of every push, looks
again, and waits again; it looks once more at its instant. Everything pushed to a key that is used
as a list only is popped once and in order, or is still there. -/
namespace FleetControl.Cluster.Popping
open Lapsing (act)

/-- The key that is written over, made to lapse or taken away. -/
def spoils? : Move → Option String
  | .act (.setEx key _ _) | .act (.expire key _) | .act (.del key) => some key
  | _ => none

/-- The wait that a move begins. -/
def wait? (m : Moment) : Move → Option Wait
  | .act (.blpop key timeout) =>
    some ⟨(m.cluster.pop key timeout).2, key, m.cluster.now + timeout⟩
  | _ => none

def push? (key : String) : Move → Option String
  | .act (.rpush k value) | .append k value => if k = key then some value else none
  | _ => none

def cancel? : Move → Option TaskId
  | .act (.cancel t) => some t
  | _ => none

/-- The waits that begin in a run. -/
def waits (m : Moment) : List Move → List Wait
  | [] => []
  | move :: moves => (wait? m move).toList ++ waits (m.next move) moves

/-- What a result is worth to those who wait for a key. -/
def returned? (key : String) (ws : List Wait) : TaskId × TaskResult → Option String
  | (t, .popped (.ok (some value))) =>
    if ∃ w ∈ ws, w.task = t ∧ w.key = key then some value else none
  | _ => none

/-- What the waits for a key have returned, in order. -/
def popped (key : String) (ws : List Wait) (results : List (TaskId × TaskResult)) : List String :=
  results.filterMap (returned? key ws)

/-! ## What holds at every time -/

/-- A task that waits for the head of a list will look at it: at once, or when something is pushed
or its instant comes, whichever is first. If it has looked, there was nothing, and what came since
it will be told of. -/
structure Waiting (key : String) (m : Moment) (w : Wait) : Prop where
  task : Waits m.cluster w
  early : m.cluster.now ≤ w.deadline
  attentive : w.task ∈ m.cluster.ready ∨ (.pushed, w.task) ∈ m.cluster.parked ∧
    (w.task ∈ m.looking ∨ (w.deadline, w.task) ∈ m.cluster.timers ∧
      (w.key = key → m.cluster.store.store.Holds key [] ∨ 0 < m.owed))

/-- The waits that have begun, the tasks that were cancelled and the texts that were pushed to a key
account for all that is there. -/
structure Channel (key : String) (ws : List Wait) (cs : List TaskId) (vs : List String)
    (m : Moment) : Prop where
  up : m.cluster.store.down = []
  holds : ∃ values, m.cluster.store.store.Holds key values ∧
    popped key ws m.cluster.results ++ values = vs
  ahead : ∀ e ∈ m.cluster.timers, m.cluster.now < e.1
  distinct : (ws.map (·.task)).Nodup
  born : ∀ w ∈ ws, w.task < m.cluster.nextTask
  tasks : ∀ t task, m.cluster.tasks.get? t = some task → ∃ w ∈ ws, w.task = t
  fates : ∀ w ∈ ws, Waiting key m w ∨
    m.cluster.tasks.get? w.task = none ∧ (w.task ∈ cs ∨ w.task ∈ m.cluster.results.map (·.1))
  results : ∀ e ∈ m.cluster.results, ∃ w ∈ ws, w.task = e.1 ∧ m.cluster.tasks.get? e.1 = none ∧
    (w.key = key → ∃ value, e.2 = .popped (.ok value))
  once : (m.cluster.results.map (·.1)).Nodup

section Channel
variable {key : String} {ws : List Wait} {cs cs' : List TaskId} {vs vs' : List String}
  {m : Moment} {c' : Cluster} {looking : List TaskId} {t : TaskId} {w : Wait}

theorem Channel.serves (h : Channel key ws cs vs m) (op : StoreOp) :
    m.cluster.store.refusal? op = none := SharedStore.refusal_eq_none h.up op

/-- A task begins to wait once. -/
theorem Channel.unique (h : Channel key ws cs vs m) {w w' : Wait} (hw : w ∈ ws) (hw' : w' ∈ ws)
    (heq : w.task = w'.task) : w = w' := List.inj_on_of_nodup_map h.distinct hw hw' heq

/-- A task that is there is one of those who wait. -/
theorem Channel.waiting (h : Channel key ws cs vs m) {task : Task}
    (ht : m.cluster.tasks.get? t = some task) :
    ∃ w ∈ ws, w.task = t ∧ task = .popper w.key w.deadline ∧ Waiting key m w := by
  obtain ⟨w, hw, rfl⟩ := h.tasks t task ht
  rcases h.fates w hw with hwaiting | ⟨hnone, -⟩
  · exact ⟨w, hw, rfl, Option.some_inj.mp (ht.symm.trans hwaiting.task), hwaiting⟩
  · rw [hnone] at ht
    cases ht

theorem Channel.mem (h : Channel key ws cs vs m) (hw : Waits m.cluster w) :
    w ∈ ws ∧ Waiting key m w := by
  obtain ⟨w', hw', heq, htask, hwaiting⟩ := h.waiting hw
  obtain ⟨hkey, hdeadline⟩ := Task.popper.inj htask
  obtain ⟨task, key', deadline⟩ := w
  obtain ⟨task', key'', deadline'⟩ := w'
  dsimp only at heq hkey hdeadline
  subst heq hkey hdeadline
  exact ⟨hw', hwaiting⟩

theorem Waiting.other (h : Waiting key m w) (hu : Undisturbed t m.cluster c')
    (hne : w.task ≠ t) (hlooking : w.task ∈ m.looking → w.task ∈ looking)
    (hempty : m.cluster.store.store.Holds key [] → c'.store.store.Holds key []) :
    Waiting key { m with cluster := c', looking := looking } w where
  task := (hu.tasks _ hne).trans h.task
  early := hu.now ▸ h.early
  attentive := by
    refine h.attentive.imp (hu.ready _ hne) fun ⟨hparked, hrest⟩ => ⟨hu.parked _ hne hparked, ?_⟩
    refine hrest.imp hlooking fun ⟨htimer, hlist⟩ => ⟨?_, fun hkey => (hlist hkey).imp_left hempty⟩
    exact (hu.timers (w.deadline, w.task) hne).mpr htimer

/-- The store changes, and nothing else but that there may be someone to be woken. -/
theorem Channel.store (h : Channel key ws cs vs m) {s : SharedStore} {owed : Nat}
    (hup : s.down = [])
    (hholds : ∃ values, s.store.Holds key values ∧ popped key ws m.cluster.results ++ values = vs')
    (hlist : m.cluster.store.store.Holds key [] ∨ 0 < m.owed → s.store.Holds key [] ∨ 0 < owed) :
    Channel key ws cs vs'
      { m with cluster := { m.cluster with store := s }, owed := owed } := by
  refine ⟨hup, hholds, h.ahead, h.distinct, h.born, h.tasks,
    fun w hw => (h.fates w hw).imp_left fun hwaiting => ?_, h.results, h.once⟩
  refine ⟨hwaiting.task, hwaiting.early, hwaiting.attentive.imp_right ?_⟩
  rintro ⟨hparked, hrest⟩
  exact ⟨hparked, hrest.imp_right fun ⟨htimer, hold⟩ => ⟨htimer, fun hkey => hlist (hold hkey)⟩⟩

/-- The store changes elsewhere. -/
theorem Channel.elsewhere (h : Channel key ws cs vs m) {s : SharedStore} {owed : Nat}
    (hup : s.down = []) (howed : m.owed ≤ owed)
    (hs : ∀ values, m.cluster.store.store.Holds key values → s.store.Holds key values) :
    Channel key ws cs vs
      { m with cluster := { m.cluster with store := s }, owed := owed } := by
  obtain ⟨values, hholds, hfifo⟩ := h.holds
  exact h.store hup ⟨values, hs values hholds, hfifo⟩
    (Or.imp (hs []) fun hpos => Nat.lt_of_lt_of_le hpos howed)

/-- A task is gone, after it has returned or because it was cancelled. -/
theorem Channel.gone (h : Channel key ws cs vs m) (hg : Gone t m.cluster c')
    (hlooking : ∀ u, u ≠ t → u ∈ m.looking → u ∈ looking) (hup : c'.store.down = [])
    (hholds : ∃ values, c'.store.store.Holds key values ∧
      popped key ws c'.results ++ values = vs)
    (hempty : m.cluster.store.store.Holds key [] → c'.store.store.Holds key [])
    (hcancelled : ∀ u ∈ cs, u ∈ cs') (hkept : ∀ e ∈ m.cluster.results, e ∈ c'.results)
    (hresults : ∀ e ∈ c'.results, e ∈ m.cluster.results ∨ e.1 = t ∧ ∃ w ∈ ws, w.task = t ∧
      (w.key = key → ∃ value, e.2 = .popped (.ok value)))
    (honce : (c'.results.map (·.1)).Nodup)
    (hfate : ∀ w ∈ ws, w.task = t → Waiting key m w → t ∈ cs' ∨ t ∈ c'.results.map (·.1)) :
    Channel key ws cs' vs { m with cluster := c', looking := looking } where
  up := hup
  holds := hholds
  ahead e he := by
    refine lt_of_eq_of_lt hg.now ?_
    exact h.ahead e ((hg.timers e (hg.timer e he)).mp he)
  distinct := h.distinct
  born w hw := Nat.lt_of_lt_of_eq (h.born w hw) hg.born.symm
  tasks u task hu := by
    by_cases hut : u = t
    · have hgone := hg.task
      rw [← hut] at hgone
      cases hu.symm.trans hgone
    · exact h.tasks u task ((hg.tasks u hut).symm.trans hu)
  fates w hw := by
    by_cases hwt : w.task = t
    · refine .inr ⟨hwt ▸ hg.task, ?_⟩
      rw [hwt]
      rcases h.fates w hw with hwaiting | ⟨-, hover | hover⟩
      · exact hfate w hw hwt hwaiting
      · exact .inl (hcancelled t (hwt ▸ hover))
      · exact .inr (List.map_subset _ hkept (hwt ▸ hover))
    · refine (h.fates w hw).imp (fun hwaiting => ?_) ?_
      · exact hwaiting.other hg.toUndisturbed hwt (hlooking _ hwt) hempty
      · rintro ⟨hnone, hover⟩
        exact ⟨(hg.tasks _ hwt).trans hnone,
          hover.imp (hcancelled _) fun hmem => List.map_subset _ hkept hmem⟩
  results e he := by
    rcases hresults e he with hold | ⟨ht, w, hw, hwt, hvalue⟩
    · obtain ⟨w, hw, hwe, hnone, hvalue⟩ := h.results e hold
      refine ⟨w, hw, hwe, ?_, hvalue⟩
      by_cases het : e.1 = t
      · exact het ▸ hg.task
      · exact (hg.tasks _ het).trans hnone
    · exact ⟨w, hw, hwt.trans ht.symm, ht ▸ hg.task, hvalue⟩
  once := honce

/-- A task is gone without a result. -/
theorem Channel.dropped (h : Channel key ws cs vs m) (hg : Gone t m.cluster c')
    (hlooking : ∀ u, u ≠ t → u ∈ m.looking → u ∈ looking) (hstore : c'.store = m.cluster.store)
    (hresults : c'.results = m.cluster.results) (hcancelled : ∀ u ∈ cs, u ∈ cs')
    (hfate : (∃ task, m.cluster.tasks.get? t = some task) → t ∈ cs') :
    Channel key ws cs' vs { m with cluster := c', looking := looking } := by
  refine h.gone hg hlooking (hstore ▸ h.up) ?_ ?_ hcancelled ?_ ?_ ?_ ?_
  · rw [hstore, hresults]
    exact h.holds
  · rw [hstore]
    exact id
  · rw [hresults]
    exact fun _ => id
  · rw [hresults]
    exact fun _ => .inl
  · rw [hresults]
    exact h.once
  · intro w hw hwt hwaiting
    exact .inl (hfate ⟨_, (congrArg m.cluster.tasks.get? hwt.symm).trans hwaiting.task⟩)

/-- A task goes on waiting. -/
theorem Channel.still (h : Channel key ws cs vs m) (hw : w ∈ ws)
    (hu : Undisturbed w.task m.cluster c')
    (hlooking : ∀ u, u ≠ w.task → u ∈ m.looking → u ∈ looking) (hup : c'.store.down = [])
    (hholds : ∀ values, m.cluster.store.store.Holds key values → c'.store.store.Holds key values)
    (hresults : c'.results = m.cluster.results) (htasks : c'.tasks = m.cluster.tasks)
    (hahead : ∀ e ∈ c'.timers, e.2 = w.task → c'.now < e.1)
    (hwaiting : Waiting key { m with cluster := c', looking := looking } w) :
    Channel key ws cs vs { m with cluster := c', looking := looking } := by
  obtain ⟨values, hold, hfifo⟩ := h.holds
  refine ⟨hup, ⟨values, hholds values hold, ?_⟩, fun e he => ?_, h.distinct, fun u hu' => ?_,
    fun t task ht => ?_, fun u hu' => ?_, fun e he => ?_, ?_⟩
  · rw [hresults]
    exact hfifo
  · by_cases het : e.2 = w.task
    · exact hahead e he het
    · exact lt_of_eq_of_lt hu.now (h.ahead e ((hu.timers e het).mp he))
  · exact Nat.lt_of_lt_of_eq (h.born u hu') hu.born.symm
  · exact h.tasks t task (htasks ▸ ht)
  · by_cases heq : u.task = w.task
    · exact .inl (h.unique hu' hw heq ▸ hwaiting)
    · rw [hresults, htasks]
      exact (h.fates u hu').imp_left fun hother =>
        hother.other hu heq (hlooking _ heq) (hholds [])
  · rw [hresults] at he
    rw [htasks]
    exact h.results e he
  · rw [hresults]
    exact h.once

/-- Whoever waits is woken. -/
theorem Channel.notify (h : Channel key ws cs vs m) (owed : Nat) :
    Channel key ws cs vs { m with cluster := m.cluster.notify .pushed, owed := owed } := by
  have hready := mem_ready_notify m.cluster .pushed
  obtain ⟨woken, he⟩ := notify_eq m.cluster .pushed
  rw [he] at hready ⊢
  refine ⟨h.up, h.holds, h.ahead, h.distinct, h.born, h.tasks,
    fun w hw => (h.fates w hw).imp_left fun hwaiting => ?_, h.results, h.once⟩
  refine ⟨hwaiting.task, hwaiting.early, .inl ((hready w.task).mpr ?_)⟩
  exact hwaiting.attentive.imp_right And.left

end Channel
/-! ## What has been returned -/

section Popped
variable {key : String} {ws ws' : List Wait} {w : Wait} {results : List (TaskId × TaskResult)}

theorem returned_congr {e : TaskId × TaskResult}
    (h : (∃ w ∈ ws, w.task = e.1 ∧ w.key = key) ↔ ∃ w ∈ ws', w.task = e.1 ∧ w.key = key) :
    returned? key ws e = returned? key ws' e := by
  obtain ⟨t, r⟩ := e
  dsimp only at h
  unfold returned?
  split
  · rename_i heq
    cases heq
    simp only [h]
  · rfl

theorem returned_eq_none {t : TaskId} (h : ∀ w ∈ ws, w.task = t → w.key ≠ key)
    (r : TaskResult) : returned? key ws (t, r) = none := by
  have hnobody : ¬∃ w ∈ ws, w.task = t ∧ w.key = key :=
    fun ⟨w, hw, ht, hkey⟩ => h w hw ht hkey
  unfold returned?
  split
  · rename_i heq
    cases heq
    exact if_neg hnobody
  · rfl

theorem popped_concat (hw : w ∈ ws) (hkey : w.key = key) (result : Option String) :
    popped key ws (results ++ [(w.task, .popped (.ok result))]) =
      popped key ws results ++ result.toList := by
  have hmine : ∃ w' ∈ ws, w'.task = w.task ∧ w'.key = key := ⟨w, hw, rfl, hkey⟩
  rw [popped, List.filterMap_append]
  refine congrArg (_ ++ ·) ?_
  cases result with
  | none => rfl
  | some value => simp [returned?, hmine]

theorem popped_concat_other {t : TaskId} (h : ∀ w ∈ ws, w.task = t → w.key ≠ key)
    (r : TaskResult) : popped key ws (results ++ [(t, r)]) = popped key ws results := by
  rw [popped, List.filterMap_append, List.filterMap_cons_none (returned_eq_none h r)]
  exact List.append_nil _

/-- Who begins to wait has returned nothing. -/
theorem popped_begin (h : ∀ e ∈ results, e.1 ≠ w.task) :
    popped key (ws ++ [w]) results = popped key ws results := by
  refine List.filterMap_congr fun e he => returned_congr ⟨?_, ?_⟩
  · rintro ⟨w', hw', ht, hkey⟩
    rcases List.mem_append.mp hw' with hw' | hw'
    · exact ⟨w', hw', ht, hkey⟩
    · obtain rfl := List.mem_singleton.mp hw'
      exact absurd ht.symm (h e he)
  · rintro ⟨w', hw', hrest⟩
    exact ⟨w', List.mem_append_left _ hw', hrest⟩

end Popped

/-! ## Steps and runs -/

section Steps
variable {key : String} {ws : List Wait} {cs : List TaskId} {vs : List String} {m : Moment}
  {w : Wait}

/-- What is done at another key leaves the list alone. -/
theorem holds_of_touches {k : String} {s s' : SharedStore} (h : SharedStore.Touches k s s')
    (hk : k ≠ key) {values : List String} (hholds : s.store.Holds key values) :
    s'.store.Holds key values := hholds.congr (h.slots key (Ne.symm hk))

/-- A task looks at its list. -/
theorem holds_tryPop (k : String) {s : SharedStore} {values : List String} (now : Nat)
    (h : s.store.Holds key values) :
    (k = key → (s.tryPop k now).2 = .ok values.head? ∧
      (s.tryPop k now).1.store.Holds key values.tail) ∧
    (k ≠ key → (s.tryPop k now).1.store.Holds key values) :=
  ⟨fun hk => hk ▸ h.tryPop now, fun hk => holds_of_touches (s.touches_tryPop k now) hk h⟩

theorem empty_tryPop (k : String) {s : SharedStore} (now : Nat) (h : s.store.Holds key []) :
    (s.tryPop k now).1.store.Holds key [] := by
  obtain ⟨hsame, hother⟩ := holds_tryPop k now h
  by_cases hk : k = key
  · exact (hsame hk).2
  · exact hother hk

/-- Who finds nothing leaves everything. -/
theorem holds_nothing {k : String} {s : SharedStore} {values : List String} {now : Nat}
    (h : s.store.Holds key values) (hnone : (s.tryPop k now).2 = .ok none) :
    (s.tryPop k now).1.store.Holds key values ∧ (k = key → values = []) := by
  obtain ⟨hsame, hother⟩ := holds_tryPop k now h
  have hempty : k = key → values = [] := by
    intro hk
    have hhead := (hsame hk).1.symm.trans hnone
    exact List.head?_eq_none_iff.mp (Except.ok.inj hhead)
  refine ⟨?_, hempty⟩
  by_cases hk : k = key
  · have hafter := (hsame hk).2
    rw [hempty hk] at hafter ⊢
    exact hafter
  · exact hother hk

/-- A task asks to be woken. -/
theorem Channel.enable (h : Channel key ws cs vs m) (hw : Waits m.cluster w) :
    Channel key ws cs vs (m.next (.enable w)) := by
  obtain ⟨hmem, hwaiting⟩ := h.mem hw
  have hu := undisturbed_ask m.cluster w.task
  have hparked : (.pushed, w.task) ∈ (ask m.cluster w.task).parked :=
    mem_park (taken m.cluster w.task) w.task .pushed
  have hstore := store_ask m.cluster w.task
  refine h.still hmem hu (fun _ _ => List.mem_cons_of_mem _) (hstore ▸ h.up) (fun _ hh => ?_)
    (results_ask m.cluster w.task) (tasks_ask m.cluster w.task) (fun e he _ => ?_) ⟨hw.ask, ?_, ?_⟩
  · rw [hstore]
    exact hh
  · rw [now_ask]
    exact h.ahead e (timers_ask m.cluster w.task ▸ he)
  · exact Nat.le_trans (Nat.le_of_eq hu.now) hwaiting.early
  · exact .inr ⟨hparked, .inl List.mem_cons_self⟩

/-- A task returns what it finds. -/
theorem Channel.back (h : Channel key ws cs vs m) (hw : Waits m.cluster w)
    {looking : List TaskId} (hlooking : ∀ u, u ≠ w.task → u ∈ m.looking → u ∈ looking) :
    Channel key ws cs vs { m with cluster := back m.cluster w, looking := looking } := by
  obtain ⟨hmem, hwaiting⟩ := h.mem hw
  let result : TaskId × TaskResult :=
    (w.task, .popped (m.cluster.store.tryPop w.key m.cluster.now).2)
  have hresults : (Popping.back m.cluster w).results = m.cluster.results ++ [result] :=
    results_finish _ w.task
  have hstore : (Popping.back m.cluster w).store =
      (m.cluster.store.tryPop w.key m.cluster.now).1 := store_finish _ w.task
  have hnew : w.task ∉ m.cluster.results.map (·.1) := by
    intro hin
    obtain ⟨e, hin, heq⟩ := List.mem_map.mp hin
    obtain ⟨-, -, -, hnone, -⟩ := h.results e hin
    rw [heq] at hnone
    cases hw.symm.trans hnone
  obtain ⟨values, hholds, hfifo⟩ := h.holds
  obtain ⟨hsame, hother⟩ := holds_tryPop w.key m.cluster.now hholds
  refine h.gone (gone_back m.cluster w) hlooking ?_ ?_ ?_ (fun _ => id) ?_ ?_ ?_ ?_
  · rw [hstore]
    exact h.up
  · rw [hstore, hresults]
    by_cases hkey : w.key = key
    · obtain ⟨hhead, htail⟩ := hsame hkey
      refine ⟨values.tail, htail, ?_⟩
      have hresult : result = (w.task, .popped (.ok values.head?)) := by rw [← hhead]
      rw [hresult, popped_concat hmem hkey, ← hfifo, List.append_assoc]
      cases values <;> rfl
    · refine ⟨values, hother hkey, ?_⟩
      rw [popped_concat_other fun w' hw' heq => h.unique hw' hmem heq ▸ hkey, hfifo]
  · rw [hstore]
    exact empty_tryPop w.key m.cluster.now
  · rw [hresults]
    exact fun e he => List.mem_append_left _ he
  · rw [hresults]
    intro e hin
    refine (List.mem_append.mp hin).imp_right fun hlast => ?_
    obtain rfl := List.mem_singleton.mp hlast
    exact ⟨rfl, w, hmem, rfl, fun hkey => ⟨values.head?, congrArg _ (hsame hkey).1⟩⟩
  · rw [hresults, List.map_append]
    exact List.nodup_append'.mpr ⟨h.once, List.nodup_singleton _, List.disjoint_singleton.mpr hnew⟩
  · rw [hresults]
    intro _ _ _ _
    exact .inr (List.mem_map.mpr ⟨result, List.mem_append_right _ (List.mem_singleton_self _), rfl⟩)

/-- A task looks. If it finds nothing, there is nothing until it is woken. -/
theorem Channel.look (h : Channel key ws cs vs m) (hw : Waits m.cluster w) :
    Channel key ws cs vs (m.next (.look w)) := by
  obtain ⟨hmem, hwaiting⟩ := h.mem hw
  have hlooking (u : TaskId) (hu : u ≠ w.task) (hin : u ∈ m.looking) : u ∈ m.looking.erase w.task :=
    (List.mem_erase_of_ne hu).mpr hin
  dsimp only [Moment.next]
  unfold Popping.look
  split
  · rename_i hnone
    have hkept (values : List String) (hholds : m.cluster.store.store.Holds key values) :=
      holds_nothing hholds hnone
    have hnothing : w.key = key →
        (m.cluster.store.tryPop w.key m.cluster.now).1.store.Holds key [] := by
      intro hkey
      obtain ⟨values, hholds, -⟩ := h.holds
      obtain ⟨hafter, hempty⟩ := hkept values hholds
      exact hempty hkey ▸ hafter
    split
    · -- It goes on at once with its last look.
      obtain ⟨woken, he, hready⟩ := wake_eq (m.cluster.tryPop w.key).1 w.task
      rw [he]
      exact h.still hmem ⟨rfl, rfl, fun _ _ => rfl, fun _ _ => List.mem_append_left woken,
        fun _ _ => id, fun _ _ => Iff.rfl⟩ hlooking h.up (fun values hh => (hkept values hh).1) rfl
        rfl (fun e he _ => h.ahead e he) ⟨hw, hwaiting.early, .inl hready⟩
    · rename_i hearly
      have htimers := mem_setTimer (m.cluster.tryPop w.key).1 w.task w.deadline
      have hu := undisturbed_setTimer (m.cluster.tryPop w.key).1 w.task w.deadline
      refine h.still hmem ⟨hu.now, hu.born, hu.tasks, hu.ready, hu.parked, hu.timers⟩ hlooking h.up
        (fun values hh => (hkept values hh).1) rfl rfl (fun e he heq => ?_)
        ⟨hw, hwaiting.early, hwaiting.attentive.imp_right fun hparked => ⟨hparked.1, .inr
          ⟨(htimers _).mpr (.inr rfl), fun hkey => .inl (hnothing hkey)⟩⟩⟩
      rcases (htimers e).mp he with ⟨-, hne⟩ | rfl
      · exact absurd heq hne
      · exact Nat.lt_of_not_le hearly
  · exact h.back hw hlooking

/-- What a turn comes to: the task has none or is gone, it looks for the last time, or it asks to be
woken and looks. -/
inductive Turned (m : Moment) : TaskId → Moment → Prop where
  | asleep (t : TaskId) (hr : t ∉ m.cluster.ready) : Turned m t m
  | absent (t : TaskId) (ht : m.cluster.tasks.get? t = none) :
    Turned m t { m with cluster := (taken m.cluster t).finish t }
  | due (w : Wait) (hw : Waits m.cluster w) (hdue : w.deadline ≤ m.cluster.now) :
    Turned m w.task (m.next (.last w))
  | early (w : Wait) (hw : Waits m.cluster w) :
    Turned m w.task ((m.next (.enable w)).next (.look w))

theorem Channel.turned (h : Channel key ws cs vs m) (t : TaskId) :
    Turned m t (m.next (.act (.turn t))) := by
  have hnext : m.next (.act (.turn t)) = { m with cluster := m.cluster.give t } := rfl
  by_cases hr : t ∈ m.cluster.ready
  · cases htask : m.cluster.tasks.get? t with
    | none =>
      rw [hnext, give_absent hr htask]
      exact .absent t htask
    | some task =>
      obtain ⟨w, -, rfl, -, hwaiting⟩ := h.waiting htask
      by_cases hdue : w.deadline ≤ m.cluster.now
      · rw [next_turn_due hr hwaiting.task hdue]
        exact .due w hwaiting.task hdue
      · rw [next_turn_early hr hwaiting.task hdue]
        exact .early w hwaiting.task
  · rw [hnext, give_of_not_mem hr]
    exact .asleep t hr

theorem Channel.turn (h : Channel key ws cs vs m) (t : TaskId) :
    Channel key ws cs vs (m.next (.act (.turn t))) := by
  have hturned := h.turned t
  generalize m.next (.act (.turn t)) = m' at hturned ⊢
  cases hturned with
  | asleep => exact h
  | absent t ht =>
    have hgone := (undisturbed_taken m.cluster t).gone (gone_finish _ t)
    refine h.dropped hgone (fun _ _ => id) (store_finish _ t) (results_finish _ t) (fun _ => id) ?_
    rintro ⟨task, hsome⟩
    cases ht.symm.trans hsome
  | due w hw => exact h.back hw fun _ _ => id
  | early w hw => exact (h.enable hw).look hw.ask

/-- A text is added to the list, or to another one. -/
theorem Channel.append (h : Channel key ws cs vs m) (k value : String) :
    Channel key ws cs (vs ++ (push? key (.append k value)).toList) (m.next (.append k value)) := by
  obtain ⟨values, hholds, hfifo⟩ := h.holds
  by_cases hk : k = key
  · subst hk
    obtain ⟨s, hs, hafter⟩ := hholds.rpush value m.cluster.now
    have hpush : push? k (.append k value) = some value := if_pos rfl
    simp only [Moment.next, SharedStore.rpush, h.serves, hs, hpush, Option.toList_some]
    refine h.store h.up ⟨_, hafter, ?_⟩ fun _ => .inr (Nat.succ_pos _)
    rw [← List.append_assoc, hfifo]
  · have htouches := m.cluster.store.touches_rpush k m.cluster.now value
    have hup : (m.cluster.store.rpush k value m.cluster.now).1.down = [] :=
      htouches.down.trans h.up
    rw [push?, if_neg hk, Option.toList_none, List.append_nil, Moment.next]
    split
    all_goals
      rename_i heq
      rw [heq] at htouches hup
    · exact h.elsewhere hup (Nat.le_succ _) fun _ => holds_of_touches htouches hk
    · exact h.elsewhere hup (Nat.le_refl _) fun _ => holds_of_touches htouches hk

/-- A task begins to wait. -/
theorem Channel.begin (h : Channel key ws cs vs m) (k : String) (timeout : Nat) :
    Channel key (ws ++ [⟨m.cluster.nextTask, k, m.cluster.now + timeout⟩]) cs vs
      { m with cluster := (m.cluster.spawn (.popper k (m.cluster.now + timeout))).1 } := by
  have hold : ∀ w ∈ ws, w.task ≠ m.cluster.nextTask := fun w hw => Nat.ne_of_lt (h.born w hw)
  have hlookup : ∀ u, u ≠ m.cluster.nextTask →
      (m.cluster.tasks.put m.cluster.nextTask (.popper k (m.cluster.now + timeout))).get? u =
        m.cluster.tasks.get? u := fun u hu => Table.get?_put_of_ne _ _ hu
  have hresults : ∀ e ∈ m.cluster.results, e.1 ≠ m.cluster.nextTask := by
    intro e he
    obtain ⟨w, hw, heq, -⟩ := h.results e he
    exact heq ▸ hold w hw
  obtain ⟨values, hholds, hfifo⟩ := h.holds
  refine ⟨h.up, ⟨values, hholds, ?_⟩, h.ahead, ?_, fun w hw => ?_, fun t task ht => ?_,
    fun w hw => ?_, fun e he => ?_, h.once⟩
  · rw [← hfifo]
    exact congrArg (· ++ values) (popped_begin hresults)
  · rw [List.map_append]
    refine List.nodup_append'.mpr ⟨h.distinct, List.nodup_singleton _,
      List.disjoint_singleton.mpr fun hmem => ?_⟩
    obtain ⟨w, hw, heq⟩ := List.mem_map.mp hmem
    exact hold w hw heq
  · rcases List.mem_append.mp hw with hw | hw
    · exact Nat.lt_succ_of_lt (h.born w hw)
    · obtain rfl := List.mem_singleton.mp hw
      exact Nat.lt_succ_self _
  · by_cases hnew : t = m.cluster.nextTask
    · exact ⟨_, List.mem_append_right _ (List.mem_singleton_self _), hnew.symm⟩
    · obtain ⟨w, hw, heq⟩ := h.tasks t task ((hlookup t hnew).symm.trans ht)
      exact ⟨w, List.mem_append_left _ hw, heq⟩
  · rcases List.mem_append.mp hw with hw | hw
    · refine (h.fates w hw).imp (fun hwaiting => ?_) fun ⟨hnone, hover⟩ => ?_
      · exact ⟨(hlookup _ (hold w hw)).trans hwaiting.task, hwaiting.early,
          hwaiting.attentive.imp_left (List.mem_append_left _)⟩
      · exact ⟨(hlookup _ (hold w hw)).trans hnone, hover⟩
    · obtain rfl := List.mem_singleton.mp hw
      exact .inl ⟨Table.get?_put_self .., Nat.le_add_right ..,
        .inl (List.mem_append_right _ (List.mem_singleton_self _))⟩
  · obtain ⟨w, hw, heq, hnone, hvalue⟩ := h.results e he
    exact ⟨w, List.mem_append_left _ hw, heq, (hlookup _ (hresults e he)).trans hnone, hvalue⟩

/-- Time goes on to the first instant at which a task looks again. -/
theorem Channel.pass (h : Channel key ws cs vs m) (hm : m.looking = [] ∧ m.owed = 0) (ms : Nat) :
    Channel key ws cs vs { m with cluster := m.cluster.pass ms } := by
  by_cases hr : m.cluster.ready = []
  · obtain ⟨now, woken, he, hle, hbound, hwoken⟩ := pass_eq hr ms
    rw [he]
    refine ⟨h.up, h.holds, fun e hmem => ?_, h.distinct, h.born, h.tasks,
      fun w hw => (h.fates w hw).imp_left fun hwaiting => ?_, h.results, h.once⟩
    · exact Nat.lt_of_not_le (by simpa using (List.mem_filter.mp hmem).2)
    · obtain ⟨hparked, hrest⟩ := hwaiting.attentive.resolve_left (by simp [hr])
      obtain ⟨htimer, hlist⟩ := hrest.resolve_left (by simp [hm.1])
      have hearly : now ≤ w.deadline := by
        have hmax := hbound _ htimer
        rwa [Nat.max_eq_right hwaiting.early] at hmax
      refine ⟨hwaiting.task, hearly, ?_⟩
      by_cases hdue : w.deadline ≤ now
      · exact .inl (hwoken _ htimer hdue)
      · exact .inr ⟨hparked, .inr ⟨List.mem_filter.mpr ⟨htimer, by simpa using hdue⟩, hlist⟩⟩
  · rw [pass_of_ready hr]
    exact h

/-- One move, of those that leave the list a list. -/
theorem channel_next (h : Channel key ws cs vs m) {move : Move} (hm : m.Allows move)
    (hkey : spoils? move ≠ some key) :
    Channel key (ws ++ (wait? m move).toList) (cs ++ (cancel? move).toList)
      (vs ++ (push? key move).toList) (m.next move) := by
  have helsewhere : ∀ {k : String} {s : SharedStore}, SharedStore.Touches k m.cluster.store s →
      some k ≠ some key → Channel key (ws ++ []) (cs ++ []) (vs ++ [])
        { m with cluster := { m.cluster with store := s } } := by
    intro k s htouches hk
    have hne : k ≠ key := fun heq => hk (congrArg some heq)
    simp only [List.append_nil]
    exact h.elsewhere (htouches.down.trans h.up) (Nat.le_refl _)
      fun _ => holds_of_touches htouches hne
  have hstill {m' : Moment} (h' : Channel key ws cs vs m') :
      Channel key (ws ++ []) (cs ++ []) (vs ++ []) m' := by
    simpa only [List.append_nil] using h'
  cases move with
  | append k value =>
    have happend := h.append k value
    simpa [wait?, cancel?] using happend
  | notify => exact hstill (h.notify _)
  | enable w => exact hstill (h.enable hm.1)
  | look w => exact hstill (h.look hm.1)
  | last w => exact hstill (h.back hm.1 fun _ _ => id)
  | act a =>
    cases a with
    | setEx k value ttl =>
      exact helsewhere (m.cluster.store.touches_setEx k m.cluster.now value ttl) hkey
    | expire k ttl => exact helsewhere (m.cluster.store.touches_expire k m.cluster.now ttl) hkey
    | del k => exact helsewhere (m.cluster.store.touches_del k) hkey
    | countPrefix start =>
      have hserves := h.serves .countPrefix
      refine hstill (h.elsewhere (s := (m.cluster.store.countPrefix start m.cluster.now).1) ?_
        (Nat.le_refl _) fun _ hh => ?_)
      · simp only [SharedStore.countPrefix, hserves, h.up]
      · simp only [SharedStore.countPrefix, hserves]
        exact hh.countPrefix start m.cluster.now
    | rpush k value =>
      have happend := h.append k value
      have hpush : push? key (.act (.rpush k value)) = push? key (.append k value) := rfl
      rw [next_rpush, hpush]
      simp only [wait?, cancel?, Option.toList_none, List.append_nil]
      split
      · exact happend.notify _
      · exact happend
    | blpop k timeout =>
      have hserves := h.serves .blpop
      have hbegin := h.begin k timeout
      have hpop : m.cluster.pop k timeout =
          m.cluster.spawn (.popper k (m.cluster.now + timeout)) := by
        simp only [pop, hserves]
      simpa [wait?, cancel?, push?, Moment.next, act, hpop, spawn] using hbegin
    | cancel t =>
      have hdropped : Channel key ws (cs ++ [t]) vs (m.next (.act (.cancel t))) :=
        h.dropped (gone_remove m.cluster t) (fun _ hu => (List.mem_erase_of_ne hu).mpr) rfl rfl
          (fun _ hu => List.mem_append_left _ hu)
          fun _ => List.mem_append_right _ (List.mem_singleton_self t)
      simpa [wait?, cancel?, push?] using hdropped
    | turn t => exact hstill (h.turn t)
    | pass ms => exact hstill (h.pass hm ms)

theorem channel_run (h : Channel key ws cs vs m) {moves : List Move} (hm : m.Proper moves)
    (hkey : ∀ move ∈ moves, spoils? move ≠ some key) :
    Channel key (ws ++ waits m moves) (cs ++ moves.filterMap cancel?)
      (vs ++ moves.filterMap (push? key)) (m.run moves) := by
  induction moves generalizing m ws cs vs with
  | nil => simpa [waits, Moment.run] using h
  | cons move moves ih =>
    obtain ⟨hfirst, hrest⟩ := List.forall_mem_cons.mp hkey
    have hrun := ih (channel_next h hm.1 hfirst) hm.2 hrest
    have hcancels : (move :: moves).filterMap cancel? =
        (cancel? move).toList ++ moves.filterMap cancel? := by
      cases hc : cancel? move <;> simp [hc]
    have hpushes : (move :: moves).filterMap (push? key) =
        (push? key move).toList ++ moves.filterMap (push? key) := by
      cases hp : push? key move <;> simp [hp]
    rw [waits, Moment.run, hcancels, hpushes, ← List.append_assoc, ← List.append_assoc,
      ← List.append_assoc]
    exact hrun

theorem channel_running (supply : Supply) (epoch : Nat) (settings : List ServerSettings)
    (key : String) : Channel key [] [] [] ⟨running supply epoch settings, [], 0⟩ := by
  rw [running_eq]
  refine ⟨rfl, ⟨[], rfl, rfl⟩, nofun, List.nodup_nil, nofun, fun t task ht => ?_, nofun, nofun,
    List.nodup_nil⟩
  have hnone : (none : Option Task) = some task := ht
  cases hnone

/-! ## What comes of a wait -/

/-- A result comes in when a task that waits looks, and is what the task has found. Nothing is found
at the instant of the wait only. -/
structure Finds (m m' : Moment) (w : Wait) : Prop where
  store : m'.cluster.store = (m.cluster.store.tryPop w.key m.cluster.now).1
  results : m'.cluster.results = m.cluster.results ++
    [(w.task, .popped (m.cluster.store.tryPop w.key m.cluster.now).2)]
  due : (m.cluster.store.tryPop w.key m.cluster.now).2 = .ok none → w.deadline ≤ m.cluster.now

theorem results_look (m : Moment) (w : Wait) :
    (m.next (.look w)).cluster.results = m.cluster.results ∨ Finds m (m.next (.look w)) w := by
  dsimp only [Moment.next]
  unfold Popping.look
  split
  · left
    split
    · obtain ⟨woken, he, -⟩ := wake_eq (m.cluster.tryPop w.key).1 w.task
      rw [he]
      rfl
    · rfl
  · rename_i hsome
    exact .inr ⟨store_finish _ w.task, results_finish _ w.task, fun hnone => absurd hnone hsome⟩

theorem results_last (m : Moment) (hdue : w.deadline ≤ m.cluster.now) :
    Finds m (m.next (.last w)) w :=
  ⟨store_finish _ w.task, results_finish _ w.task, fun _ => hdue⟩

/-- To ask first changes nothing about what is found. -/
theorem results_glance (m : Moment) (w : Wait) :
    ((m.next (.enable w)).next (.look w)).cluster.results = m.cluster.results ∨
      Finds m ((m.next (.enable w)).next (.look w)) w := by
  have hstore := store_ask m.cluster w.task
  have hnow := now_ask m.cluster w.task
  have hresults := results_ask m.cluster w.task
  refine (results_look (m.next (.enable w)) w).imp (fun hsame => hsame.trans hresults) ?_
  rintro ⟨hafter, hadded, hinstant⟩
  dsimp only [Moment.next] at hafter hadded hinstant
  rw [hstore, hnow] at hafter hadded hinstant
  rw [hresults] at hadded
  exact ⟨hafter, hadded, hinstant⟩

theorem results_next (h : Channel key ws cs vs m) {move : Move} (hm : m.Allows move) :
    (m.next move).cluster.results = m.cluster.results ∨
      ∃ w, Waits m.cluster w ∧ Finds m (m.next move) w := by
  cases move with
  | append k value =>
    left
    dsimp only [Moment.next]
    split <;> rfl
  | notify => exact .inl (results_notify _ _)
  | enable w => exact .inl (results_ask m.cluster w.task)
  | look w => exact (results_look m w).imp_right fun hfinds => ⟨w, hm.1, hfinds⟩
  | last w =>
    obtain ⟨hw, -, -, hdue⟩ := hm
    exact .inr ⟨w, hw, results_last m hdue⟩
  | act a =>
    cases a with
    | rpush k value =>
      left
      simp only [Moment.next, act, Cluster.push]
      split
      · exact results_notify _ _
      · rfl
    | blpop k timeout =>
      left
      have hserves := h.serves .blpop
      simp only [Moment.next, act, pop, hserves]
      rfl
    | turn t =>
      have hturned := h.turned t
      generalize m.next (.act (.turn t)) = m' at hturned ⊢
      cases hturned with
      | asleep => exact .inl rfl
      | absent t => exact .inl (results_finish _ t)
      | due w hw hdue => exact .inr ⟨w, hw, results_last m hdue⟩
      | early w hw => exact (results_glance m w).imp_right fun hfinds => ⟨w, hw, hfinds⟩
    | pass ms =>
      left
      obtain ⟨now, timers, ready, -, he⟩ := pass_keeps m.cluster ms
      change (m.cluster.pass ms).results = _
      rw [he]
    | _ => exact .inl rfl

theorem dead_remove {c : Cluster} {u : TaskId} (hdead : c.tasks.get? u = none) (t : TaskId) :
    (c.remove t).tasks.get? u = none := by
  refine (Table.get?_erase c.tasks t u).trans ?_
  rw [hdead]
  exact ite_self none

theorem dead_finish {c : Cluster} {u : TaskId} (hdead : c.tasks.get? u = none) (t : TaskId) :
    (c.finish t).tasks.get? u = none := by
  rw [tasks_finish]
  exact dead_remove hdead t

theorem dead_back {c : Cluster} {u : TaskId} (hdead : c.tasks.get? u = none) (w : Wait) :
    (back c w).tasks.get? u = none := by
  refine dead_finish ?_ w.task
  exact hdead

theorem dead_look {u : TaskId} (hdead : m.cluster.tasks.get? u = none) (w : Wait) :
    (m.next (.look w)).cluster.tasks.get? u = none := by
  dsimp only [Moment.next]
  unfold Popping.look
  split
  · split
    · obtain ⟨woken, he, -⟩ := wake_eq (m.cluster.tryPop w.key).1 w.task
      rw [he]
      exact hdead
    · exact hdead
  · exact dead_back hdead w

/-- A task that is gone does not come back. -/
theorem dead_next (h : Channel key ws cs vs m) {u : TaskId} (hu : u < m.cluster.nextTask)
    (hdead : m.cluster.tasks.get? u = none) (move : Move) :
    (m.next move).cluster.tasks.get? u = none := by
  have hask (t : TaskId) : (ask m.cluster t).tasks.get? u = none := by
    rw [tasks_ask]
    exact hdead
  cases move with
  | append k value =>
    dsimp only [Moment.next]
    split <;> exact hdead
  | notify =>
    dsimp only [Moment.next]
    rw [tasks_notify]
    exact hdead
  | enable w => exact hask w.task
  | look w => exact dead_look hdead w
  | last w => exact dead_back hdead w
  | act a =>
    cases a with
    | rpush k value =>
      simp only [Moment.next, act, Cluster.push]
      split
      · rw [tasks_notify]
        exact hdead
      · exact hdead
    | blpop k timeout =>
      have hserves := h.serves .blpop
      simp only [Moment.next, act, pop, hserves]
      exact (Table.get?_put_of_ne _ _ (Nat.ne_of_lt hu)).trans hdead
    | cancel t => exact dead_remove hdead t
    | turn t =>
      have hturned := h.turned t
      generalize m.next (.act (.turn t)) = m' at hturned ⊢
      cases hturned with
      | asleep => exact hdead
      | absent t =>
        refine dead_finish ?_ t
        exact hdead
      | due w => exact dead_back hdead w
      | early w => exact dead_look (m := m.next (.enable w)) (hask w.task) w
    | pass ms =>
      obtain ⟨now, timers, ready, -, he⟩ := pass_keeps m.cluster ms
      change (m.cluster.pass ms).tasks.get? u = none
      rw [he]
      exact hdead
    | _ => exact hdead

/-- A task that is gone returns nothing more. -/
theorem silent_run (h : Channel key ws cs vs m) (hw : w ∈ ws)
    (hdead : m.cluster.tasks.get? w.task = none) {moves : List Move} (hm : m.Proper moves)
    (hkey : ∀ move ∈ moves, spoils? move ≠ some key) :
    ∀ r, (w.task, r) ∈ (m.run moves).cluster.results → (w.task, r) ∈ m.cluster.results := by
  induction moves generalizing m ws cs vs with
  | nil => exact fun _ => id
  | cons move moves ih =>
    obtain ⟨hfirst, hrest⟩ := List.forall_mem_cons.mp hkey
    intro r hr
    have hafter := ih (channel_next h hm.1 hfirst) (List.mem_append_left _ hw)
      (dead_next h (h.born w hw) hdead move) hm.2 hrest r hr
    rcases results_next h hm.1 with he | ⟨w', hw', hfinds⟩
    · rwa [he] at hafter
    · rw [hfinds.results, List.mem_append, List.mem_singleton] at hafter
      refine hafter.resolve_right fun heq => ?_
      have hsame : w.task = w'.task := congrArg Prod.fst heq
      rw [hsame] at hdead
      cases hw'.symm.trans hdead

end Steps

/-- In every run that leaves the key of a list to pushes and pops, however the steps of those who
push and of those who wait are mixed: whatever is pushed is accepted, and what the waits for the
list have returned, in order, followed by what is on it, is what was pushed, in order. Each wait
returns at most once, and no later than at its instant unless it is cancelled. A cancelled wait
takes nothing and returns nothing from then on. A wait that finds nothing is at its instant, and
there was nothing to find. When no task that waits for the list can go on or is about to look, and
nobody is about to be woken, there is nothing on the list. -/
theorem lists_are_channels (supply : Supply) (epoch : Nat) (settings : List ServerSettings)
    (key : String) (moves : List Move)
    (hproper : Moment.Proper ⟨running supply epoch settings, [], 0⟩ moves)
    (hkey : ∀ move ∈ moves, spoils? move ≠ some key) :
    let m₀ : Moment := ⟨running supply epoch settings, [], 0⟩
    let m := m₀.run moves
    let c := m.cluster
    let ws := waits m₀ moves
    (popped key ws c.results ++ c.store.store.listed key c.now = moves.filterMap (push? key) ∧
      ∀ value, (c.store.rpush key value c.now).2 = .ok ()) ∧
    ((c.results.map (·.1)).Nodup ∧ ∀ w ∈ ws, w.key = key →
      (∀ r, (w.task, r) ∈ c.results → ∃ value, r = .popped (.ok value)) ∧
      (w.task ∈ moves.filterMap cancel? ∨ w.task ∈ c.results.map (·.1) ∨
        Waits c w ∧ c.now ≤ w.deadline ∧
          (w.task ∉ c.ready → w.task ∉ m.looking → c.now < w.deadline))) ∧
    (∀ w ∈ ws, let m' := m.next (.act (.cancel w.task))
      m'.cluster.store = c.store ∧ m'.cluster.results = c.results ∧
      ∀ later, m'.Proper later → (∀ move ∈ later, spoils? move ≠ some key) →
        ∀ r, (w.task, r) ∈ (m'.run later).cluster.results → (w.task, r) ∈ c.results) ∧
    (∀ w ∈ ws, w.key = key → ∀ move, m.Allows move →
      let c' := (m.next move).cluster
      (w.task, .popped (.ok none)) ∈ c'.results → (w.task, .popped (.ok none)) ∉ c.results →
        c.now = w.deadline ∧ c.store.store.listed key c.now = [] ∧
          c'.store.store.listed key c.now = []) ∧
    ∀ w, Waits c w → w.key = key → w.task ∉ c.ready → w.task ∉ m.looking → m.owed = 0 →
      (.pushed, w.task) ∈ c.parked ∧ c.store.store.listed key c.now = [] := by
  intro m₀ m c ws
  have h := channel_run (channel_running supply epoch settings key) hproper hkey
  simp only [List.nil_append] at h
  change Channel key ws _ _ m at h
  obtain ⟨values, hholds, hfifo⟩ := h.holds
  have hlisted := hholds.listed c.now
  refine ⟨⟨?_, fun value => ?_⟩, ⟨h.once, fun w hw hkey => ⟨fun r hr => ?_, ?_⟩⟩, fun w hw => ?_,
    fun w hw hkey move hm => ?_, fun w hw hkey hready hlooking howed => ?_⟩
  · rw [hlisted, hfifo]
  · obtain ⟨s, hs, -⟩ := hholds.rpush value c.now
    simp only [SharedStore.rpush, h.serves, c, hs]
  · obtain ⟨w', hw', heq, -, hvalue⟩ := h.results _ hr
    obtain rfl := h.unique hw' hw heq
    exact hvalue hkey
  · rcases h.fates w hw with hwaiting | ⟨-, hcancelled | hreturned⟩
    · refine .inr (.inr ⟨hwaiting.task, hwaiting.early, fun hready hlooking => ?_⟩)
      obtain ⟨-, hrest⟩ := hwaiting.attentive.resolve_left hready
      exact h.ahead _ (hrest.resolve_left hlooking).1
    · exact .inl hcancelled
    · exact .inr (.inl hreturned)
  · refine ⟨rfl, rfl, fun later hproper hkey => ?_⟩
    have hallows : m.Allows (.act (.cancel w.task)) := trivial
    have hafter := channel_next h hallows (Option.some_ne_none key).symm
    exact silent_run hafter (List.mem_append_left _ hw) (gone_remove c w.task).task hproper hkey
  · intro c' hnew hold
    rcases results_next h hm with he | ⟨w', hw', hfinds⟩
    · exact absurd (he ▸ hnew) hold
    · have hlast : (w.task, TaskResult.popped (.ok none)) = _ :=
        List.mem_singleton.mp ((List.mem_append.mp (hfinds.results ▸ hnew)).resolve_left hold)
      obtain ⟨hmem', hwaiting⟩ := h.mem hw'
      obtain rfl := h.unique hw hmem' (congrArg Prod.fst hlast)
      have hnone : (c.store.tryPop w.key c.now).2 = .ok none :=
        (TaskResult.popped.inj (congrArg Prod.snd hlast)).symm
      obtain ⟨hafter, hempty⟩ := holds_nothing hholds hnone
      obtain rfl := hempty hkey
      change _ ∧ _ ∧ (m.next move).cluster.store.store.listed key c.now = []
      rw [hfinds.store]
      exact ⟨Nat.le_antisymm hwaiting.early (hfinds.due hnone), hlisted, hafter.listed c.now⟩
  · obtain ⟨-, hwaiting⟩ := h.mem hw
    obtain ⟨hparked, hrest⟩ := hwaiting.attentive.resolve_left hready
    have hlist := (hrest.resolve_left hlooking).2 hkey
    exact ⟨hparked, (hlist.resolve_right (by simp [howed])).listed c.now⟩

/-- Three wait. The second one looks before anyone is told of a push, so the first one is told of
nothing, and is cancelled then. The third one finds nothing at its instant. -/
def shift : List Move :=
  [.act (.blpop "jobs" 5000), .act (.blpop "jobs" 2000), .act (.blpop "jobs" 1000), .act (.turn 0),
    .enable ⟨1, "jobs", 2000⟩, .append "jobs" "a", .look ⟨1, "jobs", 2000⟩, .notify,
    .act (.setEx "lock" "1" 1000), .act (.cancel 0), .enable ⟨2, "jobs", 1000⟩,
    .look ⟨2, "jobs", 1000⟩, .act (.pass 1000), .last ⟨2, "jobs", 1000⟩, .act (.rpush "jobs" "b")]

theorem proper_shift :
    Moment.Proper ⟨running ⟨fun _ => ⟨0⟩, fun _ => ""⟩ 0 [], [], 0⟩ shift :=
  ⟨trivial, trivial, trivial, List.not_mem_nil, ⟨rfl, by decide, by decide⟩, trivial,
    ⟨rfl, by decide⟩, Nat.one_pos, trivial, trivial, ⟨rfl, by decide, by decide⟩,
    ⟨rfl, by decide⟩, ⟨rfl, rfl⟩, ⟨rfl, by decide, by decide, by decide⟩, trivial, trivial⟩

theorem lists_are_channels_shift :
    let m₀ : Moment := ⟨running ⟨fun _ => ⟨0⟩, fun _ => ""⟩ 0 [], [], 0⟩
    let c := (m₀.run shift).cluster
    m₀.Proper shift ∧ (∀ move ∈ shift, spoils? move ≠ some "jobs") ∧
    popped "jobs" (waits m₀ shift) c.results ++ c.store.store.listed "jobs" c.now = ["a", "b"] ∧
    c.results = [(1, .popped (.ok (some "a"))), (2, .popped (.ok none))] := by
  have hkey : ∀ move ∈ shift, spoils? move ≠ some "jobs" := by decide
  have h := lists_are_channels ⟨fun _ => ⟨0⟩, fun _ => ""⟩ 0 [] "jobs" shift proper_shift hkey
  exact ⟨proper_shift, hkey, h.1.1.trans rfl, rfl⟩

end FleetControl.Cluster.Popping
