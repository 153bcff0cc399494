import FleetControl.Proofs.Bridge.Traffic

/-! # In line for a device

The calls of a process for one device stand in line for its lock. The first of them has the lock,
and it alone may have a job outstanding. -/
namespace FleetControl

namespace DeviceLock

/-- Who has the lock and who waits for it, in order. -/
def line (l : DeviceLock) : List TaskId := l.owner.toList ++ l.waiting

/-- Nobody waits for a lock that is free. -/
def Served (l : DeviceLock) : Prop := l.owner = none → l.waiting = []

section
variable {l : DeviceLock} {t u : TaskId}

theorem owner_mem_line (h : l.owner = some t) : t ∈ l.line :=
  List.mem_append_left _ (by rw [h]; exact List.mem_singleton_self t)

theorem line_acquire (h : l.Served) (t : TaskId) : (l.acquire t).1.line = l.line ++ [t] := by
  unfold acquire line
  cases ho : l.owner with
  | none => simp [h ho]
  | some o => simp

theorem served_acquire (l : DeviceLock) (t : TaskId) : (l.acquire t).1.Served := by
  intro hnone
  cases ho : l.owner with
  | none => simp [acquire, ho] at hnone
  | some o => simp [acquire, ho] at hnone

theorem owner_acquire (h : l.owner = some u) (t : TaskId) : (l.acquire t).1.owner = some u := by
  rw [acquire, h]

theorem mem_waiting_acquire (h : u ∈ (l.acquire t).1.waiting) : u ∈ l.waiting ∨ u = t := by
  unfold acquire at h
  split at h
  · exact Or.inl h
  · exact (List.mem_append.mp h).imp_right List.mem_singleton.mp

theorem line_release (h : l.owner = some t) : l.line = t :: l.release.1.line := by
  unfold release line
  rw [h]
  split
  · rename_i hw
    rw [hw]
    rfl
  · rename_i next rest hw
    rw [hw]
    rfl

theorem served_release (l : DeviceLock) : l.release.1.Served := by
  intro hnone
  unfold release at hnone ⊢
  split
  · assumption
  · rename_i hw
    rw [hw] at hnone
    cases hnone

theorem mem_waiting_release (h : u ∈ l.release.1.waiting) : u ∈ l.waiting := by
  unfold release at h
  split at h
  · exact h
  · rename_i hw
    rw [hw]
    exact List.mem_cons_of_mem _ h

/-- The first in line has the lock. -/
theorem owner_of_line {rest : List TaskId} (hs : l.Served) (h : l.line = t :: rest) :
    l.owner = some t ∧ l.waiting = rest := by
  unfold line at h
  cases ho : l.owner with
  | none =>
    rw [ho, hs ho] at h
    cases h
  | some o =>
    rw [ho] at h
    cases h
    exact ⟨rfl, rfl⟩

end

end DeviceLock

namespace Traffic

/-- The lock that a call stands in line for. -/
def Caller.place? : Caller → Option (Nat × String)
  | .asking _ => none
  | .queueing e => some (e.process, e.device)
  | .awaiting w => some (w.process, w.device)

/-- Calls stand in line where they belong, once, and who awaits a reply comes first. -/
structure Locked (s : State) : Prop where
  served : ∀ p device, (s.lock p device).Served
  nodup : ∀ p device, (s.lock p device).line.Nodup
  stands : ∀ p device, ∀ t ∈ (s.lock p device).line,
    ∃ caller, s.caller t = some caller ∧ caller.place? = some (p, device)
  waiting : ∀ p device, ∀ t ∈ (s.lock p device).waiting, ∃ e, s.caller t = some (.queueing e)
  queueing : ∀ t e, s.caller t = some (.queueing e) → t ∈ (s.lock e.process e.device).line
  awaiting : ∀ t w, s.caller t = some (.awaiting w) →
    (s.lock w.process w.device).owner = some t

section Locked
variable {supply : Supply} {epoch : Nat} {s : State} {t : TaskId} {e : Errand} {w : Wait}

theorem Locked.place (h : Locked s) {p : Nat} {device : String}
    (ht : t ∈ (s.lock p device).line) {caller : Caller} (hc : s.caller t = some caller) :
    caller.place? = some (p, device) := by
  obtain ⟨found, hfound, hplace⟩ := h.stands p device t ht
  rw [hc] at hfound
  cases hfound
  exact hplace

theorem Locked.held (h : Locked s) (hw : s.caller t = some (.awaiting w)) :
    (s.lock w.process w.device).owner = some t ∧ t ∉ (s.lock w.process w.device).waiting := by
  have howner := h.awaiting t w hw
  have hnodup := h.nodup w.process w.device
  rw [DeviceLock.line, howner] at hnodup
  exact ⟨howner, (List.nodup_cons.mp hnodup).1⟩

theorem Locked.congr (h : Locked s) {s' : State} (hcaller : s'.caller = s.caller)
    (hlock : s'.lock = s.lock) : Locked s' := by
  obtain ⟨served, nodup, stands, waiting, queueing, awaiting⟩ := h
  constructor <;> rw [hlock] <;> try rw [hcaller]
  all_goals assumption

theorem Locked.start (h : Locked s) (hf : Fresh s) (e : Errand) :
    Locked (next supply epoch s (.start e)) := by
  have hnew : s.caller s.nextTask = none := (hf _ (Nat.le_refl _)).1
  have hold : ∀ {u caller}, s.caller u = some caller →
      Function.update s.caller s.nextTask (some (.asking e)) u = some caller := by
    intro u caller hu
    rw [Function.update_of_ne, hu]
    rintro rfl
    rw [hnew] at hu
    cases hu
  have hback : ∀ {u caller},
      Function.update s.caller s.nextTask (some (.asking e)) u = some caller →
      s.caller u = some caller ∨ caller = .asking e := by
    intro u caller hu
    rw [Function.update_apply] at hu
    split at hu
    · exact Or.inr (Option.some.inj hu).symm
    · exact Or.inl hu
  refine ⟨h.served, h.nodup, ?stands, ?waiting, ?queueing, ?awaiting⟩
  case stands =>
    intro p device t ht
    obtain ⟨caller, hcaller, hplace⟩ := h.stands p device t ht
    exact ⟨caller, hold hcaller, hplace⟩
  case waiting =>
    intro p device t ht
    obtain ⟨e', he'⟩ := h.waiting p device t ht
    exact ⟨e', hold he'⟩
  case queueing =>
    intro t e' he'
    rcases hback he' with hq | hq
    · exact h.queueing t e' hq
    · cases hq
  case awaiting =>
    intro t w hw
    rcases hback hw with hq | hq
    · exact h.awaiting t w hq
    · cases hq

theorem lock_setLock_self (p : Nat) (device : String) (l : DeviceLock) :
    s.setLock p device l p device = l := if_pos ⟨rfl, rfl⟩

/-- What holds of the lock that is put, and of the others as they were, holds of every lock. -/
theorem forall_setLock {P : Nat → String → DeviceLock → Prop} {q : Nat} {other : String}
    {l : DeviceLock} (hl : P q other l)
    (hs : ∀ p device, ¬ (p = q ∧ device = other) → P p device (s.lock p device)) (p : Nat)
    (device : String) : P p device (s.setLock q other l p device) := by
  unfold State.setLock
  split
  · rename_i hp
    obtain ⟨rfl, rfl⟩ := hp
    exact hl
  · exact hs p device ‹_›

theorem Locked.ask (h : Locked s) (he : s.caller t = some (.asking e)) :
    Locked (next supply epoch s (.ask t e)) := by
  have hout : ∀ {p device u}, u ∈ (s.lock p device).line → u ≠ t := by
    rintro p device u hu rfl
    cases h.place hu he
  have hold : ∀ {u}, u ≠ t → (next supply epoch s (.ask t e)).caller u = s.caller u :=
    fun hu => Function.update_of_ne hu _ _
  have hself : (next supply epoch s (.ask t e)).caller t = some (.queueing e) :=
    Function.update_self ..
  have hline := DeviceLock.line_acquire (h.served e.process e.device) t
  have hstands : ∀ p device, ∀ u ∈ (s.lock p device).line, ∃ caller,
      (next supply epoch s (.ask t e)).caller u = some caller ∧
        caller.place? = some (p, device) := by
    intro p device u hu
    rw [hold (hout hu)]
    exact h.stands p device u hu
  have hwaiting : ∀ p device, ∀ u ∈ (s.lock p device).waiting,
      ∃ e', (next supply epoch s (.ask t e)).caller u = some (.queueing e') := by
    intro p device u hu
    rw [hold (hout (List.mem_append_right _ hu))]
    exact h.waiting p device u hu
  constructor
  case served =>
    exact forall_setLock (P := fun _ _ l => l.Served) (DeviceLock.served_acquire _ t)
      fun p device _ => h.served p device
  case nodup =>
    refine forall_setLock (P := fun _ _ l => l.line.Nodup) ?_ fun p device _ => h.nodup p device
    rw [hline]
    refine List.nodup_append.mpr ⟨h.nodup _ _, List.pairwise_singleton _ t, fun u hu v hv => ?_⟩
    rw [List.mem_singleton.mp hv]
    exact hout hu
  case stands =>
    refine forall_setLock (P := fun p device l => ∀ u ∈ l.line, ∃ caller,
      (next supply epoch s (.ask t e)).caller u = some caller ∧ caller.place? = some (p, device))
      (fun u hu => ?_) fun p device _ => hstands p device
    rw [hline] at hu
    rcases List.mem_append.mp hu with hu | hu
    · exact hstands _ _ u hu
    · rw [List.mem_singleton.mp hu]
      exact ⟨_, hself, rfl⟩
  case waiting =>
    refine forall_setLock (P := fun _ _ l => ∀ u ∈ l.waiting,
      ∃ e', (next supply epoch s (.ask t e)).caller u = some (.queueing e'))
      (fun u hu => ?_) fun p device _ => hwaiting p device
    rcases DeviceLock.mem_waiting_acquire hu with hu | rfl
    · exact hwaiting _ _ u hu
    · exact ⟨e, hself⟩
  case queueing =>
    intro u e' he'
    by_cases hut : u = t
    · subst hut
      obtain rfl : e = e' := Caller.queueing.inj (Option.some.inj (hself.symm.trans he'))
      have hlock : (next supply epoch s (.ask u e)).lock e.process e.device =
          ((s.lock e.process e.device).acquire u).1 := lock_setLock_self _ _ _
      rw [hlock, hline]
      exact List.mem_append_right _ (List.mem_singleton_self u)
    · rw [hold hut] at he'
      exact forall_setLock (P := fun p device l => u ∈ (s.lock p device).line → u ∈ l.line)
        (fun hu => hline ▸ List.mem_append_left _ hu) (fun _ _ _ hu => hu) _ _
        (h.queueing u e' he')
  case awaiting =>
    intro u w hw
    have hut : u ≠ t := by
      rintro rfl
      rw [hself] at hw
      cases hw
    rw [hold hut] at hw
    exact forall_setLock
      (P := fun p device l => (s.lock p device).owner = some u → l.owner = some u)
      (fun ho => DeviceLock.owner_acquire ho t) (fun _ _ _ ho => ho) _ _ (h.awaiting u w hw)

theorem Locked.post (h : Locked s) (he : s.caller t = some (.queueing e))
    (howner : (s.lock e.process e.device).owner = some t) :
    Locked (next supply epoch s (.post t e)) := by
  have hold : ∀ {u}, u ≠ t → (next supply epoch s (.post t e)).caller u = s.caller u :=
    fun hu => Function.update_of_ne hu _ _
  have hself : (next supply epoch s (.post t e)).caller t =
      some (.awaiting (s.job supply t e).wait) := Function.update_self ..
  have hplace : ∀ {p device}, t ∈ (s.lock p device).line → p = e.process ∧ device = e.device := by
    intro p device ht
    cases h.place ht he
    exact ⟨rfl, rfl⟩
  refine ⟨h.served, h.nodup, ?stands, ?waiting, ?queueing, ?awaiting⟩
  case stands =>
    intro p device u hu
    by_cases hut : u = t
    · subst hut
      obtain ⟨rfl, rfl⟩ := hplace hu
      exact ⟨_, hself, rfl⟩
    · rw [hold hut]
      exact h.stands p device u hu
  case waiting =>
    intro p device u hu
    have hut : u ≠ t := by
      rintro rfl
      obtain ⟨rfl, rfl⟩ := hplace (List.mem_append_right _ hu)
      have hnodup := h.nodup e.process e.device
      rw [DeviceLock.line, howner] at hnodup
      exact (List.nodup_cons.mp hnodup).1 hu
    rw [hold hut]
    exact h.waiting p device u hu
  case queueing =>
    intro u e' he'
    by_cases hut : u = t
    · subst hut
      rw [hself] at he'
      cases he'
    · rw [hold hut] at he'
      exact h.queueing u e' he'
  case awaiting =>
    intro u w hw
    by_cases hut : u = t
    · subst hut
      rw [hself] at hw
      cases hw
      exact howner
    · rw [hold hut] at hw
      exact h.awaiting u w hw

theorem Locked.finish (h : Locked s) (hw : s.caller t = some (.awaiting w)) (r : CommandOutcome) :
    Locked (s.finish t w r) := by
  have hold : ∀ {u}, u ≠ t → (s.finish t w r).caller u = s.caller u :=
    fun hu => Function.update_of_ne hu _ _
  have hself : (s.finish t w r).caller t = none := Function.update_self ..
  have hline := DeviceLock.line_release (h.awaiting t w hw)
  have hnodup := h.nodup w.process w.device
  rw [hline, List.nodup_cons] at hnodup
  -- Only the call that is over has left a line, and it is in no line any more.
  have hmem : ∀ p device, ∀ u ∈ ((s.finish t w r).lock p device).line,
      u ∈ (s.lock p device).line ∧ u ≠ t := by
    refine forall_setLock (P := fun p device l => ∀ u ∈ l.line, u ∈ (s.lock p device).line ∧ u ≠ t)
      (fun u hu => ⟨hline ▸ List.mem_cons_of_mem _ hu, ?_⟩) fun p device hp u hu => ⟨hu, ?_⟩
    · rintro rfl
      exact hnodup.1 hu
    · rintro rfl
      cases h.place hu hw
      exact hp ⟨rfl, rfl⟩
  have hwaiting : ∀ p device, ∀ u ∈ ((s.finish t w r).lock p device).waiting,
      u ∈ (s.lock p device).waiting :=
    forall_setLock (P := fun p device l => ∀ u ∈ l.waiting, u ∈ (s.lock p device).waiting)
      (fun _ hu => DeviceLock.mem_waiting_release hu) fun _ _ _ _ hu => hu
  constructor
  case served =>
    exact forall_setLock (P := fun _ _ l => l.Served) (DeviceLock.served_release _)
      fun p device _ => h.served p device
  case nodup =>
    exact forall_setLock (P := fun _ _ l => l.line.Nodup) hnodup.2 fun p device _ =>
      h.nodup p device
  case stands =>
    intro p device u hu
    obtain ⟨hu, hut⟩ := hmem p device u hu
    rw [hold hut]
    exact h.stands p device u hu
  case waiting =>
    intro p device u hu
    rw [hold (hmem p device u (List.mem_append_right _ hu)).2]
    exact h.waiting p device u (hwaiting p device u hu)
  case queueing =>
    intro u e' he'
    have hut : u ≠ t := by
      rintro rfl
      rw [hself] at he'
      cases he'
    rw [hold hut] at he'
    refine forall_setLock (P := fun p device l => u ∈ (s.lock p device).line → u ∈ l.line)
      (fun hu => ?_) (fun _ _ _ hu => hu) _ _ (h.queueing u e' he')
    rw [hline] at hu
    exact (List.mem_cons.mp hu).resolve_left hut
  case awaiting =>
    intro u w' hw'
    have hut : u ≠ t := by
      rintro rfl
      rw [hself] at hw'
      cases hw'
    rw [hold hut] at hw'
    refine forall_setLock
      (P := fun p device l => (s.lock p device).owner = some u → l.owner = some u)
      (fun ho => ?_) (fun _ _ _ ho => ho) _ _ (h.awaiting u w' hw')
    rw [h.awaiting t w hw] at ho
    exact absurd (Option.some.inj ho).symm hut

/-- Whatever happens, calls stand in line as they should. -/
theorem locked_next {e : Event} (h : Locked s) (hf : Fresh s) (he : Enabled epoch s e) :
    Locked (next supply epoch s e) := by
  cases e with
  | start e => exact h.start hf e
  | ask t e => exact h.ask he
  | post t e => exact h.post he.1 he.2
  | collect t w raw rest =>
    exact (h.finish he.1 (BridgeReply.outcomeOf raw w.device w.command w.timeout)).congr rfl rfl
  | giveUp t w => exact h.finish he.1 _
  | _ => exact h.congr rfl rfl

end Locked

/-- The jobs that a process has posted for a device. -/
def History.postedAt (h : History) (p : Nat) (device : String) : List Job :=
  h.posted.filter fun j => p = j.process ∧ device = j.device

def Caller.queues : Caller → Bool
  | .queueing _ => true
  | _ => false

/-- Who has the lock of a device and has not posted its job yet. -/
def State.pending (s : State) (p : Nat) (device : String) : List TaskId :=
  (s.lock p device).owner.toList.filter fun t => (s.caller t).any Caller.queues

/-- Jobs are posted in the order in which their calls got the lock. -/
def Granted (s : State) (h : History) : Prop :=
  ∀ p device, h.grants p device = (h.postedAt p device).map (·.task) ++ s.pending p device

section Granted
variable {supply : Supply} {epoch : Nat} {s s' : State} {h : History} {t : TaskId} {e : Errand}
  {w : Wait}

theorem pending_congr {p : Nat} {device : String}
    (howner : (s'.lock p device).owner = (s.lock p device).owner)
    (hcaller : ∀ u, (s.lock p device).owner = some u → s'.caller u = s.caller u) :
    s'.pending p device = s.pending p device := by
  unfold State.pending
  rw [howner]
  cases ho : (s.lock p device).owner with
  | none => rfl
  | some u => simp only [Option.toList_some, List.filter_cons, List.filter_nil, hcaller u ho]

theorem pending_of_owner {p : Nat} {device : String} {u : TaskId} {caller : Caller}
    (howner : (s.lock p device).owner = some u) (hcaller : s.caller u = some caller) :
    s.pending p device = if caller.queues then [u] else [] := by
  simp only [State.pending, howner, Option.toList_some, List.filter_cons, List.filter_nil, hcaller,
    Option.any_some]

theorem postedAt_record_of_ne (h : History) {e : Event} (hposts : posts supply s e = [])
    (p : Nat) (device : String) :
    (h.record supply s e).postedAt p device = h.postedAt p device := by
  simp only [History.postedAt, History.record, hposts, List.append_nil]

/-- The history of grants goes on in step when no job is posted. -/
theorem Granted.grow (hg : Granted s h) {e : Event} (hposts : posts supply s e = [])
    (hpending : ∀ p device, s.pending p device ++ grants s p device e = s'.pending p device) :
    Granted s' (h.record supply s e) := by
  intro p device
  rw [postedAt_record_of_ne h hposts, ← hpending p device, ← List.append_assoc, ← hg p device]
  rfl

theorem pending_ask (hl : Locked s) (he : s.caller t = some (.asking e)) (p : Nat)
    (device : String) : s.pending p device ++ grants s p device (.ask t e) =
      (next supply epoch s (.ask t e)).pending p device := by
  have hself : (next supply epoch s (.ask t e)).caller t = some (.queueing e) :=
    Function.update_self ..
  have hout : ∀ {p device u}, (s.lock p device).owner = some u →
      (next supply epoch s (.ask t e)).caller u = s.caller u := by
    intro p device u hu
    refine Function.update_of_ne ?_ _ _
    rintro rfl
    cases hl.place (DeviceLock.owner_mem_line hu) he
  simp only [grants]
  split
  · rename_i hp
    obtain ⟨rfl, rfl⟩ := hp
    have hlock : (next supply epoch s (.ask t e)).lock e.process e.device =
        ((s.lock e.process e.device).acquire t).1 := lock_setLock_self _ _ _
    cases ho : (s.lock e.process e.device).owner with
    | none =>
      have howner : ((next supply epoch s (.ask t e)).lock e.process e.device).owner = some t := by
        rw [hlock, DeviceLock.acquire, ho]
      rw [pending_of_owner howner hself, State.pending, ho]
      rfl
    | some u =>
      have howner : ((next supply epoch s (.ask t e)).lock e.process e.device).owner = some u := by
        rw [hlock]
        exact DeviceLock.owner_acquire ho t
      rw [if_neg (by simp), List.append_nil]
      exact (pending_congr (howner.trans ho.symm) fun v hv => hout hv).symm
  · rename_i hp
    have hlock : (next supply epoch s (.ask t e)).lock p device = s.lock p device := if_neg hp
    rw [List.append_nil]
    exact (pending_congr (by rw [hlock]) fun v hv => hout hv).symm

theorem pending_finish (hl : Locked s) (hw : s.caller t = some (.awaiting w)) (r : CommandOutcome)
    (p : Nat) (device : String) : s.pending p device ++
      (if p = w.process ∧ device = w.device then
        (s.lock w.process w.device).waiting.head?.toList else []) =
      (s.finish t w r).pending p device := by
  obtain ⟨howner, hwaiting⟩ := hl.held hw
  have hold : ∀ {u}, u ≠ t → (s.finish t w r).caller u = s.caller u :=
    fun hu => Function.update_of_ne hu _ _
  split
  · rename_i hp
    obtain ⟨rfl, rfl⟩ := hp
    have hlock : ((s.finish t w r).lock w.process w.device).owner =
        (s.lock w.process w.device).waiting.head? :=
      (congrArg DeviceLock.owner (lock_setLock_self _ _ _)).trans (DeviceLock.owner_release _)
    rw [pending_of_owner howner hw]
    cases hrest : (s.lock w.process w.device).waiting with
    | nil =>
      rw [hrest] at hlock
      rw [State.pending, hlock]
      rfl
    | cons u rest =>
      have hu : u ∈ (s.lock w.process w.device).waiting := hrest ▸ List.mem_cons_self
      obtain ⟨e, he⟩ := hl.waiting _ _ u hu
      have hut : u ≠ t := by
        rintro rfl
        exact hwaiting hu
      rw [hrest] at hlock
      rw [pending_of_owner hlock ((hold hut).trans he)]
      rfl
  · rename_i hp
    have hlock : (s.finish t w r).lock p device = s.lock p device := if_neg hp
    rw [List.append_nil]
    refine (pending_congr (by rw [hlock]) fun u hu => hold ?_).symm
    rintro rfl
    cases hl.place (DeviceLock.owner_mem_line hu) hw
    exact hp ⟨rfl, rfl⟩

theorem Granted.post (hg : Granted s h) (hl : Locked s) (he : s.caller t = some (.queueing e))
    (howner : (s.lock e.process e.device).owner = some t) :
    Granted (next supply epoch s (.post t e)) (h.record supply s (.post t e)) := by
  have hself : (next supply epoch s (.post t e)).caller t =
      some (.awaiting (s.job supply t e).wait) := Function.update_self ..
  intro p device
  have hgrants : (h.record supply s (.post t e)).grants p device = h.grants p device :=
    List.append_nil _
  have hposted : (h.record supply s (.post t e)).postedAt p device = h.postedAt p device ++
      if p = e.process ∧ device = e.device then [s.job supply t e] else [] := by
    simp only [History.postedAt, History.record, posts, List.filter_append, List.filter_cons,
      List.filter_nil, State.job, decide_eq_true_eq]
  rw [hgrants, hposted, hg p device]
  split
  · rename_i hp
    obtain ⟨rfl, rfl⟩ := hp
    have howner' : ((next supply epoch s (.post t e)).lock e.process e.device).owner = some t :=
      howner
    rw [pending_of_owner howner he, pending_of_owner howner' hself, List.map_append]
    simp [Caller.queues, State.job]
  · rename_i hp
    have hsame : (next supply epoch s (.post t e)).pending p device = s.pending p device := by
      refine pending_congr rfl fun u hu => Function.update_of_ne ?_ _ _
      rintro rfl
      cases hl.place (DeviceLock.owner_mem_line hu) he
      exact hp ⟨rfl, rfl⟩
    rw [List.append_nil, hsame]

theorem granted_next {e : Event} (hg : Granted s h) (hl : Locked s) (hf : Fresh s)
    (he : Enabled epoch s e) :
    Granted (next supply epoch s e) (h.record supply s e) := by
  cases e with
  | start e =>
    refine hg.grow rfl fun p device => ?_
    have hsame : (next supply epoch s (.start e)).pending p device = s.pending p device := by
      refine pending_congr rfl fun u hu => Function.update_of_ne ?_ _ _
      rintro rfl
      obtain ⟨caller, hcaller, -⟩ := hl.stands p device _ (DeviceLock.owner_mem_line hu)
      rw [(hf _ (Nat.le_refl _)).1] at hcaller
      cases hcaller
    rw [hsame]
    exact List.append_nil _
  | ask t e => exact hg.grow rfl (pending_ask hl he)
  | post t e => exact hg.post hl he.1 he.2
  | collect t w raw rest =>
    exact hg.grow rfl
      (pending_finish hl he.1 (BridgeReply.outcomeOf raw w.device w.command w.timeout))
  | giveUp t w => exact hg.grow rfl (pending_finish hl he.1 _)
  | _ => exact hg.grow rfl fun p device => List.append_nil _

end Granted

end Traffic

end FleetControl
