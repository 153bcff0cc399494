import FleetControl.Proofs.Bridge.Locks
import Mathlib

/-! # How long a call waits

A call that has the lock of its device is over after its time limit and some grace. One that stands
behind others waits until each of them is over: what they may still take adds up, and never
grows. -/
namespace FleetControl.Traffic

/-- How long a call may still take once it has the lock. -/
def State.left (s : State) (t : TaskId) : Nat :=
  match s.caller t with
  | some (.queueing e) => e.timeout + Cluster.replyGrace
  | some (.awaiting w) => w.deadline - s.now
  | _ => 0

/-- Who awaits a reply does so until its deadline. -/
def Timely (s : State) : Prop := ∀ t w, s.caller t = some (.awaiting w) → s.now ≤ w.deadline

/-- A call stands in line, and with those before it comes to an end by an instant. -/
def State.EndsBy (s : State) (p : Nat) (device : String) (t : TaskId) (bound : Nat) : Prop :=
  ∃ ahead behind, (s.lock p device).line = ahead ++ t :: behind ∧
    s.now + ((ahead ++ [t]).map s.left).sum ≤ bound

section
variable {supply : Supply} {epoch : Nat} {s s' : State} {p : Nat} {device : String} {t : TaskId}
  {bound : Nat}

theorem left_congr {u : TaskId} (hc : s'.caller u = s.caller u) (hnow : s'.now = s.now) :
    s'.left u = s.left u := by
  rw [State.left, State.left, hc, hnow]

/-- Who stands in line may only be joined from behind. -/
theorem State.EndsBy.mono (h : s.EndsBy p device t bound) {l : List TaskId}
    (hline : (s'.lock p device).line = (s.lock p device).line ++ l) (hnow : s'.now = s.now)
    (hleft : ∀ u ∈ (s.lock p device).line, s'.left u = s.left u) :
    s'.EndsBy p device t bound := by
  obtain ⟨ahead, behind, hsplit, hbound⟩ := h
  refine ⟨ahead, behind ++ l, by rw [hline, hsplit]; simp, ?_⟩
  have hsame : (ahead ++ [t]).map s'.left = (ahead ++ [t]).map s.left := by
    refine List.map_congr_left fun u hu => hleft u ?_
    rw [hsplit]
    rcases List.mem_append.mp hu with hu | hu
    · exact List.mem_append_left _ hu
    · exact List.mem_append_right _ (List.mem_singleton.mp hu ▸ List.mem_cons_self)
  rw [hnow, hsame]
  exact hbound

/-- Time goes at the expense of the first in line only. -/
theorem State.EndsBy.pass (h : s.EndsBy p device t bound) (hl : Locked s) (ht : Timely s)
    {now : Nat} (hlets : s.Lets now) (replies : Uuid → List String) :
    (next supply epoch s (.pass now replies)).EndsBy p device t bound := by
  obtain ⟨ahead, behind, hsplit, hbound⟩ := h
  refine ⟨ahead, behind, hsplit, ?_⟩
  obtain ⟨first, rest, hfirst⟩ : ∃ first rest, ahead ++ [t] = first :: rest := by
    cases ahead with
    | nil => exact ⟨t, [], rfl⟩
    | cons u ahead => exact ⟨u, ahead ++ [t], rfl⟩
  have hline : (s.lock p device).line = first :: (rest ++ behind) := by
    rw [hsplit, List.append_cons, hfirst]
    rfl
  obtain ⟨howner, hwaiting⟩ := DeviceLock.owner_of_line (hl.served p device) hline
  -- The others have posted nothing yet, and their time limits have not begun to run.
  have hrest : ∀ u ∈ rest, (next supply epoch s (.pass now replies)).left u = s.left u := by
    intro u hu
    obtain ⟨e, he⟩ := hl.waiting p device u (hwaiting ▸ List.mem_append_left _ hu)
    have he' : (next supply epoch s (.pass now replies)).caller u = some (.queueing e) := he
    rw [State.left, State.left, he', he]
  have hhead : now + (next supply epoch s (.pass now replies)).left first =
      s.now + s.left first := by
    obtain ⟨caller, hcaller, hplace⟩ :=
      hl.stands p device first (DeviceLock.owner_mem_line howner)
    have hcaller' : (next supply epoch s (.pass now replies)).caller first = some caller := hcaller
    have honward := hlets.onward
    rw [State.left, State.left, hcaller, hcaller']
    cases caller with
    | asking e => cases hplace
    | queueing e =>
      cases hplace
      rw [hlets.owner first e hcaller howner]
    | awaiting w =>
      have hdue := ht first w hcaller
      have hlate := hlets.awaiting first w hcaller
      change now + (w.deadline - now) = s.now + (w.deadline - s.now)
      omega
  rw [hfirst, List.map_cons, List.sum_cons] at hbound ⊢
  rw [List.map_congr_left hrest]
  change now + _ ≤ bound
  omega

/-- When a call is over, those behind it move up. -/
theorem State.EndsBy.finish (h : s.EndsBy p device t bound) (hl : Locked s) {u : TaskId} {w : Wait}
    (hw : s.caller u = some (.awaiting w)) (r : CommandOutcome) :
    (s.finish u w r).caller t = none ∨ (s.finish u w r).EndsBy p device t bound := by
  have hleft : ∀ {v}, v ≠ u → (s.finish u w r).left v = s.left v :=
    fun hv => left_congr (Function.update_of_ne hv _ _) rfl
  by_cases hp : p = w.process ∧ device = w.device
  · obtain ⟨rfl, rfl⟩ := hp
    obtain ⟨ahead, behind, hsplit, hbound⟩ := h
    have hrelease := DeviceLock.line_release (hl.awaiting u w hw)
    have hline : ((s.finish u w r).lock w.process w.device).line =
        (s.lock w.process w.device).release.1.line :=
      congrArg DeviceLock.line (lock_setLock_self _ _ _)
    rw [hsplit] at hrelease
    cases ahead with
    | nil =>
      obtain ⟨rfl, -⟩ := List.cons.inj hrelease
      exact Or.inl (Function.update_self ..)
    | cons v ahead =>
      obtain ⟨rfl, hrest⟩ := List.cons.inj hrelease
      refine Or.inr ⟨ahead, behind, hline.trans hrest.symm, ?_⟩
      have hnodup := hl.nodup w.process w.device
      rw [hsplit, List.cons_append, List.nodup_cons] at hnodup
      have hsame : (ahead ++ [t]).map (s.finish v w r).left = (ahead ++ [t]).map s.left := by
        refine List.map_congr_left fun x hx => hleft ?_
        rintro rfl
        refine hnodup.1 ?_
        rcases List.mem_append.mp hx with hx | hx
        · exact List.mem_append_left _ hx
        · exact List.mem_append_right _ (List.mem_singleton.mp hx ▸ List.mem_cons_self)
      rw [List.cons_append, List.map_cons, List.sum_cons] at hbound
      rw [hsame]
      change s.now + _ ≤ bound
      omega
  · have hlock : (s.finish u w r).lock p device = s.lock p device := if_neg hp
    refine Or.inr (h.mono (l := []) (by rw [hlock, List.append_nil]) rfl fun v hv => hleft ?_)
    rintro rfl
    cases hl.place hv hw
    exact hp ⟨rfl, rfl⟩

/-- A call that stands in line comes to its end in time, whatever happens. -/
theorem endsBy_next {e : Event} (h : s.EndsBy p device t bound) (hl : Locked s) (ht : Timely s)
    (hf : Fresh s) (he : Enabled epoch s e) :
    (next supply epoch s e).caller t = none ∨
      (next supply epoch s e).EndsBy p device t bound := by
  have hquiet : ∀ {s' : State}, s'.lock = s.lock → s'.caller = s.caller → s'.now = s.now →
      s'.EndsBy p device t bound := by
    intro s' hlock hcaller hnow
    refine h.mono (l := []) (by rw [hlock, List.append_nil]) hnow fun u _ => ?_
    exact left_congr (by rw [hcaller]) hnow
  cases e with
  | pass now replies => exact Or.inr (h.pass hl ht he.1 replies)
  | start e =>
    refine Or.inr (h.mono (l := []) (List.append_nil _).symm rfl fun u hu => ?_)
    refine left_congr (Function.update_of_ne ?_ _ _) rfl
    rintro rfl
    obtain ⟨caller, hcaller, -⟩ := hl.stands p device _ hu
    rw [(hf _ (Nat.le_refl _)).1] at hcaller
    cases hcaller
  | ask u e =>
    have hline : ∃ more, ((next supply epoch s (.ask u e)).lock p device).line =
        (s.lock p device).line ++ more := by
      simp only [next, State.setLock]
      split
      · rename_i hp
        rw [hp.1, hp.2]
        exact ⟨[u], DeviceLock.line_acquire (hl.served _ _) u⟩
      · exact ⟨[], (List.append_nil _).symm⟩
    obtain ⟨more, hmore⟩ := hline
    refine Or.inr (h.mono hmore rfl fun v hv => left_congr (Function.update_of_ne ?_ _ _) rfl)
    rintro rfl
    cases hl.place hv he
  | post u e =>
    have hleft : ∀ v, (next supply epoch s (.post u e)).left v = s.left v := by
      intro v
      by_cases hv : v = u
      · subst hv
        have hself : (next supply epoch s (.post v e)).caller v =
            some (.awaiting (s.job supply v e).wait) := Function.update_self ..
        rw [State.left, State.left, hself, he.1]
        change s.now + e.timeout + Cluster.replyGrace - s.now = e.timeout + Cluster.replyGrace
        omega
      · exact left_congr (Function.update_of_ne hv _ _) rfl
    exact Or.inr (h.mono (l := []) (List.append_nil _).symm rfl fun v _ => hleft v)
  | collect u w raw rest =>
    have hover := h.finish hl he.1 (BridgeReply.outcomeOf raw w.device w.command w.timeout)
    exact hover
  | giveUp u w => exact h.finish hl he.1 _
  | _ => exact Or.inr (hquiet rfl rfl rfl)

/-- The line for the lock that a call wants, how long it may take, and then the call. -/
def State.turnBy (s : State) (e : Errand) : Nat :=
  s.now + (((s.lock e.process e.device).line.map s.left).sum + (e.timeout + Cluster.replyGrace))

theorem endsBy_ask {e : Errand} (hl : Locked s) (he : s.caller t = some (.asking e)) :
    (next supply epoch s (.ask t e)).EndsBy e.process e.device t (s.turnBy e) := by
  have hline : ((next supply epoch s (.ask t e)).lock e.process e.device).line =
      (s.lock e.process e.device).line ++ [t] :=
    (congrArg DeviceLock.line (lock_setLock_self _ _ _)).trans
      (DeviceLock.line_acquire (hl.served _ _) t)
  refine ⟨_, [], hline, ?_⟩
  have hahead : ∀ u ∈ (s.lock e.process e.device).line,
      (next supply epoch s (.ask t e)).left u = s.left u := by
    intro u hu
    refine left_congr (Function.update_of_ne ?_ _ _) rfl
    rintro rfl
    cases hl.place hu he
  have hself : (next supply epoch s (.ask t e)).left t = e.timeout + Cluster.replyGrace := by
    rw [State.left, show (next supply epoch s (.ask t e)).caller t = some (.queueing e) from
      Function.update_self ..]
  rw [List.map_append, List.map_congr_left hahead, List.sum_append, List.map_singleton,
    List.sum_singleton, hself]
  exact Nat.le_refl _

theorem caller_aside {x caller : Option Caller} {u : TaskId} (ht : s.caller t = x)
    (hu : s.caller u ≠ x) : Function.update s.caller u caller t = x := by
  rw [Function.update_of_ne _ _ _, ht]
  rintro rfl
  exact hu ht

/-- A call that asks for its lock loses no time over it, and then stands behind who was there. -/
theorem asking_next {e : Errand} {ev : Event} (he : s.caller t = some (.asking e)) (hl : Locked s)
    (hf : Fresh s) (hv : Enabled epoch s ev) :
    ((next supply epoch s ev).caller t = some (.asking e) ∧ (next supply epoch s ev).now = s.now) ∨
      (next supply epoch s ev).EndsBy e.process e.device t (s.turnBy e) := by
  cases ev with
  | pass now replies => exact Or.inl ⟨he, hv.1.asking t e he⟩
  | start other =>
    exact Or.inl ⟨caller_aside he (by rw [(hf _ (Nat.le_refl _)).1]; rintro ⟨⟩), rfl⟩
  | ask u other =>
    by_cases hu : t = u
    · subst hu
      obtain rfl : e = other := Caller.asking.inj (Option.some.inj (he.symm.trans hv))
      exact Or.inr (endsBy_ask hl he)
    · exact Or.inl ⟨(Function.update_of_ne hu _ _).trans he, rfl⟩
  | post u other | collect u w raw rest | giveUp u w =>
    exact Or.inl ⟨caller_aside he (by rw [hv.1]; rintro ⟨⟩), rfl⟩
  | _ => exact Or.inl ⟨he, rfl⟩

theorem State.EndsBy.started (h : s.EndsBy p device t bound) (hl : Locked s) (hf : Fresh s) :
    t < s.nextTask := by
  obtain ⟨ahead, behind, hsplit, -⟩ := h
  have hmem : t ∈ (s.lock p device).line :=
    hsplit ▸ List.mem_append_right _ List.mem_cons_self
  obtain ⟨caller, hcaller, -⟩ := hl.stands p device t hmem
  by_contra hlate
  rw [(hf t (Nat.le_of_not_lt hlate)).1] at hcaller
  cases hcaller

/-- A call that is over stays so. -/
theorem over_next {e : Event} (hn : s.caller t = none) (ht : t < s.nextTask)
    (he : Enabled epoch s e) : (next supply epoch s e).caller t = none := by
  cases e with
  | start e => exact (Function.update_of_ne (Nat.ne_of_lt ht) _ _).trans hn
  | ask u e => exact caller_aside hn (by rw [show s.caller u = _ from he]; rintro ⟨⟩)
  | post u e | collect u w raw rest | giveUp u w => exact caller_aside hn (by rw [he.1]; rintro ⟨⟩)
  | _ => exact hn

theorem timely_next {e : Event} (h : Timely s) (he : Enabled epoch s e) :
    Timely (next supply epoch s e) := by
  have hupdate : ∀ {u caller}, (∀ w, caller = some (.awaiting w) → s.now ≤ w.deadline) →
      ∀ t w, Function.update s.caller u caller t = some (.awaiting w) → s.now ≤ w.deadline := by
    intro u caller hc t w hw
    rw [Function.update_apply] at hw
    split at hw
    · exact hc w hw
    · exact h t w hw
  cases e with
  | pass now replies =>
    intro t w hw
    have hlate := he.1.awaiting t w hw
    have hdue := h t w hw
    change now ≤ w.deadline
    omega
  | start e => exact hupdate fun w hw => nomatch hw
  | ask u e => exact hupdate fun w hw => nomatch hw
  | post u e =>
    refine hupdate fun w hw => ?_
    cases hw
    change s.now ≤ s.now + e.timeout + Cluster.replyGrace
    omega
  | collect u w raw rest | giveUp u w => exact hupdate fun w hw => nomatch hw
  | _ => exact h

end

end FleetControl.Traffic
