import FleetControl.Proofs.Bridge.Workers

/-! # Workers follow connections

Connections of any devices are registered and unregistered in any order. Each of these changes is
followed by a sync for its device, at any later moment and behind any others, while calls, workers
and heartbeats go on. -/
namespace FleetControl.Cluster.Convergence

/-- A cluster, with the syncs that are under way or have yet to come. -/
structure State where
  cluster : Cluster
  /-- The sync that has the lock of each process: its device, and whether the process held one of
  its connections when the sync looked. -/
  seen : Nat → Option (String × Bool) := fun _ => none
  /-- The changes whose sync has not begun yet. -/
  owed : List (Nat × String) := []

inductive Act where
  | register (p : Nat) (device : String) (conn : Uuid)
  | unregister (p : Nat) (device : String) (conn : Uuid)
  /-- A sync gets the lock of its process, if it is free, and looks at the connections. -/
  | look (p : Nat) (device : String)
  /-- The sync that has the lock starts or stops its worker and gives the lock back. -/
  | settle (p : Nat)
  /-- Anything else, short of a new process or a session. -/
  | event (e : Event)

def act (s : State) : Act → State
  | .register p device conn =>
    { s with cluster := (s.cluster.register p device conn).1, owed := (p, device) :: s.owed }
  | .unregister p device conn =>
    { s with cluster := (s.cluster.unregister p device conn).1, owed := (p, device) :: s.owed }
  | .look p device =>
    match s.seen p with
    | some _ => s
    | none =>
      { s with
        seen := Function.update s.seen p (some (device, s.cluster.hasLocal p device))
        owed := s.owed.erase (p, device) }
  | .settle p =>
    match s.seen p with
    | some (device, wanted) =>
      { s with
        cluster := s.cluster.staff p device wanted
        seen := Function.update s.seen p none }
    | none => s
  | .event e => if e.opens then s else { s with cluster := happen s.cluster e }

def play (s : State) : List Act → State
  | [] => s
  | a :: as => play (act s a) as

/-- A connection is registered for a device and has not been unregistered since. -/
def Open (as : List Act) (p : Nat) (device : String) (conn : Uuid) : Prop :=
  ∃ before after, as = before ++ .register p device conn :: after ∧
    .unregister p device conn ∉ after

theorem open_cons (a : Act) (as : List Act) (p : Nat) (device : String) (conn : Uuid) :
    Open (a :: as) p device conn ↔
      (a = .register p device conn ∧ .unregister p device conn ∉ as) ∨ Open as p device conn := by
  constructor
  · rintro ⟨before, after, heq, hafter⟩
    cases before with
    | nil =>
      obtain ⟨rfl, rfl⟩ := List.cons.inj heq
      exact Or.inl ⟨rfl, hafter⟩
    | cons b before =>
      obtain ⟨rfl, rfl⟩ := List.cons.inj heq
      exact Or.inr ⟨before, after, rfl, hafter⟩
  · rintro (⟨rfl, has⟩ | ⟨before, after, rfl, hafter⟩)
    · exact ⟨[], as, rfl, has⟩
    · exact ⟨a :: before, after, rfl, hafter⟩

/-- A sync for a device has yet to begin or is under way. -/
def State.Outstanding (s : State) (p : Nat) (device : String) : Prop :=
  (p, device) ∈ s.owed ∨ ∃ wanted, s.seen p = some (device, wanted)

/-- What a sync has seen is still so unless another one follows, and without any outstanding the
worker is in step. -/
structure Steady (s : State) : Prop where
  staffed : Staffed s.cluster
  has : ∀ p device, s.seen p = some (device, true) → s.cluster.processes.has p = true
  seen : ∀ p device wanted, s.seen p = some (device, wanted) → (p, device) ∉ s.owed →
    wanted = s.cluster.hasLocal p device
  settled : ∀ p device, ¬ s.Outstanding p device →
    (s.cluster.Runs p device ↔ s.cluster.hasLocal p device = true)

section Steady
variable {s : State}

/-- A change of connections of a device, for which a sync is now owed. -/
theorem Steady.change (h : Steady s) {p : Nat} {device : String} {c : Cluster} (hc : Staffed c)
    (hhas : ∀ q, c.processes.has q = s.cluster.processes.has q)
    (hruns : ∀ q other, c.Runs q other ↔ s.cluster.Runs q other)
    (hothers : ∀ q other, ¬ (q = p ∧ other = device) →
      c.hasLocal q other = s.cluster.hasLocal q other) :
    Steady { s with cluster := c, owed := (p, device) :: s.owed } where
  staffed := hc
  has q other hseen := (hhas q).trans (h.has q other hseen)
  seen q other wanted hseen howed := by
    rw [List.mem_cons, not_or, Prod.mk.injEq] at howed
    exact (h.seen q other wanted hseen howed.2).trans (hothers q other howed.1).symm
  settled q other hnone := by
    rw [State.Outstanding, List.mem_cons, or_assoc, not_or, Prod.mk.injEq] at hnone
    rw [hruns, hothers q other hnone.1]
    exact h.settled q other hnone.2

theorem Steady.look (h : Steady s) {p : Nat} (hfree : s.seen p = none) (device : String) :
    Steady { s with
      seen := Function.update s.seen p (some (device, s.cluster.hasLocal p device))
      owed := s.owed.erase (p, device) } := by
  -- The syncs of other devices are owed as before.
  have howed : ∀ {q other}, ¬ (q = p ∧ other = device) →
      ((q, other) ∈ s.owed.erase (p, device) ↔ (q, other) ∈ s.owed) := by
    intro q other hne
    exact List.mem_erase_of_ne fun he => hne (Prod.mk.inj he)
  have hlater : ∀ {q other wanted},
      Function.update s.seen p (some (device, s.cluster.hasLocal p device)) q =
        some (other, wanted) →
      (q = p ∧ other = device ∧ wanted = s.cluster.hasLocal p device) ∨
        q ≠ p ∧ s.seen q = some (other, wanted) := by
    intro q other wanted he
    by_cases hq : q = p
    · subst hq
      rw [Function.update_self, Option.some_inj, Prod.mk.injEq] at he
      exact Or.inl ⟨rfl, he.1.symm, he.2.symm⟩
    · rw [Function.update_of_ne hq] at he
      exact Or.inr ⟨hq, he⟩
  refine ⟨h.staffed, fun q other hseen => ?_, fun q other wanted hseen hnone => ?_,
    fun q other hnone => ?_⟩
  · rcases hlater hseen with ⟨rfl, rfl, hw⟩ | ⟨-, hseen⟩
    · exact has_of_hasLocal hw.symm
    · exact h.has q other hseen
  · rcases hlater hseen with ⟨rfl, rfl, hw⟩ | ⟨hq, hseen⟩
    · exact hw
    · exact h.seen q other wanted hseen fun hmem => hnone ((howed fun he => hq he.1).mpr hmem)
  · have hne : ¬ (q = p ∧ other = device) := by
      rintro ⟨rfl, rfl⟩
      exact hnone (Or.inr ⟨_, Function.update_self ..⟩)
    refine h.settled q other fun hout => hnone ?_
    refine hout.imp (howed hne).mpr ?_
    rintro ⟨wanted, hseen⟩
    have hq : q ≠ p := by
      rintro rfl
      rw [hfree] at hseen
      cases hseen
    exact ⟨wanted, (Function.update_of_ne hq ..).trans hseen⟩

theorem Steady.settle (h : Steady s) {p : Nat} {device : String} {wanted : Bool}
    (hseen : s.seen p = some (device, wanted)) :
    Steady { s with
      cluster := s.cluster.staff p device wanted
      seen := Function.update s.seen p none } := by
  have hstaffs := h.staffed.staff p device wanted fun hw => h.has p device (hw ▸ hseen)
  have hlocal : ∀ q other, (s.cluster.staff p device wanted).hasLocal q other =
      s.cluster.hasLocal q other :=
    fun q other => congrArg (·.hasLocal other) (hstaffs.connectionsOf q)
  have hlater : ∀ {q e}, Function.update s.seen p none q = some e → s.seen q = some e := by
    intro q e he
    by_cases hq : q = p
    · subst hq
      rw [Function.update_self] at he
      cases he
    · rwa [Function.update_of_ne hq] at he
  refine ⟨hstaffs.staffed, fun q other he => ?_, fun q other w he hnone => ?_,
    fun q other hnone => ?_⟩
  · exact (hstaffs.has q).trans (h.has q other (hlater he))
  · exact (h.seen q other w (hlater he) hnone).trans (hlocal q other).symm
  · rw [hstaffs.runs, hlocal]
    split
    · rename_i hq
      obtain ⟨rfl, rfl⟩ := hq
      rw [h.seen q other wanted hseen fun hmem => hnone (Or.inl hmem)]
    · rename_i hne
      refine h.settled q other fun hout => hnone (hout.imp_right ?_)
      rintro ⟨w, hw⟩
      have hq : q ≠ p := by
        rintro rfl
        rw [hseen, Option.some_inj, Prod.mk.injEq] at hw
        exact hne ⟨rfl, hw.1.symm⟩
      exact ⟨w, (Function.update_of_ne hq ..).trans hw⟩

end Steady

section Step
variable {s : State}

theorem steady_act (h : Steady s) (a : Act) : Steady (act s a) := by
  cases a with
  | register p device conn =>
    refine h.change (h.staffed.register p device conn) (fun q => ?_) (fun _ _ => Iff.rfl)
      fun q other hne => hasLocal_setConnections (fun other ho => ?_) hne
    · exact Table.has_of_keys (keys_updateProcess s.cluster p _) q
    · exact Connections.hasLocal_register_of_ne _ ho conn
  | unregister p device conn =>
    refine h.change (h.staffed.unregister p device conn) (fun q => ?_) (fun _ _ => Iff.rfl)
      fun q other hne => hasLocal_setConnections (fun other ho => ?_) hne
    · exact Table.has_of_keys (keys_updateProcess s.cluster p _) q
    · exact Connections.hasLocal_unregister_of_ne _ ho conn
  | look p device =>
    simp only [act]
    split
    · exact h
    · rename_i hfree
      exact h.look hfree device
  | settle p =>
    simp only [act]
    split
    · rename_i hseen
      exact h.settle hseen
    · exact h
  | event e =>
    simp only [act]
    split
    · exact h
    · rename_i he
      have hunmoved := h.staffed.happen (eq_false_of_ne_true he)
      refine ⟨hunmoved.staffed, fun p device hseen => ?_, fun p device wanted hseen hnone => ?_,
        fun p device hnone => ?_⟩
      · exact (hunmoved.has p).trans (h.has p device hseen)
      · exact (h.seen p device wanted hseen hnone).trans (hunmoved.hasLocal p device).symm
      · exact (hunmoved.runs p device).trans
          ((h.settled p device hnone).trans (by rw [hunmoved.hasLocal]))

theorem steady_play (h : Steady s) (as : List Act) : Steady (play s as) := by
  induction as generalizing s with
  | nil => exact h
  | cons a as ih => exact ih (steady_act h a)

theorem has_act (h : Steady s) (a : Act) (p : Nat) :
    (act s a).cluster.processes.has p = s.cluster.processes.has p := by
  cases a with
  | register q device conn => exact Table.has_of_keys (keys_updateProcess s.cluster q _) p
  | unregister q device conn => exact Table.has_of_keys (keys_updateProcess s.cluster q _) p
  | look q device =>
    simp only [act]
    split <;> rfl
  | settle q =>
    simp only [act]
    split
    · rename_i hseen
      exact (h.staffed.staff q _ _ fun hw => h.has q _ (hw ▸ hseen)).has p
    · rfl
  | event e =>
    simp only [act]
    split
    · rfl
    · rename_i he
      exact (h.staffed.happen (eq_false_of_ne_true he)).has p

/-- Connections change in their own acts only. -/
theorem mem_act (h : Steady s) {p : Nat} (hp : s.cluster.processes.has p = true) (a : Act)
    (device : String) (conn : Uuid) :
    conn ∈ ((act s a).cluster.connectionsOf p).of device ↔
      a = .register p device conn ∨
        conn ∈ (s.cluster.connectionsOf p).of device ∧ a ≠ .unregister p device conn := by
  have hsame : (act s a).cluster.connectionsOf p = s.cluster.connectionsOf p →
      a ≠ .register p device conn → a ≠ .unregister p device conn →
      (conn ∈ ((act s a).cluster.connectionsOf p).of device ↔ a = .register p device conn ∨
        conn ∈ (s.cluster.connectionsOf p).of device ∧ a ≠ .unregister p device conn) := by
    intro heq hreg hunreg
    rw [heq]
    simp [hreg, hunreg]
  cases a with
  | register q other x =>
    refine (mem_of_register hp).trans ?_
    grind
  | unregister q other x =>
    refine (mem_of_unregister hp).trans ?_
    grind
  | look q other =>
    refine hsame ?_ Act.noConfusion Act.noConfusion
    simp only [act]
    split <;> rfl
  | settle q =>
    refine hsame ?_ Act.noConfusion Act.noConfusion
    simp only [act]
    split
    · rename_i hseen
      exact (h.staffed.staff q _ _ fun hw => h.has q _ (hw ▸ hseen)).connectionsOf p
    · rfl
  | event e =>
    refine hsame ?_ Act.noConfusion Act.noConfusion
    simp only [act]
    split
    · rfl
    · rename_i he
      exact (h.staffed.happen (eq_false_of_ne_true he)).connectionsOf p

/-- The connections of a device are those that are open, and those from before that still are. -/
theorem mem_play (h : Steady s) {p : Nat} (hp : s.cluster.processes.has p = true) (as : List Act)
    (device : String) (conn : Uuid) :
    conn ∈ ((play s as).cluster.connectionsOf p).of device ↔
      Open as p device conn ∨
        conn ∈ (s.cluster.connectionsOf p).of device ∧ .unregister p device conn ∉ as := by
  induction as generalizing s with
  | nil => simp [play, Open]
  | cons a as ih =>
    rw [play, ih (steady_act h a) ((has_act h a p).trans hp), mem_act h hp, open_cons,
      List.mem_cons, not_or]
    constructor
    · rintro (hopen | ⟨hreg | ⟨hmem, hne⟩, hnone⟩)
      · exact Or.inl (Or.inr hopen)
      · exact Or.inl (Or.inl ⟨hreg, hnone⟩)
      · exact Or.inr ⟨hmem, Ne.symm hne, hnone⟩
    · rintro ((⟨hreg, hnone⟩ | hopen) | ⟨hmem, hne, hnone⟩)
      · exact Or.inr ⟨Or.inl hreg, hnone⟩
      · exact Or.inl hopen
      · exact Or.inr ⟨Or.inr ⟨hmem, Ne.symm hne⟩, hnone⟩

end Step

theorem steady_running (supply : Supply) (epoch : Nat) (settings : List ServerSettings) :
    Steady { cluster := running supply epoch settings } where
  staffed := staffed_running supply epoch settings
  has _ _ hseen := nomatch hseen
  seen _ _ _ hseen _ := nomatch hseen
  settled p device _ := by
    have hlocal : (running supply epoch settings).hasLocal p device = false := by
      rw [hasLocal, connectionsOf_running]
      rfl
    rw [hlocal, (staffed_running supply epoch settings).runs_iff, workerOf?, get?_running]
    cases settings[p]? <;> simp [Process.fresh, Table.get?]

/-- At every moment a process holds a connection of a device exactly if one is open, and has at most
one worker for it; and when no sync for the device is outstanding, a worker runs exactly if a
connection is held. -/
theorem workers_converge (supply : Supply) (epoch : Nat) (settings : List ServerSettings)
    (as : List Act) {p : Nat} (hp : p < settings.length) (device : String) :
    let s := play { cluster := running supply epoch settings } as
    (s.cluster.hasLocal p device = true ↔ ∃ conn, Open as p device conn) ∧
      (∀ t u, s.cluster.WorksFor t p device → s.cluster.WorksFor u p device → t = u) ∧
      (¬ s.Outstanding p device →
        (s.cluster.Runs p device ↔ s.cluster.hasLocal p device = true)) := by
  have hrunning := steady_running supply epoch settings
  have hsteady := steady_play hrunning as
  refine ⟨?_, fun _ _ ht hu => hsteady.staffed.one ht hu, hsteady.settled p device⟩
  rw [hsteady.staffed.hasLocal_iff]
  refine exists_congr fun conn => ?_
  rw [mem_play hrunning ((has_running supply epoch settings).mpr hp), connectionsOf_running]
  exact or_iff_left fun h => nomatch h.1

/-- Two connections of a device overlap, and the sync of the first one begins when the second one
has come and the first one has gone. -/
def overlapping : List Act :=
  [.register 0 "d" ⟨1⟩, .register 0 "d" ⟨2⟩, .unregister 0 "d" ⟨1⟩, .look 0 "d", .settle 0,
    .event (.turn 0), .look 0 "d", .settle 0, .unregister 0 "d" ⟨2⟩, .register 0 "d" ⟨3⟩,
    .look 0 "d", .settle 0, .look 0 "d", .settle 0, .look 0 "d", .settle 0]

theorem workers_converge_overlapping :
    let s := play { cluster := running ⟨Uuid.numbered 1, toString⟩ 0 [.ofConfig {}] } overlapping
    ¬ s.Outstanding 0 "d" ∧ (∃ conn, Open overlapping 0 "d" conn) ∧ s.cluster.Runs 0 "d" := by
  obtain ⟨hopen, -, hsettled⟩ := workers_converge ⟨Uuid.numbered 1, toString⟩ 0 [.ofConfig {}]
    overlapping Nat.zero_lt_one "d"
  set s := play { cluster := running ⟨Uuid.numbered 1, toString⟩ 0 [.ofConfig {}] } overlapping
    with hs
  have hlocal : s.cluster.hasLocal 0 "d" = true := by decide +kernel
  obtain ⟨howed, hseen⟩ : s.owed = [] ∧ s.seen 0 = none := by decide +kernel
  have hdone : ¬ s.Outstanding 0 "d" := by
    rw [State.Outstanding, howed, hseen]
    simp
  exact ⟨hdone, hopen.mp hlocal, (hsettled hdone).mpr hlocal⟩

end FleetControl.Cluster.Convergence
