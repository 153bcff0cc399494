import FleetControl.Proofs.Cluster.Standing

/-! # Waiters that give up

Who waits for a command may stop waiting at any time, as a session does whenever something else
comes first, and the run goes on without it. -/
namespace FleetControl.Cluster.Lifetime

inductive Deed where
  | act (a : Act)
  | quit (t : TaskId)

/-- A waiter gives up. Tasks that keep time limits do not. -/
def quit (c : Cluster) (t : TaskId) : Cluster :=
  match c.tasks.get? t with
  | some (.consumer ..) => c.remove t
  | _ => c

def perform (c : Cluster) : Deed → Cluster
  | .act a => act c a
  | .quit t => quit c t

def course (c : Cluster) : List Deed → Cluster
  | [] => c
  | d :: ds => course (perform c d) ds

def Deed.act? : Deed → Option Act
  | .act a => some a
  | .quit _ => none

/-- How many commands are submitted. -/
def requests (ds : List Deed) : Nat := submissions (ds.filterMap Deed.act?)

theorem course_append (c : Cluster) (ds es : List Deed) :
    course c (ds ++ es) = course (course c ds) es := by
  induction ds generalizing c with
  | nil => rfl
  | cons d ds ih => exact ih (perform c d)

theorem requests_append (ds es : List Deed) : requests (ds ++ es) = requests ds + requests es := by
  rw [requests, List.filterMap_append, submissions_append]
  rfl

theorem requests_cons (d : Deed) (ds : List Deed) :
    requests (d :: ds) = requests [d] + requests ds := requests_append [d] ds

section Quit
variable {c : Cluster}

theorem quit_cases (c : Cluster) (t : TaskId) : quit c t = c ∨
    ∃ p device, c.tasks.get? t = some (.consumer p device) ∧ quit c t = c.remove t := by
  unfold quit
  split
  · exact .inr ⟨_, _, ‹_›, rfl⟩
  · exact .inl rfl

theorem keeping_quit (h : Keeping c) (ht : Tidy c) (t : TaskId) : Keeping (quit c t) := by
  obtain he | ⟨p, device, htask, he⟩ := quit_cases c t
  · rw [he]
    exact h
  · rw [he, ← ht.finish t]
    refine h.finish (descends_refl h.sound) h.process ⟨rfl, rfl, rfl, rfl⟩ rfl rfl
      (fun _ hu _ => hu) fun id due hlimit => ?_
    rw [htask] at hlimit
    cases hlimit

theorem Tidy.quit (h : Tidy c) (t : TaskId) : Tidy (quit c t) := by
  obtain he | ⟨-, -, -, he⟩ := quit_cases c t <;> rw [he]
  · exact h
  · exact h.remove t

theorem perform_same (h : Keeping c) (d : Deed) :
    (perform c d).supply = c.supply ∧ (perform c d).drawn = c.drawn + requests [d] := by
  cases d with
  | act a => exact act_same h a
  | quit t =>
    obtain he | ⟨-, -, -, he⟩ := quit_cases c t <;> rw [perform, he] <;> exact ⟨rfl, rfl⟩

/-- The first thing that happens in a run, with the identifiers of the whole run apart. -/
theorem perform_first (h : Keeping c) (ht : Tidy c) {d : Deed} {ds : List Deed}
    (hids : Apart c.supply (c.drawn + requests (d :: ds))) :
    Apart c.supply (c.drawn + requests [d]) ∧ Keeping (perform c d) ∧ Tidy (perform c d) ∧
      Apart (perform c d).supply ((perform c d).drawn + requests ds) := by
  rw [requests_cons] at hids
  have hfirst := hids.mono (show c.drawn + requests [d] ≤ _ by omega)
  obtain ⟨hsupply, hdrawn⟩ := perform_same h d
  rw [hsupply, hdrawn, Nat.add_assoc]
  refine ⟨hfirst, ?_, ?_, hids⟩
  · cases d with
    | act a => exact keeping_act h hfirst
    | quit t => exact keeping_quit h ht t
  · cases d with
    | act a => exact ht.act h a
    | quit t => exact ht.quit t

theorem course_keeps {ds : List Deed} (h : Keeping c) (ht : Tidy c)
    (hids : Apart c.supply (c.drawn + requests ds)) :
    Keeping (course c ds) ∧ Tidy (course c ds) ∧ (course c ds).supply = c.supply ∧
      (course c ds).drawn = c.drawn + requests ds := by
  induction ds generalizing c with
  | nil => exact ⟨h, ht, rfl, rfl⟩
  | cons d ds ih =>
    obtain ⟨-, hkeep, htidy, hrest⟩ := perform_first h ht hids
    obtain ⟨hkeep, htidy, hs, hn⟩ := ih hkeep htidy hrest
    obtain ⟨hsupply, hdrawn⟩ := perform_same h d
    refine ⟨hkeep, htidy, hs.trans hsupply, hn.trans ?_⟩
    rw [hdrawn, requests_cons d ds, Nat.add_assoc]

end Quit

end FleetControl.Cluster.Lifetime
