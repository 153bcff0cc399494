import FleetControl.Proofs.Bridge.AtMostOnce

/-! # How long a bridged call waits

A call that finds the lock of its device free is over after its time limit and some grace. One that
finds others there waits for them first, and each of them has a time limit of its own: a call may
well wait for longer than its own limit allows. -/
namespace FleetControl.Cluster.Bridging
open Traffic (Errand)

section
variable {c : Cluster} {t : TaskId}

theorem nextTask_le_act (h : Fit c) (a : Act) : c.nextTask ≤ (act c a).nextTask := by
  obtain ⟨e, he, -, hnext⟩ := (advances h a).follows
  have hsame : (act c a).nextTask = (Traffic.next c.supply c.epoch c.traffic e).nextTask :=
    congrArg (·.nextTask) hnext
  rw [hsame]
  exact Traffic.nextTask_le_next he

theorem over_play (h : Fit c) (hn : c.traffic.caller t = none) (ht : t < c.nextTask)
    (as : List Act) : (play c as).traffic.caller t = none := by
  induction as generalizing c with
  | nil => exact hn
  | cons a as ih =>
    obtain ⟨e, he, -, hnext⟩ := (advances h a).follows
    have hnone : (act c a).traffic.caller t = none := hnext ▸ Traffic.over_next hn ht he
    exact ih (fit_act h a) hnone (Nat.lt_of_lt_of_le ht (nextTask_le_act h a))

/-- Who stands in line ends in time, however a run goes on. -/
theorem endsBy_play {p : Nat} {device : String} {bound : Nat} (h : Fit c)
    (hends : c.traffic.EndsBy p device t bound) (as : List Act) :
    (play c as).traffic.caller t = none ∨ (play c as).traffic.EndsBy p device t bound := by
  induction as generalizing c with
  | nil => exact Or.inr hends
  | cons a as ih =>
    have hfresh := h.orderly.fresh
    obtain ⟨e, he, -, hnext⟩ := (advances h a).follows
    have hstep : (act c a).traffic.caller t = none ∨
        (act c a).traffic.EndsBy p device t bound := by
      rw [hnext]
      exact Traffic.endsBy_next hends h.locked h.timely hfresh he
    rcases hstep with hnone | hends
    · have hstarted : t < c.nextTask := hends.started h.locked hfresh
      exact Or.inl (over_play (fit_act h a) hnone
        (Nat.lt_of_lt_of_le hstarted (nextTask_le_act h a)) as)
    · exact ih (fit_act h a) hends

/-- A call asks for its lock at the instant at which it is made, and ends when its turn has come
and gone. -/
theorem asking_play {e : Errand} (h : Fit c) (he : c.traffic.caller t = some (.asking e))
    (as : List Act) : (play c as).now = c.now ∨ (play c as).traffic.caller t = none ∨
      ∃ between after, as = between ++ after ∧ (play c between).now = c.now ∧
        (play c between).traffic.caller t = some (.asking e) ∧
        (play c as).traffic.EndsBy e.process e.device t ((play c between).traffic.turnBy e) := by
  induction as generalizing c with
  | nil => exact Or.inl rfl
  | cons a as ih =>
    obtain ⟨event, hevent, -, hnext⟩ := (advances h a).follows
    have hfit := fit_act h a
    have hstep : ((act c a).traffic.caller t = some (.asking e) ∧
          (act c a).traffic.now = c.traffic.now) ∨
        (act c a).traffic.EndsBy e.process e.device t (c.traffic.turnBy e) := by
      rw [hnext]
      exact Traffic.asking_next he h.locked h.orderly.fresh hevent
    -- It joins the line in the first act after which it does not ask any more.
    rcases hstep with ⟨hasks, hnow⟩ | hends
    · have hsame : (act c a).now = c.now := hnow
      rcases ih hfit hasks with hstill | hover | ⟨between, after, rfl, hjoins, hlast, hends⟩
      · exact Or.inl (hstill.trans hsame)
      · exact Or.inr (Or.inl hover)
      · exact Or.inr (Or.inr ⟨a :: between, after, rfl, hjoins.trans hsame, hlast, hends⟩)
    · exact Or.inr ((endsBy_play hfit hends as).imp_right fun hends =>
        ⟨[], a :: as, rfl, rfl, he, hends⟩)

end

section
variable (supply : Supply) (epoch : Nat) (settings : List ServerSettings)

theorem caller_submit (c : Cluster) {e : Errand} (hp : c.processes.has e.process = true) :
    (act c (.submit e)).traffic.caller c.nextTask = some (.asking e) := by
  have hact : act c (.submit e) = (c.spawn (Traffic.Caller.asking e).task).1 := if_pos hp
  rw [hact, c.traffic_spawn]
  exact (Function.update_self ..).trans (Traffic.Caller.caller_task _)

/-- A call that still waits does so at the instant at which it was made, or it has found a line of
calls for the lock of its device at that instant. Then not more time has passed than they could
still take, its time limit and the grace. -/
theorem waits_in_line (before as : List Act) (e : Errand)
    (hp : (play (running supply epoch settings) before).processes.has e.process = true) :
    let made := play (running supply epoch settings) before
    let started := act made (.submit e)
    let c := play started as
    c.traffic.caller made.nextTask ≠ none → c.now = made.now ∨
      ∃ between after, as = between ++ after ∧
        let joins := play started between
        joins.now = made.now ∧ joins.traffic.caller made.nextTask = some (.asking e) ∧
          c.now ≤ made.now +
            (((joins.lock e.process e.device).line.map joins.traffic.left).sum +
              (e.timeout + replyGrace)) := by
  intro made started c hwaits
  have hfit : Fit made := fit_play (fit_running supply epoch settings) before
  have hstarted : started.now = made.now := congrArg (·.now) (if_pos hp : started = _)
  have hasks : started.traffic.caller made.nextTask = some (.asking e) := caller_submit made hp
  rcases asking_play (fit_act hfit _) hasks as with hstill | hover |
    ⟨between, after, hsplit, hjoins, hlast, hends⟩
  · exact Or.inl (hstill.trans hstarted)
  · exact absurd hover hwaits
  · refine Or.inr ⟨between, after, hsplit, hjoins.trans hstarted, hlast, ?_⟩
    obtain ⟨ahead, behind, -, hbound⟩ := hends
    rw [← hstarted, ← hjoins]
    exact Nat.le_trans (Nat.le_add_right _ _) hbound

end

/-- A call gets the lock of a device that is not connected anywhere. -/
def ahead : List Act := [.submit ⟨1, "d", .shell "ls", none, 1000⟩, .turn 0]

def second : Errand := ⟨1, "d", .shell "pwd", none, 1000⟩

/-- The first call posts its job and gives up, and the second one gets its turn. -/
def behind : List Act :=
  [.turn 1, .turn 0, .turn 0, .pass 3000, .turn 0, .turn 1, .turn 1, .pass 1]

/-- The second of two calls waits for at most both time limits and graces. -/
theorem waits_in_line_second :
    let made := play pair ahead
    let started := act made (.submit second)
    let c := play started behind
    made.processes.has 1 = true ∧ c.traffic.caller made.nextTask ≠ none ∧
      ∃ between after, behind = between ++ after ∧
        let joins := play started between
        joins.now = made.now ∧ joins.traffic.caller made.nextTask = some (.asking second) ∧
          c.now ≤ made.now +
            (((joins.lock 1 "d").line.map joins.traffic.left).sum + (1000 + replyGrace)) := by
  have hruns : (play pair ahead).processes.has 1 = true := by decide +kernel
  obtain ⟨hwaits, hlate⟩ :
      (play (act (play pair ahead) (.submit second)) behind).traffic.caller
          (play pair ahead).nextTask ≠ none ∧
        (play (act (play pair ahead) (.submit second)) behind).now ≠ (play pair ahead).now := by
    decide +kernel
  have hline := waits_in_line ⟨Uuid.numbered 1, toString⟩ 0 [.ofConfig {}, .ofConfig {}] ahead
    behind second hruns hwaits
  exact ⟨hruns, hwaits, hline.resolve_left hlate⟩

/-- Calls do wait for longer than their own time limit and the grace. -/
theorem waits_past_limit :
    ¬ ∀ (supply : Supply) (epoch : Nat) (settings : List ServerSettings) (before as : List Act)
      (e : Errand), (play (running supply epoch settings) before).processes.has e.process = true →
      let made := play (running supply epoch settings) before
      let c := play (act made (.submit e)) as
      c.traffic.caller made.nextTask ≠ none → c.now ≤ made.now + (e.timeout + replyGrace) := by
  intro h
  have hover := h ⟨Uuid.numbered 1, toString⟩ 0 [.ofConfig {}, .ofConfig {}] ahead behind second
    (by decide +kernel) (by decide +kernel)
  exact absurd hover (by decide +kernel)

end FleetControl.Cluster.Bridging
