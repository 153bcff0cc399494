import FleetControl.Proofs.Bridge.Enqueuing

/-! # Dispatch once at most

Whatever the order of the turns, a job gets into one engine once at most, and in time; a call is
told what was said of its own job; and the jobs of a process for a device come one by one. -/
namespace FleetControl.Cluster.Bridging
open Lifetime (Apart)
open Traffic (Errand History)

section
variable (supply : Supply) (epoch : Nat) (settings : List ServerSettings)

/-- At any point of a run, an engine moves as the history says that it does. -/
theorem moves_within {as : List Act}
    (hfits : (play (running supply epoch settings) as).wall < 2 ^ 63) {before after : List Act}
    {a : Act} (has : as = before ++ a :: after) (p : Nat) :
    Moves (play (running supply epoch settings) before)
      (chronicle (running supply epoch settings) {} before) a p := by
  rw [has, play_append] at hfits
  have hfit := fit_play (fit_running supply epoch settings) before
  have hbefore := Nat.lt_of_le_of_lt (wall_le_play hfit (a :: after)) hfits
  exact moves (recorded_play (recorded_running supply epoch settings) hbefore) hbefore a p

/-- Processes bridge commands in any order of their steps. An engine changes by its own devices, by
time limits, and by the commands queued in it for jobs; each job is queued once, for its device and
before it is due. Each call posts one job and is told what was left for it, which is what was said
of what was queued for it, or a refusal. In one process the jobs for a device are posted as the
calls get its lock, and queued in that order; one of them at most is neither due nor answered. -/
theorem dispatched_once (as : List Act)
    (hids : Apart supply (play (running supply epoch settings) as).drawn)
    (hfits : (play (running supply epoch settings) as).wall < 2 ^ 63) :
    let start := running supply epoch settings
    let c := play start as
    let h := chronicle start {} as
    (∀ before a after, as = before ++ a :: after →
        ∀ p, Moves (play start before) (chronicle start {} before) a p) ∧
      ((h.queued.map (·.job)).Nodup ∧
        ∀ q ∈ h.queued, ∃ j ∈ h.posted, j.id = q.job ∧ j.device = q.device ∧ q.time < j.due) ∧
      ((h.posted.map (·.id)).Nodup ∧ (h.posted.map (·.task)).Nodup ∧
        (∀ t r, (t, .answer r) ∈ c.results → ∃ j ∈ h.posted, j.task = t ∧ j.MayGet h r) ∧
        ∀ job, ∀ text ∈ h.answers job,
          (∃ kind words, text = (BridgeReply.failure kind words).text) ∨
            ∃ q ∈ h.queued, q.job = job ∧ ∃ outcome ∈ h.verdicts q.process q.id,
              text = (BridgeReply.ofOutcome outcome).text) ∧
      (∀ p device, ((h.postedAt p device).map (·.task)) <+: h.grants p device ∧
        ((h.queued.map (·.job)).filter fun id => id ∈ (h.postedAt p device).map (·.id)).Sublist
          ((h.postedAt p device).map (·.id))) ∧
      ∀ j ∈ h.posted, ∀ k ∈ h.posted, j.process = k.process → j.device = k.device →
        c.now < j.due → c.now < k.due → h.answers j.id = [] → h.answers k.id = [] → j = k := by
  have hr := recorded_play (recorded_running supply epoch settings) hfits
  have hsupply : (play (running supply epoch settings) as).supply = supply := by
    rw [supply_play (fit_running supply epoch settings) as, running_eq]
    rfl
  have hnodup := Traffic.nodup_ids (hsupply ▸ hr.numbered) hids
  refine ⟨fun before a after has => moves_within supply epoch settings hfits has,
    ⟨hr.carried.nodup_queued hnodup, hr.carried.prompt⟩,
    ⟨hnodup, hr.single.once, hr.settled.results, hr.answered.sources⟩,
    fun p device => ⟨?_, hr.carried.queued_in_order hnodup p device⟩,
    fun j hj k hk => hr.settled.alone hr.fit.locked hnodup hj hk⟩
  rw [hr.granted p device]
  exact List.prefix_append _ _

end

/-- Two processes that have just started. -/
def pair : Cluster := running ⟨Uuid.numbered 1, toString⟩ 0 [.ofConfig {}, .ofConfig {}]

/-- A device connects to one process, and the other one has a listing of it taken. -/
def taken : List Act :=
  [.register 0 "d" ⟨7⟩, .sync 0 "d", .turn 0, .submit ⟨1, "d", .shell "ls", none, 1000⟩, .turn 1,
    .turn 1, .turn 0]

/-- The device says that it cannot. -/
def refused : List Act :=
  let engine := (play pair taken).engine 0
  let id := Uuid.numbered 1 1
  taken ++ [.serve 0 id (engine.resolve id (.error (.device "d" "ls" "full"))), .turn 3, .turn 1]

/-- A listing is queued once, in time, and its call is told of it. -/
theorem dispatched_once_refused :
    let h := chronicle pair {} refused
    (∀ p, Moves (play pair (taken.take 6)) (chronicle pair {} (taken.take 6)) (.turn 0) p) ∧
      h.queued.map (·.job) = [Uuid.numbered 1 0] ∧
      (h.queued.map (·.job)).Nodup ∧
      (∃ q ∈ h.queued, ∃ j ∈ h.posted, j.id = q.job ∧ j.device = q.device ∧ q.time < j.due) ∧
      ∃ r, (1, .answer r) ∈ (play pair refused).results ∧
        ∃ j ∈ h.posted, j.task = 1 ∧ j.MayGet h r := by
  obtain ⟨hdrawn, hwall, hqueued, htold⟩ :
      (play pair refused).drawn = 2 ∧ (play pair refused).wall < 2 ^ 63 ∧
        (chronicle pair {} refused).queued.map (·.job) = [Uuid.numbered 1 0] ∧
        (play pair refused).results.any (fun | (t, .answer _) => t == 1 | _ => false) = true := by
    decide +kernel
  have hapart : Apart ⟨Uuid.numbered 1, toString⟩ (play pair refused).drawn := by
    rw [hdrawn]
    intro i j hij hj
    obtain ⟨rfl, rfl⟩ : i = 0 ∧ j = 1 := by omega
    decide
  obtain ⟨hmoves, ⟨honce, hprompt⟩, ⟨-, -, hresults, -⟩, -⟩ :=
    dispatched_once ⟨Uuid.numbered 1, toString⟩ 0 [.ofConfig {}, .ofConfig {}] refused hapart hwall
  refine ⟨hmoves _ _ _ rfl, hqueued, honce, ?_, ?_⟩
  · obtain ⟨q, hq, -⟩ := List.mem_map.mp (hqueued ▸ List.mem_cons_self)
    exact ⟨q, hq, hprompt q hq⟩
  · obtain ⟨⟨t, x⟩, hx, ht⟩ := List.any_eq_true.mp htold
    cases x with
    | answer r =>
      obtain rfl : t = 1 := beq_iff_eq.mp ht
      exact ⟨r, hx, hresults 1 r hx⟩
    | _ => cases ht

end FleetControl.Cluster.Bridging
