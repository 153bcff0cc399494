import FleetControl.Proofs.Bridge.Disposal
import FleetControl.Proofs.Bridge.Locks
import FleetControl.Proofs.Cluster.Lifetime

/-! # Jobs on their way

A job has an identifier of its own. It travels on the list of its device until a worker takes it
off, once, and is queued in time or not at all; the replies to it come from what was queued for
it, and only its caller gets them. -/
namespace FleetControl.Traffic
open Cluster.Lifetime (Apart)

/-- The jobs for a device, whichever process has posted them. -/
def History.postedFor (h : History) (device : String) : List Job :=
  h.posted.filter fun j => device = j.device

/-- The jobs that were queued for a device, in whichever process. -/
def History.queuedFor (h : History) (device : String) : List Queued :=
  h.queued.filter fun q => device = q.device

/-- Jobs are numbered in the order in which they are posted. -/
def Numbered (supply : Supply) (s : State) (h : History) : Prop :=
  ∃ ks : List Nat, ks.Pairwise (· < ·) ∧ (∀ k ∈ ks, k < s.drawn) ∧
    h.posted.map (·.id) = ks.map supply.idOf

/-- A list holds the jobs for its device that no worker has taken off, in order. What was queued
of those that are gone was queued in order, and in time. -/
structure Carried (epoch : Nat) (s : State) (h : History) : Prop where
  lists : ∀ device, ∃ gone left, h.postedFor device = gone ++ left ∧
    s.jobs device = left.map (Job.text epoch) ∧
    ((h.queuedFor device).map (·.job)).Sublist (gone.map (·.id))
  prompt : ∀ q ∈ h.queued, ∃ j ∈ h.posted, j.id = q.job ∧ j.device = q.device ∧ q.time < j.due

/-- What is left for the caller of a job is a refusal, or what an engine has said of the command
that was queued for it. -/
structure Answered (s : State) (h : History) : Prop where
  listed : ∀ job, ∀ text ∈ s.replies job, text ∈ h.answers job
  repliers : ∀ t p id job, s.replier t = some (p, id, job) →
    ∃ q ∈ h.queued, q.process = p ∧ q.id = id ∧ q.job = job
  sources : ∀ job, ∀ text ∈ h.answers job,
    (∃ kind words, text = (BridgeReply.failure kind words).text) ∨
      ∃ q ∈ h.queued, q.job = job ∧
        ∃ outcome ∈ h.verdicts q.process q.id, text = (BridgeReply.ofOutcome outcome).text

/-- What the caller of a job may be told: that time is up, or what was left for it. -/
def Job.MayGet (j : Job) (h : History) (r : Outcome RemoteAnswer) : Prop :=
  r = .error (.timeout j.device j.command.name (j.timeout / 1000)) ∨
    ∃ text ∈ h.answers j.id,
      r = (BridgeReply.outcomeOf text j.device j.command.name j.timeout).map .reply

/-- Who awaits a reply has posted a job; who is through has been told of its own. A job is due,
answered, or awaited by its caller. -/
structure Settled (s : State) (h : History) : Prop where
  awaiting : ∀ t w, s.caller t = some (.awaiting w) → ∃ j ∈ h.posted, j.task = t ∧ w = j.wait
  results : ∀ t r, (t, .answer r) ∈ s.results → ∃ j ∈ h.posted, j.task = t ∧ j.MayGet h r
  awaited : ∀ j ∈ h.posted,
    j.due ≤ s.now ∨ h.answers j.id ≠ [] ∨ s.caller j.task = some (.awaiting j.wait)

/-- A call posts one job: who has posted it does not get there again. -/
structure Single (s : State) (h : History) : Prop where
  once : (h.posted.map (·.task)).Nodup
  beyond : ∀ j ∈ h.posted, j.task < s.nextTask ∧
    ∀ x, s.caller j.task = some x → ∃ w, x = .awaiting w

section
variable {supply : Supply} {epoch : Nat} {s : State} {h : History} {e : Event}

theorem numbered_next (hn : Numbered supply s h) :
    Numbered supply (next supply epoch s e) (h.record supply s e) := by
  obtain ⟨ks, hks, hdrawn, hids⟩ := hn
  have hsame : ∀ {s' : State}, s.drawn ≤ s'.drawn → posts supply s e = [] →
      Numbered supply s' (h.record supply s e) := by
    intro s' hle hposts
    refine ⟨ks, hks, fun k hk => Nat.lt_of_lt_of_le (hdrawn k hk) hle, ?_⟩
    simp only [History.record, hposts, List.append_nil, hids]
  cases e with
  | post t e =>
    refine ⟨ks ++ [s.drawn], ?_, ?_, ?_⟩
    · refine List.pairwise_append.mpr ⟨hks, List.pairwise_singleton _ _, fun k hk d hd => ?_⟩
      rw [List.mem_singleton.mp hd]
      exact hdrawn k hk
    · intro k hk
      rcases List.mem_append.mp hk with hk | hk
      · exact Nat.lt_succ_of_lt (hdrawn k hk)
      · rw [List.mem_singleton.mp hk]
        exact Nat.lt_succ_self _
    · simp only [History.record, posts, List.map_append, hids]
      rfl
  | accept t p device raw rest job command blob timeout outcome =>
    exact hsame (Nat.le_succ _) rfl
  | _ => exact hsame (Nat.le_refl _) rfl

theorem nodup_ids (hn : Numbered supply s h) (ha : Apart supply s.drawn) :
    (h.posted.map (·.id)).Nodup := by
  obtain ⟨ks, hks, hdrawn, hids⟩ := hn
  rw [hids]
  refine List.pairwise_map.mpr (hks.imp_of_mem fun {i k} hi hk hlt => ?_)
  exact ha i k hlt (hdrawn k hk)

theorem postedFor_record (h : History) (device : String) :
    (h.record supply s e).postedFor device =
      h.postedFor device ++ (posts supply s e).filter fun j => device = j.device :=
  List.filter_append ..

theorem queuedFor_record (h : History) (device : String) :
    (h.record supply s e).queuedFor device =
      h.queuedFor device ++ (queues supply s e).filter fun q => device = q.device :=
  List.filter_append ..

/-- Lists stay right as long as no job is posted or taken off. -/
theorem Carried.same (hc : Carried epoch s h) {s' : State} (hjobs : s'.jobs = s.jobs)
    (hposts : posts supply s e = []) (hqueues : queues supply s e = []) :
    Carried epoch s' (h.record supply s e) := by
  constructor
  · intro device
    rw [postedFor_record, queuedFor_record, hposts, hqueues, hjobs]
    simpa using hc.lists device
  · simpa only [History.record, hposts, hqueues, List.append_nil] using hc.prompt

theorem Carried.post (hc : Carried epoch s h) (t : TaskId) (e : Errand) :
    Carried epoch (next supply epoch s (.post t e)) (h.record supply s (.post t e)) := by
  constructor
  · intro device
    obtain ⟨gone, left, hposted, hjobs, hqueued⟩ := hc.lists device
    rw [postedFor_record, queuedFor_record, hposted]
    refine ⟨gone, left ++ (posts supply s (.post t e)).filter fun j => device = j.device,
      List.append_assoc .., ?_, by simpa [queues] using hqueued⟩
    simp only [next, Function.update_apply, posts, List.filter_cons, List.filter_nil,
      decide_eq_true_eq]
    have hdevice : (s.job supply t e).device = e.device := rfl
    rw [hdevice]
    by_cases hd : device = e.device
    · subst hd
      rw [if_pos rfl, if_pos rfl, hjobs, List.map_append]
      rfl
    · rw [if_neg hd, if_neg hd, List.append_nil]
      exact hjobs
  · intro q hq
    have hq : q ∈ h.queued := by simpa [History.record, queues] using hq
    obtain ⟨j, hj, hrest⟩ := hc.prompt q hq
    exact ⟨j, List.mem_append_left _ hj, hrest⟩

/-- The head of a list is a job that was posted for the device. -/
theorem Carried.head (hc : Carried epoch s h) {device raw : String} {rest : List String}
    (hjobs : s.jobs device = raw :: rest) : ∃ gone j left,
      h.postedFor device = gone ++ j :: left ∧ raw = j.text epoch ∧
        rest = left.map (Job.text epoch) ∧ j ∈ h.posted ∧ j.device = device ∧
        ((h.queuedFor device).map (·.job)).Sublist (gone.map (·.id)) := by
  obtain ⟨gone, left, hposted, hleft, hqueued⟩ := hc.lists device
  rw [hjobs] at hleft
  cases left with
  | nil => cases hleft
  | cons j left =>
    obtain ⟨rfl, rfl⟩ := List.cons.inj hleft
    have hj : j ∈ h.postedFor device := hposted ▸ List.mem_append_right _ List.mem_cons_self
    obtain ⟨hj, hdevice⟩ := List.mem_filter.mp hj
    exact ⟨gone, j, left, hposted, rfl, rfl, hj, (of_decide_eq_true hdevice).symm, hqueued⟩

/-- A worker takes a job off a list, and queues it in time or not at all. -/
theorem Carried.take (hc : Carried epoch s h) {s' : State} {device raw : String}
    {rest : List String} (hhead : s.jobs device = raw :: rest)
    (hjobs : s'.jobs = Function.update s.jobs device rest) (hposts : posts supply s e = [])
    (hqueues : ∀ j : Job, raw = j.text epoch → queues supply s e = [] ∨
      ∃ q, queues supply s e = [q] ∧ q.device = device ∧ q.job = j.id ∧ q.time < j.due) :
    Carried epoch s' (h.record supply s e) := by
  obtain ⟨gone, j, left, hposted, hraw, hrest, hj, hdevice, hqueued⟩ := hc.head hhead
  have hnew := hqueues j hraw
  constructor
  -- The head of this list goes from what is left to what is gone; other lists stay as they are.
  · intro other
    rw [postedFor_record, queuedFor_record, hposts, hjobs, List.filter_nil, List.append_nil]
    by_cases ho : other = device
    · subst ho
      refine ⟨gone ++ [j], left, by rw [hposted, List.append_assoc]; rfl, ?_, ?_⟩
      · rw [Function.update_self, hrest]
      · rw [List.map_append, List.map_append]
        rcases hnew with hnone | ⟨q, hq, hqdevice, hqjob, -⟩
        · rw [hnone]
          exact hqueued.append (List.nil_sublist _)
        · rw [hq]
          refine hqueued.append ?_
          simp [hqdevice, hqjob]
    · obtain ⟨gone', left', hposted', hjobs', hqueued'⟩ := hc.lists other
      refine ⟨gone', left', hposted', by rw [Function.update_of_ne ho, hjobs'], ?_⟩
      have hnone : (queues supply s e).filter (fun q => other = q.device) = [] := by
        rcases hnew with hnone | ⟨q, hq, hqdevice, -, -⟩
        · rw [hnone]
          rfl
        · rw [hq, List.filter_cons, if_neg, List.filter_nil]
          rw [hqdevice, decide_eq_true_eq]
          exact ho
      rw [hnone, List.append_nil]
      exact hqueued'
  · intro q hq
    have hold : ∀ j ∈ h.posted, j ∈ (h.record supply s e).posted :=
      fun j hj => List.mem_append_left _ hj
    rcases List.mem_append.mp hq with hq | hq
    · obtain ⟨k, hk, hrest⟩ := hc.prompt q hq
      exact ⟨k, hold k hk, hrest⟩
    · rcases hnew with hnone | ⟨q', hq', hqdevice, hqjob, htime⟩
      · rw [hnone] at hq
        cases hq
      · rw [hq'] at hq
        obtain rfl := List.mem_singleton.mp hq
        exact ⟨j, hold j hj, hqjob.symm, hdevice.trans hqdevice.symm, htime⟩

theorem Job.refused {j : Job} {now : Nat} {job : Uuid} {reply : BridgeReply}
    (hfits : epoch + now < 2 ^ 63)
    (h : BridgeJob.dispose (j.text epoch) ((epoch + now : Nat) : Int) = .refuse job reply) :
    job = j.id ∧ ∃ kind words, reply = .failure kind words := by
  have hcases := BridgeJob.dispose_text j.id j.device j.command j.blob j.timeout (epoch + j.made)
    hfits
  rw [← Job.text, h] at hcases
  rcases hcases with h | ⟨kind, words, h⟩ | ⟨read, left, h, -⟩
  · cases h
  · cases h
    exact ⟨rfl, kind, words, rfl⟩
  · cases h

theorem Job.accepted {j : Job} {now : Nat} {job : Uuid} {command : Command}
    {blob : Option ByteArray} {timeout : Nat} (hfits : epoch + now < 2 ^ 63)
    (h : BridgeJob.dispose (j.text epoch) ((epoch + now : Nat) : Int) =
      .accept job command blob timeout) : job = j.id ∧ now < j.due ∧ blob = j.blob := by
  have hcases := BridgeJob.dispose_text j.id j.device j.command j.blob j.timeout (epoch + j.made)
    hfits
  rw [← Job.text, h] at hcases
  rcases hcases with h | ⟨kind, words, h⟩ | ⟨read, left, h, hlt⟩
  · cases h
  · cases h
  · cases h
    refine ⟨rfl, ?_, rfl⟩
    change now < j.made + j.timeout
    omega

/-- Jobs are carried as they should, while times fit 64 bits. -/
theorem carried_next (hc : Carried epoch s h) (he : Enabled epoch s e)
    (hfits : epoch + s.now < 2 ^ 63) :
    Carried epoch (next supply epoch s e) (h.record supply s e) := by
  cases e with
  | post t e => exact hc.post t e
  | drop t p device raw rest => exact hc.take he.2 rfl rfl fun j _ => Or.inl rfl
  | refuse t p device raw rest job reply => exact hc.take he.2.1 rfl rfl fun j _ => Or.inl rfl
  | accept t p device raw rest job command blob timeout outcome =>
    obtain ⟨-, hhead, hdispose⟩ := he
    refine hc.take hhead rfl rfl fun j hraw => Or.inr ⟨_, rfl, rfl, ?_⟩
    obtain ⟨hjob, hdue, -⟩ := Job.accepted hfits (hraw ▸ hdispose)
    exact ⟨hjob, hdue⟩
  | _ => exact hc.same rfl rfl rfl

theorem mem_answers_record {job : Uuid} {text : String} :
    text ∈ (h.record supply s e).answers job ↔ text ∈ h.answers job ∨ text ∈ answers job e :=
  List.mem_append

theorem queued_record {q : Queued} (hq : q ∈ h.queued) : q ∈ (h.record supply s e).queued :=
  List.mem_append_left _ hq

theorem verdicts_record {p : Nat} {id : Uuid} {outcome : CommandOutcome}
    (ho : outcome ∈ h.verdicts p id) : outcome ∈ (h.record supply s e).verdicts p id :=
  List.mem_append_left _ ho

/-- Replies are only left with the history knowing. -/
theorem listed_next (ha : Answered s h) (he : Enabled epoch s e) (job : Uuid) :
    ∀ text ∈ (next supply epoch s e).replies job,
      text ∈ (h.record supply s e).answers job := by
  have hold : ∀ text ∈ s.replies job, text ∈ (h.record supply s e).answers job :=
    fun text ht => List.mem_append_left _ (ha.listed job text ht)
  have hreply : ∀ {other : Uuid} {new : String}, answers other e = [new] →
      ∀ text ∈ s.reply other new job, text ∈ (h.record supply s e).answers job := by
    intro other new hnew text ht
    unfold State.reply at ht
    rw [Function.update_apply] at ht
    split at ht
    · rename_i hj
      rw [hj] at hold ⊢
      rcases List.mem_append.mp ht with ht | ht
      · exact hold text ht
      · exact mem_answers_record.mpr (Or.inr (hnew ▸ ht))
    · exact hold text ht
  cases e with
  | pass now replies =>
    intro text ht
    change text ∈ replies job at ht
    rcases he.2 job with hsame | hnone
    · exact hold text (hsame ▸ ht)
    · rw [hnone] at ht
      cases ht
  | collect t w raw rest =>
    intro text ht
    simp only [next, Function.update_apply] at ht
    split at ht
    · rename_i hj
      refine hold text ?_
      rw [hj, he.2]
      exact List.mem_cons_of_mem _ ht
    · exact hold text ht
  | refuse t p device raw rest other reply => exact hreply (if_pos rfl)
  | answer t p id other outcome => exact hreply (if_pos rfl)
  | _ => exact hold

theorem repliers_next (ha : Answered s h) :
    ∀ t p id job, (next supply epoch s e).replier t = some (p, id, job) →
      ∃ q ∈ (h.record supply s e).queued, q.process = p ∧ q.id = id ∧ q.job = job := by
  intro t p id job ht
  have hold : s.replier t = some (p, id, job) →
      ∃ q ∈ (h.record supply s e).queued, q.process = p ∧ q.id = id ∧ q.job = job := by
    intro ht
    obtain ⟨q, hq, hrest⟩ := ha.repliers t p id job ht
    exact ⟨q, queued_record hq, hrest⟩
  cases e with
  | accept u r device raw rest other command blob timeout outcome =>
    simp only [next, Function.update_apply] at ht
    split at ht
    · cases ht
      exact ⟨_, List.mem_append_right _ (List.mem_singleton_self _), rfl, rfl, rfl⟩
    · exact hold ht
  | answer u r other job' outcome =>
    simp only [next, Function.update_apply] at ht
    split at ht
    · cases ht
    · exact hold ht
  | _ => exact hold ht

theorem sources_next (ha : Answered s h) (hc : Carried epoch s h) (he : Enabled epoch s e)
    (hfits : epoch + s.now < 2 ^ 63) (job : Uuid) :
    ∀ text ∈ (h.record supply s e).answers job,
      (∃ kind words, text = (BridgeReply.failure kind words).text) ∨
        ∃ q ∈ (h.record supply s e).queued, q.job = job ∧
          ∃ outcome ∈ (h.record supply s e).verdicts q.process q.id,
            text = (BridgeReply.ofOutcome outcome).text := by
  intro text hmem
  rcases mem_answers_record.mp hmem with ht | ht
  · refine (ha.sources job text ht).imp_right ?_
    rintro ⟨q, hq, hjob, outcome, ho, htext⟩
    exact ⟨q, queued_record hq, hjob, outcome, verdicts_record ho, htext⟩
  · cases e with
    | refuse t p device raw rest other reply =>
      simp only [answers] at ht
      split at ht
      · obtain ⟨-, hhead, hdispose⟩ := he
        obtain ⟨gone, j, left, -, hraw, -⟩ := hc.head hhead
        obtain ⟨-, kind, words, rfl⟩ := Job.refused hfits (hraw ▸ hdispose)
        exact Or.inl ⟨kind, words, List.mem_singleton.mp ht⟩
      · cases ht
    | answer t p id other outcome =>
      simp only [answers] at ht
      split at ht
      · rename_i hj
        obtain ⟨hreplier, houtcome⟩ := he
        obtain ⟨q, hq, rfl, rfl, hjob⟩ := ha.repliers t p id other hreplier
        refine Or.inr ⟨q, queued_record hq, hjob.trans hj.symm, outcome, ?_,
          List.mem_singleton.mp ht⟩
        exact List.mem_append_right _ (by rw [houtcome]; exact List.mem_singleton_self outcome)
      · cases ht
    | _ => cases ht

theorem answered_next (ha : Answered s h) (hc : Carried epoch s h) (he : Enabled epoch s e)
    (hfits : epoch + s.now < 2 ^ 63) :
    Answered (next supply epoch s e) (h.record supply s e) :=
  ⟨listed_next ha he, repliers_next ha, sources_next ha hc he hfits⟩

theorem mayGet_record {j : Job} {r : Outcome RemoteAnswer} (hr : j.MayGet h r) :
    j.MayGet (h.record supply s e) r :=
  hr.imp_right fun ⟨text, ht, hr⟩ => ⟨text, mem_answers_record.mpr (Or.inl ht), hr⟩

/-- What is known of jobs stays so while nobody starts or ends to wait for a reply. -/
theorem Settled.same (hs : Settled s h) {s' : State}
    (hcaller : ∀ t w, s'.caller t = some (.awaiting w) ↔ s.caller t = some (.awaiting w))
    (hresults : s'.results = s.results) (hnow : s.now ≤ s'.now) (hposts : posts supply s e = []) :
    Settled s' (h.record supply s e) := by
  have hposted : (h.record supply s e).posted = h.posted := by
    rw [History.record, hposts, List.append_nil]
  refine ⟨?_, ?_, ?_⟩
  · intro t w hw
    rw [hposted]
    exact hs.awaiting t w ((hcaller t w).mp hw)
  · intro t r hr
    rw [hresults] at hr
    obtain ⟨j, hj, htask, hr⟩ := hs.results t r hr
    exact ⟨j, hposted ▸ hj, htask, mayGet_record hr⟩
  · intro j hj
    rw [hposted] at hj
    rcases hs.awaited j hj with hdue | hanswered | hawaited
    · exact Or.inl (Nat.le_trans hdue hnow)
    · exact Or.inr (Or.inl (List.append_ne_nil_of_left_ne_nil hanswered _))
    · exact Or.inr (Or.inr ((hcaller _ _).mpr hawaited))

theorem awaiting_update {t : TaskId} {caller : Option Caller}
    (hold : ∀ w, s.caller t ≠ some (.awaiting w)) (hnew : ∀ w, caller ≠ some (.awaiting w))
    (u : TaskId) (w : Wait) : Function.update s.caller t caller u = some (.awaiting w) ↔
      s.caller u = some (.awaiting w) := by
  rw [Function.update_apply]
  split
  · rename_i hu
    subst hu
    exact ⟨fun h => absurd h (hnew w), fun h => absurd h (hold w)⟩
  · exact Iff.rfl

theorem Settled.post (hs : Settled s h) {t : TaskId} {e : Errand}
    (he : s.caller t = some (.queueing e)) :
    Settled (next supply epoch s (.post t e)) (h.record supply s (.post t e)) := by
  have hself : (next supply epoch s (.post t e)).caller t =
      some (.awaiting (s.job supply t e).wait) := Function.update_self ..
  have hold : ∀ {u}, u ≠ t → (next supply epoch s (.post t e)).caller u = s.caller u :=
    fun hu => Function.update_of_ne hu _ _
  refine ⟨?_, ?_, ?_⟩
  · intro u w hw
    by_cases hu : u = t
    · subst hu
      rw [hself] at hw
      cases hw
      exact ⟨_, List.mem_append_right _ (List.mem_singleton_self _), rfl, rfl⟩
    · rw [hold hu] at hw
      obtain ⟨j, hj, hrest⟩ := hs.awaiting u w hw
      exact ⟨j, List.mem_append_left _ hj, hrest⟩
  · intro u r hr
    obtain ⟨j, hj, htask, hr⟩ := hs.results u r hr
    exact ⟨j, List.mem_append_left _ hj, htask, mayGet_record hr⟩
  · intro j hj
    rcases List.mem_append.mp hj with hj | hj
    · rcases hs.awaited j hj with hdue | hanswered | hawaited
      · exact Or.inl hdue
      · exact Or.inr (Or.inl (List.append_ne_nil_of_left_ne_nil hanswered _))
      · refine Or.inr (Or.inr ((hold ?_).trans hawaited))
        intro htask
        rw [htask, he] at hawaited
        cases hawaited
    · obtain rfl := List.mem_singleton.mp hj
      exact Or.inr (Or.inr hself)

/-- A call is over with what it may be told, once its job is due or answered. -/
theorem Settled.finish (hs : Settled s h) {t : TaskId} {w : Wait} {r : CommandOutcome}
    (hw : s.caller t = some (.awaiting w)) (hposts : posts supply s e = [])
    (hget : ∀ j : Job, w = j.wait → j.MayGet h (r.map .reply))
    (hover : ∀ j : Job, w = j.wait → j.due ≤ s.now ∨ h.answers j.id ≠ []) :
    Settled (s.finish t w r) (h.record supply s e) := by
  have hposted : (h.record supply s e).posted = h.posted := by
    rw [History.record, hposts, List.append_nil]
  have hold : ∀ {u}, u ≠ t → (s.finish t w r).caller u = s.caller u :=
    fun hu => Function.update_of_ne hu _ _
  have hself : (s.finish t w r).caller t = none := Function.update_self ..
  refine ⟨?_, ?_, ?_⟩
  · intro u w' hw'
    have hu : u ≠ t := by
      rintro rfl
      rw [hself] at hw'
      cases hw'
    rw [hold hu] at hw'
    rw [hposted]
    exact hs.awaiting u w' hw'
  · intro u r' hr
    rw [hposted]
    rcases List.mem_append.mp hr with hr | hr
    · obtain ⟨j, hj, htask, hr⟩ := hs.results u r' hr
      exact ⟨j, hj, htask, mayGet_record hr⟩
    · cases List.mem_singleton.mp hr
      obtain ⟨j, hj, htask, hwait⟩ := hs.awaiting t w hw
      exact ⟨j, hj, htask, mayGet_record (hget j hwait)⟩
  · intro j hj
    rw [hposted] at hj
    have hanswers : h.answers j.id ≠ [] → (h.record supply s e).answers j.id ≠ [] :=
      fun hanswered => List.append_ne_nil_of_left_ne_nil hanswered _
    rcases hs.awaited j hj with hdue | hanswered | hawaited
    · exact Or.inl hdue
    · exact Or.inr (Or.inl (hanswers hanswered))
    · by_cases htask : j.task = t
      · rw [htask, hw] at hawaited
        cases hawaited
        rcases hover j rfl with hdue | hanswered
        · exact Or.inl hdue
        · exact Or.inr (Or.inl (hanswers hanswered))
      · exact Or.inr (Or.inr ((hold htask).trans hawaited))

theorem settled_next (hs : Settled s h) (ha : Answered s h) (hf : Fresh s)
    (he : Enabled epoch s e) : Settled (next supply epoch s e) (h.record supply s e) := by
  cases e with
  | pass now replies => exact hs.same (fun _ _ => Iff.rfl) rfl he.1.onward rfl
  | start e =>
    have hnew := (hf _ (Nat.le_refl _)).1
    refine hs.same (awaiting_update (fun w hw => ?_) (by rintro w ⟨⟩)) rfl (Nat.le_refl _) rfl
    rw [hnew] at hw
    cases hw
  | ask t e =>
    refine hs.same (awaiting_update (fun w hw => ?_) (by rintro w ⟨⟩)) rfl (Nat.le_refl _) rfl
    rw [show s.caller t = _ from he] at hw
    cases hw
  | post t e => exact hs.post he.1
  | collect t w raw rest =>
    have hraw : raw ∈ h.answers w.job := ha.listed _ _ (by rw [he.2]; exact List.mem_cons_self)
    have hover : Settled
        (s.finish t w (BridgeReply.outcomeOf raw w.device w.command w.timeout))
        (h.record supply s (.collect t w raw rest)) := by
      refine hs.finish he.1 rfl ?_ ?_
      · rintro j rfl
        exact Or.inr ⟨raw, hraw, rfl⟩
      · rintro j rfl
        exact Or.inr (List.ne_nil_of_mem hraw)
    exact ⟨hover.awaiting, hover.results, hover.awaited⟩
  | giveUp t w =>
    refine Settled.finish (e := .giveUp t w) hs he.1 rfl ?_ ?_
    · rintro j rfl
      exact Or.inl rfl
    · rintro j rfl
      exact Or.inl (Nat.le_trans (Nat.le_add_right _ _) he.2)
  | _ => exact hs.same (fun _ _ => Iff.rfl) rfl (Nat.le_refl _) rfl

theorem Single.same (hs : Single s h) (he : Enabled epoch s e) (hposts : posts supply s e = [])
    (hc : ∀ t < s.nextTask, ∀ x, (next supply epoch s e).caller t = some x →
      s.caller t = some x ∨ ∃ y, s.caller t = some y ∧ ∀ w, y ≠ .awaiting w) :
    Single (next supply epoch s e) (h.record supply s e) := by
  constructor <;> rw [show (h.record supply s e).posted = h.posted by
    simp only [History.record, hposts, List.append_nil]]
  · exact hs.once
  · intro j hj
    obtain ⟨hlt, hbeyond⟩ := hs.beyond j hj
    refine ⟨Nat.lt_of_lt_of_le hlt (nextTask_le_next he), fun x hx => ?_⟩
    rcases hc _ hlt x hx with hold | ⟨y, hy, hearly⟩
    · exact hbeyond x hold
    · obtain ⟨w, rfl⟩ := hbeyond y hy
      exact absurd rfl (hearly w)

theorem Single.post (hs : Single s h) (hf : Fresh s) {t : TaskId} {e : Errand}
    (hqueueing : s.caller t = some (.queueing e)) :
    Single (next supply epoch s (.post t e)) (h.record supply s (.post t e)) := by
  have hstarted : t < s.nextTask := by
    by_contra hlate
    rw [(hf t (Nat.le_of_not_lt hlate)).1] at hqueueing
    cases hqueueing
  have hnew : ∀ j ∈ h.posted, j.task ≠ t := by
    rintro j hj rfl
    obtain ⟨w, hw⟩ := (hs.beyond j hj).2 _ hqueueing
    cases hw
  constructor
  · refine (congrArg List.Nodup (List.map_append ..)).mpr ?_
    refine List.nodup_append.mpr ⟨hs.once, List.nodup_singleton _, fun u hu v hv => ?_⟩
    obtain ⟨j, hj, rfl⟩ := List.mem_map.mp hu
    obtain rfl := List.mem_singleton.mp hv
    exact hnew j hj
  · intro j hj
    rcases List.mem_append.mp hj with hj | hj
    · refine ⟨(hs.beyond j hj).1, fun x hx => (hs.beyond j hj).2 x ?_⟩
      exact (Function.update_of_ne (hnew j hj) _ _).symm.trans hx
    · obtain rfl := List.mem_singleton.mp hj
      refine ⟨hstarted, fun x hx => ⟨(s.job supply t e).wait, ?_⟩⟩
      exact (Option.some.inj ((Function.update_self t _ _).symm.trans hx)).symm

theorem single_next (hs : Single s h) (hf : Fresh s) (he : Enabled epoch s e) :
    Single (next supply epoch s e) (h.record supply s e) := by
  cases e with
  | start e =>
    refine hs.same he rfl fun t ht x hx => Or.inl ?_
    exact (Function.update_of_ne (Nat.ne_of_lt ht) _ _).symm.trans hx
  | ask t e =>
    refine hs.same he rfl fun u _ x hx => ?_
    by_cases hu : u = t
    · exact Or.inr ⟨.asking e, hu ▸ he, by rintro w ⟨⟩⟩
    · exact Or.inl ((Function.update_of_ne hu _ _).symm.trans hx)
  | post t e => exact hs.post hf he.1
  | collect t w raw rest | giveUp t w =>
    refine hs.same he rfl fun u _ x hx => Or.inl ?_
    simp only [next, State.finish, Function.update_apply] at hx
    split at hx
    · cases hx
    · exact hx
  | _ => exact hs.same he rfl fun _ _ _ hx => Or.inl hx

theorem eq_of_id (hids : (h.posted.map (·.id)).Nodup) {j k : Job} (hj : j ∈ h.posted)
    (hk : k ∈ h.posted) (he : j.id = k.id) : j = k :=
  List.inj_on_of_nodup_map hids hj hk he

/-- No job is queued twice, whichever engines it may have reached. -/
theorem Carried.nodup_queued (hc : Carried epoch s h) (hids : (h.posted.map (·.id)).Nodup) :
    (h.queued.map (·.job)).Nodup := by
  refine List.pairwise_map.mpr (List.pairwise_iff_forall_sublist.mpr fun {q r} hqr hjob => ?_)
  obtain ⟨j, hj, hjq, hjd, -⟩ := hc.prompt q (hqr.subset List.mem_cons_self)
  obtain ⟨k, hk, hkr, hkd, -⟩ := hc.prompt r (hqr.subset (by simp))
  -- Both were queued for one job, so the jobs gone from the list of its device name it twice.
  obtain rfl := eq_of_id hids hj hk (by rw [hjq, hkr, hjob])
  obtain ⟨gone, left, hposted, -, hqueued⟩ := hc.lists j.device
  have hkept : [q, r].filter (fun q => j.device = q.device) = [q, r] :=
    List.filter_eq_self.mpr (by simp [← hjd, ← hkd])
  have hboth : [q, r].Sublist (h.queuedFor j.device) := hkept ▸ hqr.filter _
  have hnodup : ((h.postedFor j.device).map (·.id)).Nodup :=
    hids.sublist (List.filter_sublist.map _)
  rw [hposted, List.map_append] at hnodup
  have hgone := (List.nodup_append.mp hnodup).1.sublist ((hboth.map _).trans hqueued)
  exact (List.pairwise_cons.mp hgone).1 r.job List.mem_cons_self hjob

/-- The jobs of a process for a device are queued in the order in which they were posted. -/
theorem Carried.queued_in_order (hc : Carried epoch s h) (hids : (h.posted.map (·.id)).Nodup)
    (p : Nat) (device : String) :
    ((h.queued.map (·.job)).filter fun id => id ∈ (h.postedAt p device).map (·.id)).Sublist
      ((h.postedAt p device).map (·.id)) := by
  let here (id : Uuid) : Bool := id ∈ (h.postedAt p device).map (·.id)
  have hhere : ∀ {j}, j ∈ h.posted → (here j.id = true ↔ p = j.process ∧ device = j.device) := by
    intro j hj
    refine Iff.trans decide_eq_true_iff ⟨fun hid => ?_, fun hplace => ?_⟩
    · obtain ⟨k, hk, hkid⟩ := List.mem_map.mp hid
      obtain ⟨hk, hplace⟩ := List.mem_filter.mp hk
      obtain rfl := eq_of_id hids hk hj hkid
      exact of_decide_eq_true hplace
    · exact List.mem_map_of_mem (List.mem_filter.mpr ⟨hj, decide_eq_true hplace⟩)
  have hqueued : (h.queued.map (·.job)).filter here =
      ((h.queuedFor device).map (·.job)).filter here := by
    rw [List.filter_map, List.filter_map, History.queuedFor, List.filter_filter]
    refine congrArg _ (List.filter_congr fun q hq => Bool.eq_iff_iff.mpr ?_)
    obtain ⟨j, hj, hjob, hdevice, -⟩ := hc.prompt q hq
    rw [Bool.and_eq_true, decide_eq_true_iff]
    refine (and_iff_left_of_imp fun hq => ?_).symm
    rw [Function.comp_apply, ← hjob, hhere hj] at hq
    exact hq.2.trans hdevice
  have hposted : ((h.postedFor device).map (·.id)).filter here =
      (h.postedAt p device).map (·.id) := by
    rw [List.filter_map, History.postedFor, List.filter_filter]
    refine congrArg _ (List.filter_congr fun j hj => Bool.eq_iff_iff.mpr ?_)
    rw [Bool.and_eq_true, decide_eq_true_iff, decide_eq_true_iff, Function.comp_apply, hhere hj]
    exact and_iff_left_of_imp And.right
  obtain ⟨gone, left, hfor, -, hgone⟩ := hc.lists device
  have hkept := (hgone.trans ((List.sublist_append_left gone left).map _)).filter here
  rwa [← hfor, hposted, ← hqueued] at hkept

/-- A process has at most one job for a device that is neither due nor answered. -/
theorem Settled.alone (hs : Settled s h) (hl : Locked s) (hids : (h.posted.map (·.id)).Nodup)
    {j k : Job} (hj : j ∈ h.posted) (hk : k ∈ h.posted) (hp : j.process = k.process)
    (hd : j.device = k.device) (hjdue : s.now < j.due) (hkdue : s.now < k.due)
    (hjanswers : h.answers j.id = []) (hkanswers : h.answers k.id = []) : j = k := by
  have hawaited : ∀ {i : Job}, i ∈ h.posted → s.now < i.due → h.answers i.id = [] →
      s.caller i.task = some (.awaiting i.wait) := by
    intro i hi hdue hanswers
    rcases hs.awaited i hi with hover | hanswered | hawaited
    · exact absurd hover (Nat.not_le_of_lt hdue)
    · exact absurd hanswers hanswered
    · exact hawaited
  have hjwaits := hawaited hj hjdue hjanswers
  have hkwaits := hawaited hk hkdue hkanswers
  have hjowner : (s.lock j.process j.device).owner = some j.task := hl.awaiting _ _ hjwaits
  have hkowner : (s.lock k.process k.device).owner = some k.task := hl.awaiting _ _ hkwaits
  rw [hp, hd, hkowner] at hjowner
  rw [← Option.some.inj hjowner, hkwaits] at hjwaits
  have hwait : k.wait = j.wait := Caller.awaiting.inj (Option.some.inj hjwaits)
  exact eq_of_id hids hj hk (congrArg Wait.job hwait).symm

end

end FleetControl.Traffic
