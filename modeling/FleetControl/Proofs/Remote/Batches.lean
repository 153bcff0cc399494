import FleetControl.Proofs.Remote.CommandLines
import FleetControl.Remote.Channel
import Mathlib.Data.List.Forall2

/-! # Batches of commands

Whichever way a device is reached, the commands of a batch run one after the other, each behind the
reply to the one before, and none behind one that failed. The master connection of a batch over the
client is closed once, behind all of them. -/
namespace FleetControl

/-- What was asked for a command, and what came of it. -/
structure Attempt where
  exchanges : List Exchange
  verdict : Outcome Reply

/-- The attempts at the commands of a batch and its result: the first commands are attempted in
order, the next one only behind a success. The batch succeeds exactly when there are attempts at all
commands and each was a success, with their replies; a failure is that of the last attempt. -/
structure Stops (tried : String → Attempt → Prop) (cmds : List String) (attempts : List Attempt)
    (result : Outcome (List Reply)) : Prop where
  inOrder : List.Forall₂ tried (cmds.take attempts.length) attempts
  onward : ∀ a ∈ attempts.dropLast, ∃ reply, a.verdict = .ok reply
  ok : ∀ replies, result = .ok replies ↔
    attempts.length = cmds.length ∧ attempts.map (·.verdict) = replies.map .ok
  error : ∀ e, result = .error e ↔ attempts.getLast?.map (·.verdict) = some (.error e)

section Stops
variable {tried : String → Attempt → Prop} {cmd : String} {cmds : List String} {a : Attempt}
  {attempts : List Attempt} {result : Outcome (List Reply)}

theorem Stops.tried_of_mem (h : Stops tried cmds attempts result) (ha : a ∈ attempts) :
    ∃ cmd, tried cmd a := by
  obtain ⟨i, hi, rfl⟩ := List.mem_iff_getElem.mp ha
  exact ⟨_, h.inOrder.get (Nat.lt_of_lt_of_eq hi h.inOrder.length_eq.symm) hi⟩

theorem stops_nil : Stops tried [] [] (.ok []) := by
  constructor
  · exact .nil
  · simp
  · intro replies
    cases replies <;> simp
  · simp

theorem stops_error {e : ChannelError} (h : tried cmd a) (he : a.verdict = .error e) :
    Stops tried (cmd :: cmds) [a] (.error e) := by
  constructor
  · exact .cons h .nil
  · simp
  · intro replies
    simp only [List.map_cons, List.map_nil, he, reduceCtorEq, false_iff, not_and]
    cases replies <;> simp
  · simp [he]

theorem stops_ok {reply : Reply} (h : tried cmd a) (ha : a.verdict = .ok reply)
    (hs : Stops tried cmds attempts result) :
    Stops tried (cmd :: cmds) (a :: attempts) (result.map (reply :: ·)) := by
  constructor
  · exact .cons h hs.inOrder
  · cases attempts with
    | nil => simp
    | cons next rest => simpa [ha] using hs.onward
  · intro replies
    cases result with
    | error e =>
      have hnone := hs.ok replies.tail
      cases replies <;> simp_all [Except.map]
    | ok rest =>
      have hrest := hs.ok replies.tail
      cases replies with
      | nil => simp [Except.map]
      | cons first replies =>
        have hrest : rest = replies ↔ _ := Iff.trans (by simp) hrest
        simp [Except.map, hrest, ha, and_left_comm]
  · intro e
    have hlast := hs.error e
    cases attempts with
    | nil => cases result <;> simp_all [Except.map]
    | cons next rest => cases result <;> simp_all [Except.map]

open Program

section Loop
variable {one : String → Program (Outcome Reply)}
  {loop : List Reply → List String → Program (Outcome (List Reply))} {w : Surroundings}
  (hnil : ∀ done, loop done [] = .finish (.ok done.reverse))
  (hcons : ∀ done cmd rest,
    loop done (cmd :: rest) = (one cmd).andThen fun reply => loop (reply :: done) rest)
  (hone : ∀ cmd past, ∃ a, tried cmd a ∧ (one cmd).run w past = (a.exchanges, a.verdict))
include hnil hcons hone

/-- A loop that goes on after a success only. The replies that it began with come first. -/
theorem loop_run (cmds : List String) (done : List Reply) (past : List Exchange) :
    ∃ attempts result, Stops tried cmds attempts result ∧ (loop done cmds).run w past =
      (attempts.flatMap (·.exchanges), result.map (done.reverse ++ ·)) := by
  induction cmds generalizing done past with
  | nil =>
    refine ⟨[], .ok [], stops_nil, ?_⟩
    rw [hnil, Except.map, List.append_nil]
    rfl
  | cons cmd rest ih =>
    obtain ⟨a, ha, hrun⟩ := hone cmd past
    rw [hcons]
    cases hv : a.verdict with
    | error e =>
      rw [hv] at hrun
      refine ⟨[a], .error e, stops_error ha hv, ?_⟩
      rw [run_andThen_error hrun, List.flatMap_singleton]
      rfl
    | ok reply =>
      rw [hv] at hrun
      obtain ⟨attempts, result, hstops, hrest⟩ := ih (reply :: done) (past ++ a.exchanges)
      refine ⟨a :: attempts, result.map (reply :: ·), stops_ok ha hv hstops, ?_⟩
      rw [run_andThen hrun hrest, List.flatMap_cons]
      cases result with
      | error e => rfl
      | ok replies => simp [Except.map]

theorem batch_run (cmds : List String) (past : List Exchange) :
    ∃ attempts result, Stops tried cmds attempts result ∧
      (loop [] cmds).run w past = (attempts.flatMap (·.exchanges), result) := by
  obtain ⟨attempts, result, hstops, hrun⟩ := loop_run hnil hcons hone cmds [] past
  refine ⟨attempts, result, hstops, hrun.trans ?_⟩
  cases result <;> rfl

end Loop

end Stops

namespace ChannelTransport

open Program

/-- An attempt at a command over the channel. A reply with an exit status other than zero is a
failure. -/
inductive Tried (s : ChannelSettings) (device : DeviceRecord) (cmd : String) : Attempt → Prop
  | done (reply : Reply) (zero : ∀ code, reply.exitCode? = some code → code = 0) :
    Tried s device cmd ⟨[.send device.deviceId (.shell cmd) none s.timeout (.ok reply)], .ok reply⟩
  | exited (reply : Reply) (code : Int) (status : reply.exitCode? = some code) (ne : code ≠ 0) :
    Tried s device cmd ⟨[.send device.deviceId (.shell cmd) none s.timeout (.ok reply)],
      .error (.device device.deviceId "shell" ("exit status " ++ toString code))⟩
  | failed (e : ChannelError) :
    Tried s device cmd ⟨[.send device.deviceId (.shell cmd) none s.timeout (.error e)], .error e⟩

theorem runCommand_run (s : ChannelSettings) (device : DeviceRecord) (w : Surroundings)
    (cmd : String) (past : List Exchange) : ∃ a, Tried s device cmd a ∧
      (runCommand s device cmd).run w past = (a.exchanges, a.verdict) := by
  have hsend : (send s device (.shell cmd) none).run w past =
      ([.send device.deviceId (.shell cmd) none s.timeout
        (w.channel past device.deviceId (.shell cmd) none s.timeout)],
      w.channel past device.deviceId (.shell cmd) none s.timeout) := rfl
  generalize w.channel past device.deviceId (.shell cmd) none s.timeout = answer at hsend
  cases answer with
  | error e => exact ⟨_, .failed e, run_andThen_error hsend⟩
  | ok reply =>
    have hchecked : (runCommand s device cmd).run w past =
        ([.send device.deviceId (.shell cmd) none s.timeout (.ok reply)] ++ [],
          checkExit device reply) := run_andThen hsend rfl
    rw [List.append_nil] at hchecked
    cases hstatus : reply.exitCode? with
    | none =>
      refine ⟨_, .done reply fun code h => ?_, ?_⟩
      · rw [hstatus] at h
        cases h
      · rw [hchecked, checkExit, hstatus]
    | some code =>
      by_cases hzero : code = 0
      · refine ⟨_, .done reply fun other h => ?_, ?_⟩
        · rw [hstatus] at h
          cases h
          exact hzero
        · rw [hchecked, checkExit, hstatus]
          exact congrArg _ (if_neg (not_not.mpr hzero))
      · refine ⟨_, .exited reply code hstatus hzero, ?_⟩
        rw [hchecked, checkExit, hstatus]
        exact congrArg _ (if_pos hzero)

theorem runCommands_run (s : ChannelSettings) (device : DeviceRecord) (cmds : List String)
    (w : Surroundings) (past : List Exchange) :
    ∃ attempts result, Stops (Tried s device) cmds attempts result ∧
      (runCommands s device [] cmds).run w past = (attempts.flatMap (·.exchanges), result) :=
  batch_run (fun _ => rfl) (fun _ _ _ => rfl) (fun cmd past => runCommand_run s device w cmd past)
    cmds past

end ChannelTransport

namespace SshTransport

open Program

/-- The run of the client that closes a master connection. -/
def closing (device : DeviceRecord) (control : String) : SshRun :=
  ⟨["-O", "exit", "-o", controlPath control, login device], none⟩

/-- An attempt at a command over the client. Only an exit status of zero is a success. -/
inductive Tried (device : DeviceRecord) (control : String) (cmd : String) : Attempt → Prop
  | unaddressed (host : device.host = "") :
    Tried device control cmd
      ⟨[], .error (.transport ("device " ++ device.deviceId ++ " has no ssh host configured"))⟩
  | unstarted (e : StartFailure) (host : device.host ≠ "") :
    Tried device control cmd
      ⟨[.ssh ⟨baseArgs device (some control) ++ ["--", cmd], none⟩ (.error e)],
        .error (.transport ("failed to spawn ssh: " ++ e.message))⟩
  | failed (exit : SshExit) (e : ChannelError) (host : device.host ≠ "")
      (broken : exit.code ≠ some 0 ∨ exit.stdinError ≠ none)
      (judged : judge device cmd exit = .error e) :
    Tried device control cmd
      ⟨[.ssh ⟨baseArgs device (some control) ++ ["--", cmd], none⟩ (.ok exit)], .error e⟩
  | done (exit : SshExit) (host : device.host ≠ "") (zero : exit.code = some 0)
      (unbroken : exit.stdinError = none) :
    Tried device control cmd
      ⟨.ssh ⟨baseArgs device (some control) ++ ["--", cmd], none⟩ (.ok exit) ::
        (LogEntry.lines device.deviceId .stdout (Utf8.lossy exit.stdout) ++
          LogEntry.lines device.deviceId .stderr (Utf8.lossy exit.stderr)).map .log,
        .ok (replyOf exit)⟩

theorem judge_cases (device : DeviceRecord) (cmd : String) (exit : SshExit) :
    (exit.code = some 0 ∧ exit.stdinError = none ∧ judge device cmd exit = .ok exit) ∨
      ((exit.code ≠ some 0 ∨ exit.stdinError ≠ none) ∧ ∃ e, judge device cmd exit = .error e) := by
  unfold judge
  split
  · rename_i hcode
    cases hstdin : exit.stdinError with
    | none => exact Or.inl ⟨hcode, rfl, rfl⟩
    | some e => exact Or.inr ⟨Or.inr (Option.some_ne_none e), _, rfl⟩
  · rename_i hcode
    exact Or.inr ⟨Or.inl hcode, _, rfl⟩

section Client
variable {device : DeviceRecord} {control : Option String} {command : String}
  {stdin : Option ByteArray} {w : Surroundings} {past : List Exchange}

theorem exec_unstarted {e : StartFailure} (hhost : device.host ≠ "")
    (h : w.ssh past ⟨baseArgs device control ++ ["--", command], stdin⟩ = .error e) :
    (exec device control command stdin).run w past =
      ([.ssh ⟨baseArgs device control ++ ["--", command], stdin⟩ (.error e)],
        .error (.transport ("failed to spawn ssh: " ++ e.message))) := by
  rw [exec, if_neg hhost]
  simp only [run, h]

theorem exec_exited {exit : SshExit} (hhost : device.host ≠ "")
    (h : w.ssh past ⟨baseArgs device control ++ ["--", command], stdin⟩ = .ok exit) :
    (exec device control command stdin).run w past =
      ([.ssh ⟨baseArgs device control ++ ["--", command], stdin⟩ (.ok exit)],
        judge device command exit) := by
  rw [exec, if_neg hhost]
  simp only [run, h]

end Client

theorem runLogged_run (device : DeviceRecord) (control : String) (w : Surroundings) (cmd : String)
    (past : List Exchange) : ∃ a, Tried device control cmd a ∧
      (runLogged device (some control) cmd).run w past = (a.exchanges, a.verdict) := by
  by_cases hhost : device.host = ""
  · refine ⟨_, .unaddressed hhost, run_andThen_error ?_⟩
    rw [exec, if_pos hhost]
    rfl
  · cases hanswer : w.ssh past ⟨baseArgs device (some control) ++ ["--", cmd], none⟩ with
    | error e =>
      exact ⟨_, .unstarted e hhost, run_andThen_error (exec_unstarted hhost hanswer)⟩
    | ok exit =>
      have hexec := exec_exited hhost hanswer
      rcases judge_cases device cmd exit with ⟨hcode, hstdin, hok⟩ | ⟨hbroken, e, herror⟩
      · rw [hok] at hexec
        exact ⟨_, .done exit hhost hcode hstdin,
          run_andThen hexec (logAll_finish_run w _ _ (Except.ok (replyOf exit)))⟩
      · rw [herror] at hexec
        exact ⟨_, .failed exit e hhost hbroken herror, run_andThen_error hexec⟩

/-- No attempt at a command closes the master connection. -/
theorem Tried.not_closing {device : DeviceRecord} {control cmd : String} {a : Attempt}
    (h : Tried device control cmd a) (answer : Except StartFailure SshExit) :
    .ssh (closing device control) answer ∉ a.exchanges := by
  have hne : closing device control ≠ ⟨baseArgs device (some control) ++ ["--", cmd], none⟩ := by
    intro he
    have hfirst := congrArg (fun run => run.args.head?) he
    simp [closing, baseArgs] at hfirst
  cases h <;> simp [hne]

theorem runBatch_run (device : DeviceRecord) (control : String) (cmds : List String)
    (w : Surroundings) (past : List Exchange) :
    ∃ attempts result, Stops (Tried device control) cmds attempts result ∧
      (runBatch device control [] cmds).run w past = (attempts.flatMap (·.exchanges), result) :=
  batch_run (fun _ => rfl) (fun _ _ _ => rfl)
    (fun cmd past => runLogged_run device control w cmd past) cmds past

/-- Behind the attempts of a batch its master connection is closed, if there was anything to
run. -/
theorem runCommands_run {device : DeviceRecord} {control : String} {cmds : List String}
    {w : Surroundings} {past done : List Exchange} {result : Outcome (List Reply)}
    (h : (runBatch device control [] cmds).run w past = (done, result)) :
    ∃ answer, (runCommands device control cmds).run w past =
      (done ++ if cmds = [] then [] else [.ssh (closing device control) answer], result) := by
  refine ⟨w.ssh (past ++ done) (closing device control), run_bind h ?_⟩
  by_cases hempty : cmds = []
  · rw [if_pos hempty, if_pos (List.isEmpty_iff.mpr hempty)]
    rfl
  · rw [if_neg hempty, if_neg (mt List.isEmpty_iff.mp hempty)]
    rfl

end SshTransport

/-- A batch attempts its commands in order up to the first failure, over the channel as over the
client, whatever is answered. Over the client, a batch that is not empty closes its master
connection once, at the end. -/
theorem batches_stop (device : DeviceRecord) (cmds : List String) (w : Surroundings)
    (past : List Exchange) :
    (∀ s, ∃ attempts result, Stops (ChannelTransport.Tried s device) cmds attempts result ∧
      (ChannelTransport.perform s device (.runCommands cmds)).run w past =
        (attempts.flatMap (·.exchanges), result.map .replies)) ∧
    ∀ control, ∃ attempts result answer,
      Stops (SshTransport.Tried device control) cmds attempts result ∧
      (SshTransport.perform control device (.runCommands cmds)).run w past =
        (attempts.flatMap (·.exchanges) ++
          if cmds = [] then [] else [.ssh (SshTransport.closing device control) answer],
        result.map .replies) ∧
      ∀ other, .ssh (SshTransport.closing device control) other ∉
        attempts.flatMap (·.exchanges) := by
  constructor
  · intro s
    obtain ⟨attempts, result, hstops, hrun⟩ :=
      ChannelTransport.runCommands_run s device cmds w past
    exact ⟨attempts, result, hstops, Program.run_mapOk _ hrun⟩
  · intro control
    obtain ⟨attempts, result, hstops, hbatch⟩ :=
      SshTransport.runBatch_run device control cmds w past
    obtain ⟨answer, hrun⟩ := SshTransport.runCommands_run hbatch
    refine ⟨attempts, result, answer, hstops, Program.run_mapOk _ hrun, fun other hmem => ?_⟩
    obtain ⟨a, ha, hother⟩ := List.mem_flatMap.mp hmem
    obtain ⟨cmd, htried⟩ := hstops.tried_of_mem ha
    exact htried.not_closing other hother

end FleetControl
