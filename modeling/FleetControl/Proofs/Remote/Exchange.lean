import FleetControl.Remote.Program

/-! # Programs under any surroundings

A program is run against surroundings that answer every request as they like, also by what was
asked and answered before. Each run ends, with the requests and answers that it made and with the
value of the program. -/
namespace FleetControl

/-- A request with its answer. -/
inductive Exchange where
  | countAlive (device : String) (answer : Outcome Nat)
  | log (entry : LogEntry)
  | send (device : String) (command : Command) (blob : Option ByteArray) (timeout : Nat)
      (answer : CommandOutcome)
  | ssh (run : SshRun) (answer : Except StartFailure SshExit)
  | relay (device : DeviceRecord) (call : RemoteCall) (answer : Outcome RemoteAnswer)

/-- Whoever carries the requests out. Each answer may depend on all exchanges before it. -/
structure Surroundings where
  alive : List Exchange → String → Outcome Nat
  channel : List Exchange → String → Command → Option ByteArray → Nat → CommandOutcome
  ssh : List Exchange → SshRun → Except StartFailure SshExit
  relay : List Exchange → DeviceRecord → RemoteCall → Outcome RemoteAnswer

namespace Program

variable {α β : Type} {w : Surroundings} {past done more : List Exchange}

/-- The exchanges of a program and its value, behind the exchanges of the past. -/
def run (w : Surroundings) (past : List Exchange) : Program α → List Exchange × α
  | finish a => ([], a)
  | countAlive device next =>
    let answer := w.alive past device
    let r := run w (past ++ [.countAlive device answer]) (next answer)
    (.countAlive device answer :: r.1, r.2)
  | log entry next =>
    let r := run w (past ++ [.log entry]) next
    (.log entry :: r.1, r.2)
  | send device command blob timeout next =>
    let answer := w.channel past device command blob timeout
    let r := run w (past ++ [.send device command blob timeout answer]) (next answer)
    (.send device command blob timeout answer :: r.1, r.2)
  | ssh run next =>
    let answer := w.ssh past run
    let r := Program.run w (past ++ [.ssh run answer]) (next answer)
    (.ssh run answer :: r.1, r.2)
  | relay device call next =>
    let answer := w.relay past device call
    let r := run w (past ++ [.relay device call answer]) (next answer)
    (.relay device call answer :: r.1, r.2)

/-- What goes on with the value of a program goes on behind its exchanges. -/
theorem run_bind {p : Program α} {f : α → Program β} {a : α} {b : β}
    (hp : p.run w past = (done, a)) (hf : (f a).run w (past ++ done) = (more, b)) :
    (p.bind f).run w past = (done ++ more, b) := by
  induction p generalizing past done with
  | finish a' =>
    cases hp
    rw [List.append_nil] at hf
    exact hf
  | log entry next ih =>
    cases hp
    rw [List.append_cons] at hf
    simp only [bind, run, ih rfl hf]
    rfl
  | countAlive device next ih | send device command blob timeout next ih | ssh ssh next ih
  | relay device call next ih =>
    cases hp
    rw [List.append_cons] at hf
    simp only [bind, run, ih _ rfl hf]
    rfl

theorem run_andThen {p : Program (Outcome α)} {f : α → Program (Outcome β)} {a : α}
    {r : Outcome β} (hp : p.run w past = (done, .ok a))
    (hf : (f a).run w (past ++ done) = (more, r)) :
    (p.andThen f).run w past = (done ++ more, r) :=
  run_bind hp hf

/-- A failure ends a program. -/
theorem run_andThen_error {p : Program (Outcome α)} {f : α → Program (Outcome β)}
    {e : ChannelError} (hp : p.run w past = (done, .error e)) :
    (p.andThen f).run w past = (done, .error e) := by
  have h : (p.andThen f).run w past = (done ++ [], .error e) := run_bind hp rfl
  rwa [List.append_nil] at h

theorem run_mapOk {p : Program (Outcome α)} {r : Outcome α} (f : α → β)
    (hp : p.run w past = (done, r)) : (p.mapOk f).run w past = (done, r.map f) := by
  cases r with
  | error e => exact run_andThen_error hp
  | ok a =>
    have h : (p.mapOk f).run w past = (done ++ [], .ok (f a)) := run_andThen hp rfl
    rwa [List.append_nil] at h

end Program

end FleetControl
