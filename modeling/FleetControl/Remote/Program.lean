import FleetControl.Device.Record
import FleetControl.Log
import FleetControl.Message.Command
import FleetControl.Reply

/-!
# Programs of remote operations

A remote operation is a finite tree of requests to its surroundings: it asks, is told the answer,
and goes on. Whoever runs the program carries the requests out, so the operations themselves stay
pure.
-/
namespace FleetControl

/-- An operation on a device, whichever way it is reached. -/
inductive RemoteCall where
  | runCommand (cmd : String)
  | runCommands (cmds : List String)
  | upload (path : String) (data : ByteArray)
  | download (path : String)
  | deletePath (path : String)
  | renamePath (src dst : String)
  | makeDir (path : String)

/-- What an operation answers. -/
inductive RemoteAnswer where
  | reply (reply : Reply)
  | replies (replies : List Reply)
  | bytes (data : ByteArray)
  | done

instance : Inhabited RemoteAnswer := ⟨.done⟩

/-- A run of the `ssh` client. -/
structure SshRun where
  args : List String
  /-- The bytes written to its input; `none` leaves the input empty. -/
  stdin : Option ByteArray := none

/-- Why the `ssh` client cannot be started. -/
inductive StartFailure where
  | zeroByte
  | missing
  | tooLong
  deriving DecidableEq, Repr

/-- The text of a start failure. -/
def StartFailure.message : StartFailure → String
  | zeroByte => "nul byte found in provided data"
  | missing => "No such file or directory (os error 2)"
  | tooLong => "Argument list too long (os error 7)"

/-- The system bounds the bytes of a single argument. -/
def SshRun.maxArgument : Nat := 128 * 1024

/-- Why a run does not start on a system that has the client or not. No argument may hold a zero
byte, and each with its end mark must stay within the bound. -/
def SshRun.refusal? (run : SshRun) (installed : Bool) : Option StartFailure :=
  if run.args.any fun a => a.toList.contains (Char.ofNat 0) then some .zeroByte
  else if ¬ installed then some .missing
  else if run.args.any fun a => a.utf8ByteSize ≥ maxArgument then some .tooLong
  else none

/-- How a run of the `ssh` client ended. -/
structure SshExit where
  stdout : ByteArray
  stderr : ByteArray
  /-- The exit code; `none` if a signal ended it. -/
  code : Option Int
  /-- Why its input could not be written. -/
  stdinError : Option String

/-- A program that ends in a value. -/
inductive Program (α : Type) where
  | finish (value : α)
  /-- How many live connections has the device? -/
  | countAlive (device : String) (next : Outcome Nat → Program α)
  /-- Write a line to the device log. -/
  | log (entry : LogEntry) (next : Program α)
  /-- Send a command over the channel and wait for its outcome. -/
  | send (device : String) (command : Command) (blob : Option ByteArray) (timeout : Nat)
      (next : CommandOutcome → Program α)
  /-- Run the `ssh` client. -/
  | ssh (run : SshRun) (next : Except StartFailure SshExit → Program α)
  /-- Hand the operation to a transport outside of this library. -/
  | relay (device : DeviceRecord) (call : RemoteCall) (next : Outcome RemoteAnswer → Program α)

namespace Program

/-- Goes on with the value of a program. -/
def bind {α β : Type} (p : Program α) (f : α → Program β) : Program β :=
  match p with
  | finish a => f a
  | countAlive device next => countAlive device fun r => (next r).bind f
  | log entry next => log entry (next.bind f)
  | send device command blob timeout next =>
    send device command blob timeout fun r => (next r).bind f
  | ssh run next => ssh run fun r => (next r).bind f
  | relay device call next => relay device call fun r => (next r).bind f

instance : Monad Program where
  pure := finish
  bind := bind

/-- Writes lines to the device log one by one. -/
def logAll : List LogEntry → Program Unit
  | [] => finish ()
  | entry :: rest => log entry (logAll rest)

/-- Goes on with the value of a successful program; a failure ends it. -/
def andThen {α β : Type} (p : Program (Outcome α)) (f : α → Program (Outcome β)) :
    Program (Outcome β) :=
  p.bind fun
    | .ok a => f a
    | .error e => finish (.error e)

/-- Changes the value of a successful program. -/
def mapOk {α β : Type} (f : α → β) (p : Program (Outcome α)) : Program (Outcome β) :=
  p.andThen fun a => finish (.ok (f a))

@[simp] theorem bind_finish {α β : Type} (a : α) (f : α → Program β) :
    (finish a).bind f = f a := rfl

theorem bind_assoc {α β γ : Type} (p : Program α) (f : α → Program β) (g : β → Program γ) :
    (p.bind f).bind g = p.bind fun a => (f a).bind g := by
  induction p with
  | finish a => rfl
  | countAlive d next ih => simp only [bind]; congr 1; funext r; exact ih r
  | log e next ih => simp only [bind]; rw [ih]
  | send d c b t next ih => simp only [bind]; congr 1; funext r; exact ih r
  | ssh run next ih => simp only [bind]; congr 1; funext r; exact ih r
  | relay d c next ih => simp only [bind]; congr 1; funext r; exact ih r

end Program

/-- One way of reaching a device. -/
structure Transport where
  kind : String
  perform : DeviceRecord → RemoteCall → Program (Outcome RemoteAnswer)

/-- A transport that lives outside of this library. -/
def Transport.relayed (kind : String) : Transport where
  kind := kind
  perform device call := .relay device call .finish

end FleetControl
