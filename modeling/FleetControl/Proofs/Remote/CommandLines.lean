import FleetControl.Proofs.Remote.Exchange
import FleetControl.Proofs.Text.Words
import FleetControl.Remote.Ssh

/-! # Paths in command lines

An operation on paths is one run of the client, whose command line the shell of the device reads as
the words of the operation with each path as one of them. Nothing in a path ends a word, expands,
redirects or begins another command. -/
namespace FleetControl

def Exchange.client? : Exchange → Option SshRun
  | .ssh run _ => some run
  | _ => none

namespace Program

variable {α β : Type}

/-- The runs of the client that a program asks for. -/
def clients (w : Surroundings) (past : List Exchange) (p : Program α) : List SshRun :=
  (p.run w past).1.filterMap Exchange.client?

theorem clients_mapOk (w : Surroundings) (past : List Exchange) (p : Program (Outcome α))
    (f : α → β) : clients w past (p.mapOk f) = clients w past p := by
  rcases hp : p.run w past with ⟨done, r⟩
  rw [clients, clients, run_mapOk f hp, hp]

theorem logAll_run (w : Surroundings) (past : List Exchange) (entries : List LogEntry) :
    (logAll entries).run w past = (entries.map .log, ()) := by
  induction entries generalizing past with
  | nil => rfl
  | cons entry entries ih => rw [logAll, run, ih, List.map_cons]

theorem logAll_finish_run (w : Surroundings) (past : List Exchange) (entries : List LogEntry)
    (a : α) : ((logAll entries).bind fun _ => finish a).run w past = (entries.map .log, a) := by
  have h : ((logAll entries).bind fun _ => finish a).run w past = (entries.map .log ++ [], a) :=
    run_bind (logAll_run w past entries) rfl
  rwa [List.append_nil] at h

end Program

namespace SshTransport

open Program
open Shell (Lexeme Leaves read?)

/-- What the shell of the device shall read for an operation on paths. -/
def wording? : RemoteCall → Option (List Lexeme)
  | .upload path _ => some [.word "cat", .operator ">", .word path]
  | .download path => some [.word "cat", .word path]
  | .deletePath path => some [.word "rm", .word "-rf", .word path]
  | .renamePath src dst => some [.word "mv", .word src, .word dst]
  | .makeDir path => some [.word "mkdir", .word "-p", .word path]
  | .runCommand _ => none
  | .runCommands _ => none

/-- What is written to the input of the command. -/
def content? : RemoteCall → Option ByteArray
  | .upload _ data => some data
  | _ => none

section Clients
variable (device : DeviceRecord) (control : Option String) (command : String) (w : Surroundings)
  (past : List Exchange)

/-- The run of the client for a command line, if there is a host to run it on. -/
def runsOf (stdin : Option ByteArray) : List SshRun :=
  if device.host = "" then [] else [⟨baseArgs device control ++ ["--", command], stdin⟩]

theorem clients_exec (stdin : Option ByteArray) :
    clients w past (exec device control command stdin) = runsOf device control command stdin := by
  unfold exec runsOf
  split
  · rfl
  · simp only [clients, run, List.filterMap_cons, Exchange.client?]
    split <;> rfl

/-- Whatever comes out of a command goes to the device log, and to no other command. -/
theorem clients_runLogged :
    clients w past (runLogged device control command) = runsOf device control command none := by
  have hexec := clients_exec device control command w past none
  rcases hr : (exec device control command none).run w past with ⟨done, r⟩
  rw [clients, hr] at hexec
  rw [← hexec, clients, runLogged]
  cases r with
  | error e => rw [run_andThen_error hr]
  | ok exit =>
    rw [run_andThen hr (logAll_finish_run w _ _ (Except.ok (replyOf exit)))]
    simp [Exchange.client?, Function.comp_def]

end Clients

theorem leaves_catInto : Leaves "cat > " [.word "cat", .operator ">"] := ⟨_, rfl, rfl⟩

theorem leaves_cat : Leaves "cat " [.word "cat"] := ⟨_, rfl, rfl⟩

theorem leaves_rm : Leaves "rm -rf " [.word "rm", .word "-rf"] := ⟨_, rfl, rfl⟩

theorem leaves_mv : Leaves "mv " [.word "mv"] := ⟨_, rfl, rfl⟩

theorem leaves_mkdir : Leaves "mkdir -p " [.word "mkdir", .word "-p"] := ⟨_, rfl, rfl⟩

/-- An operation on paths runs one command line at most, and that says the words of the operation
and the paths, whatever characters they are made of. -/
theorem paths_are_words {call : RemoteCall} {words : List Lexeme} (h : wording? call = some words)
    (control : String) (device : DeviceRecord) (w : Surroundings) (past : List Exchange) :
    ∃ line, read? line = some words ∧
      clients w past (perform control device call) =
        if device.host = "" then []
        else [⟨baseArgs device none ++ ["--", line], content? call⟩] := by
  cases call with
  | upload path data =>
    obtain rfl := Option.some_inj.mp h
    exact ⟨_, leaves_catInto.read_quote path,
      (clients_mapOk w past _ _).trans (clients_exec device none _ w past (some data))⟩
  | download path =>
    obtain rfl := Option.some_inj.mp h
    exact ⟨_, leaves_cat.read_quote path,
      (clients_mapOk w past _ _).trans (clients_exec device none _ w past none)⟩
  | deletePath path =>
    obtain rfl := Option.some_inj.mp h
    exact ⟨_, leaves_rm.read_quote path,
      (clients_mapOk w past _ _).trans (clients_runLogged device none _ w past)⟩
  | renamePath src dst =>
    obtain rfl := Option.some_inj.mp h
    exact ⟨_, (leaves_mv.quote src).read_quote dst,
      (clients_mapOk w past _ _).trans (clients_runLogged device none _ w past)⟩
  | makeDir path =>
    obtain rfl := Option.some_inj.mp h
    exact ⟨_, leaves_mkdir.read_quote path,
      (clients_mapOk w past _ _).trans (clients_runLogged device none _ w past)⟩
  | runCommand cmd => cases h
  | runCommands cmds => cases h

/-- A device that is reached over the client. -/
def remote : DeviceRecord where
  deviceId := "frame-1"
  apiKey := "k1"
  sharedSecret := "s1"
  host := "10.0.0.5"

/-- Surroundings in which nothing goes wrong. -/
def smooth : Surroundings where
  alive _ _ := .ok 0
  channel _ _ _ _ _ := .ok {}
  ssh _ _ := .ok ⟨ByteArray.empty, ByteArray.empty, some 0, none⟩
  relay _ _ _ := .ok .done

/-- A path that is made to do harm stays a path. -/
theorem paths_are_words_hostile :
    wording? (.renamePath "a'; reboot #" "$(id)\n!*") =
        some [.word "mv", .word "a'; reboot #", .word "$(id)\n!*"] ∧
      ∃ line, read? line = some [.word "mv", .word "a'; reboot #", .word "$(id)\n!*"] ∧
        clients smooth [] (perform "" remote (.renamePath "a'; reboot #" "$(id)\n!*")) =
          [⟨baseArgs remote none ++ ["--", line], none⟩] := by
  have hwords : wording? (.renamePath "a'; reboot #" "$(id)\n!*") =
      some [.word "mv", .word "a'; reboot #", .word "$(id)\n!*"] := rfl
  obtain ⟨line, hread, hclients⟩ := paths_are_words hwords "" remote smooth []
  exact ⟨hwords, line, hread, hclients.trans (if_neg (by decide))⟩

end SshTransport

end FleetControl
