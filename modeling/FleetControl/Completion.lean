import FleetControl.Reply
import FleetControl.Uuid

/-!
# Completions

The single-assignment outcome of one command: the first resolution counts, and a completion that
nobody can resolve any more comes to a failure.
-/
namespace FleetControl

/-- The state of one command's outcome. -/
inductive Completion where
  | unresolved
  | resolved (outcome : CommandOutcome)
  /-- The resolving side is gone. -/
  | abandoned

namespace Completion

/-- Resolves an open completion; a later resolution is an error and changes nothing. -/
def resolve (c : Completion) (outcome : CommandOutcome) : Outcome Completion :=
  match c with
  | unresolved => .ok (resolved outcome)
  | _ => .error .alreadyResolved

/-- The resolving side goes away. -/
def abandon : Completion → Completion
  | unresolved => abandoned
  | c => c

/-- What the caller who waits for command `id` gets, if it is decided. -/
def outcome? (c : Completion) (id : String) : Option CommandOutcome :=
  match c with
  | unresolved => none
  | resolved outcome => some outcome
  | abandoned => some (.error (.other ("command " ++ id ++ " was abandoned")))

theorem resolve_resolved (o p : CommandOutcome) :
    (resolved o).resolve p = .error .alreadyResolved := rfl

theorem resolve_abandon (c : Completion) (o : CommandOutcome) :
    c.abandon.resolve o = .error .alreadyResolved := by
  cases c <;> rfl

end Completion

end FleetControl
