import FleetControl.Cluster.Call
import FleetControl.Proofs.Bridge.Job
import FleetControl.Proofs.Bridge.Reply
import FleetControl.Proofs.Cluster.Frame
import FleetControl.Proofs.Store

/-! # From one process to another and back

A command that is submitted as a job is queued in the process that takes the job in time, with the
same blob; a reply that the engine there decides it with is what the caller goes on with. Two
things are lost on the way: a double whose text reads back as its neighbour, and a result nested
so deep that the reply around it cannot be read. -/
namespace FleetControl

namespace Cluster

/-- The texts on a list of the store. -/
def listed (c : Cluster) (key : String) : List String := c.store.store.listed key c.now

theorem listed_push {c c₁ : Cluster} {key value : String} (h : c.push key value = (c₁, .ok ())) :
    c₁.listed key = c.listed key ++ [value] := by
  unfold push SharedStore.rpush at h
  dsimp only at h
  cases hdown : c.store.refusal? .rpush with
  | some e =>
    rw [hdown] at h
    cases h
  | none =>
    cases hpush : c.store.store.rpush key value c.now with
    | error e =>
      rw [hdown, hpush] at h
      cases h
    | ok store =>
      rw [hdown, hpush] at h
      cases h
      rw [listed, store_notify, now_notify]
      exact Store.listed_rpush hpush

theorem awaitPop_listed {c : Cluster} {key value : String} {rest : List String}
    (h : c.listed key = value :: rest) (t : TaskId) (deadline : Nat) :
    c.awaitPop t key deadline = ((c.tryPop key).1.unwait t, some (.ok (some value))) := by
  have hpop : c.tryPop key = ((c.tryPop key).1, .ok (some value)) :=
    Prod.ext rfl (Store.tryPop_listed h).1
  rw [awaitPop, hpop]

/-- A first reply to a job stays on its list for a while. -/
theorem slot_pushReply {c : Cluster} {job : Uuid} (reply : BridgeReply)
    (hup : c.store.refusal? .rpush = none)
    (hfree : c.store.store.live? (BridgeJob.replyKey job) c.now = none) :
    ∃ expiresAt, (c.pushReply job reply).store.store.slots.get? (BridgeJob.replyKey job) =
        some ⟨.list [reply.text], expiresAt⟩ ∧
      ∀ t ∈ expiresAt, t = c.now + BridgeReply.ttl := by
  obtain ⟨store, hpush, hlive⟩ := Store.slot_rpush hfree reply.text
  have hslot := (Option.filter_eq_some_iff.mp hlive).1
  unfold pushReply push SharedStore.rpush
  simp only [hup, hpush, store_notify, now_notify]
  unfold SharedStore.expire
  split
  · exact ⟨none, hslot, by simp⟩
  · exact ⟨_, Store.slot_expire hlive _, by simp [eq_comm]⟩

/-- A job that was submitted lies on the list of its device. -/
theorem push_of_submit {c c₁ : Cluster} {p : Nat} {device : String} {command : Command}
    {blob : Option ByteArray} {timeout : Nat} {job : Uuid}
    (h : c.submit p device command blob timeout = (c₁, .ok job)) :
    c.freshId.1.push (BridgeJob.listKey device)
      (BridgeJob.make job device command blob timeout c.wall).text = (c₁, .ok ()) := by
  unfold submit at h
  dsimp only at h
  have hwall : c.freshId.1.wall = c.wall := rfl
  rw [hwall] at h
  split at h
  · cases h
  · rename_i c₂ hpush
    split at h
    · cases h
    · cases h
      exact hpush

/-- What a worker does with a job that it takes in time. -/
theorem handleJob_make {c : Cluster} {job : Uuid} {device : String} {command : Command}
    {blob : Option ByteArray} {timeout wall : Nat} (hc : command.Faithful)
    (hdepth : (BridgeJob.make job device command blob timeout wall).written.nesting ≤
      Tree.nestingLimit)
    (hfits : wall + timeout < 2 ^ 63) (hnow : c.wall < wall + timeout) (p : Nat) :
    c.handleJob p device (BridgeJob.make job device command blob timeout wall).text =
      let taken := c.enqueue p device command blob (wall + timeout - c.wall)
      (taken.1.spawn (.replier p taken.2 job)).1 := by
  rw [handleJob, BridgeJob.dispose_make (BridgeJob.command_read hc hdepth) hfits hnow]

/-- A caller that takes a reply off its list goes on with what it says. -/
theorem callTurn_reply {c c₁ : Cluster} {t : TaskId} {p : Nat} {bridged : Bool} {job : Uuid}
    {device command raw : String} {timeout deadline : Nat}
    {next : CommandOutcome → Program (Outcome RemoteAnswer)}
    (h : c.awaitPop t (BridgeJob.replyKey job) deadline = (c₁, some (.ok (some raw)))) :
    c.callTurn t p bridged (.awaitingReply job device command timeout deadline next) =
      (c₁.release p device).carry t p bridged
        (next (BridgeReply.outcomeOf raw device command timeout)) := by
  rw [callTurn, h]

/-- What a worker does with the text of a job that it takes off a list in time. -/
theorem workerTurn_make {c : Cluster} {job : Uuid} {device : String} {command : Command}
    {blob : Option ByteArray} {timeout wall : Nat} {rest : List String} (hc : command.Faithful)
    (hdepth : (BridgeJob.make job device command blob timeout wall).written.nesting ≤
      Tree.nestingLimit)
    (hfits : wall + timeout < 2 ^ 63) (hnow : c.wall < wall + timeout)
    (hlisted : c.listed (BridgeJob.listKey device) =
      (BridgeJob.make job device command blob timeout wall).text :: rest)
    (t : TaskId) (p due : Nat) :
    c.workerTurn t p device (.polling due) =
      let taken := ((c.tryPop (BridgeJob.listKey device)).1.unwait t).enqueue p device command blob
        (wall + timeout - c.wall)
      ((taken.1.spawn (.replier p taken.2 job)).1.setTask t (.worker p device .ready), .again) := by
  rw [workerTurn, awaitPop_listed hlisted t due]
  have hwall : ((c.tryPop (BridgeJob.listKey device)).1.unwait t).wall = c.wall := rfl
  generalize (c.tryPop (BridgeJob.listKey device)).1.unwait t = popped at *
  rw [← hwall] at hnow ⊢
  dsimp only
  rw [handleJob_make hc hdepth hfits hnow p]

/-- A reply that was left for a caller is what that goes on with, until it lapses. -/
theorem callTurn_replied {c c' : Cluster} {t u : TaskId} {p q : Nat} {bridged : Bool}
    {id job : Uuid} {device command : String} {timeout due : Nat} {reply : Reply}
    {next : CommandOutcome → Program (Outcome RemoteAnswer)} (hr : reply.result.Faithful)
    (hdepth : reply.result.nesting ≤ 126)
    (hdecided : (c.engine q).outcome? id = some (.ok reply))
    (hup : c.store.refusal? .rpush = none)
    (hfree : c.store.store.live? (BridgeJob.replyKey job) c.now = none)
    (hkept : c'.store.store.slots.get? (BridgeJob.replyKey job) =
      (c.replierTurn t q id job).1.store.store.slots.get? (BridgeJob.replyKey job))
    (hnow : c'.now < c.now + BridgeReply.ttl) :
    c'.callTurn u p bridged (.awaitingReply job device command timeout due next) =
      (((c'.tryPop (BridgeJob.replyKey job)).1.unwait u).release p device).carry u p bridged
        (next (.ok reply)) := by
  obtain ⟨expiresAt, hslot, hexpires⟩ :=
    slot_pushReply (BridgeReply.ofOutcome (.ok reply)) hup hfree
  have hleft : c.replierTurn t q id job =
      (c.pushReply job (BridgeReply.ofOutcome (.ok reply)), .over) := by
    rw [replierTurn, awaitOutcome, hdecided]
  rw [hleft, hslot] at hkept
  have hlisted : c'.listed (BridgeJob.replyKey job) =
      [(BridgeReply.ofOutcome (.ok reply)).text] := by
    refine Store.listed_of_slot hkept fun t ht => ?_
    rw [hexpires t ht]
    exact hnow
  rw [callTurn_reply (awaitPop_listed hlisted u due), BridgeReply.outcomeOf_ok hr hdepth]

/-- A submitted command comes to the end of the list of its device. The worker that takes it off
in time queues the same command with the same blob. A successful outcome of that is what a caller
in the same process goes on with, and what the submitter goes on with while the reply is kept. -/
theorem bridge_carries {c c₁ : Cluster} {p : Nat} {device : String} {command : Command}
    {blob : Option ByteArray} {timeout : Nat} {job : Uuid} {reply : Reply}
    (hsubmit : c.submit p device command blob timeout = (c₁, .ok job))
    (hc : command.Faithful)
    (hdepth : (BridgeJob.make job device command blob timeout c.wall).written.nesting ≤
      Tree.nestingLimit)
    (hfits : c.wall + timeout < 2 ^ 63) (hr : reply.result.Faithful)
    (hresult : reply.result.nesting ≤ 126) :
    ∃ raw, c₁.listed (BridgeJob.listKey device) = c.listed (BridgeJob.listKey device) ++ [raw] ∧
      (∀ (c₂ : Cluster) (t : TaskId) (q due : Nat) (rest : List String),
        c₂.listed (BridgeJob.listKey device) = raw :: rest → c₂.wall < c.wall + timeout →
        c₂.workerTurn t q device (.polling due) =
          let taken := ((c₂.tryPop (BridgeJob.listKey device)).1.unwait t).enqueue q device command
            blob (c.wall + timeout - c₂.wall)
          ((taken.1.spawn (.replier q taken.2 job)).1.setTask t (.worker q device .ready),
            .again)) ∧
      ∀ (c₂ : Cluster) (q : Nat) (id : Uuid), (c₂.engine q).outcome? id = some (.ok reply) →
        (∀ (t : TaskId) (bridged : Bool) (next : CommandOutcome → Program (Outcome RemoteAnswer)),
          c₂.callTurn t q bridged (.awaitingLocal id next) =
            c₂.carry t q bridged (next (.ok reply))) ∧
        (c₂.store.refusal? .rpush = none →
          c₂.store.store.live? (BridgeJob.replyKey job) c₂.now = none →
          ∀ (c₃ : Cluster) (t u : TaskId) (bridged : Bool) (due : Nat)
            (next : CommandOutcome → Program (Outcome RemoteAnswer)),
            c₃.store.store.slots.get? (BridgeJob.replyKey job) =
              (c₂.replierTurn t q id job).1.store.store.slots.get? (BridgeJob.replyKey job) →
            c₃.now < c₂.now + BridgeReply.ttl →
            c₃.callTurn u p bridged
                (.awaitingReply job device command.name timeout due next) =
              (((c₃.tryPop (BridgeJob.replyKey job)).1.unwait u).release p device).carry u p
                bridged (next (.ok reply))) := by
  have hlisted := listed_push (push_of_submit hsubmit)
  refine ⟨_, hlisted, ?_, ?_⟩
  · intro c₂ t q due rest hlisted hnow
    exact workerTurn_make hc hdepth hfits hnow hlisted t q due
  · intro c₂ q id hdecided
    constructor
    · intro t bridged next
      rw [callTurn, awaitOutcome, hdecided]
    · intro hup hfree c₃ t u bridged due next hkept hnow
      exact callTurn_replied hr hresult hdecided hup hfree hkept hnow

/-- A request with numbers at the edges, and a reply with an empty body. -/
def posting : Command :=
  .http ⟨"POST", "/\u0000", some [("low", .int (-(2 ^ 63))),
    ("tenth", .number (.double ⟨0x3fb999999999999a⟩)), ("within", .array [.object [], .null])],
    none⟩

def answered : Reply :=
  ⟨.object [("exit", .int 0), ("high", .int (2 ^ 64 - 1))], some ByteArray.empty⟩

def bridging : Cluster where
  supply := ⟨fun n => ⟨BitVec.ofNat 128 n⟩, fun n => toString n⟩
  epoch := 1700000000000

theorem bridging_submit : bridging.submit 0 "frame-1" posting (some ByteArray.empty) 1500 =
    ((bridging.submit 0 "frame-1" posting (some ByteArray.empty) 1500).1, .ok ⟨0⟩) := by
  rfl

theorem faithful_posting : posting.Faithful := by
  have htenth : (Number.double ⟨0x3fb999999999999a⟩).Exact := by
    change Number.reread _ = _
    decide +kernel
  rintro headers ⟨rfl⟩
  simp only [Json.Faithful, Json.FaithfulMembers, Json.FaithfulItems, Json.int, Number.Exact,
    List.Pairwise.nil, and_true]
  refine ⟨?_, by decide, htenth⟩
  simp only [List.pairwise_cons, List.forall_mem_cons, List.Pairwise.nil]
  decide

theorem faithful_answered : answered.result.Faithful := by
  simp only [answered, Json.Faithful, Json.FaithfulMembers, Json.int, Number.Exact, and_true]
  refine ⟨?_, by decide, by decide⟩
  simp only [List.pairwise_cons, List.forall_mem_cons, List.Pairwise.nil]
  decide

theorem nesting_posting (blob : Option ByteArray) : (BridgeJob.make ⟨0⟩ "frame-1" posting blob 1500
    bridging.wall).written.nesting ≤ Tree.nestingLimit := by
  cases blob
  all_goals
    simp [BridgeJob.written, BridgeJob.members, BridgeJob.make, Command.written, posting,
      Command.args, Command.given, Json.nesting, Json.nestingMembers, Json.nestingItems, Json.int,
      Tree.nestingLimit]

theorem nesting_answered : answered.result.nesting ≤ 126 := by
  simp [answered, Json.nesting, Json.nestingMembers, Json.int]

/-- A request with a double, taken off the list right away. -/
theorem bridge_carries_posting : ∃ c₁ raw,
    bridging.submit 0 "frame-1" posting (some ByteArray.empty) 1500 = (c₁, .ok ⟨0⟩) ∧
      c₁.listed (BridgeJob.listKey "frame-1") = [raw] ∧
      ∀ (t : TaskId) (due : Nat), c₁.workerTurn t 0 "frame-1" (.polling due) =
        let taken := ((c₁.tryPop (BridgeJob.listKey "frame-1")).1.unwait t).enqueue 0 "frame-1"
          posting (some ByteArray.empty) 1500
        ((taken.1.spawn (.replier 0 taken.2 ⟨0⟩)).1.setTask t (.worker 0 "frame-1" .ready),
          .again) := by
  obtain ⟨raw, hlisted, htaken, -⟩ := bridge_carries bridging_submit faithful_posting
    (nesting_posting _) (by decide) faithful_answered nesting_answered
  refine ⟨_, raw, bridging_submit, hlisted, ?_⟩
  intro t due
  exact htaken _ t 0 due [] hlisted (by decide)

/-- A request with one double among its headers. -/
def weighing (d : Double) : Command :=
  .http ⟨"GET", "/", some [("x", .number (.double d))], none⟩

/-- Written as 7.000000000000001e-31. -/
def lighter : Double := ⟨4155807843887380192⟩

/-- The double above, which that text is read as. -/
def heavier : Double := ⟨4155807843887380193⟩

theorem reread_lighter : (Number.double lighter).reread = some (.double heavier) := by
  decide +kernel

theorem weighing_read :
    Command.ofTree? 126 (weighing lighter).written.tree = some (weighing heavier) := by
  have htree : (weighing lighter).written.tree =
      .object [(some "name", .string (some "http")),
        (some "args", .object [(some "method", .string (some "GET")),
          (some "path", .string (some "/")),
          (some "headers", .object [(some "x", .number (some (.double heavier)))])])] := by
    simp only [Command.written, weighing, Command.name, Command.args, Command.given, Json.tree,
      Json.treeMembers, List.cons_append, List.nil_append, List.append_nil, reread_lighter]
  rw [htree]
  rfl

/-- Arrays in arrays. -/
def nested : Nat → Json
  | 0 => .null
  | n + 1 => .array [nested n]

theorem nesting_nested (n : Nat) : (nested n).nesting = n := by
  induction n with
  | zero => rw [nested, Json.nesting.eq_def]
  | succ n ih => rw [nested, Json.nesting, Json.nestingItems, Json.nestingItems, ih, Nat.max_zero]

/-- A job may carry another double than the one submitted, and a result as deep as a document may
be does not come back. -/
theorem bridge_alters :
    ((BridgeJob.make ⟨7⟩ "d" (weighing lighter) none 10000 0).written.nesting ≤
        Tree.nestingLimit ∧
      BridgeJob.dispose (BridgeJob.make ⟨7⟩ "d" (weighing lighter) none 10000 0).text (0 : Nat) =
        .accept ⟨7⟩ (weighing heavier) none 10000 ∧ heavier ≠ lighter) ∧
    (nested 127).nesting = Tree.nestingLimit ∧
      BridgeReply.outcomeOf (BridgeReply.ofOutcome (.ok ⟨nested 127, none⟩)).text "d" "shell"
        10000 = .error (.decode "bridge reply: not a reply") := by
  refine ⟨⟨?_, ?_, by decide⟩, nesting_nested 127, ?_⟩
  · simp [BridgeJob.written, BridgeJob.members, BridgeJob.make, Command.written, weighing,
      Command.args, Command.given, Json.nesting, Json.nestingMembers, Json.int, Tree.nestingLimit]
  · exact BridgeJob.dispose_make weighing_read (by decide) (by decide)
  · have hdeep : 126 < (nested 127).nesting := by
      rw [nesting_nested]
      decide
    rw [BridgeReply.outcomeOf, BridgeReply.parse_text_deep hdeep]

end Cluster

end FleetControl
