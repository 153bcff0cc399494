import FleetControl.Proofs.Bridge.Transfer
import FleetControl.Proofs.Presence.Ledger
import FleetControl.Proofs.Remote.CommandLines
import FleetControl.Remote.Facade

/-! # Which way a call goes

A device that runs commands over the channel is reached over the channel only, and any other device
by the fallback only, unless a command is sent to it as such. A call that needs the channel first
counts the live connections; when it is refused, that was all it did. -/
namespace FleetControl

/-- Neither the client nor a transport outside of this library is asked for. -/
def Exchange.Direct : Exchange → Prop
  | .ssh _ _ => False
  | .relay _ _ _ => False
  | _ => True

/-- Nothing is sent over the channel. -/
def Exchange.OffChannel : Exchange → Prop
  | .send _ _ _ _ _ => False
  | _ => True

namespace Program

variable {α β : Type} {kind : Exchange → Prop}

/-- All exchanges that a program can come to are of some kind, whatever is answered. -/
def Every (kind : Exchange → Prop) : Program α → Prop
  | finish _ => True
  | countAlive device next => ∀ r, kind (.countAlive device r) ∧ Every kind (next r)
  | log entry next => kind (.log entry) ∧ Every kind next
  | send device command blob timeout next =>
    ∀ r, kind (.send device command blob timeout r) ∧ Every kind (next r)
  | ssh run next => ∀ r, kind (.ssh run r) ∧ Every kind (next r)
  | relay device call next => ∀ r, kind (.relay device call r) ∧ Every kind (next r)

theorem Every.run {p : Program α} (h : p.Every kind) (w : Surroundings) (past : List Exchange) :
    ∀ e ∈ (p.run w past).1, kind e := by
  induction p generalizing past with
  | finish a => exact fun _ he => nomatch he
  | log entry next ih => exact List.forall_mem_cons.mpr ⟨h.1, ih h.2 _⟩
  | countAlive device next ih | send device command blob timeout next ih | ssh ssh next ih
  | relay device call next ih => exact List.forall_mem_cons.mpr ⟨(h _).1, ih _ (h _).2 _⟩

theorem Every.bind {p : Program α} {f : α → Program β} (h : p.Every kind)
    (hf : ∀ a, (f a).Every kind) : (p.bind f).Every kind := by
  induction p with
  | finish a => exact hf a
  | log entry next ih => exact ⟨h.1, ih h.2⟩
  | countAlive device next ih | send device command blob timeout next ih | ssh ssh next ih
  | relay device call next ih => exact fun r => ⟨(h r).1, ih r (h r).2⟩

theorem Every.andThen {p : Program (Outcome α)} {f : α → Program (Outcome β)} (h : p.Every kind)
    (hf : ∀ a, (f a).Every kind) : (p.andThen f).Every kind := by
  refine h.bind fun r => ?_
  cases r with
  | ok a => exact hf a
  | error e => trivial

theorem Every.mapOk {p : Program (Outcome α)} (h : p.Every kind) (f : α → β) :
    (p.mapOk f).Every kind := h.andThen fun _ => trivial

theorem every_logAll (h : ∀ entry, kind (.log entry)) (entries : List LogEntry) :
    (logAll entries).Every kind := by
  induction entries with
  | nil => trivial
  | cons entry entries ih => exact ⟨h entry, ih⟩

end Program

open Program

/-- A transport that keeps off the channel. -/
def Transport.OffChannel (t : Transport) : Prop :=
  ∀ device call, (t.perform device call).Every Exchange.OffChannel

namespace ChannelTransport
variable (s : ChannelSettings) (device : DeviceRecord)

theorem every_send (command : Command) (blob : Option ByteArray) :
    (send s device command blob).Every Exchange.Direct := fun _ => ⟨trivial, trivial⟩

theorem every_runCommand (cmd : String) : (runCommand s device cmd).Every Exchange.Direct :=
  (every_send s device _ _).andThen fun _ => trivial

theorem every_runCommands (cmds : List String) (done : List Reply) :
    (runCommands s device done cmds).Every Exchange.Direct := by
  induction cmds generalizing done with
  | nil => trivial
  | cons cmd rest ih =>
    exact (every_runCommand s device cmd).andThen fun reply => ih (reply :: done)

theorem every_sendChunk (write : FileWrite) (zipped : ByteArray) (retries : Nat) :
    (sendChunk s device write zipped retries).Every Exchange.Direct := by
  induction retries with
  | zero => exact (every_send s device _ _).andThen fun _ => trivial
  | succ retries ih =>
    refine (every_send s device _ _).bind fun answer => ?_
    cases answer with
    | ok reply => trivial
    | error e =>
      dsimp only
      split
      · trivial
      · exact ih

theorem every_sendChunks (path : String) (data : ByteArray) (numbers : List Nat) :
    (sendChunks s device path data numbers).Every Exchange.Direct := by
  induction numbers with
  | nil => trivial
  | cons i rest ih => exact (every_sendChunk s device _ _ _).andThen fun _ => ih

/-- The channel transport asks for nothing but the channel. -/
theorem every_perform (call : RemoteCall) : (perform s device call).Every Exchange.Direct := by
  cases call with
  | runCommand cmd => exact (every_runCommand s device cmd).mapOk _
  | runCommands cmds => exact (every_runCommands s device cmds []).mapOk _
  | upload path data => exact (every_sendChunks s device path data _).mapOk _
  | download path => exact (every_send s device _ _).mapOk _
  | deletePath path => exact (every_send s device _ _).mapOk _
  | renamePath src dst => exact (every_send s device _ _).mapOk _
  | makeDir path => exact (every_send s device _ _).mapOk _

end ChannelTransport

namespace SshTransport
variable (device : DeviceRecord) (control : Option String) (command : String)

theorem every_exec (stdin : Option ByteArray) :
    (exec device control command stdin).Every Exchange.OffChannel := by
  unfold exec
  split
  · trivial
  · intro answer
    cases answer <;> exact ⟨trivial, trivial⟩

theorem every_runLogged : (runLogged device control command).Every Exchange.OffChannel :=
  (every_exec device control command none).andThen fun _ =>
    (every_logAll (fun _ => trivial) _).bind fun _ => trivial

theorem every_runBatch (master : String) (cmds : List String) (done : List Reply) :
    (runBatch device master done cmds).Every Exchange.OffChannel := by
  induction cmds generalizing done with
  | nil => trivial
  | cons cmd rest ih =>
    exact (every_runLogged device (some master) cmd).andThen fun reply => ih (reply :: done)

theorem every_runCommands (master : String) (cmds : List String) :
    (runCommands device master cmds).Every Exchange.OffChannel := by
  refine (every_runBatch device master cmds []).bind fun result => ?_
  split
  · trivial
  · exact fun _ => ⟨trivial, trivial⟩

/-- The client keeps off the channel. -/
theorem offChannel_transport (master : String) : (transport master).OffChannel := by
  intro device call
  cases call with
  | runCommand cmd => exact (every_runLogged device none _).mapOk _
  | runCommands cmds => exact (every_runCommands device master cmds).mapOk _
  | upload path data => exact (every_exec device none _ _).mapOk _
  | download path => exact (every_exec device none _ _).mapOk _
  | deletePath path => exact (every_runLogged device none _).mapOk _
  | renamePath src dst => exact (every_runLogged device none _).mapOk _
  | makeDir path => exact (every_runLogged device none _).mapOk _

end SshTransport

namespace Facade

/-- The calls that need a live connection of the device. -/
def Call.NeedsChannel (device : DeviceRecord) : Call → Prop
  | .remote _ => device.agent.enabled = true ∧ device.agent.runCommands = true
  | .sendCommand _ _ _ => True

/-- Why a call that needs a live connection is refused, by the count of live connections. -/
def refusal? (device : DeviceRecord) : Outcome Nat → Option ChannelError
  | .error e => some e
  | .ok 0 => some (.deviceUnreachable device.deviceId)
  | .ok (_ + 1) => none

section Perform
variable {routes : Routes} {device : DeviceRecord}

theorem prefersChannel_iff (a : AgentSettings) :
    a.prefersChannel = true ↔ a.enabled = true ∧ a.runCommands = true := Bool.and_eq_true_iff

theorem perform_remote (h : device.agent.enabled = true ∧ device.agent.runCommands = true)
    (call : RemoteCall) : perform routes device (.remote call) =
      requireChannel device (via (ChannelTransport.transport routes.channel) device call) :=
  if_pos ((prefersChannel_iff _).mpr h)

theorem perform_fallback (h : ¬ (device.agent.enabled = true ∧ device.agent.runCommands = true))
    (call : RemoteCall) :
    perform routes device (.remote call) = via routes.fallback device call :=
  if_neg (mt (prefersChannel_iff _).mp h)

theorem requireChannel_eq {α : Type} (device : DeviceRecord) (go : Program (Outcome α)) :
    requireChannel device go = .countAlive device.deviceId fun count =>
      match refusal? device count with
      | some e => .finish (.error e)
      | none => go := by
  unfold requireChannel
  congr 1
  funext count
  rcases count with e | _ | n <;> rfl

/-- A call that needs the channel counts first. -/
theorem perform_counts {call : Call} (h : call.NeedsChannel device) (routes : Routes) :
    ∃ go, perform routes device call = .countAlive device.deviceId fun count =>
      match refusal? device count with
      | some e => .finish (.error e)
      | none => go := by
  cases call with
  | remote call => exact ⟨_, (perform_remote h call).trans (requireChannel_eq device _)⟩
  | sendCommand command blob timeout => exact ⟨_, requireChannel_eq device _⟩

theorem every_report {kind : Exchange → Prop} (hlog : ∀ entry, kind (.log entry)) {α : Type}
    (what : String) (result : Outcome α) : (report device what result).Every kind := by
  cases result with
  | ok a => trivial
  | error e => exact ⟨hlog _, trivial⟩

theorem every_via {kind : Exchange → Prop} (hlog : ∀ entry, kind (.log entry)) {t : Transport}
    {call : RemoteCall} (h : (t.perform device call).Every kind) :
    (via t device call).Every kind :=
  (every_logAll hlog _).bind fun _ => h.bind fun result => every_report hlog _ result

theorem every_requireChannel {α : Type} {go : Program (Outcome α)}
    (h : go.Every Exchange.Direct) : (requireChannel device go).Every Exchange.Direct := by
  intro count
  rcases count with e | _ | n
  · exact ⟨trivial, trivial⟩
  · exact ⟨trivial, trivial⟩
  · exact ⟨trivial, h⟩

theorem every_sendCommand (routes : Routes) (device : DeviceRecord) (command : Command)
    (blob : Option ByteArray) (timeout : Option Nat) :
    (perform routes device (.sendCommand command blob timeout)).Every Exchange.Direct :=
  every_requireChannel ⟨trivial, fun result =>
    ⟨trivial, (every_report (fun _ => trivial) "agent" result).mapOk _⟩⟩

/-- What needs the channel never reaches the fallback. -/
theorem every_direct {call : Call} (h : call.NeedsChannel device) (routes : Routes) :
    (perform routes device call).Every Exchange.Direct := by
  cases call with
  | remote call =>
    rw [perform_remote h call]
    exact every_requireChannel
      (every_via (fun _ => trivial) (ChannelTransport.every_perform routes.channel device call))
  | sendCommand command blob timeout => exact every_sendCommand routes device command blob timeout

/-- What does not need the channel never reaches it. -/
theorem every_offChannel {call : Call} (hfallback : routes.fallback.OffChannel)
    (h : ¬ call.NeedsChannel device) : (perform routes device call).Every Exchange.OffChannel := by
  cases call with
  | remote call =>
    rw [perform_fallback h call]
    exact every_via (fun _ => trivial) (hfallback device call)
  | sendCommand command blob timeout => exact absurd trivial h

end Perform

/-! ### Calls one after the other -/

/-- A call with what it asked for and what it answered. -/
structure Served where
  device : DeviceRecord
  call : Call
  exchanges : List Exchange
  answer : Outcome RemoteAnswer

/-- Serves calls in order, each behind the exchanges of those before it. -/
def serve (routes : Routes) (w : Surroundings) (past : List Exchange) :
    List (DeviceRecord × Call) → List Served
  | [] => []
  | (device, call) :: rest =>
    let r := (perform routes device call).run w past
    ⟨device, call, r.1, r.2⟩ :: serve routes w (past ++ r.1) rest

/-- A call went the way that is meant for it, and if it was refused, it did nothing but count. -/
structure Served.Routed (s : Served) : Prop where
  direct : s.device.agent.enabled = true → s.device.agent.runCommands = true →
    ∀ e ∈ s.exchanges, e.Direct
  offChannel : ¬ (s.device.agent.enabled = true ∧ s.device.agent.runCommands = true) →
    ∀ call, s.call = .remote call → ∀ e ∈ s.exchanges, e.OffChannel
  counted : s.call.NeedsChannel s.device → ∃ count rest,
    s.exchanges = .countAlive s.device.deviceId count :: rest ∧
      ∀ e, refusal? s.device count = some e → rest = [] ∧ s.answer = .error e

theorem routed_perform {routes : Routes} (hfallback : routes.fallback.OffChannel)
    (device : DeviceRecord) (call : Call) (w : Surroundings) (past : List Exchange) :
    Served.Routed ⟨device, call, ((perform routes device call).run w past).1,
      ((perform routes device call).run w past).2⟩ := by
  constructor
  · intro henabled hcommands
    have hneeds : call.NeedsChannel device := by
      cases call with
      | remote call => exact ⟨henabled, hcommands⟩
      | sendCommand command blob timeout => trivial
    exact (every_direct hneeds routes).run w past
  · rintro hother call rfl
    have hoff : (perform routes device (.remote call)).Every Exchange.OffChannel :=
      every_offChannel hfallback hother
    exact hoff.run w past
  · intro hneeds
    obtain ⟨go, hgo⟩ := perform_counts hneeds routes
    dsimp only
    rw [hgo]
    refine ⟨_, _, rfl, fun e he => ?_⟩
    simp only [run, he]
    exact ⟨trivial, trivial⟩

theorem routed_serve {routes : Routes} (hfallback : routes.fallback.OffChannel) (w : Surroundings)
    (past : List Exchange) (calls : List (DeviceRecord × Call)) :
    ∀ s ∈ serve routes w past calls, s.Routed := by
  induction calls generalizing past with
  | nil => exact fun _ hs => nomatch hs
  | cons first rest ih =>
    exact List.forall_mem_cons.mpr ⟨routed_perform hfallback first.1 first.2 w past, ih _⟩

end Facade

namespace Cluster

/-! ### Calls in a cluster -/

/-- What a call could set in motion is as it was: the processes with their engines, and the lists
of the store. -/
structure Untouched (c c' : Cluster) : Prop where
  processes : c'.processes = c.processes
  lists : ∀ key, c'.listed key = c.listed key

theorem Untouched.trans {c₁ c₂ c₃ : Cluster} (h : Untouched c₁ c₂) (h' : Untouched c₂ c₃) :
    Untouched c₁ c₃ :=
  ⟨h'.processes.trans h.processes, fun key => (h'.lists key).trans (h.lists key)⟩

/-- Whose turn is next does not matter. -/
theorem Untouched.of_ready {c c' : Cluster} {ready : List TaskId}
    (h : Untouched { c with ready := ready } c') : Untouched c c' :=
  ⟨h.processes, h.lists⟩

theorem listed_of_fades {now : Nat} {s s' : Store} (h : Ledger.Fades now s s') (key : String) :
    s'.listed key now = s.listed key now := by
  have hlive : s'.live? key now = s.live? key now := by
    rcases h key with hkept | hfaded
    · rw [Store.live?, hkept, Store.live?]
    · rw [Store.live?, hfaded, Store.live?, Option.filter_filter]
      simp only [Bool.and_self]
  rw [Store.listed, hlive, Store.listed]

theorem untouched_countAlive {c : Cluster} (h : c.store.store.Filed) (device : String) :
    Untouched c (c.countAlive device).1 :=
  ⟨rfl, listed_of_fades (Ledger.fades_countAlive h device)⟩

theorem untouched_deliver (c : Cluster) (t : TaskId) (r : TaskResult) :
    Untouched c (c.deliver t r) := ⟨rfl, fun _ => rfl⟩

theorem untouched_finish (c : Cluster) (t : TaskId) : Untouched c (c.finish t) := by
  refine ⟨processes_finish c t, fun key => ?_⟩
  rw [listed, listed, store_finish, now_finish]

/-- A program that keeps off the channel is over in one turn. -/
theorem carry_offChannel (t : TaskId) (p : Nat) (bridged : Bool)
    {program : Program (Outcome RemoteAnswer)} (h : program.Every Exchange.OffChannel) {c : Cluster}
    (hfiled : c.store.store.Filed) :
    (c.carry t p bridged program).2 = .over ∧ Untouched c (c.carry t p bridged program).1 := by
  induction program generalizing c with
  | finish answer => exact ⟨rfl, untouched_deliver c t _⟩
  | countAlive device next ih =>
    obtain ⟨hover, huntouched⟩ := ih _ (h _).2 (files_countAlive c device hfiled)
    exact ⟨hover, (untouched_countAlive hfiled device).trans huntouched⟩
  | log entry next ih =>
    obtain ⟨hover, huntouched⟩ := ih h.2 (c := c.write [entry]) hfiled
    exact ⟨hover, huntouched.processes, huntouched.lists⟩
  | send device command blob timeout next ih => exact (h (.ok {})).1.elim
  | ssh run next ih => exact ih _ (h _).2 hfiled
  | relay device call next ih => exact ih _ (h _).2 hfiled

theorem log_finish (c : Cluster) (t : TaskId) : (c.finish t).log = c.log := by
  obtain ⟨woken, parked, h⟩ := c.finish_eq t
  rw [h]
  rfl

section Give
variable {c : Cluster} {t : TaskId} {p : Nat} {bridged : Bool} {routes : Facade.Routes}
  {device : DeviceRecord} {call : Facade.Call}

/-- The turn in which a call begins, when it is also the turn in which it ends. -/
theorem give_running {program : Program (Outcome RemoteAnswer)} {c' : Cluster}
    (hready : t ∈ c.ready)
    (htask : c.tasks.get? t = some (.call p bridged (.running program)))
    (hover : carry { c with ready := c.ready.erase t } t p bridged program = (c', .over)) :
    c.give t = c'.finish t := by
  have hturn : turn { c with ready := c.ready.erase t } t = (c', .over) := by
    rw [turn]
    simp only [htask]
    exact hover
  rw [give_of_mem hready, hturn, conclude]

theorem carry_refused (hneeds : call.NeedsChannel device) {e : ChannelError}
    (he : Facade.refusal? device (c.countAlive device.deviceId).2 = some e) :
    c.carry t p bridged (Facade.perform routes device call) =
      ((c.countAlive device.deviceId).1.deliver t (.answer (.error e)), .over) := by
  obtain ⟨go, hgo⟩ := Facade.perform_counts hneeds routes
  simp only [hgo, carry, he]

/-- A call that is refused by the count of live connections leaves no trace but its answer. -/
theorem give_refused (hfiled : c.store.store.Filed) (hready : t ∈ c.ready)
    (htask : c.tasks.get? t =
      some (.call p bridged (.running (Facade.perform routes device call))))
    (hneeds : call.NeedsChannel device) {e : ChannelError}
    (he : Facade.refusal? device (c.countAlive device.deviceId).2 = some e) :
    Untouched c (c.give t) ∧ (c.give t).log = c.log ∧
      (c.give t).results = c.results ++ [(t, .answer (.error e))] ∧
      (c.give t).tasks = c.tasks.erase t := by
  rw [give_running hready htask (carry_refused hneeds he)]
  refine ⟨?_, log_finish _ t, results_finish _ t, tasks_finish _ t⟩
  have hcounted := untouched_countAlive (c := { c with ready := c.ready.erase t }) hfiled
    device.deviceId
  exact ((hcounted.trans (untouched_deliver _ t _)).trans (untouched_finish _ t)).of_ready

/-- A call that does not need the channel is over in one turn. -/
theorem give_offChannel (hfallback : routes.fallback.OffChannel) (hfiled : c.store.store.Filed)
    (hready : t ∈ c.ready)
    (htask : c.tasks.get? t =
      some (.call p bridged (.running (Facade.perform routes device call))))
    (hother : ¬ call.NeedsChannel device) : Untouched c (c.give t) := by
  obtain ⟨hover, huntouched⟩ := carry_offChannel t p bridged
    (Facade.every_offChannel hfallback hother)
    (c := { c with ready := c.ready.erase t }) hfiled
  rw [give_running hready htask (Prod.ext rfl hover)]
  exact (huntouched.trans (untouched_finish _ t)).of_ready

end Give

end Cluster

namespace Facade

/-- Whatever is called for and however the requests are answered, each call goes the way that is
meant for it, and one that is refused does nothing but count. In a cluster, where all of this goes
on at once, a refused call leaves the engines, the lists of the store and the device log as they
were. -/
theorem calls_strictly_routed {routes : Routes} (hfallback : routes.fallback.OffChannel) :
    (∀ w past calls, ∀ s ∈ serve routes w past calls, s.Routed) ∧
    ∀ supply epoch directory es t p bridged device call,
      let c := (Cluster.initial supply epoch directory).after es
      t ∈ c.ready →
      c.tasks.get? t = some (.call p bridged (.running (perform routes device call))) →
      (call.NeedsChannel device → ∀ e,
        refusal? device (c.countAlive device.deviceId).2 = some e →
        c.Untouched (c.give t) ∧ (c.give t).log = c.log ∧
          (c.give t).results = c.results ++ [(t, .answer (.error e))] ∧
          (c.give t).tasks = c.tasks.erase t) ∧
      (¬ call.NeedsChannel device → c.Untouched (c.give t)) := by
  refine ⟨routed_serve hfallback, fun supply epoch directory es t p bridged device call => ?_⟩
  intro c hready htask
  have hfiled : c.store.store.Filed := Cluster.filed_after es Store.filed_empty
  exact ⟨fun hneeds e he => Cluster.give_refused hfiled hready htask hneeds he,
    Cluster.give_offChannel hfallback hfiled hready htask⟩

/-- A device that is reached over the channel only. -/
def agented : DeviceRecord where
  deviceId := "frame-1"
  apiKey := "k1"
  sharedSecret := "s1"
  agent := ⟨true, true⟩

/-- A command for a device without a connection, in a process that has just started. -/
def unconnected : Cluster :=
  (Cluster.initial ⟨Uuid.numbered 1, toString⟩ 0 { directory := {} }).after
    [.addProcess (.ofConfig {}), .call 0 agented (.remote (.runCommand "uptime"))]

/-- The ways in which that process reaches a device. -/
def startRoutes : Routes :=
  ⟨(ServerSettings.ofConfig {}).channel,
    SshTransport.transport ("/tmp/fos-" ++ String.ofList ((Uuid.numbered 1 0).digits.take 12))⟩

/-- A device without a connection is not reached at all, and one without an agent by the client. -/
theorem calls_strictly_routed_unconnected :
    startRoutes.fallback.OffChannel ∧
    (∀ s ∈ serve startRoutes SshTransport.smooth []
      [(agented, .remote (.runCommand "uptime")), (SshTransport.remote, .remote (.download "/a"))],
      s.Routed) ∧
    0 ∈ unconnected.ready ∧
    unconnected.tasks.get? 0 = some (.call 0 false
      (.running (perform startRoutes agented (.remote (.runCommand "uptime"))))) ∧
    refusal? agented (unconnected.countAlive "frame-1").2 = some (.deviceUnreachable "frame-1") ∧
    unconnected.Untouched (unconnected.give 0) ∧ (unconnected.give 0).log = unconnected.log ∧
    (unconnected.give 0).results = [(0, .answer (.error (.deviceUnreachable "frame-1")))] := by
  have hfallback : startRoutes.fallback.OffChannel := SshTransport.offChannel_transport _
  obtain ⟨hserved, hcluster⟩ := calls_strictly_routed hfallback
  have hready : 0 ∈ unconnected.ready := by decide
  have htask : unconnected.tasks.get? 0 = some (.call 0 false
      (.running (perform startRoutes agented (.remote (.runCommand "uptime"))))) := rfl
  have hrefused : refusal? agented (unconnected.countAlive "frame-1").2 =
      some (.deviceUnreachable "frame-1") := rfl
  obtain ⟨huntouched, hlog, hresults, -⟩ :=
    (hcluster _ _ _ _ 0 0 false agented (.remote (.runCommand "uptime")) hready htask).1
      ⟨rfl, rfl⟩ _ hrefused
  exact ⟨hfallback, hserved _ _ _, hready, htask, hrefused, huntouched, hlog, hresults⟩

end Facade

end FleetControl
