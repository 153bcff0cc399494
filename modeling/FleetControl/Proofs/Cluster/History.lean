import FleetControl.Cluster.Environment
import FleetControl.Proofs.Cluster.Scheduling

/-! # Histories

Everything that can happen to a cluster, inside and from outside, one event at a time. Tasks get
their turns in any order, and between two turns anything may come from outside. -/
namespace FleetControl.Cluster

inductive Event where
  | turn (t : TaskId)
  | pass (ms : Nat)
  | addProcess (settings : ServerSettings)
  | setOutages (down : List StoreOp)
  | setDirectory (directory : DirectoryService)
  | connect (p : Nat) (address : Address)
  | arrive (s : Nat) (m : Incoming)
  | deafen (s : Nat)
  | stall (s : Nat)
  | resume (s : Nat)
  | vanish (s : Nat)
  | takeFrames (s : Nat)
  | takeLog
  | takeResults
  | call (p : Nat) (device : DeviceRecord) (operation : Facade.Call)
  | callBridged (p : Nat) (device : String) (command : Command) (blob : Option ByteArray)
      (timeout : Nat)
  | consume (p : Nat) (device : String)
  | await (p : Nat) (id : Uuid)
  | pop (key : String) (timeout : Nat)
  | popNow (key : String)
  | beat (p : Nat) (conn : Uuid) (interval : Nat)

def happen (c : Cluster) : Event → Cluster
  | .turn t => c.give t
  | .pass ms => c.pass ms
  | .addProcess settings => c.addProcess settings
  | .setOutages down => c.setOutages down
  | .setDirectory directory => { c with directory := directory }
  | .connect p address => (c.connect p address).1
  | .arrive s m => (c.arrive s m).1
  | .deafen s => c.deafen s
  | .stall s => c.stall s
  | .resume s => c.resume s
  | .vanish s => c.vanish s
  | .takeFrames s => (c.takeFrames s).1
  | .takeLog => c.takeLog.1
  | .takeResults => c.takeResults.1
  | .call p device operation => (c.call p device operation).1
  | .callBridged p device command blob timeout =>
    (c.callBridged p device command blob timeout).1
  | .consume p device => (c.consume p device).1
  | .await p id => (c.await p id).1
  | .pop key timeout => (c.pop key timeout).1
  | .popNow key => (c.popNow key).1
  | .beat p conn interval => (c.beat p conn interval).1

def after (c : Cluster) : List Event → Cluster
  | [] => c
  | e :: es => after (happen c e) es

theorem after_cons (c : Cluster) (e : Event) (es : List Event) :
    c.after (e :: es) = (happen c e).after es := rfl

theorem after_append (c : Cluster) (es fs : List Event) :
    c.after (es ++ fs) = (c.after es).after fs := by
  induction es generalizing c with
  | nil => rfl
  | cons e es ih => exact ih (happen c e)

/-- A cluster in which nothing has happened yet. -/
def initial (supply : Supply) (epoch : Nat) (directory : DirectoryService) : Cluster :=
  { supply := supply, epoch := epoch, directory := directory }

/-- A cluster whose processes have just started. -/
def running (supply : Supply) (epoch : Nat) (settings : List ServerSettings) : Cluster :=
  settings.foldl addProcess (initial supply epoch { directory := {} })

theorem foldl_addProcess (settings : List ServerSettings) (c : Cluster) :
    settings.foldl addProcess c =
      { c with processes := (settings.foldl addProcess c).processes } := by
  induction settings generalizing c with
  | nil => rfl
  | cons s settings ih => exact (ih (c.addProcess s)).trans rfl

theorem running_eq (supply : Supply) (epoch : Nat) (settings : List ServerSettings) :
    running supply epoch settings = { initial supply epoch { directory := {} } with
      processes := (running supply epoch settings).processes } :=
  foldl_addProcess settings _

/-- Processes are numbered in the order in which they start. -/
theorem get?_foldl_addProcess (settings old : List ServerSettings) {c : Cluster}
    (hlength : c.processes.length = old.length)
    (h : ∀ p, c.processes.get? p = old[p]?.map Process.fresh) (p : Nat) :
    (settings.foldl addProcess c).processes.get? p = (old ++ settings)[p]?.map Process.fresh := by
  induction settings generalizing c old with
  | nil => rw [List.append_nil]; exact h p
  | cons s settings ih =>
    have hnew : c.processes.has c.processes.length = false := by
      rw [Table.has_eq_false, h, hlength, List.getElem?_eq_none (Nat.le_refl _)]
      rfl
    have hlonger : (c.addProcess s).processes.length = (old ++ [s]).length := by
      have hkeys := congrArg List.length (Table.keys_put c.processes c.processes.length (.fresh s))
      rw [hnew, if_neg Bool.false_ne_true] at hkeys
      simpa [Table.keys, addProcess, hlength] using hkeys
    rw [List.append_cons]
    refine ih (old ++ [s]) hlonger fun q => ?_
    change (c.processes.put c.processes.length (.fresh s)).get? q = _
    rw [Table.get?_put, h, hlength]
    split
    · rename_i hq
      rw [hq, List.getElem?_concat_length]
      rfl
    · rename_i hq
      rcases Nat.lt_or_gt_of_ne hq with hlt | hgt
      · rw [List.getElem?_append_left hlt]
      · rw [List.getElem?_eq_none (Nat.le_of_lt hgt),
          List.getElem?_eq_none (by rw [List.length_append]; exact hgt)]

theorem get?_running (supply : Supply) (epoch : Nat) (settings : List ServerSettings) (p : Nat) :
    (running supply epoch settings).processes.get? p = settings[p]?.map Process.fresh :=
  get?_foldl_addProcess settings [] rfl (fun _ => rfl) p

/-- The steps in the order of the queue are one of the histories. -/
theorem run_eq_after (fuel : Nat) (c : Cluster) :
    ∃ ts : List TaskId, run fuel c = c.after (ts.map .turn) := by
  obtain ⟨ts, h⟩ := run_eq_gives fuel c
  have hturns : ∀ (ts : List TaskId) (c : Cluster), ts.foldl give c = c.after (ts.map .turn) := by
    intro ts
    induction ts with
    | nil => exact fun _ => rfl
    | cons t ts ih => exact fun c => ih (c.give t)
  exact ⟨ts, h.trans (hturns ts c)⟩

end FleetControl.Cluster
