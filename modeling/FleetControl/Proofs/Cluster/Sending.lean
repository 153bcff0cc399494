import FleetControl.Proofs.Cluster.Admission
import FleetControl.Proofs.Cluster.Feeding
import FleetControl.Proofs.Cluster.Framing
import FleetControl.Proofs.Cluster.Sockets

/-! # What goes out on a socket

While a sender is there, its socket carries the frames of the commands that it takes up, one
command behind the other. Nothing but answers to pings comes in between. -/
namespace FleetControl

/-- The frames of a command that a sender has still to send. -/
def SenderPhase.left : SenderPhase → List Frame
  | .idle => []
  | .sending _ rest => rest

/-- New frames on a socket carry what was to be sent but for what is left, and pongs. -/
structure Carries (whole left new : List Frame) : Prop where
  pongs : ∀ f ∈ new, f.isData = true ∨ ∃ data, f = .pong data
  data : new.filter Frame.isData ++ left = whole

section Carries
variable {whole left left' more new new' : List Frame}

theorem carries_nil (whole : List Frame) : Carries whole whole [] := ⟨nofun, rfl⟩

theorem Carries.append (h : Carries whole left new) (h' : Carries (left ++ more) left' new') :
    Carries (whole ++ more) left' (new ++ new') where
  pongs f hf := (List.mem_append.mp hf).elim (h.pongs f) (h'.pongs f)
  data := by rw [List.filter_append, List.append_assoc, h'.data, ← List.append_assoc, h.data]

theorem carries_pongs (whole : List Frame) (h : ∀ f ∈ new, ∃ data, f = .pong data) :
    Carries whole whole new where
  pongs f hf := Or.inr (h f hf)
  data := by
    have hnone : new.filter Frame.isData = [] := by
      refine List.filter_eq_nil_iff.mpr fun f hf => ?_
      obtain ⟨data, rfl⟩ := h f hf
      exact Bool.false_ne_true
    rw [hnone, List.nil_append]

theorem carries_one {f : Frame} (hf : f.isData = true) (rest : List Frame) :
    Carries (f :: rest) rest [f] where
  pongs g hg := Or.inl (List.mem_singleton.mp hg ▸ hf)
  data := by rw [List.filter_cons_of_pos hf, List.filter_nil]; rfl

/-- What is left of data frames is data frames. -/
theorem Carries.left_data (h : Carries whole left new) (hw : ∀ f ∈ whole, f.isData = true) :
    ∀ f ∈ left, f.isData = true := fun f hf =>
  hw f (h.data ▸ List.mem_append_right _ hf)

end Carries

namespace Cluster

/-- The command that a sender takes up in an event. -/
def order? (c : Cluster) (u : TaskId) (e : Event) : Option Order :=
  match c.tasks.get? u, (happen c e).tasks.get? u with
  | some (.sender _ _ _ _ .idle), some (.sender _ _ _ _ (.sending item _)) =>
    some ⟨item, c.wallSeconds⟩
  | _, _ => none

/-- The commands that a sender takes up in a history. -/
def orders (c : Cluster) (u : TaskId) : List Event → List Order
  | [] => []
  | e :: es => (c.order? u e).toList ++ orders (happen c e) u es

theorem orders_append (c : Cluster) (u : TaskId) (es fs : List Event) :
    c.orders u (es ++ fs) = c.orders u es ++ (c.after es).orders u fs := by
  induction es generalizing c with
  | nil => rfl
  | cons e es ih => rw [List.cons_append, orders, orders, ih, List.append_assoc]; rfl

theorem outgoing_conclude (t : TaskId) (r : Cluster × Turn) :
    (conclude t r).outgoing = r.1.outgoing := by
  obtain ⟨c', ends⟩ := r
  cases ends with
  | again => rfl
  | waits => rfl
  | _ => exact outgoing_finish c' t

/-- Who is there after its turn was not over. -/
theorem tasks_conclude {t : TaskId} {r : Cluster × Turn} {task : Task}
    (h : (conclude t r).tasks.get? t = some task) :
    r.2 ≠ .over ∧ r.1.tasks.get? t = some task := by
  obtain ⟨c', ends⟩ := r
  cases ends with
  | again => exact ⟨nofun, h⟩
  | waits => exact ⟨nofun, h⟩
  | _ =>
    rw [conclude, tasks_finish, Table.get?_erase_self] at h
    cases h

section Turns
variable {c : Cluster} {u : TaskId} {p s : Nat} {device : DeviceRecord} {conn : Uuid}
  {phase later : SenderPhase}

theorem order?_same (h : c.tasks.get? u = some (.sender p s device conn phase)) {e : Event}
    (h' : (happen c e).tasks.get? u = some (.sender p s device conn phase)) :
    c.order? u e = none := by
  rw [order?, h, h']
  cases phase <;> rfl

/-- A sender that wants a command takes one up, or goes on wanting one. -/
theorem tasks_idleTurn (h : c.tasks.get? u = some (.sender p s device conn .idle))
    (h' : (c.idleTurn u p s device conn).1.tasks.get? u = some (.sender p s device conn later)) :
    later = .idle ∨ ∃ item, later = .sending item (commandFrames device item c.wallSeconds) := by
  have hsame : ∀ {c' : Cluster}, c'.tasks = c.tasks →
      c'.tasks.get? u = some (.sender p s device conn later) → later = .idle := by
    intro c' htasks hu
    rw [htasks, h] at hu
    cases hu
    rfl
  have hpop : (c.popLive p device.deviceId).1.tasks = c.tasks := rfl
  have hwall : (c.popLive p device.deviceId).1.wallSeconds = c.wallSeconds := rfl
  unfold idleTurn at h'
  split at h'
  · exact Or.inl (hsame rfl h')
  · split at h' <;> rename_i hp <;> rw [hp] at hpop hwall
    · exact Or.inl (hsame (((still_park _ u _).trans (still_park _ u _)).tasks.trans hpop) h')
    · rename_i c₁ item
      dsimp only at h'
      split at h'
      · unfold dispatch at h'
        dsimp only [setTask] at h'
        rw [Table.get?_put_self] at h'
        refine Or.inr ⟨item, ?_⟩
        cases h'
        rw [← hwall]
        split <;> rfl
      · exact Or.inl (hsame hpop h')

/-- A sender that is there after its turn has sent a frame, or none. -/
theorem tasks_sendingTurn {item : QueuedCommand} {frames : List Frame}
    (h : c.tasks.get? u = some (.sender p s device conn (.sending item frames)))
    (hgoes : (c.sendingTurn u p s device conn item frames).2 ≠ .over)
    (h' : (c.sendingTurn u p s device conn item frames).1.tasks.get? u =
      some (.sender p s device conn later)) :
    (later.left = frames ∧ (later = .idle ∨ later = .sending item frames) ∧
      (c.sendingTurn u p s device conn item frames).1.outgoing = c.outgoing) ∨
    ∃ f rest, frames = f :: rest ∧ later = .sending item rest ∧
      (c.sendingTurn u p s device conn item frames).1.outgoing s = c.outgoing s ++ [f] := by
  cases frames with
  | nil =>
    simp only [sendingTurn, setTask, Table.get?_put_self] at h'
    cases h'
    exact Or.inl ⟨rfl, Or.inl rfl, rfl⟩
  | cons f rest =>
    have hsent := outgoing_transmit c s f s
    simp only [sendingTurn] at h' hgoes ⊢
    split at h' <;> rename_i hblocked
    · rw [(still_park c u _).tasks, h] at h'
      cases h'
      rw [if_pos hblocked]
      exact Or.inl ⟨rfl, Or.inr rfl, outgoing_park c u _⟩
    · rw [if_neg hblocked] at hgoes ⊢
      split at h' <;> rename_i ht
      · rw [ht] at hsent
        simp only [setTask, Table.get?_put_self] at h'
        cases h'
        refine Or.inr ⟨f, rest, rfl, rfl, ?_⟩
        simpa [ht] using hsent
      · rw [ht] at hgoes
        exact absurd rfl hgoes

/-- What a sender puts on its socket in its own turn. -/
theorem carries_own (h : c.tasks.get? u = some (.sender p s device conn phase))
    (hdata : ∀ f ∈ phase.left, f.isData = true)
    (h' : (c.give u).tasks.get? u = some (.sender p s device conn later)) :
    ∃ new, (c.give u).outgoing s = c.outgoing s ++ new ∧
      Carries (phase.left ++ (c.order? u (.turn u)).toList.flatMap (Order.frames device))
        later.left new := by
  have hsilent : (c.give u).outgoing s = c.outgoing s → c.order? u (.turn u) = none →
      later.left = phase.left → ∃ new, (c.give u).outgoing s = c.outgoing s ++ new ∧
      Carries (phase.left ++ (c.order? u (.turn u)).toList.flatMap (Order.frames device))
        later.left new := by
    intro hout horder hleft
    refine ⟨[], by rw [hout, List.append_nil], ?_⟩
    rw [horder, hleft]
    simpa using carries_nil phase.left
  by_cases hready : u ∈ c.ready
  · let lifted : Cluster := { c with ready := c.ready.erase u }
    have htask : lifted.tasks.get? u = some (.sender p s device conn phase) := h
    have hgive : c.give u = conclude u (lifted.senderTurn u p s device conn phase) := by
      rw [give_of_mem hready]
      simp only [turn, htask, lifted]
    have hafter := h'
    rw [hgive] at hafter
    obtain ⟨hgoes, hturn⟩ := tasks_conclude hafter
    have hout : ∀ r, (c.give u).outgoing r =
        (lifted.senderTurn u p s device conn phase).1.outgoing r := by
      intro r
      rw [hgive, outgoing_conclude]
    cases phase with
    | idle =>
      have hsame : (c.give u).outgoing s = c.outgoing s :=
        (hout s).trans (congrFun (outgoing_idleTurn lifted u p s device conn) s)
      rcases tasks_idleTurn htask hturn with rfl | ⟨item, rfl⟩
      · exact hsilent hsame (order?_same h h') rfl
      · refine ⟨[], by rw [hsame, List.append_nil], ?_⟩
        have horder : c.order? u (.turn u) = some ⟨item, c.wallSeconds⟩ := by
          rw [order?, h, show (happen c (.turn u)).tasks.get? u = _ from h']
        rw [horder]
        simp only [Option.toList_some, List.flatMap_cons, List.flatMap_nil, List.append_nil]
        exact carries_nil _
    | sending item frames =>
      have horder : c.order? u (.turn u) = none := by rw [order?, h]
      rcases tasks_sendingTurn htask hgoes hturn with
        ⟨hleft, -, hsame⟩ | ⟨f, rest, rfl, rfl, hsent⟩
      · exact hsilent ((hout s).trans (congrFun hsame s)) horder hleft
      · refine ⟨[f], (hout s).trans hsent, ?_⟩
        rw [horder]
        simpa [SenderPhase.left] using carries_one (hdata f List.mem_cons_self) rest
  · rw [give_of_not_mem hready] at h'
    have hsame := h.symm.trans h'
    cases hsame
    refine hsilent (by rw [give_of_not_mem hready]) (order?_same h ?_) rfl
    change (c.give u).tasks.get? u = _
    rw [give_of_not_mem hready]
    exact h

/-- A session that ends its connection has stopped its sender before it sends anything. -/
theorem outgoing_drainingTurn (c : Cluster) (t : TaskId) (p s : Nat) (state : SessionState)
    (reason : Option CloseReason) (deadline : Nat) :
    (c.drainingTurn t p s state reason deadline).1.outgoing = c.outgoing ∨
      ∀ w : Task, w.Lasting →
        (c.drainingTurn t p s state reason deadline).1.tasks.get? state.sender ≠ some w := by
  let stopped := (c.remove state.sender).remove state.heartbeat
  have hgone : stopped.tasks.get? state.sender = none := by
    simp only [stopped, remove, clearTimer, Table.get?_erase, if_true]
    split <;> rfl
  unfold drainingTurn
  dsimp only
  split
  · exact Or.inl (outgoing_park c t _)
  · right
    intro w hw
    split
    · rw [(still_park _ t _).tasks]
      intro h
      cases hgone.symm.trans h
    · intro h
      have hbefore := ((keeps_cleanUp stopped p s state reason).tasks _ w h hw).resolve_right id
      cases hgone.symm.trans hbefore

/-- The turn of a session past its handshake brings only pongs to its socket, or stops its
sender. -/
theorem pongs_sessionTurn (c : Cluster) (t : TaskId) (p s : Nat) {phase : SessionPhase}
    {state : SessionState} (hstate : phase.state? = some state) :
    (∃ new, (c.sessionTurn t p s phase).1.outgoing s = c.outgoing s ++ new ∧
      ∀ f ∈ new, ∃ data, f = .pong data) ∨
    ∀ w : Task, w.Lasting → (c.sessionTurn t p s phase).1.tasks.get? state.sender ≠ some w := by
  have hsilent : ∀ {c' : Cluster}, c'.outgoing = c.outgoing →
      ∃ new, c'.outgoing s = c.outgoing s ++ new ∧ ∀ f ∈ new, ∃ data, f = .pong data :=
    fun hsame => ⟨[], by rw [hsame, List.append_nil], nofun⟩
  unfold sessionTurn
  split
  · rename_i settings socket _ _
    cases phase with
    | receiving session deadline =>
      rcases outgoing_receivingTurn c t p s settings session deadline with hsame | ⟨data, hpong⟩
      · exact Or.inl (hsilent hsame)
      · refine Or.inl ⟨[.pong data], by simpa using hpong s, fun f hf => ⟨data, ?_⟩⟩
        exact List.mem_singleton.mp hf
    | draining session reason deadline =>
      cases hstate
      exact (outgoing_drainingTurn c t p s state reason deadline).imp_left hsilent
    | _ => cases hstate
  · exact Or.inl (hsilent rfl)

/-- While a sender is there, the turns of others bring pongs only to its socket. -/
theorem pongs_give (hf : Fed c) (h : c.tasks.get? u = some (.sender p s device conn phase))
    {t : TaskId} (h' : (c.give t).tasks.get? u = some (.sender p s device conn later))
    (hne : t ≠ u) : ∃ new, (c.give t).outgoing s = c.outgoing s ++ new ∧
      ∀ f ∈ new, ∃ data, f = .pong data := by
  have hfeeds : c.Feeds u s := ⟨p, device, conn, phase, h⟩
  by_cases hready : t ∈ c.ready
  · let lifted : Cluster := { c with ready := c.ready.erase t }
    rw [give_of_mem hready] at h' ⊢
    rw [outgoing_conclude]
    have hsilent : (turn lifted t).1.outgoing s = c.outgoing s →
        ∃ new, (turn lifted t).1.outgoing s = c.outgoing s ++ new ∧
          ∀ f ∈ new, ∃ data, f = .pong data := fun hsame =>
      ⟨[], by rw [hsame, List.append_nil], nofun⟩
    cases ht : lifted.tasks.get? t with
    | none =>
      have hover : turn lifted t = (lifted, .over) := by simp only [turn, ht]
      exact hsilent (by rw [hover]; rfl)
    | some task =>
      by_cases hsocket : task.socket? = some s
      · cases task with
        | sender q r other conn' phase' =>
          obtain rfl : r = s := Option.some_inj.mp hsocket
          exact absurd (hf.only t u r ⟨q, other, conn', phase', ht⟩ hfeeds) hne
        | session q r phase' =>
          obtain rfl : r = s := Option.some_inj.mp hsocket
          obtain ⟨state, hstate, rfl⟩ := hf.session u t q r phase' hfeeds (session_iff.mpr ht)
          have hturn : turn lifted t = lifted.sessionTurn t q r phase' := by simp only [turn, ht]
          rcases pongs_sessionTurn lifted t q r hstate with hpongs | hgone
          · rw [hturn]
            exact hpongs
          · have hkeeps : Keeps (turn lifted t).1 (conclude t (turn lifted t)) :=
              (Still.refl (turn lifted t).1).keeps.conclude t
            have hthere := (hkeeps.tasks _ _ h' trivial).resolve_right id
            rw [hturn] at hthere
            exact absurd hthere (hgone _ trivial)
        | _ => cases hsocket
      · refine hsilent ?_
        cases hother : task.socket? with
        | none => exact congrFun (outgoing_turn lifted t ht hother) s
        | some r =>
          refine elsewhere_turn ht hother s ?_
          rintro rfl
          exact hsocket hother
  · rw [give_of_not_mem hready]
    exact ⟨[], by rw [List.append_nil], nofun⟩

/-- What an event brings to the socket of a sender, while the sender is there. -/
theorem carries_happen (hf : Fed c) (h : c.tasks.get? u = some (.sender p s device conn phase))
    (hdata : ∀ f ∈ phase.left, f.isData = true) {e : Event}
    (h' : (happen c e).tasks.get? u = some (.sender p s device conn later)) :
    ∃ new, c.fetches s e ++ (happen c e).outgoing s = c.outgoing s ++ new ∧
      Carries (phase.left ++ (c.order? u e).toList.flatMap (Order.frames device)) later.left
        new := by
  obtain ⟨hknown, hsocket⟩ := hf.known u s ⟨p, device, conn, phase, h⟩
  by_cases hown : e = .turn u
  · subst hown
    exact carries_own h hdata h'
  · -- nobody but the sender itself changes where it stands
    have hphase : later = phase := by
      rcases sender_after hf.seated h' with hold | ⟨hturn, -⟩ | ⟨t, state, deadline, hnew⟩
      · have hsame := h.symm.trans hold
        cases hsame
        rfl
      · exact absurd hturn hown
      · exact absurd hknown (Nat.not_lt.mpr hnew.2.2.2.2)
    subst hphase
    rw [order?_same h h', Option.toList_none, List.flatMap_nil, List.append_nil]
    by_cases hturn : ∃ t, e = .turn t
    · obtain ⟨t, rfl⟩ := hturn
      obtain ⟨new, hnew, hpongs⟩ := pongs_give hf h h' fun htu => hown (congrArg _ htu)
      exact ⟨new, hnew, carries_pongs _ hpongs⟩
    · have hne : s ≠ c.sockets.length := Nat.ne_of_lt (hf.seated.sockets s hsocket)
      refine ⟨[], ?_, carries_nil _⟩
      rw [outgoing_happen c (fun t ht => hturn ⟨t, ht⟩) hne, List.append_nil]

end Turns

section Run
variable {c : Cluster} {u : TaskId} {p s : Nat} {device : DeviceRecord} {conn : Uuid}
  {phase later : SenderPhase}

/-- Who is a sender now has been one all the time, if it was there at the beginning. -/
theorem sender_before_event (hf : Fed c) (es : List Event) (e : Event) (hu : u < c.nextTask)
    (h' : (c.after (es ++ [e])).tasks.get? u = some (.sender p s device conn later)) :
    ∃ before, (c.after es).tasks.get? u = some (.sender p s device conn before) := by
  rw [after_append] at h'
  rcases sender_after (hf.after es).seated h' with
    hold | ⟨-, before, hold⟩ | ⟨t, state, deadline, hnew⟩
  · exact ⟨_, hold⟩
  · exact ⟨before, hold⟩
  · exact absurd (Nat.lt_of_lt_of_le hu (nextTask_after hf.seated es))
      (Nat.not_lt.mpr hnew.2.2.2.2)

/-- What a history brings to the socket of a sender that wants a command at the beginning and is
there at the end. -/
theorem carries_after (hf : Fed c) (h : c.tasks.get? u = some (.sender p s device conn .idle))
    (es : List Event)
    (h' : (c.after es).tasks.get? u = some (.sender p s device conn later)) :
    ∃ new, c.fetched s es ++ (c.after es).outgoing s = c.outgoing s ++ new ∧
      Carries ((c.orders u es).flatMap (Order.frames device)) later.left new := by
  obtain ⟨hknown, -⟩ := hf.known u s ⟨p, device, conn, .idle, h⟩
  induction es using List.reverseRecOn generalizing later with
  | nil =>
    have hsame := h.symm.trans h'
    cases hsame
    exact ⟨[], by rw [List.append_nil]; rfl, carries_nil _⟩
  | append_singleton es e ih =>
    obtain ⟨before, hbefore⟩ := sender_before_event hf es e hknown h'
    obtain ⟨new, hnew, hcarries⟩ := ih hbefore
    have hdata : ∀ f ∈ before.left, f.isData = true := by
      refine hcarries.left_data fun f hf => ?_
      obtain ⟨o, -, hf⟩ := List.mem_flatMap.mp hf
      exact o.frames_data device f hf
    rw [after_append] at h'
    obtain ⟨last, hlast, hstep⟩ := carries_happen (hf.after es) hbefore hdata h'
    refine ⟨new ++ last, ?_, ?_⟩
    · rw [fetched_append, after_append, List.append_assoc]
      simp only [fetched, List.append_nil]
      change c.fetched s es ++ ((c.after es).fetches s e ++ (happen (c.after es) e).outgoing s) = _
      rw [hlast, ← List.append_assoc, hnew, List.append_assoc]
    · rw [orders_append, List.flatMap_append]
      simp only [orders, List.append_nil]
      exact hcarries.append hstep

end Run

/-- From a time at which a sender wanted a command on, the frames that come onto its socket, whether
its device has fetched them yet or not, are those of the commands that the sender takes up, one
command behind the other, with nothing but pongs among them; what is missing of the last command
the sender has still to send. So whoever knows how long each blob is reads the commands and their
blobs from the frames, in order. -/
theorem frames_decode (supply : Supply) (epoch : Nat) (directory : DirectoryService)
    (before es : List Event) (u : TaskId) (p s : Nat) (device : DeviceRecord) (conn : Uuid)
    (phase : SenderPhase) :
    let start := (initial supply epoch directory).after before
    start.tasks.get? u = some (.sender p s device conn .idle) →
    (start.after es).tasks.get? u = some (.sender p s device conn phase) →
    ∃ new, start.fetched s es ++ (start.after es).outgoing s = start.outgoing s ++ new ∧
      (∀ f ∈ new, f.isData = true ∨ ∃ data, f = .pong data) ∧
      new.filter Frame.isData ++ phase.left =
        (start.orders u es).flatMap (Order.frames device) ∧
      (∀ o ∈ start.orders u es, ∃ pieces, Framed device o pieces) ∧
      ((∀ o ∈ start.orders u es, o.Travels) →
        receive device ((start.orders u es).map Order.size?)
          (new.filter Frame.isData ++ phase.left) =
            some ((start.orders u es).map Order.content)) := by
  intro start h h'
  have hf : Fed start := (fed_initial supply epoch directory).after before
  obtain ⟨new, hnew, hcarries⟩ := carries_after hf h es h'
  refine ⟨new, hnew, hcarries.pongs, hcarries.data, fun o _ => framed device o, fun ht => ?_⟩
  rw [hcarries.data]
  exact receive_frames _ ht

/-- The place, the device and the connection of a sender that wants a command. -/
def idle? (c : Cluster) (u : TaskId) : Option (Nat × Nat × DeviceRecord × Uuid) :=
  match c.tasks.get? u with
  | some (.sender p s device conn .idle) => some (p, s, device, conn)
  | _ => none

theorem sender_of_idle? {c : Cluster} {u : TaskId} {p s : Nat} {device : DeviceRecord}
    {conn : Uuid} (h : c.idle? u = some (p, s, device, conn)) :
    c.tasks.get? u = some (.sender p s device conn .idle) := by
  unfold idle? at h
  split at h
  · rename_i task
    cases h
    exact task
  · cases h

/-- A command with a blob goes out, and the device pings behind the envelope. -/
def uploading : List Event :=
  [.call 0 firstFrame (.sendCommand (.shell "uptime") (some ⟨#[7]⟩) none), .turn 4, .turn 3,
    .turn 3, .arrive 0 (.ping ⟨#[1]⟩), .turn 0, .turn 3, .turn 3]

theorem after_joined : (initial counted 0 twoFrames).after joining = firstJoined := by
  have h := after_joining []
  rwa [List.append_nil] at h

theorem idle_joined : ((initial counted 0 twoFrames).after joining).tasks.get? 3 =
    some (.sender 0 0 firstFrame ⟨1⟩ .idle) := by
  rw [after_joined]
  exact sender_of_idle? (by decide +kernel)

theorem idle_uploading : (((initial counted 0 twoFrames).after joining).after uploading).tasks.get?
    3 = some (.sender 0 0 firstFrame ⟨1⟩ .idle) := by
  rw [after_joined]
  exact sender_of_idle? (by decide +kernel)

/-- The identifier, the text, the blob and the second of a shell command. -/
def shell? (o : Order) : Option (Uuid × String × Option ByteArray × Nat) :=
  match o.item.command with
  | .shell cmd => some (o.item.id, cmd, o.item.blob, o.time)
  | _ => none

theorem nesting_shell (cmd : String) (id : Uuid) :
    ((Command.shell cmd).payload id).nesting = 2 := by
  rw [Command.payload_eq]
  simp [Command.args, Json.ofMembers, Json.insertMember, Json.nesting, Json.nestingMembers]

/-- A shell command travels. -/
theorem of_shell? {o : Order} {id : Uuid} {cmd : String} {blob : Option ByteArray} {time : Nat}
    (h : shell? o = some (id, cmd, blob, time)) (htime : time < 2 ^ 63) :
    o.Travels ∧ o.content = (id, .shell cmd, blob) := by
  obtain ⟨⟨id', device, command, blob'⟩, time'⟩ := o
  cases command with
  | shell cmd' =>
    cases h
    exact ⟨⟨trivial, by rw [Order.payload, nesting_shell]; decide, htime⟩, rfl⟩
  | _ => cases h

theorem orders_uploading : ∃ o,
    ((initial counted 0 twoFrames).after joining).orders 3 uploading = [o] ∧ o.Travels ∧
      o.content = (⟨3⟩, .shell "uptime", some ⟨#[7]⟩) := by
  have hshell : (firstJoined.orders 3 uploading).map shell? =
      [some (⟨3⟩, "uptime", some ⟨#[7]⟩, 0)] := by decide +kernel
  obtain ⟨o, ho, hlast⟩ := List.map_eq_singleton_iff.mp hshell
  rw [after_joined]
  exact ⟨o, ho, of_shell? hlast (by decide)⟩

theorem frames_decode_uploading :
    let start := (initial counted 0 twoFrames).after joining
    ∃ new, start.tasks.get? 3 = some (.sender 0 0 firstFrame ⟨1⟩ .idle) ∧
      (start.after uploading).tasks.get? 3 = some (.sender 0 0 firstFrame ⟨1⟩ .idle) ∧
      start.fetched 0 uploading ++ (start.after uploading).outgoing 0 = start.outgoing 0 ++ new ∧
      receive firstFrame [some 1] (new.filter Frame.isData) =
        some [(⟨3⟩, .shell "uptime", some ⟨#[7]⟩)] := by
  obtain ⟨o, horders, htravels, hcontent⟩ := orders_uploading
  obtain ⟨new, hnew, -, -, -, hdecodes⟩ := frames_decode counted 0 twoFrames joining uploading 3 0 0
    firstFrame ⟨1⟩ .idle idle_joined idle_uploading
  have hsize : o.size? = some 1 := congrArg (fun x => x.2.2.map ByteArray.size) hcontent
  rw [horders] at hdecodes
  have hread := hdecodes (by simpa using htravels)
  rw [List.map_singleton, List.map_singleton, hsize, hcontent, SenderPhase.left,
    List.append_nil] at hread
  exact ⟨new, idle_joined, idle_uploading, hnew, hread⟩

/-- All that the first device has been sent when it has joined is texts. -/
theorem data_joined :
    ∀ f ∈ ((initial counted 0 twoFrames).after joining).outgoing 0, f.isData = true := by
  have hall : (firstJoined.outgoing 0).all Frame.isData = true := by decide +kernel
  rw [after_joined]
  exact List.all_eq_true.mp hall

theorem pong_uploading :
    ∃ f ∈ (((initial counted 0 twoFrames).after joining).after uploading).outgoing 0,
      f.isData = false := by
  have hany : ((firstJoined.after uploading).outgoing 0).any (fun f => !f.isData) = true := by
    decide +kernel
  rw [after_joined]
  simpa using hany

theorem receive_weighed (device : DeviceRecord) :
    receive device [weighed.size?] (weighed.frames device) ≠ some [weighed.content] := by
  have hne : finer ≠ fine := by decide
  have hframes : weighed.frames device = [.text (weighed.envelope device).text] := rfl
  rw [hframes, receive]
  rcases readCommand_weighed device with hnone | hother
  · rw [hnone]
    intro h
    cases h
  · rw [hother]
    intro h
    have hcommand : weighing finer = weighing fine := by
      simpa [gather, receive, Order.content, weighed, Order.size?] using h
    simp [weighing, hne] at hcommand

/-- A pong may stand between the frames of a command, and a command is not read as it was sent if
one of its doubles is not. -/
theorem frames_alter :
    let start := (initial counted 0 twoFrames).after joining
    (start.tasks.get? 3 = some (.sender 0 0 firstFrame ⟨1⟩ .idle) ∧
      (start.after uploading).tasks.get? 3 = some (.sender 0 0 firstFrame ⟨1⟩ .idle) ∧
      start.fetched 0 uploading ++ (start.after uploading).outgoing 0 ≠
        start.outgoing 0 ++ (start.orders 3 uploading).flatMap (Order.frames firstFrame)) ∧
    receive firstFrame [weighed.size?] (weighed.frames firstFrame) ≠ some [weighed.content] := by
  refine ⟨⟨idle_joined, idle_uploading, fun h => ?_⟩, receive_weighed firstFrame⟩
  obtain ⟨f, hf, hpong⟩ := pong_uploading
  have hmem := h ▸ List.mem_append_right _ hf
  rcases List.mem_append.mp hmem with hold | hnew
  · exact Bool.false_ne_true (hpong.symm.trans (data_joined f hold))
  · obtain ⟨o, -, hf⟩ := List.mem_flatMap.mp hnew
    exact Bool.false_ne_true (hpong.symm.trans (o.frames_data firstFrame f hf))

end Cluster

end FleetControl
