import FleetControl.Proofs.Cluster.Admission
import FleetControl.Proofs.Cluster.Effects
import FleetControl.Proofs.Cluster.History

/-! # Whose reply decides a command

A session verifies what it receives under the credentials of its own device, and a reply decides
the command that it names. The command is looked up by its identifier alone: which device it was
submitted for plays no part. -/
namespace FleetControl

/-- The outcomes that stand for a reply of a device. -/
def IsAnswer : CommandOutcome → Prop
  | .ok _ => True
  | .error (.device _ _ _) => True
  | .error _ => False

theorem Pending.not_answer_lost (p : Pending) : ¬ IsAnswer p.lost := fun h => h

theorem Pending.not_answer_timedOut (p : Pending) : ¬ IsAnswer p.timedOut := fun h => h

namespace Engine

/-- No command has an answer that it did not have before. -/
def Silent (e e' : Engine) : Prop :=
  ∀ id o, e'.outcome? id = some o → IsAnswer o → e.outcome? id = some o

theorem silent_of_completions {e e' : Engine} (h : e'.completions = e.completions) :
    Silent e e' := by
  intro id o ho _
  simpa [outcome?, h] using ho

theorem Silent.trans {e₁ e₂ e₃ : Engine} (h : Silent e₁ e₂) (h' : Silent e₂ e₃) : Silent e₁ e₃ :=
  fun id o ho ha => h id o (h' id o ho ha) ha

theorem silent_enqueue (e : Engine) (id : Uuid) (device : String) (command : Command)
    (blob : Option ByteArray) (timeout now : Nat) :
    Silent e (e.enqueue id device command blob timeout now) := by
  intro j o ho _
  simp only [outcome?, completions_enqueue] at ho ⊢
  split at ho
  · simp [Completion.outcome?] at ho
  · exact ho

theorem silent_resolve (e : Engine) (id : Uuid) {outcome : CommandOutcome}
    (hn : ¬ IsAnswer outcome) : Silent e (e.resolve id outcome).1 := by
  intro j o ho ha
  by_cases hj : j = id
  · subst j
    unfold resolve at ho
    split at ho
    · cases hc : e.completions.getD id .unresolved with
      | unresolved =>
        simp only [hc, Completion.resolve, outcome?, Table.get?_put_self, Option.bind_some,
          Completion.outcome?, Option.some.injEq] at ho
        exact absurd (ho ▸ ha) hn
      | resolved first => simpa [hc, Completion.resolve, outcome?] using ho
      | abandoned => simpa [hc, Completion.resolve, outcome?] using ho
    · exact ho
  · simpa [outcome?, completions_resolve_of_ne e id j outcome hj] using ho

theorem silent_expire (e : Engine) (id : Uuid) : Silent e (e.expire id).1 := by
  cases hp : e.pending.get? id with
  | none => rw [expire_of_get?_eq_none hp]; exact silent_of_completions rfl
  | some p => rw [expire_eq hp]; exact silent_resolve e id p.not_answer_timedOut

theorem silent_failAll (e : Engine) (lost : List (Uuid × Pending)) : Silent e (e.failAll lost) := by
  induction lost generalizing e with
  | nil => exact silent_of_completions rfl
  | cons x rest ih => exact (silent_resolve e x.1 x.2.not_answer_lost).trans (ih _)

/-- An operation that stands for a reply of a device. -/
def Op.Replies : Op → Prop
  | .resolve _ _ => True
  | .respond _ _ _ _ => True
  | _ => False

theorem silent_apply (e : Engine) {op : Op} (h : ¬ op.Replies) : Silent e (e.apply op) := by
  cases op with
  | enqueue id device command blob timeout now => exact silent_enqueue e id device command blob _ _
  | pop device => exact silent_of_completions (completions_popLive e device)
  | mark id conn => exact silent_of_completions (completions_markSent e id conn)
  | unmark id => exact silent_of_completions rfl
  | requeue item => exact silent_of_completions rfl
  | resolve id o => exact absurd trivial h
  | respond id ok result body => exact absurd trivial h
  | expire id => exact silent_expire e id
  | fail conn => exact silent_failAll e _

end Engine

namespace Cluster
open Engine (Exchange)

/-- A task serves an authenticated connection on which a text is next. -/
def Receives (c : Cluster) (t : TaskId) (p s : Nat) (session : SessionState) (raw : String) :
    Prop :=
  t ∈ c.ready ∧ ∃ deadline socket rest,
    c.tasks.get? t = some (.session p s (.receiving session deadline)) ∧
    c.sockets.get? s = some socket ∧ socket.inbound = .text raw :: rest

/-- At most one command of one process is resolved. -/
theorem engine_of_answer {c c' : Cluster} {p q : Nat} {id : Uuid} {o : CommandOutcome}
    (h : Operates c c' p [.resolve id o]) :
    c'.engine q = c.engine q ∨ (q = p ∧ c'.engine q = ((c.engine p).resolve id o).1) := by
  rw [h q]
  split
  · rename_i hq
    exact Or.inr ⟨hq, rfl⟩
  · exact Or.inl rfl

/-- A turn on a received text changes no engine, or the text is a reply and the turn resolves the
command that it names. -/
theorem give_receives {c : Cluster} {t : TaskId} {p s : Nat} {session : SessionState}
    {raw : String} (h : Receives c t p s session raw) :
    (∀ q, (c.give t).engine q = c.engine q) ∨
      ∃ id o, Answering session raw id ∧ Operates c (c.give t) p [.resolve id o] := by
  obtain ⟨ht, deadline, socket, rest, htask, hsocket, hinbound⟩ := h
  obtain ⟨p', ms, hdoing, hops⟩ := give_does c ht
  cases hdoing with
  | rests =>
    left
    intro q
    rw [hops q]
    split
    · rename_i hq
      rw [hq]
      rfl
    · rfl
  | answers reads answering =>
    obtain ⟨deadline', socket', rest', htask', hsocket', hinbound'⟩ := reads
    rw [htask] at htask'
    cases htask'
    rw [hsocket] at hsocket'
    cases hsocket'
    rw [hinbound] at hinbound'
    cases hinbound'
    exact Or.inr ⟨_, _, answering, hops⟩
  | submits task lower upper => simp [htask] at task
  | polls task => simp [htask] at task
  | takes task going pops => simp [htask] at task
  | returns task free fails => simp [htask] at task
  | expires task due => simp [htask] at task
  | closes task stopped free => simp [htask] at task

/-- In no process has a command an answer that it did not have before. -/
def Silent (c c' : Cluster) : Prop := ∀ p, (c.engine p).Silent (c'.engine p)

theorem silent_of_engine {c c' : Cluster} (h : ∀ p, c'.engine p = c.engine p) : Silent c c' := by
  intro p
  rw [h p]
  exact Engine.silent_of_completions rfl

theorem silent_operates {c c' : Cluster} {p : Nat} {ms : List Exchange.Move}
    (h : Operates c c' p ms) (hms : ∀ m ∈ ms, ¬ m.op.Replies) : Silent c c' := by
  have hfold : ∀ e : Engine, e.Silent (ms.foldl (fun e m => e.apply m.op) e) := by
    clear h
    induction ms with
    | nil => exact fun _ => Engine.silent_of_completions rfl
    | cons m ms ih =>
      intro e
      have hfirst := e.silent_apply (hms m List.mem_cons_self)
      exact hfirst.trans (ih (fun x hx => hms x (List.mem_cons_of_mem m hx)) _)
  intro q
  rw [h q]
  split
  · rename_i hq
    rw [hq]
    exact hfold _
  · exact Engine.silent_of_completions rfl

/-- A turn gives no answer, or it takes a text. -/
theorem give_silent (c : Cluster) (t : TaskId) :
    Silent c (c.give t) ∨ ∃ p s session raw, Receives c t p s session raw := by
  by_cases ht : t ∈ c.ready
  · obtain ⟨p, ms, hdoing, hops⟩ := give_does c ht
    cases hdoing with
    | answers reads answering => exact Or.inr ⟨p, _, _, _, ht, reads⟩
    | _ =>
      left
      refine silent_operates hops ?_
      simp [Exchange.Move.op, Engine.Op.Replies]
  · rw [give_of_not_mem ht]
    exact Or.inl (silent_of_engine fun _ => rfl)

theorem silent_addProcess (c : Cluster) (settings : ServerSettings) :
    Silent c (c.addProcess settings) := by
  intro q id o ho ha
  simp only [engine, addProcess, Table.get?_put] at ho
  split at ho
  · simp [Engine.outcome?, Process.fresh, Table.get?] at ho
  · exact ho

/-- What comes from outside gives no answer. -/
theorem happen_silent (c : Cluster) (e : Event) :
    Silent c (happen c e) ∨ ∃ t p s session raw, e = .turn t ∧ Receives c t p s session raw := by
  by_cases hturn : ∃ t, e = .turn t
  · obtain ⟨t, rfl⟩ := hturn
    exact (give_silent c t).imp_right fun ⟨p, s, session, raw, h⟩ => ⟨t, p, s, session, raw, rfl, h⟩
  · left
    by_cases hadd : ∃ settings, e = .addProcess settings
    · obtain ⟨settings, rfl⟩ := hadd
      exact silent_addProcess c settings
    · exact silent_of_engine (engine_happen c (fun t ht => hturn ⟨t, ht⟩) fun x hx => hadd ⟨x, hx⟩)

/-- An answer was there before, or the event is a turn on a reply to the pending command. -/
theorem happen_answer {c : Cluster} {e : Event} {p : Nat} {id : Uuid} {o : CommandOutcome}
    (ho : ((happen c e).engine p).outcome? id = some o) (ha : IsAnswer o) :
    (c.engine p).outcome? id = some o ∨ ∃ t s session raw pend, e = .turn t ∧
      Receives c t p s session raw ∧ Answering session raw id ∧
      (c.engine p).pending.get? id = some pend ∧
      ((c.give t).engine p).outcome? id = some o := by
  rcases happen_silent c e with h | ⟨t, p', s, session, raw, rfl, h⟩
  · exact Or.inl (h p id o ho ha)
  · change ((c.give t).engine p).outcome? id = some o at ho
    rcases give_receives h with hsame | ⟨id', outcome, hanswering, hops⟩
    · left
      rwa [hsame p] at ho
    · rcases engine_of_answer (q := p) hops with hsame | ⟨rfl, he⟩
      · left
        rwa [hsame] at ho
      · by_cases hid : id = id'
        · subst id'
          cases hp : (c.engine p).pending.get? id with
          | none =>
            left
            rwa [he, Engine.resolve_of_get?_eq_none hp] at ho
          | some pend => exact Or.inr ⟨t, s, session, raw, pend, rfl, h, hanswering, rfl, ho⟩
        · left
          rw [he] at ho
          simpa [Engine.outcome?, Engine.completions_resolve_of_ne _ _ _ _ hid] using ho

theorem after_answer {c : Cluster} (es : List Event) {p : Nat} {id : Uuid} {o : CommandOutcome}
    (ho : ((c.after es).engine p).outcome? id = some o) (ha : IsAnswer o) :
    (c.engine p).outcome? id = some o ∨ ∃ before t later s session raw pend,
      es = before ++ .turn t :: later ∧ Receives (c.after before) t p s session raw ∧
      Answering session raw id ∧ ((c.after before).engine p).pending.get? id = some pend ∧
      (((c.after before).give t).engine p).outcome? id = some o := by
  induction es generalizing c with
  | nil => exact Or.inl ho
  | cons e es ih =>
    rcases ih ho with hnext | ⟨before, t, later, s, session, raw, pend, rfl, hrest⟩
    · rcases happen_answer hnext ha with hold | ⟨t, s, session, raw, pend, rfl, hrest⟩
      · exact Or.inl hold
      · exact Or.inr ⟨[], t, es, s, session, raw, pend, rfl, hrest⟩
    · exact Or.inr ⟨e :: before, t, later, s, session, raw, pend, rfl, hrest⟩

/-- Who receives was admitted. -/
theorem admitted_of_receives (supply : Supply) (epoch : Nat) (directory : DirectoryService)
    (es : List Event) {t : TaskId} {p s : Nat} {session : SessionState} {raw : String}
    (h : Receives ((initial supply epoch directory).after es) t p s session raw) :
    Admitted (initial supply epoch directory) es t s session.device := by
  obtain ⟨-, deadline, socket, rest, htask, -⟩ := h
  have hserves : ((initial supply epoch directory).after es).serves? t =
      some (s, session.device) := by
    simp [serves?, htask, Task.serves?]
  rcases admitted_of_serves es hserves with hnone | hadmitted
  · simp [serves?, initial, Table.get?] at hnone
  · exact hadmitted

/-- Over every history: a text is received only on a connection whose device has proved its secret
there, and it changes no command that it does not name in a reply, verified for that device. Every
answer to a command was given by such a reply, received while the command was pending. -/
theorem answered_by_name (supply : Supply) (epoch : Nat) (directory : DirectoryService)
    (es : List Event) :
    let start := initial supply epoch directory
    (∀ t p s session raw, Receives (start.after es) t p s session raw →
      Admitted start es t s session.device ∧
      ∀ q id, ¬ (q = p ∧ Answering session raw id) →
        (((start.after es).give t).engine q).pending.get? id =
          ((start.after es).engine q).pending.get? id ∧
        (((start.after es).give t).engine q).outcome? id =
          ((start.after es).engine q).outcome? id) ∧
    ∀ p id o, ((start.after es).engine p).outcome? id = some o → IsAnswer o →
      ∃ before t later s session raw pend, es = before ++ .turn t :: later ∧
        Admitted start before t s session.device ∧
        Receives (start.after before) t p s session raw ∧ Answering session raw id ∧
        ((start.after before).engine p).pending.get? id = some pend ∧
        (((start.after before).give t).engine p).outcome? id = some o := by
  intro start
  constructor
  · intro t p s session raw h
    refine ⟨admitted_of_receives supply epoch directory es h, fun q id hother => ?_⟩
    rcases give_receives h with hsame | ⟨id', o, hanswering, hops⟩
    · rw [hsame q]
      exact ⟨rfl, rfl⟩
    · rcases engine_of_answer (q := q) hops with hsame | ⟨rfl, he⟩
      · rw [hsame]
        exact ⟨rfl, rfl⟩
      · have hid : id ≠ id' := fun hid => hother ⟨rfl, hid ▸ hanswering⟩
        rw [he]
        refine ⟨by rw [Engine.pending_resolve, if_neg hid], ?_⟩
        simp [Engine.outcome?, Engine.completions_resolve_of_ne _ _ _ _ hid]
  · intro p id o ho ha
    rcases after_answer es ho ha with hnone | hgiven
    · simp [start, initial, engine, Engine.outcome?, Table.get?] at hnone
    · obtain ⟨before, t, later, s, session, raw, pend, hes, hreceives, hrest⟩ := hgiven
      exact ⟨before, t, later, s, session, raw, pend, hes,
        admitted_of_receives supply epoch directory before hreceives, hreceives, hrest⟩

/-- A turn on a received text takes away a pending command of another device. -/
def robs (c : Cluster) (t : TaskId) (p : Nat) (id : Uuid) : Bool :=
  match c.tasks.get? t with
  | some (.session q s (.receiving session _)) =>
    match (c.sockets.get? s).map (·.inbound), (c.engine p).pending.get? id with
    | some (Incoming.text _ :: _), some pend =>
      Decidable.decide (t ∈ c.ready ∧ q = p ∧ pend.deviceId ≠ session.device.deviceId ∧
        ((c.give t).engine p).pending.get? id = none)
    | _, _ => false
  | _ => false

theorem receives_of_robs {c : Cluster} {t : TaskId} {p : Nat} {id : Uuid}
    (h : robs c t p id = true) : ∃ s session raw pend, Receives c t p s session raw ∧
      (c.engine p).pending.get? id = some pend ∧ pend.deviceId ≠ session.device.deviceId ∧
      ((c.give t).engine p).pending.get? id = none := by
  unfold robs at h
  split at h
  · rename_i q s session deadline htask
    split at h
    · rename_i raw rest pend hinbound hpending
      obtain ⟨ht, rfl, hother, hgone⟩ := of_decide_eq_true h
      obtain ⟨socket, hsocket, hi⟩ := Option.map_eq_some_iff.mp hinbound
      exact ⟨s, session, raw, pend, ⟨ht, deadline, socket, rest, htask, hsocket, hi⟩, hpending,
        hother, hgone⟩
    · cases h
  · cases h

def secondFrame : DeviceRecord := frame "frame-2" "k2" "s2"

/-- The proof of the second device for the third challenge. -/
def secondProof : String := "ef7a612a21b69b5b883f4d062e6add3017ac57698a631e461dad8107cd8e0b02"

theorem hex_secondProof : Hmac.hex "s2" ("k2" ++ "2").toUTF8 = secondProof := by decide +kernel

theorem offers_secondProof :
    (firstJoined.after (greeting 4 1 (.v4 [2]) secondFrame.apiKey secondProof)).offers 4 0 1
      secondFrame "2" secondProof = true := by decide +kernel

/-- A command for the first device is pending, and the second sends a reply that names it. -/
def foreignReply : List Event :=
  [.call 0 firstFrame (.sendCommand (.shell "uptime") none none), .turn 8,
    .arrive 1 (.text ("\x7b\"nonce\":0,\"payload\":\x7b" ++
      "\"id\":\"00000000-0000-0000-0000-000000000005\",\"ok\":true,\"result\":null," ++
      "\"type\":\"cmd/resp\"\x7d,\"mac\":\"" ++
      "f4f342ccddba74bb3143d04ca93e173f284fb3b7853058b94084492e1435988b" ++ "\"\x7d"))]

theorem robs_foreignReply :
    robs ((firstJoined.join 4 1 (.v4 [2]) secondFrame secondProof).after foreignReply) 4 0 ⟨5⟩ =
      true := by
  decide +kernel

theorem robs_bothJoined : ∃ es, robs ((initial counted 0 twoFrames).after es) 4 0 ⟨5⟩ = true := by
  refine ⟨.addProcess (.ofConfig {}) ::
    ((greeting 0 0 (.v4 [1]) firstFrame.apiKey firstProof ++ [.turn 0, .turn 0]) ++
    ((greeting 4 1 (.v4 [2]) secondFrame.apiKey secondProof ++ [.turn 4, .turn 4]) ++
      foreignReply)), ?_⟩
  have hstart : ∀ es, (initial counted 0 twoFrames).after (.addProcess (.ofConfig {}) :: es) =
      single.after es := fun _ => rfl
  rw [hstart, after_append, after_firstJoined, after_append,
    after_greeting offers_secondProof hex_secondProof]
  exact robs_foreignReply

/-- A reply may take away a command of another device. -/
theorem reply_of_another_device : ¬ ∀ (supply : Supply) (epoch : Nat)
    (directory : DirectoryService) (es : List Event) (t : TaskId) (p s : Nat)
    (session : SessionState) (raw : String) (id : Uuid) (pend : Pending),
    let c := (initial supply epoch directory).after es
    Receives c t p s session raw → (c.engine p).pending.get? id = some pend →
      pend.deviceId ≠ session.device.deviceId →
      ((c.give t).engine p).pending.get? id = some pend := by
  intro h
  obtain ⟨es, hrobs⟩ := robs_bothJoined
  obtain ⟨s, session, raw, pend, hr, hp, hother, hgone⟩ := receives_of_robs hrobs
  have hkept := h counted 0 twoFrames es 4 0 s session raw ⟨5⟩ pend hr hp hother
  rw [hgone] at hkept
  cases hkept

end Cluster

end FleetControl
