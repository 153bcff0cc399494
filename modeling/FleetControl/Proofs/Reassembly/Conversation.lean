import FleetControl.Proofs.Cluster.Frame
import FleetControl.Proofs.Engine.Operation
import FleetControl.Proofs.Reassembly.InOrder

/-! # Bodies of a device that goes past commands

A device answers in order, but may go past a command whose time is up and never answer it. The
engine and the table of the connection go through such a conversation together: frames are taken in
against what is pending, and an answer decides its command with the body taken for it. A command
answered right behind one that the device went past gets no body at all, whatever was streamed for
it; any other gets its own. -/
namespace FleetControl

open Reassembly (joined wholeBody Tracks)

namespace Engine

/-- A device's answer decides the command that it names, with the body taken for it. -/
def settle (e : Engine) (id : Uuid) (ok : Bool) (result : Json) :
    Outcome (Option ByteArray) → Engine
  | .ok body => (e.resolveResponse id ok result body).1
  | .error err => (e.resolve id (.error err)).1

/-- The operation that an answer stands for. -/
def settling (id : Uuid) (ok : Bool) (result : Json) : Outcome (Option ByteArray) → Op
  | .ok body => .respond id ok result body
  | .error err => .resolve id (.error err)

theorem settle_eq (e : Engine) (id : Uuid) (ok : Bool) (result : Json)
    (body : Outcome (Option ByteArray)) :
    e.settle id ok result body = e.apply (settling id ok result body) := by
  cases body <;> rfl

theorem settling_submits (id : Uuid) (ok : Bool) (result : Json)
    (body : Outcome (Option ByteArray)) : (settling id ok result body).submits? = none := by
  cases body <;> rfl

/-- A successful answer comes to the reply with its body, or to what went wrong with the body. -/
def settled (result : Json) : Outcome (Option ByteArray) → CommandOutcome
  | .ok body => Reply.merge result body
  | .error err => .error err

theorem outcome_settle {e : Engine} (hs : e.Sound) {id : Uuid} (hp : e.isPending id = true)
    (result : Json) (body : Outcome (Option ByteArray)) :
    (e.settle id true result body).outcome? id = some (settled result body) := by
  obtain ⟨p, hp⟩ := (e.isPending_iff id).mp hp
  apply outcome?_of_resolved
  cases body with
  | ok body =>
    refine (completions_resolve hs hp _).trans ?_
    rw [answer_eq hp]
    rfl
  | error err => exact completions_resolve hs hp _

end Engine

namespace Cluster

/-- A frame changes the bodies of its connection only. -/
theorem engine_takeBinary (c : Cluster) (p q : Nat) (conn : Uuid) (data : ByteArray) :
    (c.takeBinary p conn data).engine q = c.engine q := rfl

theorem bodiesOf_setBodies (c : Cluster) (conn : Uuid) (r : Reassembly) :
    (c.setBodies conn r).bodiesOf conn = r := by
  simp [bodiesOf, setBodies, Table.getD]

theorem bodiesOf_takeBinary (c : Cluster) (p : Nat) (conn : Uuid) (data : ByteArray) :
    (c.takeBinary p conn data).bodiesOf conn =
      ((c.bodiesOf conn).append data (c.engine p).isPending).1 :=
  c.bodiesOf_setBodies conn _

theorem bodiesOf_decide (c : Cluster) (p : Nat) (conn id : Uuid) (changed : Engine × Bool) :
    (c.decide p id changed).1.bodiesOf conn = c.bodiesOf conn := by
  unfold decide
  dsimp only
  split
  · obtain ⟨woken, h⟩ := (c.setEngine p changed.1).notify_eq (.decided p id)
    rw [h]
    rfl
  · rfl

theorem engine_decide (c : Cluster) (p : Nat) (hp : c.processes.has p = true) (id : Uuid)
    (changed : Engine × Bool) : (c.decide p id changed).1.engine p = changed.1 := by
  rw [engine_decided, if_pos ⟨rfl, hp⟩]

/-- A reply takes the body and settles its command. -/
theorem takeResponse_settles (c : Cluster) (p : Nat) (hp : c.processes.has p = true)
    (conn id : Uuid) (ok : Bool) (result : Json) :
    let taken := (c.bodiesOf conn).take id (c.engine p).isPending
    (c.takeResponse p conn id ok result).bodiesOf conn = taken.1 ∧
    (c.takeResponse p conn id ok result).engine p = (c.engine p).settle id ok result taken.2 := by
  intro taken
  have hdecide : ∀ changed, ((c.setBodies conn taken.1).decide p id changed).1.bodiesOf conn =
      taken.1 ∧ ((c.setBodies conn taken.1).decide p id changed).1.engine p = changed.1 :=
    fun changed => ⟨(bodiesOf_decide _ p conn id changed).trans (c.bodiesOf_setBodies conn taken.1),
      engine_decide (c.setBodies conn taken.1) p hp id changed⟩
  have hsplit : c.takeResponse p conn id ok result = match taken.2 with
      | .ok body => ((c.setBodies conn taken.1).resolveResponse p id ok result body).1
      | .error e => ((c.setBodies conn taken.1).resolve p id (.error e)).1 := rfl
  rw [hsplit]
  cases taken.2 with
  | ok body => exact hdecide _
  | error e => exact hdecide _

end Cluster

/-- An answer as it was taken: what was streamed for its command, whether the device had gone past
another one right before it, and what the command came to. -/
structure Answered where
  id : Uuid
  live : Bool
  skipped : Bool
  frames : List ByteArray
  ok : Bool
  result : Json
  outcome : Option CommandOutcome

namespace Answered

/-- The command came to its reply with all that was streamed for it, or to an error. -/
def Whole (a : Answered) : Prop :=
  a.outcome = some (Reply.merge a.result
    (if (joined a.frames).size = 0 then none else some (joined a.frames))) ∨
  ∃ err, a.outcome = some (.error err)

end Answered

/-- An engine and the table of a connection, with the commands that the device went past since its
last answer, those that it has still to answer, and the frames for the first of these. -/
structure Conversation where
  engine : Engine := {}
  table : Reassembly
  passed : List Uuid := []
  due : List Uuid := []
  frames : List ByteArray := []
  answers : List Answered := []

namespace Conversation

inductive Move where
  /-- Whatever else happens to the engine. -/
  | operate (op : Engine.Op)
  /-- A command that may get a body goes out. -/
  | send (id conn : Uuid)
  | frame (data : ByteArray)
  | answer (ok : Bool) (result : Json)
  /-- The device goes past a command. -/
  | pass

def next (s : Conversation) : Move → Conversation
  | .operate op => { s with engine := s.engine.apply op }
  | .send id conn =>
    { s with
      engine := (s.engine.markSent id conn).1
      table := s.table.expect id
      due := s.due ++ [id] }
  | .frame data =>
    { s with
      table := (s.table.append data s.engine.isPending).1
      frames := s.frames ++ [data] }
  | .answer ok result =>
    match s.due with
    | [] => s
    | id :: later =>
      let taken := s.table.take id s.engine.isPending
      let engine := s.engine.settle id ok result taken.2
      { engine := engine
        table := taken.1
        passed := []
        due := later
        frames := []
        answers := s.answers ++ [⟨id, s.engine.isPending id, !s.passed.isEmpty, s.frames, ok,
          result, engine.outcome? id⟩] }
  | .pass =>
    match s.due with
    | [] => s
    | id :: later => { s with passed := s.passed ++ [id], due := later, frames := [] }

/-- A pending command goes out, the device streams and answers for what it was sent, and goes past
a command only if that is no longer pending. -/
def Permitted (s : Conversation) : Move → Prop
  | .operate op => op.Fresh s.engine
  | .send id _ => s.engine.isPending id = true ∧ id ∉ s.passed ++ s.due
  | .frame _ => s.due ≠ []
  | .answer _ _ => s.due ≠ []
  | .pass => ∃ id ∈ s.due.head?, s.engine.isPending id = false

def run (s : Conversation) : List Move → Conversation
  | [] => s
  | m :: ms => run (s.next m) ms

def Orderly (s : Conversation) : List Move → Prop
  | [] => True
  | m :: ms => s.Permitted m ∧ Orderly (s.next m) ms

/-- Nothing is sent yet. -/
def start (limit : Nat) : Conversation where
  table := ⟨limit, []⟩

/-- What an answer shows of its body. -/
def Explained (limit : Nat) (a : Answered) : Prop :=
  a.live = true → a.ok = true → a.outcome = some (Engine.settled a.result
    (if a.skipped then .ok none else wholeBody limit a.id a.frames))

structure Invariant (limit : Nat) (s : Conversation) : Prop where
  sound : s.engine.Sound
  limited : s.table.limit = limit
  tracks : Tracks s.table s.engine.isPending s.passed s.due s.frames
  known : ∀ id ∈ s.passed ++ s.due, s.engine.completions.get? id ≠ none
  explained : ∀ a ∈ s.answers, Explained limit a

theorem invariant_start (limit : Nat) : Invariant limit (start limit) where
  sound := Engine.sound_empty
  limited := rfl
  tracks := Reassembly.tracks_empty limit _
  known := by simp [start]
  explained := by simp [start]

/-- A command that was submitted is pending behind an operation only if it was before. -/
theorem isPending_of_apply {e : Engine} (hs : e.Sound) {op : Engine.Op} (hf : op.Fresh e)
    {id : Uuid} (hk : e.completions.get? id ≠ none) (h : (e.apply op).isPending id = true) :
    e.isPending id = true := by
  rw [Engine.isPending_iff]
  cases hp : e.pending.get? id with
  | some p => exact ⟨p, rfl⟩
  | none =>
    have hn : op.submits? ≠ some id := fun he => hk (Engine.Op.submits_of_fresh hf he)
    obtain ⟨q, hq⟩ := ((e.apply op).isPending_iff id).mp h
    rw [(Engine.apply_not_pending hs hp hn).1] at hq
    cases hq

/-- An operation of the engine keeps what holds of a conversation. -/
theorem Invariant.operate {limit : Nat} {s : Conversation} (h : Invariant limit s)
    {op : Engine.Op} (hf : op.Fresh s.engine) :
    Invariant limit { s with engine := s.engine.apply op } where
  sound := Engine.sound_apply h.sound op hf
  limited := h.limited
  tracks := h.tracks.mono fun id hid => isPending_of_apply h.sound hf (h.known id hid)
  known := by
    intro id hid hnone
    obtain ⟨c, hc⟩ := Option.ne_none_iff_exists'.mp (h.known id hid)
    obtain ⟨c', hc'⟩ := Engine.known_apply h.sound hf hc
    rw [hc'] at hnone
    cases hnone
  explained := h.explained

theorem Invariant.send {limit : Nat} {s : Conversation} (h : Invariant limit s) {id conn : Uuid}
    (hp : s.engine.isPending id = true) (hn : id ∉ s.passed ++ s.due) :
    Invariant limit (s.next (.send id conn)) := by
  have hmarked : Invariant limit { s with engine := s.engine.apply (.mark id conn) } :=
    h.operate trivial
  refine ⟨hmarked.sound, hmarked.limited, hmarked.tracks.expect hn, ?_, h.explained⟩
  intro j hj
  change j ∈ s.passed ++ (s.due ++ [id]) at hj
  rw [← List.append_assoc] at hj
  rcases List.mem_append.mp hj with hj | hj
  · exact hmarked.known j hj
  · obtain ⟨p, hp⟩ := (s.engine.isPending_iff id).mp hp
    rw [List.mem_singleton.mp hj]
    simp [next, h.sound.unresolved id p hp]

theorem Invariant.answer {limit : Nat} {s : Conversation} (h : Invariant limit s) {id : Uuid}
    {later : List Uuid} (hdue : s.due = id :: later) (ok : Bool) (result : Json) :
    Invariant limit (s.next (.answer ok result)) := by
  have htracks := h.tracks
  rw [hdue] at htracks
  generalize hbody : (s.table.take id s.engine.isPending).2 = body
  have hsub := Engine.settling_submits id ok result body
  have hfresh : (Engine.settling id ok result body).Fresh s.engine := by
    cases body <;> trivial
  have hsettled := h.operate hfresh
  simp only [next, hdue, hbody, Engine.settle_eq]
  refine ⟨hsettled.sound, ?_, ?_, ?_, ?_⟩
  · exact (Reassembly.limit_take _ _ _).trans h.limited
  · refine htracks.take.mono fun j hj => isPending_of_apply h.sound hfresh (h.known j ?_)
    rw [hdue]
    simp only [List.nil_append] at hj
    simp [hj]
  · intro j hj
    refine hsettled.known j ?_
    simp only [List.nil_append] at hj
    simp [hdue, hj]
  · intro a ha
    rcases List.mem_append.mp ha with ha | ha
    · exact h.explained a ha
    · rw [List.mem_singleton.mp ha]
      intro hlive hok
      obtain rfl : ok = true := hok
      change _ = some (Engine.settled result _)
      rw [← Engine.settle_eq, Engine.outcome_settle h.sound hlive, ← hbody, htracks.body hlive,
        h.limited]
      cases s.passed <;> rfl

theorem invariant_next {limit : Nat} {s : Conversation} (h : Invariant limit s) {m : Move}
    (hm : s.Permitted m) : Invariant limit (s.next m) := by
  cases m with
  | operate op => exact h.operate hm
  | send id conn => exact h.send hm.1 hm.2
  | frame data =>
    obtain ⟨id, later, hdue⟩ := List.exists_cons_of_ne_nil hm
    have htracks := h.tracks
    rw [hdue] at htracks
    refine ⟨h.sound, (Reassembly.limit_append _ _ _).trans h.limited, ?_, h.known, h.explained⟩
    change Tracks _ _ _ s.due _
    rw [hdue]
    exact htracks.append data
  | answer ok result =>
    obtain ⟨id, later, hdue⟩ := List.exists_cons_of_ne_nil hm
    exact h.answer hdue ok result
  | pass =>
    obtain ⟨id, hid, hdead⟩ := hm
    cases hdue : s.due with
    | nil =>
      rw [hdue] at hid
      cases hid
    | cons first later =>
      rw [hdue] at hid
      obtain rfl : first = id := by simpa using hid
      have htracks := h.tracks
      rw [hdue] at htracks
      have hknown := h.known
      rw [hdue] at hknown
      simp only [next, hdue]
      refine ⟨h.sound, h.limited, htracks.pass hdead, ?_, h.explained⟩
      intro j hj
      exact hknown j (by simpa using hj)

theorem invariant_run {limit : Nat} {s : Conversation} (h : Invariant limit s) {ms : List Move}
    (hm : s.Orderly ms) : Invariant limit (s.run ms) := by
  induction ms generalizing s with
  | nil => exact h
  | cons m ms ih => exact ih (invariant_next h hm.1) hm.2

/-- A reply without a body is not one with the bytes that were streamed. -/
theorem merge_some_ne_bare (result : Json) (bytes : ByteArray) :
    Reply.merge result (some bytes) ≠ Reply.merge result none := by
  unfold Reply.merge
  dsimp only
  split_ifs
  · split <;> simp
  · simp

theorem whole_of_exact {limit : Nat} {a : Answered}
    (h : a.outcome = some (Engine.settled a.result (wholeBody limit a.id a.frames))) : a.Whole := by
  unfold wholeBody at h
  split_ifs at h with hlong hnone
  · exact Or.inr ⟨_, h⟩
  · exact Or.inl (by rw [if_pos hnone]; exact h)
  · exact Or.inl (by rw [if_neg hnone]; exact h)

theorem Explained.whole_iff {limit : Nat} {a : Answered} (h : Explained limit a)
    (hlive : a.live = true) (hok : a.ok = true) :
    a.Whole ↔ a.skipped = false ∨ (joined a.frames).size = 0 := by
  have hout := h hlive hok
  cases hskip : a.skipped with
  | false =>
    rw [hskip] at hout
    exact iff_of_true (whole_of_exact hout) (Or.inl rfl)
  | true =>
    rw [hskip, if_pos rfl] at hout
    constructor
    · rintro (hw | ⟨err, he⟩)
      · right
        by_contra hne
        rw [if_neg hne, hout] at hw
        exact merge_some_ne_bare _ _ (Option.some.inj hw).symm
      · rw [hout] at he
        simp [Engine.settled, Reply.merge] at he
    · rintro (hf | hzero)
      · cases hf
      · left
        rw [if_pos hzero]
        exact hout

/-- A live command with a successful answer comes to all that was streamed for it or to an error
exactly if nothing was streamed or the device did not go past another command right before it;
otherwise its reply has no body. -/
theorem whole_unless_skipped (limit : Nat) (ms : List Move) (hm : (start limit).Orderly ms) :
    ∀ a ∈ ((start limit).run ms).answers, a.live = true → a.ok = true →
      (a.Whole ↔ a.skipped = false ∨ (joined a.frames).size = 0) ∧
      a.outcome = some (Engine.settled a.result
        (if a.skipped then .ok none else wholeBody limit a.id a.frames)) := by
  intro a ha hlive hok
  have h := (invariant_run (invariant_start limit) hm).explained a ha
  exact ⟨h.whole_iff hlive hok, h hlive hok⟩

/-- The first of three reads expires and is never answered; two bytes are streamed for the second,
and one for the third. -/
def gonePast : List Move :=
  [.operate (.enqueue ⟨1⟩ "frame-1" (.fileRead "/a") none 1000 0),
    .operate (.enqueue ⟨2⟩ "frame-1" (.fileRead "/b") none 5000 0),
    .operate (.enqueue ⟨3⟩ "frame-1" (.fileRead "/c") none 5000 0),
    .send ⟨1⟩ ⟨7⟩, .send ⟨2⟩ ⟨7⟩, .send ⟨3⟩ ⟨7⟩, .operate (.expire ⟨1⟩), .pass,
    .frame ⟨#[104, 105]⟩, .answer true (.object []), .frame ⟨#[33]⟩, .answer true (.object [])]

theorem orderly_gonePast : (start 8).Orderly gonePast :=
  ⟨rfl, rfl, rfl, ⟨rfl, by decide⟩, ⟨rfl, by decide⟩, ⟨rfl, by decide⟩, trivial, ⟨⟨1⟩, rfl, rfl⟩,
    List.cons_ne_nil _ _, List.cons_ne_nil _ _, List.cons_ne_nil _ _, List.cons_ne_nil _ _,
    trivial⟩

def answersGonePast : List Answered :=
  [⟨⟨2⟩, true, true, [⟨#[104, 105]⟩], true, .object [], some (.ok ⟨.object [], none⟩)⟩,
    ⟨⟨3⟩, true, false, [⟨#[33]⟩], true, .object [], some (.ok ⟨.object [], some ⟨#[33]⟩⟩)⟩]

theorem answers_gonePast : ((start 8).run gonePast).answers = answersGonePast := by
  rfl

/-- The second read, behind the first that the device goes past. -/
theorem whole_unless_skipped_gonePast : (start 8).Orderly gonePast ∧
    ∃ a ∈ ((start 8).run gonePast).answers, a.live = true ∧ a.ok = true ∧
      (a.Whole ↔ a.skipped = false ∨ (joined a.frames).size = 0) ∧
      a.outcome = some (Engine.settled a.result
        (if a.skipped then .ok none else wholeBody 8 a.id a.frames)) := by
  have hmem : answersGonePast[0] ∈ ((start 8).run gonePast).answers := by
    rw [answers_gonePast]
    simp [answersGonePast]
  exact ⟨orderly_gonePast, answersGonePast[0], hmem, rfl, rfl,
    whole_unless_skipped 8 gonePast orderly_gonePast _ hmem rfl rfl⟩

/-- The second read comes to a reply without a body, though two bytes were streamed for it. -/
theorem body_dropped : (start 8).Orderly gonePast ∧
    ∃ a ∈ ((start 8).run gonePast).answers, a.live = true ∧ a.ok = true ∧
      joined a.frames = ⟨#[104, 105]⟩ ∧ a.outcome = some (.ok ⟨.object [], none⟩) := by
  refine ⟨orderly_gonePast, answersGonePast[0], ?_, rfl, rfl, ?_, rfl⟩
  · rw [answers_gonePast]
    simp [answersGonePast]
  · simp [answersGonePast, joined]

end Conversation

end FleetControl
