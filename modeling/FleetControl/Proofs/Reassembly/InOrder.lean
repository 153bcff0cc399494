import FleetControl.Reassembly
import Mathlib.Data.List.Nodup
import Mathlib.Data.List.TakeDrop

/-! # Bodies of a device that answers in order

Frames name no command, so whose body a frame belongs to is a matter of the whole history of a
connection. `Tracks` says what the table holds against what the device has done: the commands that
it went past without an answer, the commands that it still has to answer, and the frames streamed
for the first of these. Every operation of the table keeps it. For a device that answers every
command in order it follows that a body is exactly what was streamed for its command. -/
namespace FleetControl.Reassembly

/-- Frames, one behind the other. -/
def joined (frames : List ByteArray) : ByteArray := frames.foldl (· ++ ·) ByteArray.empty

@[simp] theorem joined_nil : joined [] = ByteArray.empty := rfl

@[simp] theorem joined_concat (frames : List ByteArray) (f : ByteArray) :
    joined (frames ++ [f]) = joined frames ++ f := by
  simp [joined]

/-- What the frames streamed for a command come to. -/
def wholeBody (limit : Nat) (id : Uuid) (frames : List ByteArray) : Outcome (Option ByteArray) :=
  if limit < (joined frames).size then
    .error (.decode ("reply body for " ++ id.text ++ " exceeds " ++ toString limit ++ " bytes"))
  else if (joined frames).size = 0 then .ok none
  else .ok (some (joined frames))

/-- The entry of a live command whose frames have all been taken in. -/
def collected (limit : Nat) (id : Uuid) (frames : List ByteArray) : Awaited :=
  if limit < (joined frames).size then { id := id, overflowed := true }
  else { id := id, data := joined frames }

theorem bodyOf_collected (r : Reassembly) (id : Uuid) (frames : List ByteArray) :
    r.bodyOf (collected r.limit id frames) = wholeBody r.limit id frames := by
  unfold collected wholeBody bodyOf
  split <;> simp

@[simp] theorem limit_append (r : Reassembly) (f : ByteArray) (live : Uuid → Bool) :
    (r.append f live).1.limit = r.limit := by
  unfold append
  split
  · rfl
  · dsimp only
    split_ifs <;> rfl

@[simp] theorem limit_take (r : Reassembly) (id : Uuid) (live : Uuid → Bool) :
    (r.take id live).1.limit = r.limit := by
  unfold take
  split <;> rfl

/-- The entry of the command whose turn it is. `clear` says that no command stands before it. -/
structure Current (limit : Nat) (live : Uuid → Bool) (clear : Prop) (frames : List ByteArray)
    (a : Awaited) : Prop where
  own : ∃ part, part <+: frames ∧ a.data = joined part
  whole : clear → live a.id = true → a = collected limit a.id frames
  untouched : ¬ clear → a = { id := a.id }

/-- What follows the entries of the commands that the device went past. -/
def Pending (limit : Nat) (live : Uuid → Bool) (clear : Prop) (frames : List ByteArray) :
    List Uuid → List Awaited → Prop
  | [], entries => frames = [] ∧ entries = []
  | id :: later, entries => ∃ a, a.id = id ∧ Current limit live clear frames a ∧
      entries = a :: later.map ({ id := · })

/-- The table of a connection whose device has gone past some commands since its last answer, and
has streamed frames for the first of those that are due. -/
structure Tracks (r : Reassembly) (live : Uuid → Bool) (passed due : List Uuid)
    (frames : List ByteArray) : Prop where
  distinct : (passed ++ due).Nodup
  gone : ∀ id ∈ passed, live id = false
  entries : ∃ ahead rest, ahead.map (·.id) = passed ∧ r.waiting = ahead ++ rest ∧
    Pending r.limit live (passed = []) frames due rest

theorem current_fresh (limit : Nat) (live : Uuid → Bool) (clear : Prop) (id : Uuid) :
    Current limit live clear [] { id := id } where
  own := ⟨[], List.prefix_refl _, rfl⟩
  whole := by simp [collected]
  untouched := fun _ => rfl

theorem pending_fresh (limit : Nat) (live : Uuid → Bool) (clear : Prop) (due : List Uuid) :
    Pending limit live clear [] due (due.map ({ id := · })) := by
  cases due with
  | nil => exact ⟨rfl, rfl⟩
  | cons id later => exact ⟨_, rfl, current_fresh limit live clear id, rfl⟩

theorem tracks_empty (limit : Nat) (live : Uuid → Bool) : Tracks ⟨limit, []⟩ live [] [] [] where
  distinct := List.nodup_nil
  gone := by simp
  entries := ⟨[], [], rfl, rfl, rfl, rfl⟩

theorem Pending.ids {limit : Nat} {live : Uuid → Bool} {clear : Prop} {frames : List ByteArray}
    {due : List Uuid} {entries : List Awaited} (h : Pending limit live clear frames due entries) :
    entries.map (·.id) = due := by
  cases due with
  | nil => rw [h.2]; rfl
  | cons id later =>
    obtain ⟨a, rfl, -, rfl⟩ := h
    simp [Function.comp_def]

/-- What has been collected grows frame by frame. -/
theorem Current.append {live : Uuid → Bool} {frames : List ByteArray} {a : Awaited}
    {r : Reassembly} {rest : List Awaited} (h : Current r.limit live True frames a)
    (hr : r.waiting = a :: rest) (f : ByteArray) :
    ∃ b, b.id = a.id ∧ Current r.limit live True (frames ++ [f]) b ∧
      (r.append f live).1.waiting = b :: rest := by
  have hgrow : frames <+: frames ++ [f] := List.prefix_append _ _
  obtain ⟨part, hpart, hdata⟩ := h.own
  simp only [Reassembly.append, hr]
  by_cases hl : live a.id = true
  · have ha := h.whole trivial hl
    by_cases hover : r.limit < (joined frames).size
    · -- already too long: the entry stays as it is
      have hentry : a = { id := a.id, overflowed := true } := by
        simpa [collected, hover] using ha
      refine ⟨a, rfl, ⟨⟨part, hpart.trans hgrow, hdata⟩, fun _ _ => ?_, by simp⟩, ?_⟩
      · have : r.limit < (joined (frames ++ [f])).size := by
          rw [joined_concat, ByteArray.size_append]
          omega
        rw [collected, if_pos this]
        exact hentry
      · have : a.overflowed = true := by rw [hentry]
        simp [hl, this, hr]
    · have hentry : a = { id := a.id, data := joined frames } := by
        simpa [collected, hover] using ha
      have hkeeps : a.overflowed = false := by rw [hentry]
      have hd : a.data = joined frames := by rw [hentry]
      by_cases hlong : r.limit < (joined (frames ++ [f])).size
      · refine ⟨{ a with data := ByteArray.empty, overflowed := true }, rfl,
          ⟨⟨[], List.nil_prefix, rfl⟩, fun _ _ => ?_, by simp⟩, ?_⟩
        · rw [collected, if_pos hlong]
        · rw [joined_concat, ByteArray.size_append, ← hd] at hlong
          simp [hl, hkeeps, hlong]
      · refine ⟨{ a with data := a.data ++ f }, rfl,
          ⟨⟨frames ++ [f], List.prefix_refl _, ?_⟩, fun _ _ => ?_, by simp⟩, ?_⟩
        · rw [joined_concat, hd]
        · rw [collected, if_neg hlong, joined_concat, ← hd]
          simp [hkeeps]
        · rw [joined_concat, ByteArray.size_append, ← hd] at hlong
          simp [hl, hkeeps, hlong]
  · refine ⟨{ a with data := ByteArray.empty }, rfl,
      ⟨⟨[], List.nil_prefix, rfl⟩, fun _ h => absurd h hl, by simp⟩, ?_⟩
    simp [hl]

namespace Tracks

variable {r : Reassembly} {live : Uuid → Bool} {passed due : List Uuid} {frames : List ByteArray}

theorem ids (h : Tracks r live passed due frames) : r.waiting.map (·.id) = passed ++ due := by
  obtain ⟨ahead, rest, hahead, hr, hp⟩ := h.entries
  rw [hr, List.map_append, hahead, hp.ids]

/-- Commands die, and stay dead. -/
theorem mono (h : Tracks r live passed due frames) {live' : Uuid → Bool}
    (hl : ∀ id ∈ passed ++ due, live' id = true → live id = true) :
    Tracks r live' passed due frames := by
  obtain ⟨ahead, rest, hahead, hr, hp⟩ := h.entries
  refine ⟨h.distinct, ?_, ahead, rest, hahead, hr, ?_⟩
  · intro id hid
    have hgone := h.gone id hid
    by_contra hn
    have := hl id (List.mem_append_left _ hid) (by simpa using hn)
    rw [hgone] at this
    cases this
  · cases due with
    | nil => exact hp
    | cons id later =>
      obtain ⟨a, rfl, hc, rfl⟩ := hp
      exact ⟨a, rfl, ⟨hc.own, fun hclear ha => hc.whole hclear (hl a.id (by simp) ha),
        hc.untouched⟩, rfl⟩

theorem expect (h : Tracks r live passed due frames) {id : Uuid} (hn : id ∉ passed ++ due) :
    Tracks (r.expect id) live passed (due ++ [id]) frames := by
  obtain ⟨ahead, rest, hahead, hr, hp⟩ := h.entries
  refine ⟨?_, h.gone, ahead, rest ++ [{ id := id }], hahead, by simp [hr], ?_⟩
  · rw [← List.append_assoc]
    exact List.nodup_append.mpr ⟨h.distinct, by simp, by
      intro a ha b hb
      rintro rfl
      exact hn (List.mem_singleton.mp hb ▸ ha)⟩
  · cases due with
    | nil =>
      obtain ⟨rfl, rfl⟩ := hp
      exact ⟨_, rfl, current_fresh _ _ _ _, rfl⟩
    | cons first later =>
      obtain ⟨a, rfl, hc, rfl⟩ := hp
      exact ⟨a, rfl, hc, by simp⟩

theorem append {first : Uuid} {later : List Uuid}
    (h : Tracks r live passed (first :: later) frames) (f : ByteArray) :
    Tracks (r.append f live).1 live passed (first :: later) (frames ++ [f]) := by
  obtain ⟨ahead, rest, hahead, hr, a, ha, hc, hrest⟩ := h.entries
  cases ahead with
  | nil =>
    obtain rfl : passed = [] := hahead.symm
    have hclear : Current r.limit live True frames a := by simpa using hc
    obtain ⟨b, hb, hcb, hw⟩ := hclear.append (hr.trans hrest) f
    refine ⟨h.distinct, by simp, [], _, rfl, hw, b, hb.trans ha, ?_, rfl⟩
    simpa using hcb
  | cons b behind =>
    -- the frame goes to a command that was passed, and is dropped
    have hb : live b.id = false := h.gone b.id (by simp [← hahead])
    have hpassed : passed ≠ [] := by rintro rfl; cases hahead
    refine ⟨h.distinct, h.gone, { b with data := ByteArray.empty } :: behind, rest, hahead, ?_,
      a, ha, ⟨?_, fun hp => absurd hp hpassed, hc.untouched⟩, hrest⟩
    · simp [Reassembly.append, hr, hb]
    · obtain ⟨part, hpart, hdata⟩ := hc.own
      exact ⟨part, hpart.trans (List.prefix_append _ _), hdata⟩

/-- The device goes past the command whose turn it is. -/
theorem pass {first : Uuid} {later : List Uuid} (h : Tracks r live passed (first :: later) frames)
    (hdead : live first = false) : Tracks r live (passed ++ [first]) later [] := by
  obtain ⟨ahead, rest, hahead, hr, a, ha, -, hrest⟩ := h.entries
  refine ⟨by simpa using h.distinct, ?_, ahead ++ [a], later.map ({ id := · }),
    by simp [hahead, ha], by simp [hr, hrest], pending_fresh _ _ _ _⟩
  intro id hid
  rcases List.mem_append.mp hid with hid | hid
  · exact h.gone id hid
  · rw [List.mem_singleton.mp hid]
    exact hdead

/-- An answer finds its command behind those that the device went past, which go with it. -/
theorem take_eq {first : Uuid} {later : List Uuid}
    (h : Tracks r live passed (first :: later) frames) :
    ∃ a, a.id = first ∧ Current r.limit live (passed = []) frames a ∧
      r.take first live = ({ r with waiting := later.map ({ id := · }) }, r.bodyOf a) := by
  obtain ⟨ahead, rest, hahead, hr, a, ha, hc, hrest⟩ := h.entries
  refine ⟨a, ha, hc, ?_⟩
  have hne : ∀ b ∈ ahead, decide (b.id ≠ first) = true := by
    intro b hb
    have hmem : b.id ∈ passed := hahead ▸ List.mem_map_of_mem hb
    have hnot := List.disjoint_of_nodup_append h.distinct hmem
    simp only [decide_eq_true_eq]
    rintro rfl
    exact hnot (by simp)
  have hspan : r.waiting.span (fun b => b.id ≠ first) = (ahead, a :: later.map ({ id := · })) := by
    rw [List.span_eq_takeWhile_dropWhile, hr, hrest, List.takeWhile_append_of_pos hne,
      List.dropWhile_append_of_pos hne]
    simp [ha]
  have hgone : ahead.filter (fun b => live b.id) = [] := by
    rw [List.filter_eq_nil_iff]
    intro b hb
    simp [h.gone b.id (hahead ▸ List.mem_map_of_mem hb)]
  simp only [Reassembly.take, hspan, hgone, List.nil_append]

theorem take {first : Uuid} {later : List Uuid}
    (h : Tracks r live passed (first :: later) frames) :
    Tracks (r.take first live).1 live [] later [] := by
  obtain ⟨a, -, -, htake⟩ := h.take_eq
  rw [htake]
  refine ⟨?_, by simp, [], _, rfl, rfl, pending_fresh _ _ _ _⟩
  exact ((List.nodup_append.mp h.distinct).2.1).tail

/-- A live command gets what was streamed for it, unless the device went past another one: then
its frames went there and it gets nothing. -/
theorem body {first : Uuid} {later : List Uuid} (h : Tracks r live passed (first :: later) frames)
    (hl : live first = true) :
    (r.take first live).2 = if passed = [] then wholeBody r.limit first frames else .ok none := by
  obtain ⟨a, rfl, hc, htake⟩ := h.take_eq
  rw [htake]
  split
  · rename_i hclear
    have hbody := bodyOf_collected r a.id frames
    rwa [← hc.whole hclear hl] at hbody
  · rename_i hclear
    rw [hc.untouched hclear]
    rfl

end Tracks

/-! ## Runs -/

/-- What happens on a connection whose device answers in order. -/
inductive Move where
  /-- A command that may get a body goes out. -/
  | expect (id : Uuid)
  /-- The device streams a frame for the first command that it has not answered. -/
  | frame (data : ByteArray)
  /-- The device answers that command. -/
  | answer
  | lapse (id : Uuid)

/-- A body as it was taken for an answer. -/
structure Taken where
  id : Uuid
  live : Bool
  frames : List ByteArray
  body : Outcome (Option ByteArray)

/-- A table with the history of its connection: the commands in the order in which they went out,
those whose time is up, the frames since the last answer, and the answers. -/
structure Course where
  table : Reassembly
  sent : List Uuid := []
  lapsed : List Uuid := []
  frames : List ByteArray := []
  taken : List Taken := []

namespace Course

def start (limit : Nat) : Course where
  table := ⟨limit, []⟩

/-- The commands without an answer. -/
def due (s : Course) : List Uuid := s.sent.drop s.taken.length

def live (s : Course) (id : Uuid) : Bool := id ∉ s.lapsed

def next (s : Course) : Move → Course
  | .expect id => { s with table := s.table.expect id, sent := s.sent ++ [id] }
  | .frame data =>
    { s with table := (s.table.append data s.live).1, frames := s.frames ++ [data] }
  | .answer =>
    match s.due with
    | [] => s
    | id :: _ =>
      { s with
        table := (s.table.take id s.live).1
        frames := []
        taken := s.taken ++ [⟨id, s.live id, s.frames, (s.table.take id s.live).2⟩] }
  | .lapse id => { s with lapsed := id :: s.lapsed }

/-- Commands are distinct, and a device answers only what it was sent. -/
def Permitted (s : Course) : Move → Prop
  | .expect id => id ∉ s.sent
  | .frame _ => s.due ≠ []
  | .answer => s.due ≠ []
  | .lapse _ => True

def run (s : Course) : List Move → Course
  | [] => s
  | m :: ms => run (s.next m) ms

def Orderly (s : Course) : List Move → Prop
  | [] => True
  | m :: ms => s.Permitted m ∧ Orderly (s.next m) ms

instance (s : Course) : (m : Move) → Decidable (s.Permitted m)
  | .expect id => inferInstanceAs (Decidable (id ∉ s.sent))
  | .frame _ => inferInstanceAs (Decidable (s.due ≠ []))
  | .answer => inferInstanceAs (Decidable (s.due ≠ []))
  | .lapse _ => inferInstanceAs (Decidable True)

instance decidableOrderly : (s : Course) → (ms : List Move) → Decidable (s.Orderly ms)
  | _, [] => inferInstanceAs (Decidable True)
  | s, m :: ms =>
    have := decidableOrderly (s.next m) ms
    inferInstanceAs (Decidable (s.Permitted m ∧ (s.next m).Orderly ms))

structure Invariant (limit : Nat) (s : Course) : Prop where
  limited : s.table.limit = limit
  tracks : Tracks s.table s.live [] s.due s.frames
  count : s.taken.length ≤ s.sent.length
  order : s.taken.map (·.id) = s.sent.take s.taken.length
  exact : ∀ t ∈ s.taken, t.live = true → t.body = wholeBody limit t.id t.frames

theorem invariant_start (limit : Nat) : Invariant limit (start limit) where
  limited := rfl
  tracks := tracks_empty limit _
  count := Nat.le_refl _
  order := rfl
  exact := by simp [start]

theorem due_expect {s : Course} (h : s.taken.length ≤ s.sent.length) (id : Uuid) :
    (s.next (.expect id)).due = s.due ++ [id] :=
  List.drop_append_of_le_length h

theorem next_answer {s : Course} {id : Uuid} {later : List Uuid} (h : s.due = id :: later) :
    s.next .answer = { s with
      table := (s.table.take id s.live).1
      frames := []
      taken := s.taken ++ [⟨id, s.live id, s.frames, (s.table.take id s.live).2⟩] } := by
  simp only [next, h]

theorem due_answer {s : Course} {id : Uuid} {later : List Uuid} (h : s.due = id :: later) :
    (s.next .answer).due = later := by
  rw [next_answer h]
  simp only [due, List.length_append, List.length_cons, List.length_nil, Nat.zero_add]
  rw [← List.tail_drop]
  exact congrArg List.tail h

theorem invariant_next {limit : Nat} {s : Course} (h : Invariant limit s) {m : Move}
    (hm : s.Permitted m) : Invariant limit (s.next m) := by
  cases m with
  | expect id =>
    refine ⟨h.limited, ?_, ?_, ?_, h.exact⟩
    · rw [due_expect h.count]
      exact h.tracks.expect fun hid => hm (List.mem_of_mem_drop hid)
    · simp only [next, List.length_append]
      exact Nat.le_add_right_of_le h.count
    · exact h.order.trans (List.take_append_of_le_length h.count).symm
  | frame data =>
    obtain ⟨id, later, hdue⟩ := List.exists_cons_of_ne_nil hm
    have htracks := h.tracks
    rw [hdue] at htracks
    refine ⟨(limit_append _ _ _).trans h.limited, ?_, h.count, h.order, h.exact⟩
    change Tracks _ _ _ s.due _
    rw [hdue]
    exact htracks.append data
  | answer =>
    obtain ⟨id, later, hdue⟩ := List.exists_cons_of_ne_nil hm
    have htracks := h.tracks
    rw [hdue] at htracks
    have hlt : s.taken.length < s.sent.length := by
      have := congrArg List.length hdue
      simp only [due, List.length_drop, List.length_cons] at this
      omega
    refine ⟨?_, ?_, ?_, ?_, ?_⟩
    · rw [next_answer hdue]
      exact (limit_take _ _ _).trans h.limited
    · rw [due_answer hdue, next_answer hdue]
      exact htracks.take
    · rw [next_answer hdue]
      simp only [List.length_append, List.length_cons, List.length_nil]
      omega
    · have hget : s.sent[s.taken.length] = id := by
        have := List.drop_eq_getElem_cons hlt
        change s.due = _ at this
        rw [hdue] at this
        exact (List.cons.inj this).1.symm
      rw [next_answer hdue]
      simp only [List.map_append, List.map_cons, List.map_nil, List.length_append,
        List.length_cons, List.length_nil, Nat.zero_add]
      rw [List.take_succ_eq_append_getElem hlt, hget, h.order]
    · intro t ht hlive
      rw [next_answer hdue] at ht
      simp only [List.mem_append, List.mem_singleton] at ht
      rcases ht with ht | rfl
      · exact h.exact t ht hlive
      · exact (htracks.body hlive).trans (by rw [if_pos rfl, h.limited])
  | lapse id =>
    refine ⟨h.limited, h.tracks.mono ?_, h.count, h.order, h.exact⟩
    intro j _ hj
    simp only [next, live, List.mem_cons, not_or, decide_eq_true_eq] at hj ⊢
    exact hj.2

theorem invariant_run {limit : Nat} {s : Course} (h : Invariant limit s) {ms : List Move}
    (hm : s.Orderly ms) : Invariant limit (s.run ms) := by
  induction ms generalizing s with
  | nil => exact h
  | cons m ms ih => exact ih (invariant_next h hm.1) hm.2

/-- What the table holds at any time belongs to the command whose turn it is. -/
theorem Invariant.own {limit : Nat} {s : Course} (h : Invariant limit s) {a : Awaited}
    (ha : a ∈ s.table.waiting) (hdata : a.data.size ≠ 0) :
    s.due.head? = some a.id ∧ ∃ part, part <+: s.frames ∧ a.data = joined part := by
  obtain ⟨ahead, rest, hahead, hr, hp⟩ := h.tracks.entries
  obtain rfl : ahead = [] := List.map_eq_nil_iff.mp hahead
  rw [hr, List.nil_append] at ha
  cases hdue : s.due with
  | nil =>
    rw [hdue] at hp
    rw [hp.2] at ha
    cases ha
  | cons first later =>
    rw [hdue] at hp
    obtain ⟨b, hb, hc, rfl⟩ := hp
    rcases List.mem_cons.mp ha with rfl | ha
    · exact ⟨by rw [hb]; rfl, hc.own⟩
    · obtain ⟨id, -, rfl⟩ := List.mem_map.mp ha
      exact absurd rfl hdata

/-- A frame of a command whose time is up is stored nowhere. -/
theorem Invariant.discards {limit : Nat} {s : Course} (h : Invariant limit s) {id : Uuid}
    (hid : s.due.head? = some id) (hdead : s.live id = false) (data : ByteArray) :
    (s.table.append data s.live).2 = .discarded ∧
    ∀ a ∈ (s.table.append data s.live).1.waiting,
      a ∈ s.table.waiting ∨ a.data = ByteArray.empty := by
  have hids := h.tracks.ids
  rw [List.nil_append] at hids
  cases hw : s.table.waiting with
  | nil =>
    rw [hw] at hids
    rw [← hids] at hid
    cases hid
  | cons first rest =>
    have hfirst : s.live first.id = false := by
      rw [hw] at hids
      rw [← hids] at hid
      obtain rfl : first.id = id := by simpa using hid
      exact hdead
    simp only [append, hw, hfirst]
    refine ⟨rfl, ?_⟩
    intro a ha
    rcases List.mem_cons.mp ha with rfl | ha
    · exact Or.inr rfl
    · exact Or.inl (List.mem_cons_of_mem _ ha)

/-- Every live command that is answered gets exactly what was streamed for it, or an error exactly
if that is too long. The table lists the unanswered commands as they went out, and stores nothing
but frames of the command whose turn it is, none of them once its time is up. -/
theorem bodies_exact_in_order (limit : Nat) (ms : List Move) (hm : (start limit).Orderly ms) :
    let s := (start limit).run ms
    (∀ t ∈ s.taken, t.live = true → t.body = wholeBody limit t.id t.frames) ∧
    s.taken.map (·.id) ++ s.table.waiting.map (·.id) = s.sent ∧
    (∀ a ∈ s.table.waiting, a.data.size ≠ 0 →
      s.due.head? = some a.id ∧ ∃ part, part <+: s.frames ∧ a.data = joined part) ∧
    ∀ id ∈ s.due.head?, s.live id = false → ∀ data,
      (s.table.append data s.live).2 = .discarded ∧
      ∀ a ∈ (s.table.append data s.live).1.waiting,
        a ∈ s.table.waiting ∨ a.data = ByteArray.empty := by
  intro s
  have h : Invariant limit s := invariant_run (invariant_start limit) hm
  refine ⟨h.exact, ?_, fun a ha hd => h.own ha hd, fun id hid hd => h.discards hid hd⟩
  rw [h.order, h.tracks.ids, List.nil_append]
  exact List.take_append_drop _ _

/-- The first command dies in the middle of its body, the second gets all of its three bytes, and
the body of the third is too long. -/
def mixed : List Move :=
  [.expect ⟨1⟩, .expect ⟨2⟩, .frame ⟨#[1, 2]⟩, .lapse ⟨1⟩, .frame ⟨#[9]⟩, .answer, .expect ⟨3⟩,
    .frame ByteArray.empty, .frame ⟨#[3]⟩, .frame ⟨#[4, 5]⟩, .answer, .frame ⟨#[6, 7, 8]⟩,
    .frame ⟨#[9, 10]⟩, .answer]

theorem orderly_mixed : (start 4).Orderly mixed := by decide

theorem bodies_exact_in_order_mixed : (start 4).Orderly mixed ∧
    ((start 4).run mixed).taken.map (fun t => (t.id, t.live)) =
      [(⟨1⟩, false), (⟨2⟩, true), (⟨3⟩, true)] ∧
    ∀ t ∈ ((start 4).run mixed).taken, t.live = true → t.body = wholeBody 4 t.id t.frames :=
  ⟨orderly_mixed, by decide, (bodies_exact_in_order 4 mixed orderly_mixed).1⟩

end Course

end FleetControl.Reassembly
