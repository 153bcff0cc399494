import FleetControl.Proofs.Bridge.Job

/-! # What becomes of the text of a job

Whatever command a job carries, a worker that takes its text off a list drops it, refuses it under
the identifier of the job, or accepts it under that identifier before its deadline. -/
namespace FleetControl

namespace Tree.Literal

theorem accumulate_whole {start : Nat} {ds : List Nat} (h : (accumulate start ds).2 = []) :
    (accumulate start ds).1 = valueOf start ds := by
  induction ds generalizing start with
  | nil => rfl
  | cons d ds ih =>
    unfold accumulate at h ⊢
    split
    · rw [if_pos ‹_›] at h
      exact ih h
    · rw [if_neg ‹_›] at h
      cases h

/-- A written integer is read as itself or not as an integer. -/
theorem eq_of_number_ofInt {i k : Int} (h : (ofInt i).number? = some (.int k)) : k = i := by
  unfold number? ofInt at h
  cases hacc : accumulate 0 (numeral i.natAbs) with
  | mk whole dropped =>
    have hwhole : dropped = [] → whole = valueOf 0 (numeral i.natAbs) := by
      have hwhole := @accumulate_whole 0 (numeral i.natAbs)
      rwa [hacc] at hwhole
    simp only [hacc] at h
    cases dropped with
    | nil =>
      have hvalue : whole = i.natAbs := (hwhole rfl).trans (valueOf_numeral _)
      simp only [decide_eq_true_eq] at h
      split_ifs at h with hneg hbound
      · cases h
        omega
      · cases h
      · cases h
        omega
    | cons d ds => simp at h

end Tree.Literal

namespace Json

theorem key_treeMembers {members : List (String × Json)} {part : Option String × Tree}
    (h : part ∈ treeMembers members) : ∃ m ∈ members, part.1 = some m.1 := by
  induction members with
  | nil => cases h
  | cons m members ih =>
    rw [treeMembers] at h
    rcases List.mem_cons.mp h with rfl | h
    · exact ⟨m, List.mem_cons_self, rfl⟩
    · obtain ⟨m', hm', hkey⟩ := ih h
      exact ⟨m', List.mem_cons_of_mem m hm', hkey⟩

/-- The member of a read object is what its part denotes, if no other part has its key. -/
theorem get?_of_members {depth : Nat} {key : String} {parts : List (Option String × Tree)}
    {done members : List (String × Json)} (h : Tree.members? depth done parts = some members)
    (hkey : ∀ part ∈ parts, part.1 ≠ some key) :
    (object members).get? key = (object done).get? key := by
  induction parts generalizing done with
  | nil =>
    rw [Tree.members?] at h
    cases h
    rfl
  | cons part parts ih =>
    obtain ⟨hpart, hparts⟩ := List.forall_mem_cons.mp hkey
    obtain ⟨name, tree⟩ := part
    cases name with
    | none =>
      unfold Tree.members? at h
      cases h
    | some name =>
      have hne : key ≠ name := fun hk => hpart (congrArg some hk.symm)
      cases hvalue : Tree.value? depth tree with
      | none =>
        simp only [Tree.members?, hvalue] at h
        cases h
      | some value =>
        simp only [Tree.members?, hvalue] at h
        rw [ih h hparts, get?_insertMember, if_neg hne]

end Json

namespace BridgeJob

/-- The members of a job behind its identifier. -/
def rest (j : BridgeJob) : List (String × Json) := j.members.tail

theorem members_eq (j : BridgeJob) : j.members = ("id", .string j.id.text) :: j.rest := rfl

/-- No identifier but that of the job can be read from its text. -/
theorem readableId_text {j : BridgeJob} {id : Uuid} (h : readableId? j.text = some id) :
    id = j.id := by
  obtain ⟨text, hid, hparse⟩ := Option.bind_eq_some_iff.mp h
  obtain ⟨member, hmember, hstring⟩ := Option.bind_eq_some_iff.mp hid
  obtain ⟨value, hvalue, hget⟩ := Option.bind_eq_some_iff.mp hmember
  rw [Json.parse?, Tree.parse?, toList_text, Json.ofChars_spell Json.readBack_compact,
    Option.bind_some, written, Json.tree, Tree.nestingLimit, Tree.value?] at hvalue
  obtain ⟨members, hmembers, rfl⟩ := Option.map_eq_some_iff.mp hvalue
  have hvalue : Tree.value? 126 (Json.string j.id.text).tree = some (.string j.id.text) := by
    rw [Json.tree_string, Tree.value?]
    rfl
  rw [members_eq, Json.treeMembers] at hmembers
  simp only [Tree.members?, hvalue] at hmembers
  have hothers : ∀ part ∈ Json.treeMembers j.rest, part.1 ≠ some "id" := by
    intro part hpart hkey
    have hnodup := j.nodup_members
    rw [members_eq, List.map_cons, List.nodup_cons] at hnodup
    obtain ⟨m, hm, hname⟩ := Json.key_treeMembers hpart
    rw [hkey] at hname
    exact hnodup.1 (List.mem_map.mpr ⟨m, hm, (Option.some.inj hname).symm⟩)
  rw [Json.get?_of_members hmembers hothers, Json.get?_insertMember, if_pos rfl] at hget
  cases hget
  cases hstring
  exact Option.some.inj (hparse.symm.trans (Uuid.parse_text j.id))

theorem asInt64_tree_some {i k : Int} (h : Tree.asInt64? (Json.int i).tree = some k) : k = i := by
  rw [Json.int, Json.tree, Tree.asInt64?] at h
  unfold Tree.asInt? at h
  split at h
  · rename_i read hread
    obtain rfl : read = i := Tree.Literal.eq_of_number_ofInt (Tree.number.inj hread)
    split at h
    · cases h
      rfl
    · cases h
  · cases h

/-- What is read of the text of a job bears its identifier, its deadline and its blob. -/
theorem eq_of_parse_text {j read : BridgeJob} (h : parse? j.text = some read) :
    read.id = j.id ∧ read.deadline = j.deadline ∧ read.blob = j.blob := by
  have hid : Tree.asUuid? (Json.string j.id.text).tree = some j.id := by
    rw [Tree.asUuid?, Json.asString_tree, Option.bind_some, Uuid.parse_text]
  rw [parse?, Tree.parse?, toList_text, Json.ofChars_spell Json.readBack_compact, Option.bind_some,
    ofTree?, parts_members] at h
  simp only [Tree.nestingLimit, Tree.inside, Option.bind_eq_bind, Option.bind_some, Tree.required,
    hid, Json.asString_tree, Json.optional_text] at h
  obtain ⟨command, -, h⟩ := Option.bind_eq_some_iff.mp h
  obtain ⟨timeout, -, h⟩ := Option.bind_eq_some_iff.mp h
  obtain ⟨deadline, hdeadline, h⟩ := Option.bind_eq_some_iff.mp h
  obtain rfl := asInt64_tree_some hdeadline
  cases h
  exact ⟨rfl, rfl, rfl⟩

/-- A clock that has come to the deadline of a job leaves it no time, however far ahead the deadline
was when the job was made. -/
theorem remaining_make {id : Uuid} {device : String} {command : Command} {blob : Option ByteArray}
    {timeout wall now : Nat} (hdue : wall + timeout ≤ now) (hnow : now < 2 ^ 63) :
    remaining (make id device command blob timeout wall).deadline now ≤ 0 := by
  have hword : remaining (make id device command blob timeout wall).deadline now =
      Int64.ofInt (wall + timeout - now) := by
    rw [remaining, make, Int64.ofInt_toInt, Int64.ofInt_sub]
  have hbounds : -(2 ^ 63) ≤ (wall + timeout - now : Int) ∧ (wall + timeout - now : Int) ≤ 0 := by
    omega
  rw [hword, Int64.le_iff_toInt_le,
    Int64.toInt_ofInt_of_le (by simpa using hbounds.1) (by simp; omega)]
  exact hbounds.2

/-- What becomes of the text of a job: a worker takes it up under the identifier of the job while
its deadline has not come, refuses it under that identifier, or drops it. -/
theorem dispose_text (id : Uuid) (device : String) (command : Command) (blob : Option ByteArray)
    (timeout wall : Nat) {now : Nat} (hnow : now < 2 ^ 63) :
    dispose (make id device command blob timeout wall).text now = .drop ∨
      (∃ kind words, dispose (make id device command blob timeout wall).text now =
        .refuse id (.failure kind words)) ∨
      ∃ read left, dispose (make id device command blob timeout wall).text now =
        .accept id read blob left ∧ now < wall + timeout := by
  unfold dispose
  cases hparse : parse? (make id device command blob timeout wall).text with
  | none =>
    cases hid : readableId? (make id device command blob timeout wall).text with
    | none => exact Or.inl rfl
    | some found =>
      obtain rfl : found = id := readableId_text hid
      exact Or.inr (Or.inl ⟨_, _, rfl⟩)
  | some read =>
    obtain ⟨rfl, hdeadline, hblob⟩ := eq_of_parse_text hparse
    dsimp only
    split
    · exact Or.inl rfl
    · rename_i hpositive
      have hlt : now < wall + timeout := by
        by_contra hdue
        rw [hdeadline] at hpositive
        exact hpositive (remaining_make (Nat.le_of_not_lt hdue) hnow)
      refine Or.inr (Or.inr
        ⟨read.command, (remaining read.deadline now).toInt.toNat, ?_, hlt⟩)
      rw [hblob]
      dsimp only [make]
      cases blob with
      | none => rfl
      | some bytes => simp only [Option.map_some, Base64.decode_encode]

end BridgeJob

end FleetControl
