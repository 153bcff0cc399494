import FleetControl.Message.Control
import FleetControl.Proofs.Json.Records

/-! # Reading handshake messages back

A message of the handshake is read from its wire text as it was written. -/
namespace FleetControl.ControlMessage

/-- A message as it is written, its tag first. -/
def written (m : ControlMessage) : Json :=
  .object (("action", .string m.action) :: m.fields.map fun f => (f.1, .string f.2))

theorem toList_text (m : ControlMessage) :
    m.text.toList = Json.spell Json.compactEscape m.written := by
  have hopen : "\x7b\"action\":".toList =
      '\x7b' :: Json.spellString Json.compactEscape "action" ++ [':'] := rfl
  have hcomma : ",".toList = [','] := rfl
  have hcolon : ":".toList = [':'] := rfl
  have hclose : "\x7d".toList = ['\x7d'] := rfl
  cases m
  all_goals
    simp only [text, fields, List.foldl_cons, List.foldl_nil, List.map_cons, List.map_nil,
      String.toList_append, hopen, hcomma, hcolon, hclose, Json.toList_quoted, written, Json.spell,
      Json.spellMembers, List.cons_append, List.nil_append, List.append_assoc, List.append_nil]

theorem members_written (depth : Nat) (members : List (String × String)) :
    members? depth (Json.treeMembers (members.map fun f => (f.1, .string f.2))) =
      some (members.map fun f => (f.1, .string f.2)) := by
  unfold members?
  induction members with
  | nil => rfl
  | cons f members ih =>
    rw [List.map_cons, Json.treeMembers, List.mapM_cons, ih, Json.tree_string, Tree.value?]
    rfl

/-- A message is read from its wire text as it was written. -/
theorem parse_text (m : ControlMessage) : parse? m.text = some m := by
  have hmembers := members_written 126 (("action", m.action) :: m.fields)
  rw [List.map_cons] at hmembers
  rw [parse?, Tree.parse?, toList_text, Json.ofChars_spell Json.readBack_compact, Option.bind_some,
    written, Json.tree_object]
  unfold ofTree?
  simp only [Tree.nestingLimit, Tree.inside, Option.bind_eq_bind, Option.bind_some, hmembers]
  cases m <;> rfl

end FleetControl.ControlMessage
