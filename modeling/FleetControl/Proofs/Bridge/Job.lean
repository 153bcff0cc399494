import FleetControl.Bridge.Reply
import FleetControl.Proofs.Message.Command
import FleetControl.Proofs.Text.Base64
import FleetControl.Proofs.Uuid

/-! # Jobs across processes

A job is read back from its text with its identifier, device, command and blob as they were
written. Only its time limit may be read as a neighbouring double, and nothing reads that. -/
namespace FleetControl

/-- A time limit that fits a deadline in 64 bits is written as a moderate double. -/
theorem Double.biased_ofMillis {ms : Nat} (h : ms < 2 ^ 63) : (ofMillis ms).biased ≤ 1200 := by
  have hwhole : (ofNat (ms / 1000)).biased ≤ 54 + 1026 :=
    biased_natural_le (by omega) (by decide)
  have hrest : (ofRatio (ms % 1000 * 1000000) 1000000000).biased ≤ 0 + 1026 :=
    biased_ofRatio_le (by decide) (by omega) (by decide)
  have hsum := biased_add_le (i := 58) hwhole (Nat.le_trans hrest (by decide)) (by decide)
  rw [ofMillis]
  omega

namespace BridgeJob

/-- The members that a job is written as. -/
def members (j : BridgeJob) : List (String × Json) :=
  [("id", .string j.id.text), ("deviceId", .string j.deviceId), ("command", j.command.written),
    ("timeout", .number (.double j.timeout)), ("deadline", .int j.deadline)] ++
    Command.given "blob" j.blob .string

def written (j : BridgeJob) : Json := .object j.members

theorem toList_text (j : BridgeJob) : j.text.toList = Json.spell Json.compactEscape j.written := by
  have hid : "\x7b\"id\":".toList = '\x7b' :: Json.spellString Json.compactEscape "id" ++ [':'] :=
    rfl
  have hdevice : ",\"deviceId\":".toList =
      ',' :: Json.spellString Json.compactEscape "deviceId" ++ [':'] := rfl
  have hcommand : ",\"command\":".toList =
      ',' :: Json.spellString Json.compactEscape "command" ++ [':'] := rfl
  have htimeout : ",\"timeout\":".toList =
      ',' :: Json.spellString Json.compactEscape "timeout" ++ [':'] := rfl
  have hdeadline : ",\"deadline\":".toList =
      ',' :: Json.spellString Json.compactEscape "deadline" ++ [':'] := rfl
  have hblob : ",\"blob\":".toList =
      ',' :: Json.spellString Json.compactEscape "blob" ++ [':'] := rfl
  have hnone : "".toList = [] := rfl
  have hclose : "\x7d".toList = ['\x7d'] := rfl
  obtain ⟨id, deviceId, command, timeout, deadline, blob⟩ := j
  unfold text
  cases blob
  all_goals
    simp only [String.toList_append, hid, hdevice, hcommand, htimeout, hdeadline, hblob, hnone,
      hclose, Json.toList_quoted, Command.toList_text, written, members, Command.given, Json.int,
      Json.spell, Json.spellMembers, Json.numberText, List.cons_append, List.nil_append,
      List.append_assoc]

theorem nodup_members (j : BridgeJob) : (j.members.map (·.1)).Nodup := by
  obtain ⟨id, deviceId, command, timeout, deadline, blob⟩ := j
  cases blob <;> simp [members, Command.given]

theorem parts_members (j : BridgeJob) :
    j.written.tree.parts? ["id", "deviceId", "command", "timeout", "deadline", "blob"] =
      some [some (Json.string j.id.text).tree, some (Json.string j.deviceId).tree,
        some j.command.written.tree, some (Json.number (.double j.timeout)).tree,
        some (Json.int j.deadline).tree, j.blob.map fun b => (Json.string b).tree] := by
  rw [written, Json.parts_tree _ j.nodup_members]
  obtain ⟨id, deviceId, command, timeout, deadline, blob⟩ := j
  cases blob <;> rfl

theorem nesting_command {j : BridgeJob} {depth : Nat} (h : j.written.nesting ≤ depth + 1) :
    j.command.written.nesting ≤ depth := by
  simp only [written, members, List.cons_append, Json.nesting, Json.nestingMembers] at h
  omega

theorem asDouble_tree {d : Double} (h : d.biased ≤ 1200) :
    ∃ read, Tree.asDouble? (Json.number (.double d)).tree = some read := by
  obtain ⟨n, hn⟩ := Shortest.number_literalOf h
  rw [Json.tree, show (Number.double d).reread = some n from hn]
  cases n with
  | int i => exact ⟨_, rfl⟩
  | double d => exact ⟨d, rfl⟩

/-- A job is read back with the command that is read from its document, up to the time limit that
it was written with. -/
theorem parse_text {j : BridgeJob} {read : Command}
    (hcommand : Command.ofTree? 126 j.command.written.tree = some read)
    (htimeout : j.timeout.biased ≤ 1200) (hlow : -(2 ^ 63) ≤ j.deadline)
    (hhigh : j.deadline < 2 ^ 63) :
    ∃ d, parse? j.text = some { j with command := read, timeout := d } := by
  obtain ⟨d, hd⟩ := asDouble_tree htimeout
  have hid : Tree.asUuid? (Json.string j.id.text).tree = some j.id := by
    rw [Tree.asUuid?, Json.asString_tree, Option.bind_some, Uuid.parse_text]
  refine ⟨d, ?_⟩
  rw [parse?, Tree.parse?, toList_text, Json.ofChars_spell Json.readBack_compact, Option.bind_some,
    ofTree?, parts_members]
  simp only [Tree.nestingLimit, Tree.inside, Option.bind_eq_bind, Option.bind_some, Tree.required,
    hid, Json.asString_tree, hcommand, hd, Json.asInt64_tree hlow hhigh, Json.optional_text]
  rfl

theorem remaining_eq {deadline wall : Int} (hdeadline : 0 ≤ deadline ∧ deadline < 2 ^ 63)
    (hwall : 0 ≤ wall ∧ wall < 2 ^ 63) : (remaining deadline wall).toInt = deadline - wall := by
  have hofInt {i : Int} (hi : 0 ≤ i ∧ i < 2 ^ 63) : (Int64.ofInt i).toInt = i :=
    Int64.toInt_ofInt_of_le (by simp; omega) (by simpa using hi.2)
  rw [remaining, Int64.toInt_sub, hofInt hdeadline, hofInt hwall]
  exact Int.bmod_eq_of_le (by omega) (by omega)

/-- A deadline that fits a 64-bit word is exact. -/
theorem deadline_make {id : Uuid} {device : String} {command : Command} {blob : Option ByteArray}
    {timeout wall : Nat} (hfits : wall + timeout < 2 ^ 63) :
    (make id device command blob timeout wall).deadline = wall + timeout :=
  Int64.toInt_ofInt_of_le (by simp; omega) (by simp; omega)

/-- A job that is taken in time is accepted with the command that is read from its document and
the blob that it was made of. -/
theorem dispose_make {id : Uuid} {device : String} {command read : Command}
    {blob : Option ByteArray} {timeout wall now : Nat}
    (hcommand : Command.ofTree? 126 command.written.tree = some read)
    (hfits : wall + timeout < 2 ^ 63) (hnow : now < wall + timeout) :
    dispose (make id device command blob timeout wall).text now =
      .accept id read blob (wall + timeout - now) := by
  have hdeadline : (make id device command blob timeout wall).deadline = wall + timeout :=
    deadline_make hfits
  obtain ⟨d, hd⟩ := parse_text (j := make id device command blob timeout wall) hcommand
    (Double.biased_ofMillis (by omega)) (by rw [hdeadline]; omega) (by rw [hdeadline]; omega)
  have hleft : (remaining (wall + timeout) now).toInt = ((wall + timeout - now : Nat) : Int) := by
    rw [remaining_eq ⟨by omega, by omega⟩ ⟨by omega, by omega⟩]
    omega
  have hpos : ¬ remaining (wall + timeout) now ≤ 0 := by
    rw [Int64.le_iff_toInt_le, hleft]
    change ¬ ((wall + timeout - now : Nat) : Int) ≤ 0
    omega
  have htime : (remaining (wall + timeout) now).toInt.toNat = wall + timeout - now := by
    rw [hleft]
    rfl
  rw [dispose, hd]
  dsimp only
  rw [hdeadline, if_neg hpos, htime]
  dsimp only [make]
  cases blob with
  | none => rfl
  | some bytes => simp only [Option.map_some, Base64.decode_encode]

/-- The command of a document that is not nested too deep is the one that it was written for. -/
theorem command_read {id : Uuid} {device : String} {command : Command} {blob : Option ByteArray}
    {timeout : Nat} {wall : Int} (hc : command.Faithful)
    (hdepth : (make id device command blob timeout wall).written.nesting ≤ Tree.nestingLimit) :
    Command.ofTree? 126 command.written.tree = some command :=
  Command.ofTree_written hc (nesting_command hdepth)

end BridgeJob

end FleetControl
