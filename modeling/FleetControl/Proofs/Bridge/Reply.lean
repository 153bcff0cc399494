import FleetControl.Bridge.Reply
import FleetControl.Proofs.Json.Records
import FleetControl.Proofs.Text.Base64

/-! # Replies across processes

A reply is read back from its text as it was written. What a submitter then gets is what a local
command would have come to, except that the words of a failure to decode come with a second
heading. -/
namespace FleetControl

namespace Json

theorem spellMembers_append (escape : Char → List Char) (a b : List (String × Json)) :
    spellMembers escape (a ++ b) = spellMembers escape a ++ spellMembers escape b := by
  induction a with
  | nil => rfl
  | cons m a ih => simp [spellMembers, ih]

end Json

namespace BridgeReply

/-- The members that a reply is written as. -/
def members (r : BridgeReply) : List (String × Json) :=
  [("ok", .bool r.ok), ("result", r.result)] ++ Command.given "body" r.body .string ++
    Command.given "error" r.error .string ++
    Command.given "kind" (r.kind.map (·.name)) .string

theorem toList_member (key : String) (value : Option String) : (member key value).toList =
    Json.spellMembers Json.compactEscape (Command.given key value .string) := by
  cases value with
  | none => rfl
  | some s => simp [member, Command.given, Json.spellMembers, Json.spell, Json.toList_quoted]

theorem toList_text (r : BridgeReply) :
    r.text.toList = Json.spell Json.compactEscape (.object r.members) := by
  have hopen : "\x7b\"ok\":".toList =
      '\x7b' :: Json.spellString Json.compactEscape "ok" ++ [':'] := rfl
  have hresult : ",\"result\":".toList =
      ',' :: Json.spellString Json.compactEscape "result" ++ [':'] := rfl
  have hok : (if r.ok then "true" else "false").toList =
      Json.spell Json.compactEscape (.bool r.ok) := by
    cases r.ok <;> rfl
  simp only [text, String.toList_append, hopen, hresult, hok, toList_member, Json.toList_compact,
    members, Json.spellMembers, Json.spell, Json.spellMembers_append, List.cons_append,
    List.nil_append, List.append_assoc]
  rfl

theorem nodup_members (r : BridgeReply) : (r.members.map (·.1)).Nodup := by
  obtain ⟨ok, result, body, error, kind⟩ := r
  cases body <;> cases error <;> cases kind <;> simp [members, Command.given]

theorem parts_members (r : BridgeReply) :
    (Json.object r.members).tree.parts? ["ok", "result", "body", "error", "kind"] =
      some [some (.bool r.ok), some r.result.tree, r.body.map fun s => (Json.string s).tree,
        r.error.map fun s => (Json.string s).tree,
        r.kind.map (.string ∘ some ∘ FailureKind.name)] := by
  rw [Json.parts_tree _ r.nodup_members]
  obtain ⟨ok, result, body, error, kind⟩ := r
  cases body <;> cases error <;> cases kind <;> rfl

theorem optional_kind (kind : Option FailureKind) :
    Tree.optional kind? (kind.map (.string ∘ some ∘ FailureKind.name)) = some kind := by
  cases kind with
  | none => rfl
  | some kind => cases kind <;> rfl

/-- Everything but the result is read back whatever it is. -/
theorem parse_text_eq (r : BridgeReply) : parse? r.text =
    (Tree.value? 126 r.result.tree).map fun result => { r with result := result } := by
  rw [parse?, Tree.parse?, toList_text, Json.ofChars_spell Json.readBack_compact, Option.bind_some,
    ofTree?, parts_members]
  change (do
    let ok ← Tree.required Tree.asBool? (some (.bool r.ok))
    let result ← Tree.withDefault Json.null (Tree.value? 126) (some r.result.tree)
    let body ← Tree.optional Tree.asString? (r.body.map fun s => (Json.string s).tree)
    let error ← Tree.optional Tree.asString? (r.error.map fun s => (Json.string s).tree)
    let kind ← Tree.optional kind? (r.kind.map (.string ∘ some ∘ FailureKind.name))
    pure (⟨ok, result, body, error, kind⟩ : BridgeReply)) = _
  rw [Tree.withDefault, Json.optional_text, Json.optional_text, optional_kind]
  cases Tree.value? 126 r.result.tree <;> rfl

/-- A reply is read back whole if its result is, and is nested less deep than a document may be. -/
theorem parse_text {r : BridgeReply} (hr : r.result.Faithful) (hdepth : r.result.nesting ≤ 126) :
    parse? r.text = some r := by
  rw [parse_text_eq, Json.value_tree _ _ hr hdepth]
  rfl

/-- A result nested too deep for the reply around it makes that unreadable. -/
theorem parse_text_deep {r : BridgeReply} (h : 126 < r.result.nesting) : parse? r.text = none := by
  rw [parse_text_eq, Json.value_tree_deep _ _ h]
  rfl

/-- A successful outcome comes back as it is, a missing body apart from an empty one. -/
theorem outcomeOf_ok {reply : Reply} (hr : reply.result.Faithful)
    (hdepth : reply.result.nesting ≤ 126) (device command : String) (timeout : Nat) :
    outcomeOf (ofOutcome (.ok reply)).text device command timeout = .ok reply := by
  have hparse : parse? (ofOutcome (.ok reply)).text = some (ofOutcome (.ok reply)) :=
    parse_text hr hdepth
  obtain ⟨result, body⟩ := reply
  rw [outcomeOf, hparse]
  cases body with
  | none => rfl
  | some bytes =>
    have hbytes := Base64.decode_encode bytes
    simp only [toOutcome, ofOutcome, Option.map_some, if_true, hbytes]

theorem parse_failure (kind : FailureKind) (text : String) :
    parse? (failure kind text).text = some (failure kind text) := by
  apply parse_text
  · rw [failure, Json.Faithful.eq_def]
    trivial
  · rw [failure, Json.nesting.eq_def]
    exact Nat.zero_le _

theorem outcomeOf_failure (kind : FailureKind) (text device command : String) (timeout : Nat) :
    outcomeOf (failure kind text).text device command timeout =
      .error (match kind with
        | .timeout => .timeout device command (timeout / 1000)
        | .connectionClosed => .connectionClosed device command
        | .device => .device device command text
        | .decode => .decode text
        | .other => .other text) := by
  rw [outcomeOf, parse_failure]
  cases kind <;> rfl

end BridgeReply

/-- What can go wrong with a command that an engine has taken. -/
inductive Failure where
  | timeout
  | connectionClosed
  | device (message : String)
  | decode (reason : String)
  | other (reason : String)

namespace Failure

/-- The error for the caller of a command with a time limit in milliseconds. -/
def error (device command : String) (timeout : Nat) : Failure → ChannelError
  | .timeout => .timeout device command (timeout / 1000)
  | .connectionClosed => .connectionClosed device command
  | .device message => .device device command message
  | .decode reason => .decode reason
  | .other reason => .other reason

/-- A failure behind the bridge. -/
def crossed : Failure → Failure
  | .decode reason => .decode ("decode error: " ++ reason)
  | f => f

theorem heading_ne (reason : String) : "decode error: " ++ reason ≠ reason := by
  intro h
  have hlen := congrArg String.length h
  rw [String.length_append] at hlen
  have : "decode error: ".length = 14 := rfl
  omega

theorem outcomeOf_error (f : Failure) (device command : String) (left timeout : Nat) :
    BridgeReply.outcomeOf (BridgeReply.ofOutcome (.error (f.error device command left))).text
      device command timeout = .error (f.crossed.error device command timeout) := by
  cases f <;> exact BridgeReply.outcomeOf_failure _ _ device command timeout

theorem crossed_error_iff (f : Failure) (device command : String) (timeout : Nat) :
    f.crossed.error device command timeout = f.error device command timeout ↔
      ∀ reason, f ≠ .decode reason := by
  cases f with
  | decode reason =>
    refine iff_of_false ?_ fun h => h reason rfl
    intro h
    exact heading_ne reason (ChannelError.decode.inj h)
  | timeout => exact iff_of_true rfl fun _ => by simp
  | connectionClosed => exact iff_of_true rfl fun _ => by simp
  | device message => exact iff_of_true rfl fun _ => by simp
  | other reason => exact iff_of_true rfl fun _ => by simp

/-- Whatever time the other process had left for a command, its failure is reported as the caller's
own process would report it, except that a failure to decode is given its heading once more. -/
theorem reported_alike_iff (f : Failure) (device command : String) (left timeout : Nat) :
    BridgeReply.outcomeOf (BridgeReply.ofOutcome (.error (f.error device command left))).text
        device command timeout = .error (f.crossed.error device command timeout) ∧
      (BridgeReply.outcomeOf (BridgeReply.ofOutcome (.error (f.error device command left))).text
          device command timeout = .error (f.error device command timeout) ↔
        ∀ reason, f ≠ .decode reason) := by
  have hcrossed := f.outcomeOf_error device command left timeout
  refine ⟨hcrossed, ?_⟩
  rw [hcrossed, Except.error.injEq]
  exact f.crossed_error_iff device command timeout

/-- A body over its limit is reported under two headings. -/
theorem heading_twice :
    (Failure.decode "reply body over 16 bytes").error "d" "file_read" 10000 =
        .decode "reply body over 16 bytes" ∧
      BridgeReply.outcomeOf
          (BridgeReply.ofOutcome (.error (.decode "reply body over 16 bytes"))).text
          "d" "file_read" 10000 =
        .error (.decode "decode error: reply body over 16 bytes") ∧
      (ChannelError.decode "decode error: reply body over 16 bytes").message =
        "decode error: decode error: reply body over 16 bytes" :=
  ⟨rfl, outcomeOf_error (.decode "reply body over 16 bytes") "d" "file_read" 10000 10000, rfl⟩

end Failure

end FleetControl
