import FleetControl.Cluster.Session
import FleetControl.Proofs.Envelope.Text
import FleetControl.Proofs.Message.WireForm

/-! # Commands that come back

A device signs its replies with the key that its commands are signed with, so an envelope of the
controller that is sent back to it opens. It is a device's message of no known kind: whatever
command it carries, all that it does is to show that the connection is alive. -/
namespace FleetControl

namespace Cluster

/-- A payload that is no message of a device decides nothing, in whichever envelope it comes. -/
theorem takeText_unknown (c : Cluster) (p : Nat) (session : SessionState) {e : Envelope}
    (hlow : -(2 ^ 63) ≤ e.nonce) (hhigh : e.nonce < 2 ^ 63) (hfaithful : e.payload.Faithful)
    (hunknown : DeviceMessage.ofPayload? e.payload = some .unknown) :
    (c.takeText p session e.text).1 = c ∨
      (c.takeText p session e.text).1 = (c.refresh p session.conn).1 := by
  unfold takeText
  cases hopen : Envelope.open? e.text session.device.apiKey session.device.sharedSecret with
  | error reason => exact Or.inl rfl
  | ok opened =>
    obtain rfl := Envelope.eq_of_open hlow hhigh hfaithful hopen
    dsimp only
    split
    · exact Or.inl rfl
    · rw [hunknown]
      exact Or.inr rfl

/-- A refresh concerns the store alone. -/
theorem refresh_store (c : Cluster) (p : Nat) (conn : Uuid) :
    (c.refresh p conn).1 = { c with store := (c.refresh p conn).1.store } := by
  unfold refresh
  split <;> rfl

end Cluster

namespace Command

/-- A command is read back from its text, and from the two members of its payload that are its
own. The payload names the identifier and bears the tag of commands, which is none of a device's:
under whichever credentials it is signed, a session that receives it changes at most the presence
record of its connection. -/
theorem wire_form (c : Command) (id : Uuid) (h : c.Integral)
    (hdepth : c.written.nesting ≤ Tree.nestingLimit) :
    parse? c.text = some c ∧
    (c.payload id).isObject = true ∧
    (∃ name args, (c.payload id).get? "name" = some name ∧ (c.payload id).get? "args" = some args ∧
      parse? (Json.ofMembers [("name", name), ("args", args)]).compact = some c) ∧
    parse? (c.payload id).compact = some c ∧
    (∃ written, (c.payload id).get? "id" = some (.string written) ∧
      Uuid.parse? written = some id) ∧
    (c.payload id).get? "type" = some (.string "cmd") ∧
    DeviceMessage.ofPayload? (c.payload id) = some .unknown ∧
    ∀ (cluster : Cluster) (p : Nat) (session : SessionState) (nonce : Int64)
        (apiKey secret : String),
      let received :=
        (cluster.takeText p session (Envelope.sign (c.payload id) nonce.toInt apiKey secret).text).1
      (received = cluster ∨ received = (cluster.refresh p session.conn).1) ∧
        ∃ store, received = { cluster with store := store } := by
  have hfaithful := h.faithful
  have hown : parse? (Json.ofMembers [("name", .string c.name),
      ("args", Json.ofMembers c.args)]).compact = some c := by
    rw [parse?, Tree.parse?, Json.toList_compact, Json.ofChars_spell Json.readBack_compact,
      Option.bind_some]
    exact ofTree_toJson hfaithful hdepth
  refine ⟨parse_text hfaithful hdepth, by rw [payload_eq]; rfl,
    ⟨_, _, name_payload c id, args_payload c id, hown⟩,
    parse_payload hfaithful (Nat.le_trans (nesting_payload id) hdepth),
    ⟨_, id_payload c id, Uuid.parse_text id⟩, type_payload c id, ofPayload_payload c id, ?_⟩
  intro cluster p session nonce apiKey secret
  have hlow : -(2 ^ 63) ≤ nonce.toInt := nonce.le_toInt
  have hhigh : nonce.toInt < 2 ^ 63 := nonce.toInt_lt
  have htaken := cluster.takeText_unknown p session
    (e := Envelope.sign (c.payload id) nonce.toInt apiKey secret) hlow hhigh
    (faithful_payload hfaithful id) (ofPayload_payload c id)
  refine ⟨htaken, ?_⟩
  rcases htaken with heq | heq
  · exact ⟨cluster.store, heq⟩
  · exact ⟨_, heq.trans (cluster.refresh_store p session.conn)⟩

/-- A request whose headers are as deep as the wire text allows, with numbers at both ends of their
ranges. -/
def deepest : Command :=
  .http ⟨"GET", "/", some [("in", Envelope.edgesWithin 123)], none⟩

theorem integral_edgesWithin (n : Nat) :
    (Envelope.edgesWithin n).InOrder ∧ (Envelope.edgesWithin n).Integral := by
  induction n with
  | zero =>
    simp only [Envelope.edgesWithin, Envelope.edges, Json.InOrder, Json.InOrderMembers,
      Json.Integral, Json.IntegralMembers, Json.int, and_true]
    refine ⟨?_, by decide, by decide⟩
    simp only [List.pairwise_cons, List.forall_mem_cons, List.Pairwise.nil]
    decide
  | succ n ih =>
    simp only [Envelope.edgesWithin, Json.InOrder, Json.InOrderMembers, Json.Integral,
      Json.IntegralMembers, List.pairwise_singleton, and_true, true_and]
    exact ih

theorem integral_deepest : deepest.Integral := by
  rintro headers ⟨rfl⟩
  exact integral_edgesWithin 124

theorem nesting_deepest : deepest.written.nesting = Tree.nestingLimit := by
  have hin := Envelope.nesting_edgesWithin 123
  simp only [deepest, written, args, given, List.cons_append, List.nil_append, Json.nesting,
    Json.nestingMembers, hin]
  rfl

theorem wire_form_deepest : deepest.written.nesting = Tree.nestingLimit ∧
    parse? deepest.text = some deepest ∧ parse? (deepest.payload ⟨7⟩).compact = some deepest ∧
    DeviceMessage.ofPayload? (deepest.payload ⟨7⟩) = some .unknown := by
  have hwire := wire_form deepest ⟨7⟩ integral_deepest (Nat.le_of_eq nesting_deepest)
  obtain ⟨htext, -, -, hpayload, -, -, hunknown, -⟩ := hwire
  exact ⟨nesting_deepest, htext, hpayload, hunknown⟩

end Command

end FleetControl
