import FleetControl.Proofs.Envelope
import FleetControl.Proofs.Json.Records

/-! # Envelopes on the wire

The wire text holds the payload in another spelling than the tag covers. What it is read as has
the same signed form as what was written, so the tag still fits. The envelope takes one level of
the parser's nesting, and a payload that needs all of it is refused. -/
namespace FleetControl.Envelope

/-- An envelope as it is written. -/
def written (e : Envelope) : Json :=
  .object [("nonce", .int e.nonce), ("payload", e.payload), ("mac", .string e.mac)]

theorem toList_text (e : Envelope) : e.text.toList = Json.spell Json.compactEscape e.written := by
  have hnonce : "\x7b\"nonce\":".toList =
      '\x7b' :: Json.spellString Json.compactEscape "nonce" ++ [':'] := rfl
  have hpayload : ",\"payload\":".toList =
      ',' :: Json.spellString Json.compactEscape "payload" ++ [':'] := rfl
  have hmac : ",\"mac\":".toList =
      ',' :: Json.spellString Json.compactEscape "mac" ++ [':'] := rfl
  have hclose : "\x7d".toList = ['\x7d'] := rfl
  simp only [text, String.toList_append, hnonce, hpayload, hmac, hclose, Json.toList_compact,
    Json.toList_quoted, written, Json.int, Json.spell, Json.spellMembers, Json.numberText,
    List.cons_append, List.nil_append, List.append_assoc]

theorem parts_written (e : Envelope) :
    e.written.tree.parts? ["nonce", "payload", "mac"] =
      some [some (Json.int e.nonce).tree, some e.payload.tree, some (Json.string e.mac).tree] :=
  (Json.parts_tree _ (by simp)).trans rfl

/-- A wire text is read as its envelope if the payload is read as itself inside of it. -/
theorem parse_text_eq {e : Envelope} (hlow : -(2 ^ 63) ≤ e.nonce) (hhigh : e.nonce < 2 ^ 63) :
    parse? e.text = (Tree.value? 126 e.payload.tree).map fun p => { e with payload := p } := by
  rw [parse?, Tree.parse?, toList_text, Json.ofChars_spell Json.readBack_compact, Option.bind_some,
    ofTree?, parts_written]
  simp only [Tree.nestingLimit, Tree.inside, Option.bind_eq_bind, Option.bind_some, Tree.required,
    Json.asInt64_tree hlow hhigh, Json.asString_tree]
  cases Tree.value? 126 e.payload.tree <;> rfl

/-- A wire text whose payload is read as itself opens as its envelope does. -/
theorem open_text {e : Envelope} (hlow : -(2 ^ 63) ≤ e.nonce) (hhigh : e.nonce < 2 ^ 63)
    (hpayload : Tree.value? 126 e.payload.tree = some e.payload) (apiKey secret : String) :
    open? e.text apiKey secret = (e.verify apiKey secret).map (e.nonce, ·) := by
  rw [open?, parse_text_eq hlow hhigh, hpayload, Option.map_some]

/-- A wire text whose payload cannot be read does not open. -/
theorem open_text_none {e : Envelope} (hlow : -(2 ^ 63) ≤ e.nonce) (hhigh : e.nonce < 2 ^ 63)
    (hpayload : Tree.value? 126 e.payload.tree = none) (apiKey secret : String) :
    ∃ reason, open? e.text apiKey secret = .error (.auth reason) := by
  rw [open?, parse_text_eq hlow hhigh, hpayload, Option.map_none]
  exact ⟨_, rfl⟩

/-- A wire text that opens at all, under whichever credentials, opens as what was written. -/
theorem eq_of_open {e : Envelope} (hlow : -(2 ^ 63) ≤ e.nonce) (hhigh : e.nonce < 2 ^ 63)
    (hfaithful : e.payload.Faithful) {apiKey secret : String} {opened : Int × Json}
    (h : open? e.text apiKey secret = .ok opened) : opened = (e.nonce, e.payload) := by
  rcases Nat.lt_or_ge 126 e.payload.nesting with hdeep | hdepth
  · obtain ⟨reason, herror⟩ :=
      open_text_none hlow hhigh (Json.value_tree_deep e.payload 126 hdeep) apiKey secret
    rw [herror] at h
    cases h
  · rw [open_text hlow hhigh (Json.value_tree e.payload 126 hfaithful hdepth)] at h
    rcases e.verify_cases apiKey secret with ⟨hok, -⟩ | ⟨reason, herror, -⟩
    · rw [hok] at h
      exact (Except.ok.inj h).symm
    · rw [herror] at h
      cases h

/-- A signed object is read back from the wire and opens under the credentials that signed it, as
the same nonce and payload, exactly if it leaves the envelope one level of nesting. -/
theorem opens_as_signed {payload : Json} {nonce : Int} (hobject : payload.isObject = true)
    (hfaithful : payload.Faithful) (hlow : -(2 ^ 63) ≤ nonce) (hhigh : nonce < 2 ^ 63)
    (apiKey secret : String) :
    (payload.nesting ≤ 126 →
      open? (sign payload nonce apiKey secret).text apiKey secret = .ok (nonce, payload)) ∧
    (126 < payload.nesting → ∃ reason,
      open? (sign payload nonce apiKey secret).text apiKey secret = .error (.auth reason)) := by
  constructor
  · intro hdepth
    have hread : Tree.value? 126 payload.tree = some payload :=
      Json.value_tree payload 126 hfaithful hdepth
    rw [open_text hlow hhigh hread, verify_sign hobject, Except.map, sign]
  · intro hdeep
    have hread : Tree.value? 126 payload.tree = none := Json.value_tree_deep payload 126 hdeep
    exact open_text_none hlow hhigh hread apiKey secret

/-- Numbers at both ends of their ranges, and a text with an escape of every kind. -/
def edges : Json :=
  .object [("high", .int (2 ^ 64 - 1)), ("low", .int (-(2 ^ 63))),
    ("text", .string "\x00\n\"\\/\x7f\u00e9😀")]

/-- The value above inside so many objects. -/
def edgesWithin : Nat → Json
  | 0 => edges
  | n + 1 => .object [("in", edgesWithin n)]

theorem nesting_edgesWithin (n : Nat) : (edgesWithin n).nesting = n + 1 := by
  induction n with
  | zero => simp [edgesWithin, edges, Json.nesting, Json.nestingMembers, Json.int]
  | succ n ih => rw [edgesWithin, Json.nesting, Json.nestingMembers, Json.nestingMembers, ih,
      Nat.max_zero]

theorem faithful_edgesWithin (n : Nat) : (edgesWithin n).Faithful := by
  induction n with
  | zero =>
    simp only [edgesWithin, edges, Json.Faithful, Json.FaithfulMembers, Json.int, Number.Exact,
      and_true]
    refine ⟨?_, by decide, by decide⟩
    simp only [List.pairwise_cons, List.forall_mem_cons, List.Pairwise.nil]
    decide
  | succ n ih => exact ⟨List.pairwise_singleton _ _, ih, trivial⟩

/-- The deepest payload that travels, under the least nonce. -/
theorem opens_as_signed_edges : (edgesWithin 125).nesting = 126 ∧
    open? (sign (edgesWithin 125) (-(2 ^ 63)) "k1" "s1").text "k1" "s1" =
      .ok (-(2 ^ 63), edgesWithin 125) ∧
    ∃ reason, open? (sign (edgesWithin 126) (-(2 ^ 63)) "k1" "s1").text "k1" "s1" =
      .error (.auth reason) := by
  have hdepth := nesting_edgesWithin 125
  have hdeep := nesting_edgesWithin 126
  refine ⟨hdepth, ?_, ?_⟩
  · exact (opens_as_signed rfl (faithful_edgesWithin 125) (by decide) (by decide) "k1" "s1").1
      (by omega)
  · exact (opens_as_signed rfl (faithful_edgesWithin 126) (by decide) (by decide) "k1" "s1").2
      (by omega)

end FleetControl.Envelope
