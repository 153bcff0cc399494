import FleetControl.Envelope
import FleetControl.Proofs.Json.Canonical

/-! # What a tag binds

An envelope opens under one tag only, in one spelling. The tag covers API key, nonce and payload
without anything between them. An object begins with a brace, which no nonce and no challenge
contains, so the text covered tells nonce and payload apart, and no proof of a handshake is a tag
of an envelope, unless two texts have one tag. -/
namespace FleetControl

namespace Json

/-- An object's canonical form begins with a brace. -/
theorem spell_object {p : Json} (h : p.isObject = true) (escape : Char → List Char) :
    ∃ rest, spell escape p = '\x7b' :: rest := by
  cases p with
  | object members => cases members <;> exact ⟨_, rfl⟩
  | _ => cases h

end Json

namespace Hmac

theorem size_digest (message : ByteArray) : (Sha256.digest message).size = 32 := by
  simp [Sha256.digest, Sha256.State.toBytes, Sha256.pushWord]

/-- A tag is written as a digest. -/
theorem isDigest_hex (secret : String) (message : ByteArray) :
    Hex.isDigest (hex secret message) = true :=
  Hex.isDigest_encode (size_digest _)

end Hmac

/-- Read back and compared as bytes, a tag passes exactly if it is the text of the message's tag. -/
theorem checkTag_eq (secret mac : String) (message : ByteArray) :
    Envelope.checkTag secret message mac =
      if Hmac.hex secret message = mac then .ok ()
      else .error (.auth (if Hex.isDigest mac then "mac mismatch" else "malformed mac")) := by
  unfold Envelope.checkTag
  by_cases hdigest : Hex.isDigest mac = true
  · obtain ⟨tag, rfl⟩ := Hex.encode_of_isDigest hdigest
    have hsame : Hmac.hex secret message = Hex.encode tag ↔
        (Hmac.tag secret.toUTF8 message).data = tag.data :=
      ⟨fun h => Hex.encode_inj h ▸ rfl, fun h => congrArg Hex.encode (ByteArray.ext h)⟩
    simp only [hdigest, not_true_eq_false, if_false, if_true, Hex.decode_encode]
    by_cases htag : (Hmac.tag secret.toUTF8 message).data = tag.data
    · rw [if_pos htag, if_pos (hsame.mpr htag)]
    · rw [if_neg htag, if_neg (mt hsame.mp htag)]
  · have hother : Hmac.hex secret message ≠ mac := by
      rintro rfl
      exact hdigest (Hmac.isDigest_hex secret message)
    rw [if_pos hdigest, if_neg hother, if_neg hdigest]

theorem checkTag_eq_ok {secret mac : String} {message : ByteArray} :
    Envelope.checkTag secret message mac = .ok () ↔ Hmac.hex secret message = mac := by
  rw [checkTag_eq]
  split
  · rename_i h
    exact iff_of_true rfl h
  · rename_i h
    exact iff_of_false nofun h

namespace Envelope

/-- Different messages with the same tag. -/
def Collision (secret : String) (a b : ByteArray) : Prop :=
  a ≠ b ∧ Hmac.tag secret.toUTF8 a = Hmac.tag secret.toUTF8 b

theorem collision_of_hex {secret a b : String} (hne : a ≠ b)
    (h : Hmac.hex secret a.toUTF8 = Hmac.hex secret b.toUTF8) :
    Collision secret a.toUTF8 b.toUTF8 :=
  ⟨fun he => hne (String.toByteArray_inj.mp he), Hex.encode_inj h⟩

theorem toList_signingInput (apiKey : String) (nonce : Int) (payload : Json) :
    (signingInput apiKey nonce payload).toList =
      apiKey.toList ++ ((toString nonce).toList ++ Json.spell Json.canonicalEscape payload) := by
  rw [signingInput, String.toList_append, String.toList_append, Json.toList_canonical,
    List.append_assoc]

theorem signingInput_eq_iff {apiKey : String} {n n' : Int} {p p' : Json}
    (hp : p.isObject = true) (hp' : p'.isObject = true) :
    signingInput apiKey n p = signingInput apiKey n' p' ↔ n = n' ∧ p.Alike p' := by
  constructor
  · intro h
    have hlist := congrArg String.toList h
    rw [toList_signingInput, toList_signingInput] at hlist
    have hrest := List.append_cancel_left hlist
    obtain ⟨rest, hs⟩ := Json.spell_object hp Json.canonicalEscape
    obtain ⟨rest', hs'⟩ := Json.spell_object hp' Json.canonicalEscape
    have hends : Ends (Json.spell Json.canonicalEscape p) := by
      rw [hs]
      exact ends_cons rfl _
    have hends' : Ends (Json.spell Json.canonicalEscape p') := by
      rw [hs']
      exact ends_cons rfl _
    obtain ⟨hnonce, hpayload⟩ := numerals_unique
      (fun _ => isNumeral_of_mem_number (n := .int n))
      (fun _ => isNumeral_of_mem_number (n := .int n')) hends hends' hrest
    refine ⟨Int.repr_injective (String.toList_inj.mp hnonce), Json.alike_of_canonical ?_⟩
    apply String.toList_inj.mp
    rw [Json.toList_canonical, Json.toList_canonical, hpayload]
  · rintro ⟨rfl, hpayload⟩
    rw [signingInput, signingInput, Json.canonical_eq_iff.mpr hpayload]

theorem signingInput_ne_challenge {apiKey challenge : String} {n : Int} {p : Json}
    (hp : p.isObject = true)
    (hc : ∀ c ∈ challenge.toList, (Hex.value? c).isSome = true) :
    signingInput apiKey n p ≠ apiKey ++ challenge := by
  intro h
  have hlist := congrArg String.toList h
  rw [toList_signingInput, String.toList_append] at hlist
  have hrest := List.append_cancel_left hlist
  obtain ⟨rest, hs⟩ := Json.spell_object hp Json.canonicalEscape
  have hbrace : '\x7b' ∈ challenge.toList := by
    rw [← hrest, hs]
    simp
  exact absurd (hc _ hbrace) (by decide)

theorem verify_object {e : Envelope} (h : e.payload.isObject = true) (apiKey secret : String) :
    e.verify apiKey secret =
      (checkTag secret (signingInput apiKey e.nonce e.payload).toUTF8 e.mac).map
        fun _ => e.payload := by
  simp only [verify, h, not_true_eq_false, if_false]
  rfl

/-- A signed object opens under the credentials that signed it. -/
theorem verify_sign {payload : Json} (h : payload.isObject = true) (nonce : Int)
    (apiKey secret : String) :
    (sign payload nonce apiKey secret).verify apiKey secret = .ok payload := by
  rw [verify_object h]
  simp only [sign, checkTag_eq_ok.mpr, Except.map]

/-- An envelope's payload is an object, and its tag is the one text of its message's tag. -/
def Signed (e : Envelope) (apiKey secret : String) : Prop :=
  e.payload.isObject = true ∧
    e.mac = Hmac.hex secret (signingInput apiKey e.nonce e.payload).toUTF8

theorem verify_cases (e : Envelope) (apiKey secret : String) :
    (e.verify apiKey secret = .ok e.payload ∧ e.Signed apiKey secret) ∨
    ∃ reason, e.verify apiKey secret = .error (.auth reason) ∧ ¬ e.Signed apiKey secret := by
  by_cases hobject : e.payload.isObject = true
  · rw [verify_object hobject, checkTag_eq]
    by_cases htag : Hmac.hex secret (signingInput apiKey e.nonce e.payload).toUTF8 = e.mac
    · rw [if_pos htag]
      exact .inl ⟨rfl, hobject, htag.symm⟩
    · rw [if_neg htag]
      exact .inr ⟨_, rfl, fun hsigned => htag hsigned.2.symm⟩
  · refine .inr ⟨"envelope payload is not an object", ?_, fun hsigned => hobject hsigned.1⟩
    simp only [verify, hobject]
    rfl

theorem open_cases (raw apiKey secret : String) :
    (∃ e, parse? raw = some e ∧ e.Signed apiKey secret ∧
      open? raw apiKey secret = .ok (e.nonce, e.payload)) ∨
    ∃ reason, open? raw apiKey secret = .error (.auth reason) ∧
      ∀ e, parse? raw = some e → ¬ e.Signed apiKey secret := by
  unfold open?
  cases hparse : parse? raw with
  | none => exact .inr ⟨_, rfl, nofun⟩
  | some e =>
    dsimp only
    rcases e.verify_cases apiKey secret with ⟨hok, hsigned⟩ | ⟨reason, herror, hunsigned⟩
    · exact .inl ⟨e, rfl, hsigned, by rw [hok]; rfl⟩
    · exact .inr ⟨reason, by rw [herror]; rfl, fun _ he => Option.some.inj he ▸ hunsigned⟩

/-- A text opens exactly if it is an envelope of an object under the tag that the credentials give
it, letter for letter, and then as the nonce and payload in it; every other text is refused as
unauthentic. So an envelope has one tag that opens it, and no second spelling of that. -/
theorem opens_iff_signed (raw apiKey secret : String) :
    (∀ nonce payload, open? raw apiKey secret = .ok (nonce, payload) ↔
      ∃ mac, parse? raw = some ⟨nonce, payload, mac⟩ ∧ payload.isObject = true ∧
        mac = Hmac.hex secret (signingInput apiKey nonce payload).toUTF8) ∧
    ((∃ reason, open? raw apiKey secret = .error (.auth reason)) ↔
      ∀ nonce payload, open? raw apiKey secret ≠ .ok (nonce, payload)) ∧
    ∀ nonce payload mac, verify ⟨nonce, payload, mac⟩ apiKey secret = .ok payload ↔
      payload.isObject = true ∧
        mac = Hmac.hex secret (signingInput apiKey nonce payload).toUTF8 := by
  refine ⟨fun nonce payload => ?_, ?_, fun nonce payload mac => ?_⟩
  · rcases open_cases raw apiKey secret with ⟨e, hparse, hsigned, hok⟩ | ⟨reason, herror, hnone⟩
    · rw [hok, hparse]
      constructor
      · intro h
        cases h
        exact ⟨e.mac, rfl, hsigned⟩
      · rintro ⟨mac, he, -⟩
        cases he
        rfl
    · rw [herror]
      refine iff_of_false nofun ?_
      rintro ⟨mac, he, hsigned⟩
      exact hnone _ he hsigned
  · rcases open_cases raw apiKey secret with ⟨e, -, -, hok⟩ | ⟨reason, herror, -⟩
    · refine iff_of_false ?_ fun h => h _ _ hok
      rw [hok]
      nofun
    · exact iff_of_true ⟨reason, herror⟩ (by rw [herror]; nofun)
  · rcases verify_cases ⟨nonce, payload, mac⟩ apiKey secret with ⟨hok, hsigned⟩ | ⟨_, herror, hnot⟩
    · exact iff_of_true hok hsigned
    · exact iff_of_false (by rw [herror]; nofun) hnot

/-- What an envelope that opens shows of its tag. -/
theorem hex_of_verify {e : Envelope} {apiKey secret : String} {payload : Json}
    (h : e.verify apiKey secret = .ok payload) : e.payload.isObject = true ∧
      Hmac.hex secret (signingInput apiKey e.nonce e.payload).toUTF8 = e.mac := by
  rcases e.verify_cases apiKey secret with ⟨-, hobject, htag⟩ | ⟨reason, herror, -⟩
  · exact ⟨hobject, htag.symm⟩
  · cases h.symm.trans herror

/-- The text under a tag tells nonce and payload, and is never the text of a challenge. Envelopes
with the same tag carry the same message, and a tag that opens an envelope proves no challenge,
unless two messages have one tag. -/
theorem tag_binds_message (apiKey secret : String) :
    (∀ (n n' : Int) (p p' : Json), p.isObject = true → p'.isObject = true →
      (signingInput apiKey n p = signingInput apiKey n' p' ↔ n = n' ∧ p.Alike p')) ∧
    (∀ (challenge : String) (n : Int) (p : Json),
      (∀ c ∈ challenge.toList, (Hex.value? c).isSome = true) → p.isObject = true →
      signingInput apiKey n p ≠ apiKey ++ challenge) ∧
    (∀ (e e' : Envelope) (payload payload' : Json), e.verify apiKey secret = .ok payload →
      e'.verify apiKey secret = .ok payload' → e.mac = e'.mac →
      (e.nonce = e'.nonce ∧ e.payload.Alike e'.payload) ∨
      Collision secret (signingInput apiKey e.nonce e.payload).toUTF8
        (signingInput apiKey e'.nonce e'.payload).toUTF8) ∧
    ∀ (e : Envelope) (payload : Json) (challenge : String), e.verify apiKey secret = .ok payload →
      (∀ c ∈ challenge.toList, (Hex.value? c).isSome = true) →
      verifyChallenge apiKey challenge secret e.mac ≠ .ok () ∨
      Collision secret (signingInput apiKey e.nonce e.payload).toUTF8
        (apiKey ++ challenge).toUTF8 := by
  refine ⟨fun n n' p p' hp hp' => signingInput_eq_iff hp hp',
    fun challenge n p hc hp => signingInput_ne_challenge hp hc, ?_, ?_⟩
  · intro e e' payload payload' h h' hmac
    obtain ⟨hp, htag⟩ := hex_of_verify h
    obtain ⟨hp', htag'⟩ := hex_of_verify h'
    by_cases hsame : signingInput apiKey e.nonce e.payload = signingInput apiKey e'.nonce e'.payload
    · exact Or.inl ((signingInput_eq_iff hp hp').mp hsame)
    · exact Or.inr (collision_of_hex hsame (htag.trans (hmac.trans htag'.symm)))
  · intro e payload challenge h hc
    obtain ⟨hp, htag⟩ := hex_of_verify h
    by_cases hproof : verifyChallenge apiKey challenge secret e.mac = .ok ()
    · exact Or.inr (collision_of_hex (signingInput_ne_challenge hp hc)
        (htag.trans (checkTag_eq_ok.mp hproof).symm))
    · exact Or.inl hproof

/-- A reply signed under nonce 7. -/
def sample : Envelope := sign (.object [("type", .string "cmd/resp")]) 7 "k1" "s1"

theorem verify_sample : sample.verify "k1" "s1" = .ok sample.payload :=
  verify_sign rfl 7 "k1" "s1"

theorem tag_binds_message_sample :
    signingInput "k1" sample.nonce sample.payload ≠ signingInput "k1" 70 sample.payload ∧
    signingInput "k1" sample.nonce sample.payload ≠ "k1" ++ "7b7d" ∧
    (sample.nonce = sample.nonce ∨
      Collision "s1" (signingInput "k1" sample.nonce sample.payload).toUTF8
        (signingInput "k1" sample.nonce sample.payload).toUTF8) ∧
    (verifyChallenge "k1" "7b7d" "s1" sample.mac ≠ .ok () ∨
      Collision "s1" (signingInput "k1" sample.nonce sample.payload).toUTF8
        ("k1" ++ "7b7d").toUTF8) := by
  obtain ⟨hunique, hchallenge, htag, hproof⟩ := tag_binds_message "k1" "s1"
  have hhex : ∀ c ∈ "7b7d".toList, (Hex.value? c).isSome = true := by
    simp [Hex.value?]
  have hobject : sample.payload.isObject = true := rfl
  have hlast := hproof sample _ "7b7d" verify_sample hhex
  refine ⟨?_, hchallenge "7b7d" _ _ hhex hobject, ?_, hlast⟩
  · intro h
    have := ((hunique _ 70 _ _ hobject hobject).mp h).1
    exact absurd this (by decide)
  · exact (htag sample sample _ _ verify_sample verify_sample rfl).imp_left And.left

end Envelope

end FleetControl
