import FleetControl.Proofs.Device.Redaction
import FleetControl.Proofs.Handshake
import FleetControl.Proofs.Message.Control

/-! # What a handshake shows of a secret

Two systems differ in nothing but the shared secrets of their devices, and the same happens to both.
As long as no proof fits the secret in one of them only, both say the same and go through the same
stages, up to the secrets in the records that they keep and return. -/
namespace FleetControl

def HandshakeState.redacted : HandshakeState → HandshakeState
  | .awaitingHandshake device challenge => .awaitingHandshake device.redacted challenge
  | .authenticated device => .authenticated device.redacted
  | s => s

theorem HandshakeState.redacted_eq_awaitingHandshake {s : HandshakeState} {record : DeviceRecord}
    {challenge : String} (h : s.redacted = .awaitingHandshake record challenge) :
    ∃ device, s = .awaitingHandshake device challenge ∧ device.redacted = record := by
  cases s with
  | awaitingHandshake device issued =>
    obtain ⟨hrecord, rfl⟩ := HandshakeState.awaitingHandshake.inj h
    exact ⟨device, rfl, hrecord⟩
  | _ => cases h

def HandshakeStep.redacted : HandshakeStep → HandshakeStep
  | .done device message => .done device.redacted message
  | step => step

namespace Handshake

/-- What a message brings about, without the secrets. -/
def shown (r : HandshakeState × Outcome HandshakeStep) : HandshakeState × Outcome HandshakeStep :=
  (r.1.redacted, r.2.map HandshakeStep.redacted)

theorem accept_redacted (s : HandshakeState) : accept s.redacted = (accept s).redacted := by
  cases s <;> rfl

theorem activate_redacted (s : HandshakeState) : activate s.redacted =
    ((activate s).1.redacted, (activate s).2.map DeviceRecord.redacted) := by
  cases s <;> rfl

theorem onHello_redacted (d : DirectoryService) (challenge key : String) :
    onHello d.redacted challenge key = shown (onHello d challenge key) := by
  unfold onHello
  split
  · rfl
  · rw [d.byApiKey_redacted]
    rcases d.byApiKey key with e | _ | device <;> rfl

/-- A proof is judged by the secret in the directory, and nothing else depends on that. -/
theorem onProof_shown {d d' : DirectoryService} (hd : d.redacted = d'.redacted)
    {device device' : DeviceRecord} (hdevice : device.redacted = device'.redacted)
    {challenge mac : String}
    (hproof : ∀ current current', d.get device.deviceId = .ok (some current) →
      d'.get device'.deviceId = .ok (some current') →
      (mac = challengeMac current.apiKey challenge current.sharedSecret ↔
        mac = challengeMac current'.apiKey challenge current'.sharedSecret)) :
    shown (onProof d device challenge mac) = shown (onProof d' device' challenge mac) := by
  have hid : device.deviceId = device'.deviceId := congrArg (·.deviceId) hdevice
  have hversion : device.keyVersion = device'.keyVersion := congrArg (·.keyVersion) hdevice
  have hkey : device.apiKey = device'.apiKey := congrArg (·.apiKey) hdevice
  rw [← hid] at hproof
  unfold onProof
  rw [← hid, ← hversion, ← hkey]
  rcases DirectoryService.get_alike hd device.deviceId with
    ⟨e, hc, hc'⟩ | ⟨hc, hc'⟩ | ⟨current, current', hc, hc', hcurrent⟩
  · rw [hc, hc']
  · rw [hc, hc']
  · have hfits := hproof current current' hc hc'
    have hversions : current.keyVersion = current'.keyVersion := congrArg (·.keyVersion) hcurrent
    have hkeys : current.apiKey = current'.apiKey := congrArg (·.apiKey) hcurrent
    rw [hc, hc']
    dsimp only
    rw [← hversions, ← hkeys]
    split
    · rfl
    · rw [verifyChallenge, verifyChallenge, checkTag_eq, checkTag_eq]
      rw [← hkeys, challengeMac, challengeMac, eq_comm, eq_comm (a := mac)] at hfits
      by_cases hfit : Hmac.hex current.sharedSecret (current.apiKey ++ challenge).toUTF8 = mac
      · rw [if_pos hfit, if_pos (hfits.mp hfit)]
        simp [shown, HandshakeState.redacted, HandshakeStep.redacted, hcurrent, Except.map]
      · rw [if_neg hfit, if_neg (mt hfits.mpr hfit)]

/-- What a message brings about shows no secret, unless it is an awaited proof. -/
theorem onText_redacted (d : DirectoryService) (challenge : String) {s : HandshakeState}
    {raw : String} (h : ∀ device issued mac, s = .awaitingHandshake device issued →
      ControlMessage.parse? raw ≠ some (.handshake mac)) :
    onText d.redacted challenge s.redacted raw = shown (onText d challenge s raw) := by
  unfold onText
  cases hparse : ControlMessage.parse? raw with
  | none => rfl
  | some message =>
    cases s with
    | awaitingHello =>
      cases message with
      | hello key => exact onHello_redacted d challenge key
      | challenge c => rfl
      | handshake mac => rfl
      | handshakeOk => rfl
    | awaitingHandshake device issued =>
      cases message with
      | handshake mac => exact absurd hparse (h device issued mac rfl)
      | hello key => rfl
      | challenge c => rfl
      | handshakeOk => rfl
    | connected => rfl
    | authenticated device => rfl
    | active => rfl
    | closed => rfl

end Handshake

namespace Handshakes

def redacted (s : Handshakes) : Handshakes where
  service := s.service.redacted
  machine m := (s.machine m).redacted

/-- A message brings a machine the proof that it awaits: the tag of the challenge under the secret
in the directory. -/
def Proves (s : Handshakes) (m : Nat) (raw : String) : Prop :=
  ∃ device issued mac current, s.machine m = .awaitingHandshake device issued ∧
    ControlMessage.parse? raw = some (.handshake mac) ∧
    s.service.get device.deviceId = .ok (some current) ∧
    mac = challengeMac current.apiKey issued current.sharedSecret

/-- Every proof in a run fits in both systems or in neither. -/
def Concordant (s s' : Handshakes) : List Event → Prop
  | [] => True
  | e :: es => (∀ m raw challenge, e = .message m raw challenge →
      (s.Proves m raw ↔ s'.Proves m raw)) ∧ Concordant (next s e) (next s' e) es

/-- What an event comes to for whoever caused it. -/
inductive Reaction where
  | none
  | step (result : Outcome HandshakeStep)
  | record (result : Outcome DeviceRecord)

def Reaction.redacted : Reaction → Reaction
  | .none => .none
  | .step result => .step (result.map HandshakeStep.redacted)
  | .record result => .record (result.map DeviceRecord.redacted)

def react (s : Handshakes) : Event → Reaction
  | .accept _ => .none
  | .message m raw challenge => .step (s.answer m raw challenge)
  | .activate m => .record (Handshake.activate (s.machine m)).2
  | .close _ => .none
  | .rotate id fresh => .record (s.service.rotateKey id fresh).2

/-- A run, event by event: the reactions, and how things stand behind each. -/
def course (s : Handshakes) : List Event → List (Reaction × Handshakes)
  | [] => []
  | e :: es => (s.react e, next s e) :: course (next s e) es

/-- A run without the secrets. -/
def visible (s : Handshakes) (es : List Event) : List (Reaction × Handshakes) :=
  (course s es).map fun r => (r.1.redacted, r.2.redacted)

theorem put_redacted (s : Handshakes) (m : Nat) (stage : HandshakeState) :
    s.redacted.put m stage.redacted = (s.put m stage).redacted := by
  simp only [put, redacted, apply_ite HandshakeState.redacted]

theorem proves_iff {s : Handshakes} {m : Nat} {raw mac issued : String}
    {device current : DeviceRecord} (hstage : s.machine m = .awaitingHandshake device issued)
    (hparse : ControlMessage.parse? raw = some (.handshake mac))
    (hget : s.service.get device.deviceId = .ok (some current)) :
    s.Proves m raw ↔ mac = challengeMac current.apiKey issued current.sharedSecret := by
  constructor
  · rintro ⟨device', issued', mac', current', hstage', hparse', hget', hfits⟩
    cases hstage.symm.trans hstage'
    cases hparse.symm.trans hparse'
    cases hget.symm.trans hget'
    exact hfits
  · exact fun hfits => ⟨device, issued, mac, current, hstage, hparse, hget, hfits⟩

section Alike
variable {s s' : Handshakes} (h : s.redacted = s'.redacted)
include h

theorem service_alike : s.service.redacted = s'.service.redacted := congrArg (·.service) h

theorem machine_alike (m : Nat) : (s.machine m).redacted = (s'.machine m).redacted :=
  congrFun (congrArg (·.machine) h) m

theorem awaiting_alike {m : Nat} {device : DeviceRecord} {issued : String}
    (hstage : s.machine m = .awaitingHandshake device issued) :
    ∃ device', s'.machine m = .awaitingHandshake device' issued ∧
      device.redacted = device'.redacted := by
  have hmachine := machine_alike h m
  rw [hstage] at hmachine
  obtain ⟨device', hstage', hdevice⟩ := HandshakeState.redacted_eq_awaitingHandshake hmachine.symm
  exact ⟨device', hstage', hdevice.symm⟩

/-- A message is received in the same way, if it is no proof in one system only. -/
theorem message_alike {m : Nat} {raw : String} (hproof : s.Proves m raw ↔ s'.Proves m raw)
    (challenge : String) :
    Handshake.shown (Handshake.onText s.service challenge (s.machine m) raw) =
      Handshake.shown (Handshake.onText s'.service challenge (s'.machine m) raw) := by
  by_cases hawaited : ∃ device issued mac, s.machine m = .awaitingHandshake device issued ∧
      ControlMessage.parse? raw = some (.handshake mac)
  · obtain ⟨device, issued, mac, hstage, hparse⟩ := hawaited
    obtain ⟨device', hstage', hdevice⟩ := awaiting_alike h hstage
    simp only [hstage, hstage', Handshake.onText, hparse]
    refine Handshake.onProof_shown (service_alike h) hdevice fun current current' hget hget' => ?_
    rw [← proves_iff hstage hparse hget, hproof, proves_iff hstage' hparse hget']
  · rw [← Handshake.onText_redacted, ← Handshake.onText_redacted, service_alike h,
      machine_alike h m]
    · intro device' issued mac hstage' hparse
      obtain ⟨device, hstage, -⟩ := awaiting_alike h.symm hstage'
      exact hawaited ⟨device, issued, mac, hstage, hparse⟩
    · intro device issued mac hstage hparse
      exact hawaited ⟨device, issued, mac, hstage, hparse⟩

/-- An event has the same reaction in both systems and leaves them alike, unless it is a proof in
one of them only. -/
theorem next_alike {e : Event} (hproof : ∀ m raw challenge, e = .message m raw challenge →
      (s.Proves m raw ↔ s'.Proves m raw)) :
    (s.react e).redacted = (s'.react e).redacted ∧ (next s e).redacted = (next s' e).redacted := by
  cases e with
  | accept m =>
    refine ⟨rfl, ?_⟩
    rw [next, next, ← put_redacted, ← put_redacted, h, ← Handshake.accept_redacted,
      ← Handshake.accept_redacted, machine_alike h m]
  | message m raw challenge =>
    obtain ⟨hstage, hanswer⟩ :=
      Prod.ext_iff.mp (message_alike h (hproof m raw challenge rfl) challenge)
    refine ⟨congrArg Reaction.step hanswer, ?_⟩
    rw [next, next, ← put_redacted, ← put_redacted, h]
    exact congrArg (s'.redacted.put m) hstage
  | activate m =>
    have hactivate := congrArg Handshake.activate (machine_alike h m)
    rw [Handshake.activate_redacted, Handshake.activate_redacted] at hactivate
    obtain ⟨hstage, hresult⟩ := Prod.ext_iff.mp hactivate
    refine ⟨congrArg Reaction.record hresult, ?_⟩
    rw [next, next, ← put_redacted, ← put_redacted, h]
    exact congrArg (s'.redacted.put m) hstage
  | close m =>
    refine ⟨rfl, ?_⟩
    have hclosed : HandshakeState.closed = HandshakeState.closed.redacted := rfl
    rw [next, next, hclosed, ← put_redacted, ← put_redacted, h]
  | rotate id fresh =>
    have hrotate := congrArg (·.rotateKey id fresh) (service_alike h)
    simp only [DirectoryService.rotateKey_redacted] at hrotate
    obtain ⟨hservice, hresult⟩ := Prod.ext_iff.mp hrotate
    exact ⟨congrArg Reaction.record hresult,
      congrArg₂ Handshakes.mk hservice (congrArg (·.machine) h)⟩

end Alike

/-- Systems that differ in secrets only take the same course, up to the secrets in the records, as
long as each proof fits in both or in neither: every message is answered alike, with the same error
in the same words, and every machine is at the same stage behind every event. -/
theorem secrets_show_only_in_verdicts {s s' : Handshakes} {es : List Event}
    (h : s.redacted = s'.redacted) (hproofs : Concordant s s' es) :
    visible s es = visible s' es := by
  induction es generalizing s s' with
  | nil => rfl
  | cons e es ih =>
    obtain ⟨hreact, hnext⟩ := next_alike h hproofs.1
    have hrest := ih hnext hproofs.2
    simp only [visible, course, List.map_cons, hreact, hnext] at hrest ⊢
    rw [hrest]

def framed (secret : String) : DeviceRecord where
  deviceId := "frame-1"
  apiKey := "k1"
  sharedSecret := secret

/-- A directory of one device with the secret. -/
def sharing (secret : String) : Handshakes := start ⟨[("frame-1", framed secret)]⟩

/-- The device names itself and brings the tag of the challenge under `s1`. -/
def proving : List Event :=
  [.accept 0, .message 0 (ControlMessage.hello "k1").text "c1",
    .message 0 (ControlMessage.handshake (challengeMac "k1" "c1" "s1")).text "c2"]

/-- A secret and the same secret with a zero behind it give the same tags. -/
theorem challengeMac_padded :
    challengeMac "k1" "c1" "s1" = challengeMac "k1" "c1" "s1\x00" := by
  have hkey : Hmac.blockKey "s1".toUTF8 = Hmac.blockKey "s1\x00".toUTF8 := by decide
  rw [challengeMac, challengeMac, Hmac.hex, Hmac.hex, Hmac.tag, Hmac.tag, hkey]

theorem awaiting_sharing (secret : String) :
    (next (next (sharing secret) (.accept 0))
      (.message 0 (ControlMessage.hello "k1").text "c1")).machine 0 =
        .awaitingHandshake (framed secret) "c1" := by
  simp only [next, put, Handshake.onText, ControlMessage.parse_text]
  rfl

theorem verify_framed :
    verifyChallenge "k1" "c1" "s1" (challengeMac "k1" "c1" "s1") = .ok () :=
  checkTag_eq_ok.mpr rfl

theorem onProof_framed :
    (Handshake.onProof (sharing "s1").service (framed "s1") "c1"
      (challengeMac "k1" "c1" "s1")).1 = .authenticated (framed "s1") := by
  have hget : (sharing "s1").service.get (framed "s1").deviceId = .ok (some (framed "s1")) := rfl
  have hsame : ¬ ((framed "s1").keyVersion ≠ (framed "s1").keyVersion ∨
      (framed "s1").apiKey ≠ (framed "s1").apiKey) := by simp
  have hfits : verifyChallenge (framed "s1").apiKey "c1" (framed "s1").sharedSecret
      (challengeMac "k1" "c1" "s1") = .ok () := verify_framed
  rw [Handshake.onProof, hget]
  dsimp only
  rw [if_neg hsame, hfits]

theorem authenticated_sharing {s : Handshakes} (hservice : s.service = (sharing "s1").service)
    (hstage : s.machine 0 = .awaitingHandshake (framed "s1") "c1") :
    (next s (.message 0 (ControlMessage.handshake (challengeMac "k1" "c1" "s1")).text
      "c2")).machine 0 = .authenticated (framed "s1") := by
  rw [next, machine_put, if_pos rfl, hservice, hstage, Handshake.onText, ControlMessage.parse_text]
  exact onProof_framed

theorem concordant_proving : Concordant (sharing "s1") (sharing "s1\x00") proving := by
  refine ⟨nofun, ?_, ?_, trivial⟩
  · rintro m raw challenge ⟨⟩
    constructor <;> rintro ⟨device, issued, mac, current, hstage, -⟩ <;> cases hstage
  · rintro m raw challenge ⟨⟩
    rw [proves_iff (awaiting_sharing "s1") (ControlMessage.parse_text _) rfl,
      proves_iff (awaiting_sharing "s1\x00") (ControlMessage.parse_text _) rfl]
    exact iff_of_true rfl challengeMac_padded

/-- Two secrets under both of which the proof fits: the device is accepted in both systems. -/
theorem secrets_show_only_in_verdicts_padded :
    (sharing "s1").redacted = (sharing "s1\x00").redacted ∧
    Concordant (sharing "s1") (sharing "s1\x00") proving ∧
    visible (sharing "s1") proving = visible (sharing "s1\x00") proving ∧
    (run (sharing "s1") proving).machine 0 = .authenticated (framed "s1") := by
  have halike : (sharing "s1").redacted = (sharing "s1\x00").redacted := rfl
  refine ⟨halike, concordant_proving, secrets_show_only_in_verdicts halike concordant_proving, ?_⟩
  exact authenticated_sharing rfl (awaiting_sharing "s1")

end Handshakes

end FleetControl
