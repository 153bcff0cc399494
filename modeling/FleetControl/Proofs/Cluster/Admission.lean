import FleetControl.Proofs.Cluster.Roster
import FleetControl.Proofs.Envelope

/-! # Whom a connection is served for

A task serves a device on a socket only after a handshake on that socket: the next message was the
proof for the challenge issued there, under the key and the secret that the directory had for the
device at that moment. -/
namespace FleetControl

/-- The socket and the device that a task serves, once the device is accepted. -/
def Task.serves? : Task → Option (Nat × DeviceRecord)
  | .session _ s (.starting device) => some (s, device)
  | .session _ s (.receiving state _) => some (s, state.device)
  | .session _ s (.draining state _ _) => some (s, state.device)
  | _ => none

namespace Cluster

def serves? (c : Cluster) (t : TaskId) : Option (Nat × DeviceRecord) :=
  (c.tasks.get? t).bind Task.serves?

/-- A task awaits a proof on a socket, and the proof is next. -/
def Admits (c : Cluster) (t : TaskId) (s : Nat) (device : DeviceRecord) : Prop :=
  t ∈ c.ready ∧ ∃ p claimed issued deadline,
    c.tasks.get? t =
      some (.session p s (.handshaking (.awaitingHandshake claimed issued) deadline)) ∧
    Proves c s claimed issued device

theorem serves?_eq_some {c : Cluster} {t : TaskId} {a : Nat × DeviceRecord}
    (h : c.serves? t = some a) :
    ∃ w, c.tasks.get? t = some w ∧ w.serves? = some a ∧ w.Lasting := by
  obtain ⟨w, hw, ha⟩ := Option.bind_eq_some_iff.mp h
  refine ⟨w, hw, ha, ?_⟩
  cases w with
  | session p s phase => cases phase <;> first | exact trivial | cases ha
  | _ => cases ha

/-- A device is served after an event as it was before, or a task took its proof. -/
theorem give_serves {c : Cluster} {t u : TaskId} {s : Nat} {device : DeviceRecord}
    (h : (c.give t).serves? u = some (s, device)) :
    c.serves? u = some (s, device) ∨ (u = t ∧ Admits c t s device) := by
  by_cases hready : t ∈ c.ready
  · obtain ⟨w, hw, ha, hlasting⟩ := serves?_eq_some h
    rcases (give_follows c t).tasks u w hw hlasting with hold | hnew
    · exact Or.inl (by simp [serves?, hold, ha])
    · cases hnew with
      | admitted task proves =>
        obtain ⟨rfl, rfl⟩ : _ = s ∧ _ = device := by simpa [Task.serves?] using ha
        exact Or.inr ⟨rfl, hready, _, _, _, _, task, proves⟩
      | started task home same draws last =>
        left
        rw [← ha]
        simp [serves?, task, Task.serves?, same]
      | received task =>
        left
        rw [← ha]
        simp [serves?, task, Task.serves?]
      | drained task =>
        left
        rw [← ha]
        simp [serves?, task, Task.serves?]
      | joined task draws last => cases ha
      | took task going pops => cases ha
      | sent task => cases ha
      | served task => cases ha
  · rw [give_of_not_mem hready] at h
    exact Or.inl h

theorem happen_serves {c : Cluster} {e : Event} {t : TaskId} {s : Nat} {device : DeviceRecord}
    (h : (happen c e).serves? t = some (s, device)) :
    c.serves? t = some (s, device) ∨ (e = .turn t ∧ Admits c t s device) := by
  by_cases hturn : ∃ u, e = .turn u
  · obtain ⟨u, rfl⟩ := hturn
    rcases give_serves h with hold | ⟨rfl, hadmits⟩
    · exact Or.inl hold
    · exact Or.inr ⟨rfl, hadmits⟩
  · left
    obtain ⟨w, hw, ha, hlasting⟩ := serves?_eq_some h
    have hkept := happen_keeps c fun u hu => hturn ⟨u, hu⟩
    have hold := (hkept.tasks t w hw hlasting).resolve_right id
    simp [serves?, hold, ha]

/-- At some event of a history a task took the proof of a device on a socket. -/
def Admitted (c : Cluster) (es : List Event) (t : TaskId) (s : Nat) (device : DeviceRecord) :
    Prop :=
  ∃ before later, es = before ++ .turn t :: later ∧ Admits (c.after before) t s device

theorem admitted_of_serves {c : Cluster} (es : List Event) {t : TaskId} {s : Nat}
    {device : DeviceRecord} (h : (c.after es).serves? t = some (s, device)) :
    c.serves? t = some (s, device) ∨ Admitted c es t s device := by
  induction es generalizing c with
  | nil => exact Or.inl h
  | cons e es ih =>
    rcases ih h with hnext | ⟨before, later, rfl, hadmits⟩
    · rcases happen_serves hnext with hold | ⟨rfl, hadmits⟩
      · exact Or.inl hold
      · exact Or.inr ⟨[], es, rfl, hadmits⟩
    · exact Or.inr ⟨e :: before, later, rfl, hadmits⟩

/-- A proof that fits is accepted. -/
theorem onIncoming_proof {directory : DirectoryService} {claimed device : DeviceRecord}
    {challenge issued raw mac : String} (hparse : ControlMessage.parse? raw = some (.handshake mac))
    (hget : directory.get claimed.deviceId = .ok (some device))
    (hversion : device.keyVersion = claimed.keyVersion) (hkey : device.apiKey = claimed.apiKey)
    (hmac : Hmac.hex device.sharedSecret (device.apiKey ++ issued).toUTF8 = mac) :
    Handshake.onIncoming directory challenge (.awaitingHandshake claimed issued) (.text raw) =
      (.authenticated device, .accepted device ControlMessage.handshakeOk.text) := by
  have hproof : verifyChallenge device.apiKey issued device.sharedSecret mac = .ok () :=
    checkTag_eq_ok.mpr hmac
  have hsame : ¬ (device.keyVersion ≠ claimed.keyVersion ∨ device.apiKey ≠ claimed.apiKey) := by
    simp [hversion, hkey]
  simp only [Handshake.onIncoming, Handshake.onText, hparse, Handshake.onProof, hget,
    if_neg hsame, hproof]

/-- A task that can go on awaits the proof for a challenge, and the proof is next: that of a device
which the directory still knows by the key that was named. -/
def offers (c : Cluster) (t : TaskId) (p s : Nat) (device : DeviceRecord) (issued mac : String) :
    Bool :=
  match c.tasks.get? t, (c.sockets.get? s).map (·.inbound) with
  | some (.session q s' (.handshaking (.awaitingHandshake claimed issued') _)),
      some (Incoming.text raw :: _) =>
    Decidable.decide (t ∈ c.ready ∧ q = p ∧ s' = s ∧ issued' = issued ∧
      (c.settingsOf? p).isSome ∧ ControlMessage.parse? raw = some (.handshake mac) ∧
      (c.directory.get claimed.deviceId).toOption = some (some device) ∧
      device.keyVersion = claimed.keyVersion ∧ device.apiKey = claimed.apiKey)
  | _, _ => false

/-- What the turn of a task makes of a cluster if it accepts the proof before it. -/
def acceptProof (c : Cluster) (t : TaskId) (p s : Nat) (device : DeviceRecord) : Cluster :=
  match (({ c with ready := c.ready.erase t } : Cluster).nextIncoming s).1.transmit s
    (.text ControlMessage.handshakeOk.text) with
  | (c, true) =>
    let c := (c.enter t p s (.starting device)).1
    { c with ready := t :: c.ready.filter (· ≠ t) }
  | (c, false) => (c.hangUp p s none).1.finish t

/-- What the turn of a task comes to if the proof before it fits. -/
theorem give_of_offers {c : Cluster} {t : TaskId} {p s : Nat} {device : DeviceRecord}
    {issued mac : String} (h : c.offers t p s device issued mac = true)
    (hmac : Hmac.hex device.sharedSecret (device.apiKey ++ issued).toUTF8 = mac) :
    c.give t = c.acceptProof t p s device := by
  unfold offers at h
  split at h
  · rename_i q s' claimed issued' deadline raw rest htask hinbound
    obtain ⟨ht, rfl, rfl, rfl, hset, hparse, hget, hversion, hkey⟩ := of_decide_eq_true h
    obtain ⟨settings, hset⟩ := Option.isSome_iff_exists.mp hset
    obtain ⟨socket, hsocket, hinbound⟩ := Option.map_eq_some_iff.mp hinbound
    have hget : c.directory.get claimed.deviceId = .ok (some device) := by
      cases hd : c.directory.get claimed.deviceId with
      | error e =>
        rw [hd] at hget
        cases hget
      | ok found =>
        rw [hd] at hget
        exact congrArg Except.ok (Option.some.inj hget)
    let c₁ : Cluster := { c with ready := c.ready.erase t }
    let c₂ : Cluster := (c₁.nextIncoming s').1
    have hnext : c₁.nextIncoming s' = (c₂, some (.text raw)) := by
      simp [c₁, c₂, nextIncoming, hsocket, hinbound]
    have hdirectory : c₂.directory = c.directory := by
      simp [c₁, c₂, nextIncoming, hsocket, hinbound]
    have htask₁ : c₁.tasks.get? t = some (.session q s'
      (.handshaking (.awaitingHandshake claimed issued') deadline)) := htask
    have hset₁ : c₁.settingsOf? q = some settings := hset
    have hsocket₁ : c₁.sockets.get? s' = some socket := hsocket
    have hverdict := @onIncoming_proof c.directory claimed device c₂.nextChallenge issued' raw mac
      hparse hget hversion hkey hmac
    rcases hsent : c₂.transmit s' (.text ControlMessage.handshakeOk.text) with ⟨c₃, sent⟩
    unfold give acceptProof
    rw [if_pos ht]
    cases sent with
    | true =>
      have hturn : turn c₁ t = c₃.enter t q s' (.starting device) := by
        simp only [turn, htask₁, sessionTurn, hset₁, hsocket₁, handshakeTurn, hnext,
          hdirectory, hverdict, hsent]
      rw [hturn, hsent]
      rfl
    | false =>
      have hturn : turn c₁ t = c₃.hangUp q s' none := by
        simp only [turn, htask₁, sessionTurn, hset₁, hsocket₁, handshakeTurn, hnext,
          hdirectory, hverdict, hsent]
      rw [hturn, hsent]
      rfl
  · cases h

/-- A device connects, is challenged, and has sent its proof. -/
def greeting (t : TaskId) (s : Nat) (address : Address) (key mac : String) : List Event :=
  [.connect 0 address, .turn t, .arrive s (.text (ControlMessage.hello key).text), .turn t,
    .arrive s (.text (ControlMessage.handshake mac).text)]

/-- The device is served from then on. -/
def join (c : Cluster) (t : TaskId) (s : Nat) (address : Address) (device : DeviceRecord)
    (mac : String) : Cluster :=
  ((c.after (greeting t s address device.apiKey mac)).acceptProof t 0 s device).give t

theorem after_greeting {c : Cluster} {t : TaskId} {s : Nat} {address : Address}
    {device : DeviceRecord} {issued mac : String}
    (h : (c.after (greeting t s address device.apiKey mac)).offers t 0 s device issued mac = true)
    (hmac : Hmac.hex device.sharedSecret (device.apiKey ++ issued).toUTF8 = mac) :
    c.after (greeting t s address device.apiKey mac ++ [.turn t, .turn t]) =
      c.join t s address device mac := by
  rw [after_append]
  exact congrArg (give · t) (give_of_offers h hmac)

def frame (name key secret : String) : DeviceRecord :=
  ⟨name, key, secret, 0, "", 22, "frame", none, {}⟩

def twoFrames : DirectoryService :=
  { directory := ⟨[("frame-1", frame "frame-1" "k1" "s1"),
      ("frame-2", frame "frame-2" "k2" "s2")]⟩ }

def counted : Supply := ⟨fun i => ⟨BitVec.ofNat 128 i⟩, fun i => toString i⟩

/-- The proof of the first device for the first challenge. -/
def firstProof : String := "d9e46eb613c113a6689084361896908af26edd215972705f0c646a32b8e1123c"

theorem hex_firstProof : Hmac.hex "s1" ("k1" ++ "0").toUTF8 = firstProof := by decide +kernel

/-- A cluster of one process, before anybody connects. -/
def single : Cluster := (initial counted 0 twoFrames).addProcess (.ofConfig {})

def firstFrame : DeviceRecord := frame "frame-1" "k1" "s1"

theorem offers_firstProof :
    (single.after (greeting 0 0 (.v4 [1]) firstFrame.apiKey firstProof)).offers 0 0 0 firstFrame "0"
      firstProof = true := by decide +kernel

/-- The first device has joined. -/
def firstJoined : Cluster := single.join 0 0 (.v4 [1]) firstFrame firstProof

theorem after_firstJoined :
    single.after (greeting 0 0 (.v4 [1]) firstFrame.apiKey firstProof ++ [.turn 0, .turn 0]) =
      firstJoined := after_greeting offers_firstProof hex_firstProof

/-- A process starts, and the first device joins. -/
def joining : List Event :=
  .addProcess (.ofConfig {}) ::
    (greeting 0 0 (.v4 [1]) firstFrame.apiKey firstProof ++ [.turn 0, .turn 0])

theorem after_joining (es : List Event) :
    (initial counted 0 twoFrames).after (joining ++ es) = firstJoined.after es := by
  have hsingle : happen (initial counted 0 twoFrames) (.addProcess (.ofConfig {})) = single := rfl
  rw [after_append, joining, after_cons, hsingle, after_firstJoined]

end Cluster

end FleetControl
