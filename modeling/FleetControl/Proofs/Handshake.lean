import FleetControl.Handshake
import FleetControl.Proofs.Device.Directory
import FleetControl.Proofs.Envelope

/-! # Handshakes over one directory

Any number of machines that share a directory, driven in any order with rotations of keys in
between. A machine accepts a device only on the proof for its own challenge, and only if the key
that the device named is still its key. -/
namespace FleetControl

structure Handshakes where
  service : DirectoryService
  machine : Nat → HandshakeState := fun _ => .connected

namespace Handshakes

/-- What happens to a machine or to the directory; `challenge` is what a message would be challenged
with. -/
inductive Event where
  | accept (m : Nat)
  | message (m : Nat) (raw challenge : String)
  | activate (m : Nat)
  | close (m : Nat)
  | rotate (id fresh : String)

def put (s : Handshakes) (m : Nat) (stage : HandshakeState) : Handshakes :=
  { s with machine := fun i => if i = m then stage else s.machine i }

def next (s : Handshakes) : Event → Handshakes
  | .accept m => s.put m (Handshake.accept (s.machine m))
  | .message m raw challenge =>
    s.put m (Handshake.onText s.service challenge (s.machine m) raw).1
  | .activate m => s.put m (Handshake.activate (s.machine m)).1
  | .close m => s.put m .closed
  | .rotate id fresh => { s with service := (s.service.rotateKey id fresh).1 }

def run (s : Handshakes) : List Event → Handshakes
  | [] => s
  | e :: es => run (next s e) es

def start (d : Directory) : Handshakes := { service := { directory := d } }

/-- What a machine says to a message. -/
def answer (s : Handshakes) (m : Nat) (raw challenge : String) : Outcome HandshakeStep :=
  (Handshake.onText s.service challenge (s.machine m) raw).2

/-- What a machine says in the course of a run. -/
def answers (m : Nat) (s : Handshakes) : List Event → List (Outcome HandshakeStep)
  | [] => []
  | .message i raw challenge :: es =>
    if i = m then s.answer m raw challenge :: answers m (next s (.message i raw challenge)) es
    else answers m (next s (.message i raw challenge)) es
  | e :: es => answers m (next s e) es

def challenges : Outcome HandshakeStep → Bool
  | .ok (.reply _) => true
  | _ => false

def accepts : Outcome HandshakeStep → Bool
  | .ok (.done _ _) => true
  | _ => false

/-- How often the key of a device is rotated. -/
def rotations (id : String) : List Event → Nat
  | [] => 0
  | .rotate i _ :: es => (if i = id then 1 else 0) + rotations id es
  | _ :: es => rotations id es

end Handshakes

theorem verifyChallenge_ok {apiKey challenge secret mac : String}
    (h : verifyChallenge apiKey challenge secret mac = .ok ()) :
    mac = Hmac.hex secret (apiKey ++ challenge).toUTF8 := (checkTag_eq_ok.mp h).symm

namespace Handshake

/-- A message is refused, or it is the awaited `hello` of a known key, or it is the awaited proof of
an unchanged key. -/
theorem onText_cases (directory : DirectoryService) (challenge : String) (s : HandshakeState)
    (raw : String) :
    (∃ e, onText directory challenge s raw = (.closed, .error e)) ∨
    (∃ key device, s = .awaitingHello ∧ ControlMessage.parse? raw = some (.hello key) ∧ key ≠ "" ∧
      directory.byApiKey key = .ok (some device) ∧
      onText directory challenge s raw =
        (.awaitingHandshake device challenge, .ok (.reply (.challenge challenge)))) ∨
    ∃ device issued mac current, s = .awaitingHandshake device issued ∧
      ControlMessage.parse? raw = some (.handshake mac) ∧
      directory.get device.deviceId = .ok (some current) ∧
      current.keyVersion = device.keyVersion ∧ current.apiKey = device.apiKey ∧
      mac = Hmac.hex current.sharedSecret (current.apiKey ++ issued).toUTF8 ∧
      onText directory challenge s raw =
        (.authenticated current, .ok (.done current .handshakeOk)) := by
  unfold onText
  cases hp : ControlMessage.parse? raw with
  | none => exact Or.inl ⟨_, rfl⟩
  | some message =>
    dsimp only
    split
    · rename_i key
      unfold onHello
      by_cases hk : key = ""
      · exact Or.inl ⟨_, if_pos hk⟩
      · rw [if_neg hk]
        cases hd : directory.byApiKey key with
        | error e => exact Or.inl ⟨e, rfl⟩
        | ok found =>
          cases found with
          | none => exact Or.inl ⟨_, rfl⟩
          | some device => exact Or.inr (Or.inl ⟨key, device, rfl, rfl, hk, hd, rfl⟩)
    · rename_i device issued mac
      unfold onProof
      cases hd : directory.get device.deviceId with
      | error e => exact Or.inl ⟨e, rfl⟩
      | ok found =>
        cases found with
        | none => exact Or.inl ⟨_, rfl⟩
        | some current =>
          dsimp only
          split
          · exact Or.inl ⟨_, rfl⟩
          · rename_i hsame
            have hsame : current.keyVersion = device.keyVersion ∧
                current.apiKey = device.apiKey := by simpa using hsame
            cases hv : verifyChallenge current.apiKey issued current.sharedSecret mac with
            | error e => exact Or.inl ⟨e, rfl⟩
            | ok u =>
              exact Or.inr (Or.inr ⟨device, issued, mac, current, rfl, rfl, hd, hsame.1, hsame.2,
                verifyChallenge_ok hv, rfl⟩)
    · exact Or.inl ⟨_, rfl⟩

/-- Only the awaited proof of an unchanged key is accepted. -/
theorem onIncoming_accepted {directory : DirectoryService} {challenge : String}
    {s s' : HandshakeState} {m : Incoming} {device : DeviceRecord} {text : String}
    (h : onIncoming directory challenge s m = (s', .accepted device text)) :
    ∃ raw claimed issued mac, m = .text raw ∧ s = .awaitingHandshake claimed issued ∧
      ControlMessage.parse? raw = some (.handshake mac) ∧
      directory.get claimed.deviceId = .ok (some device) ∧
      device.keyVersion = claimed.keyVersion ∧ device.apiKey = claimed.apiKey ∧
      mac = Hmac.hex device.sharedSecret (device.apiKey ++ issued).toUTF8 := by
  cases m with
  | text raw =>
    simp only [onIncoming] at h
    rcases onText_cases directory challenge s raw with
      ⟨e, he⟩ | ⟨key, d, -, -, -, -, he⟩ |
      ⟨claimed, issued, mac, current, hs, hp, hg, hv, hk, hm, he⟩
    · rw [he] at h; simp at h
    · rw [he] at h; simp at h
    · rw [he] at h
      obtain ⟨-, rfl, -⟩ : HandshakeState.authenticated current = s' ∧ current = device ∧ _ := by
        simpa using h
      exact ⟨raw, claimed, issued, mac, rfl, hs, hp, hg, hv, hk, hm⟩
  | ping data => cases h
  | pong => cases h
  | binary data => cases h
  | closed => cases h
  | failed reason => cases h

end Handshake

namespace Handshakes

/-- How far a machine has come; it never goes back. -/
def stage : HandshakeState → Nat
  | .connected => 0
  | .awaitingHello => 1
  | .awaitingHandshake _ _ => 2
  | .authenticated _ => 3
  | .active => 4
  | .closed => 5

theorem stage_le_closed (h : HandshakeState) : stage h ≤ stage .closed := by
  cases h <;> simp [stage]

theorem machine_put (s : Handshakes) (m i : Nat) (h : HandshakeState) :
    (s.put m h).machine i = if i = m then h else s.machine i := rfl

theorem stage_onText (d : DirectoryService) (challenge : String) (h : HandshakeState)
    (raw : String) : stage h ≤ stage (Handshake.onText d challenge h raw).1 := by
  rcases Handshake.onText_cases d challenge h raw with
    ⟨e, he⟩ | ⟨key, device, rfl, -, -, -, he⟩ |
    ⟨device, issued, mac, current, rfl, -, -, -, -, -, he⟩
  · rw [he]; exact stage_le_closed h
  · rw [he]; simp [stage]
  · rw [he]; simp [stage]

theorem stage_next (s : Handshakes) (e : Event) (m : Nat) :
    stage (s.machine m) ≤ stage ((next s e).machine m) := by
  have hput : ∀ i h, stage (s.machine i) ≤ stage h → stage (s.machine m) ≤
      stage ((s.put i h).machine m) := by
    intro i h hle
    rw [machine_put]
    split
    · rename_i hm
      exact hm ▸ hle
    · exact Nat.le_refl _
  cases e with
  | accept i => exact hput i _ (by cases s.machine i <;> simp [Handshake.accept, stage])
  | message i raw challenge => exact hput i _ (stage_onText _ _ _ _)
  | activate i => exact hput i _ (by cases s.machine i <;> simp [Handshake.activate, stage])
  | close i => exact hput i _ (stage_le_closed _)
  | rotate id fresh => exact Nat.le_refl _

/-- What a machine says only on its way past a stage, it says at most once. -/
theorem countP_answers (f : Outcome HandshakeStep → Bool) (m k : Nat)
    (hf : ∀ s raw challenge, f (answer s m raw challenge) = true →
      stage (s.machine m) ≤ k ∧ k < stage ((next s (.message m raw challenge)).machine m))
    (es : List Event) (s : Handshakes) :
    (answers m s es).countP f ≤ if stage (s.machine m) ≤ k then 1 else 0 := by
  induction es generalizing s with
  | nil => simp [answers]
  | cons e es ih =>
    have hstage := stage_next s e m
    have hrest := ih (next s e)
    have hlater : (answers m (next s e) es).countP f ≤
        if stage (s.machine m) ≤ k then 1 else 0 := by
      split at hrest <;> split <;> omega
    cases e with
    | message i raw challenge =>
      simp only [answers]
      by_cases hi : i = m
      · subst i
        rw [if_pos rfl, List.countP_cons]
        by_cases hfire : f (answer s m raw challenge) = true
        · obtain ⟨hle, hlt⟩ := hf s raw challenge hfire
          rw [if_neg (by omega)] at hrest
          rw [if_pos hfire, if_pos hle]
          omega
        · rw [if_neg hfire]
          exact hlater
      · rw [if_neg hi]
        exact hlater
    | accept i => exact hlater
    | activate i => exact hlater
    | close i => exact hlater
    | rotate id fresh => exact hlater

theorem stage_challenges {s : Handshakes} {m : Nat} {raw challenge : String}
    (h : challenges (answer s m raw challenge) = true) :
    stage (s.machine m) ≤ 1 ∧ 1 < stage ((next s (.message m raw challenge)).machine m) := by
  simp only [answer] at h
  simp only [next, machine_put, if_true]
  rcases Handshake.onText_cases s.service challenge (s.machine m) raw with
    ⟨e, he⟩ | ⟨key, device, hs, -, -, -, he⟩ | ⟨device, issued, mac, current, hs, -, -, -, -, -, he⟩
  · rw [he] at h; simp [challenges] at h
  · rw [he, hs]; simp [stage]
  · rw [he] at h; simp [challenges] at h

theorem stage_accepts {s : Handshakes} {m : Nat} {raw challenge : String}
    (h : accepts (answer s m raw challenge) = true) :
    stage (s.machine m) ≤ 2 ∧ 2 < stage ((next s (.message m raw challenge)).machine m) := by
  simp only [answer] at h
  simp only [next, machine_put, if_true]
  rcases Handshake.onText_cases s.service challenge (s.machine m) raw with
    ⟨e, he⟩ | ⟨key, device, hs, -, -, -, he⟩ | ⟨device, issued, mac, current, hs, -, -, -, -, -, he⟩
  · rw [he] at h; simp [accepts] at h
  · rw [he] at h; simp [accepts] at h
  · rw [he, hs]; simp [stage]

theorem error_closes {s : Handshakes} {m : Nat} {raw challenge : String} {e : ChannelError}
    (h : answer s m raw challenge = .error e) :
    (next s (.message m raw challenge)).machine m = .closed := by
  simp only [answer] at h
  simp only [next, machine_put, if_true]
  rcases Handshake.onText_cases s.service challenge (s.machine m) raw with
    ⟨e, he⟩ | ⟨key, device, -, -, -, -, he⟩ | ⟨device, issued, mac, current, -, -, -, -, -, -, he⟩
  · rw [he]
  · rw [he] at h; cases h
  · rw [he] at h; cases h

theorem answer_closed {s : Handshakes} {m : Nat} (h : s.machine m = .closed)
    (raw challenge : String) : ∃ e, answer s m raw challenge = .error e := by
  simp only [answer]
  rcases Handshake.onText_cases s.service challenge (s.machine m) raw with
    ⟨e, he⟩ | ⟨key, device, hs, -⟩ | ⟨device, issued, mac, current, hs, -⟩
  · exact ⟨e, by rw [he]⟩
  · rw [h] at hs; cases hs
  · rw [h] at hs; cases hs

theorem closed_next {s : Handshakes} {m : Nat} (h : s.machine m = .closed) (e : Event) :
    (next s e).machine m = .closed := by
  have hstage := stage_next s e m
  rw [h] at hstage
  cases hn : (next s e).machine m <;> rw [hn] at hstage <;> simp [stage] at hstage

theorem answers_closed {s : Handshakes} {m : Nat} (h : s.machine m = .closed) (es : List Event) :
    ∀ a ∈ answers m s es, ∃ e, a = .error e := by
  induction es generalizing s with
  | nil => simp [answers]
  | cons e es ih =>
    have hrest := ih (closed_next h e)
    cases e with
    | message i raw challenge =>
      simp only [answers]
      split
      · intro a ha
        rcases List.mem_cons.mp ha with rfl | ha
        · exact answer_closed h raw challenge
        · exact hrest a ha
      · exact hrest
    | accept i => exact hrest
    | activate i => exact hrest
    | close i => exact hrest
    | rotate id fresh => exact hrest

theorem activate_failed {s : Handshakes} {m : Nat} {e : ChannelError}
    (h : (Handshake.activate (s.machine m)).2 = .error e) : next s (.activate m) = s := by
  simp only [next, put, Handshake.activate_error _ e h]
  congr 1
  funext i
  split
  · rename_i hi; rw [hi]
  · rfl

/-- The directory answers every lookup, from records under their own ids. -/
structure Static (s : Handshakes) : Prop where
  plain : s.service.overrides = []
  up : s.service.down = false
  filed : s.service.directory.Filed

theorem Static.get {s : Handshakes} (h : Static s) (id : String) :
    s.service.get id = .ok (s.service.directory.get? id) := by
  simp [DirectoryService.get, h.plain, h.up, Table.get?]

theorem Static.byApiKey {s : Handshakes} (h : Static s) {key : String} {device : DeviceRecord}
    (hk : s.service.byApiKey key = .ok (some device)) :
    s.service.directory.get? device.deviceId = some device ∧ device.apiKey = key := by
  simp only [DirectoryService.byApiKey, h.up] at hk
  exact Directory.get?_of_byApiKey h.filed (Except.ok.inj hk)

theorem static_run {s : Handshakes} (h : Static s) (es : List Event) : Static (run s es) := by
  induction es generalizing s with
  | nil => exact h
  | cons e es ih =>
    apply ih
    cases e with
    | rotate id fresh => exact ⟨h.plain, h.up, Directory.filed_rotateKey h.filed id fresh⟩
    | accept i => exact ⟨h.plain, h.up, h.filed⟩
    | message i raw challenge => exact ⟨h.plain, h.up, h.filed⟩
    | activate i => exact ⟨h.plain, h.up, h.filed⟩
    | close i => exact ⟨h.plain, h.up, h.filed⟩

theorem run_append (s : Handshakes) (as bs : List Event) :
    run s (as ++ bs) = run (run s as) bs := by
  induction as generalizing s with
  | nil => rfl
  | cons a as ih => exact ih (next s a)

/-- Every rotation raises the version of the record, and nothing else changes it. -/
theorem get?_run {s : Handshakes} {id : String} {record : DeviceRecord}
    (h : s.service.directory.get? id = some record) (es : List Event) :
    ∃ r, (run s es).service.directory.get? id = some r ∧
      r.keyVersion = record.keyVersion + rotations id es ∧ (rotations id es = 0 → r = record) := by
  induction es generalizing s record with
  | nil => exact ⟨record, h, rfl, fun _ => rfl⟩
  | cons e es ih =>
    cases e with
    | rotate i fresh =>
      have hnext := Directory.get?_rotateKey s.service.directory i fresh id
      simp only [run, rotations]
      by_cases hi : i = id
      · subst i
        rw [if_pos rfl, h] at hnext
        obtain ⟨r, hr, hv, -⟩ := ih (s := next s (.rotate id fresh)) hnext
        exact ⟨r, hr, by rw [hv, if_pos rfl, Nat.add_assoc], by simp⟩
      · rw [if_neg (Ne.symm hi), h] at hnext
        obtain ⟨r, hr, hv, hsame⟩ := ih (s := next s (.rotate i fresh)) hnext
        exact ⟨r, hr, by rw [hv, if_neg hi, Nat.zero_add], by simpa [hi] using hsame⟩
    | accept i => exact ih h
    | message i raw challenge => exact ih h
    | activate i => exact ih h
    | close i => exact ih h

theorem not_mem_of_rotations {id : String} {es : List Event} (h : rotations id es = 0)
    (fresh : String) : .rotate id fresh ∉ es := by
  induction es with
  | nil => simp
  | cons e es ih =>
    cases e with
    | rotate i f =>
      simp only [rotations] at h
      have hi : i ≠ id := fun he => by simp [he] at h
      simpa [Ne.symm hi] using ih (by omega)
    | accept i => simpa using ih h
    | message i raw challenge => simpa using ih h
    | activate i => simpa using ih h
    | close i => simpa using ih h

/-- A machine that awaits a proof did so before and got no message, or it has just answered a
`hello`. -/
theorem awaiting_next {s : Handshakes} {e : Event} {m : Nat} {device : DeviceRecord} {c : String}
    (h : (next s e).machine m = .awaitingHandshake device c) :
    (s.machine m = .awaitingHandshake device c ∧ ∀ raw challenge, e ≠ .message m raw challenge) ∨
    ∃ raw key, e = .message m raw c ∧ ControlMessage.parse? raw = some (.hello key) ∧ key ≠ "" ∧
      s.service.byApiKey key = .ok (some device) ∧
      answer s m raw c = .ok (.reply (.challenge c)) := by
  cases e with
  | accept i =>
    refine Or.inl ⟨?_, by simp⟩
    simp only [next, machine_put] at h
    split at h
    · rename_i hi
      subst hi
      cases hs : s.machine m <;> simp [hs, Handshake.accept] at h ⊢
      exact h
    · exact h
  | activate i =>
    refine Or.inl ⟨?_, by simp⟩
    simp only [next, machine_put] at h
    split at h
    · rename_i hi
      subst hi
      cases hs : s.machine m <;> simp [hs, Handshake.activate] at h ⊢
      exact h
    · exact h
  | close i =>
    refine Or.inl ⟨?_, by simp⟩
    simp only [next, machine_put] at h
    split at h
    · cases h
    · exact h
  | rotate id fresh => exact Or.inl ⟨h, by simp⟩
  | message i raw challenge =>
    by_cases hi : i = m
    · subst i
      simp only [next, machine_put, if_true] at h
      rcases Handshake.onText_cases s.service challenge (s.machine m) raw with
        ⟨e, he⟩ | ⟨key, found, -, hp, hk, hd, he⟩ | ⟨d, issued, mac, current, -, -, -, -, -, -, he⟩
      · rw [he] at h; cases h
      · rw [he] at h
        cases h
        exact Or.inr ⟨raw, key, rfl, hp, hk, hd, by simp only [answer, he]⟩
      · rw [he] at h; cases h
    · simp only [next, machine_put, if_neg (Ne.symm hi)] at h
      exact Or.inl ⟨h, by simp [hi]⟩

/-- A machine awaits a proof because of the last message that it took, the `hello` of a known
key. -/
theorem awaiting_origin {m : Nat} {device : DeviceRecord} {c : String} (es : List Event)
    (s : Handshakes) (h : (run s es).machine m = .awaitingHandshake device c) :
    (s.machine m = .awaitingHandshake device c ∧ ∀ raw challenge, .message m raw challenge ∉ es) ∨
    ∃ before raw key between, es = before ++ .message m raw c :: between ∧
      (∀ r challenge, .message m r challenge ∉ between) ∧
      ControlMessage.parse? raw = some (.hello key) ∧ key ≠ "" ∧
      (run s before).service.byApiKey key = .ok (some device) ∧
      answer (run s before) m raw c = .ok (.reply (.challenge c)) := by
  induction es generalizing s with
  | nil => exact Or.inl ⟨h, by simp⟩
  | cons e es ih =>
    rcases ih (next s e) h with ⟨hm, hnone⟩ | ⟨before, raw, key, between, rfl, hrest⟩
    · rcases awaiting_next hm with ⟨hs, hne⟩ | ⟨raw, key, rfl, hrest⟩
      · refine Or.inl ⟨hs, fun raw challenge hmem => ?_⟩
        rcases List.mem_cons.mp hmem with rfl | hmem
        · exact hne raw challenge rfl
        · exact hnone raw challenge hmem
      · exact Or.inr ⟨[], raw, key, es, rfl, hnone, hrest⟩
    · exact Or.inr ⟨e :: before, raw, key, between, rfl, hrest⟩

/-- What a machine that accepts a device has seen: a `hello` with the key of the device, no rotation
of that key since, and the proof for its own challenge under the device's record. -/
theorem accepted_origin {s : Handshakes} (hs : Static s) {m : Nat}
    (hm : s.machine m = .connected) (es : List Event) {raw challenge : String}
    {device : DeviceRecord} {message : ControlMessage}
    (h : answer (run s es) m raw challenge = .ok (.done device message)) :
    ∃ before hello key c between record mac, es = before ++ .message m hello c :: between ∧
      (∀ r challenge, .message m r challenge ∉ between) ∧
      ControlMessage.parse? hello = some (.hello key) ∧ key ≠ "" ∧
      (run s before).service.byApiKey key = .ok (some record) ∧
      record.deviceId = device.deviceId ∧
      answer (run s before) m hello c = .ok (.reply (.challenge c)) ∧
      (∀ fresh, .rotate device.deviceId fresh ∉ between) ∧
      ControlMessage.parse? raw = some (.handshake mac) ∧
      mac = Hmac.hex device.sharedSecret (device.apiKey ++ c).toUTF8 ∧
      (run s es).service.get device.deviceId = .ok (some device) := by
  simp only [answer] at h
  rcases Handshake.onText_cases (run s es).service challenge ((run s es).machine m) raw with
    ⟨e, he⟩ | ⟨key, d, -, -, -, -, he⟩ | ⟨named, c, mac, current, hw, hp, hget, hv, hk, hmac, he⟩
  · rw [he] at h; cases h
  · rw [he] at h; cases h
  · rw [he] at h
    cases h
    rcases awaiting_origin es s hw with
      ⟨hc, -⟩ | ⟨before, hello, key, between, rfl, hno, hh, hne, hb, ha⟩
    · rw [hm] at hc; cases hc
    · have ht := static_run hs before
      obtain ⟨hfound, -⟩ := ht.byApiKey hb
      have hnow := static_run hs (before ++ .message m hello c :: between)
      rw [hnow.get] at hget
      -- the record at the proof is the record at the `hello`, changed by the rotations in between
      obtain ⟨r, hr, hversion, hsame⟩ := get?_run hfound (.message m hello c :: between)
      rw [← run_append] at hr
      obtain rfl : r = device := Option.some.inj (hr.symm.trans (Except.ok.inj hget))
      have hnone : rotations named.deviceId between = 0 := by
        simp only [rotations] at hversion
        omega
      obtain rfl : r = named := hsame hnone
      exact ⟨before, hello, key, c, between, r, mac, rfl, hno, hh, hne, hb, rfl, ha,
        not_mem_of_rotations hnone, hp, hmac, by rw [hnow.get, hr]⟩

/-- Over every run of machines that share a directory: a machine accepts a device only behind its
own challenge to a `hello` with a key of the device that was not rotated since; it challenges at
most once and accepts at most once; an error closes it, and closed it refuses every message; a
failed activation changes nothing. -/
theorem accepts_fresh_proofs {d : Directory} {records : List DeviceRecord}
    (hd : Directory.ofRecords records = .ok d) (es : List Event) (m : Nat) :
    (∀ raw challenge device message,
      answer (run (start d) es) m raw challenge = .ok (.done device message) →
      ∃ before hello key c between record mac, es = before ++ .message m hello c :: between ∧
        (∀ r challenge, .message m r challenge ∉ between) ∧
        ControlMessage.parse? hello = some (.hello key) ∧ key ≠ "" ∧
        (run (start d) before).service.byApiKey key = .ok (some record) ∧
        record.deviceId = device.deviceId ∧
        answer (run (start d) before) m hello c = .ok (.reply (.challenge c)) ∧
        (∀ fresh, .rotate device.deviceId fresh ∉ between) ∧
        ControlMessage.parse? raw = some (.handshake mac) ∧
        mac = Hmac.hex device.sharedSecret (device.apiKey ++ c).toUTF8 ∧
        (run (start d) es).service.get device.deviceId = .ok (some device)) ∧
    (answers m (start d) es).countP challenges ≤ 1 ∧
    (answers m (start d) es).countP accepts ≤ 1 ∧
    (∀ raw challenge e, answer (run (start d) es) m raw challenge = .error e →
      (run (start d) (es ++ [.message m raw challenge])).machine m = .closed) ∧
    ((run (start d) es).machine m = .closed →
      ∀ later, ∀ a ∈ answers m (run (start d) es) later, ∃ e, a = .error e) ∧
    ∀ e, (Handshake.activate ((run (start d) es).machine m)).2 = .error e →
      run (start d) (es ++ [.activate m]) = run (start d) es := by
  have hs : Static (start d) := ⟨rfl, rfl, Directory.filed_ofRecords hd⟩
  refine ⟨fun raw challenge device message h => accepted_origin hs rfl es h, ?_, ?_, ?_, ?_, ?_⟩
  · exact countP_answers challenges m 1 (fun _ _ _ h => stage_challenges h) es (start d)
  · exact countP_answers accepts m 2 (fun _ _ _ h => stage_accepts h) es (start d)
  · intro raw challenge e h
    rw [run_append]
    exact error_closes h
  · intro h later
    exact answers_closed h later
  · intro e h
    rw [run_append]
    exact activate_failed h

theorem accepts_fresh_proofs_frame :
    let record : DeviceRecord := ⟨"frame-1", "key", "secret", 0, "", 22, "frame", none, {}⟩
    let d : Directory := ⟨[("frame-1", record)]⟩
    Directory.ofRecords [record] = .ok d ∧
      (answers 0 (start d) [.accept 0, .rotate "frame-1" "new"]).countP accepts ≤ 1 ∧
      run (start d) ([.accept 0] ++ [.activate 0]) = run (start d) [.accept 0] := by
  intro record d
  have hd : Directory.ofRecords [record] = .ok d := rfl
  refine ⟨hd, ?_, ?_⟩
  · exact (accepts_fresh_proofs hd [.accept 0, .rotate "frame-1" "new"] 0).2.2.1
  · exact (accepts_fresh_proofs hd [.accept 0] 0).2.2.2.2.2 _ rfl

end Handshakes

end FleetControl
