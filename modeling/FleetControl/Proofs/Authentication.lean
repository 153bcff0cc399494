import FleetControl.Authentication
import FleetControl.Proofs.Handshake
import FleetControl.Proofs.Message.Control

/-! # How a handshake over a socket ends

A device is authenticated by the first two data frames, a `hello` and a proof in time, and by
nothing else; frames behind these are not looked at. A handshake that fails closes its machine,
unless the socket failed to receive or to send. -/
namespace FleetControl

namespace Incoming

/-- A frame with content. -/
def isData : Incoming → Bool
  | text _ => true
  | binary _ => true
  | _ => false

/-- A frame that never reaches the handshake. -/
def isControl : Incoming → Bool
  | ping _ => true
  | pong => true
  | _ => false

end Incoming

/-! ## The errors of the machine -/

theorem DirectoryService.error_eq {d : DirectoryService} {e : ChannelError} :
    (∀ key, d.byApiKey key = .error e → e = unavailable) ∧
    ∀ id, d.get id = .error e → e = unavailable := by
  constructor
  · intro key h
    unfold byApiKey at h
    split at h <;> cases h
    rfl
  · intro id h
    unfold get at h
    split at h <;> cases h
    rfl

namespace Handshake

theorem onHello_error {directory : DirectoryService} {challenge key : String}
    {s : HandshakeState} {e : ChannelError}
    (h : onHello directory challenge key = (s, .error e)) (reason : String) :
    e ≠ .transport reason := by
  rintro rfl
  unfold onHello at h
  split at h
  · cases h
  · split at h
    · rename_i he
      cases DirectoryService.error_eq.1 _ he
      cases h
    · cases h
    · cases h

theorem onProof_error {directory : DirectoryService} {device : DeviceRecord}
    {challenge mac : String} {s : HandshakeState} {e : ChannelError}
    (h : onProof directory device challenge mac = (s, .error e)) (reason : String) :
    e ≠ .transport reason := by
  rintro rfl
  unfold onProof at h
  split at h
  · rename_i he
    cases DirectoryService.error_eq.2 _ he
    cases h
  · cases h
  · split at h
    · cases h
    · rw [verifyChallenge, checkTag_eq] at h
      split at h
      · rename_i he
        split at he <;> cases he
        cases h
      · cases h

/-- The machine does not blame the transport. -/
theorem onText_error {directory : DirectoryService} {challenge raw : String}
    {s s' : HandshakeState} {e : ChannelError}
    (h : onText directory challenge s raw = (s', .error e)) (reason : String) :
    e ≠ .transport reason := by
  unfold onText at h
  split at h
  · cases h
    nofun
  · split at h
    · exact onHello_error h reason
    · exact onProof_error h reason
    · cases h
      nofun

/-- The first text is refused, or a device is challenged. -/
theorem onText_awaitingHello (directory : DirectoryService) (challenge raw : String) :
    (∃ e, onText directory challenge .awaitingHello raw = (.closed, .error e)) ∨
    ∃ device, onText directory challenge .awaitingHello raw =
      (.awaitingHandshake device challenge, .ok (.reply (.challenge challenge))) := by
  rcases onText_cases directory challenge .awaitingHello raw with
    ⟨e, he⟩ | ⟨-, device, -, -, -, -, he⟩ | ⟨_, _, _, _, hs, -⟩
  · exact Or.inl ⟨e, he⟩
  · exact Or.inr ⟨device, he⟩
  · cases hs

/-- The second text is refused, or a device is authenticated. -/
theorem onText_awaitingHandshake (directory : DirectoryService) (challenge raw : String)
    (claimed : DeviceRecord) (issued : String) :
    (∃ e, onText directory challenge (.awaitingHandshake claimed issued) raw =
      (.closed, .error e)) ∨
    ∃ device, onText directory challenge (.awaitingHandshake claimed issued) raw =
      (.authenticated device, .ok (.done device .handshakeOk)) := by
  rcases onText_cases directory challenge (.awaitingHandshake claimed issued) raw with
    ⟨e, he⟩ | ⟨_, _, hs, -⟩ | ⟨-, -, -, device, -, -, -, -, -, -, he⟩
  · exact Or.inl ⟨e, he⟩
  · cases hs
  · exact Or.inr ⟨device, he⟩

end Handshake

namespace Authentication

/-- A text that comes before the time for it is over, with nothing but pings and pongs ahead. -/
def Comes (limit waited : Nat) (raw : String) (arrivals rest : List Arrival) : Prop :=
  ∃ idle t, arrivals = idle ++ ⟨t, .text raw⟩ :: rest ∧
    (∀ a ∈ idle, a.incoming.isControl = true) ∧
    waited + (idle.map Arrival.after).sum + t ≤ limit

/-- The failure of a socket to receive or to send. -/
def Broken (e : ChannelError) : Prop :=
  (∃ reason, e = .transport ("WS recv failed: " ++ reason)) ∨ e = sendFailure

theorem not_broken_of_onText {setting : Setting} {s s' : HandshakeState} {raw : String}
    {e : ChannelError}
    (h : Handshake.onText setting.directory setting.challenge s raw = (s', .error e)) :
    ¬ Broken e := by
  rintro (⟨reason, he⟩ | he)
  · exact Handshake.onText_error h _ he
  · exact Handshake.onText_error h _ he

theorem not_broken_closed : ¬ Broken (.transport "socket closed during handshake") := by
  rintro (⟨reason, he⟩ | he)
  · have htext := congrArg String.toList (ChannelError.transport.inj he)
    rw [String.toList_append] at htext
    have hfirst := congrArg List.head? htext
    revert hfirst
    simp
  · revert he
    decide

/-- What comes of a text that was waited for. -/
def heard (setting : Setting) (state : HandshakeState) (sent : List String) (elapsed : Nat)
    (raw : String) (rest : List Arrival) : Report :=
  match Handshake.onText setting.directory setting.challenge state raw with
  | (s, .error e) => ⟨s, sent, elapsed, .error e⟩
  | (s, .ok (.reply m)) =>
    if setting.sendFails sent.length then ⟨s, sent, elapsed, .error sendFailure⟩
    else run setting s (sent ++ [m.text]) elapsed 0 rest
  | (s, .ok (.done device m)) =>
    if setting.sendFails sent.length then ⟨s, sent, elapsed, .error sendFailure⟩
    else ⟨s, sent ++ [m.text], elapsed, .ok device⟩

section Waiting

variable {setting : Setting} {state : HandshakeState} {sent : List String}
  {elapsed waited : Nat}

theorem run_text {t : Nat} {raw : String} (h : waited + t ≤ setting.limit)
    (rest : List Arrival) : run setting state sent elapsed waited (⟨t, .text raw⟩ :: rest) =
      heard setting state sent (elapsed + t) raw rest := by
  rw [run, if_neg (Nat.not_lt.mpr h), heard]
  simp only [Handshake.onIncoming]
  rcases Handshake.onText setting.directory setting.challenge state raw with ⟨s, _ | _ | _⟩ <;> rfl

theorem run_control {a : Arrival} (hc : a.incoming.isControl = true)
    (h : waited + a.after ≤ setting.limit) (rest : List Arrival) :
    run setting state sent elapsed waited (a :: rest) =
      run setting state sent (elapsed + a.after) (waited + a.after) rest := by
  obtain ⟨t, incoming⟩ := a
  rw [run, if_neg (Nat.not_lt.mpr h)]
  cases incoming with
  | ping data => rfl
  | pong => rfl
  | text raw => cases hc
  | binary data => cases hc
  | closed => cases hc
  | failed reason => cases hc

/-- The text that comes is the one that is heard. -/
theorem run_of_comes (state : HandshakeState) (sent : List String) (elapsed : Nat) {raw : String}
    {arrivals rest : List Arrival} (h : Comes setting.limit waited raw arrivals rest) : ∃ later,
      run setting state sent elapsed waited arrivals = heard setting state sent later raw rest := by
  obtain ⟨idle, t, rfl, hidle, htime⟩ := h
  induction idle generalizing elapsed waited with
  | nil =>
    refine ⟨elapsed + t, run_text ?_ rest⟩
    simpa using htime
  | cons a idle ih =>
    obtain ⟨ha, hidle⟩ := List.forall_mem_cons.mp hidle
    rw [List.map_cons, List.sum_cons] at htime
    have hrest : waited + a.after + (idle.map Arrival.after).sum + t ≤ setting.limit := by omega
    obtain ⟨later, hlater⟩ := ih (elapsed + a.after) hidle hrest
    exact ⟨later, by rw [List.cons_append, run_control ha (by omega), hlater]⟩

/-- Either a text comes, or the wait ends the handshake: with the machine as it was if the socket
failed to receive, and else with the machine closed. -/
theorem run_cases (setting : Setting) (state : HandshakeState) (sent : List String)
    (arrivals : List Arrival) (elapsed waited : Nat) :
    (∃ raw rest, Comes setting.limit waited raw arrivals rest) ∨
    ∃ final later e, run setting state sent elapsed waited arrivals =
      ⟨final, sent, later, .error e⟩ ∧
        ((final = .closed ∧ ¬ Broken e) ∨ (final = state ∧ Broken e)) := by
  induction arrivals generalizing elapsed waited with
  | nil =>
    right
    rw [run]
    split
    · refine ⟨_, _, _, rfl, Or.inl ⟨rfl, ?_⟩⟩
      rintro (⟨reason, he⟩ | he) <;> cases he
    · exact ⟨_, _, _, rfl, Or.inl ⟨rfl, not_broken_closed⟩⟩
  | cons a rest ih =>
    by_cases hlate : waited + a.after > setting.limit
    · right
      rw [run, if_pos hlate]
      refine ⟨_, _, _, rfl, Or.inl ⟨rfl, ?_⟩⟩
      rintro (⟨reason, he⟩ | he) <;> cases he
    · by_cases hc : a.incoming.isControl = true
      · rw [run_control hc (by omega)]
        rcases ih (elapsed + a.after) (waited + a.after) with ⟨raw, behind, hcomes⟩ | hover
        · obtain ⟨idle, t, rfl, hidle, htime⟩ := hcomes
          refine Or.inl ⟨raw, behind, a :: idle, t, rfl, ?_, ?_⟩
          · exact List.forall_mem_cons.mpr ⟨hc, hidle⟩
          · rw [List.map_cons, List.sum_cons]
            omega
        · exact Or.inr hover
      · obtain ⟨t, incoming⟩ := a
        cases incoming with
        | ping data => exact absurd rfl hc
        | pong => exact absurd rfl hc
        | text raw =>
          refine Or.inl ⟨raw, rest, [], t, rfl, nofun, ?_⟩
          simpa using Nat.not_lt.mp hlate
        | binary data =>
          right
          rw [run, if_neg hlate]
          refine ⟨_, _, _, rfl, Or.inl ⟨rfl, ?_⟩⟩
          rintro (⟨reason, he⟩ | he) <;> cases he
        | closed =>
          right
          rw [run, if_neg hlate]
          exact ⟨_, _, _, rfl, Or.inl ⟨rfl, not_broken_closed⟩⟩
        | failed reason =>
          right
          rw [run, if_neg hlate]
          exact ⟨_, _, _, rfl, Or.inr ⟨rfl, Or.inl ⟨reason, rfl⟩⟩⟩

/-- The data frames that a stage looks at. -/
def frames : HandshakeState → Nat
  | .awaitingHello => 2
  | _ => 1

/-- Behind its data frames a stage does not look at anything. -/
theorem run_append {front : List Arrival} (h : frames state ≤ front.countP (·.incoming.isData))
    (rest : List Arrival) : run setting state sent elapsed waited (front ++ rest) =
      run setting state sent elapsed waited front := by
  induction front generalizing state sent elapsed waited with
  | nil =>
    cases state <;> cases h
  | cons a front ih =>
    rw [List.cons_append]
    by_cases hlate : waited + a.after > setting.limit
    · rw [run, run, if_pos hlate, if_pos hlate]
    · rw [List.countP_cons] at h
      obtain ⟨t, incoming⟩ := a
      cases incoming with
      | text raw =>
        rw [run_text (Nat.not_lt.mp hlate), run_text (Nat.not_lt.mp hlate), heard, heard]
        rcases Handshake.onText_cases setting.directory setting.challenge state raw with
          ⟨e, he⟩ | ⟨key, device, rfl, -, -, -, he⟩ | ⟨_, _, _, device, rfl, -, -, -, -, -, he⟩
        · rw [he]
        · -- the one text that the handshake goes on behind
          rw [he]
          dsimp only
          split
          · rfl
          · refine ih ?_
            simp only [frames, Incoming.isData] at h ⊢
            simpa using h
        · rw [he]
      | ping data =>
        rw [run_control rfl (Nat.not_lt.mp hlate), run_control rfl (Nat.not_lt.mp hlate), ih h]
      | pong =>
        rw [run_control rfl (Nat.not_lt.mp hlate), run_control rfl (Nat.not_lt.mp hlate), ih h]
      | binary data => rw [run, run]; rfl
      | closed => rw [run, run]; rfl
      | failed reason => rw [run, run]; rfl

end Waiting

/-- The first two data frames are a `hello` and a proof that the machine accepts, each in time, and
both replies are sent. -/
def Proves (setting : Setting) (arrivals : List Arrival) (device : DeviceRecord) : Prop :=
  ∃ hello proof behind rest greeted proven challenge welcome,
    Comes setting.limit 0 hello arrivals behind ∧
    Handshake.onText setting.directory setting.challenge .awaitingHello hello =
      (greeted, .ok (.reply challenge)) ∧
    setting.sendFails 0 = false ∧
    Comes setting.limit 0 proof behind rest ∧
    Handshake.onText setting.directory setting.challenge greeted proof =
      (proven, .ok (.done device welcome)) ∧
    setting.sendFails 1 = false

/-- A failure after which the machine is closed unless the socket broke. -/
def Fails (report : Report) : Prop :=
  ∃ e, report.result = .error e ∧ (report.state = .closed ↔ ¬ Broken e)

section Outcomes

variable {setting : Setting}

theorem fails_of_wait {final state : HandshakeState} {sent : List String} {later : Nat}
    {e : ChannelError} (h : (final = .closed ∧ ¬ Broken e) ∨ (final = state ∧ Broken e))
    (hstate : state ≠ .closed) :
    Fails ⟨final, sent, later, .error e⟩ := by
  refine ⟨e, rfl, ?_⟩
  rcases h with ⟨rfl, hsound⟩ | ⟨rfl, hbroken⟩
  · exact iff_of_true rfl hsound
  · exact iff_of_false hstate (not_not.mpr hbroken)

theorem fails_of_send {state : HandshakeState} (sent : List String) (elapsed : Nat)
    (hstate : state ≠ .closed) : Fails ⟨state, sent, elapsed, .error sendFailure⟩ :=
  ⟨_, rfl, iff_of_false hstate (not_not.mpr (Or.inr rfl))⟩

theorem fails_of_onText {s : HandshakeState} {raw : String} {e : ChannelError}
    (h : Handshake.onText setting.directory setting.challenge s raw = (.closed, .error e))
    (sent : List String) (elapsed : Nat) : Fails ⟨.closed, sent, elapsed, .error e⟩ :=
  ⟨e, rfl, iff_of_true rfl (not_broken_of_onText h)⟩

/-- The second half of a handshake. -/
theorem proof_cases (setting : Setting) (claimed : DeviceRecord) (issued : String) (sent : List String)
    (elapsed : Nat) (arrivals : List Arrival) :
    (∃ proof rest device,
      Comes setting.limit 0 proof arrivals rest ∧
      Handshake.onText setting.directory setting.challenge (.awaitingHandshake claimed issued)
        proof = (.authenticated device, .ok (.done device .handshakeOk)) ∧
      setting.sendFails sent.length = false ∧
      (run setting (.awaitingHandshake claimed issued) sent elapsed 0 arrivals).result =
        .ok device) ∨
    Fails (run setting (.awaitingHandshake claimed issued) sent elapsed 0 arrivals) := by
  rcases run_cases setting (.awaitingHandshake claimed issued) sent arrivals elapsed 0 with
    ⟨proof, rest, hcomes⟩ | ⟨final, later, e, hrun, hend⟩
  · obtain ⟨later, hrun⟩ := run_of_comes (.awaitingHandshake claimed issued) sent elapsed hcomes
    rw [hrun, heard]
    rcases Handshake.onText_awaitingHandshake setting.directory setting.challenge proof claimed
      issued with ⟨e, he⟩ | ⟨device, hdone⟩
    · rw [he]
      exact Or.inr (fails_of_onText he sent later)
    · rw [hdone]
      cases hsend : setting.sendFails sent.length with
      | true => exact Or.inr (fails_of_send sent later nofun)
      | false => exact Or.inl ⟨proof, rest, device, hcomes, hdone, rfl, rfl⟩
  · rw [hrun]
    exact Or.inr (fails_of_wait hend nofun)

theorem authenticate_cases (setting : Setting) (arrivals : List Arrival) :
    (∃ device, Proves setting arrivals device ∧
      (authenticate setting .connected arrivals).result = .ok device) ∨
    Fails (authenticate setting .connected arrivals) := by
  change (∃ device, _ ∧ (run setting .awaitingHello [] 0 0 arrivals).result = _) ∨
    Fails (run setting .awaitingHello [] 0 0 arrivals)
  rcases run_cases setting .awaitingHello [] arrivals 0 0 with
    ⟨hello, behind, hcomes⟩ | ⟨final, later, e, hrun, hend⟩
  · obtain ⟨later, hrun⟩ := run_of_comes .awaitingHello [] 0 hcomes
    rw [hrun, heard]
    rcases Handshake.onText_awaitingHello setting.directory setting.challenge hello with
      ⟨e, he⟩ | ⟨claimed, hreply⟩
    · rw [he]
      exact Or.inr (fails_of_onText he [] later)
    · rw [hreply]
      dsimp only [List.length_nil, List.nil_append]
      cases hsend : setting.sendFails 0 with
      | true =>
        exact Or.inr (fails_of_send [] later nofun)
      | false =>
        rcases proof_cases setting claimed setting.challenge
          [(ControlMessage.challenge setting.challenge).text] later behind with
          ⟨proof, rest, device, hproof, hdone, hsent, hok⟩ | hfails
        · exact Or.inl ⟨device, ⟨hello, proof, behind, rest, _, _, _, _, hcomes, hreply, hsend,
            hproof, hdone, hsent⟩, hok⟩
        · exact Or.inr hfails
  · rw [hrun]
    exact Or.inr (fails_of_wait hend nofun)

theorem authenticate_of_proves {arrivals : List Arrival} {device : DeviceRecord}
    (h : Proves setting arrivals device) :
    (authenticate setting .connected arrivals).result = .ok device := by
  obtain ⟨hello, proof, behind, rest, greeted, proven, challenge, welcome, hhello, hreply, hfirst,
    hproof, hdone, hsecond⟩ := h
  obtain ⟨later, hrun⟩ := run_of_comes .awaitingHello [] 0 hhello
  obtain ⟨latest, hlast⟩ := run_of_comes greeted [challenge.text] later hproof
  change (run setting .awaitingHello [] 0 0 arrivals).result = _
  rw [hrun, heard, hreply]
  simp only [List.length_nil, hfirst, Bool.false_eq_true, if_false, List.nil_append]
  rw [hlast, heard, hdone]
  simp only [List.length_singleton, hsecond, Bool.false_eq_true, if_false]

end Outcomes

/-- A device is authenticated exactly by a `hello` and a proof as the first two data frames, each in
time, with both replies sent. Nothing behind the second data frame is looked at. A handshake that
fails leaves the machine closed exactly if the socket did not fail to receive or to send. -/
theorem authenticates_by_two (setting : Setting) (arrivals : List Arrival) :
    (∀ device, (authenticate setting .connected arrivals).result = .ok device ↔
      Proves setting arrivals device) ∧
    (∀ front rest, arrivals = front ++ rest → 2 ≤ front.countP (·.incoming.isData) →
      authenticate setting .connected arrivals = authenticate setting .connected front) ∧
    ∀ e, (authenticate setting .connected arrivals).result = .error e →
      ((authenticate setting .connected arrivals).state = .closed ↔ ¬ Broken e) := by
  refine ⟨fun device => ⟨fun hok => ?_, authenticate_of_proves⟩, ?_, fun e he => ?_⟩
  · rcases authenticate_cases setting arrivals with ⟨found, hproves, hfound⟩ | hfails
    · rw [hok] at hfound
      cases hfound
      exact hproves
    · obtain ⟨e, he, -⟩ := hfails
      rw [hok] at he
      cases he
  · rintro front rest rfl hdata
    have hframes : frames .awaitingHello ≤ front.countP (·.incoming.isData) := hdata
    exact run_append hframes rest
  · rcases authenticate_cases setting arrivals with ⟨found, -, hfound⟩ | hfails
    · rw [he] at hfound
      cases hfound
    · obtain ⟨e', he', hclosed⟩ := hfails
      rw [he] at he'
      cases he'
      exact hclosed

def frame : DeviceRecord := ⟨"frame-1", "k1", "s1", 0, "", 22, "frame", none, {}⟩

/-- One device, and a socket whose sends fail or not. -/
def framed (mute : Bool) : Setting where
  directory := { directory := ⟨[("frame-1", frame)]⟩ }
  challenge := "c0ffee"
  limit := 30000
  silentEnd := true
  sendFails := fun _ => mute

theorem onText_hello (mute : Bool) :
    Handshake.onText (framed mute).directory (framed mute).challenge .awaitingHello
      (ControlMessage.hello "k1").text =
      (.awaitingHandshake frame "c0ffee", .ok (.reply (.challenge "c0ffee"))) := by
  rw [Handshake.onText, ControlMessage.parse_text]
  rfl

theorem onProof_frame (mute : Bool) {mac : String}
    (hmac : verifyChallenge "k1" "c0ffee" "s1" mac = .ok ()) :
    Handshake.onProof (framed mute).directory frame "c0ffee" mac =
      (.authenticated frame, .ok (.done frame .handshakeOk)) := by
  have hget : (framed mute).directory.get "frame-1" = .ok (some frame) := rfl
  dsimp only [Handshake.onProof]
  rw [show frame.deviceId = "frame-1" from rfl, hget]
  simp only [ne_eq, not_true_eq_false, or_self, if_false, frame, hmac]

theorem onText_proof (mute : Bool) :
    Handshake.onText (framed mute).directory (framed mute).challenge
      (.awaitingHandshake frame "c0ffee")
      (ControlMessage.handshake (challengeMac "k1" "c0ffee" "s1")).text =
      (.authenticated frame, .ok (.done frame .handshakeOk)) := by
  rw [Handshake.onText, ControlMessage.parse_text]
  exact onProof_frame mute (checkTag_eq_ok.mpr rfl)

/-- Both texts at the very end of their times, and more behind them. -/
def greeting : List Arrival :=
  [⟨20000, .ping ByteArray.empty⟩, ⟨10000, .text (ControlMessage.hello "k1").text⟩,
    ⟨30000, .text (ControlMessage.handshake (challengeMac "k1" "c0ffee" "s1")).text⟩,
    ⟨0, .binary ByteArray.empty⟩]

theorem proves_greeting : Proves (framed false) greeting frame := by
  refine ⟨_, _, greeting.drop 2, greeting.drop 3, _, _, _, _, ⟨greeting.take 1, 10000, rfl, ?_, ?_⟩,
    onText_hello false, rfl, ⟨[], 30000, rfl, nofun, ?_⟩, onText_proof false, rfl⟩
  · simp [greeting, Incoming.isControl]
  · simp [greeting, framed]
  · simp [framed]

theorem authenticates_by_two_greeting :
    (authenticate (framed false) .connected greeting).result = .ok frame ∧
    authenticate (framed false) .connected greeting =
      authenticate (framed false) .connected (greeting.take 3) ∧
    (authenticate (framed true) .connected [⟨0, .binary ByteArray.empty⟩]).result =
      .error (.invalidMessage "binary frame during handshake") ∧
    (authenticate (framed true) .connected [⟨0, .binary ByteArray.empty⟩]).state = .closed := by
  obtain ⟨hok, hbehind, -⟩ := authenticates_by_two (framed false) greeting
  obtain ⟨-, -, hclosed⟩ := authenticates_by_two (framed true) [⟨0, .binary ByteArray.empty⟩]
  have hresult : (authenticate (framed true) .connected [⟨0, .binary ByteArray.empty⟩]).result =
      .error (.invalidMessage "binary frame during handshake") := by decide +kernel
  refine ⟨(hok frame).mpr proves_greeting,
    hbehind (greeting.take 3) (greeting.drop 3) rfl (by simp [greeting, Incoming.isData]),
    hresult, (hclosed _ hresult).mpr ?_⟩
  rintro (⟨reason, he⟩ | he) <;> cases he

/-- A handshake that a socket broke leaves its machine open: waiting for the first text still, or
for the proof under a challenge that was never sent. -/
theorem broken_left_open :
    ((authenticate (framed false) .connected [⟨0, .failed "reset by peer"⟩]).result =
        .error (.transport "WS recv failed: reset by peer") ∧
      (authenticate (framed false) .connected [⟨0, .failed "reset by peer"⟩]).state =
        .awaitingHello) ∧
    (authenticate (framed true) .connected
        [⟨0, .text (ControlMessage.hello "k1").text⟩]).result = .error sendFailure ∧
      (authenticate (framed true) .connected [⟨0, .text (ControlMessage.hello "k1").text⟩]).state =
        .awaitingHandshake frame "c0ffee" := by
  have hsend : authenticate (framed true) .connected [⟨0, .text (ControlMessage.hello "k1").text⟩] =
      ⟨.awaitingHandshake frame "c0ffee", [], 0, .error sendFailure⟩ := by
    change run (framed true) .awaitingHello [] 0 0 _ = _
    rw [run_text (Nat.zero_le _), heard, onText_hello true]
    rfl
  rw [hsend]
  exact ⟨⟨rfl, rfl⟩, rfl, rfl⟩

end Authentication

end FleetControl
