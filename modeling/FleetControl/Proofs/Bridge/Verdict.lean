import FleetControl.Bridge.Reply
import FleetControl.Proofs.Json.Records

/-! # What becomes of an entry of a job list

Any text may stand on the job list of a device. A worker drops it, refuses it or takes it up, for
one of five reasons. The time that a job has left is a distance of two 64-bit words and wraps: a
deadline more than half the range before the clock counts as one far ahead. -/
namespace FleetControl.BridgeJob

/-- What a worker finds a text to be. -/
inductive Verdict where
  | unreadable
  | malformed (id : Uuid)
  | late
  | undecodable (id : Uuid)
  | sound (job : BridgeJob) (blob : Option ByteArray) (timeout : Nat)

/-- Whether a job with its deadline so far ahead of the clock counts as late. -/
def Late (ahead : Int) : Prop := (-2 ^ 63 ≤ ahead ∧ ahead ≤ 0) ∨ 2 ^ 63 ≤ ahead

instance (ahead : Int) : Decidable (Late ahead) :=
  inferInstanceAs (Decidable ((_ ≤ _ ∧ _ ≤ _) ∨ _ ≤ _))

/-- The time that is left to a job that is not late. -/
def timeLeft (ahead : Int) : Nat := (if ahead < -2 ^ 63 then ahead + 2 ^ 64 else ahead).toNat

/-- The bytes that a job carries, if its text for them is Base64. -/
def bytes? (job : BridgeJob) : Option (Option ByteArray) :=
  match job.blob with
  | none => some none
  | some text => (Base64.decode? text).map some

def verdict (raw : String) (clock : Int64) : Verdict :=
  match parse? raw with
  | none =>
    match readableId? raw with
    | none => .unreadable
    | some id => .malformed id
  | some job =>
    if Late (job.deadline - clock.toInt) then .late
    else
      match job.bytes? with
      | none => .undecodable job.id
      | some blob => .sound job blob (timeLeft (job.deadline - clock.toInt))

def Verdict.disposition : Verdict → Disposition
  | unreadable => .drop
  | malformed id => .refuse id (.failure .other "malformed job: not a job")
  | late => .drop
  | undecodable id => .refuse id (.failure .decode "bad blob: not base64")
  | sound job blob timeout => .accept job.id job.command blob timeout

theorem deadline_bounds {raw : String} {job : BridgeJob} (h : parse? raw = some job) :
    -2 ^ 63 ≤ job.deadline ∧ job.deadline ≤ 2 ^ 63 - 1 := by
  obtain ⟨tree, -, h⟩ := Option.bind_eq_some_iff.mp h
  obtain ⟨parts, -, h⟩ := Option.bind_eq_some_iff.mp h
  split at h
  · obtain ⟨id, -, h⟩ := Option.bind_eq_some_iff.mp h
    obtain ⟨deviceId, -, h⟩ := Option.bind_eq_some_iff.mp h
    obtain ⟨command, -, h⟩ := Option.bind_eq_some_iff.mp h
    obtain ⟨timeout, -, h⟩ := Option.bind_eq_some_iff.mp h
    obtain ⟨deadline, hdeadline, h⟩ := Option.bind_eq_some_iff.mp h
    obtain ⟨blob, -, h⟩ := Option.bind_eq_some_iff.mp h
    cases h
    exact Json.int64_bounds hdeadline
  · cases h

theorem remaining_toInt {deadline : Int} (hlow : -2 ^ 63 ≤ deadline)
    (hhigh : deadline ≤ 2 ^ 63 - 1) (wall : Int) :
    (remaining deadline wall).toInt = (deadline - (Int64.ofInt wall).toInt).bmod (2 ^ 64) := by
  rw [remaining, Int64.toInt_sub, Int64.toInt_ofInt_of_le (by simpa using hlow) (by simp; omega)]

/-- The word that a worker computes, read as an integer. -/
theorem remaining_cases {deadline : Int} (hlow : -2 ^ 63 ≤ deadline)
    (hhigh : deadline ≤ 2 ^ 63 - 1) (wall : Int) :
    let ahead := deadline - (Int64.ofInt wall).toInt
    (remaining deadline wall ≤ 0 ↔ Late ahead) ∧
      (¬ Late ahead → (remaining deadline wall).toInt.toNat = timeLeft ahead) := by
  have hclock := (Int64.ofInt wall).le_toInt
  have hclock' := (Int64.ofInt wall).toInt_lt
  dsimp only
  rw [Int64.le_iff_toInt_le, remaining_toInt hlow hhigh, Int64.toInt_zero]
  generalize (Int64.ofInt wall).toInt = clock at hclock hclock' ⊢
  unfold Late timeLeft
  by_cases hbelow : deadline - clock < -2 ^ 63
  · rw [if_pos hbelow, ← Int.add_bmod_right, Int.bmod_eq_of_le (by omega) (by omega)]
    omega
  · rw [if_neg hbelow]
    by_cases habove : 2 ^ 63 ≤ deadline - clock
    · rw [← Int.sub_bmod_right, Int.bmod_eq_of_le (by omega) (by omega)]
      omega
    · rw [Int.bmod_eq_of_le (by omega) (by omega)]
      omega

theorem dispose_eq (raw : String) (wall : Int) :
    dispose raw wall = (verdict raw (.ofInt wall)).disposition := by
  unfold dispose verdict
  cases hparse : parse? raw with
  | none =>
    dsimp only
    cases readableId? raw <;> rfl
  | some job =>
    obtain ⟨hlow, hhigh⟩ := deadline_bounds hparse
    obtain ⟨hlate, hleft⟩ := remaining_cases hlow hhigh wall
    dsimp only
    by_cases h : Late (job.deadline - (Int64.ofInt wall).toInt)
    · rw [if_pos (hlate.mpr h), if_pos h]
      rfl
    · rw [if_neg (mt hlate.mp h), if_neg h, hleft h, bytes?]
      cases job.blob with
      | none => rfl
      | some text =>
        dsimp only
        cases Base64.decode? text <;> rfl

end FleetControl.BridgeJob
