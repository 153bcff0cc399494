import FleetControl.Proofs.Gzip.Member
import FleetControl.Proofs.Remote.Exchange
import FleetControl.Remote.Channel

/-! # Uploading a file in chunks

Whatever the channel answers, the chunks of a file are sent in order, each until it is accepted or
given up, and an upload that ends well has handed over the file. -/
namespace FleetControl.ChannelTransport

open Program

variable {s : ChannelSettings} {device : DeviceRecord} {path : String} {data : ByteArray}

/-! ### One chunk -/

/-- The answers to the attempts at one chunk. Each but the last is a failure, and not that of an
unreachable device; a failure that ends the attempts is one, or the last attempt that is allowed. -/
structure Attempts (retries : Nat) (answers : List CommandOutcome) : Prop where
  pos : 1 ≤ answers.length
  bound : answers.length ≤ retries + 1
  again : ∀ a ∈ answers.dropLast, ∃ e, a = .error e ∧ ∀ id, e ≠ .deviceUnreachable id
  spent : ∀ e, answers.getLast? = some (.error e) →
    (∃ id, e = .deviceUnreachable id) ∨ answers.length = retries + 1

/-- The last attempt at a chunk was accepted. -/
def Accepted (answers : List CommandOutcome) : Prop := ∃ reply, answers.getLast? = some (.ok reply)

theorem isFinal_iff (e : ChannelError) : isFinal e = true ↔ ∃ id, e = .deviceUnreachable id := by
  cases e <;> simp [isFinal]

theorem attempts_once {retries : Nat} {a : CommandOutcome}
    (h : ∀ e, a = .error e → isFinal e = true ∨ retries = 0) : Attempts retries [a] := by
  constructor
  · simp
  · simp
  · simp
  · intro e he
    rw [List.getLast?_singleton, Option.some.injEq] at he
    rcases h e he with h | rfl
    · exact Or.inl ((isFinal_iff e).1 h)
    · exact Or.inr rfl

theorem attempts_again {retries : Nat} {answers : List CommandOutcome} {e : ChannelError}
    (h : Attempts retries answers) (he : isFinal e = false) :
    Attempts (retries + 1) (.error e :: answers) := by
  have hne : answers ≠ [] := List.ne_nil_of_length_pos h.pos
  constructor
  · simp
  · simpa using h.bound
  · intro a ha
    rw [List.dropLast_cons_of_ne_nil hne, List.mem_cons] at ha
    rcases ha with rfl | ha
    · refine ⟨e, rfl, fun id hid => ?_⟩
      rw [(isFinal_iff e).2 ⟨id, hid⟩] at he
      cases he
    · exact h.again a ha
  · intro d hd
    rw [List.getLast?_cons_of_ne_nil hne] at hd
    simpa using h.spent d hd

theorem send_run (s : ChannelSettings) (device : DeviceRecord) (command : Command)
    (blob : Option ByteArray) (w : Surroundings) (past : List Exchange) : ∃ answer, (send s device command blob).run w past =
      ([.send device.deviceId command blob s.timeout answer], answer) := ⟨_, rfl⟩

/-- A chunk is sent until it is accepted or given up, and ends with the last answer. -/
theorem sendChunk_run (s : ChannelSettings) (device : DeviceRecord) (write : FileWrite)
    (zipped : ByteArray) (retries : Nat) (w : Surroundings) (past : List Exchange) : ∃ answers last, Attempts retries answers ∧
      answers.getLast? = some last ∧
      (sendChunk s device write zipped retries).run w past =
        (answers.map (.send device.deviceId (.fileWrite write) (some zipped) s.timeout),
          last.map fun _ => ()) := by
  induction retries generalizing past with
  | zero =>
    obtain ⟨a, hsend⟩ := send_run s device (.fileWrite write) (some zipped) w past
    refine ⟨[a], a, attempts_once fun _ _ => Or.inr rfl, rfl, ?_⟩
    cases a with
    | ok reply => exact run_andThen hsend rfl
    | error e => exact run_andThen_error hsend
  | succ retries ih =>
    obtain ⟨a, hsend⟩ := send_run s device (.fileWrite write) (some zipped) w past
    cases a with
    | ok reply => exact ⟨[.ok reply], _, attempts_once nofun, rfl, run_bind hsend rfl⟩
    | error e =>
      cases he : isFinal e with
      | true =>
        refine ⟨[.error e], _, attempts_once ?_, rfl, run_bind hsend ?_⟩
        · rintro _ ⟨⟩
          exact Or.inl he
        · simp only [he, if_true]
          rfl
      | false =>
        obtain ⟨answers, last, h, hlast, hrun⟩ := ih (past ++ [_])
        refine ⟨.error e :: answers, last, attempts_again h he, ?_, run_bind hsend ?_⟩
        · rw [List.getLast?_cons_of_ne_nil (List.ne_nil_of_length_pos h.pos), hlast]
        · simp only [he, Bool.false_eq_true, if_false]
          exact hrun

/-! ### All chunks -/

/-- The part of a file in the chunk with a number. -/
def part (size : Nat) (data : ByteArray) (i : Nat) : ByteArray :=
  data.extract (i * size) (min (i * size + size) data.size)

/-- An attempt at the chunk with a number, and its answer. -/
def attempt (s : ChannelSettings) (device : DeviceRecord) (path : String) (data : ByteArray)
    (i : Nat) (answer : CommandOutcome) : Exchange :=
  let size := max s.chunkSize 1
  let zipped := Gzip.encode (part size data i)
  .send device.deviceId (.fileWrite ⟨path, zipped.size, some (i * size), some data.size⟩)
    (some zipped) s.timeout answer

/-- The attempts at the first of `n` chunks: the next chunk is begun when one was accepted, the
result is a success exactly when all were, and a failure is the last answer. -/
structure Rounds (retries n : Nat) (rounds : List (List CommandOutcome)) (result : Outcome Unit) :
    Prop where
  attempts : ∀ answers ∈ rounds, Attempts retries answers
  onward : ∀ answers ∈ rounds.dropLast, Accepted answers
  length : rounds.length ≤ n
  ok : result = .ok () ↔ rounds.length = n ∧ ∀ answers ∈ rounds, Accepted answers
  error : ∀ e, result = .error e ↔
    ∃ answers, rounds.getLast? = some answers ∧ answers.getLast? = some (.error e)

theorem rounds_accepted {retries n : Nat} {answers : List CommandOutcome} {reply : Reply}
    {rounds : List (List CommandOutcome)} {result : Outcome Unit} (ha : Attempts retries answers)
    (hlast : answers.getLast? = some (.ok reply)) (h : Rounds retries n rounds result) :
    Rounds retries (n + 1) (answers :: rounds) result := by
  have haccepted : Accepted answers := ⟨reply, hlast⟩
  constructor
  · simpa using ⟨ha, h.attempts⟩
  · cases rounds with
    | nil => simp
    | cons next rest => simpa using ⟨haccepted, h.onward⟩
  · simpa using h.length
  · rw [h.ok]
    simp [haccepted]
  · intro e
    rw [h.error]
    cases rounds with
    | nil => simp [hlast]
    | cons next rest => rw [List.getLast?_cons_cons]

theorem rounds_failed {retries n : Nat} {answers : List CommandOutcome} {e : ChannelError}
    (ha : Attempts retries answers) (hlast : answers.getLast? = some (.error e)) :
    Rounds retries (n + 1) [answers] (.error e) := by
  constructor
  · simpa using ha
  · simp
  · simp
  · simp [Accepted, hlast]
  · simp [hlast]

theorem sendChunks_cons (i : Nat) (rest : List Nat) :
    sendChunks s device path data (i :: rest) =
      let size := max s.chunkSize 1
      let zipped := Gzip.encode (part size data i)
      (sendChunk s device ⟨path, zipped.size, some (i * size), some data.size⟩ zipped
        s.chunkRetries).andThen fun _ => sendChunks s device path data rest := rfl

theorem sendChunks_run (s : ChannelSettings) (device : DeviceRecord) (path : String)
    (data : ByteArray) (numbers : List Nat) (w : Surroundings) (past : List Exchange) :
    ∃ rounds result,
    Rounds s.chunkRetries numbers.length rounds result ∧
      (sendChunks s device path data numbers).run w past =
        ((numbers.zip rounds).flatMap fun (i, answers) => answers.map (attempt s device path data i),
          result) := by
  induction numbers generalizing past with
  | nil => exact ⟨[], .ok (), ⟨by simp, by simp, by simp, by simp, by simp⟩, rfl⟩
  | cons i rest ih =>
    rw [sendChunks_cons]
    simp only
    generalize hzipped : Gzip.encode (part (max s.chunkSize 1) data i) = zipped
    obtain ⟨answers, last, h, hlast, hchunk⟩ := sendChunk_run s device
      ⟨path, zipped.size, some (i * max s.chunkSize 1), some data.size⟩ zipped s.chunkRetries w past
    have hattempt : attempt s device path data i = .send device.deviceId (.fileWrite
        ⟨path, zipped.size, some (i * max s.chunkSize 1), some data.size⟩) (some zipped)
        s.timeout := by
      rw [← hzipped]
      rfl
    rw [← hattempt] at hchunk
    cases last with
    | ok reply =>
      obtain ⟨rounds, result, hrounds, hrest⟩ := ih (past ++ _)
      exact ⟨answers :: rounds, result, rounds_accepted h hlast hrounds, run_andThen hchunk hrest⟩
    | error e =>
      refine ⟨[answers], .error e, rounds_failed h hlast, ?_⟩
      rw [List.zip_cons_cons, List.zip_nil_right, List.flatMap_singleton]
      exact run_andThen_error hchunk

/-! ### What is handed over -/

/-- The content that an accepted attempt handed over. -/
def handed? : Exchange → Option ByteArray
  | .send _ _ blob _ (.ok _) => blob
  | _ => none

/-- Of the attempts at a chunk, exactly the accepted one hands the chunk over. -/
theorem handed_attempts {retries i : Nat} {answers : List CommandOutcome}
    (h : Attempts retries answers) (ha : Accepted answers) :
    (answers.map (attempt s device path data i)).filterMap handed? =
      [Gzip.encode (part (max s.chunkSize 1) data i)] := by
  obtain ⟨reply, hlast⟩ := ha
  have hnone : (answers.dropLast.map (attempt s device path data i)).filterMap handed? = [] := by
    rw [List.filterMap_map, List.filterMap_eq_nil_iff]
    intro a hmem
    obtain ⟨e, rfl, _⟩ := h.again a hmem
    rfl
  rw [← List.dropLast_append_getLast? _ hlast, List.map_append, List.filterMap_append, hnone]
  rfl

theorem handed_rounds {retries : Nat} {numbers : List Nat} {rounds : List (List CommandOutcome)}
    (h : ∀ answers ∈ rounds, Attempts retries answers ∧ Accepted answers)
    (hlength : rounds.length = numbers.length) :
    ((numbers.zip rounds).flatMap fun (i, answers) =>
        answers.map (attempt s device path data i)).filterMap handed? =
      (numbers.map (part (max s.chunkSize 1) data)).map Gzip.encode := by
  induction numbers generalizing rounds with
  | nil => rfl
  | cons i rest ih =>
    cases rounds with
    | nil => cases hlength
    | cons answers rounds =>
      obtain ⟨⟨ha, haccepted⟩, hrest⟩ := List.forall_mem_cons.1 h
      rw [List.zip_cons_cons, List.flatMap_cons, List.filterMap_append,
        handed_attempts ha haccepted, ih hrest (Nat.succ.inj hlength)]
      rfl

theorem mapM_undone {gunzip : ByteArray → Option ByteArray}
    (undoes : ∀ content, gunzip (Gzip.encode content) = some content) (parts : List ByteArray) :
    (parts.map Gzip.encode).mapM gunzip = some parts := by
  induction parts with
  | nil => rfl
  | cons part rest ih =>
    rw [List.map_cons, List.mapM_cons, undoes, ih]
    rfl

theorem extract_congr {data : ByteArray} {m n : Nat} (h : min m data.size = min n data.size) :
    data.extract 0 m = data.extract 0 n := by
  apply ByteArray.ext_getElem
  · rw [ByteArray.size_extract, ByteArray.size_extract, h]
  · intro i _ _
    rw [ByteArray.getElem_extract, ByteArray.getElem_extract]

/-- The first parts of a file are its front. -/
theorem parts_join (size : Nat) (data : ByteArray) (n : Nat) :
    ((List.range n).map (part size data)).foldl (· ++ ·) ByteArray.empty =
      data.extract 0 (n * size) := by
  induction n with
  | zero => rw [Nat.zero_mul, ByteArray.extract_same]; rfl
  | succ n ih =>
    rw [List.range_succ, List.map_append, List.foldl_append, ih]
    simp only [List.map_cons, List.map_nil, List.foldl_cons, List.foldl_nil, part,
      ByteArray.extract_append_extract, Nat.succ_mul, Nat.zero_min]
    exact extract_congr (by omega)

/-- A file of `total` bytes is cut into `n` parts of `size` bytes, the last one maybe shorter; an
empty file is one part. -/
structure Cut (size total n : Nat) : Prop where
  covers : total ≤ n * size
  needed : 0 < total → (n - 1) * size < total
  empty : total = 0 → n = 1

theorem chunkCount_cut (s : ChannelSettings) (data : ByteArray) :
    Cut (max s.chunkSize 1) data.size (chunkCount s data) := by
  have hpos : 0 < max s.chunkSize 1 := by omega
  rw [chunkCount]
  generalize max s.chunkSize 1 = size at hpos
  have hlow := Nat.div_mul_le_self (data.size + size - 1) size
  have hhigh := Nat.lt_div_mul_add hpos (a := data.size + size - 1)
  generalize hq : (data.size + size - 1) / size = q at hlow hhigh
  constructor
  · have := Nat.mul_le_mul_right size (Nat.le_max_right 1 q)
    omega
  · intro hsize
    have hq1 : 1 ≤ q := by
      by_contra h
      obtain rfl : q = 0 := by omega
      omega
    rw [Nat.max_eq_right hq1, Nat.sub_mul]
    omega
  · intro hempty
    have hzero : q = 0 := by
      rw [← hq, hempty]
      exact Nat.div_eq_of_lt (by omega)
    rw [hzero]
    rfl

/-- An upload sends the chunks of a file in order, whatever the channel answers, and when it ends
well the contents of the accepted attempts decompress to the file, part by part. -/
theorem uploads_in_chunks {gunzip : ByteArray → Option ByteArray}
    (undoes : ∀ content, gunzip (Gzip.encode content) = some content) (s : ChannelSettings)
    (device : DeviceRecord) (path : String) (data : ByteArray) (w : Surroundings)
    (past : List Exchange) :
    Cut (max s.chunkSize 1) data.size (chunkCount s data) ∧ ∃ exchanges rounds result,
      (perform s device (.upload path data)).run w past =
        (exchanges, result.map fun _ => RemoteAnswer.done) ∧
      exchanges = ((List.range (chunkCount s data)).zip rounds).flatMap
        (fun (i, answers) => answers.map (attempt s device path data i)) ∧
      Rounds s.chunkRetries (chunkCount s data) rounds result ∧
      (result = .ok () → ∃ parts, (exchanges.filterMap handed?).mapM gunzip = some parts ∧
        parts.foldl (· ++ ·) ByteArray.empty = data) := by
  refine ⟨chunkCount_cut s data, ?_⟩
  obtain ⟨rounds, result, hrounds, hrun⟩ :=
    sendChunks_run s device path data (List.range (chunkCount s data)) w past
  rw [List.length_range] at hrounds
  refine ⟨_, rounds, result, ?_, rfl, hrounds, ?_⟩
  · exact run_mapOk _ hrun
  · intro hok
    obtain ⟨hlength, haccepted⟩ := hrounds.ok.1 hok
    rw [handed_rounds (fun answers ha => ⟨hrounds.attempts answers ha, haccepted answers ha⟩)
      (by rw [hlength, List.length_range])]
    refine ⟨_, mapM_undone undoes _, ?_⟩
    have hcovers := (chunkCount_cut s data).covers
    rw [parts_join, extract_congr (n := data.size) (by omega), ByteArray.extract_zero_size]

/-- A channel that loses the first command and carries out the others. -/
def lossy : Surroundings where
  alive _ _ := .ok 1
  channel past device command _ _ :=
    if past.isEmpty then .error (.timeout device command.name 1) else .ok {}
  ssh _ _ := .error .missing
  relay _ _ _ := .ok .done

/-- Three bytes in chunks of two over a channel that loses the first command: the first chunk is
sent twice. -/
theorem uploads_in_chunks_lossy :
    (∀ content, Gzip.decode? (Gzip.encode content) = some content) ∧ ∃ exchanges,
      (perform ⟨5000, 2, 1⟩ ⟨"d", "k", "s", 0, "", 22, "frame", none, {}⟩
        (.upload "/srv/a" ⟨#[1, 2, 3]⟩)).run lossy [] = (exchanges, .ok .done) ∧
      exchanges.length = 3 ∧ ∃ parts, (exchanges.filterMap handed?).mapM Gzip.decode? = some parts ∧
        parts.foldl (· ++ ·) ByteArray.empty = ⟨#[1, 2, 3]⟩ := by
  obtain ⟨_, exchanges, _, result, hrun, _, _, hdata⟩ :=
    uploads_in_chunks Gzip.decode?_encode ⟨5000, 2, 1⟩
      ⟨"d", "k", "s", 0, "", 22, "frame", none, {}⟩ "/srv/a" ⟨#[1, 2, 3]⟩ lossy []
  have hvalue := congrArg Prod.snd hrun
  have hlength := congrArg (fun r => r.1.length) hrun
  cases result with
  | error e => cases hvalue
  | ok => exact ⟨Gzip.decode?_encode, exchanges, hrun, hlength.symm, hdata rfl⟩

end FleetControl.ChannelTransport
