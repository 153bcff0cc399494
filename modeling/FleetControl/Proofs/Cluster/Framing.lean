import FleetControl.Cluster.Delivery
import FleetControl.Proofs.Bridge.Transfer
import FleetControl.Proofs.Envelope.Text
import FleetControl.Proofs.Message.Payload
import FleetControl.Proofs.Remote.Upload
import FleetControl.Proofs.Uuid

/-! # The frames of a command

A command goes out as one text frame, the signed envelope, and the pieces of its blob in binary
frames. Binary frames name no command; a receiver that knows how long each blob is tells from the
order alone which belongs to which. -/
namespace FleetControl
open ChannelTransport (part parts_join extract_congr)

/-- Whether a frame belongs to a message. -/
def Frame.isData : Frame → Bool
  | .text _ => true
  | .binary _ => true
  | _ => false

/-! ### Pieces of a blob -/

/-- A blob is cut into pieces of the size of a frame; only the last one may be shorter, and none is
empty. -/
structure Pieces (blob : ByteArray) (pieces : List ByteArray) : Prop where
  sizes : ∀ f ∈ pieces, 0 < f.size ∧ f.size ≤ blobFrameSize
  full : ∀ f ∈ pieces.dropLast, f.size = blobFrameSize
  joined : pieces.foldl (· ++ ·) ByteArray.empty = blob

theorem pieces_empty : Pieces ByteArray.empty [] := ⟨nofun, nofun, rfl⟩

theorem blobFrames_eq (blob : ByteArray) : blobFrames blob =
    (List.range ((blob.size + blobFrameSize - 1) / blobFrameSize)).map
      (part blobFrameSize blob) := by
  simp only [blobFrames, Nat.succ_mul]
  rfl

theorem size_part {size i : Nat} {data : ByteArray} (h : i * size < data.size) :
    (part size data i).size = min size (data.size - i * size) := by
  rw [part, ByteArray.size_extract]
  omega

/-- The parts of a blob that begin inside of it are its pieces, if they reach to its end. -/
theorem pieces_parts {blob : ByteArray} {n : Nat} (h : ∀ i < n, i * blobFrameSize < blob.size)
    (hend : blob.size ≤ n * blobFrameSize) :
    Pieces blob ((List.range n).map (part blobFrameSize blob)) where
  sizes f hf := by
    obtain ⟨i, hi, rfl⟩ := List.mem_map.mp hf
    have hbegins := h i (List.mem_range.mp hi)
    have hpos : 0 < blobFrameSize := by decide
    rw [size_part hbegins]
    omega
  full f hf := by
    rw [← List.map_dropLast] at hf
    obtain ⟨i, hi, rfl⟩ := List.mem_map.mp hf
    -- the part behind this one begins inside of the blob, too
    have hnext : i + 1 < n := by
      cases n with
      | zero => cases hi
      | succ n =>
        rw [List.range_succ, List.dropLast_concat, List.mem_range] at hi
        exact Nat.succ_lt_succ hi
    have hbegins := h (i + 1) hnext
    rw [Nat.succ_mul] at hbegins
    rw [size_part (by omega)]
    omega
  joined := by
    rw [parts_join, extract_congr (n := blob.size) (by omega)]
    exact ByteArray.extract_zero_size

theorem pieces_blobFrames (blob : ByteArray) : Pieces blob (blobFrames blob) := by
  have hpos : 0 < blobFrameSize := by decide
  rw [blobFrames_eq]
  have hlow := Nat.div_mul_le_self (blob.size + blobFrameSize - 1) blobFrameSize
  have hhigh := Nat.lt_div_mul_add hpos (a := blob.size + blobFrameSize - 1)
  refine pieces_parts (fun i hi => ?_) (by omega)
  have hle := Nat.mul_le_mul_right blobFrameSize (Nat.succ_le_of_lt hi)
  rw [Nat.succ_mul] at hle
  omega

/-! ### The frames of one command -/

/-- A command that a sender has taken up, and the second in which it has. -/
structure Order where
  item : QueuedCommand
  time : Nat

namespace Order

/-- The frames in which the command goes out. -/
def frames (device : DeviceRecord) (o : Order) : List Frame :=
  commandFrames device o.item o.time

theorem frames_data (device : DeviceRecord) (o : Order) :
    ∀ f ∈ o.frames device, f.isData = true := by
  intro f hf
  rcases List.mem_cons.mp hf with rfl | hf
  · rfl
  · obtain ⟨piece, -, rfl⟩ := List.mem_map.mp hf
    rfl

/-- What a device gets: the identifier, the command and its blob. -/
def content (o : Order) : Uuid × Command × Option ByteArray :=
  (o.item.id, o.item.command, o.item.blob)

/-- How long the blob is, if there is one. -/
def size? (o : Order) : Option Nat := o.item.blob.map ByteArray.size

/-- What the envelope of the command says. -/
def payload (o : Order) : Json := o.item.command.payload o.item.id

/-- The envelope of the command, signed for the device. -/
def envelope (device : DeviceRecord) (o : Order) : Envelope :=
  .sign o.payload o.time device.apiKey device.sharedSecret

/-- A command that is read from its envelope as it was given. -/
structure Travels (o : Order) : Prop where
  faithful : o.item.command.Faithful
  nesting : o.payload.nesting ≤ 126
  time : o.time < 2 ^ 63

end Order

/-- The frames of a command are its envelope and the pieces of its blob. The envelope is signed for
the device, and names the command, its arguments and its identifier. -/
structure Framed (device : DeviceRecord) (o : Order) (pieces : List ByteArray) : Prop where
  frames : o.frames device = .text (o.envelope device).text :: pieces.map .binary
  pieces : Pieces (o.item.blob.getD ByteArray.empty) pieces
  nonce : (o.envelope device).nonce = o.time
  verifies : (o.envelope device).verify device.apiKey device.sharedSecret = .ok o.payload
  type : o.payload.get? "type" = some (.string "cmd")
  name : o.payload.get? "name" = some (.string o.item.command.name)
  args : o.payload.get? "args" = some (Json.ofMembers o.item.command.args)
  id : o.payload.get? "id" = some (.string o.item.id.text)
  opens : o.Travels → Envelope.open? (o.envelope device).text device.apiKey device.sharedSecret =
    .ok (o.time, o.payload)

theorem framed (device : DeviceRecord) (o : Order) : ∃ pieces, Framed device o pieces := by
  have hverifies : (o.envelope device).verify device.apiKey device.sharedSecret = .ok o.payload :=
    Envelope.verify_sign rfl o.time device.apiKey device.sharedSecret
  have hpayload := o.item.command.payload_eq o.item.id
  refine ⟨(o.item.blob.map blobFrames).getD [], rfl, ?_, rfl, hverifies, ?_, ?_, ?_, ?_, ?_⟩
  · cases o.item.blob with
    | none => exact pieces_empty
    | some blob =>
      rw [Option.map_some, Option.getD_some, Option.getD_some]
      exact pieces_blobFrames blob
  · simp [Order.payload, hpayload, Json.get?]
  · simp [Order.payload, hpayload, Json.get?]
  · simp [Order.payload, hpayload, Json.get?]
  · simp [Order.payload, hpayload, Json.get?]
  · intro h
    have hread : Tree.value? 126 o.payload.tree = some o.payload :=
      Json.value_tree _ 126 (Command.faithful_payload h.faithful o.item.id) h.nesting
    have hlow : -(2 ^ 63) ≤ (o.time : Int) := by omega
    have hhigh : (o.time : Int) < 2 ^ 63 := by exact_mod_cast h.time
    rw [Envelope.open_text (e := o.envelope device) hlow hhigh hread, hverifies]
    rfl

/-! ### A receiver -/

/-- Takes binary frames until there are so many bytes. -/
def gather (size : Nat) : ByteArray → List Frame → Option (ByteArray × List Frame)
  | got, .binary piece :: rest =>
    if got.size < size then gather size (got ++ piece) rest else some (got, .binary piece :: rest)
  | got, rest => if got.size < size then none else some (got, rest)

/-- Reads a command and its identifier from an envelope. -/
def readCommand? (device : DeviceRecord) (raw : String) : Option (Uuid × Command) :=
  match Envelope.open? raw device.apiKey device.sharedSecret with
  | .ok (_, payload) => do
    let id ← ((payload.get? "id").bind Json.asString?).bind Uuid.parse?
    let command ← Command.parse? payload.compact
    pure (id, command)
  | .error _ => none

/-- Reads commands from frames. The receiver knows of each command how long its blob is. -/
def receive (device : DeviceRecord) :
    List (Option Nat) → List Frame → Option (List (Uuid × Command × Option ByteArray))
  | [], [] => some []
  | size :: sizes, .text raw :: frames => do
    let (id, command) ← readCommand? device raw
    let (blob, rest) ← gather (size.getD 0) ByteArray.empty frames
    let others ← receive device sizes rest
    pure ((id, command, size.map fun _ => blob) :: others)
  | _, _ => none

theorem size_le_foldl (pieces : List ByteArray) (got : ByteArray) :
    got.size ≤ (pieces.foldl (· ++ ·) got).size := by
  induction pieces generalizing got with
  | nil => exact Nat.le_refl _
  | cons piece pieces ih =>
    refine Nat.le_trans ?_ (ih (got ++ piece))
    rw [ByteArray.size_append]
    exact Nat.le_add_right _ _

theorem gather_done (got : ByteArray) (rest : List Frame) :
    gather got.size got rest = some (got, rest) := by
  unfold gather
  split <;> simp

/-- Pieces that are not empty are gathered again, whatever comes behind them. -/
theorem gather_pieces {pieces : List ByteArray} (h : ∀ f ∈ pieces, 0 < f.size) (got : ByteArray)
    (rest : List Frame) : gather (pieces.foldl (· ++ ·) got).size got
      (pieces.map .binary ++ rest) = some (pieces.foldl (· ++ ·) got, rest) := by
  induction pieces generalizing got with
  | nil => exact gather_done got rest
  | cons piece pieces ih =>
    obtain ⟨hpiece, hpieces⟩ := List.forall_mem_cons.mp h
    have hlt : got.size < (pieces.foldl (· ++ ·) (got ++ piece)).size := by
      refine Nat.lt_of_lt_of_le ?_ (size_le_foldl pieces (got ++ piece))
      rw [ByteArray.size_append]
      omega
    simp only [List.map_cons, List.cons_append, List.foldl_cons, gather]
    rw [if_pos hlt]
    exact ih hpieces (got ++ piece)

theorem Framed.readCommand {device : DeviceRecord} {o : Order} {pieces : List ByteArray}
    (h : Framed device o pieces) (ht : o.Travels) :
    readCommand? device (o.envelope device).text = some (o.item.id, o.item.command) := by
  have hparse : Command.parse? o.payload.compact = some o.item.command :=
    Command.parse_payload ht.faithful (Nat.le_succ_of_le ht.nesting)
  rw [readCommand?, h.opens ht]
  simp only [h.id, hparse, Option.bind_some, Json.asString?, Uuid.parse_text, Option.bind_eq_bind]
  rfl

theorem receive_frames {device : DeviceRecord} (orders : List Order)
    (h : ∀ o ∈ orders, o.Travels) :
    receive device (orders.map Order.size?) (orders.flatMap (Order.frames device)) =
      some (orders.map Order.content) := by
  induction orders with
  | nil => rfl
  | cons o orders ih =>
    obtain ⟨ho, horders⟩ := List.forall_mem_cons.mp h
    obtain ⟨pieces, hframed⟩ := framed device o
    have hsize : o.size?.getD 0 = (o.item.blob.getD ByteArray.empty).size := by
      rw [Order.size?]
      cases o.item.blob <;> rfl
    have hgather := gather_pieces (fun f hf => (hframed.pieces.sizes f hf).1) ByteArray.empty
      (orders.flatMap (Order.frames device))
    rw [hframed.pieces.joined] at hgather
    have hblob : o.size?.map (fun _ => o.item.blob.getD ByteArray.empty) = o.item.blob := by
      rw [Order.size?]
      cases o.item.blob <;> rfl
    rw [List.flatMap_cons, hframed.frames, List.map_cons, List.cons_append, receive,
      hframed.readCommand ho]
    simp only [Option.bind_eq_bind, Option.bind_some, hsize, hgather, ih horders, hblob]
    rfl

/-! ### A command that does not travel -/

open Cluster (weighing)

theorem payload_weighing (d : Double) (id : Uuid) : (weighing d).payload id =
    .object [("args", .object [("headers", .object [("x", .number (.double d))]),
      ("method", .string "GET"), ("path", .string "/")]), ("id", .string id.text),
      ("name", .string "http"), ("type", .string "cmd")] := by
  have hpath : ¬ "path" < "method" := by decide
  have hheaders : "headers" < "method" := by decide
  rw [Command.payload_eq]
  simp [weighing, Json.ofMembers, Json.insertMember, Command.name, Command.args, Command.given,
    hpath, hheaders]

/-- Written as 1.9999999999999997e-28. -/
def fine : Double := ⟨4192764351906603032⟩

/-- The double below, which that text is read as. -/
def finer : Double := ⟨4192764351906603031⟩

theorem reread_fine : (Number.double fine).reread = some (.double finer) := by
  decide +kernel

theorem reread_finer : (Number.double finer).reread = some (.double finer) := by
  decide +kernel

theorem faithful_finer : (weighing finer).Faithful := by
  rintro headers ⟨rfl⟩
  simp only [Json.Faithful, Json.FaithfulMembers, Number.Exact, List.pairwise_singleton, and_true,
    true_and]
  exact reread_finer

theorem nesting_weighing (d : Double) (id : Uuid) : ((weighing d).payload id).nesting = 3 := by
  simp [payload_weighing, Json.nesting, Json.nestingMembers]

/-- On the wire the two doubles are one. -/
theorem tree_fine (id : Uuid) :
    ((weighing fine).payload id).tree = ((weighing finer).payload id).tree := by
  simp only [payload_weighing, Json.tree, Json.treeMembers, reread_fine, reread_finer]

/-- A request with the first of them. -/
def weighed : Order := ⟨⟨⟨7⟩, "frame-1", weighing fine, none⟩, 0⟩

/-- The request is read as another one, if its envelope opens at all. -/
theorem readCommand_weighed (device : DeviceRecord) :
    readCommand? device (weighed.envelope device).text = none ∨
      readCommand? device (weighed.envelope device).text = some (⟨7⟩, weighing finer) := by
  have hread : Tree.value? 126 weighed.payload.tree = some ((weighing finer).payload ⟨7⟩) := by
    rw [Order.payload, weighed, tree_fine]
    refine Json.value_tree _ 126 (Command.faithful_payload faithful_finer ⟨7⟩) ?_
    rw [nesting_weighing]
    decide
  have hparse : Command.parse? ((weighing finer).payload ⟨7⟩).compact =
      some (weighing finer) := by
    refine Command.parse_payload faithful_finer ?_
    rw [nesting_weighing]
    decide
  have hid : ((weighing finer).payload ⟨7⟩).get? "id" = some (.string (Uuid.text ⟨7⟩)) := by
    simp [Command.payload_eq, Json.get?]
  let e : Envelope := { weighed.envelope device with payload := (weighing finer).payload ⟨7⟩ }
  have hopen : Envelope.open? (weighed.envelope device).text device.apiKey device.sharedSecret =
      (e.verify device.apiKey device.sharedSecret).map (e.nonce, ·) := by
    have hlow : -(2 ^ 63) ≤ (weighed.envelope device).nonce := by
      change -(2 ^ 63) ≤ (0 : Int)
      decide
    have hhigh : (weighed.envelope device).nonce < 2 ^ 63 := by
      change (0 : Int) < 2 ^ 63
      decide
    rw [Envelope.open?, Envelope.parse_text_eq hlow hhigh,
      show (weighed.envelope device).payload = weighed.payload from rfl, hread, Option.map_some]
  rw [readCommand?, hopen]
  rcases e.verify_cases device.apiKey device.sharedSecret with ⟨hok, -⟩ | ⟨reason, herror, -⟩
  · right
    rw [hok, Except.map]
    simp only [e, hid, hparse, Option.bind_some, Json.asString?, Uuid.parse_text,
      Option.bind_eq_bind]
    rfl
  · left
    rw [herror, Except.map]

end FleetControl
