import FleetControl.Message.Device
import FleetControl.Proofs.Message.Payload
import FleetControl.Proofs.Uuid

/-! # Commands with integers only

Headers are the one place where a command holds numbers of any kind. With integers of 64 bits in
them, a command is read back from its own text, from its payload, and from the two members of the
payload that are its own. The tag of a payload is none of a device's. -/
namespace FleetControl

namespace Json

mutual

/-- The members of every object are in order. -/
def InOrder : Json → Prop
  | array items => InOrderItems items
  | object members => members.Pairwise (fun a b => a.1 < b.1) ∧ InOrderMembers members
  | _ => True

def InOrderItems : List Json → Prop
  | [] => True
  | item :: items => InOrder item ∧ InOrderItems items

def InOrderMembers : List (String × Json) → Prop
  | [] => True
  | (_, value) :: members => InOrder value ∧ InOrderMembers members

end

mutual

theorem faithful_of_integral : ∀ {v : Json}, v.InOrder → v.Integral → v.Faithful
  | null, _, _ => by rw [Faithful.eq_def]; trivial
  | bool _, _, _ => by rw [Faithful.eq_def]; trivial
  | string s, _, _ => faithful_string s
  | number (.int i), _, hi => by
    rw [Integral] at hi
    rw [Faithful, Number.Exact]
    exact hi
  | number (.double d), _, hi => by
    rw [Integral] at hi
    exact hi.elim
  | array items, ho, hi => by
    rw [InOrder] at ho
    rw [Integral] at hi
    rw [Faithful]
    exact faithfulItems_of_integral ho hi
  | object members, ho, hi => by
    rw [InOrder] at ho
    rw [Integral] at hi
    rw [Faithful]
    exact ⟨ho.1, faithfulMembers_of_integral ho.2 hi⟩

theorem faithfulItems_of_integral :
    ∀ {items : List Json}, InOrderItems items → IntegralItems items → FaithfulItems items
  | [], _, _ => by rw [FaithfulItems]; trivial
  | item :: items, ho, hi => by
    rw [InOrderItems] at ho
    rw [IntegralItems] at hi
    rw [FaithfulItems]
    exact ⟨faithful_of_integral ho.1 hi.1, faithfulItems_of_integral ho.2 hi.2⟩

theorem faithfulMembers_of_integral : ∀ {members : List (String × Json)},
    InOrderMembers members → IntegralMembers members → FaithfulMembers members
  | [], _, _ => by rw [FaithfulMembers]; trivial
  | (_, value) :: members, ho, hi => by
    rw [InOrderMembers] at ho
    rw [IntegralMembers] at hi
    rw [FaithfulMembers]
    exact ⟨faithful_of_integral ho.1 hi.1, faithfulMembers_of_integral ho.2 hi.2⟩

end

/-- An object that is made of members is not nested deeper than they are. -/
theorem nesting_ofMembers_le (members : List (String × Json)) :
    (ofMembers members).nesting ≤ (object members).nesting := by
  rw [ofMembers_eq, nesting, nesting, Nat.succ_le_succ_iff, nestingMembers_le]
  intro m hm
  exact nestingMembers_le.mp (Nat.le_refl _) m ((mem_store hm).resolve_left (by simp))

end Json

namespace Command

/-- Lengths fit 64 bits, and headers hold no numbers but integers. -/
def Integral : Command → Prop
  | fileWrite w => w.size < 2 ^ 64 ∧ (∀ n ∈ w.offset, n < 2 ^ 64) ∧ ∀ n ∈ w.total, n < 2 ^ 64
  | http r => ∀ headers ∈ r.headers, (Json.object headers).InOrder ∧ (Json.object headers).Integral
  | _ => True

theorem Integral.faithful {c : Command} (h : c.Integral) : c.Faithful := by
  cases c with
  | fileWrite w => exact h
  | http r =>
    intro headers hheaders
    obtain ⟨horder, hintegral⟩ := h headers hheaders
    exact Json.faithful_of_integral horder hintegral
  | _ => trivial

section Wire
variable {c : Command}

/-- A command is read from its wire text as it was written. -/
theorem parse_text (h : c.Faithful) (hdepth : c.written.nesting ≤ Tree.nestingLimit) :
    parse? c.text = some c := by
  rw [parse?, Tree.parse?, toList_text, Json.ofChars_spell Json.readBack_compact, Option.bind_some]
  exact ofTree_written h hdepth

theorem nesting_args : (Json.ofMembers c.args).nesting + 1 ≤ c.written.nesting := by
  have hargs := Json.nesting_ofMembers_le c.args
  simp only [written, Json.nesting, Json.nestingMembers] at hargs ⊢
  omega

/-- A payload is not nested deeper than the wire text of its command. -/
theorem nesting_payload (id : Uuid) : (c.payload id).nesting ≤ c.written.nesting := by
  have hargs : (Json.ofMembers c.args).nesting + 1 ≤ c.written.nesting := nesting_args
  simp only [payload_eq, Json.nesting, Json.nestingMembers]
  omega

section Members
variable (c) (id : Uuid)

theorem name_payload : (c.payload id).get? "name" = some (.string c.name) := by
  simp [payload_eq, Json.get?]

theorem args_payload : (c.payload id).get? "args" = some (Json.ofMembers c.args) := by
  simp [payload_eq, Json.get?]

theorem id_payload : (c.payload id).get? "id" = some (.string id.text) := by
  simp [payload_eq, Json.get?]

theorem type_payload : (c.payload id).get? "type" = some (.string "cmd") := by
  simp [payload_eq, Json.get?]

/-- A device has no message under the tag of a command. -/
theorem ofPayload_payload : DeviceMessage.ofPayload? (c.payload id) = some .unknown := by
  have htype := type_payload c id
  rw [payload_eq] at htype ⊢
  have hparts : DeviceMessage.parts? (.object [("args", Json.ofMembers c.args),
      ("id", .string id.text), ("name", .string c.name), ("type", .string "cmd")]) =
      some ⟨"cmd", fun _ name => (Json.object [("args", Json.ofMembers c.args),
        ("id", .string id.text), ("name", .string c.name), ("type", .string "cmd")]).get? name,
        0⟩ := by
    rw [DeviceMessage.parts?, htype]
  rw [DeviceMessage.ofPayload?, hparts]
  rfl

end Members

/-- The two members of a payload that are the command's own make an object that is read as the
command. -/
theorem ofTree_toJson {depth : Nat} (h : c.Faithful) (hdepth : c.written.nesting ≤ depth) :
    ofTree? depth c.toJson.tree = some c := by
  have hargs : (Json.ofMembers c.args).nesting + 1 ≤ c.written.nesting := nesting_args
  refine ofTree_of_parts h (by omega) ?_
  rw [toJson, Json.parts_ofMembers (by simp)]
  exact (Json.parts_tree _ (by simp)).trans rfl

end Wire

end Command

end FleetControl
