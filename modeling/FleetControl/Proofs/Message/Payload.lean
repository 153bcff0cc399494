import FleetControl.Proofs.Json.Members
import FleetControl.Proofs.Message.Command

/-! # Payloads of commands

The payload that carries a command under an identifier names both. Whoever reads it finds the
command as it was given, and the identifier. -/
namespace FleetControl.Command

/-- A command is read from its arguments by their names alone. -/
theorem ofParts_congr {args other : Tree} (h : ∀ names, args.parts? names = other.parts? names)
    (depth : Nat) (name : String) : ofParts? depth name args = ofParts? depth name other := by
  unfold ofParts? oneText? fileWrite? fileRename? http?
  simp only [h]

theorem faithful_args {c : Command} (h : c.Faithful) : ∀ m ∈ c.args, m.2.Faithful := by
  have hnat : ∀ n : Nat, n < 2 ^ 64 → (Json.int n).Faithful := by
    intro n hn
    rw [Json.int, Json.Faithful, Number.Exact]
    omega
  cases c with
  | fileWrite w =>
    obtain ⟨path, size, offset, total⟩ := w
    obtain ⟨hsize, hoffset, htotal⟩ := h
    cases offset <;> cases total <;> simp_all [args, given, Json.faithful_string]
  | http r =>
    obtain ⟨method, path, headers, body⟩ := r
    cases headers <;> cases body <;> simp_all [args, given, Faithful, Json.faithful_string]
  | _ => simp [args, Json.faithful_string]

/-- The payload as it is stored, its keys in order. -/
theorem payload_eq (c : Command) (id : Uuid) : c.payload id =
    .object [("args", Json.ofMembers c.args), ("id", .string id.text), ("name", .string c.name),
      ("type", .string "cmd")] := by
  have htype : "name" < "type" := by decide
  have hargs : "args" < "name" := by decide
  have hid : ¬ "id" < "args" := by decide
  have hname : "id" < "name" := by decide
  rw [payload, Json.ofMembers]
  simp [Json.insertMember, htype, hargs, hid, hname]

theorem faithful_payload {c : Command} (h : c.Faithful) (id : Uuid) : (c.payload id).Faithful := by
  refine Json.faithful_ofMembers ?_
  simp [Json.faithful_string, Json.faithful_ofMembers (faithful_args h)]

/-- A document with the name and the arguments of a command among its parts is read as the command,
in whichever order they come. -/
theorem ofTree_of_parts {c : Command} {tree : Tree} {depth : Nat} (h : c.Faithful)
    (hdepth : (Json.ofMembers c.args).nesting + 1 ≤ depth)
    (hparts : tree.parts? ["name", "args"] =
      some [some (Json.string c.name).tree, some (Json.ofMembers c.args).tree]) :
    ofTree? depth tree = some c := by
  obtain ⟨inner, rfl⟩ := Nat.exists_eq_succ_of_ne_zero (n := depth) (by omega)
  have hname : Tree.required Tree.asCase? (some (Json.string c.name).tree) = some c.name :=
    Json.asString_tree c.name
  have hvalue : Tree.value? inner (Json.ofMembers c.args).tree = some (Json.ofMembers c.args) :=
    Json.value_tree _ _ (Json.faithful_ofMembers (faithful_args h)) (by omega)
  have hread : ofParts? inner c.name (Json.ofMembers c.args).tree = some c := by
    rw [ofParts_congr (Json.parts_ofMembers (nodup_args c))]
    exact ofParts_args h (Nat.le_trans (Json.nesting_ofMembers (nodup_args c)) (by omega))
  unfold ofTree?
  rw [hparts]
  simp only [Tree.inside, Option.bind_eq_bind, Option.bind_some, hname, hvalue, Option.isNone_some,
    Bool.and_false, Bool.false_eq_true, if_false]
  exact hread

/-- A payload is read as its command. -/
theorem ofTree_payload {c : Command} {id : Uuid} {depth : Nat} (h : c.Faithful)
    (hdepth : (c.payload id).nesting ≤ depth) : ofTree? depth (c.payload id).tree = some c := by
  have hargs : (Json.ofMembers c.args).nesting + 1 ≤ depth := by
    simp only [payload_eq, Json.nesting, Json.nestingMembers] at hdepth
    omega
  refine ofTree_of_parts h hargs ?_
  rw [payload_eq]
  exact Json.parts_tree _ (by simp)

theorem parse_payload {c : Command} {id : Uuid} (h : c.Faithful)
    (hdepth : (c.payload id).nesting ≤ Tree.nestingLimit) :
    parse? (c.payload id).compact = some c := by
  rw [parse?, Tree.parse?, Json.toList_compact, Json.ofChars_spell Json.readBack_compact,
    Option.bind_some]
  exact ofTree_payload h hdepth

end FleetControl.Command
