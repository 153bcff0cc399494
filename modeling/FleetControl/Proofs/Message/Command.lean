import FleetControl.Message.Command
import FleetControl.Proofs.Json.Records

/-! # Reading commands back

A command is read from its wire text as it was written, with every argument that was given and
none that was not. -/
namespace FleetControl.Command

/-- Lengths fit 64 bits, and headers read back. -/
def Faithful : Command → Prop
  | fileWrite w => w.size < 2 ^ 64 ∧ (∀ n ∈ w.offset, n < 2 ^ 64) ∧ ∀ n ∈ w.total, n < 2 ^ 64
  | http r => ∀ headers ∈ r.headers, (Json.object headers).Faithful
  | _ => True

/-- A command as it is written, its name first. -/
def written (c : Command) : Json :=
  .object [("name", .string c.name), ("args", .object c.args)]

theorem toList_text (c : Command) : c.text.toList = Json.spell Json.compactEscape c.written := by
  have hopen : "\x7b\"name\":".toList =
      '\x7b' :: Json.spellString Json.compactEscape "name" ++ [':'] := rfl
  have hargs : ",\"args\":".toList =
      ',' :: Json.spellString Json.compactEscape "args" ++ [':'] := rfl
  simp only [text, String.toList_append, hopen, hargs, Json.toList_quoted, Json.toList_compact,
    written, Json.spell, Json.spellMembers, List.cons_append, List.nil_append, List.append_assoc]
  rfl

theorem nodup_args (c : Command) : (c.args.map (·.1)).Nodup := by
  cases c with
  | fileWrite w =>
    obtain ⟨path, size, offset, total⟩ := w
    cases offset <;> cases total <;> simp [args, given]
  | http r =>
    obtain ⟨method, path, headers, body⟩ := r
    cases headers <;> cases body <;> simp [args, given]
  | fileRename src dst => simp [args]
  | _ => exact List.nodup_singleton _

theorem asNat_tree {n : Nat} (h : n < 2 ^ 64) :
    Tree.asNat? 64 (Json.int n).tree = some n := by
  have hexact : (Number.int n).reread = some (.int n) :=
    Number.Exact.reread ⟨by omega, by omega⟩
  rw [Json.int, Json.tree, hexact, Tree.asNat?, Tree.asInt?, if_pos (by omega)]
  rfl

theorem asMembers_tree {members : List (String × Json)} {depth : Nat}
    (h : (Json.object members).Faithful) (hdepth : (Json.object members).nesting ≤ depth) :
    Tree.asMembers? depth (Json.object members).tree = some members := by
  rw [Tree.asMembers?, Json.value_tree _ _ h hdepth]

theorem object_tree_ne_null (members : List (String × Json)) :
    (Json.object members).tree ≠ .null := by
  simp [Json.tree]

theorem int_tree_ne_null (n : Nat) : (Json.int n).tree ≠ .null := by
  simp [Json.int, Json.tree]

theorem optional_nat {o : Option Nat} (h : ∀ n ∈ o, n < 2 ^ 64) :
    Tree.optional (Tree.asNat? 64) (o.map fun n : Nat => (Json.int n).tree) = some o :=
  Json.optional_tree (fun n hn => asNat_tree (h n hn)) int_tree_ne_null

theorem oneText_tree (field : String) (make : String → Command) (s : String) :
    oneText? field make (Json.object [(field, .string s)]).tree = some (make s) := by
  have hparts : (Json.object [(field, .string s)]).tree.parts? [field] =
      some [some (Json.string s).tree] := by
    rw [Json.parts_tree _ (by simp)]
    simp [Json.get?]
  rw [oneText?, hparts]
  simp [Tree.required, Json.asString_tree]

theorem parts_fileWrite (w : FileWrite) :
    (Json.object (fileWrite w).args).tree.parts? ["path", "size", "offset", "total"] =
      some [some (Json.string w.path).tree, some (Json.int w.size).tree,
        w.offset.map fun n : Nat => (Json.int n).tree,
        w.total.map fun n : Nat => (Json.int n).tree] := by
  rw [Json.parts_tree _ (nodup_args _)]
  obtain ⟨path, size, offset, total⟩ := w
  cases offset <;> cases total <;> rfl

theorem fileWrite_tree {w : FileWrite} (h : (fileWrite w).Faithful) :
    fileWrite? (Json.object (fileWrite w).args).tree = some (fileWrite w) := by
  obtain ⟨hsize, hoffset, htotal⟩ := h
  rw [fileWrite?, parts_fileWrite]
  simp only [Option.bind_eq_bind, Option.bind_some, Tree.required, Json.asString_tree,
    asNat_tree hsize, optional_nat hoffset, optional_nat htotal]
  rfl

theorem fileRename_tree (src dst : String) :
    fileRename? (Json.object (fileRename src dst).args).tree = some (fileRename src dst) := by
  have hparts := Json.parts_tree ["src", "dst"] (nodup_args (fileRename src dst))
  rw [fileRename?, hparts]
  simp [args, Json.get?, Tree.required, Json.asString_tree]

theorem parts_http (r : HttpRequest) :
    (Json.object (http r).args).tree.parts? ["method", "path", "headers", "body"] =
      some [some (Json.string r.method).tree, some (Json.string r.path).tree,
        r.headers.map fun ms => (Json.object ms).tree,
        r.body.map fun s => (Json.string s).tree] := by
  rw [Json.parts_tree _ (nodup_args _)]
  obtain ⟨method, path, headers, body⟩ := r
  cases headers <;> cases body <;> rfl

theorem nesting_headers {r : HttpRequest} {depth : Nat}
    (h : (Json.object (http r).args).nesting ≤ depth + 1) :
    ∀ ms ∈ r.headers, (Json.object ms).nesting ≤ depth := by
  obtain ⟨method, path, headers, body⟩ := r
  rintro ms rfl
  cases body <;>
    simp only [args, given, List.cons_append, List.nil_append, Json.nesting,
      Json.nestingMembers] at h ⊢ <;> omega

theorem http_tree {r : HttpRequest} {depth : Nat} (h : (http r).Faithful)
    (hdepth : (Json.object (http r).args).nesting ≤ depth + 1) :
    http? depth (Json.object (http r).args).tree = some (http r) := by
  have hnesting := nesting_headers hdepth
  have hheaders : Tree.optional (Tree.asMembers? depth)
      (r.headers.map fun ms => (Json.object ms).tree) = some r.headers :=
    Json.optional_tree (fun ms hms => asMembers_tree (h ms hms) (hnesting ms hms))
      object_tree_ne_null
  rw [http?, parts_http]
  simp only [Option.bind_eq_bind, Option.bind_some, Tree.required, Json.asString_tree, hheaders,
    Json.optional_text]
  rfl

/-- The arguments under a name are those that were written for it. -/
theorem ofParts_args {c : Command} {depth : Nat} (h : c.Faithful)
    (hdepth : (Json.object c.args).nesting ≤ depth) :
    ofParts? depth c.name (Json.object c.args).tree = some c := by
  obtain ⟨inner, rfl⟩ : ∃ inner, depth = inner + 1 := by
    rw [Json.nesting] at hdepth
    exact Nat.exists_eq_succ_of_ne_zero (by omega)
  unfold ofParts?
  cases c with
  | shell cmd => exact oneText_tree "cmd" shell cmd
  | fileRead path => exact oneText_tree "path" fileRead path
  | fileWrite w => exact fileWrite_tree h
  | fileDelete path => exact oneText_tree "path" fileDelete path
  | fileMkdir path => exact oneText_tree "path" fileMkdir path
  | fileRename src dst => exact fileRename_tree src dst
  | assetsList path => exact oneText_tree "path" assetsList path
  | http r => exact http_tree h hdepth

/-- A command is read from its document as it was written. -/
theorem ofTree_written {c : Command} {depth : Nat} (h : c.Faithful)
    (hdepth : c.written.nesting ≤ depth) : ofTree? depth c.written.tree = some c := by
  have hargs : (Json.object c.args).nesting + 1 ≤ depth := by
    simp only [written, Json.nesting, Json.nestingMembers] at hdepth ⊢
    omega
  obtain ⟨inner, rfl⟩ := Nat.exists_eq_succ_of_ne_zero (n := depth) (by omega)
  have hparts : (Json.object [("name", .string c.name), ("args", .object c.args)]).tree.parts?
      ["name", "args"] = some [some (Json.string c.name).tree, some (Json.object c.args).tree] :=
    (Json.parts_tree _ (by simp)).trans rfl
  have hname : Tree.required Tree.asCase? (some (Json.string c.name).tree) = some c.name :=
    Json.asString_tree c.name
  have hread : ofParts? inner c.name (Json.object c.args).tree = some c :=
    ofParts_args h (by omega)
  have hkeyed := Json.keyed_treeMembers [("name", .string c.name), ("args", .object c.args)]
  have hearly : comesFirst "args" "name" ([("name", Json.string c.name),
      ("args", Json.object c.args)].map fun m => (m.1, m.2.tree)) = false := rfl
  rw [written]
  unfold ofTree?
  rw [hparts, Json.tree_object [("name", _), ("args", _)]]
  simp only [Tree.inside, Option.bind_eq_bind, Option.bind_some, hkeyed, hname, Option.elim_some,
    hearly, Bool.false_and, if_neg Bool.false_ne_true]
  exact hread

end FleetControl.Command
