import FleetControl.Json.Decode
import FleetControl.Proofs.Json.Reading

/-! # Records in written objects

An object whose keys differ gives each part of a record the member of that name, wherever it
stands. -/
namespace FleetControl.Json

theorem keyed_treeMembers (members : List (String × Json)) :
    Tree.keyed? (treeMembers members) = some (members.map fun m => (m.1, m.2.tree)) := by
  unfold Tree.keyed?
  induction members with
  | nil => rfl
  | cons m members ih =>
    rw [treeMembers, List.mapM_cons, ih]
    rfl

theorem get?_cons (key : String) (m : String × Json) (members : List (String × Json)) :
    (object (m :: members)).get? key =
      if m.1 == key then some m.2 else (object members).get? key := by
  simp only [get?, List.find?_cons]
  cases m.1 == key <;> rfl

theorem get?_behind (key other : String) (value : Json) (members : List (String × Json)) :
    (object ((key, value) :: members)).get? other =
      if other = key then some value else (object members).get? other := by
  rw [get?_cons]
  by_cases h : other = key
  · rw [if_pos h, if_pos (beq_iff_eq.mpr h.symm)]
  · rw [if_neg h, if_neg fun hk => h (beq_iff_eq.mp hk).symm]

theorem get?_insertMember (key other : String) (value : Json) (members : List (String × Json)) :
    (object (insertMember key value members)).get? other =
      if other = key then some value else (object members).get? other := by
  induction members with
  | nil => exact get?_behind key other value []
  | cons m members ih =>
    obtain ⟨name, old⟩ := m
    unfold insertMember
    split
    · rename_i hk
      subst hk
      rw [get?_behind, get?_behind]
      split <;> rfl
    · rename_i hk
      split
      · exact get?_behind key other value _
      · rw [get?_behind, get?_behind, ih]
        by_cases hother : other = name
        · rw [if_pos hother, if_pos hother, if_neg fun h => hk (h.symm.trans hother)]
        · rw [if_neg hother, if_neg hother]

theorem get?_eq_none {key : String} {members : List (String × Json)}
    (h : key ∉ members.map (·.1)) : (object members).get? key = none := by
  induction members with
  | nil => rfl
  | cons m members ih =>
    simp only [List.map_cons, List.mem_cons, not_or] at h
    rw [get?_cons, if_neg (by simpa using Ne.symm h.1), ih h.2]

theorem filter_key {members : List (String × Json)} (h : (members.map (·.1)).Nodup)
    (key : String) : (members.map fun m => (m.1, m.2.tree)).filter (fun m => m.1 == key) =
      (((object members).get? key).map fun v => (key, v.tree)).toList := by
  induction members with
  | nil => rfl
  | cons m members ih =>
    obtain ⟨hm, hmembers⟩ := List.nodup_cons.mp h
    rw [List.map_cons, List.filter_cons, get?_cons, ih hmembers]
    by_cases hkey : m.1 = key
    · subst hkey
      rw [get?_eq_none hm]
      simp
    · simp [hkey]

/-- The parts of a record in the object that was written for it. -/
theorem parts_tree (names : List String) {members : List (String × Json)}
    (h : (members.map (·.1)).Nodup) : (object members).tree.parts? names =
      some (names.map fun name => ((object members).get? name).map tree) := by
  rw [tree, Tree.parts?, keyed_treeMembers]
  change (names.mapM fun name => _) = _
  induction names with
  | nil => rfl
  | cons name names ih =>
    rw [List.mapM_cons, ih, filter_key h, List.map_cons]
    cases (object members).get? name <;> rfl

theorem asString_tree (s : String) : Tree.asString? (string s).tree = some s := by
  rw [tree_string]
  rfl

theorem asInt64_tree {i : Int} (hlow : -(2 ^ 63) ≤ i) (hhigh : i < 2 ^ 63) :
    Tree.asInt64? (int i).tree = some i := by
  have hexact : (Number.int i).reread = some (.int i) := Number.Exact.reread ⟨by omega, by omega⟩
  rw [int, tree, hexact, Tree.asInt64?, Tree.asInt?, if_pos (by omega)]

/-- A part that may be missing is read back if it is so when it is there, and is not written as
null. -/
theorem optional_tree {α : Type} {read : Tree → Option α} {write : α → Json} {o : Option α}
    (h : ∀ a ∈ o, read (write a).tree = some a) (hnull : ∀ a, (write a).tree ≠ .null) :
    Tree.optional read (o.map fun a => (write a).tree) = some o := by
  cases o with
  | none => rfl
  | some a =>
    rw [Option.map_some, Tree.optional]
    · rw [h a rfl]
      rfl
    · exact hnull a

theorem string_tree_ne_null (s : String) : (string s).tree ≠ .null := by
  simp [tree]

theorem optional_text (o : Option String) :
    Tree.optional Tree.asString? (o.map fun s => (string s).tree) = some o :=
  optional_tree (fun s _ => asString_tree s) string_tree_ne_null

/-- What is read as a 64-bit integer is one. -/
theorem int64_bounds {part : Option Tree} {i : Int}
    (h : Tree.required Tree.asInt64? part = some i) : -2 ^ 63 ≤ i ∧ i ≤ 2 ^ 63 - 1 := by
  cases part with
  | none => cases h
  | some tree =>
    change Tree.asInt? (-(2 ^ 63)) (2 ^ 63 - 1) tree = some i at h
    unfold Tree.asInt? at h
    split at h
    · split at h
      · rename_i hbounds
        cases h
        exact hbounds
      · cases h
    · cases h

end FleetControl.Json
