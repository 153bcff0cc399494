import FleetControl.Proofs.Json.NormalForm
import FleetControl.Proofs.Json.Records

/-! # Objects made of members

An object that is made of members with different keys has these members, in the order of their
keys, and is read as a record like the members as they were given. -/
namespace FleetControl.Json

/-- The members of an object that is made of some, behind those stored before. -/
def store (done members : List (String × Json)) : List (String × Json) :=
  members.foldl (fun ms m => insertMember m.1 m.2 ms) done

theorem ofMembers_eq (members : List (String × Json)) :
    ofMembers members = object (store [] members) := rfl

theorem store_cons (done : List (String × Json)) (m : String × Json)
    (members : List (String × Json)) :
    store done (m :: members) = store (insertMember m.1 m.2 done) members := rfl

theorem mem_store {done members : List (String × Json)} {m : String × Json}
    (h : m ∈ store done members) : m ∈ done ∨ m ∈ members := by
  induction members generalizing done with
  | nil => exact Or.inl h
  | cons other members ih =>
    rcases ih (store_cons done other members ▸ h) with h | h
    · rcases mem_insertMember h with rfl | h
      · exact Or.inr List.mem_cons_self
      · exact Or.inl h
    · exact Or.inr (List.mem_cons_of_mem other h)

theorem pairwise_store {done : List (String × Json)} (members : List (String × Json))
    (h : done.Pairwise fun a b => a.1 < b.1) :
    (store done members).Pairwise fun a b => a.1 < b.1 := by
  induction members generalizing done with
  | nil => exact h
  | cons m members ih => exact ih (pairwise_insertMember h)

theorem nodup_store {done : List (String × Json)} (members : List (String × Json))
    (h : done.Pairwise fun a b => a.1 < b.1) : ((store done members).map (·.1)).Nodup := by
  refine List.pairwise_map.mpr ((pairwise_store members h).imp fun hlt heq => ?_)
  exact lt_irrefl _ (heq ▸ hlt)

theorem get?_store {members : List (String × Json)} (h : (members.map (·.1)).Nodup)
    (done : List (String × Json)) (key : String) : (object (store done members)).get? key =
      ((object members).get? key).or ((object done).get? key) := by
  induction members generalizing done with
  | nil => rfl
  | cons m members ih =>
    obtain ⟨hm, hmembers⟩ := List.nodup_cons.mp h
    rw [store_cons, ih hmembers, get?_insertMember, get?_behind]
    by_cases hkey : key = m.1
    · rw [if_pos hkey, if_pos hkey, hkey, get?_eq_none hm]
      rfl
    · rw [if_neg hkey, if_neg hkey]

section Members
variable {members : List (String × Json)} (h : (members.map (·.1)).Nodup)
include h

theorem get?_ofMembers (key : String) :
    (ofMembers members).get? key = (object members).get? key := by
  rw [ofMembers_eq, get?_store h]
  exact Option.or_none

theorem parts_ofMembers (names : List String) :
    (ofMembers members).tree.parts? names = (object members).tree.parts? names := by
  rw [parts_tree names h, ofMembers_eq, parts_tree names (nodup_store members .nil)]
  simp only [← ofMembers_eq, get?_ofMembers h]

end Members

theorem faithful_string (s : String) : (string s).Faithful := by
  rw [Faithful.eq_def]
  trivial

theorem faithfulMembers_iff {members : List (String × Json)} :
    FaithfulMembers members ↔ ∀ m ∈ members, m.2.Faithful := by
  induction members with
  | nil => simp [FaithfulMembers]
  | cons m members ih => rw [FaithfulMembers, ih, List.forall_mem_cons]

theorem faithful_ofMembers {members : List (String × Json)} (h : ∀ m ∈ members, m.2.Faithful) :
    (ofMembers members).Faithful := by
  rw [ofMembers_eq, Faithful, faithfulMembers_iff]
  exact ⟨pairwise_store members .nil, fun m hm => h m ((mem_store hm).resolve_left (by simp))⟩

theorem nestingMembers_le {members : List (String × Json)} {n : Nat} :
    nestingMembers members ≤ n ↔ ∀ m ∈ members, m.2.nesting ≤ n := by
  induction members with
  | nil => simp [nestingMembers]
  | cons m members ih => rw [nestingMembers, Nat.max_le, ih, List.forall_mem_cons]

theorem get?_of_mem {members : List (String × Json)} (h : (members.map (·.1)).Nodup)
    {m : String × Json} (hm : m ∈ members) : (object members).get? m.1 = some m.2 := by
  induction members with
  | nil => cases hm
  | cons other members ih =>
    obtain ⟨hother, hmembers⟩ := List.nodup_cons.mp h
    rw [get?_behind]
    rcases List.mem_cons.mp hm with rfl | hm
    · rw [if_pos rfl]
    · have hne : m.1 ≠ other.1 := fun heq => hother (List.mem_map.mpr ⟨m, hm, heq⟩)
      rw [if_neg hne, ih hmembers hm]

theorem mem_of_get? {members : List (String × Json)} {key : String} {value : Json}
    (h : (object members).get? key = some value) : (key, value) ∈ members := by
  obtain ⟨m, hfind, rfl⟩ := Option.map_eq_some_iff.mp h
  have hkey : m.1 = key := by simpa using List.find?_some hfind
  exact hkey ▸ List.mem_of_find?_eq_some hfind

/-- Members are not nested deeper than the object that is made of them. -/
theorem nesting_ofMembers {members : List (String × Json)} (h : (members.map (·.1)).Nodup) :
    (object members).nesting ≤ (ofMembers members).nesting := by
  rw [ofMembers_eq, nesting, nesting, Nat.succ_le_succ_iff, nestingMembers_le]
  intro m hm
  have hget : (ofMembers members).get? m.1 = some m.2 :=
    (get?_ofMembers h m.1).trans (get?_of_mem h hm)
  exact nestingMembers_le.mp (Nat.le_refl _) _ (mem_of_get? hget)

end FleetControl.Json
