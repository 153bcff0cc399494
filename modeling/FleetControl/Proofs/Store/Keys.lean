import FleetControl.Bridge.Job
import FleetControl.Presence
import FleetControl.Proofs.Uuid

/-! # Keys of the store

Presence records, job lists and reply lists stand side by side in one store. A written identifier
has no colon in it, so no key belongs to two of these families, and a key stands for one connection
of one device, for one device, or for one job. Device ids are free text, though: what starts like
the presence keys of a device may be a key of another device, whose id goes on as those keys do. -/
namespace FleetControl

namespace Uuid

theorem mem_hyphenated {c : Char} {ds : List Char} (h : c ∈ hyphenated ds) : c = '-' ∨ c ∈ ds := by
  have htake : ∀ m n, c ∈ (ds.drop m).take n → c ∈ ds := fun m n hc =>
    List.mem_of_mem_drop (List.mem_of_mem_take hc)
  simp only [hyphenated, List.mem_append, List.mem_cons, or_assoc] at h
  rcases h with h | h | h | h | h | h | h | h | h
  · exact Or.inr (List.mem_of_mem_take h)
  · exact Or.inl h
  · exact Or.inr (htake 8 4 h)
  · exact Or.inl h
  · exact Or.inr (htake 12 4 h)
  · exact Or.inl h
  · exact Or.inr (htake 16 4 h)
  · exact Or.inl h
  · exact Or.inr (List.mem_of_mem_drop h)

theorem colon_not_mem_text (id : Uuid) : ':' ∉ id.text.toList := by
  have hdigit : ∀ n < 16, Nat.digitChar n ≠ ':' := by decide
  rw [text, String.toList_ofList]
  intro h
  rcases mem_hyphenated h with h | h
  · exact absurd h (by decide)
  · obtain ⟨i, -, hi⟩ := List.mem_map.mp h
    exact hdigit _ (Nat.mod_lt _ (by decide)) hi

theorem length_text (id : Uuid) : id.text.toList.length = 36 := by
  rw [text, String.toList_ofList]
  exact length_hyphenated _

theorem text_inj {a b : Uuid} (h : a.text = b.text) : a = b := by
  have ha := parse_text a
  rw [h, parse_text] at ha
  exact (Option.some.inj ha).symm

end Uuid

namespace Presence

/-- What stands between a device and a connection in a presence key. -/
def mark : List Char := ":conn:".toList

theorem mark_eq : mark = [':', 'c', 'o', 'n', 'n', ':'] := rfl

/-- The id of another device goes on like the presence keys of a device. -/
def Continues (device other : String) : Prop := device.toList ++ mark <+: other.toList ++ [':']

instance (device other : String) : Decidable (Continues device other) :=
  inferInstanceAs (Decidable (_ <+: _))

theorem Continues.ne {device other : String} (h : Continues device other) : other ≠ device := by
  rintro rfl
  have := h.length_le
  simp [mark] at this

theorem toList_keyStem (device : String) :
    (keyStem device).toList = "frame:".toList ++ (device.toList ++ mark) := by
  simp [keyStem, mark]

theorem toList_key (device : String) (conn : Uuid) : (key device conn).toList =
    "frame:".toList ++ (device.toList ++ mark ++ conn.text.toList) := by
  simp [key, toList_keyStem]

/-- The mark of a device's keys comes no earlier in a longer text than behind its id, unless the
text goes on as those keys do. -/
theorem marked_cases {x w : List Char} (h : mark <+: x ++ ':' :: w) :
    x = [] ∨ mark <+: x ++ [':'] := by
  by_cases hlen : 5 ≤ x.length
  · refine Or.inr (List.prefix_of_prefix_length_le h ?_ (by simp [mark, hlen]))
    exact ⟨w, List.append_cons .. |>.symm⟩
  · -- In a shorter text, the colon behind it stands where the mark has a letter.
    rw [mark_eq] at h
    rcases x with _ | ⟨a, _ | ⟨b, _ | ⟨c, _ | ⟨d, _ | ⟨e, x⟩⟩⟩⟩⟩
    · exact Or.inl rfl
    all_goals simp_all [List.cons_prefix_cons]

/-- A mark that starts behind another one ends in what follows that. -/
theorem colon_mem_of_marked {y l u : List Char} (hl : l.length ≤ y.length + 5)
    (h : y ++ mark <+: l ++ u) : ':' ∈ u := by
  obtain ⟨rest, hrest⟩ := h
  have hat := congrArg (·[y.length + 5]?) hrest
  simp only [List.append_assoc] at hat
  rw [List.getElem?_append_right (Nat.le_add_right _ _), List.getElem?_append_right hl,
    Nat.add_sub_cancel_left, List.getElem?_append_left (by decide)] at hat
  exact List.mem_of_getElem? hat.symm

/-- What is common to two texts up to a certain place is the id of one of two devices. -/
theorem prefix_cases {d d' rest : List Char} (h : d ++ mark <+: d' ++ rest) :
    (∃ x, d' = d ++ x ∧ mark <+: x ++ rest) ∨ ∃ y, y ≠ [] ∧ d = d' ++ y ∧ y ++ mark <+: rest := by
  have hd : d <+: d' ++ rest := (List.prefix_append d mark).trans h
  rcases List.prefix_or_prefix_of_prefix hd (List.prefix_append d' rest) with ⟨y, hy⟩ | ⟨y, hy⟩
  · subst hy
    rw [List.append_assoc, List.prefix_append_right_inj] at h
    exact Or.inl ⟨y, rfl, h⟩
  · subst hy
    rw [List.append_assoc, List.prefix_append_right_inj] at h
    cases y with
    | nil => exact Or.inl ⟨[], by simp, by simpa using h⟩
    | cons a y => exact Or.inr ⟨a :: y, List.cons_ne_nil a y, rfl, h⟩

/-- A key starts like the presence keys of a device if it is one of them, or if it belongs to a
device whose id goes on as they do. -/
theorem keyStem_prefix_key (device other : String) (conn : Uuid) :
    (keyStem device).toList <+: (key other conn).toList ↔
      other = device ∨ Continues device other := by
  rw [toList_keyStem, toList_key, List.prefix_append_right_inj, List.append_assoc]
  constructor
  · intro h
    rcases prefix_cases h with ⟨x, hx, hmark⟩ | ⟨y, hy, hd, hmark⟩
    · rcases marked_cases (show mark <+: x ++ ':' :: (['c', 'o', 'n', 'n', ':'] ++ conn.text.toList)
        from hmark) with rfl | hx'
      · exact Or.inl (String.toList_inj.mp (by simpa using hx))
      · right
        rw [Continues, hx, List.append_assoc, List.prefix_append_right_inj]
        exact hx'
    · have hlen := List.length_pos_iff.mpr hy
      exact absurd (colon_mem_of_marked (show mark.length ≤ y.length + 5 by simp [mark]; omega)
        hmark) conn.colon_not_mem_text
  · rintro (rfl | h)
    · rw [← List.append_assoc]
      exact List.prefix_append _ _
    · refine h.trans ?_
      rw [List.prefix_append_right_inj]
      exact ⟨['c', 'o', 'n', 'n', ':'] ++ conn.text.toList, rfl⟩

theorem toList_listKey (device : String) : (BridgeJob.listKey device).toList =
    "frame:".toList ++ (device.toList ++ [':', 'c', 'm', 'd']) := by
  simp [BridgeJob.listKey]

theorem keyStem_prefix_listKey (device other : String) :
    (keyStem device).toList <+: (BridgeJob.listKey other).toList ↔ Continues device other := by
  rw [toList_keyStem, toList_listKey, List.prefix_append_right_inj]
  constructor
  · intro h
    rcases prefix_cases h with ⟨x, hx, hmark⟩ | ⟨y, hy, hd, hmark⟩
    · rcases marked_cases hmark with rfl | hx'
      · exact absurd hmark (by decide)
      · rw [Continues, hx, List.append_assoc, List.prefix_append_right_inj]
        exact hx'
    · have hlen := hmark.length_le
      simp [mark] at hlen
  · intro h
    refine h.trans ?_
    rw [List.prefix_append_right_inj]
    exact ⟨['c', 'm', 'd'], rfl⟩

theorem toList_replyKey (job : Uuid) : (BridgeJob.replyKey job).toList =
    "frame:".toList ++ ("cmd:resp:".toList ++ job.text.toList) := by
  simp [BridgeJob.replyKey]

theorem not_keyStem_prefix_replyKey (device : String) (job : Uuid) :
    ¬ (keyStem device).toList <+: (BridgeJob.replyKey job).toList := by
  rw [toList_keyStem, toList_replyKey, List.prefix_append_right_inj]
  intro h
  by_cases hd : 4 ≤ device.toList.length
  · exact job.colon_not_mem_text
      (colon_mem_of_marked (show "cmd:resp:".toList.length ≤ _ by simp; omega) h)
  · rw [mark_eq] at h
    generalize device.toList = d at h hd
    rcases d with _ | ⟨a, _ | ⟨b, _ | ⟨c, _ | ⟨e, d⟩⟩⟩⟩ <;>
      simp_all [List.cons_prefix_cons]

theorem key_inj {device other : String} {conn conn' : Uuid}
    (h : key device conn = key other conn') : device = other ∧ conn = conn' := by
  have hl := congrArg String.toList h
  rw [toList_key, toList_key, List.append_cancel_left_eq] at hl
  obtain ⟨hstem, hconn⟩ := List.append_inj' hl (by rw [Uuid.length_text, Uuid.length_text])
  exact ⟨String.toList_inj.mp (List.append_cancel_right hstem),
    Uuid.text_inj (String.toList_inj.mp hconn)⟩

end Presence

namespace BridgeJob
open Presence (toList_listKey toList_replyKey toList_key)

theorem listKey_inj {device other : String} (h : listKey device = listKey other) :
    device = other := by
  have hl := congrArg String.toList h
  rw [toList_listKey, toList_listKey, List.append_cancel_left_eq] at hl
  exact String.toList_inj.mp (List.append_cancel_right hl)

theorem replyKey_inj {job job' : Uuid} (h : replyKey job = replyKey job') : job = job' := by
  have hl := congrArg String.toList h
  rw [toList_replyKey, toList_replyKey, List.append_cancel_left_eq,
    List.append_cancel_left_eq] at hl
  exact Uuid.text_inj (String.toList_inj.mp hl)

/-- The end of a job list's key does not fit an identifier. -/
theorem cmd_suffix_ne {d l u : List Char} (hu : 4 ≤ u.length) (hcolon : ':' ∉ u)
    (h : d ++ [':', 'c', 'm', 'd'] = l ++ u) : False := by
  have hends : [':', 'c', 'm', 'd'] <:+ l ++ u := h ▸ List.suffix_append _ _
  have hin := List.suffix_of_suffix_length_le hends (List.suffix_append l u) hu
  exact hcolon (hin.subset List.mem_cons_self)

theorem listKey_ne_replyKey (device : String) (job : Uuid) : listKey device ≠ replyKey job := by
  intro h
  have hl := congrArg String.toList h
  rw [toList_listKey, toList_replyKey, List.append_cancel_left_eq] at hl
  exact cmd_suffix_ne (by rw [Uuid.length_text]; decide) job.colon_not_mem_text hl

theorem listKey_ne_key (device other : String) (conn : Uuid) :
    listKey device ≠ Presence.key other conn := by
  intro h
  have hl := congrArg String.toList h
  rw [toList_listKey, toList_key, List.append_cancel_left_eq] at hl
  exact cmd_suffix_ne (by rw [Uuid.length_text]; decide) conn.colon_not_mem_text hl

theorem replyKey_ne_key (job : Uuid) (device : String) (conn : Uuid) :
    replyKey job ≠ Presence.key device conn := by
  intro h
  refine Presence.not_keyStem_prefix_replyKey device job ?_
  rw [h]
  exact (Presence.keyStem_prefix_key device device conn).mpr (Or.inl rfl)

end BridgeJob

end FleetControl
