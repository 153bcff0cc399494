import FleetControl.Proofs.Device.Directory
import Mathlib.Data.List.Nodup

/-! # One owner for each key

A directory is the list of its records: it takes a list exactly if credentials are complete and
neither keys nor ids occur twice, and it files the records in their order. Rotations with keys that
nobody has had keep every key with one device, so a lookup by key does not depend on the order in
which the devices are looked through. -/
namespace FleetControl.Directory

/-- Records that a directory can be built from. -/
structure Acceptable (records : List DeviceRecord) : Prop where
  complete : ∀ r ∈ records, r.apiKey ≠ "" ∧ r.sharedSecret ≠ ""
  keys : (records.map (·.apiKey)).Nodup
  ids : (records.map (·.deviceId)).Nodup

/-- Records under their ids, in their order. -/
def file (records : List DeviceRecord) : Directory := ⟨records.map fun r => (r.deviceId, r)⟩

theorem acceptable_nil : Acceptable [] := ⟨by simp, List.nodup_nil, List.nodup_nil⟩

section Acceptance
variable {taken rest : List DeviceRecord} {record : DeviceRecord}

theorem Acceptable.front (h : Acceptable (taken ++ rest)) : Acceptable taken where
  complete r hr := h.complete r (List.mem_append_left _ hr)
  keys := (List.nodup_append.mp (List.map_append ▸ h.keys)).1
  ids := (List.nodup_append.mp (List.map_append ▸ h.ids)).1

theorem acceptable_concat (h : Acceptable taken) :
    Acceptable (taken ++ [record]) ↔
      (record.apiKey ≠ "" ∧ record.sharedSecret ≠ "") ∧
        record.apiKey ∉ taken.map (·.apiKey) ∧ record.deviceId ∉ taken.map (·.deviceId) := by
  have hnodup : ∀ f : DeviceRecord → String, (taken.map f).Nodup →
      (((taken ++ [record]).map f).Nodup ↔ f record ∉ taken.map f) := by
    intro f hf
    rw [List.map_append, List.map_singleton, ← List.concat_eq_append, List.nodup_concat]
    exact and_iff_left hf
  constructor
  · intro hall
    exact ⟨hall.complete record (by simp), (hnodup _ h.keys).mp hall.keys,
      (hnodup _ h.ids).mp hall.ids⟩
  · rintro ⟨hcomplete, hkey, hid⟩
    refine ⟨fun r hr => ?_, (hnodup _ h.keys).mpr hkey, (hnodup _ h.ids).mpr hid⟩
    rcases List.mem_append.mp hr with hr | hr
    · exact h.complete r hr
    · rw [List.mem_singleton.mp hr]
      exact hcomplete

theorem keys_file (records : List DeviceRecord) :
    (file records).devices.keys = records.map (·.deviceId) := by
  simp [file, Table.keys, Function.comp_def]

theorem any_file (records : List DeviceRecord) (key : String) :
    ((file records).devices.any fun e => e.2.apiKey = key) = true ↔
      key ∈ records.map (·.apiKey) := by
  simp [file]

theorem has_file (records : List DeviceRecord) (id : String) :
    (file records).devices.has id = true ↔ id ∈ records.map (·.deviceId) := by
  rw [← Table.mem_keys_iff, keys_file]

theorem Acceptable.get?_file (h : Acceptable taken) (id : String) (r : DeviceRecord) :
    (file taken).get? id = some r ↔ r ∈ taken ∧ r.deviceId = id := by
  have hd : (file taken).devices.Distinct := by
    unfold Table.Distinct
    rw [keys_file]
    exact h.ids
  constructor
  · intro hr
    obtain ⟨r', hmem, heq⟩ := List.mem_map.mp (Table.mem_of_get? hr)
    obtain ⟨rfl, rfl⟩ := Prod.mk.inj heq
    exact ⟨hmem, rfl⟩
  · rintro ⟨hmem, rfl⟩
    exact Table.get?_of_mem hd (List.mem_map.mpr ⟨r, hmem, rfl⟩)

/-- The checks on one record are those of the list that it makes longer. -/
theorem add_file (h : Acceptable taken) (record : DeviceRecord) :
    (Acceptable (taken ++ [record]) ∧ (file taken).add record = .ok (file (taken ++ [record]))) ∨
      (¬ Acceptable (taken ++ [record]) ∧
        ∃ reason, (file taken).add record = .error (.config reason)) := by
  rw [acceptable_concat h]
  unfold add
  by_cases hcomplete : record.apiKey = "" ∨ record.sharedSecret = ""
  · rw [if_pos hcomplete]
    exact .inr ⟨fun hall => hcomplete.elim hall.1.1 hall.1.2, _, rfl⟩
  rw [if_neg hcomplete]
  by_cases hkey : record.apiKey ∈ taken.map (·.apiKey)
  · rw [if_pos ((any_file taken record.apiKey).mpr hkey)]
    exact .inr ⟨fun hall => hall.2.1 hkey, _, rfl⟩
  rw [if_neg (mt (any_file taken record.apiKey).mp hkey)]
  by_cases hid : record.deviceId ∈ taken.map (·.deviceId)
  · rw [if_pos ((has_file taken record.deviceId).mpr hid)]
    exact .inr ⟨fun hall => hall.2.2 hid, _, rfl⟩
  rw [if_neg (mt (has_file taken record.deviceId).mp hid)]
  have hnew : (file taken).devices.get? record.deviceId = none := by
    rw [← Table.has_eq_false, Bool.eq_false_iff]
    exact mt (has_file taken record.deviceId).mp hid
  refine .inl ⟨⟨not_or.mp hcomplete, hkey, hid⟩, ?_⟩
  rw [Table.put_of_get?_eq_none hnew]
  simp [file]

theorem addAll_file (h : Acceptable taken) (rest : List DeviceRecord) :
    (Acceptable (taken ++ rest) ∧ (file taken).addAll rest = .ok (file (taken ++ rest))) ∨
      (¬ Acceptable (taken ++ rest) ∧
        ∃ reason, (file taken).addAll rest = .error (.config reason)) := by
  induction rest generalizing taken with
  | nil =>
    rw [List.append_nil]
    exact .inl ⟨h, rfl⟩
  | cons record rest ih =>
    rw [List.append_cons]
    rcases add_file h record with ⟨htaken, hadd⟩ | ⟨hrefused, reason, hadd⟩
    · simpa only [addAll, hadd] using ih htaken
    · exact .inr ⟨fun hall => hrefused hall.front, reason, by simp only [addAll, hadd]⟩

end Acceptance

theorem ofRecords_cases (records : List DeviceRecord) :
    (Acceptable records ∧ ofRecords records = .ok (file records)) ∨
      (¬ Acceptable records ∧ ∃ reason, ofRecords records = .error (.config reason)) :=
  addAll_file acceptable_nil records

theorem ofRecords_ok {records : List DeviceRecord} {d : Directory} (h : ofRecords records = .ok d) :
    Acceptable records ∧ d = file records := by
  rcases ofRecords_cases records with ⟨ha, hok⟩ | ⟨-, reason, herror⟩
  · exact ⟨ha, Except.ok.inj (h.symm.trans hok)⟩
  · rw [herror] at h
    cases h

/-- Devices that are filed under their ids, each with a key of its own out of those in use. -/
structure Keyed (used : List String) (d : Directory) : Prop where
  filed : d.Filed
  single : ∀ id other r s, d.get? id = some r → d.get? other = some s → r.apiKey = s.apiKey →
    id = other
  used : ∀ id r, d.get? id = some r → r.apiKey ∈ used

section Lookup
variable {used : List String} {d : Directory}

theorem keyed_file {records : List DeviceRecord} (h : Acceptable records) :
    (file records).Keyed (records.map (·.apiKey)) := by
  refine ⟨⟨?_, fun id r hr => ((h.get?_file id r).mp hr).2⟩, ?_, ?_⟩
  · unfold Table.Distinct
    rw [keys_file]
    exact h.ids
  · intro id other r s hr hs hkey
    obtain ⟨hmem, rfl⟩ := (h.get?_file id r).mp hr
    obtain ⟨hother, rfl⟩ := (h.get?_file other s).mp hs
    rw [List.inj_on_of_nodup_map h.keys hmem hother hkey]
  · intro id r hr
    exact List.mem_map_of_mem ((h.get?_file id r).mp hr).1

/-- What is found by a key is what is found by the id of its owner. -/
theorem Keyed.byApiKey_iff (h : d.Keyed used) (key : String) (r : DeviceRecord) :
    d.byApiKey key = some r ↔ key ≠ "" ∧ d.get? r.deviceId = some r ∧ r.apiKey = key := by
  constructor
  · intro hr
    refine ⟨fun hempty => ?_, get?_of_byApiKey h.filed hr⟩
    simp [byApiKey, hempty] at hr
  · rintro ⟨hkey, hget, rfl⟩
    rw [byApiKey, if_neg hkey]
    obtain ⟨e, he⟩ : ∃ e, d.devices.find? (fun e => e.2.apiKey = r.apiKey) = some e := by
      refine Option.isSome_iff_exists.mp (List.find?_isSome.mpr ?_)
      exact ⟨_, Table.mem_of_get? hget, by simp⟩
    have hfound : d.get? e.1 = some e.2 :=
      Table.get?_of_mem h.filed.distinct (List.mem_of_find?_eq_some he)
    have hid := h.single e.1 r.deviceId e.2 r hfound hget (by simpa using List.find?_some he)
    rw [hid, hget] at hfound
    rw [he, Option.map_some, ← Option.some.inj hfound]

theorem Keyed.perm (h : d.Keyed used) {t : Table String DeviceRecord} (ht : t.Perm d.devices) :
    Keyed used ⟨t⟩ := by
  have hget : ∀ id, (⟨t⟩ : Directory).get? id = d.get? id :=
    Table.get?_of_perm h.filed.distinct ht
  refine ⟨⟨(ht.map Prod.fst).nodup_iff.mpr h.filed.distinct, ?_⟩, ?_, ?_⟩
  · intro id r hr
    exact h.filed.named id r (hget id ▸ hr)
  · intro id other r s hr hs
    exact h.single id other r s (hget id ▸ hr) (hget other ▸ hs)
  · intro id r hr
    exact h.used id r (hget id ▸ hr)

theorem Keyed.byApiKey_perm (h : d.Keyed used) {t : Table String DeviceRecord}
    (ht : t.Perm d.devices) (key : String) :
    (⟨t⟩ : Directory).byApiKey key = d.byApiKey key := by
  refine Option.ext fun r => ?_
  rw [(h.perm ht).byApiKey_iff, h.byApiKey_iff]
  have hget : (⟨t⟩ : Directory).get? r.deviceId = d.get? r.deviceId :=
    Table.get?_of_perm h.filed.distinct ht r.deviceId
  rw [hget]

theorem Keyed.byApiKey_eq_none (h : d.Keyed used) {key : String} (hkey : key ∉ used) :
    d.byApiKey key = none := by
  refine Option.eq_none_iff_forall_not_mem.mpr fun r hr => ?_
  obtain ⟨-, hget, rfl⟩ := (h.byApiKey_iff key r).mp hr
  exact hkey (h.used _ r hget)

end Lookup

/-- A directory after keys were given out, each to the device of an id. -/
def rotateAll (d : Directory) (rotations : List (String × String)) : Directory :=
  rotations.foldl (fun d rotation => (d.rotateKey rotation.1 rotation.2).1) d

/-- The keys that were given out: a rotation for an unknown id gives out none. -/
def issued (d : Directory) (rotations : List (String × String)) : List String :=
  (rotations.filter fun rotation => d.devices.has rotation.1).map (·.2)

section Rotation
variable {used : List String} {d : Directory}

theorem rotateKey_of_unknown {id : String} (h : d.get? id = none) (fresh : String) :
    d.rotateKey id fresh = (d, .error (.unknownDevice id)) := by simp [rotateKey, h]

theorem rotateKey_of_known {id : String} {r : DeviceRecord} (h : d.get? id = some r)
    (fresh : String) :
    (d.rotateKey id fresh).2 =
      .ok { r with apiKey := fresh, keyVersion := r.keyVersion + 1 } := by simp [rotateKey, h]

theorem has_rotateKey (d : Directory) (id fresh other : String) :
    (d.rotateKey id fresh).1.devices.has other = d.devices.has other := by
  have hget := get?_rotateKey d id fresh other
  unfold get? at hget
  rw [Table.has, Table.has, hget]
  split
  · rename_i ho
    rw [ho, Option.isSome_map]
  · rfl

theorem issued_rotateKey (d : Directory) (id fresh : String) (rotations : List (String × String)) :
    issued (d.rotateKey id fresh).1 rotations = d.issued rotations := by
  simp only [issued, has_rotateKey]

theorem issued_cons (d : Directory) (id fresh : String) (rotations : List (String × String)) :
    d.issued ((id, fresh) :: rotations) =
      (if d.devices.has id = true then [fresh] else []) ++ d.issued rotations := by
  by_cases h : d.devices.has id = true <;> simp [issued, h]

/-- A rotation takes the old key from its device and puts one that nobody has had in its place. -/
theorem Keyed.rotateKey (h : d.Keyed used) {id fresh : String} (hfresh : fresh ∉ used) :
    (d.rotateKey id fresh).1.Keyed (used ++ [fresh]) := by
  have hkey : ∀ other r, (d.rotateKey id fresh).1.get? other = some r →
      (other = id ∧ r.apiKey = fresh) ∨ (other ≠ id ∧ d.get? other = some r) := by
    intro other r hr
    rw [get?_rotateKey] at hr
    split at hr
    · rename_i ho
      obtain ⟨old, -, rfl⟩ := Option.map_eq_some_iff.mp hr
      exact .inl ⟨ho, rfl⟩
    · rename_i ho
      exact .inr ⟨ho, hr⟩
  have hnew : ∀ other r, d.get? other = some r → r.apiKey ≠ fresh := fun other r hr he =>
    hfresh (he ▸ h.used other r hr)
  refine ⟨filed_rotateKey h.filed id fresh, fun one other r s hr hs hsame => ?_,
    fun other r hr => ?_⟩
  · rcases hkey one r hr with ⟨rfl, hrkey⟩ | ⟨-, hrold⟩
    · rcases hkey other s hs with ⟨rfl, -⟩ | ⟨-, hsold⟩
      · rfl
      · exact absurd (hsame.symm.trans hrkey) (hnew other s hsold)
    · rcases hkey other s hs with ⟨rfl, hskey⟩ | ⟨-, hsold⟩
      · exact absurd (hsame.trans hskey) (hnew one r hrold)
      · exact h.single one other r s hrold hsold hsame
  · rcases hkey other r hr with ⟨-, hrkey⟩ | ⟨-, hrold⟩
    · rw [hrkey]
      exact List.mem_append_right _ (List.mem_singleton_self _)
    · exact List.mem_append_left _ (h.used other r hrold)

/-- The key that a rotation replaces is not in use any more. -/
theorem Keyed.retire (h : d.Keyed used) {id fresh : String} {r : DeviceRecord}
    (hr : d.get? id = some r) (hfresh : fresh ∉ used) :
    (d.rotateKey id fresh).1.Keyed ((used ++ [fresh]).filter (· ≠ r.apiKey)) := by
  have hafter : (d.rotateKey id fresh).1.Keyed (used ++ [fresh]) := h.rotateKey hfresh
  refine ⟨hafter.filed, hafter.single, fun other s hs => ?_⟩
  refine List.mem_filter.mpr ⟨hafter.used other s hs, decide_eq_true fun hsame => ?_⟩
  rw [get?_rotateKey] at hs
  split at hs
  · obtain ⟨old, -, rfl⟩ := Option.map_eq_some_iff.mp hs
    have hkey : fresh = r.apiKey := hsame
    exact hfresh (hkey ▸ h.used id r hr)
  · rename_i ho
    exact ho (h.single other id s r hs hr hsame)

theorem has_rotateAll (d : Directory) (rotations : List (String × String)) (id : String) :
    (d.rotateAll rotations).devices.has id = d.devices.has id := by
  induction rotations generalizing d with
  | nil => rfl
  | cons rotation rest ih => exact (ih _).trans (has_rotateKey d rotation.1 rotation.2 id)

theorem issued_rotateAll (d : Directory) (earlier later : List (String × String)) :
    (d.rotateAll earlier).issued later = d.issued later := by
  simp only [issued, has_rotateAll]

theorem issued_append (d : Directory) (earlier later : List (String × String)) :
    d.issued (earlier ++ later) = d.issued earlier ++ d.issued later := by
  simp [issued, List.filter_append]

theorem rotateAll_append (d : Directory) (earlier later : List (String × String)) :
    d.rotateAll (earlier ++ later) = (d.rotateAll earlier).rotateAll later := by simp [rotateAll]

/-- Rotations with keys that nobody has had keep every key with one device. -/
theorem Keyed.rotateAll (h : d.Keyed used) (rotations : List (String × String))
    (hfresh : (used ++ d.issued rotations).Nodup) :
    (d.rotateAll rotations).Keyed (used ++ d.issued rotations) := by
  induction rotations generalizing d used with
  | nil => simpa [issued, Directory.rotateAll] using h
  | cons rotation rest ih =>
    obtain ⟨id, fresh⟩ := rotation
    rw [issued_cons] at hfresh ⊢
    have hissued := issued_rotateKey d id fresh rest
    by_cases hid : d.devices.has id = true
    · rw [if_pos hid, ← List.append_assoc] at hfresh ⊢
      have hnew : fresh ∉ used := by
        have hfront := hfresh.of_append_left
        rw [← List.concat_eq_append, List.nodup_concat] at hfront
        exact hfront.1
      rw [← hissued] at hfresh ⊢
      exact ih (h.rotateKey hnew) hfresh
    · rw [if_neg hid, List.nil_append] at hfresh ⊢
      have hnone : d.get? id = none := (Table.has_eq_false _ _).mp (Bool.eq_false_iff.mpr hid)
      have hsame : Directory.rotateAll d ((id, fresh) :: rest) = d.rotateAll rest := by
        simp [Directory.rotateAll, rotateKey_of_unknown hnone]
      rw [hsame]
      exact ih h hfresh

/-- A key that was replaced is never found again. -/
theorem Keyed.byApiKey_replaced (h : d.Keyed used) (earlier later : List (String × String))
    (id fresh : String) (hfresh : (used ++ d.issued (earlier ++ (id, fresh) :: later)).Nodup)
    {r : DeviceRecord} (hr : (d.rotateAll earlier).get? id = some r) :
    (d.rotateAll (earlier ++ (id, fresh) :: later)).byApiKey r.apiKey = none := by
  have hid : d.devices.has id = true := by
    rw [← has_rotateAll d earlier]
    exact (Table.has_iff _ _).mpr ⟨r, hr⟩
  rw [issued_append, issued_cons, if_pos hid, ← List.append_assoc, ← List.append_assoc] at hfresh
  have hbefore := h.rotateAll earlier hfresh.of_append_left.of_append_left
  have hnew : fresh ∉ used ++ d.issued earlier := by
    have hfront := hfresh.of_append_left
    rw [← List.concat_eq_append, List.nodup_concat] at hfront
    exact hfront.1
  have hretired := hbefore.retire hr hnew
  rw [List.append_cons, rotateAll_append, rotateAll_append]
  change ((((d.rotateAll earlier).rotateKey id fresh).1).rotateAll later).byApiKey r.apiKey = none
  refine (hretired.rotateAll later ?_).byApiKey_eq_none fun hmem => ?_
  · rw [issued_rotateKey, issued_rotateAll]
    exact hfresh.sublist (List.filter_sublist.append (List.Sublist.refl _))
  · rw [issued_rotateKey, issued_rotateAll] at hmem
    rcases List.mem_append.mp hmem with hmem | hmem
    · simpa using (List.mem_filter.mp hmem).2
    · have hused := List.mem_append_left [fresh] (hbefore.used id r hr)
      exact (List.nodup_append.mp hfresh).2.2 _ hused _ hmem rfl

end Rotation

end FleetControl.Directory
