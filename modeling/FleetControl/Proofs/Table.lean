import FleetControl.Table

/-! # Lookups after writes

Each operation on a table in one equation about lookups, and what distinct keys add:
an entry of the list is then exactly what a lookup finds. -/
namespace FleetControl.Table

variable {κ ν : Type} [DecidableEq κ]

theorem get?_put (t : Table κ ν) (k j : κ) (v : ν) :
    get? (put t k v) j = if j = k then some v else get? t j := by
  by_cases h : j = k
  · subst j; simp
  · rw [get?_put_of_ne t v h, if_neg h]

theorem get?_erase (t : Table κ ν) (k j : κ) :
    get? (erase t k) j = if j = k then none else get? t j := by
  by_cases h : j = k
  · subst j; simp
  · rw [get?_erase_of_ne t h, if_neg h]

theorem get?_modify (t : Table κ ν) (k j : κ) (f : ν → ν) :
    get? (modify t k f) j = if j = k then (get? t j).map f else get? t j := by
  induction t with
  | nil => simp [modify, get?]
  | cons e rest ih =>
    obtain ⟨k', v⟩ := e
    by_cases hk : k' = k
    · subst k'
      by_cases hj : j = k
      · subst j; simp [modify, get?]
      · have := Ne.symm hj
        simpa [modify, get?, hj, this] using ih
    · by_cases hj : k' = j
      · subst k'; simp [modify, get?, hk]
      · simpa [modify, get?, hk, hj] using ih

theorem has_modify (t : Table κ ν) (k j : κ) (f : ν → ν) : has (modify t k f) j = has t j := by
  rw [has, has, get?_modify]
  split
  · exact Option.isSome_map
  · rfl

theorem has_iff (t : Table κ ν) (k : κ) : has t k = true ↔ ∃ v, get? t k = some v := by
  simp [has, Option.isSome_iff_exists]

theorem has_eq_false (t : Table κ ν) (k : κ) : has t k = false ↔ get? t k = none := by
  simp [has]

/-- No key has two entries. -/
def Distinct (t : Table κ ν) : Prop := t.keys.Nodup

theorem mem_of_get? {t : Table κ ν} {k : κ} {v : ν} (h : get? t k = some v) : (k, v) ∈ t := by
  induction t with
  | nil => simp [get?] at h
  | cons e rest ih =>
    obtain ⟨k', v'⟩ := e
    by_cases hk : k' = k
    · subst k'
      have : v' = v := by simpa [get?] using h
      subst v'; simp
    · exact List.mem_cons_of_mem _ (ih (by simpa [get?, hk] using h))

theorem mem_keys_iff (t : Table κ ν) (k : κ) : k ∈ t.keys ↔ has t k = true := by
  constructor
  · intro h
    induction t with
    | nil => simp [keys] at h
    | cons e rest ih =>
      by_cases hk : e.1 = k
      · simp [has, get?, hk]
      · have hr : k ∈ keys rest := by simpa [keys, Ne.symm hk] using h
        simpa [has, get?, hk] using ih hr
  · intro h
    obtain ⟨v, hv⟩ := (has_iff t k).mp h
    exact List.mem_map.mpr ⟨(k, v), mem_of_get? hv, rfl⟩

theorem has_of_keys {t t' : Table κ ν} (h : t'.keys = t.keys) (k : κ) : has t' k = has t k := by
  rw [Bool.eq_iff_iff, ← mem_keys_iff, ← mem_keys_iff, h]

theorem get?_of_mem {t : Table κ ν} (hd : t.Distinct) {k : κ} {v : ν} (h : (k, v) ∈ t) :
    get? t k = some v := by
  induction t with
  | nil => simp at h
  | cons e rest ih =>
    have hn : e.1 ∉ keys rest ∧ (keys rest).Nodup := by simpa [Distinct, keys] using hd
    rcases List.mem_cons.mp h with rfl | h
    · simp [get?]
    · have hk : e.1 ≠ k := fun he => hn.1 (List.mem_map.mpr ⟨(k, v), h, he.symm⟩)
      simpa [get?, hk] using ih hn.2 h

theorem keys_put (t : Table κ ν) (k : κ) (v : ν) :
    (put t k v).keys = if has t k = true then t.keys else t.keys ++ [k] := by
  induction t with
  | nil => simp [put, keys, has, get?]
  | cons e rest ih =>
    obtain ⟨k', v'⟩ := e
    by_cases hk : k' = k
    · subst k'; simp [put, keys, has, get?]
    · have hh : has ((k', v') :: rest) k = has rest k := by simp [has, get?, hk]
      rw [hh, put, if_neg hk]
      by_cases hr : has rest k = true
      · simpa [keys, hr] using ih
      · simpa [keys, hr] using ih

theorem get?_length {t : Table Nat ν} (h : ∀ k, t.has k = true → k < t.length) :
    t.get? t.length = none := by
  rw [← has_eq_false]
  cases hold : t.has t.length with
  | false => rfl
  | true => exact absurd (h _ hold) (Nat.lt_irrefl _)

/-- A key is added behind those that are numbered. -/
theorem lt_length_put {t : Table Nat ν} (h : ∀ k, t.has k = true → k < t.length) (v : ν) (k : Nat)
    (hk : (t.put t.length v).has k = true) : k < (t.put t.length v).length := by
  have hnew : t.has t.length = false := (has_eq_false _ _).mpr (get?_length h)
  have hlength : (t.put t.length v).length = t.length + 1 := by
    have hkeys := congrArg List.length (keys_put t t.length v)
    simpa [keys, hnew] using hkeys
  rw [hlength]
  rw [has, get?_put] at hk
  split at hk
  · omega
  · exact Nat.lt_succ_of_lt (h k hk)

theorem lt_length_of_keys {t t' : Table Nat ν} (hkeys : t'.keys = t.keys)
    (h : ∀ k, t.has k = true → k < t.length) (k : Nat) (hk : t'.has k = true) :
    k < t'.length := by
  have hlength : t'.length = t.length := by simpa [keys] using congrArg List.length hkeys
  rw [hlength]
  exact h k ((has_of_keys hkeys k).symm.trans hk)

theorem Distinct.put {t : Table κ ν} (hd : t.Distinct) (k : κ) (v : ν) : (t.put k v).Distinct := by
  unfold Distinct
  rw [keys_put]
  split
  · exact hd
  · rename_i h
    have hk : k ∉ t.keys := fun hm => h ((mem_keys_iff t k).mp hm)
    refine List.nodup_append.mpr ⟨hd, by simp, ?_⟩
    intro a ha b hb
    rw [List.mem_singleton] at hb
    subst b
    exact fun he => hk (he ▸ ha)

theorem Distinct.erase {t : Table κ ν} (hd : t.Distinct) (k : κ) : (t.erase k).Distinct :=
  hd.sublist (List.filter_sublist.map _)

theorem keys_modify (t : Table κ ν) (k : κ) (f : ν → ν) : (t.modify k f).keys = t.keys := by
  simp only [modify, keys, List.map_map]
  apply List.map_congr_left
  intro e _
  simp only [Function.comp_apply]
  split <;> rfl

theorem Distinct.modify {t : Table κ ν} (hd : t.Distinct) (k : κ) (f : ν → ν) :
    (t.modify k f).Distinct := by
  unfold Distinct
  rw [keys_modify]
  exact hd

omit [DecidableEq κ] in
theorem Distinct.filter {t : Table κ ν} (hd : t.Distinct) (p : κ × ν → Bool) :
    Table.Distinct (t.filter p) := hd.sublist (List.filter_sublist.map _)

theorem get?_filter {t : Table κ ν} (hd : t.Distinct) (p : ν → Bool) (k : κ) :
    Table.get? (t.filter fun e => p e.2) k = (get? t k).filter p := by
  refine Option.ext fun v => ?_
  rw [Option.filter_eq_some_iff]
  constructor
  · intro hv
    obtain ⟨hmem, hp⟩ := List.mem_filter.mp (mem_of_get? hv)
    exact ⟨get?_of_mem hd hmem, hp⟩
  · rintro ⟨hv, hp⟩
    exact get?_of_mem (hd.filter _) (List.mem_filter.mpr ⟨mem_of_get? hv, hp⟩)

/-- What is found and passes the filter is found behind it. -/
theorem get?_filter_of_get? {t : Table κ ν} {p : κ × ν → Bool} {k : κ}
    (h : ∀ v, get? t k = some v → p (k, v) = true) : Table.get? (t.filter p) k = get? t k := by
  induction t with
  | nil => rfl
  | cons e rest ih =>
    obtain ⟨k', v⟩ := e
    by_cases hk : k' = k
    · subst k'
      have hp : p (k, v) = true := h v (by simp [get?])
      rw [List.filter_cons_of_pos hp]
      simp [get?]
    · have hrest := ih fun w hw => h w (by simpa [get?, hk] using hw)
      by_cases hp : p (k', v) = true
      · rw [List.filter_cons_of_pos hp]
        simpa [get?, hk] using hrest
      · rw [List.filter_cons_of_neg hp]
        simpa [get?, hk] using hrest

theorem put_of_get?_eq_none {t : Table κ ν} {k : κ} (h : get? t k = none) (v : ν) :
    t.put k v = t ++ [(k, v)] := by
  induction t with
  | nil => rfl
  | cons e rest ih =>
    obtain ⟨k', v'⟩ := e
    by_cases hk : k' = k
    · simp [get?, hk] at h
    · have hrest : get? rest k = none := by simpa [get?, hk] using h
      simp [put, hk, ih hrest]

/-- The order of the entries does not matter to a lookup. -/
theorem get?_of_perm {t t' : Table κ ν} (hd : t.Distinct) (h : t'.Perm t) (k : κ) :
    get? t' k = get? t k := by
  have hd' : t'.Distinct := (h.map Prod.fst).nodup_iff.mpr hd
  refine Option.ext fun v => ⟨fun hv => ?_, fun hv => ?_⟩
  · exact get?_of_mem hd (h.subset (mem_of_get? hv))
  · exact get?_of_mem hd' (h.symm.subset (mem_of_get? hv))

/-- Tables that hold the same do so in some order. -/
theorem perm_of_get? {t t' : Table κ ν} (hd : t.Distinct) (hd' : t'.Distinct)
    (h : ∀ k, get? t k = get? t' k) : t.Perm t' := by
  have hnodup : ∀ {t : Table κ ν}, t.Distinct → List.Nodup t := fun hd =>
    List.Pairwise.of_map Prod.fst (fun _ _ hne he => hne (congrArg Prod.fst he)) hd
  refine (List.perm_ext_iff_of_nodup (hnodup hd) (hnodup hd')).mpr fun ⟨k, v⟩ =>
    ⟨fun hm => ?_, fun hm => ?_⟩
  · exact mem_of_get? ((h k).symm.trans (get?_of_mem hd hm))
  · exact mem_of_get? ((h k).trans (get?_of_mem hd' hm))

/-- A table in which every value is replaced by an image of it. -/
def image {ι : Type} (t : Table κ ν) (f : ν → ι) : Table κ ι := t.map fun e => (e.1, f e.2)

section Image
variable {ι : Type} {f : ν → ι}

theorem get?_image (t : Table κ ν) (f : ν → ι) (k : κ) :
    get? (t.image f) k = (get? t k).map f := by
  induction t with
  | nil => rfl
  | cons e rest ih =>
    obtain ⟨k', v⟩ := e
    by_cases hk : k' = k
    · simp [image, get?, hk]
    · simpa [image, get?, hk] using ih

omit [DecidableEq κ] in
theorem keys_image (t : Table κ ν) (f : ν → ι) : (t.image f).keys = t.keys := by
  simp [image, keys, Function.comp_def]

/-- Changes that an image does not show. -/
theorem image_modify (t : Table κ ν) (k : κ) {g : ν → ν} (h : ∀ v, f (g v) = f v) :
    (t.modify k g).image f = t.image f := by
  simp only [image, modify, List.map_map]
  refine List.map_congr_left fun e _ => ?_
  simp only [Function.comp_apply]
  split <;> simp only [h]

theorem put_image (t : Table κ ν) (f : ν → ι) (k : κ) (v : ν) :
    (t.image f).put k (f v) = (t.put k v).image f := by
  induction t with
  | nil => rfl
  | cons e rest ih =>
    obtain ⟨k', w⟩ := e
    by_cases hk : k' = k
    · simp [image, put, hk]
    · simpa [image, put, hk] using ih

theorem image_put {t : Table κ ν} {k : κ} {v v' : ν} (hv : get? t k = some v) (h : f v' = f v) :
    (t.put k v').image f = t.image f := by
  induction t with
  | nil => cases hv
  | cons e rest ih =>
    obtain ⟨k', w⟩ := e
    by_cases hk : k' = k
    · obtain rfl : w = v := by simpa [get?, hk] using hv
      simp [image, put, hk, h]
    · have hrest : get? rest k = some v := by simpa [get?, hk] using hv
      simpa [image, put, hk] using ih hrest

end Image

end FleetControl.Table
