import FleetControl.Bridge.Reply
import FleetControl.Proofs.Store
import FleetControl.Proofs.Store.Keys

/-! # What stands in the store

Three kinds of things stand in the store: presence records, which lapse, job lists, which do not,
and reply lists. What processes ask of the store keeps to this, so a list is always a list. -/
namespace FleetControl.Store

/-- A key for a list of jobs or of replies. -/
def HoldsList (key : String) : Prop :=
  (∃ device, key = BridgeJob.listKey device) ∨ ∃ job, key = BridgeJob.replyKey job

/-- What may stand at a key. -/
inductive Entry (key : String) (slot : StoreSlot) : Prop
  | record (device : String) (conn : Uuid) (due : Nat)
      (at_key : key = Presence.key device conn) (holds : slot = ⟨.text "1", some due⟩)
  | jobs (device : String) (values : List String)
      (at_key : key = BridgeJob.listKey device) (holds : slot = ⟨.list values, none⟩)
  | replies (job : Uuid) (values : List String) (expiresAt : Option Nat)
      (at_key : key = BridgeJob.replyKey job) (holds : slot = ⟨.list values, expiresAt⟩)

/-- Everything stands where it belongs, once. -/
structure Filed (s : Store) : Prop where
  distinct : s.slots.Distinct
  entries : ∀ key slot, s.slots.get? key = some slot → Entry key slot

theorem filed_empty : Filed {} := ⟨List.nodup_nil, fun _ _ h => nomatch h⟩

section Filed
variable {s : Store} (h : s.Filed)
include h

theorem Filed.at_key {device : String} {conn : Uuid} {slot : StoreSlot}
    (hs : s.slots.get? (Presence.key device conn) = some slot) :
    ∃ due, slot = ⟨.text "1", some due⟩ := by
  cases h.entries _ _ hs with
  | record device conn due hkey hslot => exact ⟨due, hslot⟩
  | jobs other values hkey hslot => exact absurd hkey.symm (BridgeJob.listKey_ne_key other _ _)
  | replies job values e hkey hslot => exact absurd hkey.symm (BridgeJob.replyKey_ne_key job _ _)

theorem Filed.at_listKey {device : String} {slot : StoreSlot}
    (hs : s.slots.get? (BridgeJob.listKey device) = some slot) :
    ∃ values, slot = ⟨.list values, none⟩ := by
  cases h.entries _ _ hs with
  | record other conn due hkey hslot => exact absurd hkey (BridgeJob.listKey_ne_key device _ _)
  | jobs device values hkey hslot => exact ⟨values, hslot⟩
  | replies job values e hkey hslot => exact absurd hkey (BridgeJob.listKey_ne_replyKey device job)

theorem Filed.put {key : String} {slot : StoreSlot} (he : Entry key slot) :
    Filed ⟨s.slots.put key slot⟩ := by
  refine ⟨h.distinct.put key slot, fun k x hx => ?_⟩
  change (s.slots.put key slot).get? k = some x at hx
  rw [Table.get?_put] at hx
  split at hx
  · rename_i hk
    cases hx
    exact hk ▸ he
  · exact h.entries k x hx

theorem Filed.del (key : String) : (s.del key).Filed := by
  refine ⟨h.distinct.erase key, fun k x hx => ?_⟩
  change (s.slots.erase key).get? k = some x at hx
  rw [Table.get?_erase] at hx
  split at hx
  · cases hx
  · exact h.entries k x hx

theorem Filed.live {key : String} {now : Nat} {slot : StoreSlot}
    (hs : s.live? key now = some slot) : Entry key slot :=
  h.entries key slot (Option.filter_eq_some_iff.mp hs).1

theorem Filed.setEx (device : String) (conn : Uuid) (ttl now : Nat) :
    (s.setEx (Presence.key device conn) "1" ttl now).Filed :=
  h.put (.record device conn _ rfl rfl)

/-- A job list is never made to lapse. -/
theorem Filed.expire {key : String} (hkey : ∀ device, key ≠ BridgeJob.listKey device)
    (ttl now : Nat) : (s.expire key ttl now).1.Filed := by
  unfold Store.expire
  split
  · rename_i slot hs
    cases h.live hs with
    | record device conn due hk hslot => exact h.put (.record device conn _ hk (by rw [hslot]))
    | jobs device values hk hslot => exact absurd hk (hkey device)
    | replies job values e hk hslot => exact h.put (.replies job values _ hk (by rw [hslot]))
  · exact h.del key

theorem Filed.countPrefix (start : String) (now : Nat) : (s.countPrefix start now).1.Filed := by
  refine ⟨h.distinct.sublist (List.filter_sublist.map _), fun k x hx => ?_⟩
  have hmem : (k, x) ∈ s.slots := (List.mem_filter.mp (Table.mem_of_get? hx)).1
  exact h.entries k x (Table.get?_of_mem h.distinct hmem)

theorem Filed.rpush {key value : String} {now : Nat} {s' : Store}
    (hkey : HoldsList key) (hs : s.rpush key value now = .ok s') : s'.Filed := by
  unfold Store.rpush at hs
  split at hs
  · cases hs
    rcases hkey with ⟨device, hk⟩ | ⟨job, hk⟩
    · exact (h.del key).put (.jobs device _ hk rfl)
    · exact (h.del key).put (.replies job _ _ hk rfl)
  · rename_i slot hlive
    cases h.live hlive with
    | record device conn due hk hslot => rw [hslot] at hs; cases hs
    | jobs device values hk hslot =>
      rw [hslot] at hs
      cases hs
      exact h.put (.jobs device _ hk rfl)
    | replies job values e hk hslot =>
      rw [hslot] at hs
      cases hs
      exact h.put (.replies job _ e hk rfl)

/-- Nothing but a list stands at a key for one. -/
theorem Filed.lists {key : String} {now : Nat} {slot : StoreSlot}
    (hkey : HoldsList key) (hs : s.live? key now = some slot) :
    ∃ values expiresAt, slot = ⟨.list values, expiresAt⟩ := by
  cases h.live hs with
  | record device conn due hk hslot =>
    rcases hkey with ⟨other, rfl⟩ | ⟨job, rfl⟩
    · exact absurd hk (BridgeJob.listKey_ne_key other device conn)
    · exact absurd hk (BridgeJob.replyKey_ne_key job device conn)
  | jobs device values hk hslot => exact ⟨values, none, hslot⟩
  | replies job values e hk hslot => exact ⟨values, e, hslot⟩

/-- Jobs never lapse. -/
theorem Filed.listed_jobs (device : String) (now later : Nat) :
    s.listed (BridgeJob.listKey device) later = s.listed (BridgeJob.listKey device) now := by
  unfold Store.listed Store.live?
  cases hs : s.slots.get? (BridgeJob.listKey device) with
  | none => rfl
  | some slot =>
    obtain ⟨values, rfl⟩ := h.at_listKey hs
    rfl

theorem Filed.rpush_ok {key : String} (hkey : HoldsList key) (value : String) (now : Nat) :
    ∃ s', s.rpush key value now = .ok s' := by
  unfold Store.rpush
  cases hs : s.live? key now with
  | none => exact ⟨_, rfl⟩
  | some slot =>
    obtain ⟨values, expiresAt, rfl⟩ := h.lists hkey hs
    exact ⟨_, rfl⟩

theorem Filed.tryPop_ok {key : String} (hkey : HoldsList key) (now : Nat) :
    ∃ value, (s.tryPop key now).2 = .ok value := by
  unfold Store.tryPop
  cases hs : s.live? key now with
  | none => exact ⟨_, rfl⟩
  | some slot =>
    obtain ⟨values, expiresAt, rfl⟩ := h.lists hkey hs
    rcases values with _ | ⟨value, _ | rest⟩ <;> exact ⟨_, rfl⟩

theorem Filed.tryPop_nil {key : String} {now : Nat}
    (hkey : HoldsList key) (hs : s.listed key now = []) :
    (s.tryPop key now).2 = .ok none ∧ (s.tryPop key now).1.listed key now = [] := by
  unfold Store.listed at hs
  unfold Store.tryPop
  cases hlive : s.live? key now with
  | none => exact ⟨rfl, s.listed_del key now⟩
  | some slot =>
    obtain ⟨values, expiresAt, rfl⟩ := h.lists hkey hlive
    rw [hlive] at hs
    obtain rfl : values = [] := hs
    exact ⟨rfl, s.listed_del key now⟩

theorem Filed.tryPop (key : String) (now : Nat) : (s.tryPop key now).1.Filed := by
  unfold Store.tryPop
  split
  · exact h.del key
  · rename_i slot hlive
    cases h.live hlive with
    | record device conn due hk hslot => rw [hslot]; exact h
    | jobs device values hk hslot =>
      rw [hslot]
      split
      · exact h
      · exact h.del key
      · exact h.del key
      · exact h.put (.jobs device _ hk rfl)
    | replies job values e hk hslot =>
      rw [hslot]
      split
      · exact h
      · exact h.del key
      · exact h.del key
      · exact h.put (.replies job _ e hk rfl)

end Filed

end FleetControl.Store
