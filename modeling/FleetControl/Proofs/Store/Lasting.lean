import FleetControl.Proofs.Store

/-! # Lists that last

A key that is used as a list only, and never made to lapse, holds the texts that were appended and
not taken yet, at every time. When the last one is taken, the key is gone until the next one comes. -/
namespace FleetControl.Store

/-- A key holds these texts for good. Without any there is no such key. -/
def Holds (s : Store) (key : String) : List String → Prop
  | [] => s.slots.get? key = none
  | value :: rest => s.slots.get? key = some ⟨.list (value :: rest), none⟩

section Holds
variable {s s' : Store} {key : String} {values : List String}

theorem Holds.congr (h : s.Holds key values) (hs : s'.slots.get? key = s.slots.get? key) :
    s'.Holds key values := by
  cases values with
  | nil => exact hs.trans h
  | cons value rest => exact hs.trans h

theorem Holds.listed (h : s.Holds key values) (now : Nat) : s.listed key now = values := by
  cases values with
  | nil =>
    have hnone : s.slots.get? key = none := h
    rw [Store.listed, live?, hnone]
    rfl
  | cons value rest => exact listed_of_slot h fun _ hdue => absurd hdue (Option.some_ne_none _).symm

/-- A text is appended, whenever that is. -/
theorem Holds.rpush (h : s.Holds key values) (value : String) (now : Nat) :
    ∃ s', s.rpush key value now = .ok s' ∧ s'.Holds key (values ++ [value]) := by
  cases values with
  | nil =>
    have hnone : s.live? key now = none := by
      rw [live?, show s.slots.get? key = none from h]
      rfl
    exact ⟨_, by rw [Store.rpush, hnone], Table.get?_put_self ..⟩
  | cons first rest =>
    have hlive : s.live? key now = some ⟨.list (first :: rest), none⟩ := by
      rw [live?, show s.slots.get? key = some ⟨.list (first :: rest), none⟩ from h]
      rfl
    refine ⟨⟨s.slots.put key ⟨.list (first :: rest ++ [value]), none⟩⟩, ?_, Table.get?_put_self ..⟩
    rw [Store.rpush, hlive]

/-- The first text is taken, if there is one. -/
theorem Holds.tryPop (h : s.Holds key values) (now : Nat) :
    (s.tryPop key now).2 = .ok values.head? ∧ (s.tryPop key now).1.Holds key values.tail := by
  have hgone : (s.del key).Holds key [] := Table.get?_erase_self ..
  cases values with
  | nil =>
    have hnone : s.live? key now = none := by
      rw [live?, show s.slots.get? key = none from h]
      rfl
    rw [Store.tryPop, hnone]
    exact ⟨rfl, hgone⟩
  | cons first rest =>
    have hlive : s.live? key now = some ⟨.list (first :: rest), none⟩ := by
      rw [live?, show s.slots.get? key = some ⟨.list (first :: rest), none⟩ from h]
      rfl
    rw [Store.tryPop, hlive]
    cases rest with
    | nil => exact ⟨rfl, hgone⟩
    | cons second rest => exact ⟨rfl, Table.get?_put_self ..⟩

/-- Lapsed keys are taken out, which it is not. -/
theorem Holds.countPrefix (h : s.Holds key values) (start : String) (now : Nat) :
    (s.countPrefix start now).1.Holds key values := by
  refine h.congr (Table.get?_filter_of_get? fun slot hslot => ?_)
  cases values with
  | nil =>
    have hnone : s.slots.get? key = none := h
    rw [hnone] at hslot
    cases hslot
  | cons value rest =>
    have hsome : s.slots.get? key = some ⟨.list (value :: rest), none⟩ := h
    rw [hsome] at hslot
    cases hslot
    rfl

end Holds

end FleetControl.Store
