import FleetControl.Proofs.Table
import FleetControl.Store.Shared

/-! # Lists of the store

A list gives its texts back in the order in which they were appended, until its key lapses. -/
namespace FleetControl.Store

/-- The texts on the list at a key; none if the key has lapsed. -/
def listed (s : Store) (key : String) (now : Nat) : List String :=
  match s.live? key now with
  | some ⟨.list values, _⟩ => values
  | _ => []

theorem listed_of_slot {s : Store} {key : String} {values : List String} {expiresAt : Option Nat}
    {now : Nat} (h : s.slots.get? key = some ⟨.list values, expiresAt⟩)
    (hlive : ∀ t ∈ expiresAt, now < t) : s.listed key now = values := by
  have hslot : StoreSlot.isLive ⟨.list values, expiresAt⟩ now = true := by
    cases expiresAt with
    | none => rfl
    | some t => exact decide_eq_true (hlive t rfl)
  rw [listed, live?, h, Option.filter_some, if_pos hslot]

theorem listed_put {slot : StoreSlot} {now : Nat} (h : slot.isLive now = true)
    (slots : Table String StoreSlot) (key : String) (values : List String) :
    (Store.mk (slots.put key { slot with value := .list values })).listed key now = values := by
  have hlive : ({ slot with value := .list values } : StoreSlot).isLive now = true := h
  rw [listed, live?, Table.get?_put_self, Option.filter_some, if_pos hlive]

theorem listed_del (s : Store) (key : String) (now : Nat) : (s.del key).listed key now = [] := by
  rw [listed, live?, del, Table.get?_erase_self]
  rfl

theorem isLive_of_live {s : Store} {key : String} {now : Nat} {slot : StoreSlot}
    (h : s.live? key now = some slot) : slot.isLive now = true :=
  (Option.filter_eq_some_iff.mp h).2

theorem listed_rpush {s s' : Store} {key value : String} {now : Nat}
    (h : s.rpush key value now = .ok s') :
    s'.listed key now = s.listed key now ++ [value] := by
  unfold rpush at h
  cases hlive : s.live? key now with
  | none =>
    rw [hlive] at h
    cases h
    have hnone : s.listed key now = [] := by rw [listed, hlive]
    have hlasting : StoreSlot.isLive ⟨.list [], none⟩ now = true := rfl
    rw [hnone]
    exact listed_put hlasting _ key [value]
  | some slot =>
    have hslot := isLive_of_live hlive
    rw [hlive] at h
    obtain ⟨kind, expiresAt⟩ := slot
    cases kind with
    | text value => cases h
    | list values =>
      cases h
      rw [listed_put hslot, listed, hlive]

/-- What is taken off a list is its head. -/
theorem tryPop_listed {s : Store} {key value : String} {rest : List String} {now : Nat}
    (h : s.listed key now = value :: rest) :
    (s.tryPop key now).2 = .ok (some value) ∧ (s.tryPop key now).1.listed key now = rest := by
  unfold listed at h
  unfold tryPop
  cases hlive : s.live? key now with
  | none =>
    rw [hlive] at h
    cases h
  | some slot =>
    have hslot := isLive_of_live hlive
    rw [hlive] at h
    obtain ⟨kind, expiresAt⟩ := slot
    cases kind with
    | text value => cases h
    | list values =>
      obtain rfl : values = value :: rest := h
      cases rest with
      | nil => exact ⟨rfl, s.listed_del key now⟩
      | cons next rest => exact ⟨rfl, listed_put hslot _ key (next :: rest)⟩

theorem slot_rpush {s : Store} {key : String} {now : Nat} (h : s.live? key now = none)
    (value : String) : ∃ s', s.rpush key value now = .ok s' ∧
      s'.live? key now = some ⟨.list [value], none⟩ := by
  refine ⟨_, by rw [rpush, h], ?_⟩
  rw [live?, Table.get?_put_self]
  rfl

/-- There is something at a key onto which something was pushed. -/
theorem live_rpush {s s' : Store} {key value : String} {now : Nat}
    (h : s.rpush key value now = .ok s') : ∃ slot, s'.live? key now = some slot := by
  have hlisted := listed_rpush h
  cases hlive : s'.live? key now with
  | none => simp [listed, hlive] at hlisted
  | some slot => exact ⟨slot, rfl⟩

/-- What is left of a list lapses when the list was to lapse. -/
theorem slot_tryPop {s : Store} {key : String} {now : Nat} {slot : StoreSlot}
    (h : (s.tryPop key now).1.slots.get? key = some slot) :
    ∃ before, s.slots.get? key = some before ∧ slot.expiresAt = before.expiresAt := by
  have hgone : ¬ (s.del key).slots.get? key = some slot := by
    rw [del, Table.get?_erase_self]
    simp
  unfold tryPop at h
  cases hlive : s.live? key now with
  | none =>
    rw [hlive] at h
    exact absurd h hgone
  | some before =>
    have hbefore := (Option.filter_eq_some_iff.mp hlive).1
    rw [hlive] at h
    obtain ⟨kind, expiresAt⟩ := before
    cases kind with
    | text held => exact ⟨slot, h, rfl⟩
    | list values =>
      dsimp only at h
      split at h
      · exact ⟨slot, h, rfl⟩
      · exact absurd h hgone
      · exact absurd h hgone
      · refine ⟨_, hbefore, ?_⟩
        rw [Table.get?_put_self] at h
        cases h
        rfl

theorem slot_expire {s : Store} {key : String} {now : Nat} {slot : StoreSlot}
    (h : s.live? key now = some slot) (ttl : Nat) :
    (s.expire key ttl now).1.slots.get? key = some { slot with expiresAt := some (now + ttl) } := by
  rw [expire, h]
  exact Table.get?_put_self ..

/-- As time goes on, a list stays as it is or is gone. -/
theorem listed_later (s : Store) (key : String) {now later : Nat} (h : now ≤ later) :
    s.listed key later = s.listed key now ∨ s.listed key later = [] := by
  unfold listed live?
  cases s.slots.get? key with
  | none => exact Or.inr rfl
  | some slot =>
    simp only [Option.filter_some]
    by_cases hlater : slot.isLive later = true
    · have hnow : slot.isLive now = true := by
        unfold StoreSlot.isLive at hlater ⊢
        split at hlater
        · rfl
        · exact decide_eq_true (Nat.lt_of_le_of_lt h (of_decide_eq_true hlater))
      left
      rw [if_pos hlater, if_pos hnow]
    · right
      rw [if_neg hlater]

theorem listed_expire (s : Store) (key : String) (now : Nat) {ttl : Nat} (h : 0 < ttl) :
    (s.expire key ttl now).1.listed key now = s.listed key now := by
  cases hlive : s.live? key now with
  | none =>
    have hnone : s.listed key now = [] := by rw [listed, hlive]
    rw [expire, hlive, hnone]
    exact s.listed_del key now
  | some slot =>
    have hslot := slot_expire hlive ttl
    have hlasts : StoreSlot.isLive { slot with expiresAt := some (now + ttl) } now = true :=
      decide_eq_true (Nat.lt_add_of_pos_right h)
    rw [listed, listed, hlive, live?, hslot, Option.filter_some, if_pos hlasts]
    obtain ⟨kind, expiresAt⟩ := slot
    cases kind <;> rfl

theorem live_congr {s s' : Store} {key : String} (h : s'.slots.get? key = s.slots.get? key)
    (now : Nat) : s'.live? key now = s.live? key now := by
  rw [live?, live?, h]

theorem listed_congr {s s' : Store} {key : String} (h : s'.slots.get? key = s.slots.get? key)
    (now : Nat) : s'.listed key now = s.listed key now := by
  rw [listed, listed, live_congr h]

end FleetControl.Store

namespace FleetControl.SharedStore

theorem refusal_eq_none {s : SharedStore} (hup : s.down = []) (op : StoreOp) :
    s.refusal? op = none := by
  rw [refusal?, hup]
  exact if_neg List.not_mem_nil

/-- Nothing changes except at one key. -/
structure Touches (key : String) (s s' : SharedStore) : Prop where
  down : s'.down = s.down
  slots : ∀ k, k ≠ key → s'.store.slots.get? k = s.store.slots.get? k

theorem Touches.refl (key : String) (s : SharedStore) : Touches key s s := ⟨rfl, fun _ _ => rfl⟩

theorem Touches.trans {key : String} {s₁ s₂ s₃ : SharedStore} (h : Touches key s₁ s₂)
    (h' : Touches key s₂ s₃) : Touches key s₁ s₃ :=
  ⟨h'.down.trans h.down, fun k hk => (h'.slots k hk).trans (h.slots k hk)⟩

section Touches
variable (s : SharedStore) (key : String) (now : Nat)

theorem touches_put (slots : Table String StoreSlot) (slot : StoreSlot)
    (h : ∀ k, k ≠ key → slots.get? k = s.store.slots.get? k) :
    Touches key s { s with store := ⟨slots.put key slot⟩ } :=
  ⟨rfl, fun k hk => (Table.get?_put_of_ne slots slot hk).trans (h k hk)⟩

theorem touches_erase : Touches key s { s with store := s.store.del key } :=
  ⟨rfl, fun _ hk => Table.get?_erase_of_ne s.store.slots hk⟩

theorem touches_setEx (value : String) (ttl : Nat) :
    Touches key s (s.setEx key value ttl now).1 := by
  unfold setEx
  split
  · exact Touches.refl key s
  · exact touches_put s key s.store.slots _ fun _ _ => rfl

theorem touches_expire (ttl : Nat) : Touches key s (s.expire key ttl now).1 := by
  unfold expire Store.expire
  split
  · exact Touches.refl key s
  · dsimp only
    split
    · exact touches_put s key s.store.slots _ fun _ _ => rfl
    · exact touches_erase s key

theorem touches_del : Touches key s (s.del key).1 := by
  unfold del
  split
  · exact Touches.refl key s
  · exact touches_erase s key

theorem touches_rpush (value : String) : Touches key s (s.rpush key value now).1 := by
  unfold rpush Store.rpush
  split
  · exact Touches.refl key s
  · cases s.store.live? key now with
    | none => exact touches_put s key _ _ fun k hk => Table.get?_erase_of_ne s.store.slots hk
    | some slot =>
      obtain ⟨kind, expiresAt⟩ := slot
      cases kind with
      | text held => exact Touches.refl key s
      | list values => exact touches_put s key s.store.slots _ fun _ _ => rfl

theorem touches_tryPop : Touches key s (s.tryPop key now).1 := by
  unfold tryPop Store.tryPop
  cases s.store.live? key now with
  | none => exact touches_erase s key
  | some slot =>
    obtain ⟨kind, expiresAt⟩ := slot
    cases kind with
    | text held => exact Touches.refl key s
    | list values =>
      dsimp only
      split
      · exact Touches.refl key s
      · exact touches_erase s key
      · exact touches_erase s key
      · exact touches_put s key s.store.slots _ fun _ _ => rfl

end Touches

end FleetControl.SharedStore
