import FleetControl.Proofs.Store

/-! # A store from which keys go at once

A store in which no operation asks whether a key has lapsed: at every instant the keys whose time
has come are taken out. The shared store leaves them in, and holds the same live keys. -/
namespace FleetControl

/-- The keys with their slots, as long as they are to stay. -/
structure PromptStore where
  slots : Table String StoreSlot := []

namespace PromptStore

def setEx (m : PromptStore) (key value : String) (due : Nat) : PromptStore :=
  ⟨m.slots.put key ⟨.text value, some due⟩⟩

def expire (m : PromptStore) (key : String) (due : Nat) : PromptStore × Bool :=
  match m.slots.get? key with
  | some slot => (⟨m.slots.put key { slot with expiresAt := some due }⟩, true)
  | none => (m, false)

def del (m : PromptStore) (key : String) : PromptStore := ⟨m.slots.erase key⟩

def countPrefix (m : PromptStore) (start : String) : Nat :=
  m.slots.countP fun e => start.isPrefixOf e.1

def rpush (m : PromptStore) (key value : String) : Outcome PromptStore :=
  match m.slots.get? key with
  | none => .ok ⟨m.slots.put key ⟨.list [value], none⟩⟩
  | some ⟨.list values, due⟩ => .ok ⟨m.slots.put key ⟨.list (values ++ [value]), due⟩⟩
  | some ⟨.text _, _⟩ => .error (Store.wrongKind key)

def tryPop (m : PromptStore) (key : String) : PromptStore × Outcome (Option String) :=
  match m.slots.get? key with
  | none => (m, .ok none)
  | some ⟨.text _, _⟩ => (m, .error (Store.wrongKind key))
  | some ⟨.list [], _⟩ => (m.del key, .ok none)
  | some ⟨.list [value], _⟩ => (m.del key, .ok (some value))
  | some ⟨.list (value :: rest), due⟩ => (⟨m.slots.put key ⟨.list rest, due⟩⟩, .ok (some value))

/-- Takes out what lapses at an instant. -/
def sweep (m : PromptStore) (now : Nat) : PromptStore := ⟨m.slots.filter fun e => e.2.isLive now⟩

/-- Nothing that has lapsed is left. -/
def Clear (m : PromptStore) (now : Nat) : Prop :=
  ∀ key slot, m.slots.get? key = some slot → slot.isLive now = true

/-- Both stores hold the same live keys. -/
structure Mirrors (now : Nat) (s : Store) (m : PromptStore) : Prop where
  store : s.slots.Distinct
  prompt : m.slots.Distinct
  live : ∀ key, (m.slots.get? key).filter (·.isLive now) = s.live? key now

section Mirrors
variable {now : Nat} {s : Store} {m : PromptStore}

theorem mirrors_empty (now : Nat) : Mirrors now {} {} :=
  ⟨List.nodup_nil, List.nodup_nil, fun _ => rfl⟩

theorem Mirrors.get? (h : Mirrors now s m) (hc : m.Clear now) (key : String) :
    m.slots.get? key = s.live? key now := by
  rw [← h.live key]
  cases hk : m.slots.get? key with
  | none => rfl
  | some slot => rw [Option.filter_some, if_pos (hc key slot hk)]

theorem Mirrors.put (h : Mirrors now s m) (key : String) (slot : StoreSlot) :
    Mirrors now ⟨s.slots.put key slot⟩ ⟨m.slots.put key slot⟩ where
  store := h.store.put key slot
  prompt := h.prompt.put key slot
  live other := by
    rw [Store.live?, Table.get?_put, Table.get?_put]
    split
    · rfl
    · exact h.live other

theorem Mirrors.del (h : Mirrors now s m) (key : String) : Mirrors now (s.del key) (m.del key) where
  store := h.store.erase key
  prompt := h.prompt.erase key
  live other := by
    rw [Store.live?, PromptStore.del, Store.del, Table.get?_erase, Table.get?_erase]
    split
    · rfl
    · exact h.live other

/-- A lapsed key may go. -/
theorem Mirrors.drop (h : Mirrors now s m) {key : String} (hk : s.live? key now = none) :
    Mirrors now (s.del key) m where
  store := h.store.erase key
  prompt := h.prompt
  live other := by
    rw [h.live, Store.live?, Store.live?, Store.del, Table.get?_erase]
    split
    · rename_i ho
      rw [ho]
      exact hk
    · rfl

theorem isLive_of_later {slot : StoreSlot} {now later : Nat} (h : slot.isLive later = true)
    (hle : now ≤ later) : slot.isLive now = true := by
  unfold StoreSlot.isLive at h ⊢
  split at h
  · rfl
  · exact decide_eq_true (Nat.lt_of_le_of_lt hle (of_decide_eq_true h))

theorem filter_live {now later : Nat} (hle : now ≤ later) (slot? : Option StoreSlot) :
    (slot?.filter (·.isLive now)).filter (·.isLive later) = slot?.filter (·.isLive later) := by
  rw [Option.filter_filter]
  congr 1
  funext slot
  by_cases hl : slot.isLive later = true
  · rw [hl, isLive_of_later hl hle]
    rfl
  · rw [eq_false_of_ne_true hl, Bool.and_false]

/-- The clock goes on, and what has lapsed is taken out. -/
theorem Mirrors.sweep (h : Mirrors now s m) {later : Nat} (hle : now ≤ later) :
    Mirrors later s (m.sweep later) ∧ (m.sweep later).Clear later := by
  have hswept : ∀ key, (m.sweep later).slots.get? key =
      (m.slots.get? key).filter (·.isLive later) :=
    fun key => Table.get?_filter h.prompt (·.isLive later) key
  refine ⟨⟨h.store, h.prompt.filter _, fun key => ?_⟩, fun key slot hslot => ?_⟩
  · -- What is live later is live now, so both stores have it.
    have hsame := congrArg (Option.filter (·.isLive later)) (h.live key)
    rw [Store.live?, filter_live hle, filter_live hle] at hsame
    rw [hswept, Option.filter_filter, Store.live?, ← hsame]
    simp only [Bool.and_self]
  · rw [hswept] at hslot
    exact (Option.filter_eq_some_iff.mp hslot).2

theorem Mirrors.setEx (h : Mirrors now s m) (key value : String) (ttl : Nat) :
    Mirrors now (s.setEx key value ttl now) (m.setEx key value (now + ttl)) := h.put key _

theorem Mirrors.expire (h : Mirrors now s m) (hc : m.Clear now) (key : String) (ttl : Nat) :
    (s.expire key ttl now).2 = (m.expire key (now + ttl)).2 ∧
      Mirrors now (s.expire key ttl now).1 (m.expire key (now + ttl)).1 := by
  unfold Store.expire PromptStore.expire
  rw [h.get? hc key]
  cases hk : s.live? key now with
  | none => exact ⟨rfl, h.drop hk⟩
  | some slot => exact ⟨rfl, h.put key _⟩

theorem Mirrors.countPrefix (h : Mirrors now s m) (hc : m.Clear now) (start : String) :
    (s.countPrefix start now).2 = m.countPrefix start ∧
      Mirrors now (s.countPrefix start now).1 m := by
  have hlive : ∀ key, (s.countPrefix start now).1.slots.get? key = s.live? key now :=
    fun key => Table.get?_filter h.store (·.isLive now) key
  have hdistinct : Table.Distinct (s.countPrefix start now).1.slots := h.store.filter _
  refine ⟨?_, ⟨hdistinct, h.prompt, fun key => ?_⟩⟩
  · exact (Table.perm_of_get? hdistinct h.prompt
      fun key => (hlive key).trans (h.get? hc key).symm).countP_eq _
  · have hafter : (s.countPrefix start now).1.live? key now =
        ((s.countPrefix start now).1.slots.get? key).filter (·.isLive now) := rfl
    rw [h.live, hafter, hlive, Store.live?, filter_live (Nat.le_refl now)]

theorem Mirrors.rpush (h : Mirrors now s m) (hc : m.Clear now) (key value : String) :
    (∃ e, s.rpush key value now = .error e ∧ m.rpush key value = .error e) ∨
      ∃ s' m', s.rpush key value now = .ok s' ∧ m.rpush key value = .ok m' ∧ Mirrors now s' m' := by
  unfold Store.rpush PromptStore.rpush
  rw [h.get? hc key]
  cases hk : s.live? key now with
  | none => exact Or.inr ⟨_, _, rfl, rfl, (h.drop hk).put key _⟩
  | some slot =>
    obtain ⟨kind, due⟩ := slot
    cases kind with
    | text value => exact Or.inl ⟨_, rfl, rfl⟩
    | list values => exact Or.inr ⟨_, _, rfl, rfl, h.put key _⟩

theorem Mirrors.tryPop (h : Mirrors now s m) (hc : m.Clear now) (key : String) :
    (s.tryPop key now).2 = (m.tryPop key).2 ∧
      Mirrors now (s.tryPop key now).1 (m.tryPop key).1 := by
  unfold Store.tryPop PromptStore.tryPop
  rw [h.get? hc key]
  cases hk : s.live? key now with
  | none => exact ⟨rfl, h.drop hk⟩
  | some slot =>
    obtain ⟨kind, due⟩ := slot
    cases kind with
    | text value => exact ⟨rfl, h⟩
    | list values =>
      match values with
      | [] => exact ⟨rfl, h.del key⟩
      | [value] => exact ⟨rfl, h.del key⟩
      | value :: next :: rest => exact ⟨rfl, h.put key _⟩

end Mirrors

end PromptStore

end FleetControl
