import FleetControl.Proofs.Presence.Records
import FleetControl.Proofs.Store.Filing

/-! # Requests about records

What a process asks of the store about its connections, request by request, and which requests
succeed. A record is as the last request that succeeded left it, until it lapses. -/
namespace FleetControl

/-- A request about the record of a connection. To renew a record that has lapsed fails. -/
structure Request where
  op : StoreOp
  device : String
  conn : Uuid
  /-- How long the record is to live, in milliseconds. -/
  ttl : Nat
  succeeded : Bool

/-- The record of a connection lives on through it. -/
def Request.Renews (r : Request) (device : String) (conn : Uuid) : Prop :=
  (r.op = .setEx ∨ r.op = .expire) ∧ r.device = device ∧ r.conn = conn ∧ r.succeeded = true

/-- Whether the store found the record that it was to renew. -/
def found : Outcome Bool → Bool
  | .ok b => b
  | .error _ => false

/-- The store serves requests at one instant. -/
inductive Served (now : Nat) : SharedStore → List Request → SharedStore → Prop
  | nil (s : SharedStore) : Served now s [] s
  | setEx {s rs s'} (device conn ttl)
      (rest : Served now (s.setEx (Presence.key device conn) "1" ttl now).1 rs s') :
      Served now s (⟨.setEx, device, conn, ttl,
        (s.setEx (Presence.key device conn) "1" ttl now).2.isOk⟩ :: rs) s'
  | expire {s rs s'} (device conn ttl)
      (rest : Served now (s.expire (Presence.key device conn) ttl now).1 rs s') :
      Served now s (⟨.expire, device, conn, ttl,
        found (s.expire (Presence.key device conn) ttl now).2⟩ :: rs) s'
  | del {s rs s'} (device conn ttl) (rest : Served now (s.del (Presence.key device conn)).1 rs s') :
      Served now s (⟨.del, device, conn, ttl, (s.del (Presence.key device conn)).2.isOk⟩ :: rs) s'

section Served
variable {now : Nat} {s s' : SharedStore} {rs : List Request}

/-- The record of a connection that no request names stays as it is. -/
theorem Served.untouched (h : Served now s rs s') {conn : Uuid} (hr : ∀ r ∈ rs, r.conn ≠ conn)
    (device : String) : s'.store.slots.get? (Presence.key device conn) =
      s.store.slots.get? (Presence.key device conn) := by
  have hkey : ∀ {other : String} {x : Uuid}, x ≠ conn →
      Presence.key device conn ≠ Presence.key other x := fun hx he =>
    hx (Presence.key_inj he).2.symm
  induction h with
  | nil s => rfl
  | setEx other x ttl rest ih =>
    obtain ⟨hx, hrs⟩ := List.forall_mem_cons.mp hr
    exact (ih hrs).trans ((SharedStore.touches_setEx _ _ now "1" ttl).slots _ (hkey hx))
  | expire other x ttl rest ih =>
    obtain ⟨hx, hrs⟩ := List.forall_mem_cons.mp hr
    exact (ih hrs).trans ((SharedStore.touches_expire _ _ now ttl).slots _ (hkey hx))
  | del other x ttl rest ih =>
    obtain ⟨hx, hrs⟩ := List.forall_mem_cons.mp hr
    exact (ih hrs).trans ((SharedStore.touches_del _ _).slots _ (hkey hx))

theorem slots_setEx {key : String} {ttl : Nat} {slot : StoreSlot} {k : String}
    (h : (s.setEx key "1" ttl now).1.store.slots.get? k = some slot) :
    s.store.slots.get? k = some slot ∨
      (k = key ∧ (s.setEx key "1" ttl now).2.isOk = true ∧ slot.expiresAt = some (now + ttl)) := by
  unfold SharedStore.setEx at h ⊢
  cases hd : s.refusal? .setEx with
  | some e =>
    rw [hd] at h
    exact Or.inl h
  | none =>
    rw [hd] at h
    change (s.store.slots.put key _).get? k = some slot at h
    rw [Table.get?_put] at h
    split at h
    · rename_i hk
      cases h
      exact Or.inr ⟨hk, rfl, rfl⟩
    · exact Or.inl h

theorem slots_expire {key : String} {ttl : Nat} {slot : StoreSlot} {k : String}
    (h : (s.expire key ttl now).1.store.slots.get? k = some slot) :
    s.store.slots.get? k = some slot ∨
      (k = key ∧ found (s.expire key ttl now).2 = true ∧ slot.expiresAt = some (now + ttl)) := by
  unfold SharedStore.expire Store.expire at h ⊢
  cases hd : s.refusal? .expire with
  | some e =>
    rw [hd] at h
    exact Or.inl h
  | none =>
    rw [hd] at h
    cases hl : s.store.live? key now with
    | some old =>
      rw [hl] at h
      change (s.store.slots.put key _).get? k = some slot at h
      rw [Table.get?_put] at h
      split at h
      · rename_i hk
        cases h
        exact Or.inr ⟨hk, rfl, rfl⟩
      · exact Or.inl h
    | none =>
      rw [hl] at h
      change (s.store.slots.erase key).get? k = some slot at h
      rw [Table.get?_erase] at h
      split at h
      · cases h
      · exact Or.inl h

theorem slots_del {key : String} {slot : StoreSlot} {k : String}
    (h : (s.del key).1.store.slots.get? k = some slot) : s.store.slots.get? k = some slot := by
  unfold SharedStore.del at h
  split at h
  · exact h
  · change (s.store.slots.erase key).get? k = some slot at h
    rw [Table.get?_erase] at h
    split at h
    · cases h
    · exact h

/-- A record stood there before, or a request made it live on from now. -/
theorem Served.dated (h : Served now s rs s') {device : String} {conn : Uuid} {slot : StoreSlot}
    (hslot : s'.store.slots.get? (Presence.key device conn) = some slot) :
    s.store.slots.get? (Presence.key device conn) = some slot ∨
      ∃ r ∈ rs, r.Renews device conn ∧ slot.expiresAt = some (now + r.ttl) := by
  induction h with
  | nil s => exact Or.inl hslot
  | setEx other x ttl rest ih =>
    rcases ih hslot with hold | ⟨r, hr, hrenews⟩
    · rcases slots_setEx hold with hold | ⟨hk, hok, hdue⟩
      · exact Or.inl hold
      · obtain ⟨rfl, rfl⟩ := Presence.key_inj hk
        exact Or.inr ⟨_, List.mem_cons_self, ⟨Or.inl rfl, rfl, rfl, hok⟩, hdue⟩
    · exact Or.inr ⟨r, List.mem_cons_of_mem _ hr, hrenews⟩
  | expire other x ttl rest ih =>
    rcases ih hslot with hold | ⟨r, hr, hrenews⟩
    · rcases slots_expire hold with hold | ⟨hk, hok, hdue⟩
      · exact Or.inl hold
      · obtain ⟨rfl, rfl⟩ := Presence.key_inj hk
        exact Or.inr ⟨_, List.mem_cons_self, ⟨Or.inr rfl, rfl, rfl, hok⟩, hdue⟩
    · exact Or.inr ⟨r, List.mem_cons_of_mem _ hr, hrenews⟩
  | del other x ttl rest ih =>
    rcases ih hslot with hold | ⟨r, hr, hrenews⟩
    · exact Or.inl (slots_del hold)
    · exact Or.inr ⟨r, List.mem_cons_of_mem _ hr, hrenews⟩

theorem Served.down (h : Served now s rs s') : s'.down = s.down := by
  induction h with
  | nil s => rfl
  | setEx other x ttl rest ih => exact ih.trans (SharedStore.touches_setEx _ _ now "1" ttl).down
  | expire other x ttl rest ih => exact ih.trans (SharedStore.touches_expire _ _ now ttl).down
  | del other x ttl rest ih => exact ih.trans (SharedStore.touches_del _ _).down

end Served

/-- What a process does about the record of a connection. -/
inductive Deed where
  | mark (device : String) (conn : Uuid)
  | refresh (conn : Uuid)
  | remove (conn : Uuid)

namespace Deed

def conn : Deed → Uuid
  | .mark _ conn => conn
  | .refresh conn => conn
  | .remove conn => conn

variable (q : Presence) (s : SharedStore) (now : Nat)

/-- What becomes of the process's own records and of the store. -/
def effect : Deed → Presence × SharedStore
  | .mark device conn =>
    let (q, s, _) := q.markAlive s device conn now
    (q, s)
  | .refresh conn => (q, (q.refresh s conn now).1)
  | .remove conn =>
    let (q, s, _) := q.remove s conn
    (q, s)

/-- What the process asks of the store. -/
def asks : Deed → List Request
  | .mark device conn =>
    [⟨.setEx, device, conn, q.ttl, (s.setEx (Presence.key device conn) "1" q.ttl now).2.isOk⟩]
  | .refresh conn =>
    match q.held.get? conn with
    | none => []
    | some device =>
      let (renewed, result) := s.expire (Presence.key device conn) q.ttl now
      ⟨.expire, device, conn, q.ttl, found result⟩ ::
        match result with
        | .ok false =>
          [⟨.setEx, device, conn, q.ttl,
            (renewed.setEx (Presence.key device conn) "1" q.ttl now).2.isOk⟩]
        | _ => []
  | .remove conn =>
    match q.held.get? conn with
    | none => []
    | some device =>
      [⟨.del, device, conn, q.ttl, (s.del (Presence.key device conn)).2.isOk⟩]

theorem served (d : Deed) : Served now s (d.asks q s now) (d.effect q s now).2 := by
  cases d with
  | mark device conn =>
    have hend : (q.markAlive s device conn now).2.1 =
        (s.setEx (Presence.key device conn) "1" q.ttl now).1 := by
      unfold Presence.markAlive
      split <;> rename_i h <;> rw [h]
    change Served now s _ (q.markAlive s device conn now).2.1
    rw [hend]
    exact .setEx device conn q.ttl (.nil _)
  | refresh conn =>
    simp only [asks, effect, Presence.refresh]
    cases q.held.get? conn with
    | none => exact .nil s
    | some device =>
      have hserved := fun rs s' => @Served.expire now s rs s' device conn q.ttl
      dsimp only
      rcases hx : s.expire (Presence.key device conn) q.ttl now with ⟨s₁, e | _ | _⟩ <;>
        rw [hx] at hserved
      · exact hserved [] s₁ (.nil s₁)
      · exact hserved _ _ (.setEx device conn q.ttl (.nil _))
      · exact hserved [] s₁ (.nil s₁)
  | remove conn =>
    simp only [asks, effect, Presence.remove]
    cases q.held.get? conn with
    | none => exact .nil s
    | some device => exact .del device conn q.ttl (.nil _)

theorem ttl_effect (d : Deed) : (d.effect q s now).1.ttl = q.ttl := by
  cases d with
  | mark device conn =>
    simp only [effect, Presence.markAlive]
    split <;> rfl
  | refresh conn => rfl
  | remove conn =>
    simp only [effect, Presence.remove]
    split <;> rfl

theorem held_effect_of_ne (d : Deed) {x : Uuid} (h : x ≠ d.conn) :
    (d.effect q s now).1.held.get? x = q.held.get? x := by
  cases d with
  | mark device conn =>
    simp only [effect, Presence.markAlive]
    split
    · rfl
    · exact Table.get?_put_of_ne q.held device h
  | refresh conn => rfl
  | remove conn =>
    simp only [effect, Presence.remove]
    split
    · rfl
    · exact Table.get?_erase_of_ne q.held h

theorem held_effect_of_absent {d : Deed} (h : q.held.get? d.conn = none)
    (hm : ∀ device conn, d ≠ .mark device conn) :
    (d.effect q s now).1.held.get? d.conn = none := by
  cases d with
  | mark device conn => exact absurd rfl (hm device conn)
  | refresh conn => exact h
  | remove conn => exact q.held_remove s conn

/-- Requests name the connection, and the time that the records of the process live. -/
theorem named {d : Deed} {r : Request} (h : r ∈ d.asks q s now) :
    r.conn = d.conn ∧ r.ttl = q.ttl := by
  cases d with
  | mark device conn =>
    obtain rfl := List.mem_singleton.mp h
    exact ⟨rfl, rfl⟩
  | refresh conn =>
    simp only [asks] at h
    split at h
    · cases h
    · rcases List.mem_cons.mp h with rfl | h
      · exact ⟨rfl, rfl⟩
      · split at h
        · obtain rfl := List.mem_singleton.mp h
          exact ⟨rfl, rfl⟩
        · cases h
  | remove conn =>
    simp only [asks] at h
    split at h
    · cases h
    · obtain rfl := List.mem_singleton.mp h
      exact ⟨rfl, rfl⟩

/-- Nothing is asked about a connection without a record, except to mark it. -/
theorem asks_of_absent {d : Deed} (h : q.held.get? d.conn = none)
    (hm : ∀ device conn, d ≠ .mark device conn) : d.asks q s now = [] := by
  cases d with
  | mark device conn => exact absurd rfl (hm device conn)
  | refresh conn =>
    have hheld : q.held.get? conn = none := h
    simp only [asks, hheld]
  | remove conn =>
    have hheld : q.held.get? conn = none := h
    simp only [asks, hheld]

end Deed

namespace Presence
variable (q : Presence) (s : SharedStore) (conn : Uuid) (now : Nat)

/-- The record of a connection is there and lapses at some instant. -/
def Dated (s : SharedStore) (device : String) (conn : Uuid) (due : Nat) : Prop :=
  ∃ slot, s.store.slots.get? (key device conn) = some slot ∧ slot.expiresAt = some due

theorem Dated.inj {s : SharedStore} {device : String} {conn : Uuid} {due due' : Nat}
    (h : Dated s device conn due) (h' : Dated s device conn due') : due = due' := by
  obtain ⟨slot, hslot, hdue⟩ := h
  obtain ⟨slot', hslot', hdue'⟩ := h'
  rw [hslot] at hslot'
  cases hslot'
  exact Option.some.inj (hdue.symm.trans hdue')

theorem dated_setEx (hup : s.down = []) (device : String) (ttl : Nat) :
    Dated (s.setEx (key device conn) "1" ttl now).1 device conn (now + ttl) := by
  unfold SharedStore.setEx
  rw [SharedStore.refusal_eq_none hup]
  exact ⟨_, Table.get?_put_self .., rfl⟩

/-- A store that refuses nothing takes a new record. -/
theorem dated_markAlive (hup : s.down = []) (device : String) :
    Dated (q.markAlive s device conn now).2.1 device conn (now + q.ttl) ∧
      (q.markAlive s device conn now).1.held.get? conn = some device := by
  have hset := dated_setEx s conn now hup device q.ttl
  have hserves := SharedStore.refusal_eq_none hup .setEx
  unfold SharedStore.setEx at hset
  rw [hserves] at hset
  unfold markAlive SharedStore.setEx
  rw [hserves]
  exact ⟨hset, Table.get?_put_self ..⟩

theorem expire_eq (hup : s.down = []) (key : String) (ttl : Nat) : s.expire key ttl now =
    match s.store.live? key now with
    | some slot =>
      ({ s with store := ⟨s.store.slots.put key { slot with expiresAt := some (now + ttl) }⟩ },
        .ok true)
    | none => ({ s with store := s.store.del key }, .ok false) := by
  unfold SharedStore.expire Store.expire
  rw [SharedStore.refusal_eq_none hup]
  cases s.store.live? key now <;> rfl

/-- A store that refuses nothing renews a record or writes it again. -/
theorem dated_refresh (hup : s.down = []) {device : String} (h : q.held.get? conn = some device) :
    Dated (q.refresh s conn now).1 device conn (now + q.ttl) := by
  have hexpire := expire_eq s now hup (key device conn) q.ttl
  unfold refresh
  rw [h]
  dsimp only
  cases hlive : s.store.live? (key device conn) now with
  | some slot =>
    rw [hlive] at hexpire
    rw [hexpire]
    exact ⟨_, Table.get?_put_self .., rfl⟩
  | none =>
    rw [hlive] at hexpire
    rw [hexpire]
    exact dated_setEx { s with store := s.store.del (key device conn) } conn now hup device q.ttl

end Presence

end FleetControl
