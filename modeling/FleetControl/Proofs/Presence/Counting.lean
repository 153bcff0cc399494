import FleetControl.Proofs.Bridge.Lists
import FleetControl.Proofs.Cluster.Filing
import FleetControl.Proofs.Device.Directory
import FleetControl.Proofs.Presence.Records
import Mathlib.Data.Set.Card

/-! # Counting connections

The live connections of a device are counted by what their keys start with. A key that starts like
those of a device is one of them, or belongs to another device whose id goes on as they do: then
its connections are counted too, and so is its job list. -/
namespace FleetControl

/-- The entries of a table that have some property, counted by their keys. -/
theorem Table.countP_eq_ncard {κ ν : Type} [DecidableEq κ] {t : Table κ ν} (hd : t.Distinct)
    (p : κ × ν → Bool) :
    t.countP p = {k | ∃ v, t.get? k = some v ∧ p (k, v) = true}.ncard := by
  have hnodup : (Table.keys (t.filter p)).Nodup := hd.sublist (List.filter_sublist.map _)
  have hset : {k | ∃ v, t.get? k = some v ∧ p (k, v) = true} =
      ((Table.keys (t.filter p)).toFinset : Set κ) := by
    ext k
    rw [Set.mem_ofPred_eq, List.coe_toFinset, Set.mem_ofPred_eq, Table.keys, List.mem_map]
    constructor
    · rintro ⟨v, hv, hp⟩
      exact ⟨(k, v), List.mem_filter.mpr ⟨Table.mem_of_get? hv, hp⟩, rfl⟩
    · rintro ⟨⟨k, v⟩, hmem, rfl⟩
      obtain ⟨hin, hp⟩ := List.mem_filter.mp hmem
      exact ⟨v, Table.get?_of_mem hd hin, hp⟩
  rw [hset, Set.ncard_coe_finset, List.toFinset_card_of_nodup hnodup, Table.keys, List.length_map,
    List.countP_eq_length_filter]

namespace Store

/-- The live keys that start with some text. -/
def liveKeys (s : Store) (start : String) (now : Nat) : Set String :=
  {key | start.toList <+: key.toList ∧ (s.live? key now).isSome = true}

theorem finite_liveKeys (s : Store) (start : String) (now : Nat) :
    (s.liveKeys start now).Finite := by
  refine (List.finite_toSet s.slots.keys).subset ?_
  rintro key ⟨-, hlive⟩
  obtain ⟨slot, hslot⟩ := Option.isSome_iff_exists.mp hlive
  exact (Table.mem_keys_iff _ _).mpr
    ((Table.has_iff _ _).mpr ⟨slot, (Option.filter_eq_some_iff.mp hslot).1⟩)

theorem countPrefix_eq_ncard {s : Store} (h : s.slots.Distinct) (start : String) (now : Nat) :
    (s.countPrefix start now).2 = (s.liveKeys start now).ncard := by
  unfold countPrefix
  dsimp only
  rw [List.countP_filter, Table.countP_eq_ncard h]
  congr 1
  ext key
  have hprefix : start.isPrefixOf key = true ↔ start.toList <+: key.toList :=
    String.startsWith_string_iff
  rw [Set.mem_ofPred_eq, liveKeys, Set.mem_ofPred_eq, Option.isSome_iff_exists]
  simp only [Bool.and_eq_true, hprefix, live?, Option.filter_eq_some_iff]
  constructor
  · rintro ⟨slot, hslot, hstart, hlive⟩
    exact ⟨hstart, slot, hslot, hlive⟩
  · rintro ⟨hstart, slot, hslot, hlive⟩
    exact ⟨slot, hslot, hstart, hlive⟩

end Store

namespace Cluster

/-- Jobs lie on the list of a device. -/
def Queued (c : Cluster) (device : String) : Prop :=
  (c.store.store.live? (BridgeJob.listKey device) c.now).isSome = true

/-- The number of live connections of a device. -/
noncomputable def connected (c : Cluster) (device : String) : Nat :=
  {conn | c.Present device conn}.ncard

/-- What else starts like the presence keys of a device: the live connections and the job lists of
devices whose ids go on as those keys do. -/
noncomputable def strays (c : Cluster) (device : String) : Nat :=
  {x : String × Uuid | Presence.Continues device x.1 ∧ c.Present x.1 x.2}.ncard +
    {other | Presence.Continues device other ∧ c.Queued other}.ncard

/-- Everything that starts like the presence keys of a device, by what it is. -/
theorem liveKeys_keyStem {c : Cluster} (h : c.store.store.Filed) (device : String) :
    c.store.store.liveKeys (Presence.keyStem device) c.now =
      (fun conn => Presence.key device conn) '' {conn | c.Present device conn} ∪
        ((fun x : String × Uuid => Presence.key x.1 x.2) ''
            {x | Presence.Continues device x.1 ∧ c.Present x.1 x.2} ∪
          BridgeJob.listKey '' {other | Presence.Continues device other ∧ c.Queued other}) := by
  ext key
  constructor
  · rintro ⟨hstart, hlive⟩
    obtain ⟨slot, hslot⟩ := Option.isSome_iff_exists.mp hlive
    cases h.live hslot with
    | record other conn due hkey _ =>
      subst hkey
      rcases (Presence.keyStem_prefix_key device other conn).mp hstart with rfl | hc
      · exact Or.inl ⟨conn, hlive, rfl⟩
      · exact Or.inr (Or.inl ⟨(other, conn), ⟨hc, hlive⟩, rfl⟩)
    | jobs other values hkey _ =>
      subst hkey
      exact Or.inr (Or.inr
        ⟨other, ⟨(Presence.keyStem_prefix_listKey device other).mp hstart, hlive⟩, rfl⟩)
    | replies job values expiresAt hkey _ =>
      subst hkey
      exact absurd hstart (Presence.not_keyStem_prefix_replyKey device job)
  · rintro (⟨conn, hlive, rfl⟩ | ⟨x, ⟨hc, hlive⟩, rfl⟩ | ⟨other, ⟨hc, hlive⟩, rfl⟩)
    · exact ⟨(Presence.keyStem_prefix_key device device conn).mpr (Or.inl rfl), hlive⟩
    · exact ⟨(Presence.keyStem_prefix_key device x.1 x.2).mpr (Or.inr hc), hlive⟩
    · exact ⟨(Presence.keyStem_prefix_listKey device other).mpr hc, hlive⟩

theorem ncard_liveKeys {c : Cluster} (h : c.store.store.Filed) (device : String) :
    (c.store.store.liveKeys (Presence.keyStem device) c.now).ncard =
      c.connected device + c.strays device := by
  have hfinite := c.store.store.finite_liveKeys (Presence.keyStem device) c.now
  rw [liveKeys_keyStem h, Set.finite_union, Set.finite_union] at hfinite
  obtain ⟨hown, hrecords, hlists⟩ := hfinite
  have hlisted : Disjoint ((fun x : String × Uuid => Presence.key x.1 x.2) ''
      {x | Presence.Continues device x.1 ∧ c.Present x.1 x.2})
      (BridgeJob.listKey '' {other | Presence.Continues device other ∧ c.Queued other}) := by
    rw [Set.disjoint_left]
    rintro - ⟨x, -, rfl⟩ ⟨other, -, heq⟩
    exact BridgeJob.listKey_ne_key other x.1 x.2 heq
  have hapart : Disjoint ((fun conn => Presence.key device conn) '' {conn | c.Present device conn})
      ((fun x : String × Uuid => Presence.key x.1 x.2) ''
          {x | Presence.Continues device x.1 ∧ c.Present x.1 x.2} ∪
        BridgeJob.listKey '' {other | Presence.Continues device other ∧ c.Queued other}) := by
    rw [Set.disjoint_left]
    rintro - ⟨conn, -, rfl⟩ (⟨x, ⟨hc, -⟩, heq⟩ | ⟨other, -, heq⟩)
    · exact hc.ne (Presence.key_inj heq).1
    · exact BridgeJob.listKey_ne_key other device conn heq
  rw [liveKeys_keyStem h, Set.ncard_union_eq hapart hown (hrecords.union hlists),
    Set.ncard_union_eq hlisted hrecords hlists, connected, strays,
    Set.ncard_image_of_injective _ fun a b heq => (Presence.key_inj heq).2,
    Set.ncard_image_of_injective _ fun a b heq => Prod.ext (Presence.key_inj heq).1
      (Presence.key_inj heq).2,
    Set.ncard_image_of_injective _ fun a b => BridgeJob.listKey_inj]

/-- What a count comes to. -/
theorem countAlive_eq {c : Cluster} (h : c.store.store.Filed) (device : String) :
    (c.countAlive device).2 = match c.store.refusal? .countPrefix with
      | some e => .error e
      | none => .ok (c.connected device + c.strays device) := by
  rw [← ncard_liveKeys h, ← Store.countPrefix_eq_ncard h.distinct]
  unfold countAlive Presence.countAlive SharedStore.countPrefix
  cases c.store.refusal? .countPrefix <;> rfl

/-- What happens at a key that does not start like those of a device does not change its count. -/
theorem countAlive_touches {c c' : Cluster} {key device : String}
    (hkey : ¬ (Presence.keyStem device).toList <+: key.toList)
    (htouches : SharedStore.Touches key c.store c'.store) (hnow : c'.now = c.now)
    (h : c.store.store.Filed) (h' : c'.store.store.Filed) :
    (c'.countAlive device).2 = (c.countAlive device).2 := by
  have hkeys : c'.store.store.liveKeys (Presence.keyStem device) c'.now =
      c.store.store.liveKeys (Presence.keyStem device) c.now := by
    ext k
    rw [hnow]
    refine and_congr_right fun hstart => ?_
    have hk : k ≠ key := by
      rintro rfl
      exact hkey hstart
    rw [Store.live_congr (htouches.slots k hk)]
  have hdown : c'.store.refusal? .countPrefix = c.store.refusal? .countPrefix := by
    rw [SharedStore.refusal?, SharedStore.refusal?, htouches.down]
  rw [countAlive_eq h', countAlive_eq h, ← ncard_liveKeys h', ← ncard_liveKeys h, hkeys, hdown]

/-- Uses of the store: whatever happens to a cluster, and presence records and bridge workers used
directly. -/
inductive Use where
  | event (e : Event)
  | mark (p : Nat) (device : String) (conn : Uuid)
  | refresh (p : Nat) (conn : Uuid)
  | remove (p : Nat) (conn : Uuid)
  | count (device : String)
  | register (p : Nat) (device : String) (conn : Uuid)
  | unregister (p : Nat) (device : String) (conn : Uuid)
  | sync (p : Nat) (device : String)

def use (c : Cluster) : Use → Cluster
  | .event e => happen c e
  | .mark p device conn => (c.markAlive p device conn).1
  | .refresh p conn => (c.refresh p conn).1
  | .remove p conn => (c.dropPresence p conn).1
  | .count device => (c.countAlive device).1
  | .register p device conn => (c.register p device conn).1
  | .unregister p device conn => (c.unregister p device conn).1
  | .sync p device => (c.sync p device).1

def used (c : Cluster) : List Use → Cluster
  | [] => c
  | u :: us => used (use c u) us

theorem files_use (c : Cluster) (u : Use) : Files c.store (use c u).store := by
  cases u with
  | event e => exact files_happen c e
  | mark p device conn => exact files_markAlive c p device conn
  | refresh p conn => exact files_refresh c p conn
  | remove p conn => exact files_dropPresence c p conn
  | count device => exact files_countAlive c device
  | register p device conn => exact Files.refl _
  | unregister p device conn => exact Files.refl _
  | sync p device => exact files_of_store (store_sync c p device)

theorem filed_used (us : List Use) {c : Cluster} (h : c.store.store.Filed) :
    (c.used us).store.store.Filed := by
  induction us generalizing c with
  | nil => exact h
  | cons u us ih => exact ih (files_use c u h)

/-- A count is the number of live connections of the device together with that of the strays. What
concerns another device leaves it alone, unless the id of that device goes on as the presence keys
of this one do. -/
theorem counted_with_strays (supply : Supply) (epoch : Nat) (directory : DirectoryService)
    (us : List Use) (device : String) :
    let c := (initial supply epoch directory).used us
    ((c.countAlive device).2 = match c.store.refusal? .countPrefix with
      | some e => .error e
      | none => .ok (c.connected device + c.strays device)) ∧
    ∀ other, other ≠ device → ¬ Presence.Continues device other → ∀ p,
      (∀ conn, ((c.markAlive p other conn).1.countAlive device).2 = (c.countAlive device).2) ∧
      (∀ conn, c.recorded? p conn = some other →
        ((c.refresh p conn).1.countAlive device).2 = (c.countAlive device).2 ∧
        ((c.dropPresence p conn).1.countAlive device).2 = (c.countAlive device).2) ∧
      ∀ command blob timeout, ((c.submit p other command blob timeout).1.countAlive device).2 =
        (c.countAlive device).2 := by
  intro c
  have hfiled : c.store.store.Filed := filed_used us Store.filed_empty
  refine ⟨countAlive_eq hfiled device, fun other hne hfree p => ?_⟩
  have hkey : ∀ conn, ¬ (Presence.keyStem device).toList <+: (Presence.key other conn).toList :=
    fun conn h => ((Presence.keyStem_prefix_key device other conn).mp h).elim hne hfree
  have hlist : ¬ (Presence.keyStem device).toList <+: (BridgeJob.listKey other).toList :=
    fun h => hfree ((Presence.keyStem_prefix_listKey device other).mp h)
  refine ⟨fun conn => ?_, fun conn hheld => ⟨?_, ?_⟩, fun command blob timeout => ?_⟩
  · exact countAlive_touches (hkey conn) (touches_markAlive c p conn other)
      (now_markAlive c p conn other) hfiled (files_markAlive c p other conn hfiled)
  · exact countAlive_touches (hkey conn) (touches_refresh c p conn hheld) (now_refresh c p conn)
      hfiled (files_refresh c p conn hfiled)
  · exact countAlive_touches (hkey conn) (touches_dropPresence c p conn hheld)
      (now_dropPresence c p conn) hfiled (files_dropPresence c p conn hfiled)
  · exact countAlive_touches hlist (touches_submit c p other command blob timeout)
      (now_submit c p other command blob timeout) hfiled
      (files_submit c p other command blob timeout hfiled)

/-- An id that merely starts like that of a device leaves its count alone. -/
theorem counted_apart :
    let c := (initial ⟨Uuid.numbered 1, toString⟩ 0 { directory := {} }).used
      [.event (.addProcess (.ofConfig {})), .mark 0 "a" ⟨6⟩]
    c.connected "a" + c.strays "a" = 1 ∧ "ab" ≠ "a" ∧ ¬ Presence.Continues "a" "ab" ∧
      ((c.markAlive 0 "ab" ⟨7⟩).1.countAlive "a").2 = (c.countAlive "a").2 := by
  intro c
  obtain ⟨hcount, hothers⟩ := counted_with_strays ⟨Uuid.numbered 1, toString⟩ 0 { directory := {} }
    [.event (.addProcess (.ofConfig {})), .mark 0 "a" ⟨6⟩] "a"
  have hne : "ab" ≠ "a" := by decide
  have hfree : ¬ Presence.Continues "a" "ab" := by decide
  have hone : (c.countAlive "a").2 = .ok 1 := by decide +kernel
  have htotal : (c.countAlive "a").2 = .ok (c.connected "a" + c.strays "a") := hcount
  rw [hone] at htotal
  exact ⟨(Except.ok.inj htotal).symm, hne, hfree, (hothers "ab" hne hfree 0).1 ⟨7⟩⟩

/-- Two devices, the id of one of which goes on like the presence keys of the other. -/
def neighbours : List DeviceRecord :=
  [{ deviceId := "a", apiKey := "k1", sharedSecret := "s1" },
    { deviceId := "a:conn:b", apiKey := "k2", sharedSecret := "s2" }]

/-- A connection of the second is recorded. -/
def crowded (directory : Directory) : Cluster :=
  (initial ⟨Uuid.numbered 1, toString⟩ 0 { directory := directory }).used
    [.event (.addProcess (.ofConfig {})), .mark 0 "a:conn:b" ⟨7⟩]

theorem not_present_crowded (directory : Directory) (conn : Uuid) :
    ¬ (crowded directory).Present "a" conn := by
  let empty := (initial ⟨Uuid.numbered 1, toString⟩ 0 { directory := directory }).addProcess
    (.ofConfig {})
  have hne : Presence.key "a" conn ≠ Presence.key "a:conn:b" ⟨7⟩ := fun h =>
    absurd (Presence.key_inj h).1 (by decide)
  have hslot : (crowded directory).store.store.slots.get? (Presence.key "a" conn) = none :=
    (touches_markAlive empty 0 ⟨7⟩ "a:conn:b").slots (Presence.key "a" conn) hne
  rw [Present, Store.live?, hslot]
  exact Bool.false_ne_true

/-- A connection of another device is counted, and then a job for it. -/
theorem stray_counted : ∃ directory, Directory.ofRecords neighbours = .ok directory ∧
    (∀ conn, ¬ (crowded directory).Present "a" conn) ∧
    ((crowded directory).countAlive "a").2 = .ok 1 ∧
    (((crowded directory).submit 0 "a:conn:b" (.shell "ls") none 1000).1.countAlive "a").2 =
      .ok 2 :=
  ⟨_, rfl, not_present_crowded _, by decide +kernel, by decide +kernel⟩

end Cluster

end FleetControl
