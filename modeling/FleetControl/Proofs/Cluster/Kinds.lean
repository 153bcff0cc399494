import FleetControl.Proofs.Cluster.Asking
import FleetControl.Proofs.Presence.Counting

/-! # Keys keep kinds apart

No two things in the store share a key, and each is asked for at a key of its own kind. So whatever
ids are made of, nothing fails by what stands at a key. -/
namespace FleetControl.Cluster

/-- What processes ask of the store when something happens. -/
def useRequests (c : Cluster) : Use → List StoreRequest
  | .event (.turn t) => c.giveRequests t
  | .mark p device conn => c.markRequests p device conn
  | .refresh p conn => c.refreshRequests p conn
  | .remove p conn => c.removeRequests p conn
  | .count device => [.countPrefix (Presence.keyStem device)]
  | _ => []

/-- Someone takes the head of a list that they name freely, which no process does. -/
def Outside (c : Cluster) : Use → Prop
  | .event (.turn t) => ∃ key deadline, c.tasks.get? t = some (.popper key deadline)
  | .event (.popNow _) => True
  | _ => False

/-- What processes ask of the store is all that happens in it, and is meant for its keys. -/
theorem asks_use {c : Cluster} {u : Use} (h : ¬ c.Outside u) :
    (use c u).store.store = (c.store.serveAll c.now (c.useRequests u)).store ∧
      ∀ r ∈ c.useRequests u, r.Meant := by
  have hasks : ∀ {rs : List StoreRequest} {s : SharedStore}, Asks c.now c.store rs s →
      s.store = (c.store.serveAll c.now rs).store ∧ ∀ r ∈ rs, r.Meant := fun hr =>
    ⟨congrArg (·.store) hr.store, hr.meant⟩
  cases u with
  | event e =>
    cases e with
    | turn t => exact hasks (asks_give fun key deadline hpopper => h ⟨key, deadline, hpopper⟩)
    | popNow key => exact absurd trivial h
    | _ => exact ⟨store_happen c nofun nofun, fun _ hr => nomatch hr⟩
  | mark p device conn => exact hasks (asks_markAlive c p device conn)
  | refresh p conn => exact hasks (asks_refresh c p conn)
  | remove p conn => exact hasks (asks_dropPresence c p conn c.now)
  | count device => exact hasks (asks_countAlive c device)
  | register p device conn => exact hasks (asks_nothing rfl)
  | unregister p device conn => exact hasks (asks_nothing rfl)
  | sync p device => exact hasks (asks_nothing (store_sync c p device))

/-- The keys of records, job lists and reply lists are apart, and each names what it is for,
whatever the ids are made of. All that processes do to the store, however it stands, is to ask for
records and lists at their keys. So whatever has happened in a cluster, nothing that its processes
ask for fails by what stands at a key. -/
theorem keys_keep_kinds_apart :
    ((∀ device conn device' conn', Presence.key device conn = Presence.key device' conn' ↔
        device = device' ∧ conn = conn') ∧
      (∀ device device', BridgeJob.listKey device = BridgeJob.listKey device' ↔
        device = device') ∧
      (∀ job job', BridgeJob.replyKey job = BridgeJob.replyKey job' ↔ job = job') ∧
      (∀ device conn other, Presence.key device conn ≠ BridgeJob.listKey other) ∧
      (∀ device conn job, Presence.key device conn ≠ BridgeJob.replyKey job) ∧
      ∀ device job, BridgeJob.listKey device ≠ BridgeJob.replyKey job) ∧
    (∀ (c : Cluster) u, ¬ c.Outside u →
      (use c u).store.store = (c.store.serveAll c.now (c.useRequests u)).store ∧
        ∀ r ∈ c.useRequests u, r.Meant) ∧
    ∀ supply epoch directory us u,
      let c := (initial supply epoch directory).used us
      ¬ c.Outside u → ∀ e ∈ c.store.failures c.now (c.useRequests u),
        (∃ op, c.store.refusal? op = some e) ∧ ∀ key, e ≠ Store.wrongKind key := by
  refine ⟨⟨?_, ?_, ?_, ?_, ?_, ?_⟩, fun c u => asks_use, fun supply epoch directory us u => ?_⟩
  · exact fun _ _ _ _ => ⟨Presence.key_inj, fun h => by rw [h.1, h.2]⟩
  · exact fun _ _ => ⟨BridgeJob.listKey_inj, fun h => by rw [h]⟩
  · exact fun _ _ => ⟨BridgeJob.replyKey_inj, fun h => by rw [h]⟩
  · exact fun device conn other => (BridgeJob.listKey_ne_key other device conn).symm
  · exact fun device conn job => (BridgeJob.replyKey_ne_key job device conn).symm
  · exact BridgeJob.listKey_ne_replyKey
  · intro c h e he
    have hfiled : c.store.store.Filed := filed_used us Store.filed_empty
    obtain ⟨op, hop⟩ := SharedStore.failures_meant hfiled c.now (asks_use h).2 e he
    exact ⟨⟨op, hop⟩, SharedStore.refusal_ne_wrongKind hop⟩

/-- A worker of a device whose id reads like the key of a record is about to look at its jobs, while
that record stands. -/
def lookalike : List Use :=
  [.event (.addProcess (.ofConfig {})), .mark 0 "a" ⟨7⟩,
    .register 0 (Presence.key "a" ⟨7⟩) ⟨8⟩, .sync 0 (Presence.key "a" ⟨7⟩), .event (.turn 0)]

theorem keys_keep_kinds_apart_lookalike :
    let c := (initial ⟨Uuid.numbered 1, toString⟩ 0 { directory := {} }).used lookalike
    ¬ c.Outside (.event (.turn 0)) ∧
    c.useRequests (.event (.turn 0)) =
      [.tryPop (BridgeJob.listKey (Presence.key "a" ⟨7⟩))] ∧
    ∀ e ∈ c.store.failures c.now (c.useRequests (.event (.turn 0))),
      ∀ key, e ≠ Store.wrongKind key := by
  intro c
  have hinside : ¬ c.Outside (.event (.turn 0)) := by
    rintro ⟨key, deadline, h⟩
    cases h
  have hfails := keys_keep_kinds_apart.2.2 ⟨Uuid.numbered 1, toString⟩ 0 { directory := {} }
    lookalike (.event (.turn 0)) hinside
  exact ⟨hinside, rfl, fun e he => (hfails e he).2⟩

end FleetControl.Cluster
