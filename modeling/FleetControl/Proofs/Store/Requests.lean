import FleetControl.Proofs.Store.Filing
import FleetControl.Store.Shared

/-! # Requests to the store

What is asked of the store, as data. As long as records are asked for at presence keys and lists at
the keys for lists, the store keeps things apart, and it fails a request only while it refuses the
operation. -/
namespace FleetControl

/-- One request to the store. -/
inductive StoreRequest where
  | setEx (key value : String) (ttl : Nat)
  | expire (key : String) (ttl : Nat)
  | del (key : String)
  | countPrefix (start : String)
  | rpush (key value : String)
  | tryPop (key : String)

/-- Records are asked for at presence keys and lists at the keys for lists, of which those for
replies may be made to lapse. -/
inductive StoreRequest.Meant : StoreRequest → Prop
  | setEx (device : String) (conn : Uuid) (ttl : Nat) :
    Meant (.setEx (Presence.key device conn) "1" ttl)
  | renew (device : String) (conn : Uuid) (ttl : Nat) :
    Meant (.expire (Presence.key device conn) ttl)
  | limit (job : Uuid) (ttl : Nat) : Meant (.expire (BridgeJob.replyKey job) ttl)
  | del (device : String) (conn : Uuid) : Meant (.del (Presence.key device conn))
  | countPrefix (device : String) : Meant (.countPrefix (Presence.keyStem device))
  | rpush {key : String} (holds : Store.HoldsList key) (value : String) : Meant (.rpush key value)
  | tryPop {key : String} (holds : Store.HoldsList key) : Meant (.tryPop key)

namespace SharedStore

/-- How the store stands behind an operation, and why that failed, if it did. -/
def failure? {α : Type} (r : SharedStore × Outcome α) : SharedStore × Option ChannelError :=
  (r.1, match r.2 with
    | .ok _ => none
    | .error e => some e)

/-- The store serves a request. -/
def serve (s : SharedStore) (now : Nat) : StoreRequest → SharedStore × Option ChannelError
  | .setEx key value ttl => failure? (s.setEx key value ttl now)
  | .expire key ttl => failure? (s.expire key ttl now)
  | .del key => failure? (s.del key)
  | .countPrefix start => failure? (s.countPrefix start now)
  | .rpush key value => failure? (s.rpush key value now)
  | .tryPop key => failure? (s.tryPop key now)

/-- The store serves requests in order. -/
def serveAll (s : SharedStore) (now : Nat) : List StoreRequest → SharedStore
  | [] => s
  | r :: rs => serveAll (s.serve now r).1 now rs

/-- The failures of requests that the store serves in order. -/
def failures (s : SharedStore) (now : Nat) : List StoreRequest → List ChannelError
  | [] => []
  | r :: rs => (s.serve now r).2.toList ++ failures (s.serve now r).1 now rs

theorem serveAll_append (s : SharedStore) (now : Nat) (rs rs' : List StoreRequest) :
    s.serveAll now (rs ++ rs') = (s.serveAll now rs).serveAll now rs' := by
  induction rs generalizing s with
  | nil => rfl
  | cons r rs ih => exact ih _

/-- The text of a refusal does not read like that of a key of the wrong kind. -/
theorem refusal_ne_wrongKind {s : SharedStore} {op : StoreOp} {e : ChannelError}
    (h : s.refusal? op = some e) (key : String) : e ≠ Store.wrongKind key := by
  unfold refusal? at h
  split at h
  · cases h
    intro heq
    have htext := congrArg String.toList (ChannelError.store.inj heq)
    cases op <;> simp [StoreOp.name] at htext
  · cases h

/-- A request has left everything where it belongs, and has failed only if the store refused it. -/
structure Fair (s : SharedStore) (r : SharedStore × Option ChannelError) : Prop where
  filed : r.1.store.Filed
  down : r.1.down = s.down
  refused : ∀ e, r.2 = some e → ∃ op, s.refusal? op = some e

section Fair
variable {s : SharedStore}

theorem fair_ok {α : Type} {store : Store} (h : store.Filed) (a : α) :
    Fair s (failure? ({ s with store := store }, .ok a)) := ⟨h, rfl, nofun⟩

theorem fair_refused {α : Type} (h : s.store.Filed) {op : StoreOp} {e : ChannelError}
    (hd : s.refusal? op = some e) : Fair s (failure? (α := α) (s, .error e)) := by
  refine ⟨h, rfl, ?_⟩
  rintro _ ⟨⟩
  exact ⟨op, hd⟩

variable (h : s.store.Filed) (now : Nat) {key : String}
include h

theorem fair_setEx (device : String) (conn : Uuid) (ttl : Nat) :
    Fair s (s.serve now (.setEx (Presence.key device conn) "1" ttl)) := by
  unfold serve SharedStore.setEx
  cases hd : s.refusal? .setEx with
  | some e => exact fair_refused h hd
  | none => exact fair_ok (h.setEx device conn ttl now) ()

theorem fair_expire (hkey : ∀ device, key ≠ BridgeJob.listKey device) (ttl : Nat) :
    Fair s (s.serve now (.expire key ttl)) := by
  unfold serve SharedStore.expire
  cases hd : s.refusal? .expire with
  | some e => exact fair_refused h hd
  | none => exact fair_ok (h.expire hkey ttl now) _

theorem fair_del : Fair s (s.serve now (.del key)) := by
  unfold serve SharedStore.del
  cases hd : s.refusal? .del with
  | some e => exact fair_refused h hd
  | none => exact fair_ok (h.del key) ()

theorem fair_countPrefix : Fair s (s.serve now (.countPrefix key)) := by
  unfold serve SharedStore.countPrefix
  cases hd : s.refusal? .countPrefix with
  | some e => exact fair_refused h hd
  | none => exact fair_ok (h.countPrefix key now) _

theorem fair_rpush (hkey : Store.HoldsList key) (value : String) :
    Fair s (s.serve now (.rpush key value)) := by
  unfold serve SharedStore.rpush
  cases hd : s.refusal? .rpush with
  | some e => exact fair_refused h hd
  | none =>
    obtain ⟨store, hpush⟩ := h.rpush_ok hkey value now
    dsimp only
    rw [hpush]
    exact fair_ok (h.rpush hkey hpush) ()

theorem fair_tryPop (hkey : Store.HoldsList key) : Fair s (s.serve now (.tryPop key)) := by
  obtain ⟨value, hpop⟩ := h.tryPop_ok hkey now
  have hresult : s.tryPop key now = ({ s with store := (s.store.tryPop key now).1 }, .ok value) :=
    Prod.ext rfl hpop
  rw [serve, hresult]
  exact fair_ok (h.tryPop key now) value

theorem fair_serve {r : StoreRequest} (hr : r.Meant) : Fair s (s.serve now r) := by
  cases hr with
  | setEx device conn ttl => exact fair_setEx h now device conn ttl
  | renew device conn ttl =>
    exact fair_expire h now (fun other => (BridgeJob.listKey_ne_key other device conn).symm) ttl
  | limit job ttl =>
    exact fair_expire h now (fun other => (BridgeJob.listKey_ne_replyKey other job).symm) ttl
  | del device conn => exact fair_del h now
  | countPrefix device => exact fair_countPrefix h now
  | rpush hkey value => exact fair_rpush h now hkey value
  | tryPop hkey => exact fair_tryPop h now hkey

/-- Requests that are meant for their keys leave everything where it belongs. -/
theorem filed_serveAll {rs : List StoreRequest} (hrs : ∀ r ∈ rs, r.Meant) :
    (s.serveAll now rs).store.Filed := by
  induction rs generalizing s with
  | nil => exact h
  | cons r rs ih =>
    obtain ⟨hr, hrest⟩ := List.forall_mem_cons.mp hrs
    exact ih (fair_serve h now hr).filed hrest

/-- What is asked for where it is meant to stand fails only while the store refuses it. -/
theorem failures_meant {rs : List StoreRequest} (hrs : ∀ r ∈ rs, r.Meant) :
    ∀ e ∈ s.failures now rs, ∃ op, s.refusal? op = some e := by
  induction rs generalizing s with
  | nil => exact fun _ he => nomatch he
  | cons r rs ih =>
    obtain ⟨hr, hrest⟩ := List.forall_mem_cons.mp hrs
    have hfair := fair_serve h now hr
    intro e he
    rcases List.mem_append.mp he with hfirst | hlater
    · exact hfair.refused e (Option.mem_toList.mp hfirst)
    · obtain ⟨op, hop⟩ := ih hfair.filed hrest e hlater
      refine ⟨op, ?_⟩
      rwa [refusal?, hfair.down] at hop

end Fair

end SharedStore

end FleetControl
