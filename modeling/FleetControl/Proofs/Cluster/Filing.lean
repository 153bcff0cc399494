import FleetControl.Proofs.Cluster.Asking
import FleetControl.Proofs.Cluster.History

/-! # What a cluster leaves in the store

Whatever happens to a cluster, its processes keep to the three kinds of things that stand in the
store: what they ask for is meant for its key. Only who takes from a list names its key freely. -/
namespace FleetControl.Cluster

/-- What is filed stays filed. -/
def Files (s s' : SharedStore) : Prop := s.store.Filed → s'.store.Filed

theorem Files.refl (s : SharedStore) : Files s s := id

theorem Files.trans {s₁ s₂ s₃ : SharedStore} (h : Files s₁ s₂) (h' : Files s₂ s₃) : Files s₁ s₃ :=
  fun hf => h' (h hf)

theorem files_of_store {s s' : SharedStore} (h : s' = s) : Files s s' := fun hf => h ▸ hf

theorem Asks.files {now : Nat} {s s' : SharedStore} {rs : List StoreRequest}
    (h : Asks now s rs s') : Files s s' := by
  intro hf
  rw [h.store]
  exact SharedStore.filed_serveAll hf now h.meant

section Operations
variable (c : Cluster) (p : Nat) (t : TaskId)

theorem files_push {key : String} (hkey : Store.HoldsList key) (value : String) :
    Files c.store (c.push key value).1.store := (asks_push c hkey value).files

theorem files_pushReply (job : Uuid) (reply : BridgeReply) :
    Files c.store (c.pushReply job reply).store := (asks_pushReply c job reply).files

theorem files_markAlive (device : String) (conn : Uuid) :
    Files c.store (c.markAlive p device conn).1.store := (asks_markAlive c p device conn).files

theorem files_refresh (conn : Uuid) : Files c.store (c.refresh p conn).1.store :=
  (asks_refresh c p conn).files

theorem files_dropPresence (conn : Uuid) : Files c.store (c.dropPresence p conn).1.store :=
  (asks_dropPresence c p conn c.now).files

theorem files_countAlive (device : String) : Files c.store (c.countAlive device).1.store :=
  (asks_countAlive c device).files

theorem files_submit (device : String) (command : Command) (blob : Option ByteArray)
    (timeout : Nat) : Files c.store (c.submit p device command blob timeout).1.store :=
  (asks_submit c p device command blob timeout).files

theorem files_tryPop (key : String) : Files c.store (c.tryPop key).1.store :=
  fun h => h.tryPop key c.now

theorem files_awaitPop (key : String) (deadline : Nat) :
    Files c.store (c.awaitPop t key deadline).1.store := by
  have hpop := files_tryPop c key
  unfold awaitPop
  split <;> rename_i h <;> rw [h] at hpop
  · split
    · exact hpop
    · exact hpop.trans (files_of_store (store_park _ t .pushed))
  · exact hpop

end Operations

section Turns
variable (c : Cluster) (t : TaskId)

theorem files_popperTurn (key : String) (deadline : Nat) :
    Files c.store (c.popperTurn t key deadline).1.store := by
  have hpop := files_awaitPop c t key deadline
  unfold popperTurn
  split <;> rename_i h <;> rw [h] at hpop <;> exact hpop

theorem files_turn : Files c.store (turn c t).1.store := by
  by_cases hpopper : ∃ key deadline, c.tasks.get? t = some (.popper key deadline)
  · obtain ⟨key, deadline, htask⟩ := hpopper
    have hturn : turn c t = c.popperTurn t key deadline := by
      rw [turn]
      simp only [htask]
    rw [hturn]
    exact files_popperTurn c t key deadline
  · exact (asks_turn c t fun key deadline h => hpopper ⟨key, deadline, h⟩).files

theorem files_give : Files c.store (c.give t).store := by
  by_cases ht : t ∈ c.ready
  · rw [give_of_mem ht, store_conclude]
    exact files_turn { c with ready := c.ready.erase t } t
  · rw [give_of_not_mem ht]
    exact Files.refl _

theorem store_pass (ms : Nat) : (c.pass ms).store = c.store := by
  by_cases h : c.ready = []
  · obtain ⟨now, woken, he, -⟩ := pass_eq h ms
    rw [he]
  · rw [pass_of_ready h]

end Turns

theorem store_arrive (c : Cluster) (s : Nat) (m : Incoming) : (c.arrive s m).1.store = c.store := by
  unfold arrive
  split
  · rfl
  · exact store_notify _ _

/-- Only turns, and those who take heads of lists without waiting, touch what is in the store. -/
theorem store_happen (c : Cluster) {e : Event} (hturn : ∀ t, e ≠ .turn t)
    (hpop : ∀ key, e ≠ .popNow key) : (happen c e).store.store = c.store.store := by
  cases e with
  | turn t => exact absurd rfl (hturn t)
  | popNow key => exact absurd rfl (hpop key)
  | pass ms => exact congrArg (·.store) (store_pass c ms)
  | arrive s m => exact congrArg (·.store) (store_arrive c s m)
  | deafen s => exact congrArg (·.store) (store_notify (c.updateSocket s Socket.deafen) _)
  | resume s => exact congrArg (·.store) (store_notify (c.updateSocket s Socket.resume) _)
  | vanish s =>
    exact congrArg (·.store) ((store_arrive (c.deafen s) s _).trans
      (store_notify (c.updateSocket s Socket.deafen) _))
  | takeFrames s =>
    simp only [happen, takeFrames]
    split <;> rfl
  | pop key timeout =>
    simp only [happen, pop]
    split <;> rfl
  | _ => rfl

theorem files_popNow (c : Cluster) (key : String) : Files c.store (c.popNow key).1.store := by
  unfold popNow
  split
  · exact files_tryPop c key
  · exact Files.refl _

theorem files_happen (c : Cluster) (e : Event) : Files c.store (happen c e).store := by
  by_cases hturn : ∃ t, e = .turn t
  · obtain ⟨t, rfl⟩ := hturn
    exact files_give c t
  · by_cases hpop : ∃ key, e = .popNow key
    · obtain ⟨key, rfl⟩ := hpop
      exact files_popNow c key
    · intro h
      rw [store_happen c (fun t he => hturn ⟨t, he⟩) (fun key he => hpop ⟨key, he⟩)]
      exact h

theorem filed_after (es : List Event) {c : Cluster} (h : c.store.store.Filed) :
    (c.after es).store.store.Filed := by
  induction es generalizing c with
  | nil => exact h
  | cons e es ih => exact ih (files_happen c e h)

end FleetControl.Cluster
