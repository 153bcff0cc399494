import FleetControl.Engine
import FleetControl.Proofs.Table

/-! # Engine operations

Everything that can be done to a dispatch engine is one of a few operations. Seen from a single
command an operation decides it, changes its owner or leaves it alone, and which of these it is
depends only on the operation and on what is pending under the command's identifier. -/
namespace FleetControl

namespace Pending

/-- What a device's answer to the command comes to. -/
def answer (p : Pending) (ok : Bool) (result : Json) (body : Option ByteArray) : CommandOutcome :=
  if ok then Reply.merge result body
  else .error (.device p.deviceId p.command (errorText result))

/-- What the end of the time limit comes to. -/
def timedOut (p : Pending) : CommandOutcome :=
  .error (.timeout p.deviceId p.command (p.timeout / 1000))

/-- What the loss of the connection comes to. -/
def lost (p : Pending) : CommandOutcome := .error (.connectionClosed p.deviceId p.command)

end Pending

namespace Engine

inductive Op where
  | enqueue (id : Uuid) (device : String) (command : Command) (blob : Option ByteArray)
      (timeout now : Nat)
  | pop (device : String)
  | mark (id conn : Uuid)
  | unmark (id : Uuid)
  | requeue (item : QueuedCommand)
  | resolve (id : Uuid) (outcome : CommandOutcome)
  | respond (id : Uuid) (ok : Bool) (result : Json) (body : Option ByteArray)
  | expire (id : Uuid)
  | fail (conn : Uuid)

def apply (e : Engine) : Op → Engine
  | .enqueue id device command blob timeout now => e.enqueue id device command blob timeout now
  | .pop device => (e.popLive device).1
  | .mark id conn => (e.markSent id conn).1
  | .unmark id => e.unmark id
  | .requeue item => e.requeueFront item
  | .resolve id outcome => (e.resolve id outcome).1
  | .respond id ok result body => (e.resolveResponse id ok result body).1
  | .expire id => (e.expire id).1
  | .fail conn => (e.failConnection conn).1

/-- The outcome that an operation gives to command `id`, pending as `p`, if it decides it. -/
def Op.decides? (id : Uuid) (p : Pending) : Op → Option CommandOutcome
  | .resolve i outcome => if i = id then some outcome else none
  | .respond i ok result body => if i = id then some (p.answer ok result body) else none
  | .expire i => if i = id then some p.timedOut else none
  | .fail conn => if p.owner = some conn then some p.lost else none
  | _ => none

/-- What is pending under `id` behind an operation that does not decide it. -/
def Op.marks (id : Uuid) (p : Pending) : Op → Pending
  | .mark i conn => if i = id then { p with owner := some conn } else p
  | .unmark i => if i = id then { p with owner := none } else p
  | .requeue item => if item.id = id then { p with owner := none } else p
  | _ => p

/-- The command that an operation submits. -/
def Op.submits? : Op → Option Uuid
  | .enqueue id .. => some id
  | _ => none

/-- An operation submits under an identifier that was never used. -/
def Op.Fresh (e : Engine) : Op → Prop
  | .enqueue id .. => e.completions.get? id = none
  | _ => True

theorem Op.submits_of_fresh {e : Engine} {op : Op} (hf : op.Fresh e) {id : Uuid}
    (h : op.submits? = some id) : e.completions.get? id = none := by
  cases op <;> simp_all [Op.submits?, Op.Fresh]

/-- A command is pending exactly while its completion is open. -/
structure Sound (e : Engine) : Prop where
  distinct : e.pending.Distinct
  unresolved : ∀ id p, e.pending.get? id = some p → e.completions.get? id = some .unresolved
  pending : ∀ id, e.completions.get? id = some .unresolved → ∃ p, e.pending.get? id = some p

theorem sound_empty : Sound {} := by
  constructor <;> simp [Table.Distinct, Table.keys, Table.get?]

theorem isPending_iff (e : Engine) (id : Uuid) :
    e.isPending id = true ↔ ∃ p, e.pending.get? id = some p := Table.has_iff _ _

theorem isPending_eq_false (e : Engine) (id : Uuid) :
    e.isPending id = false ↔ e.pending.get? id = none := Table.has_eq_false _ _

theorem outcome?_of_resolved {e : Engine} {id : Uuid} {o : CommandOutcome}
    (h : e.completions.get? id = some (.resolved o)) : e.outcome? id = some o := by
  simp [outcome?, h, Completion.outcome?]

theorem outcome?_of_unresolved {e : Engine} {id : Uuid}
    (h : e.completions.get? id = some .unresolved) : e.outcome? id = none := by
  simp [outcome?, h, Completion.outcome?]

section Tables
variable (e : Engine) (id j conn : Uuid) (device : String) (item : QueuedCommand)

@[simp] theorem pending_popLive : (e.popLive device).1.pending = e.pending := by
  unfold popLive
  split
  · split <;> rfl
  · rfl

@[simp] theorem completions_popLive : (e.popLive device).1.completions = e.completions := by
  unfold popLive
  split
  · split <;> rfl
  · rfl

@[simp] theorem completions_markSent : (e.markSent id conn).1.completions = e.completions := by
  unfold markSent; split <;> rfl

@[simp] theorem queues_markSent : (e.markSent id conn).1.queues = e.queues := by
  unfold markSent; split <;> rfl

@[simp] theorem completions_unmark : (e.unmark id).completions = e.completions := rfl

@[simp] theorem queues_unmark : (e.unmark id).queues = e.queues := rfl

@[simp] theorem completions_requeueFront : (e.requeueFront item).completions = e.completions := rfl

theorem pending_markSent : (e.markSent id conn).1.pending.get? j =
    if j = id then (e.pending.get? j).map fun p => { p with owner := some conn }
    else e.pending.get? j := by
  unfold markSent
  by_cases hp : e.isPending id = true
  · rw [if_pos hp]
    exact Table.get?_modify e.pending id j fun p => { p with owner := some conn }
  · rw [if_neg hp]
    by_cases hj : j = id
    · subst j
      have hn := (e.isPending_eq_false id).mp (by simpa using hp)
      simp [hn]
    · simp [hj]

theorem pending_unmark : (e.unmark id).pending.get? j =
    if j = id then (e.pending.get? j).map fun p => { p with owner := none }
    else e.pending.get? j :=
  Table.get?_modify e.pending id j fun p => { p with owner := none }

theorem pending_requeueFront : (e.requeueFront item).pending.get? j =
    if j = item.id then (e.pending.get? j).map fun p => { p with owner := none }
    else e.pending.get? j :=
  Table.get?_modify e.pending item.id j fun p => { p with owner := none }

theorem pending_enqueue (command : Command) (blob : Option ByteArray) (timeout now : Nat) :
    (e.enqueue id device command blob timeout now).pending.get? j =
      if j = id then some ⟨device, command.name, none, timeout, now + timeout⟩
      else e.pending.get? j := Table.get?_put e.pending id j _

theorem completions_enqueue (command : Command) (blob : Option ByteArray) (timeout now : Nat) :
    (e.enqueue id device command blob timeout now).completions.get? j =
      if j = id then some .unresolved else e.completions.get? j :=
  Table.get?_put e.completions id j _

@[simp] theorem queues_resolve (o : CommandOutcome) : (e.resolve id o).1.queues = e.queues := by
  unfold resolve
  split
  · split <;> rfl
  · rfl

theorem pending_resolve (o : CommandOutcome) : (e.resolve id o).1.pending.get? j =
    if j = id then none else e.pending.get? j := by
  unfold resolve
  by_cases hp : e.isPending id = true
  · rw [if_pos hp]
    split <;> exact Table.get?_erase e.pending id j
  · rw [if_neg hp]
    by_cases hj : j = id
    · subst j
      simpa using (e.isPending_eq_false id).mp (by simpa using hp)
    · simp [hj]

theorem completions_resolve_of_ne (o : CommandOutcome) (h : j ≠ id) :
    (e.resolve id o).1.completions.get? j = e.completions.get? j := by
  unfold resolve
  split
  · split
    · exact Table.get?_put_of_ne _ _ h
    · rfl
  · rfl

end Tables

theorem completions_resolve {e : Engine} (hs : e.Sound) {id : Uuid} {p : Pending}
    (h : e.pending.get? id = some p) (o : CommandOutcome) :
    (e.resolve id o).1.completions.get? id = some (.resolved o) := by
  have hp : e.isPending id = true := (e.isPending_iff id).mpr ⟨p, h⟩
  have hu : e.completions.getD id .unresolved = .unresolved := by
    simp [Table.getD, hs.unresolved id p h]
  simp [resolve, hp, hu, Completion.resolve]

/-- Deciding a command that is not pending changes nothing and says so. -/
theorem resolve_of_get?_eq_none {e : Engine} {id : Uuid} (h : e.pending.get? id = none)
    (o : CommandOutcome) : e.resolve id o = (e, false) :=
  resolve_of_not_pending e id o ((e.isPending_eq_false id).mpr h)

theorem sound_resolve {e : Engine} (hs : e.Sound) (id : Uuid) (o : CommandOutcome) :
    (e.resolve id o).1.Sound := by
  cases hp : e.pending.get? id with
  | none => rw [resolve_of_get?_eq_none hp]; exact hs
  | some p =>
    have hc := completions_resolve hs hp o
    refine ⟨?_, ?_, ?_⟩
    · unfold resolve
      split
      · split <;> exact hs.distinct.erase id
      · exact hs.distinct
    · intro j q hj
      rw [pending_resolve] at hj
      by_cases he : j = id
      · simp [he] at hj
      · rw [completions_resolve_of_ne e id j o he]
        exact hs.unresolved j q (by simpa [he] using hj)
    · intro j hj
      by_cases he : j = id
      · subst j; rw [hc] at hj; simp at hj
      · rw [completions_resolve_of_ne e id j o he] at hj
        obtain ⟨q, hq⟩ := hs.pending j hj
        exact ⟨q, by rw [pending_resolve, if_neg he]; exact hq⟩

theorem answer_eq {e : Engine} {id : Uuid} {p : Pending} (h : e.pending.get? id = some p)
    (ok : Bool) (result : Json) (body : Option ByteArray) :
    e.answer id ok result body = p.answer ok result body := by
  simp [answer, Pending.answer, describe, h]

theorem expire_eq {e : Engine} {id : Uuid} {p : Pending} (h : e.pending.get? id = some p) :
    e.expire id = e.resolve id p.timedOut := by
  simp [expire, h, Pending.timedOut]

theorem expire_of_get?_eq_none {e : Engine} {id : Uuid} (h : e.pending.get? id = none) :
    e.expire id = (e, false) := by
  simp [expire, h]

theorem pending_expire {e : Engine} (id : Uuid) : (e.expire id).1.pending.get? id = none := by
  cases hp : e.pending.get? id with
  | none => rw [expire_of_get?_eq_none hp]; exact hp
  | some p => rw [expire_eq hp, pending_resolve, if_pos rfl]

/-- The commands that a list names fail, one by one. -/
def failAll (e : Engine) (lost : List (Uuid × Pending)) : Engine :=
  lost.foldl (fun e p => (e.resolve p.1 p.2.lost).1) e

theorem failConnection_eq (e : Engine) (conn : Uuid) :
    (e.failConnection conn).1 = e.failAll (e.owned conn) := rfl

@[simp] theorem queues_failAll (e : Engine) (lost : List (Uuid × Pending)) :
    (e.failAll lost).queues = e.queues := by
  induction lost generalizing e with
  | nil => rfl
  | cons x rest ih =>
    have := ih (e.resolve x.1 x.2.lost).1
    simpa [failAll] using this

theorem failAll_other (e : Engine) (lost : List (Uuid × Pending)) (id : Uuid)
    (h : ∀ x ∈ lost, x.1 ≠ id) :
    (e.failAll lost).pending.get? id = e.pending.get? id ∧
    (e.failAll lost).completions.get? id = e.completions.get? id := by
  induction lost generalizing e with
  | nil => exact ⟨rfl, rfl⟩
  | cons x rest ih =>
    have hx : id ≠ x.1 := Ne.symm (h x (by simp))
    obtain ⟨hp, hc⟩ := ih (e.resolve x.1 x.2.lost).1 fun y hy => h y (by simp [hy])
    constructor
    · exact hp.trans (by rw [pending_resolve, if_neg hx])
    · exact hc.trans (completions_resolve_of_ne e x.1 id _ hx)

theorem failAll_named {e : Engine} (hs : e.Sound) (lost : List (Uuid × Pending))
    (hd : (lost.map (·.1)).Nodup) (hl : ∀ x ∈ lost, e.pending.get? x.1 = some x.2)
    {id : Uuid} {p : Pending} (h : (id, p) ∈ lost) :
    (e.failAll lost).pending.get? id = none ∧
    (e.failAll lost).completions.get? id = some (.resolved p.lost) := by
  induction lost generalizing e with
  | nil => simp at h
  | cons x rest ih =>
    have hn : x.1 ∉ rest.map (·.1) ∧ (rest.map (·.1)).Nodup := by simpa using hd
    have hne : ∀ y ∈ rest, y.1 ≠ x.1 := fun y hy he =>
      hn.1 (List.mem_map.mpr ⟨y, hy, he⟩)
    rcases List.mem_cons.mp h with rfl | h
    · obtain ⟨hp, hc⟩ := failAll_other (e.resolve id p.lost).1 rest id hne
      have hpend : e.pending.get? id = some p := hl (id, p) (by simp)
      constructor
      · exact hp.trans (by rw [pending_resolve, if_pos rfl])
      · exact hc.trans (completions_resolve hs hpend _)
    · refine ih (sound_resolve hs x.1 x.2.lost) hn.2 ?_ h
      intro y hy
      rw [pending_resolve, if_neg (hne y hy)]
      exact hl y (by simp [hy])

theorem sound_failAll {e : Engine} (hs : e.Sound) (lost : List (Uuid × Pending)) :
    (e.failAll lost).Sound := by
  induction lost generalizing e with
  | nil => exact hs
  | cons x rest ih => exact ih (sound_resolve hs x.1 x.2.lost)

theorem mem_owned {e : Engine} (hs : e.Sound) {conn id : Uuid} {p : Pending} :
    (id, p) ∈ e.owned conn ↔ e.pending.get? id = some p ∧ p.owner = some conn := by
  simp only [owned, List.mem_filter, decide_eq_true_eq]
  constructor
  · rintro ⟨hm, ho⟩; exact ⟨Table.get?_of_mem hs.distinct hm, ho⟩
  · rintro ⟨hg, ho⟩; exact ⟨Table.mem_of_get? hg, ho⟩

theorem failConnection_spec {e : Engine} (hs : e.Sound) (conn : Uuid) {id : Uuid} {p : Pending}
    (h : e.pending.get? id = some p) :
    if p.owner = some conn then
      (e.failConnection conn).1.pending.get? id = none ∧
      (e.failConnection conn).1.completions.get? id = some (.resolved p.lost)
    else
      (e.failConnection conn).1.pending.get? id = some p ∧
      (e.failConnection conn).1.completions.get? id = some .unresolved := by
  rw [failConnection_eq]
  by_cases ho : p.owner = some conn
  · rw [if_pos ho]
    refine failAll_named hs _ ?_ ?_ ((mem_owned hs).mpr ⟨h, ho⟩)
    · exact hs.distinct.sublist (List.filter_sublist.map _)
    · intro x hx; exact ((mem_owned hs).mp hx).1
  · rw [if_neg ho]
    have hne : ∀ x ∈ e.owned conn, x.1 ≠ id := by
      intro x hx he
      obtain ⟨hg, hc⟩ := (mem_owned hs).mp hx
      have : x.2 = p := Option.some.inj (hg.symm.trans (he ▸ h))
      exact ho (this ▸ hc)
    obtain ⟨hp, hc⟩ := failAll_other e (e.owned conn) id hne
    exact ⟨hp.trans h, hc.trans (hs.unresolved id p h)⟩

/-- What an operation does to a pending command. -/
theorem apply_pending {e : Engine} (hs : e.Sound) {op : Op} (hf : op.Fresh e) {id : Uuid}
    {p : Pending} (h : e.pending.get? id = some p) :
    match op.decides? id p with
    | some o => (e.apply op).pending.get? id = none ∧
        (e.apply op).completions.get? id = some (.resolved o)
    | none => (e.apply op).pending.get? id = some (op.marks id p) ∧
        (e.apply op).completions.get? id = some .unresolved := by
  have hu := hs.unresolved id p h
  cases op with
  | enqueue i device command blob timeout now =>
    have hne : id ≠ i := by
      intro he
      subst i
      simp [Op.Fresh, hu] at hf
    simp [Op.decides?, Op.marks, apply, pending_enqueue, completions_enqueue, hne, h, hu]
  | pop device => simp [Op.decides?, Op.marks, apply, h, hu]
  | mark i conn =>
    by_cases hi : i = id
    · subst i; simp [Op.decides?, Op.marks, apply, pending_markSent, h, hu]
    · simp [Op.decides?, Op.marks, apply, pending_markSent, hi, Ne.symm hi, h, hu]
  | unmark i =>
    by_cases hi : i = id
    · subst i; simp [Op.decides?, Op.marks, apply, pending_unmark, h, hu]
    · simp [Op.decides?, Op.marks, apply, pending_unmark, hi, Ne.symm hi, h, hu]
  | requeue item =>
    by_cases hi : item.id = id
    · simp [Op.decides?, Op.marks, apply, pending_requeueFront, hi, h, hu]
    · simp [Op.decides?, Op.marks, apply, pending_requeueFront, hi, Ne.symm hi, h, hu]
  | resolve i o =>
    by_cases hi : i = id
    · subst i; simp [Op.decides?, apply, pending_resolve, completions_resolve hs h]
    · simp [Op.decides?, Op.marks, apply, pending_resolve,
        completions_resolve_of_ne e i id o (Ne.symm hi), hi, Ne.symm hi, h, hu]
  | respond i ok result body =>
    by_cases hi : i = id
    · subst i
      simp [Op.decides?, apply, resolveResponse, answer_eq h, pending_resolve,
        completions_resolve hs h]
    · simp [Op.decides?, Op.marks, apply, resolveResponse, pending_resolve,
        completions_resolve_of_ne e i id _ (Ne.symm hi), hi, Ne.symm hi, h, hu]
  | expire i =>
    by_cases hi : i = id
    · subst i; simp [Op.decides?, apply, expire_eq h, pending_resolve, completions_resolve hs h]
    · simp only [Op.decides?, if_neg hi, Op.marks, apply]
      cases hp : e.pending.get? i with
      | none => rw [expire_of_get?_eq_none hp]; exact ⟨h, hu⟩
      | some q =>
        rw [expire_eq hp]
        simp [pending_resolve, completions_resolve_of_ne e i id _ (Ne.symm hi), Ne.symm hi, h, hu]
  | fail conn =>
    have hc := failConnection_spec hs conn h
    by_cases ho : p.owner = some conn
    · simpa [Op.decides?, apply, ho] using hc
    · simpa [Op.decides?, Op.marks, apply, ho] using hc

/-- An operation leaves alone what is not pending, unless it submits it. -/
theorem apply_not_pending {e : Engine} (hs : e.Sound) {op : Op} {id : Uuid}
    (h : e.pending.get? id = none) (hn : op.submits? ≠ some id) :
    (e.apply op).pending.get? id = none ∧
    (e.apply op).completions.get? id = e.completions.get? id := by
  have closed : ∀ i o, (e.resolve i o).1.pending.get? id = none ∧
      (e.resolve i o).1.completions.get? id = e.completions.get? id := by
    intro i o
    by_cases hi : i = id
    · subst i; rw [resolve_of_get?_eq_none h]; exact ⟨h, rfl⟩
    · exact ⟨by rw [pending_resolve, if_neg (Ne.symm hi)]; exact h,
        completions_resolve_of_ne e i id o (Ne.symm hi)⟩
  cases op with
  | enqueue i device command blob timeout now =>
    have hi : id ≠ i := fun he => hn (by simp [Op.submits?, he])
    simp [apply, pending_enqueue, completions_enqueue, hi, h]
  | pop device => simp [apply, h]
  | mark i conn => simp [apply, pending_markSent, h]
  | unmark i => simp [apply, pending_unmark, h]
  | requeue item => simp [apply, pending_requeueFront, h]
  | resolve i o => exact closed i o
  | respond i ok result body => exact closed i _
  | expire i =>
    simp only [apply]
    cases hp : e.pending.get? i with
    | none => rw [expire_of_get?_eq_none hp]; exact ⟨h, rfl⟩
    | some q => rw [expire_eq hp]; exact closed i _
  | fail conn =>
    simp only [apply, failConnection_eq]
    have hne : ∀ x ∈ e.owned conn, x.1 ≠ id := by
      intro x hx he
      have := ((mem_owned hs).mp hx).1
      rw [he, h] at this
      cases this
    obtain ⟨hp, hc⟩ := failAll_other e (e.owned conn) id hne
    exact ⟨hp.trans h, hc⟩

theorem apply_submits {e : Engine} (id : Uuid) (device : String) (command : Command)
    (blob : Option ByteArray) (timeout now : Nat) :
    let e' := e.apply (.enqueue id device command blob timeout now)
    e'.pending.get? id = some ⟨device, command.name, none, timeout, now + timeout⟩ ∧
    e'.completions.get? id = some .unresolved := by
  simp [apply, pending_enqueue, completions_enqueue]

theorem distinct_apply {e : Engine} (hs : e.Sound) (op : Op) :
    (e.apply op).pending.Distinct := by
  cases op with
  | enqueue i device command blob timeout now => exact hs.distinct.put i _
  | pop device => simpa [apply] using hs.distinct
  | mark i conn =>
    simp only [apply, markSent]
    split
    · exact hs.distinct.modify i fun p => { p with owner := some conn }
    · exact hs.distinct
  | unmark i => exact hs.distinct.modify i fun p => { p with owner := none }
  | requeue item => exact hs.distinct.modify item.id fun p => { p with owner := none }
  | resolve i o => exact (sound_resolve hs i o).distinct
  | respond i ok result body => exact (sound_resolve hs i _).distinct
  | expire i =>
    simp only [apply]
    cases hp : e.pending.get? i with
    | none => rw [expire_of_get?_eq_none hp]; exact hs.distinct
    | some q => rw [expire_eq hp]; exact (sound_resolve hs i _).distinct
  | fail conn => exact (sound_failAll hs _).distinct

theorem sound_apply {e : Engine} (hs : e.Sound) (op : Op) (hf : op.Fresh e) :
    (e.apply op).Sound := by
  refine ⟨distinct_apply hs op, ?_, ?_⟩
  · intro id q hq
    by_cases hn : op.submits? = some id
    · cases op <;> simp only [Op.submits?, Option.some.injEq, reduceCtorEq] at hn
      subst hn
      exact (apply_submits ..).2
    · cases hp : e.pending.get? id with
      | none => rw [(apply_not_pending hs hp hn).1] at hq; cases hq
      | some p =>
        have := apply_pending hs hf hp
        split at this
        · rw [this.1] at hq; cases hq
        · exact this.2
  · intro id hc
    by_cases hn : op.submits? = some id
    · cases op <;> simp only [Op.submits?, Option.some.injEq, reduceCtorEq] at hn
      subst hn
      exact ⟨_, (apply_submits ..).1⟩
    · cases hp : e.pending.get? id with
      | none =>
        rw [(apply_not_pending hs hp hn).2] at hc
        obtain ⟨p, hp'⟩ := hs.pending id hc
        rw [hp] at hp'; cases hp'
      | some p =>
        have := apply_pending hs hf hp
        split at this
        · rw [this.2] at hc; cases hc
        · exact ⟨_, this.1⟩

/-- What is pending behind an operation that submits nothing was pending before it. -/
theorem pending_origin {e : Engine} (hs : e.Sound) {op : Op} (hn : op.submits? = none) {id : Uuid}
    {q : Pending} (h : (e.apply op).pending.get? id = some q) :
    ∃ p, e.pending.get? id = some p ∧ op.decides? id p = none ∧ q = op.marks id p := by
  have hf : op.Fresh e := by cases op <;> simp_all [Op.Fresh, Op.submits?]
  cases hp : e.pending.get? id with
  | none =>
    rw [(apply_not_pending hs hp (by simp [hn])).1] at h
    cases h
  | some p =>
    have := apply_pending hs hf hp
    split at this
    · rw [this.1] at h; cases h
    · rename_i hd
      exact ⟨p, rfl, hd, Option.some.inj (h.symm.trans this.1)⟩

/-- A completion never disappears. -/
theorem known_apply {e : Engine} (hs : e.Sound) {op : Op} (hf : op.Fresh e) {id : Uuid}
    {c : Completion} (h : e.completions.get? id = some c) :
    ∃ c', (e.apply op).completions.get? id = some c' := by
  cases hp : e.pending.get? id with
  | none =>
    have hn : op.submits? ≠ some id := by
      intro he
      rw [Op.submits_of_fresh hf he] at h
      cases h
    exact ⟨c, (apply_not_pending hs hp hn).2.trans h⟩
  | some p =>
    have := apply_pending hs hf hp
    split at this <;> exact ⟨_, this.2⟩

end Engine

end FleetControl
