import FleetControl.Proofs.Cluster.Limits
import FleetControl.Proofs.Cluster.Roster
import Mathlib.Data.Finset.Card

/-! # How many handshakes are refused

A limiter is asked when a handshake begins and takes note when it is refused. What begins in
between is not limited: within a window, the failures that count when a handshake is last allowed
stay below the limit, but all handshakes under way then may still be refused. -/
namespace FleetControl.Cluster
open RateLimiter (standard Lapses)

/-- The failures that are recorded of an address. -/
def failures (c : Cluster) (p : Nat) (a : Address) : List Nat :=
  ((c.limiter? p).map (·.of a)).getD []

/-- Whether a task is a handshake of a process with an address. -/
def shakes (c : Cluster) (p : Nat) (a : Address) (t : TaskId) : Bool :=
  (c.shaking? t).any fun e => e.1 = p ∧ c.address? e.2 = some a

/-- The handshakes of a process with an address that are under way. -/
def handshakes (c : Cluster) (p : Nat) (a : Address) : Finset TaskId :=
  (Finset.range c.nextTask).filter fun t => c.shakes p a t

namespace Refusals

inductive Act where
  | event (e : Event)
  /-- The limiter of a process forgets failures that do not count any more. -/
  | collect (p : Nat)

def act (c : Cluster) : Act → Cluster
  | .event e => happen c e
  | .collect p => c.limit p fun r => r.collect c.now

def play (c : Cluster) : List Act → Cluster
  | [] => c
  | x :: xs => play (act c x) xs

/-- How many failures of an address an act records. -/
def recorded (c : Cluster) (p : Nat) (a : Address) (x : Act) : Nat :=
  ((act c x).failures p a).count c.now - (c.failures p a).count c.now

/-- How many failures of an address a history records. -/
def refusals (c : Cluster) (p : Nat) (a : Address) : List Act → Nat
  | [] => 0
  | x :: xs => recorded c p a x + refusals (act c x) p a xs

/-- What is so in every history. -/
structure Kept (c : Cluster) : Prop where
  fresh : Fresh c
  processes : Numbered c.processes
  sockets : ∀ s, c.sockets.has s = true → s < c.sockets.length
  usual : ∀ p r, c.limiter? p = some r → r.Usual
  placed : ∀ t p s, c.shaking? t = some (p, s) → c.sockets.has s = true

/-- What an act does about the failures of an address and its handshakes. -/
inductive Moves (p : Nat) (a : Address) (c c' : Cluster) : Prop
  | idles (forgets : Forgets standard.window c.now (c.failures p a) (c'.failures p a))
      (fewer : ∀ t, c'.shakes p a t = true → c.shakes p a t = true) : Moves p a c c'
  | admits (forgets : Forgets standard.window c.now (c.failures p a) (c'.failures p a))
      (room : (c'.failures p a).length < standard.maxFailures) : Moves p a c c'
  | refuses {t times} (forgets : Forgets standard.window c.now (c.failures p a) times)
      (adds : c'.failures p a = times ++ [c.now])
      (fewer : ∀ u, c'.shakes p a u = true → c.shakes p a u = true)
      (shook : c.shakes p a t = true) (ended : c'.shakes p a t = false) : Moves p a c c'

section Kept
variable {c c' : Cluster} {p : Nat} {a : Address} {t : TaskId}

theorem shakes_iff : c.shakes p a t = true ↔
    ∃ s, c.shaking? t = some (p, s) ∧ c.address? s = some a := by
  unfold shakes
  cases c.shaking? t with
  | none => simp
  | some e =>
    obtain ⟨q, s⟩ := e
    simp

theorem has_of_address {s : Nat} (h : c.address? s = some a) : c.sockets.has s = true := by
  obtain ⟨socket, hs, -⟩ := Option.map_eq_some_iff.mp h
  exact (Table.has_iff _ _).mpr ⟨socket, hs⟩

theorem lt_of_shaking (hf : Fresh c) {e : Nat × Nat} (h : c.shaking? t = some e) :
    t < c.nextTask := by
  refine Nat.lt_of_not_le fun hle => ?_
  rw [shaking_eq, hf t hle] at h
  cases h

theorem failures_recedes (h : Recedes c c') (p : Nat) (a : Address) :
    c'.failures p a = c.failures p a := by
  rw [failures, failures, h.limiters]

theorem shakes_recedes (h : Recedes c c') (hs : c'.shakes p a t = true) :
    c.shakes p a t = true := by
  rw [shakes_iff] at hs ⊢
  obtain ⟨s, hshaking, haddress⟩ := hs
  refine ⟨s, ?_, h.address s ▸ haddress⟩
  rcases h.shaking t with hsame | hnone
  · exact hsame ▸ hshaking
  · rw [hnone] at hshaking
    cases hshaking

/-- Nor does the use of a limiter begin a handshake. -/
theorem shakes_limit {q : Nat} {f : RateLimiter → RateLimiter} (h : Recedes (c.limit q f) c')
    (hs : c'.shakes p a t = true) : c.shakes p a t = true := by
  have hlimit : (c.limit q f).shakes p a t = true := shakes_recedes h hs
  exact hlimit

theorem Kept.recedes (hk : Kept c) (h : Recedes c c') : Kept c' := by
  have hkeys : c'.sockets.keys = c.sockets.keys := by
    rw [← Table.keys_image c'.sockets (·.address), h.addresses, Table.keys_image]
  refine ⟨h.fresh hk.fresh, Table.lt_length_of_keys h.processes hk.processes,
    Table.lt_length_of_keys hkeys hk.sockets, fun p r hr => ?_, fun t p s ht => ?_⟩
  · exact hk.usual p r (h.limiters p ▸ hr)
  · rw [Table.has_of_keys hkeys]
    refine hk.placed t p s ?_
    rcases h.shaking t with hsame | hnone
    · exact hsame ▸ ht
    · rw [hnone] at ht
      cases ht

theorem Kept.limit (hk : Kept c) (p : Nat) {f : RateLimiter → RateLimiter}
    (hf : ∀ r : RateLimiter, r.Usual → (f r).Usual) : Kept (c.limit p f) := by
  refine ⟨hk.fresh, Table.lt_length_of_keys (keys_updateProcess c p _) hk.processes, hk.sockets,
    fun q r hr => ?_, hk.placed⟩
  rw [limiter_limit] at hr
  split at hr
  · obtain ⟨old, hold, rfl⟩ := Option.map_eq_some_iff.mp hr
    exact hf old (hk.usual q old hold)
  · exact hk.usual q r hr

/-- A handshake begins on a socket that is there. -/
theorem Kept.setTask (hk : Kept c) (ht : t < c.nextTask) {s : Nat} (hs : c.sockets.has s = true)
    (state : HandshakeState) (deadline : Nat) :
    Kept (c.setTask t (.session p s (.handshaking state deadline))) := by
  refine ⟨fun u hu => ?_, hk.processes, hk.sockets, hk.usual, fun u q x hu => ?_⟩
  · rw [post_setTask, if_neg (Nat.ne_of_gt (Nat.lt_of_lt_of_le ht hu))]
    exact hk.fresh u hu
  · rw [shaking_setTask] at hu
    split at hu
    · cases hu
      exact hs
    · exact hk.placed u q x hu

theorem Kept.deals (hk : Kept c) (h : Deals c c') : Kept c' := by
  cases h with
  | @lapses p f c₁ hl before after =>
    exact ((hk.recedes before).limit p fun r hr => (hl r hr).1).recedes after
  | @admits t p s a r state deadline c₁ started address limiter allowed before after =>
    have hs : c₁.sockets.has s = true := has_of_address ((before.address s).trans address)
    have hbegun := (hk.recedes before).setTask (p := p)
      (Nat.lt_of_lt_of_le started before.onward) hs state deadline
    exact (hbegun.limit p fun r hr => (RateLimiter.lapses_allows a c.now r hr).1).recedes after
  | @refuses t p s a r c₁ shaking address limiter before after ended =>
    exact ((hk.recedes before).limit p fun r hr => hr.recordFailure a c.now).recedes after

/-- Whoever uses a limiter so forgets only what does not count. -/
theorem forgets_limit (hk : Kept c) {now : Nat} {f : RateLimiter → RateLimiter}
    (hf : Lapses now f) (q p : Nat) (a : Address) :
    Forgets standard.window now (c.failures p a) ((c.limit q f).failures p a) := by
  unfold failures
  rw [limiter_limit]
  split
  · cases hr : c.limiter? p with
    | none => exact .refl _ _ _
    | some r => exact (hf r (hk.usual p r hr)).2 a
  · exact .refl _ _ _

/-- A failure counts against one address of one process. -/
theorem failures_recordFailure (hk : Kept c) (b : Address) (now : Nat) {q : Nat} {r : RateLimiter}
    (hr : c.limiter? q = some r) (p : Nat) (a : Address) :
    ∃ times, Forgets standard.window now (c.failures p a) times ∧
      (c.limit q fun r => r.recordFailure b now).failures p a =
        if p = q ∧ a = b then times ++ [now] else times := by
  unfold failures
  rw [limiter_limit]
  by_cases hp : p = q
  · obtain ⟨times, hforgets, hof⟩ :=
      RateLimiter.of_recordFailure (hk.usual q r hr) b a now
    refine ⟨times, ?_, ?_⟩
    · rw [hp, hr]
      exact hforgets
    · rw [if_pos hp, hp, hr]
      simp only [true_and]
      exact hof
  · exact ⟨_, .refl _ _ _, by simp only [hp, false_and, if_false]⟩

/-- A handshake that begins is no other address's. -/
theorem shakes_setTask {q s : Nat} {b : Address} (hs : c.address? s = some b)
    (hother : ¬ (p = q ∧ a = b)) {state : HandshakeState} {deadline : Nat} {u : TaskId}
    (h : (c.setTask t (.session q s (.handshaking state deadline))).shakes p a u = true) :
    c.shakes p a u = true := by
  obtain ⟨x, hshaking, haddress⟩ := shakes_iff.mp h
  rw [shaking_setTask] at hshaking
  split at hshaking
  · cases hshaking
    exact absurd ⟨rfl, Option.some_inj.mp (haddress.symm.trans hs)⟩ hother
  · exact shakes_iff.mpr ⟨x, hshaking, haddress⟩

theorem Kept.moves (hk : Kept c) (h : Deals c c') (p : Nat) (a : Address) : Moves p a c c' := by
  cases h with
  | @lapses q f c₁ hl before after =>
    refine .idles ?_ fun t ht => ?_
    · rw [failures_recedes after, ← failures_recedes before]
      exact forgets_limit (hk.recedes before) hl q p a
    · exact shakes_recedes before (shakes_limit after ht)
  | @admits t q s b r state deadline c₁ started address limiter allowed before after =>
    have hforgets : Forgets standard.window c.now (c.failures p a) (c'.failures p a) := by
      rw [failures_recedes after, ← failures_recedes before]
      exact forgets_limit (hk.recedes before) (RateLimiter.lapses_allows b c.now) q p a
    by_cases hours : p = q ∧ a = b
    · refine .admits hforgets ?_
      rw [failures_recedes after, hours.1, hours.2, failures, limiter_limit, if_pos rfl]
      have hr : (c₁.setTask t (.session q s (.handshaking state deadline))).limiter? q = some r :=
        (before.limiters q).trans limiter
      rw [hr]
      exact RateLimiter.length_of_allows (hk.usual q r limiter) allowed
    · refine .idles hforgets fun u hu => shakes_recedes before ?_
      exact shakes_setTask ((before.address s).trans address) hours (shakes_limit after hu)
  | @refuses t q s b r c₁ shaking address limiter before after ended =>
    obtain ⟨times, hforgets, hadds⟩ := failures_recordFailure (hk.recedes before) b c.now
      ((before.limiters q).trans limiter) p a
    rw [failures_recedes before] at hforgets
    rw [← failures_recedes after] at hadds
    have hfewer : ∀ u, c'.shakes p a u = true → c.shakes p a u = true :=
      fun u hu => shakes_recedes before (shakes_limit after hu)
    by_cases hours : p = q ∧ a = b
    · rw [if_pos hours] at hadds
      refine .refuses hforgets hadds hfewer (t := t) (shakes_iff.mpr ⟨s, ?_, ?_⟩) ?_
      · rw [hours.1]
        exact shaking
      · rw [hours.2]
        exact address
      · rw [shakes, ended]
        rfl
    · rw [if_neg hours] at hadds
      exact .idles (hadds ▸ hforgets) hfewer

theorem Kept.addProcess (hk : Kept c) (settings : ServerSettings) :
    Kept (c.addProcess settings) := by
  refine ⟨hk.fresh, Table.lt_length_put hk.processes _, hk.sockets, fun p r hr => ?_, hk.placed⟩
  simp only [limiter?, Cluster.addProcess, Table.get?_put] at hr
  split at hr
  · obtain rfl : standard = r := Option.some_inj.mp hr
    exact RateLimiter.usual_standard
  · exact hk.usual p r hr

/-- A process that starts has no failures, and none that is there is forgotten. -/
theorem failures_addProcess (hk : Kept c) (settings : ServerSettings) (p : Nat) (a : Address) :
    (c.addProcess settings).failures p a = c.failures p a := by
  simp only [failures, limiter?, Cluster.addProcess, Table.get?_put]
  split
  · rename_i hp
    rw [hp, Table.get?_length hk.processes]
    rfl
  · rfl

theorem Kept.connect (hk : Kept c) (p : Nat) (a : Address) : Kept (c.connect p a).1 := by
  let joined : Cluster := { c with
    sockets := c.sockets.put c.sockets.length { process := p, address := a } }
  have hgrows : ∀ s, c.sockets.has s = true → joined.sockets.has s = true := by
    intro s hs
    simp only [joined, Table.has, Table.get?_put]
    split
    · rfl
    · exact hs
  have hjoined : Kept joined := ⟨hk.fresh, hk.processes, Table.lt_length_put hk.sockets _, hk.usual,
    fun t p s ht => hgrows s (hk.placed t p s ht)⟩
  exact hjoined.recedes ((Recedes.refl joined).spawn rfl)

/-- A new socket is no handshake's. -/
theorem shakes_connect (hk : Kept c) {q : Nat} {b : Address}
    (h : (c.connect q b).1.shakes p a t = true) : c.shakes p a t = true := by
  let joined : Cluster := { c with
    sockets := c.sockets.put c.sockets.length { process := q, address := b } }
  have hjoined : joined.shakes p a t = true :=
    shakes_recedes ((Recedes.refl joined).spawn rfl) h
  obtain ⟨s, hshaking, haddress⟩ := shakes_iff.mp hjoined
  have hlt := hk.sockets s (hk.placed t p s hshaking)
  refine shakes_iff.mpr ⟨s, hshaking, ?_⟩
  simp only [joined, address?, Table.get?_put] at haddress
  rwa [if_neg (Nat.ne_of_lt hlt)] at haddress

end Kept

/-- An act, as far as limits go. -/
structure Goes (c c' : Cluster) : Prop where
  kept : Kept c'
  now : c.now ≤ c'.now
  moves : ∀ p a, Moves p a c c'

section Goes
variable {c c' : Cluster}

theorem Kept.goes (hk : Kept c) (h : Deals c c') : Goes c c' :=
  ⟨hk.deals h, Nat.le_of_eq h.now.symm, hk.moves h⟩

/-- What is no turn and opens nothing uses no limiter, whatever time it is then. -/
theorem Kept.elsewhere (hk : Kept c) {e : Event} (hopens : e.opens = false)
    (hturn : ∀ t, e ≠ .turn t) : Goes c (happen c e) := by
  have hoccurs := occurs_happen hk.fresh hopens fun t ht => absurd ht (hturn t)
  let later : Cluster := { c with
    now := (happen c e).now
    store := { c.store with down := (happen c e).store.down } }
  have hlater : Kept later := ⟨hk.fresh, hk.processes, hk.sockets, hk.usual, hk.placed⟩
  have hrecedes : Recedes later (happen c e) := hoccurs.aside.recedes
  refine ⟨hlater.recedes hrecedes, hoccurs.onward, fun p a => ?_⟩
  refine .idles (.of_eq (failures_recedes hrecedes p a)) fun t ht => ?_
  have hsame : later.shakes p a t = true := shakes_recedes hrecedes ht
  exact hsame

theorem goes_act (hk : Kept c) (x : Act) : Goes c (act c x) := by
  cases x with
  | collect p =>
    exact hk.goes (.lapses (RateLimiter.lapses_collect c.now) (.refl c) (.refl _))
  | event e =>
    change Goes c (happen c e)
    by_cases hturn : ∃ t, e = .turn t
    · obtain ⟨t, rfl⟩ := hturn
      exact hk.goes (deals_give hk.fresh t)
    · cases hopens : e.opens with
      | false => exact hk.elsewhere hopens fun t ht => hturn ⟨t, ht⟩
      | true =>
        cases e with
        | addProcess settings =>
          exact ⟨hk.addProcess settings, Nat.le_refl _, fun p a =>
            .idles (.of_eq (failures_addProcess hk settings p a)) fun _ => id⟩
        | connect p a =>
          exact ⟨hk.connect p a, Nat.le_refl _, fun _ _ =>
            .idles (.refl _ _ _) fun _ => shakes_connect hk⟩
        | _ => cases hopens

theorem now_le_play (hk : Kept c) (xs : List Act) : c.now ≤ (play c xs).now := by
  induction xs generalizing c with
  | nil => exact Nat.le_refl _
  | cons x xs ih => exact Nat.le_trans (goes_act hk x).now (ih (goes_act hk x).kept)

theorem kept_play (hk : Kept c) (xs : List Act) : Kept (play c xs) := by
  induction xs generalizing c with
  | nil => exact hk
  | cons x xs ih => exact ih (goes_act hk x).kept

theorem kept_initial (supply : Supply) (epoch : Nat) (directory : DirectoryService) :
    Kept (initial supply epoch directory) where
  fresh _ _ := rfl
  processes p hp := by cases hp
  sockets s hs := by cases hs
  usual p r hr := by cases hr
  placed t p s ht := by cases ht

end Goes

section Bound
variable {c c' : Cluster} {p : Nat} {a : Address}

theorem mem_handshakes (hk : Kept c) {t : TaskId} :
    t ∈ c.handshakes p a ↔ c.shakes p a t = true := by
  simp only [handshakes, Finset.mem_filter, Finset.mem_range, and_iff_right_iff_imp]
  intro ht
  obtain ⟨s, hshaking, -⟩ := shakes_iff.mp ht
  exact lt_of_shaking hk.fresh hshaking

theorem handshakes_subset (hk : Kept c) (hk' : Kept c')
    (h : ∀ t, c'.shakes p a t = true → c.shakes p a t = true) :
    c'.handshakes p a ⊆ c.handshakes p a := fun t ht =>
  (mem_handshakes hk).mpr (h t ((mem_handshakes hk').mp ht))

theorem card_handshakes_lt (hk : Kept c) (hk' : Kept c')
    (h : ∀ t, c'.shakes p a t = true → c.shakes p a t = true) {t : TaskId}
    (shook : c.shakes p a t = true) (ended : c'.shakes p a t = false) :
    (c'.handshakes p a).card < (c.handshakes p a).card := by
  refine Finset.card_lt_card ⟨handshakes_subset hk hk' h, fun hsub => ?_⟩
  have hstill := (mem_handshakes hk').mp (hsub ((mem_handshakes hk).mpr shook))
  rw [ended] at hstill
  cases hstill

theorem recorded_eq_zero {x : Act}
    (h : Forgets standard.window c.now (c.failures p a) ((act c x).failures p a)) :
    recorded c p a x = 0 := Nat.sub_eq_zero_of_le (h.sub.count_le _)

theorem recorded_le_one {x : Act} {times : List Nat}
    (h : Forgets standard.window c.now (c.failures p a) times)
    (adds : (act c x).failures p a = times ++ [c.now]) : recorded c p a x ≤ 1 := by
  have hcount := h.sub.count_le c.now
  rw [recorded, adds, List.count_append, List.count_singleton_self]
  omega

/-- Let `last` be failures of an address that go on to count. Either no handshake begins any more
and only those under way are refused, or a handshake begins, the last one while the limiter has
room for it. -/
theorem refusals_play (hk : Kept c) (xs : List Act) {last : List Nat}
    (hlast : last <:+ c.failures p a)
    (hcounts : ∀ t ∈ last, (play c xs).now - t < standard.window)
    (hspan : (play c xs).now - c.now < standard.window) :
    refusals c p a xs ≤ (c.handshakes p a).card ∨
      ∃ first later, xs = first ++ later ∧ last.length + refusals c p a xs <
        standard.maxFailures + ((play c first).handshakes p a).card := by
  induction xs generalizing c last with
  | nil => exact Or.inl (Nat.zero_le _)
  | cons x xs ih =>
    obtain ⟨hkept, hnow, hmoves⟩ := goes_act hk x
    have hend := now_le_play hkept xs
    -- A failure that counts in the end counts in the meantime.
    have hinside : ∀ t ∈ last, c.now - t < standard.window := fun t ht =>
      Nat.lt_of_le_of_lt (Nat.sub_le_sub_right (Nat.le_trans hnow hend) t) (hcounts t ht)
    have hspan' : (play (act c x) xs).now - (act c x).now < standard.window :=
      Nat.lt_of_le_of_lt (Nat.sub_le_sub_left hnow _) hspan
    cases hmoves p a with
    | idles forgets fewer =>
      have hsubset := Finset.card_le_card (handshakes_subset hk hkept fewer)
      rw [refusals, recorded_eq_zero forgets, Nat.zero_add]
      rcases ih hkept (forgets.latest last hlast hinside) hcounts hspan' with
        hfew | ⟨first, later, rfl, hbound⟩
      · exact Or.inl (Nat.le_trans hfew hsubset)
      · exact Or.inr ⟨x :: first, later, rfl, hbound⟩
    | admits forgets room =>
      have hkeeps := forgets.latest last hlast hinside
      rw [refusals, recorded_eq_zero forgets, Nat.zero_add]
      rcases ih hkept hkeeps hcounts hspan' with hfew | ⟨first, later, rfl, hbound⟩
      · have hroom := Nat.lt_of_le_of_lt hkeeps.length_le room
        exact Or.inr ⟨[x], xs, rfl, Nat.add_lt_add_of_lt_of_le hroom hfew⟩
      · exact Or.inr ⟨x :: first, later, rfl, hbound⟩
    | @refuses t times forgets adds fewer shook ended =>
      have hrecorded := recorded_le_one forgets adds
      have hfewer := card_handshakes_lt hk hkept fewer shook ended
      have hlonger : last ++ [c.now] <:+ (act c x).failures p a := by
        obtain ⟨older, holder⟩ := forgets.latest last hlast hinside
        exact ⟨older, by rw [adds, ← holder, List.append_assoc]⟩
      have hcounts' : ∀ t ∈ last ++ [c.now], (play (act c x) xs).now - t < standard.window := by
        intro t ht
        rcases List.mem_append.mp ht with hold | hnew
        · exact hcounts t hold
        · rw [List.mem_singleton.mp hnew]
          exact hspan
      rw [refusals]
      rcases ih hkept hlonger hcounts' hspan' with hfew | ⟨first, later, rfl, hbound⟩
      · left
        omega
      · refine Or.inr ⟨x :: first, later, rfl, ?_⟩
        rw [List.length_append, List.length_singleton] at hbound
        change _ < standard.maxFailures + ((play (act c x) first).handshakes p a).card
        omega

end Bound

/-- Within a window, an address has fewer failures in a process than the limit and the handshakes
together that are under way with it at some instant of the window. -/
theorem refusals_limited (supply : Supply) (epoch : Nat) (directory : DirectoryService)
    (before span : List Act) (p : Nat) (a : Address) :
    let c := play (initial supply epoch directory) before
    (play c span).now < c.now + standard.window →
      ∃ first later, span = first ++ later ∧
        refusals c p a span < standard.maxFailures + ((play c first).handshakes p a).card := by
  intro c hspan
  have hwindow : 0 < standard.window := by decide
  have hwithin : (play c span).now - c.now < standard.window := by omega
  rcases refusals_play (kept_play (kept_initial supply epoch directory) before) span
    (List.nil_suffix) (fun t ht => absurd ht List.not_mem_nil) hwithin with
    hfew | ⟨first, later, hsplit, hbound⟩
  · -- Nothing is allowed any more, and all is under way from the start.
    have hlimit : 0 < standard.maxFailures := by decide
    exact ⟨[], span, rfl, Nat.lt_of_le_of_lt hfew (Nat.lt_add_of_pos_left hlimit)⟩
  · rw [List.length_nil, Nat.zero_add] at hbound
    exact ⟨first, later, hsplit, hbound⟩

/-- Devices of one address connect, and each is at its handshake before any of them has failed. -/
def rush (n : Nat) : List Act :=
  let all := List.range n
  .event (.addProcess (.ofConfig {})) ::
    (all.map (fun _ => .event (.connect 0 (.v4 [10, 0, 0, 1]))) ++
      all.map (fun t => .event (.turn t)) ++
      all.map (fun s => .event (.arrive s (.text "guess"))) ++
      all.map (fun t => .event (.turn t)))

def idle : Cluster := initial ⟨Uuid.numbered 1, toString⟩ 0 { directory := {} }

theorem refusals_limited_rush :
    (play idle (rush 21)).now < idle.now + standard.window ∧
      ∃ first later, rush 21 = first ++ later ∧ refusals idle 0 (.v4 [10, 0, 0, 1]) (rush 21) <
        standard.maxFailures + ((play idle first).handshakes 0 (.v4 [10, 0, 0, 1])).card := by
  have hspan : (play idle (rush 21)).now < idle.now + standard.window := by decide +kernel
  exact ⟨hspan, refusals_limited _ 0 { directory := {} } [] (rush 21) 0 _ hspan⟩

/-- The limit alone does not hold: each of those who connect is refused, and counts. -/
theorem refused_past_limit : ¬ ∀ (supply : Supply) (epoch : Nat) (directory : DirectoryService)
    (before span : List Act) (p : Nat) (a : Address),
    let c := play (initial supply epoch directory) before
    (play c span).now < c.now + standard.window →
      refusals c p a span ≤ standard.maxFailures := by
  intro h
  have hmore : ¬ refusals idle 0 (.v4 [10, 0, 0, 1]) (rush 21) ≤ standard.maxFailures := by
    decide +kernel
  have hspan : (play idle (rush 21)).now < idle.now + standard.window := by decide +kernel
  exact hmore (h _ 0 { directory := {} } [] (rush 21) 0 _ hspan)

end Refusals

end FleetControl.Cluster
