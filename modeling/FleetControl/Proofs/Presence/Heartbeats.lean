import FleetControl.Proofs.Presence.Ledger

/-! # Heartbeats

A connection that is marked and not removed is renewed by every refresh, as long as the store
refuses nothing. A heartbeat that runs from the mark on comes in time, since its interval is
shorter than the time that a record lives: the record never lapses. -/
namespace FleetControl.Cluster.Ledger
open Presence (Dated)

theorem present_of_dated {c : Cluster} {device : String} {conn : Uuid} {due : Nat}
    (h : Dated c.store device conn due) (hdue : c.now < due) : c.Present device conn := by
  obtain ⟨slot, hslot, hexpires⟩ := h
  have hlive : slot.isLive c.now = true := by
    rw [StoreSlot.isLive, hexpires]
    exact decide_eq_true hdue
  rw [Present, Store.live?, hslot, Option.filter_some, if_pos hlive]
  rfl

theorem dated_of_present {c : Cluster} (h : c.store.store.Filed) {device : String} {conn : Uuid}
    (hp : c.Present device conn) : ∃ due, Dated c.store device conn due ∧ c.now < due := by
  obtain ⟨slot, hslot⟩ := Option.isSome_iff_exists.mp hp
  obtain ⟨hget, hlive⟩ := Option.filter_eq_some_iff.mp hslot
  obtain ⟨due, rfl⟩ := h.at_key hget
  exact ⟨due, ⟨_, hget, rfl⟩, of_decide_eq_true hlive⟩

/-- A connection is marked and not removed: one process holds it, for one device, and the store
refuses nothing. -/
structure Kept (c : Cluster) (p : Nat) (device : String) (conn : Uuid) (ttl : Nat) : Prop where
  tidy : Tidy c
  up : c.store.down = []
  held : ∃ q, c.presence? p = some q ∧ q.ttl = ttl ∧ q.held.get? conn = some device
  alone : ∀ q, q ≠ p → c.recorded? q conn = none
  bounded : ∀ due, Dated c.store device conn due → due ≤ c.now + ttl

/-- An act keeps a connection: it is not marked again, not removed, and the store goes on. -/
def Act.Keeps (p : Nat) (conn : Uuid) : Act → Prop
  | .outage _ => False
  | .mark _ _ x => x ≠ conn
  | .remove q x => ¬ (q = p ∧ x = conn)
  | _ => True

section Kept
variable {c : Cluster} {p : Nat} {device : String} {conn : Uuid} {ttl : Nat}

theorem Act.Keeps.marks {a : Act} (h : a.Keeps p conn) : a.marks? ≠ some conn := by
  cases a with
  | mark q other x => exact fun he => h (Option.some.inj he)
  | _ => exact fun he => nomatch he

theorem down_act (h : Tidy c) {a : Act} (ha : ∀ down, a ≠ .outage down) :
    (act c a).store.down = c.store.down := by
  cases hd : deed? c a with
  | none => exact (act_idle h hd).2.1 ha
  | some e =>
    obtain ⟨r, d⟩ := e
    rw [(act_deed hd).1]
    cases hq : c.presence? r with
    | none => rw [carryOut_absent hq]
    | some q =>
      rw [(carryOut_effect hq d).1]
      exact (d.served q c.store c.now).down

/-- What is asked about a connection that is kept is part of a refresh by its process. -/
theorem Kept.refreshes (h : Kept c p device conn ttl) {a : Act} (ha : a.Keeps p conn) {r : Request}
    (hr : r ∈ asked c a) (hconn : r.conn = conn) :
    deed? c a = some (p, .refresh conn) ∧ r.ttl = ttl := by
  subst hconn
  obtain ⟨q, hq, httl, -⟩ := h.held
  obtain ⟨p', d, hd, hdc, hheld⟩ := recorded_of_asked hr ha.marks
  obtain rfl : p' = p := Classical.byContradiction fun hne => hheld (h.alone p' hne)
  obtain ⟨p'', d', q', hd', hq', -, -, hrttl⟩ := deed_of_asked hr
  rw [hd] at hd'
  cases hd'
  rw [hq] at hq'
  cases hq'
  refine ⟨?_, hrttl.trans httl⟩
  cases d with
  | mark other x =>
    obtain rfl := marks_of_deed hd
    exact absurd hdc ha
  | refresh x =>
    obtain rfl : x = r.conn := hdc
    exact hd
  | remove x =>
    obtain rfl := removes_of_deed hd
    exact absurd ⟨rfl, hdc⟩ ha

/-- A refresh makes the record live on from now. -/
theorem Kept.renewed (h : Kept c p device conn ttl) {a : Act}
    (hd : deed? c a = some (p, .refresh conn)) :
    Dated (act c a).store device conn (c.now + ttl) ∧ (act c a).now = c.now := by
  obtain ⟨q, hq, rfl, hheld⟩ := h.held
  refine ⟨?_, (act_deed hd).2.1⟩
  rw [(act_deed hd).1, (carryOut_effect hq _).1]
  exact q.dated_refresh c.store conn c.now h.up hheld

theorem kept_act (h : Kept c p device conn ttl) {a : Act} (ha : a.Keeps p conn) :
    Kept (act c a) p device conn ttl := by
  refine ⟨tidy_act h.tidy a, ?_, ?_, ?_, ?_⟩
  · exact (down_act h.tidy (by rintro down rfl; exact ha)).trans h.up
  · obtain ⟨q, hq, httl, hheld⟩ := h.held
    cases hd : deed? c a with
    | none =>
      rw [(act_idle h.tidy hd).2.2.1]
      exact ⟨q, hq, httl, hheld⟩
    | some e =>
      obtain ⟨r, d⟩ := e
      rw [(act_deed hd).2.2]
      by_cases hr : p = r
      · subst hr
        rw [(carryOut_effect hq d).2, if_pos rfl]
        refine ⟨_, rfl, (d.ttl_effect q c.store c.now).trans httl, ?_⟩
        by_cases hc : conn = d.conn
        · cases d with
          | mark other x =>
            obtain rfl := marks_of_deed hd
            exact absurd hc.symm ha
          | refresh x => exact hheld
          | remove x =>
            obtain rfl := removes_of_deed hd
            exact absurd ⟨rfl, hc.symm⟩ ha
        · exact (d.held_effect_of_ne q c.store c.now hc).trans hheld
      · cases hq' : c.presence? r with
        | none =>
          rw [carryOut_absent hq']
          exact ⟨q, hq, httl, hheld⟩
        | some q' =>
          rw [(carryOut_effect hq' d).2, if_neg hr]
          exact ⟨q, hq, httl, hheld⟩
  · exact fun q hne => unrecorded_act h.tidy (h.alone q hne) (by rintro other rfl; exact ha rfl)
  · rintro due ⟨slot, hslot, hdue⟩
    have hnow := now_le_act h.tidy a
    rcases dated_act h.tidy hslot with hold | ⟨r, hr, hrenews, hexpires⟩
    · have := h.bounded due ⟨slot, hold, hdue⟩
      omega
    · have httl := (h.refreshes ha hr hrenews.2.2.1).2
      rw [hdue, httl] at hexpires
      have := Option.some.inj hexpires
      omega

/-- A record that has not lapsed stays as it is until it is renewed. -/
theorem Kept.dated (h : Kept c p device conn ttl) {a : Act} (ha : a.Keeps p conn) {due : Nat}
    (hdated : Dated c.store device conn due) (hlive : c.now < due) :
    Dated (act c a).store device conn due ∨ deed? c a = some (p, .refresh conn) := by
  by_cases hr : ∃ r ∈ asked c a, r.conn = conn
  · obtain ⟨r, hr, hconn⟩ := hr
    exact Or.inr (h.refreshes ha hr hconn).1
  · left
    obtain ⟨slot, hslot, hdue⟩ := hdated
    obtain ⟨s, hserved, hfades⟩ := served_act h.tidy a
    have hkept : s.store.slots.get? (Presence.key device conn) = some slot :=
      (hserved.untouched (fun r hmem he => hr ⟨r, hmem, he⟩) device).trans hslot
    refine ⟨slot, ?_, hdue⟩
    rcases hfades (Presence.key device conn) with hsame | hpurged
    · exact hsame.trans hkept
    · have hslotlive : slot.isLive c.now = true := by
        rw [StoreSlot.isLive, hdue]
        exact decide_eq_true hlive
      rw [hpurged, Store.live?, hkept, Option.filter_some, if_pos hslotlive]

/-- A fresh connection that is marked is kept from then on. -/
theorem kept_mark (ht : Tidy c) (hup : c.store.down = []) (hfree : Unrecorded c conn)
    {q : Presence} (hq : c.presence? p = some q) (device : String) :
    Kept (act c (.mark p device conn)) p device conn q.ttl ∧
      Dated (act c (.mark p device conn)).store device conn (c.now + q.ttl) := by
  obtain ⟨hstore, hpresence⟩ := carryOut_effect hq (.mark device conn)
  obtain ⟨hdated, hheld⟩ := q.dated_markAlive c.store conn c.now hup device
  have hnow : (act c (.mark p device conn)).now = c.now := now_markAlive c p conn device
  have hdue : Dated (act c (.mark p device conn)).store device conn (c.now + q.ttl) := by
    change Dated (c.carryOut p (.mark device conn)).store device conn (c.now + q.ttl)
    rw [hstore]
    exact hdated
  refine ⟨⟨tidy_act ht _, ?_, ?_, ?_, ?_⟩, hdue⟩
  · exact (down_act ht (by rintro down ⟨⟩)).trans hup
  · refine ⟨_, (hpresence p).trans (if_pos rfl), ?_, hheld⟩
    exact (Deed.mark device conn).ttl_effect q c.store c.now
  · intro r hr
    refine unrecorded_act ht (hfree r) ?_
    rintro other ⟨⟩
    exact hr rfl
  · intro due hd
    rw [hnow]
    exact Nat.le_of_eq (hd.inj hdue)

end Kept

/-- A task that waits for an instant does so until then, whatever else happens. -/
theorem armed_act {c : Cluster} (h : Tidy c) {t : TaskId} {due : Nat} (harmed : Armed c t due)
    (hle : c.now ≤ due) (hfresh : t < c.nextTask) {a : Act} (hturn : a ≠ .turn t)
    (hstop : a ≠ .stop t) :
    (act c a).tasks.get? t = c.tasks.get? t ∧ Armed (act c a) t due ∧ (act c a).now ≤ due ∧
      t < (act c a).nextTask := by
  have hdeed : ∀ p d, (c.carryOut p d).tasks.get? t = c.tasks.get? t ∧
      Armed (c.carryOut p d) t due ∧ (c.carryOut p d).now ≤ due ∧
        t < (c.carryOut p d).nextTask := by
    intro p d
    obtain ⟨store, processes, he⟩ := c.carryOut_eq p d
    rw [he]
    exact ⟨rfl, harmed, hle, hfresh⟩
  cases a with
  | outage down => exact ⟨rfl, harmed, hle, hfresh⟩
  | mark p device conn => exact hdeed p (.mark device conn)
  | refresh p conn => exact hdeed p (.refresh conn)
  | remove p conn => exact hdeed p (.remove conn)
  | count device => exact ⟨rfl, harmed, hle, hfresh⟩
  | beat p conn interval =>
    exact ⟨Table.get?_put_of_ne _ _ (Nat.ne_of_lt hfresh),
      harmed.imp_left (List.mem_append_left _), hle, Nat.lt_succ_of_lt hfresh⟩
  | stop u =>
    have hne : t ≠ u := by
      rintro rfl
      exact hstop rfl
    exact ⟨Table.get?_erase_of_ne _ hne, (spares_remove c u).armed hne harmed, hle, hfresh⟩
  | turn u =>
    have hne : t ≠ u := by
      rintro rfl
      exact hturn rfl
    have herased : Armed { c with ready := c.ready.erase u } t due :=
      harmed.imp_left fun ht => (List.mem_erase_of_ne hne).mpr ht
    have hturned := turned_give h u
    rw [act]
    generalize c.give u = c' at hturned ⊢
    cases hturned with
    | asleep => exact ⟨rfl, harmed, hle, hfresh⟩
    | ends =>
      refine ⟨?_, (spares_finish _ u).armed hne herased, ?_, ?_⟩
      · rw [tasks_finish]
        exact Table.get?_erase_of_ne c.tasks hne
      · rw [now_finish]
        exact hle
      · rw [nextTask_finish]
        exact hfresh
    | due p conn interval due' =>
      obtain ⟨store, processes, he⟩ := c.carryOut_eq p (.refresh conn)
      rw [show (c.refresh p conn).1 = _ from he]
      refine ⟨Table.get?_put_of_ne _ _ hne, ?_, hle, hfresh⟩
      refine herased.imp_left fun ht => List.mem_cons_of_mem _ (List.mem_filter.mpr ⟨ht, ?_⟩)
      exact decide_eq_true hne
    | early p conn interval due' =>
      exact ⟨rfl, (spares_setTimer _ u due').armed hne herased, hle, hfresh⟩
  | pass ms =>
    obtain ⟨now, timers, ready, -, he⟩ := pass_keeps c ms
    obtain ⟨harmed', hle'⟩ := harmed.pass hle ms
    refine ⟨?_, harmed', hle', ?_⟩
    · rw [act, he]
    · rw [act, he]
      exact hfresh

/-- A connection that is kept has a heartbeat, which goes on before its record lapses. -/
structure Beating (c : Cluster) (p : Nat) (device : String) (conn : Uuid) (ttl interval : Nat)
    (t : TaskId) : Prop where
  kept : Kept c p device conn ttl
  short : 0 < interval ∧ interval < ttl
  fresh : t < c.nextTask
  guarded : ∃ due expires, c.tasks.get? t = some (.heartbeat p conn interval due) ∧
    Armed c t due ∧ c.now ≤ due ∧ due ≤ c.now + interval ∧
    Dated c.store device conn expires ∧ due < expires

/-- An act lets a heartbeat go on with its connection. -/
def Act.Spares (p : Nat) (conn : Uuid) (t : TaskId) (a : Act) : Prop :=
  a.Keeps p conn ∧ a ≠ .stop t

section Beating
variable {c : Cluster} {p : Nat} {device : String} {conn : Uuid} {ttl interval : Nat} {t : TaskId}

theorem Beating.present (h : Beating c p device conn ttl interval t) : c.Present device conn := by
  obtain ⟨due, expires, -, -, hle, -, hdated, hlt⟩ := h.guarded
  exact present_of_dated hdated (Nat.lt_of_le_of_lt hle hlt)

/-- The heartbeat itself renews the record at the instant that it waited for. -/
theorem beating_turn (h : Beating c p device conn ttl interval t) :
    Beating (act c (.turn t)) p device conn ttl interval t := by
  obtain ⟨due, expires, htask, harmed, hle, hsoon, hdated, hlt⟩ := h.guarded
  have hi : interval ≠ 0 := Nat.ne_of_gt h.short.1
  have hkept := kept_act h.kept (a := .turn t) trivial
  by_cases hr : t ∈ c.ready
  · by_cases hd : due ≤ c.now
    · have hdeed : deed? c (.turn t) = some (p, .refresh conn) := by
        simp only [deed?, due?, htask, if_pos (And.intro hr (And.intro hi hd))]
      obtain ⟨hrenewed, hnow⟩ := h.kept.renewed hdeed
      have hgive : act c (.turn t) = _ := give_due htask hr hi hd
      obtain ⟨store, processes, he⟩ := c.carryOut_eq p (.refresh conn)
      rw [show (c.refresh p conn).1 = _ from he] at hgive
      have hshort := h.short.2
      refine ⟨hkept, h.short, ?_, due + interval, c.now + ttl, ?_, ?_, ?_, ?_, hrenewed, ?_⟩
      · rw [hgive]
        exact h.fresh
      · rw [hgive]
        exact Table.get?_put_self ..
      · rw [hgive]
        exact Or.inl List.mem_cons_self
      · omega
      · omega
      · omega
    · have hgive : act c (.turn t) = _ := give_early htask hr hi hd
      rw [hgive] at hkept ⊢
      exact ⟨hkept, h.short, h.fresh, due, expires, htask,
        Or.inr (List.mem_append_right _ List.mem_cons_self), hle, hsoon, hdated, hlt⟩
  · have hgive : act c (.turn t) = c := give_of_not_mem hr
    rw [hgive]
    exact h

theorem beating_act (h : Beating c p device conn ttl interval t) {a : Act}
    (ha : a.Spares p conn t) : Beating (act c a) p device conn ttl interval t := by
  by_cases hturn : a = .turn t
  · rw [hturn]
    exact beating_turn h
  · obtain ⟨due, expires, htask, harmed, hle, hsoon, hdated, hlt⟩ := h.guarded
    have hshort := h.short.2
    have hrecord : ∃ expires', Dated (act c a).store device conn expires' ∧ due < expires' := by
      rcases h.kept.dated ha.1 hdated (by omega) with hsame | hd
      · exact ⟨expires, hsame, hlt⟩
      · exact ⟨c.now + ttl, (h.kept.renewed hd).1, by omega⟩
    obtain ⟨htask', harmed', hle', hfresh'⟩ := armed_act h.kept.tidy harmed hle h.fresh hturn ha.2
    obtain ⟨expires', hdated', hlt'⟩ := hrecord
    have hnow := now_le_act h.kept.tidy a
    exact ⟨kept_act h.kept ha.1, h.short, hfresh', due, expires', htask'.trans htask, harmed', hle',
      by omega, hdated', hlt'⟩

theorem beating_play (h : Beating c p device conn ttl interval t) {as : List Act}
    (ha : ∀ a ∈ as, a.Spares p conn t) : Beating (play c as) p device conn ttl interval t := by
  induction as generalizing c with
  | nil => exact h
  | cons a as ih =>
    obtain ⟨hfirst, hrest⟩ := List.forall_mem_cons.mp ha
    exact ih (beating_act h hfirst) hrest

/-- A heartbeat that starts while the record is fresh. -/
theorem beating_beat (h : Kept c p device conn ttl) (hshort : 0 < interval ∧ interval < ttl)
    (hdated : Dated c.store device conn (c.now + ttl)) :
    Beating (act c (.beat p conn interval)) p device conn ttl interval c.nextTask :=
  ⟨kept_act h (a := .beat p conn interval) trivial, hshort, Nat.lt_succ_self _, c.now + interval,
    c.now + ttl, Table.get?_put_self .., Or.inl (List.mem_append_right _ List.mem_cons_self),
    Nat.le_add_right _ _, Nat.le_refl _, hdated, Nat.add_lt_add_left hshort.2 _⟩

end Beating

section Runs
variable {c : Cluster} {p : Nat} {device : String} {conn : Uuid} {ttl : Nat}

theorem kept_play (h : Kept c p device conn ttl) {as : List Act} (ha : ∀ a ∈ as, a.Keeps p conn) :
    Kept (play c as) p device conn ttl := by
  induction as generalizing c with
  | nil => exact h
  | cons a as ih =>
    obtain ⟨hfirst, hrest⟩ := List.forall_mem_cons.mp ha
    exact ih (kept_act h hfirst) hrest

/-- A fresh record stays fresh until time passes. -/
theorem fresh_play (h : Kept c p device conn ttl) (hpositive : 0 < ttl)
    (hdated : Dated c.store device conn (c.now + ttl)) {as : List Act}
    (ha : ∀ a ∈ as, a.Keeps p conn) (hnow : (play c as).now = c.now) :
    Dated (play c as).store device conn (c.now + ttl) := by
  induction as generalizing c with
  | nil => exact hdated
  | cons a as ih =>
    obtain ⟨hfirst, hrest⟩ := List.forall_mem_cons.mp ha
    have hle := now_le_play (tidy_act h.tidy a) as
    have hge := now_le_act h.tidy a
    have hsame : (act c a).now = c.now := by
      change (play (act c a) as).now = c.now at hnow
      omega
    have hstep : Dated (act c a).store device conn (c.now + ttl) := by
      rcases h.dated hfirst hdated (by omega) with hkeeps | hd
      · exact hkeeps
      · exact (h.renewed hd).1
    rw [← hsame] at hstep hnow ⊢
    exact ih (kept_act h hfirst) hstep hrest hnow

end Runs

section Ledger
variable (supply : Supply) (epoch : Nat) (settings : List ServerSettings)

/-- A record that is live was renewed not long ago. -/
theorem renewed_of_present (as : List Act) {device : String} {conn : Uuid}
    (h : (play (running supply epoch settings) as).Present device conn) :
    ∃ e ∈ ledger (running supply epoch settings) as, e.2.Renews device conn ∧
      (play (running supply epoch settings) as).now < e.1 + e.2.ttl ∧
        ∃ s ∈ settings, e.2.ttl = s.presenceTtl := by
  have htidy := tidy_running supply epoch settings
  obtain ⟨due, ⟨slot, hslot, hdue⟩, hlt⟩ := dated_of_present (tidy_play htidy as).filed h
  rcases dated_play htidy as hslot with hold | ⟨e, he, hrenews, hexpires⟩
  · rw [absent_running supply epoch settings conn device] at hold
    cases hold
  · rw [hdue] at hexpires
    obtain ⟨p, q, hq, httl⟩ := ttl_of_ledger htidy he
    rw [presence_running] at hq
    obtain ⟨s, hs, rfl⟩ := Option.map_eq_some_iff.mp hq
    exact ⟨e, he, hrenews, Option.some.inj hexpires ▸ hlt, s, List.mem_of_getElem? hs, httl⟩

/-- The process of a run that has settings lets its records live as long as they say. -/
theorem presence_play (as : List Act) {p : Nat} {s : ServerSettings} (hs : settings[p]? = some s) :
    ∃ q, (play (running supply epoch settings) as).presence? p = some q ∧
      q.ttl = s.presenceTtl := by
  have httl := ttl_play (tidy_running supply epoch settings) as p
  rw [presence_running, hs] at httl
  exact Option.map_eq_some_iff.mp httl

/-- Nobody asks about a connection that has been removed. -/
theorem not_asked_of_removed {c : Cluster} {p : Nat} {device : String} {conn : Uuid}
    (ht : Tidy c) (hfree : Unrecorded c conn) {between after : List Act}
    (hm : conn ∉ marked (between ++ after)) :
    ∀ e ∈ ledger (play (act c (.mark p device conn)) (between ++ [.remove p conn])) after,
      e.2.conn ≠ conn := by
  rw [marked, List.filterMap_append, List.mem_append, not_or] at hm
  have hmarked := tidy_act ht (.mark p device conn)
  have htidy := tidy_play hmarked between
  have hnobody : Unrecorded
      (act (play (act c (.mark p device conn)) between) (.remove p conn)) conn := by
    intro q
    by_cases hq : q = p
    · subst hq
      exact recorded_remove _ q conn
    · have hmark : (act c (.mark p device conn)).recorded? q conn = none :=
        unrecorded_act ht (hfree q) (by rintro other ⟨⟩; exact hq rfl)
      exact unrecorded_act htidy (recorded_play hmarked hmark hm.1) (by rintro other ⟨⟩)
  rw [play_append]
  exact (unrecorded_play hnobody (tidy_act htidy _) hm.2).2.1

/-- A mark that the store refuses leaves no trace: nobody asks about the connection afterwards, and
it is present for no device. -/
theorem no_trace_of_refused {c : Cluster} {p : Nat} {device : String} {conn : Uuid}
    (ht : Tidy c) (hfree : Unrecorded c conn) (habsent : Absent c conn) {error : ChannelError}
    (hrefused : (c.markAlive p device conn).2 = .error error) {after : List Act}
    (hm : conn ∉ marked after) :
    (∀ e ∈ ledger (act c (.mark p device conn)) after, e.2.conn ≠ conn) ∧
      ∀ other, ¬ (play (act c (.mark p device conn)) after).Present other conn := by
  obtain ⟨hstore, hpresence⟩ := mark_refused hrefused
  have hfree' : Unrecorded (act c (.mark p device conn)) conn := by
    intro q
    rw [recorded?, show (act c (.mark p device conn)).presence? q = _ from hpresence q]
    exact hfree q
  have habsent' : Absent (act c (.mark p device conn)) conn := by
    intro other
    rw [show (act c (.mark p device conn)).store = c.store from hstore]
    exact habsent other
  have htidy := tidy_act ht (.mark p device conn)
  obtain ⟨-, hledger, hend⟩ := unrecorded_play hfree' htidy hm
  refine ⟨hledger, fun other hpresent => ?_⟩
  obtain ⟨due, ⟨slot, hslot, -⟩, -⟩ := dated_of_present (tidy_play htidy after).filed hpresent
  rw [hend habsent' other] at hslot
  cases hslot

/-- The refresh interval of every configuration that loads is shorter than its records live. -/
theorem refresh_in_time {source : Config.Source} {overrides : Overrides} {home : String}
    {config : Config} (h : Config.load source overrides home = .ok config) :
    0 < (ServerSettings.ofConfig config).presenceRefresh ∧
      (ServerSettings.ofConfig config).presenceRefresh <
        (ServerSettings.ofConfig config).presenceTtl := by
  have hvalid : ¬ (config.presenceRefresh = 0 ∨ config.presenceTtl ≤ config.presenceRefresh) := by
    unfold Config.load at h
    cases hc : Config.ofSource source with
    | error e =>
      rw [hc] at h
      cases h
    | ok c =>
      rw [hc] at h
      change (c.override overrides home).validate = .ok config at h
      unfold Config.validate at h
      split at h
      · cases h
      · rename_i hvalid
        split at h
        · cases h
        · split at h
          · cases h
          · cases h
            exact hvalid
  simp only [ServerSettings.ofConfig]
  omega

end Ledger

section Marked
variable {c : Cluster} {p : Nat} {device : String} {conn : Uuid} {q : Presence}

/-- With a heartbeat from the mark on, a connection is present at every instant. -/
theorem always_present (ht : Tidy c) (hfree : Unrecorded c conn) (hup : c.store.down = [])
    (hq : c.presence? p = some q) {interval : Nat} (hshort : 0 < interval ∧ interval < q.ttl)
    {between after : List Act} (hbetween : ∀ a ∈ between, a.Keeps p conn)
    (hnow : (play (act c (.mark p device conn)) between).now = c.now)
    (hafter : ∀ a ∈ after,
      a.Spares p conn (play (act c (.mark p device conn)) between).nextTask)
    {done : List Act} (hdone : done <+: between ++ .beat p conn interval :: after) :
    (play (act c (.mark p device conn)) done).Present device conn := by
  obtain ⟨hkept, hdated⟩ := kept_mark ht hup hfree hq device
  have hmark : (act c (.mark p device conn)).now = c.now := now_markAlive c p conn device
  have hpositive : 0 < q.ttl := Nat.lt_trans hshort.1 hshort.2
  have hfresh : ∀ {as}, (∀ a ∈ as, a.Keeps p conn) →
      (play (act c (.mark p device conn)) as).now = c.now →
      Dated (play (act c (.mark p device conn)) as).store device conn (c.now + q.ttl) := by
    intro as has hsame
    rw [← hmark] at hdated hsame ⊢
    exact fresh_play hkept hpositive hdated has hsame
  have hearly : ∀ {as}, as <+: between → (play (act c (.mark p device conn)) as).Present device
      conn := by
    rintro as ⟨rest, rfl⟩
    have hle := now_le_play hkept.tidy as
    have hge := now_le_play (tidy_play hkept.tidy as) rest
    rw [← play_append] at hge
    have hsame : (play (act c (.mark p device conn)) as).now = c.now := by omega
    refine present_of_dated (hfresh (fun a ha => ?_) hsame) (by omega)
    exact hbetween a (List.mem_append_left _ ha)
  obtain ⟨rest, hrest⟩ := hdone
  rcases List.append_eq_append_iff.mp hrest with ⟨as, rfl, -⟩ | ⟨bs, rfl, hbs⟩
  · exact hearly (List.prefix_append done as)
  · cases bs with
    | nil =>
      rw [List.append_nil]
      exact hearly List.prefix_rfl
    | cons b bs =>
      obtain ⟨rfl, rfl⟩ := List.cons.inj hbs
      have hstart := beating_beat (kept_play hkept hbetween) hshort
        (hnow ▸ hfresh hbetween hnow)
      rw [play_append]
      exact (beating_play hstart fun a ha => hafter a (List.mem_append_left _ ha)).present

/-- A connection that is kept comes back with its next refresh. -/
theorem back_at_refresh (ht : Tidy c) (hfree : Unrecorded c conn) (hup : c.store.down = [])
    (hq : c.presence? p = some q) (hpositive : 0 < q.ttl) {as : List Act}
    (hkeeps : ∀ a ∈ as, a.Keeps p conn) {a : Act}
    (hrefresh : deed? (play (act c (.mark p device conn)) as) a = some (p, .refresh conn)) :
    (act (play (act c (.mark p device conn)) as) a).Present device conn := by
  obtain ⟨hkept, -⟩ := kept_mark ht hup hfree hq device
  obtain ⟨hdated, hnow⟩ := (kept_play hkept hkeeps).renewed hrefresh
  exact present_of_dated hdated (by omega)

end Marked

/-- A heartbeat of the default settings, and more time than its record lives. -/
def beaten : List Act :=
  [.beat 0 ⟨7⟩ 20000, .turn 0, .pass 30000, .turn 0, .turn 0, .pass 30000, .turn 0]

end FleetControl.Cluster.Ledger
