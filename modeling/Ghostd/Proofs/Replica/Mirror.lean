import Ghostd.Proofs.Addressbook.History
import Ghostd.Proofs.Addressbook.Indexes
import Ghostd.Replica.Follower

/-!
# `Ghostd.Proofs.Replica.Mirror`: replication converges

A round delivers a piece of the leader's log that begins at or before the cursor, however it
was cut into pages and whatever the leader did meanwhile: the log only grows, and its events
are numbered without a gap. `ApplyReplicated` skips what the cursor has passed, so of such a
piece it applies exactly the events that come next. `applyAll_next` is this fact as a rule: what
holds of a replica and is kept when the next event of the log is applied holds after the loop.

The binding table of the standby is then the replay of the log up to the cursor. The indexes
need no argument of their own. They are exact on both sides, and exact indexes are determined
by the bindings (`sameTables_of_bindings`).
-/

set_option autoImplicit false

namespace Ghostd.Proofs.Replica

open Ghostd.Lib Ghostd.Addressbook Ghostd.Replica Ghostd.Proofs.Addressbook List

variable {es log log' : List Event} {L L' : Ledger} {cursor stop : Nat} {e : Event} {R : Replica} {m : Mirror}
    {now : Int} {round : Round}

/-! ### Tables -/

/-- The binding table and all its indexes are the same. -/
structure SameTables (L L' : Ledger) : Prop where
  bindings : L.bindings = L'.bindings
  expiry : L.expiry = L'.expiry
  dns : L.dns = L'.dns
  indexes : L.indexes = L'.indexes

/-- Buckets without values are equal when they have the same keys. -/
theorem bucket_unit_ext {κ : Type} [LinearOrder κ] {b c : Bucket κ Unit}
    (h : ∀ k, b.get k = some () ↔ c.get k = some ()) : b = c := by
  refine Bucket.ext_get fun k => Option.ext fun u => ?_
  cases u
  exact h k

/-- Exact indexes are determined by the bindings. -/
theorem sameTables_of_bindings (hL : Exact L) (hL' : Exact L') (h : L.bindings = L'.bindings) :
    SameTables L L' := by
  obtain ⟨hexpiry, hindexes, hdns⟩ := hL'
  rw [← h] at hexpiry hindexes hdns
  refine ⟨h, ?_, ?_, ?_⟩
  · exact bucket_unit_ext (hL.expiry.unique hexpiry)
  · refine Bucket.ext_get fun k => Option.ext fun v => ?_
    exact hL.dns.unique hdns (k, v)
  · funext i
    exact bucket_unit_ext fun k => hL.indexes.unique hindexes (i, k)

/-- The ledger that a piece of the log writes. -/
def asOf (es : List Event) : Ledger :=
  es.foldl (fun L e => if e.binding.scope ≠ "" then L.save e.time e.binding e.kind else L) {}

theorem asOf_concat (es : List Event) (e : Event) :
    asOf (es ++ [e]) =
      if e.binding.scope ≠ "" then (asOf es).save e.time e.binding e.kind else asOf es := by
  unfold asOf
  rw [foldl_append, foldl_cons, foldl_nil]

theorem bindings_asOf (es : List Event) : (asOf es).bindings = Bucket.empty.replay (writes es) := by
  induction es using List.reverseRecOn with
  | nil => rfl
  | append_singleton es e ih =>
    rw [asOf_concat, writes_append]
    split
    · rename_i hscope
      rw [bindings_save, ih, writes_singleton hscope, Bucket.replay_concat]
    · rename_i hscope
      rw [ih]
      simp [writes, hscope]

/-- Its indexes are exact when the log is that of a ledger in order. -/
theorem exact_asOf (hproper : ∀ e ∈ es, e.binding.scope ≠ "" → Proper e.binding)
    (hends : ∀ e ∈ es, Int64 e.binding.endsAt) : Exact (asOf es) := by
  have horderly : Orderly (asOf es) ∧ ∀ e ∈ (asOf es).events, Int64 e.binding.endsAt := by
    unfold asOf
    refine foldl_invariant (I := fun L : Ledger => Orderly L ∧ ∀ e ∈ L.events, Int64 e.binding.endsAt)
      ?_ ⟨orderly_empty, fun e he => by cases he⟩
    intro e he L h
    split
    · rename_i hscope
      refine ⟨h.1.save (hproper e he hscope) _ _, ?_⟩
      intro x hx
      rcases mem_events_save hx with hx | ⟨hb, -⟩
      · exact h.2 x hx
      · rw [hb]
        exact hends e he
    · exact h
  exact horderly.1.exact horderly.2

/-! ### Numbered logs -/

/-- In a numbered log the events after a number are what is left when that many are dropped. -/
theorem filter_after {s k : Nat} (hids : log.map (·.id) = List.range' s log.length) :
    (log.filter fun e => e.id > k) = log.drop (k + 1 - s) := by
  induction log generalizing s with
  | nil => simp
  | cons e rest ih =>
    rw [map_cons, length_cons, List.range'_succ] at hids
    obtain ⟨hid, hrest⟩ := List.cons.inj hids
    by_cases hk : e.id > k
    · rw [filter_cons_of_pos (by simpa using hk), ih hrest, show k + 1 - s = 0 by omega,
        show k + 1 - (s + 1) = 0 by omega, drop_zero, drop_zero]
    · rw [filter_cons_of_neg (by simpa using hk), ih hrest,
        show k + 1 - s = (k + 1 - (s + 1)) + 1 by omega, drop_succ_cons]

/-- The numbers of what is left. -/
theorem ids_drop (hids : log.map (·.id) = List.range' 1 log.length) (k : Nat) :
    (log.drop k).map (·.id) = List.range' (k + 1) (log.drop k).length := by
  rw [map_drop, hids, drop_range', length_drop]
  congr 1
  omega

/-- The number of an event that comes next. -/
theorem id_of_drop {rest : List Event} {k : Nat} (hids : log.map (·.id) = List.range' 1 log.length)
    (h : log.drop k = e :: rest) : e.id = k + 1 := by
  have hnumbers := ids_drop hids k
  rw [h, map_cons, length_cons, List.range'_succ] at hnumbers
  exact (List.cons.inj hnumbers).1

/-- `es` is a piece of the log that begins at or before the cursor and stops at `stop`. -/
def Piece (log : List Event) (cursor : Nat) (es : List Event) (stop : Nat) : Prop :=
  ∃ start rest, start ≤ cursor ∧ log.drop start = es ++ rest ∧ stop = start + es.length

/-- The log grows at its end, and the cursor moves forward. -/
theorem Piece.mono {cursor' : Nat} (h : Piece log cursor es stop) (hlog : log <+: log')
    (hcursor : cursor ≤ cursor') (hlength : cursor ≤ log.length) : Piece log' cursor' es stop := by
  obtain ⟨start, rest, hstart, hdrop, hstop⟩ := h
  obtain ⟨more, rfl⟩ := hlog
  refine ⟨start, rest ++ more, by omega, ?_, hstop⟩
  rw [drop_append_of_le_length (by omega), hdrop, append_assoc]

/-- Fetching goes on where it stopped. -/
theorem Piece.page (hids : log.map (·.id) = List.range' 1 log.length) (h : Piece log cursor es stop)
    (limit : Nat) : let page := (log.filter fun e => e.id > stop).take limit
    Piece log cursor (es ++ page) (stop + page.length) := by
  obtain ⟨start, rest, hstart, hdrop, hstop⟩ := h
  have hrest : log.drop stop = rest := by
    rw [hstop, ← drop_drop, hdrop, drop_left]
  rw [filter_after hids, Nat.add_sub_cancel, hrest]
  refine ⟨start, rest.drop limit, hstart, ?_, ?_⟩
  · rw [append_assoc, take_append_drop, hdrop]
  · rw [length_append, hstop, Nat.add_assoc]

/-- The number of the last event of a page. -/
theorem last_of_page (hids : log.map (·.id) = List.range' 1 log.length) {limit : Nat}
    (h : ((log.filter fun e => e.id > stop).take limit).getLast? = some e) :
    e.id = stop + ((log.filter fun e => e.id > stop).take limit).length := by
  rw [filter_after hids, Nat.add_sub_cancel] at h ⊢
  have hnumbers : ((log.drop stop).take limit).map (·.id) =
      List.range' (stop + 1) ((log.drop stop).take limit).length := by
    rw [map_take, ids_drop hids]
    refine ext_getElem (by simp) fun i _ _ => ?_
    simp
  have hlast := congrArg List.getLast? hnumbers
  rw [List.getLast?_map, h, List.getLast?_range'] at hlast
  split at hlast
  · cases hlast
  · have := Option.some.inj hlast
    simp only at this
    omega

/-! ### The loop of `ApplyReplicated` -/

/-- The rule for the loop. Of a piece that begins at or before the cursor it applies the events
that come next, one after the other. -/
theorem applyAll_next (hids : log.map (·.id) = List.range' 1 log.length) (now : Int) {I : Replica → Prop}
    (h : Piece log R.cursor es stop) (hnext : ∀ (R : Replica), ∀ e ∈ es, log[R.cursor]? = some e → I R →
      I { ledger := R.ledger.applyEvent now e, cursor := R.cursor + 1 }) (hI : I R) :
    I (es.foldl (Replica.applyOne now) R) ∧ R.cursor ≤ (es.foldl (Replica.applyOne now) R).cursor ∧
      stop ≤ (es.foldl (Replica.applyOne now) R).cursor := by
  obtain ⟨start, rest, hstart, hdrop, rfl⟩ := h
  induction es generalizing start R with
  | nil => exact ⟨hI, le_refl _, hstart⟩
  | cons e es ih =>
    have hid := id_of_drop hids hdrop
    have htail : log.drop (start + 1) = es ++ rest := by
      rw [← drop_drop, hdrop]
      rfl
    have hstop : start + (e :: es).length = start + 1 + es.length := by
      rw [length_cons]
      omega
    have hrest : ∀ (R : Replica), ∀ x ∈ es, log[R.cursor]? = some x → I R →
        I { ledger := R.ledger.applyEvent now x, cursor := R.cursor + 1 } :=
      fun R x hx => hnext R x (mem_cons_of_mem _ hx)
    rw [foldl_cons, hstop]
    by_cases hpassed : e.id ≤ R.cursor
    · have hskip : Replica.applyOne now R e = R := if_pos hpassed
      rw [hskip]
      exact ih hrest hI (start + 1) (by omega) htail
    · -- The piece has come to the cursor, so this is the event that comes next.
      have hcursor : start = R.cursor := by omega
      have happly : Replica.applyOne now R e =
          { ledger := R.ledger.applyEvent now e, cursor := R.cursor + 1 } := by
        rw [Replica.applyOne, if_neg hpassed, hid, hcursor]
      have hget : log[R.cursor]? = some e := by
        rw [← hcursor, ← List.head?_drop, hdrop]
        rfl
      rw [happly]
      have hloop := ih hrest (hnext R e mem_cons_self hget hI) (start + 1) (by rw [hcursor]) htail
      exact ⟨hloop.1, Nat.le_of_succ_le hloop.2.1, hloop.2.2⟩

/-- What of an event matters to a reader: its time, its binding and its sighting. -/
def trace (e : Event) : Int × Binding × Option Observation := (e.time, e.binding, e.observation)

/-- What an event of the leader leaves in the standby's log. A binding is stamped anew. -/
def copied (now : Int) (e : Event) : List (Int × Binding × Option Observation) :=
  match e.observation with
  | some o => [(e.time, {}, some o)]
  | none => if e.binding.scope ≠ "" then [(now, e.binding, none)] else []

theorem traces_applyEvent (now : Int) (L : Ledger) (e : Event) :
    (L.applyEvent now e).events.map trace = L.events.map trace ++ copied now e := by
  unfold Ledger.applyEvent copied
  cases e.observation with
  | some =>
    show List.map trace ((if e.kind = EventKind.observation then _ else L).events ++ [_]) = _
    rw [map_append]
    split <;> rfl
  | none =>
    show List.map trace (if e.binding.scope ≠ "" then L.save now e.binding e.kind else L).events = _
    by_cases hscope : e.binding.scope ≠ ""
    · simp only [if_pos hscope, events_save, map_append, map_cons, map_nil]
      rfl
    · simp only [if_neg hscope, append_nil]

theorem binding_of_copied {x : Int × Binding × Option Observation} (h : x ∈ copied now e) :
    x.2.1 = {} ∨ x.2.1 = e.binding := by
  unfold copied at h
  split at h
  · rw [mem_singleton.mp h]
    exact Or.inl rfl
  · split at h
    · rw [mem_singleton.mp h]
      exact Or.inr rfl
    · cases h

/-- The table takes the write of the event. An event with a sighting has no binding. -/
theorem bindings_applyEvent (now : Int) (L : Ledger) (hapart : e.observation ≠ none → e.binding = {}) :
    (L.applyEvent now e).bindings = L.bindings.replay (writes [e]) := by
  unfold Ledger.applyEvent
  cases ho : e.observation with
  | some =>
    have hempty : writes [e] = [] := by
      refine writes_eq_nil fun x hx => ?_
      rw [mem_singleton.mp hx]
      exact hapart (by rw [ho]; simp)
    rw [hempty]
    simp only [Ledger.appendEvent, Bucket.replay_nil]
    split <;> rfl
  | none =>
    simp only
    split
    · rename_i hscope
      rw [bindings_save, writes_singleton hscope]
      rfl
    · rename_i hscope
      simp [writes, hscope]

/-- What `ApplyReplicated` does when it succeeds: the loop, and a step beside the bindings that
leaves the log and the sightings alone. -/
theorem applyReplicated_cases {R' : Replica} {snap : Option Snapshot}
    (h : R.applyReplicated now es snap = .ok R')
    (hnamed : ∀ s, snap = some s → ∀ a ∈ s.associations, labelPattern a.name = true) :
    R'.cursor = (es.foldl (Replica.applyOne now) R).cursor ∧
      Beside (es.foldl (Replica.applyOne now) R).ledger R'.ledger ∧
      R'.ledger.events = (es.foldl (Replica.applyOne now) R).ledger.events ∧
      R'.ledger.observations = (es.foldl (Replica.applyOne now) R).ledger.observations := by
  unfold Replica.applyReplicated at h
  cases snap with
  | none =>
    rw [pure_eq_ok] at h
    subst h
    exact ⟨rfl, .refl _, rfl, rfl⟩
  | some s =>
    simp only [bind_eq_ok, pure_eq_ok] at h
    obtain ⟨L', hadopt, rfl⟩ := h
    have hbeside := adoptSnapshot_beside hadopt (hnamed s rfl)
    simp only [Ledger.adoptSnapshot, bind_eq_ok, pure_eq_ok] at hadopt
    obtain ⟨duid, -, rfl⟩ := hadopt
    exact ⟨rfl, hbeside, rfl, rfl⟩

/-! ### The leader -/

/-- The log of the leader is what can be replicated. -/
structure Source (L : Ledger) : Prop where
  orderly : Orderly L
  chronicle : Chronicle L
  apart : ∀ e ∈ L.events, e.observation ≠ none → e.binding = {}

theorem source_empty : Source {} where
  orderly := orderly_empty
  chronicle := chronicle_empty
  apart e he := by cases he

/-- An event without a binding keeps the two apart. -/
theorem apart_beside (h : Beside L L') (hapart : ∀ e ∈ L.events, e.observation ≠ none → e.binding = {}) :
    ∀ e ∈ L'.events, e.observation ≠ none → e.binding = {} := by
  obtain ⟨es, hevents, -, -, hes⟩ := h.logged
  intro e he ho
  rw [hevents] at he
  rcases mem_append.mp he with he | he
  · exact hapart e he ho
  · exact (hes e he).1

theorem Source.apply (h : Source L) (now : Int) {op : Operation} (hop : op.Admissible)
    (hprinted : Operation.Printed op) : Source (op.apply now L) ∧ L.events <+: (op.apply now L).events := by
  obtain ⟨-, hcontinues⟩ := continues_apply h.orderly.tidy now hop
  have hapart : ∀ e ∈ (op.apply now L).events, e.observation ≠ none → e.binding = {} := by
    refine (apply_invariant (I := fun L => ∀ e ∈ L.events, e.observation ≠ none → e.binding = {})
      h.orderly.tidy hop (fun _ _ _ hbeside hI => apart_beside hbeside hI) ?_ h.apart).2
    intro L1 b kind _ _ _ hI e he ho
    rcases mem_events_save he with he | ⟨-, hnone⟩
    · exact hI e he ho
    · exact absurd hnone ho
  refine ⟨⟨h.orderly.apply now hop hprinted, h.chronicle.continues hcontinues, hapart⟩, ?_⟩
  obtain ⟨es, hevents, -⟩ := hcontinues
  exact ⟨es, hevents.symm⟩

theorem Source.noteDNSConfig (h : Source L) (now : Int) (c : Config) :
    Source (L.noteDNSConfig now c) ∧ L.events <+: (L.noteDNSConfig now c).events := by
  have hbeside := (noteDNSConfig_aside L now c).beside
  have hcontinues : Continues now L (L.noteDNSConfig now c) :=
    Continues.beside ⟨[], by simp, rfl, rfl, fun e he => (by cases he), rfl⟩ hbeside
  refine ⟨⟨h.orderly.beside hbeside, h.chronicle.continues hcontinues, apart_beside hbeside h.apart⟩, ?_⟩
  obtain ⟨es, hevents, -⟩ := hcontinues
  exact ⟨es, hevents.symm⟩

/-! ### The standby -/

/-- The standby is the leader's log up to its cursor. -/
structure Tracks (log : List Event) (R : Replica) : Prop where
  orderly : Orderly R.ledger
  cursor : R.cursor ≤ log.length
  table : R.ledger.bindings = Bucket.empty.replay (writes (log.take R.cursor))
  logged : ∀ e ∈ R.ledger.events, e.binding = {} ∨ ∃ e' ∈ log, e'.binding = e.binding

theorem tracks_empty : Tracks [] {} where
  orderly := orderly_empty
  cursor := le_refl 0
  table := rfl
  logged e he := by cases he

/-- The leader's log has grown. -/
theorem Tracks.mono (h : Tracks log R) (hlog : log <+: log') : Tracks log' R where
  orderly := h.orderly
  cursor := le_trans h.cursor hlog.length_le
  table := by
    obtain ⟨more, rfl⟩ := hlog
    rw [h.table, take_append_of_le_length h.cursor]
  logged e he := by
    rcases h.logged e he with hempty | ⟨e', he', hsame⟩
    · exact Or.inl hempty
    · exact Or.inr ⟨e', hlog.subset he', hsame⟩

theorem take_succ_of_get {n : Nat} (h : log[n]? = some e) : log.take (n + 1) = log.take n ++ [e] := by
  rw [take_add_one, h]
  rfl

/-- One event more. -/
theorem Tracks.next (hL : Source L) (he : L.events[R.cursor]? = some e) (h : Tracks L.events R) :
    Tracks L.events { ledger := R.ledger.applyEvent now e, cursor := R.cursor + 1 } := by
  have hmem : e ∈ L.events := mem_of_getElem? he
  refine ⟨?_, ?_, ?_, ?_⟩
  · exact Orderly.logs (applyEvent_logs (hL.orderly.logged e hmem) (hL.orderly.seen e hmem) .refl)
      (fun _ _ _ _ hb => hb) h.orderly
  · obtain ⟨hlt, -⟩ := List.getElem?_eq_some_iff.mp he
    exact hlt
  · show (R.ledger.applyEvent now e).bindings = _
    rw [bindings_applyEvent now R.ledger (hL.apart e hmem), h.table, take_succ_of_get he,
      writes_append, Bucket.replay_append]
  · intro x hx
    have htrace : trace x ∈ R.ledger.events.map trace ++ copied now e := by
      rw [← traces_applyEvent]
      exact mem_map_of_mem hx
    rcases mem_append.mp htrace with hold | hnew
    · obtain ⟨x', hx', hsame⟩ := mem_map.mp hold
      have hbinding : x'.binding = x.binding := congrArg (fun t => t.2.1) hsame
      rw [← hbinding]
      exact h.logged x' hx'
    · rcases binding_of_copied hnew with hempty | hcopied
      · exact Or.inl hempty
      · exact Or.inr ⟨e, hmem, hcopied.symm⟩

/-- Every association of a snapshot has a name. -/
def Named (snap : Snapshot) : Prop := ∀ a ∈ snap.associations, labelPattern a.name = true

theorem named_of_snapshot (hL : Orderly L) {clock : Int} {snap : Snapshot}
    (h : L.snapshot clock "" "" 0 = .ok snap) : Named snap := by
  intro a ha
  obtain ⟨k, hk⟩ := mem_associations_of_snapshot h ha
  exact hL.legible.named hk

/-- A delivery keeps the standby on the leader's log, and moves the cursor forward. -/
theorem Tracks.replicate (hL : Source L) {R' : Replica} {snap : Option Snapshot} (h : Tracks L.events R)
    (hes : Piece L.events R.cursor es stop) (hsnap : ∀ s, snap = some s → Named s)
    (hR : R.applyReplicated now es snap = .ok R') :
    Tracks L.events R' ∧ R.cursor ≤ R'.cursor ∧ stop ≤ R'.cursor := by
  obtain ⟨hcursor, hbeside, hevents, -⟩ := applyReplicated_cases hR hsnap
  obtain ⟨hloop, hforward, hstop⟩ := applyAll_next hL.chronicle.ids now
    (I := Tracks L.events) hes (fun R e _ he hI => hI.next hL he) h
  refine ⟨⟨hloop.orderly.beside hbeside, ?_, ?_, ?_⟩, ?_, ?_⟩
  · rw [hcursor]
    exact hloop.cursor
  · rw [hbeside.bindings, hcursor, hloop.table]
  · rw [hevents]
    exact hloop.logged
  · rw [hcursor]
    exact hforward
  · rw [hcursor]
    exact hstop

/-! ### Rounds -/

/-- What a round holds is a piece of the leader's log, and a snapshot of the leader. -/
def Fetching (log : List Event) (cursor : Nat) : Round → Prop
  | .paging after events => Piece log cursor events after
  | .paged events => ∃ stop, Piece log cursor events stop
  | .snapped events snap => (∃ stop, Piece log cursor events stop) ∧ Named snap
  | .stated events snap _ => (∃ stop, Piece log cursor events stop) ∧ Named snap
  | .applied _ => True
  | .ended _ => True

theorem Fetching.mono {cursor' : Nat} (h : Fetching log cursor round) (hlog : log <+: log')
    (hcursor : cursor ≤ cursor') (hlength : cursor ≤ log.length) : Fetching log' cursor' round := by
  cases round with
  | paging => exact Piece.mono h hlog hcursor hlength
  | paged =>
    obtain ⟨stop, hpiece⟩ := h
    exact ⟨stop, hpiece.mono hlog hcursor hlength⟩
  | snapped =>
    obtain ⟨⟨stop, hpiece⟩, hnamed⟩ := h
    exact ⟨⟨stop, hpiece.mono hlog hcursor hlength⟩, hnamed⟩
  | stated =>
    obtain ⟨⟨stop, hpiece⟩, hnamed⟩ := h
    exact ⟨⟨stop, hpiece.mono hlog hcursor hlength⟩, hnamed⟩
  | applied => trivial
  | ended => trivial

theorem fetching_turn (hL : Source L) {after : Nat} {events page : List Event}
    (h : Piece L.events cursor events after) (hpage : L.eventsAfter after 1000 = .ok page) :
    Fetching L.events cursor (.turn after events page) := by
  simp only [Ledger.eventsAfter, bind_eq_ok, refuseIf_eq_ok, exists_const, pure_eq_ok] at hpage
  obtain ⟨-, rfl⟩ := hpage
  have hnext := h.page hL.chronicle.ids (1000 : Int).toNat
  unfold Round.turn
  split
  · exact ⟨_, hnext⟩
  · rename_i hfull
    -- A full page has a last event, whose number is where the piece stops now.
    cases hlast : ((L.events.filter fun e => e.id > after).take (1000 : Int).toNat).getLast? with
    | none =>
      rw [List.getLast?_eq_none_iff] at hlast
      rw [hlast] at hfull
      exact absurd (by decide) hfull
    | some e =>
      show Piece L.events cursor _ e.id
      rw [last_of_page hL.chronicle.ids hlast]
      exact hnext

/-- One step of a round. -/
theorem fetching_next (parse : String → Option Config) (hL : Source L) {own : Standby} (call : Call)
    (hown : Tracks L.events own.replica) (h : Fetching L.events own.replica.cursor round) :
    let r := round.next parse L own call
    Tracks L.events r.1.replica ∧ own.replica.cursor ≤ r.1.replica.cursor ∧
      Fetching L.events r.1.replica.cursor r.2 := by
  -- Most calls leave the standby alone and the round with what it had, or end it.
  have hstay : Tracks L.events own.replica ∧ own.replica.cursor ≤ own.replica.cursor ∧
      Fetching L.events own.replica.cursor round := ⟨hown, le_refl _, h⟩
  have hend : ∀ result, Tracks L.events own.replica ∧ own.replica.cursor ≤ own.replica.cursor ∧
      Fetching L.events own.replica.cursor (.ended result) := fun _ => ⟨hown, le_refl _, trivial⟩
  cases round with
  | ended =>
    cases call with
    | start => exact ⟨hown, le_refl _, own.replica.cursor, L.events.drop own.replica.cursor, le_refl _, rfl, rfl⟩
    | _ => exact hstay
  | paging after =>
    cases call with
    | page =>
      simp only [Round.next]
      cases hpage : L.eventsAfter after 1000 with
      | ok => exact ⟨hown, le_refl _, fetching_turn hL h hpage⟩
      | error => exact hend _
    | fail => exact hend _
    | _ => exact hstay
  | paged =>
    cases call with
    | snapshot clock =>
      simp only [Round.next]
      cases hsnap : L.snapshot clock "" "" 0 with
      | ok => exact ⟨hown, le_refl _, h, named_of_snapshot hL.orderly hsnap⟩
      | error => exact hend _
    | fail => exact hend _
    | _ => exact hstay
  | snapped =>
    cases call with
    | state => exact ⟨hown, le_refl _, h⟩
    | fail => exact hend _
    | _ => exact hstay
  | stated events snap =>
    cases call with
    | apply now =>
      simp only [Round.next]
      cases hR : own.replica.applyReplicated now events (some snap) with
      | ok =>
        obtain ⟨⟨stop, hpiece⟩, hnamed⟩ := h
        obtain ⟨htracks, hforward, -⟩ := hown.replicate hL hpiece (fun s hs => by
          rw [← Option.some.inj hs]
          exact hnamed) hR
        exact ⟨htracks, hforward, trivial⟩
      | error => exact hend _
    | _ => exact hstay
  | applied =>
    cases call with
    | save =>
      simp only [Round.next]
      split
      · exact hend _
      · split
        · exact hend _
        · split
          · exact hend _
          · exact hend _
    | _ => exact hstay

/-! ### Runs -/

/-- The leader's operations are called as `Admissible` and `Printed` say, and a snapshot that is
delivered once more is one of some ledger. -/
def Admissible : Mirror.Action → Prop
  | .lead _ op => op.Admissible ∧ Operation.Printed op
  | .configure _ _ => True
  | .sync _ => True
  | .deliver _ _ _ snap => ∀ s, snap = some s → ∃ source clock, Reachable source ∧
      source.snapshot clock "" "" 0 = .ok s

/-- The invariant of the system. -/
structure Follows (m : Mirror) : Prop where
  leader : Source m.leader
  own : Tracks m.leader.events m.own.replica
  round : Fetching m.leader.events m.own.replica.cursor m.round

/-- The leader's log grows and the cursor moves forward. -/
structure Onward (m m' : Mirror) : Prop where
  log : m.leader.events <+: m'.leader.events
  cursor : m.own.replica.cursor ≤ m'.own.replica.cursor

theorem follows_start : Follows {} where
  leader := source_empty
  own := tracks_empty
  round := trivial

theorem Follows.step (parse : String → Option Config) (h : Follows m) {a : Mirror.Action} (ha : Admissible a) :
    Follows (m.step parse a) ∧ Onward m (m.step parse a) := by
  have hlead : ∀ L', Source L' → m.leader.events <+: L'.events →
      Follows { m with leader := L' } ∧ Onward m { m with leader := L' } := by
    intro L' hsource hlog
    exact ⟨⟨hsource, h.own.mono hlog, h.round.mono hlog (le_refl _) h.own.cursor⟩, hlog, le_refl _⟩
  cases a with
  | lead now =>
    obtain ⟨hsource, hlog⟩ := h.leader.apply now ha.1 ha.2
    exact hlead _ hsource hlog
  | configure now c =>
    obtain ⟨hsource, hlog⟩ := h.leader.noteDNSConfig now c
    exact hlead _ hsource hlog
  | sync call =>
    obtain ⟨hown, hforward, hround⟩ := fetching_next parse h.leader call h.own h.round
    exact ⟨⟨h.leader, hown, hround⟩, prefix_rfl, hforward⟩
  | deliver now start count snap =>
    have hstay : Follows m ∧ Onward m m := ⟨h, prefix_rfl, le_refl _⟩
    simp only [Mirror.step]
    by_cases hstart : start ≤ m.own.replica.cursor
    · rw [if_pos hstart]
      cases hR : m.own.replica.applyReplicated now
          ((m.leader.events.filter fun e => e.id > start).take count) snap with
      | error e => exact hstay
      | ok R =>
        have hnil : Piece m.leader.events m.own.replica.cursor [] start :=
          ⟨start, m.leader.events.drop start, hstart, rfl, rfl⟩
        have hpiece := hnil.page h.leader.chronicle.ids count
        obtain ⟨hown, hforward, -⟩ := h.own.replicate h.leader hpiece (fun s hs => by
          obtain ⟨source, clock, hsource, hsnap⟩ := ha s hs
          exact named_of_snapshot (orderly_of_reachable hsource) hsnap) hR
        exact ⟨⟨h.leader, hown, h.round.mono prefix_rfl hforward h.own.cursor⟩,
          prefix_rfl, hforward⟩
    · rw [if_neg hstart]
      exact hstay

theorem Follows.run (parse : String → Option Config) (h : Follows m) {actions : List Mirror.Action}
    (hactions : ∀ a ∈ actions, Admissible a) :
    Follows (m.run parse actions) ∧ Onward m (m.run parse actions) := by
  induction actions generalizing m with
  | nil => exact ⟨h, prefix_rfl, le_refl _⟩
  | cons a rest ih =>
    obtain ⟨hstep, honward⟩ := h.step parse (hactions a mem_cons_self)
    obtain ⟨hrest, honward'⟩ := ih hstep fun x hx => hactions x (mem_cons_of_mem _ hx)
    exact ⟨hrest, honward.log.trans honward'.log, le_trans honward.cursor honward'.cursor⟩

theorem run_append (parse : String → Option Config) (m : Mirror) (xs ys : List Mirror.Action) :
    m.run parse (xs ++ ys) = (m.run parse xs).run parse ys := by
  unfold Mirror.run
  rw [foldl_append]

/-- The tables of the standby are those that the log up to the cursor writes. -/
theorem Follows.tables (h : Follows m) (hends : ∀ e ∈ m.leader.events, Int64 e.binding.endsAt) :
    SameTables m.own.replica.ledger (asOf (m.leader.events.take m.own.replica.cursor)) := by
  refine sameTables_of_bindings (h.own.orderly.exact fun e he => ?_) (exact_asOf ?_ ?_) ?_
  · rcases h.own.logged e he with hempty | ⟨e', he', hsame⟩
    · rw [hempty]
      exact ⟨by decide, by decide⟩
    · rw [← hsame]
      exact hends e' he'
  · intro e he
    exact h.leader.orderly.logged e (mem_of_mem_take he)
  · intro e he
    exact hends e (mem_of_mem_take he)
  · rw [h.own.table, bindings_asOf]

/-- The tables of the leader are those that its whole log writes. -/
theorem Source.tables (h : Source L) (hends : ∀ e ∈ L.events, Int64 e.binding.endsAt) :
    SameTables L (asOf L.events) := by
  refine sameTables_of_bindings (h.orderly.exact hends) (exact_asOf h.orderly.logged hends) ?_
  rw [h.chronicle.table, bindings_asOf]

theorem SameTables.symm (h : SameTables L L') : SameTables L' L :=
  ⟨h.bindings.symm, h.expiry.symm, h.dns.symm, h.indexes.symm⟩

theorem SameTables.trans {L'' : Ledger} (h : SameTables L L') (h' : SameTables L' L'') : SameTables L L'' :=
  ⟨h.bindings.trans h'.bindings, h.expiry.trans h'.expiry, h.dns.trans h'.dns,
    h.indexes.trans h'.indexes⟩

/-! ### Rounds that fail -/

/-- The round fails before anything of it is applied, or because it cannot be. -/
def SyncError.early : SyncError → Bool
  | .leaderEvents | .leaderSnapshot | .leaderState | .apply _ => true
  | .parse | .save => false

/-- What happens within one round: the leader goes on and so does the round. -/
def Within : Mirror.Action → Prop
  | .lead _ _ => True
  | .configure _ _ => True
  | .sync call => call ≠ .start
  | .deliver _ _ _ _ => False

/-- Nothing has been written yet, or it is too late for that to matter. -/
def Unwritten (own₀ own : Standby) : Round → Prop
  | .ended (.ok ()) => True
  | .ended (.error e) => SyncError.early e = true → own = own₀
  | .applied _ => True
  | _ => own = own₀

theorem unwritten_next (parse : String → Option Config) {own0 own : Standby} {call : Call}
    (hcall : call ≠ .start) (h : Unwritten own0 own round) :
    Unwritten own0 (round.next parse L own call).1 (round.next parse L own call).2 := by
  cases round with
  | ended =>
    cases call with
    | start => exact absurd rfl hcall
    | _ => exact h
  | paging after =>
    cases call with
    | page =>
      simp only [Round.next]
      cases L.eventsAfter after 1000 with
      | ok =>
        simp only [Round.turn]
        split <;> exact h
      | error => exact fun _ => h
    | fail => exact fun _ => h
    | _ => exact h
  | paged =>
    cases call with
    | snapshot clock =>
      simp only [Round.next]
      cases L.snapshot clock "" "" 0 with
      | ok => exact h
      | error => exact fun _ => h
    | fail => exact fun _ => h
    | _ => exact h
  | snapped =>
    cases call with
    | fail => exact fun _ => h
    | _ => exact h
  | stated events snap =>
    cases call with
    | apply now =>
      simp only [Round.next]
      cases own.replica.applyReplicated now events (some snap) with
      | ok => exact trivial
      | error => exact fun _ => h
    | _ => exact h
  | applied =>
    cases call with
    | save =>
      simp only [Round.next]
      split
      · exact trivial
      · split
        · exact fun hearly => by cases hearly
        · split
          · exact trivial
          · exact fun hearly => by cases hearly
    | _ => exact h

theorem unwritten_run (parse : String → Option Config) {own0 : Standby} {actions : List Mirror.Action}
    (hactions : ∀ a ∈ actions, Within a) (h : Unwritten own0 m.own m.round) :
    Unwritten own0 (m.run parse actions).own (m.run parse actions).round := by
  induction actions generalizing m with
  | nil => exact h
  | cons a rest ih =>
    refine ih (m := m.step parse a) (fun x hx => hactions x (mem_cons_of_mem _ hx)) ?_
    have ha := hactions a mem_cons_self
    cases a with
    | lead => exact h
    | configure => exact h
    | sync => exact unwritten_next parse ha h
    | deliver => exact ha.elim

/-! ### The result -/

/-- Replication converges. A standby that began empty follows a leader through rounds of
`SyncOnce` in any interleaving with the leader's operations, with requests that fail and pieces
of the log that are delivered once more. At all times its binding table and all its indexes are
those that the leader's log up to the cursor writes, and so those of the leader at any moment at
which that was its whole log. The cursor never goes back. A round that fails before its
transaction, or in it, has changed nothing. -/
theorem mirror_converges (parse : String → Option Config) {actions : List Mirror.Action}
    (hactions : ∀ a ∈ actions, Admissible a)
    (hends : ∀ e ∈ (Mirror.run parse {} actions).leader.events, Int64 e.binding.endsAt) :
    let m := Mirror.run parse {} actions
    SameTables m.own.replica.ledger (asOf (m.leader.events.take m.own.replica.cursor)) ∧
      (∀ xs, xs <+: actions → (Mirror.run parse {} xs).leader.sequence = m.own.replica.cursor →
        SameTables m.own.replica.ledger (Mirror.run parse {} xs).leader) ∧
      (∀ xs, xs <+: actions → (Mirror.run parse {} xs).own.replica.cursor ≤ m.own.replica.cursor) ∧
      ∀ xs ys result e, actions = xs ++ .sync .start :: ys → (∀ a ∈ ys, Within a) →
        (Mirror.run parse {} xs).round = .ended result → m.round = .ended (.error e) →
        SyncError.early e = true → m.own = (Mirror.run parse {} xs).own := by
  intro m
  obtain ⟨hm, -⟩ := follows_start.run parse hactions
  -- What a part of the run says about the whole.
  have hpart : ∀ xs, xs <+: actions → Follows (Mirror.run parse {} xs) ∧ Onward (Mirror.run parse {} xs) m := by
    intro xs hxs
    obtain ⟨ys, rfl⟩ := hxs
    have hxs := (follows_start.run parse fun a ha => hactions a (mem_append_left _ ha)).1
    have hys := (hxs.run parse fun a ha => hactions a (mem_append_right _ ha)).2
    rw [← run_append] at hys
    exact ⟨hxs, hys⟩
  refine ⟨hm.tables hends, ?_, ?_, ?_⟩
  · intro xs hxs hsequence
    obtain ⟨hfollows, hlog, -⟩ := hpart xs hxs
    have hthen := hfollows.leader.tables fun e he => hends e (hlog.subset he)
    -- The leader's log of that moment is the log up to the cursor.
    have hsame : m.leader.events.take m.own.replica.cursor = (Mirror.run parse {} xs).leader.events := by
      obtain ⟨more, hmore⟩ := hlog
      rw [← hmore, ← hsequence, hfollows.leader.chronicle.sequence, take_left]
    have hnow := hm.tables hends
    rw [hsame] at hnow
    exact hnow.trans hthen.symm
  · intro xs hxs
    exact (hpart xs hxs).2.cursor
  · intro xs ys result e hsplit hwithin hbefore hafter hearly
    have hstart : (Mirror.run parse {} xs).step parse (.sync .start) =
        { Mirror.run parse {} xs with
            round := .paging (Mirror.run parse {} xs).own.replica.cursor [] } := by
      simp only [Mirror.step, hbefore, Round.next]
    have hrun : m = ((Mirror.run parse {} xs).step parse (.sync .start)).run parse ys := by
      show Mirror.run parse {} actions = _
      rw [hsplit, run_append]
      rfl
    have hunwritten : Unwritten (Mirror.run parse {} xs).own m.own m.round := by
      rw [hrun]
      refine unwritten_run parse hwithin ?_
      rw [hstart]
      exact rfl
    rw [hafter] at hunwritten
    exact hunwritten hearly

/-- The leader grants an address, and a round fetches it and saves the configuration if it can. -/
def grantMirrored (stored : Bool) : List Mirror.Action :=
  [.lead 10 (requestFive 10 60 "01").op, .sync .start, .sync .page, .sync (.snapshot 20),
    .sync (.state "config"), .sync (.apply 20), .sync (.save stored)]

theorem mirror_converges_smallLan :
    SameTables (Mirror.run (fun _ => some {}) {} (grantMirrored true)).own.replica.ledger
      (asOf ((Mirror.run (fun _ => some {}) {} (grantMirrored true)).leader.events.take 1)) := by
  have hvalid : (smallLan 60).validate = .ok () := by decide +kernel
  have hcursor : (Mirror.run (fun _ => some {}) {} (grantMirrored true)).own.replica.cursor = 1 := by
    decide +kernel
  have hends : (Mirror.run (fun _ => some {}) {} (grantMirrored true)).leader.events.map
      (fun e => e.binding.endsAt) = [70] := by decide +kernel
  have hactions : ∀ a ∈ grantMirrored true, Admissible a := by
    intro a ha
    simp only [grantMirrored, mem_cons, not_mem_nil, or_false] at ha
    rcases ha with rfl | rfl | rfl | rfl | rfl | rfl | rfl
    · exact ⟨hvalid, show '\x00' ∉ "10.0.0.5".toList by decide⟩
    all_goals trivial
  have h := (mirror_converges (fun _ => some {}) hactions fun e he => by
    have hmem := mem_map_of_mem (f := fun e : Event => e.binding.endsAt) he
    rw [hends, mem_singleton] at hmem
    rw [hmem]
    exact ⟨by decide, by decide⟩).1
  rw [hcursor] at h
  exact h

/-- The error that a round has ended with. -/
def failure : Round → Option SyncError
  | .ended (.error e) => some e
  | _ => none

/-- A round whose configuration cannot be saved fails, and has applied what it fetched. -/
theorem late_failure_applied :
    failure (Mirror.run (fun _ => some {}) {} (grantMirrored false)).round = some .save ∧
      (Mirror.run (fun _ => some {}) {} ((grantMirrored false).take 1)).own.replica.cursor = 0 ∧
      (Mirror.run (fun _ => some {}) {} (grantMirrored false)).own.replica.cursor = 1 ∧
      ((Mirror.run (fun _ => some {}) {} (grantMirrored false)).own.replica.ledger.bindings.get
        "lan/10.0.0.5").map (·.client) = some "mac:02:00:00:00:00:01" := by
  decide +kernel

end Ghostd.Proofs.Replica
