import Ghostd.Proofs.Replica.Mirror

/-!
# `Ghostd.Proofs.Replica.Snapshots`: what the mirror says about the past

A snapshot reads four things: the binding table and the stored sightings for the present, and
for the past the log, of which only the times, the bindings and the sightings matter (`trace`).
`snapshot_congr` says so.

The standby has the leader's table at all times. Its log has the leader's sightings with the
leader's times, but a binding is written through `save`, which stamps it with the standby's own
clock. So the past of a binding is the leader's only when it is replicated in the second in
which it was written (`Prompt`). The stored sightings are those of the log (`Copies`), while the
leader also extends a stored sighting without logging it. `mirror_agrees` is what holds under
these two conditions, and `mirror_differs` what happens otherwise.
-/

set_option autoImplicit false

namespace Ghostd.Proofs.Replica

open Ghostd.Lib Ghostd.Addressbook Ghostd.Replica Ghostd.Proofs.Addressbook List

/-! ### What a snapshot reads -/

/-- The binding that an entry of the log up to `t` writes. -/
def writeOf (t : Int) (x : Int × Binding × Option Observation) : Option (String × Binding) :=
  if x.1 ≤ t ∧ x.2.1.scope ≠ "" then some (x.2.1.key, x.2.1) else none

/-- The sighting of an entry of the log up to `t`. -/
def sightOf (t : Int) (x : Int × Binding × Option Observation) : Option Observation :=
  if x.1 ≤ t then x.2.2 else none

theorem writes_eq_traces (es : List Event) (t : Int) :
    writes (es.filter fun e => e.time ≤ t) = (es.map trace).filterMap (writeOf t) := by
  induction es with
  | nil => rfl
  | cons e es ih =>
    rw [map_cons, filterMap_cons]
    by_cases htime : e.time ≤ t
    · rw [filter_cons_of_pos (by simpa using htime), ← singleton_append, writes_append, ih]
      by_cases hscope : e.binding.scope = ""
      · simp [writes, writeOf, trace, htime, hscope]
      · simp [writes, writeOf, trace, htime, hscope]
    · rw [filter_cons_of_neg (by simpa using htime), ih]
      simp [writeOf, trace, htime]

theorem sightings_eq_traces (es : List Event) (t : Int) :
    (es.filter fun e => e.time ≤ t).filterMap (·.observation) = (es.map trace).filterMap (sightOf t) := by
  induction es with
  | nil => rfl
  | cons e es ih =>
    by_cases htime : e.time ≤ t
    · rw [filter_cons_of_pos (by simpa using htime), filterMap_cons, ih, map_cons,
        filterMap_cons]
      simp [sightOf, trace, htime]
    · rw [filter_cons_of_neg (by simpa using htime), ih, map_cons, filterMap_cons]
      simp [sightOf, trace, htime]

/-- Ledgers with the same tables and the same writes and sightings in their logs answer alike. -/
theorem snapshot_congr {L L' : Ledger} (hbindings : L.bindings = L'.bindings)
    (hobservations : L.observations = L'.observations)
    (hwrites : ∀ t, (L.events.map trace).filterMap (writeOf t) = (L'.events.map trace).filterMap (writeOf t))
    (hsights : ∀ t, (L.events.map trace).filterMap (sightOf t) = (L'.events.map trace).filterMap (sightOf t))
    (now : Int) (scope ip : String) (t : Int) :
    (L.snapshot now scope ip t).map (fun s => (s.bindings, s.observations)) =
      (L'.snapshot now scope ip t).map (fun s => (s.bindings, s.observations)) := by
  have hpast : ∀ u, L.bindingsAt scope ip u = L'.bindingsAt scope ip u := by
    intro u
    rw [bindingsAt_eq, bindingsAt_eq, writes_eq_traces, writes_eq_traces, hwrites]
  have hseen : ∀ u, L.sightingsAt scope ip u = L'.sightingsAt scope ip u := by
    intro u
    unfold Ledger.sightingsAt
    rw [sightings_eq_traces, sightings_eq_traces, hsights]
  unfold Ledger.snapshot
  simp only [hbindings, hobservations, hpast, hseen]
  generalize (if t = 0 then now else t) = u
  by_cases hneg : u < 0
  · simp [refuseIf, hneg]
    rfl
  · by_cases hfuture : u > now
    · simp [refuseIf, hneg, hfuture]
      rfl
    · simp [refuseIf, hneg, hfuture]
      rfl

/-! ### What the standby copies -/

/-- The sightings that a log stores. -/
def stored (e : Event) : List (String × Observation) :=
  match e.observation with
  | some o => if e.kind = .observation then [(bindingKey o.scope o.address, o)] else []
  | none => []

/-- The stored sightings as the log has them. -/
def sightings (es : List Event) : Bucket String Observation := Bucket.empty.replay (es.flatMap stored)

theorem observations_applyEvent (now : Int) (L : Ledger) (e : Event) :
    (L.applyEvent now e).observations = L.observations.replay (stored e) := by
  unfold Ledger.applyEvent stored
  cases e.observation with
  | some =>
    simp only [Ledger.appendEvent]
    split <;> rfl
  | none =>
    simp only
    split
    · rw [observations_save]
      rfl
    · rfl

/-- The standby's log is the leader's up to the cursor, with the leader's times, and its stored
sightings are those that this log stores. -/
structure Copies (log : List Event) (R : Replica) : Prop where
  cursor : R.cursor ≤ log.length
  traces : R.ledger.events.map trace = (log.take R.cursor).flatMap fun e => copied e.time e
  observations : R.ledger.observations = sightings (log.take R.cursor)

theorem copies_empty : Copies [] {} where
  cursor := le_refl 0
  traces := rfl
  observations := rfl

theorem Copies.mono {log log' : List Event} {R : Replica} (h : Copies log R) (hlog : log <+: log') :
    Copies log' R := by
  obtain ⟨more, rfl⟩ := hlog
  have htake : (log ++ more).take R.cursor = log.take R.cursor := take_append_of_le_length h.cursor
  refine ⟨?_, ?_, ?_⟩
  · rw [length_append]
    exact le_trans h.cursor (Nat.le_add_right _ _)
  · rw [htake]
    exact h.traces
  · rw [htake]
    exact h.observations

/-- One event more, in the second in which it was written if it has a binding. -/
theorem Copies.next {log : List Event} {now : Int} {R : Replica} {e : Event}
    (he : log[R.cursor]? = some e) (htime : e.binding.scope ≠ "" → e.time = now) (h : Copies log R) :
    Copies log { ledger := R.ledger.applyEvent now e, cursor := R.cursor + 1 } where
  cursor := (List.getElem?_eq_some_iff.mp he).1
  traces := by
    show (R.ledger.applyEvent now e).events.map trace = _
    have hcopied : copied now e = copied e.time e := by
      unfold copied
      cases e.observation with
      | some => rfl
      | none =>
        by_cases hscope : e.binding.scope = ""
        · simp [hscope]
        · rw [htime hscope]
    rw [traces_applyEvent, h.traces, take_succ_of_get he, flatMap_append, hcopied,
      flatMap_singleton]
  observations := by
    show (R.ledger.applyEvent now e).observations = _
    rw [observations_applyEvent, h.observations, take_succ_of_get he]
    unfold sightings
    rw [flatMap_append, flatMap_singleton, Bucket.replay_append]

/-- The events are new to the standby and have the time `now` if they have a binding. -/
def Punctual (now : Int) (cursor : Nat) (es : List Event) : Prop :=
  ∀ e ∈ es, cursor < e.id → e.binding.scope ≠ "" → e.time = now

theorem Copies.replicate {L : Ledger} (hL : Source L) {now : Int} {R R' : Replica} {es : List Event}
    {stop : Nat} {snap : Option Snapshot} (h : Copies L.events R) (hes : Piece L.events R.cursor es stop)
    (hsnap : ∀ s, snap = some s → Named s) (hpunctual : Punctual now R.cursor es)
    (hR : R.applyReplicated now es snap = .ok R') : Copies L.events R' := by
  obtain ⟨hcursor, -, hevents, hobservations⟩ := applyReplicated_cases hR hsnap
  -- The events that are applied come at or after the cursor, so they are among the new ones.
  obtain ⟨⟨hloop, -⟩, -, -⟩ := applyAll_next hL.chronicle.ids now
    (I := fun R1 => Copies L.events R1 ∧ R.cursor ≤ R1.cursor) hes (fun R1 e hmem he hI => by
      have hid : e.id = R1.cursor + 1 := by
        obtain ⟨hlt, hget⟩ := List.getElem?_eq_some_iff.mp he
        have hdrop : L.events.drop R1.cursor = e :: L.events.drop (R1.cursor + 1) := by
          rw [← hget, getElem_cons_drop]
        exact id_of_drop hL.chronicle.ids hdrop
      refine ⟨hI.1.next he fun hscope => hpunctual e hmem ?_ hscope, ?_⟩
      · have hle := hI.2
        omega
      · exact Nat.le_succ_of_le hI.2) ⟨h, le_refl _⟩
  refine ⟨?_, ?_, ?_⟩
  · rw [hcursor]
    exact hloop.cursor
  · rw [hevents, hcursor]
    exact hloop.traces
  · rw [hobservations, hcursor]
    exact hloop.observations

/-! ### Runs -/

/-- What a round is about to apply. -/
def pending : Round → List Event
  | .stated events _ _ => events
  | _ => []

/-- The action replicates bindings in the second in which they were written. -/
def Prompt (m : Mirror) : Mirror.Action → Prop
  | .sync (.apply now) => Punctual now m.own.replica.cursor (pending m.round)
  | .deliver now start count _ => Punctual now m.own.replica.cursor
      ((m.leader.events.filter fun e => e.id > start).take count)
  | _ => True

theorem copies_next (parse : String → Option Config) {L : Ledger} (hL : Source L) {own : Standby}
    {round : Round} {call : Call} (hround : Fetching L.events own.replica.cursor round)
    (hprompt : ∀ now, call = .apply now → Punctual now own.replica.cursor (pending round))
    (h : Copies L.events own.replica) :
    Copies L.events (round.next parse L own call).1.replica := by
  unfold Round.next
  split
  · exact h
  · split <;> exact h
  · split <;> exact h
  · exact h
  · rename_i events snap config now
    split
    · rename_i R hR
      obtain ⟨⟨stop, hpiece⟩, hnamed⟩ := hround
      exact h.replicate hL hpiece (fun s hs => by
        rw [← Option.some.inj hs]
        exact hnamed) (hprompt now rfl) hR
    · exact h
  · split
    · exact h
    · split
      · exact h
      · split <;> exact h
  all_goals exact h

theorem Copies.step (parse : String → Option Config) {m : Mirror} (hm : Follows m) {a : Mirror.Action}
    (ha : Admissible a) (hprompt : Prompt m a) (h : Copies m.leader.events m.own.replica) :
    Copies (m.step parse a).leader.events (m.step parse a).own.replica := by
  cases a with
  | lead now => exact h.mono (hm.leader.apply now ha.1 ha.2).2
  | configure now c => exact h.mono (hm.leader.noteDNSConfig now c).2
  | sync =>
    refine copies_next parse hm.leader hm.round ?_ h
    intro now hcall
    subst hcall
    exact hprompt
  | deliver now start count snap =>
    simp only [Mirror.step]
    by_cases hstart : start ≤ m.own.replica.cursor
    · rw [if_pos hstart]
      cases hR : m.own.replica.applyReplicated now
          ((m.leader.events.filter fun e => e.id > start).take count) snap with
      | error e => exact h
      | ok R =>
        have hnil : Piece m.leader.events m.own.replica.cursor [] start :=
          ⟨start, m.leader.events.drop start, hstart, rfl, rfl⟩
        exact h.replicate hm.leader (hnil.page hm.leader.chronicle.ids count) (fun s hs => by
          obtain ⟨source, clock, hsource, hsnap⟩ := ha s hs
          exact named_of_snapshot (orderly_of_reachable hsource) hsnap) hprompt hR
    · rw [if_neg hstart]
      exact h

/-- Every action of a run meets a condition, in the state before it. -/
def Throughout (parse : String → Option Config) (condition : Mirror → Mirror.Action → Prop) :
    Mirror → List Mirror.Action → Prop
  | _, [] => True
  | m, a :: rest => condition m a ∧ Throughout parse condition (m.step parse a) rest

theorem Copies.run (parse : String → Option Config) {m : Mirror} (hm : Follows m)
    {actions : List Mirror.Action} (hactions : ∀ a ∈ actions, Admissible a)
    (hprompt : Throughout parse Prompt m actions) (h : Copies m.leader.events m.own.replica) :
    Copies (m.run parse actions).leader.events (m.run parse actions).own.replica := by
  induction actions generalizing m with
  | nil => exact h
  | cons a rest ih =>
    have ha := hactions a mem_cons_self
    exact ih (hm.step parse ha).1 (fun x hx => hactions x (mem_cons_of_mem _ hx)) hprompt.2
      (h.step parse hm ha hprompt.1)

/-- What a reader finds in a copied log is what it finds in the log. -/
theorem filterMap_copied {β : Type} {log : List Event}
    (f : Int × Binding × Option Observation → Option β)
    (hf : ∀ e ∈ log, (copied e.time e).filterMap f = [trace e].filterMap f) :
    (log.flatMap fun e => copied e.time e).filterMap f = (log.map trace).filterMap f := by
  induction log with
  | nil => rfl
  | cons e log ih =>
    rw [flatMap_cons, filterMap_append, hf e mem_cons_self,
      ih fun x hx => hf x (mem_cons_of_mem _ hx), map_cons, ← filterMap_append,
      singleton_append]

theorem writeOf_copied {e : Event} (hapart : e.observation ≠ none → e.binding = {}) (t : Int) :
    (copied e.time e).filterMap (writeOf t) = [trace e].filterMap (writeOf t) := by
  unfold copied
  cases ho : e.observation with
  | some =>
    have hempty : e.binding = {} := hapart (by rw [ho]; simp)
    simp [trace, writeOf, hempty]
  | none =>
    by_cases hscope : e.binding.scope = "" <;> simp [trace, writeOf, ho, hscope]

theorem sightOf_copied {e : Event} (t : Int) :
    (copied e.time e).filterMap (sightOf t) = [trace e].filterMap (sightOf t) := by
  unfold copied
  cases ho : e.observation with
  | some => simp [trace, sightOf, ho, filterMap_cons]
  | none => by_cases hscope : e.binding.scope = "" <;> simp [trace, sightOf, ho, hscope]

/-- The mirror has the leader's history and sightings when every binding is replicated in the
second in which the leader writes it, and the leader's stored sightings are those it has logged.
Take any run of a leader and a standby that began empty, after which the standby has applied all
of the leader's events. Then a snapshot of the standby has the same bindings and observations as
one of the leader, at every instant and under every filter. -/
theorem mirror_agrees (parse : String → Option Config) {actions : List Mirror.Action}
    (hactions : ∀ a ∈ actions, Admissible a)
    (hprompt : Throughout parse Prompt {} actions)
    (hsynced : (Mirror.run parse {} actions).own.replica.cursor =
      (Mirror.run parse {} actions).leader.sequence)
    (hlogged : (Mirror.run parse {} actions).leader.observations =
      sightings (Mirror.run parse {} actions).leader.events)
    (now : Int) (scope ip : String) (t : Int) :
    ((Mirror.run parse {} actions).own.replica.ledger.snapshot now scope ip t).map
        (fun s => (s.bindings, s.observations)) =
      ((Mirror.run parse {} actions).leader.snapshot now scope ip t).map
        (fun s => (s.bindings, s.observations)) := by
  have hm := (follows_start.run parse hactions).1
  have hcopies := copies_empty.run parse (m := {}) follows_start hactions hprompt
  generalize Mirror.run parse {} actions = m at *
  have hall : m.leader.events.take m.own.replica.cursor = m.leader.events := by
    rw [hsynced, hm.leader.chronicle.sequence, take_length]
  have htraces := hcopies.traces
  rw [hall] at htraces
  refine snapshot_congr ?_ ?_ (fun u => ?_) (fun u => ?_) now scope ip t
  · rw [hm.own.table, hall, ← hm.leader.chronicle.table]
  · rw [hcopies.observations, hall, hlogged]
  · rw [htraces]
    exact filterMap_copied _ fun e he => writeOf_copied (hm.leader.apart e he) u
  · rw [htraces]
    exact filterMap_copied _ fun e _ => sightOf_copied u

/-- A round that fetches everything. -/
def wholeRound (now : Int) : List Mirror.Action :=
  [.sync .start, .sync .page, .sync (.snapshot now), .sync (.state ""), .sync (.apply now), .sync (.save true)]

/-- The leader grants an address at 10, and the standby syncs at the given time. -/
def grantAt (sync : Int) : List Mirror.Action := .lead 10 (requestFive 10 60 "01").op :: wholeRound sync

/-- The standby syncs in the second of the grant. -/
theorem mirror_agrees_prompt :
    ((Mirror.run (fun _ => none) {} (grantAt 10)).own.replica.ledger.snapshot 30 "lan" "10.0.0.5" 15).map
        (fun s => (s.bindings, s.observations)) =
      ((Mirror.run (fun _ => none) {} (grantAt 10)).leader.snapshot 30 "lan" "10.0.0.5" 15).map
        (fun s => (s.bindings, s.observations)) := by
  have hvalid : (smallLan 60).validate = .ok () := by decide +kernel
  refine mirror_agrees (fun _ => none) ?_ ?_ (by decide +kernel)
    (Bucket.ext_entries (by decide +kernel)) 30 "lan" "10.0.0.5" 15
  · intro a ha
    simp only [grantAt, wholeRound, mem_cons, not_mem_nil, or_false] at ha
    rcases ha with rfl | rfl | rfl | rfl | rfl | rfl | rfl
    · exact ⟨hvalid, show '\x00' ∉ "10.0.0.5".toList by decide⟩
    all_goals trivial
  · refine ⟨trivial, trivial, trivial, trivial, trivial, ?_, trivial, trivial⟩
    unfold Prompt Punctual
    decide +kernel

/-- A neighbour is seen at 10 and again at 50, and the standby syncs at 60. -/
def refreshedAt : List Mirror.Action :=
  let seen := Operation.observe (smallLan 60)
    [{ scope := "lan", address := "10.0.0.9", mac := "02:00:00:00:00:09" }]
  [.lead 10 seen, .lead 50 seen] ++ wholeRound 60

/-- Without the conditions the two differ. A grant at 10 that the standby fetches at 20 is, asked
at 30, no part of the standby's past at 15. A sighting that the leader refreshes has its new end
with the leader only. -/
theorem mirror_differs :
    (((Mirror.run (fun _ => none) {} (grantAt 20)).leader.snapshot 30 "lan" "10.0.0.5" 15).map
        (fun s => s.bindings.map (·.client)) = .ok ["mac:02:00:00:00:00:01"] ∧
      ((Mirror.run (fun _ => none) {} (grantAt 20)).own.replica.ledger.snapshot 30 "lan" "10.0.0.5" 15).map
        (fun s => s.bindings.map (·.client)) = .ok []) ∧
    ((Mirror.run (fun _ => none) {} refreshedAt).leader.snapshot 60 "lan" "" 60).map
        (fun s => s.observations.map (·.until_)) = .ok [170] ∧
      ((Mirror.run (fun _ => none) {} refreshedAt).own.replica.ledger.snapshot 60 "lan" "" 60).map
        (fun s => s.observations.map (·.until_)) = .ok [130] := by
  decide +kernel

end Ghostd.Proofs.Replica
