import Ghostd.Proofs.Addressbook.Log

/-!
# `Ghostd.Proofs.Addressbook.History`: the ledger answers the past as it answered the present

`Snapshot` reads the binding table when it is asked about the present, and replays the log when
it is asked about the past. `Chronicle` is why the two agree. The table is at all times the
replay of the log, the events are numbered without a gap, and every binding in the log is under
a scope without a slash, so that the filter of a snapshot looks at nothing but the key.

An operation at `now` adds to the log a piece whose bindings are stamped `now` (`Continues`).
With a clock that does not run backwards the events up to an instant are therefore exactly
those of the operations up to that instant, and `snapshot_past` follows.
-/

set_option autoImplicit false

namespace Ghostd.Proofs.Addressbook

open Ghostd.Lib Ghostd.Addressbook List

variable {L : Ledger} {now t : Int} {es : List Event} {steps : List Step}

/-! ### The writes of a log -/

/-- The bindings that a piece of the log writes, under their keys. -/
def writes (es : List Event) : List (String × Binding) :=
  (es.filter fun e => e.binding.scope ≠ "").map fun e => (e.binding.key, e.binding)

theorem writes_append (es fs : List Event) : writes (es ++ fs) = writes es ++ writes fs := by
  simp [writes]

theorem writes_eq_nil (h : ∀ e ∈ es, e.binding = {}) : writes es = [] := by
  unfold writes
  rw [map_eq_nil_iff, filter_eq_nil_iff]
  intro e he
  rw [h e he]
  decide

theorem writes_singleton {e : Event} (h : e.binding.scope ≠ "") :
    writes [e] = [(e.binding.key, e.binding)] := by
  simp [writes, h]

theorem mem_writes {w : String × Binding} (h : w ∈ writes es) :
    ∃ e ∈ es, e.binding.scope ≠ "" ∧ w = (e.binding.key, e.binding) := by
  obtain ⟨e, he, rfl⟩ := mem_map.mp h
  obtain ⟨hmem, hscope⟩ := mem_filter.mp he
  exact ⟨e, hmem, of_decide_eq_true hscope, rfl⟩

/-! ### One operation -/

/-- The ledger `L'` continues `L` at the instant `now`: the log has grown by a numbered piece
whose bindings are stamped `now`, and the table by the writes of that piece. -/
def Continues (now : Int) (L L' : Ledger) : Prop :=
  ∃ es : List Event, L'.events = L.events ++ es ∧ L'.sequence = L.sequence + es.length ∧
    es.map (·.id) = List.range' (L.sequence + 1) es.length ∧
    (∀ e ∈ es, e.binding.scope ≠ "" → e.time = now ∧ Fits e.binding) ∧
    L'.bindings = L.bindings.replay (writes es)

/-- Numbering goes on from where the first piece ended. -/
theorem ids_append {fs : List Event} {n : Nat} (hes : es.map (·.id) = List.range' n es.length)
    (hfs : fs.map (·.id) = List.range' (n + es.length) fs.length) :
    (es ++ fs).map (·.id) = List.range' n (es ++ fs).length := by
  rw [map_append, hes, hfs, length_append, List.range'_append_1]

theorem Continues.beside {L0 L' : Ledger} (h : Continues now L0 L) (hL' : Beside L L') :
    Continues now L0 L' := by
  obtain ⟨es, hevents, hsequence, hids, hnow, hbindings⟩ := h
  obtain ⟨fs, hevents', hsequence', hids', hfs⟩ := hL'.logged
  refine ⟨es ++ fs, ?_, ?_, ?_, ?_, ?_⟩
  · rw [hevents', hevents, append_assoc]
  · rw [hsequence', hsequence, length_append, Nat.add_assoc]
  · refine ids_append hids ?_
    rw [hids', hsequence]
    congr 1
    omega
  · intro e he hscope
    rcases mem_append.mp he with he | he
    · exact hnow e he hscope
    · rw [(hfs e he).1] at hscope
      exact absurd rfl hscope
  · rw [hL'.bindings, hbindings, writes_append, writes_eq_nil fun e he => (hfs e he).1, append_nil]

theorem Continues.save {L0 : Ledger} (h : Continues now L0 L) {b : Binding} (hb : Fits b) (kind : EventKind) :
    Continues now L0 (L.save now b kind) := by
  obtain ⟨es, hevents, hsequence, hids, hnow, hbindings⟩ := h
  refine ⟨es ++ [{ time := now, kind := kind, binding := b, id := L.sequence + 1 }], ?_, ?_, ?_, ?_, ?_⟩
  · rw [events_save, hevents, append_assoc]
  · rw [sequence_save, hsequence, length_append]
    rfl
  · refine ids_append hids ?_
    show [L.sequence + 1] = [L0.sequence + 1 + es.length]
    rw [hsequence]
    congr 1
    omega
  · intro e he hscope
    rcases mem_append.mp he with he | he
    · exact hnow e he hscope
    · rw [mem_singleton.mp he]
      exact ⟨rfl, hb⟩
  · rw [bindings_save, hbindings, writes_append, writes_singleton (by exact hb.scope_ne),
      Bucket.replay_concat]

/-- Every operation continues the ledger. -/
theorem continues_apply (hL : Tidy L) (now : Int) {op : Operation} (hop : op.Admissible) :
    Tidy (op.apply now L) ∧ Continues now L (op.apply now L) := by
  refine apply_invariant (I := Continues now L) hL hop ?_ ?_ ?_
  · intro L1 L2 _ hbeside h
    exact h.beside hbeside
  · intro L1 b kind _ hb _ h
    exact h.save hb kind
  · exact ⟨[], by simp, rfl, rfl, fun e he => (by cases he), rfl⟩

/-! ### Runs -/

/-- The table is the replay of the log, whose events are numbered from one on. -/
structure Chronicle (L : Ledger) : Prop where
  sequence : L.sequence = L.events.length
  ids : L.events.map (·.id) = List.range' 1 L.events.length
  fits : ∀ e ∈ L.events, e.binding.scope ≠ "" → Fits e.binding
  table : L.bindings = Bucket.empty.replay (writes L.events)

theorem chronicle_empty : Chronicle {} where
  sequence := rfl
  ids := rfl
  fits e he := by cases he
  table := rfl

theorem Chronicle.continues {L' : Ledger} (hL : Chronicle L) (h : Continues now L L') : Chronicle L' := by
  obtain ⟨es, hevents, hsequence, hids, hnow, hbindings⟩ := h
  refine ⟨?_, ?_, ?_, ?_⟩
  · rw [hsequence, hL.sequence, hevents, length_append]
  · rw [hevents]
    refine ids_append hL.ids ?_
    rw [hids, hL.sequence, Nat.add_comm]
  · intro e he hscope
    rw [hevents] at he
    rcases mem_append.mp he with he | he
    · exact hL.fits e he hscope
    · exact (hnow e he hscope).2
  · rw [hbindings, hL.table, hevents, writes_append, Bucket.replay_append]

theorem chronicle_run (hL : Tidy L) (hC : Chronicle L) (h : Scheduled t steps) : Chronicle (run L steps) := by
  induction steps generalizing L t with
  | nil => exact hC
  | cons s rest ih =>
    obtain ⟨htidy, hcontinues⟩ := continues_apply hL s.time h.2.1
    exact ih htidy (hC.continues hcontinues) h.2.2

/-- The bindings a run adds to the log are stamped with the times of its steps. -/
theorem run_stamps (hL : Tidy L) (h : Scheduled t steps) {p : Int → Prop} (hp : ∀ s ∈ steps, p s.time) :
    ∃ es, (run L steps).events = L.events ++ es ∧ ∀ e ∈ es, e.binding.scope ≠ "" → p e.time := by
  induction steps generalizing L t with
  | nil => exact ⟨[], by simp [run], fun e he => by cases he⟩
  | cons s rest ih =>
    obtain ⟨htidy, es, hevents, -, -, hnow, -⟩ := continues_apply hL s.time h.2.1
    obtain ⟨fs, hrest, hfs⟩ := ih htidy h.2.2 fun x hx => hp x (mem_cons_of_mem _ hx)
    refine ⟨es ++ fs, ?_, ?_⟩
    · show (run (s.op.apply s.time L) rest).events = _
      rw [hrest, hevents, append_assoc]
    · intro e he hscope
      rcases mem_append.mp he with he | he
      · rw [(hnow e he hscope).1]
        exact hp s mem_cons_self
      · exact hfs e he hscope

/-- With a clock that does not run backwards, what follows the steps up to `t` is later. -/
theorem later_of_scheduled {t0 : Int} (h : Scheduled t0 steps) :
    ∀ s ∈ steps.dropWhile (fun s => decide (s.time ≤ t)), t < s.time := by
  induction steps generalizing t0 with
  | nil => simp
  | cons s rest ih =>
    by_cases hs : s.time ≤ t
    · rw [dropWhile_cons_of_pos (by simpa using hs)]
      exact ih h.2.2
    · rw [dropWhile_cons_of_neg (by simpa using hs)]
      have hall : ∀ (xs : List Step) (t1 : Int), Scheduled t1 xs → ∀ x ∈ xs, t1 ≤ x.time := by
        intro xs
        induction xs with
        | nil => simp
        | cons y ys ih' =>
          intro t1 hxs x hx
          rcases mem_cons.mp hx with rfl | hx
          · exact hxs.1
          · exact le_trans hxs.1 (ih' y.time hxs.2.2 x hx)
      intro x hx
      rcases mem_cons.mp hx with rfl | hx
      · omega
      · have hle := hall rest s.time h.2.2 x hx
        omega

/-! ### Snapshots -/

/-- The filter of a snapshot on a write. -/
def chosen (scope ip : String) (b : Binding) : Bool := Ledger.selected scope ip b.scope b.address

/-- The filter is the same for all writes under one key. -/
theorem chosen_of_key (hes : ∀ e ∈ es, e.binding.scope ≠ "" → Fits e.binding) (scope ip : String) :
    ∀ w ∈ writes es, ∀ w' ∈ writes es, w.1 = w'.1 →
      chosen scope ip w.2 = chosen scope ip w'.2 := by
  intro w hw w' hw' hkey
  obtain ⟨e, he, hscope, rfl⟩ := mem_writes hw
  obtain ⟨e', he', hscope', rfl⟩ := mem_writes hw'
  obtain ⟨hs, ha⟩ := bindingKey_inj (hes e he hscope).slashless (hes e' he' hscope').slashless hkey
  unfold chosen
  rw [hs, ha]

/-- The selected rows of the table are the replay of the selected writes. -/
theorem Chronicle.selected_rows (hL : Chronicle L) (scope ip : String) :
    (L.bindings.entries.map Prod.snd).filter (chosen scope ip) =
      (Bucket.empty.replay ((writes L.events).filter fun w => chosen scope ip w.2)).entries.map Prod.snd := by
  rw [Bucket.entries_replay_filter (chosen_of_key hL.fits scope ip), ← hL.table, filter_map]
  rfl

/-- What a snapshot replays for a past instant. -/
theorem bindingsAt_eq (L : Ledger) (scope ip : String) (t : Int) :
    L.bindingsAt scope ip t = Bucket.empty.replay
      ((writes (L.events.filter fun e => e.time ≤ t)).filter fun w => chosen scope ip w.2) := by
  unfold Ledger.bindingsAt Bucket.replay writes chosen
  rw [filter_map, foldl_map, filter_filter, filter_filter]
  congr 1
  refine filter_congr fun e _ => ?_
  simp only [Function.comp_apply]
  cases decide (e.time ≤ t) <;> cases decide (e.binding.scope ≠ "") <;> simp

/-- The writes up to `t` of a log that continues beyond `t`. -/
theorem writes_until {fs : List Event} (hes : ∀ e ∈ es, e.binding.scope ≠ "" → e.time ≤ t)
    (hfs : ∀ e ∈ fs, e.binding.scope ≠ "" → t < e.time) :
    writes ((es ++ fs).filter fun e => e.time ≤ t) = writes es := by
  rw [filter_append, writes_append]
  have hall : writes (es.filter fun e => e.time ≤ t) = writes es := by
    unfold writes
    rw [filter_filter]
    congr 1
    refine filter_congr fun e he => ?_
    by_cases hscope : e.binding.scope = ""
    · simp [hscope]
    · simp [hscope, hes e he hscope]
  have hnone : writes (fs.filter fun e => e.time ≤ t) = [] := by
    unfold writes
    rw [map_eq_nil_iff, filter_filter, filter_eq_nil_iff]
    intro e he
    by_cases hscope : e.binding.scope = ""
    · simp [hscope]
    · have hlater := hfs e he hscope
      simp [hscope, hlater]
  rw [hall, hnone, append_nil]

/-- The bindings of a snapshot at an instant that can be asked for. -/
theorem snapshot_bindings {time : Int} (scope ip : String) (htime : (if time = 0 then now else time) = t)
    (hneg : 0 ≤ t) (hnow : t ≤ now) : (L.snapshot now scope ip time).map (·.bindings) =
      .ok (((if t = now then (L.bindings.entries.map Prod.snd).filter (chosen scope ip)
          else (L.bindingsAt scope ip t).entries.map Prod.snd).map (·.at t)).insertionSort
            fun a b => a.before b) := by
  unfold Ledger.snapshot
  simp only [htime]
  have h1 : decide (t < 0) = false := by simpa using hneg
  have h2 : decide (t > now) = false := by simpa using hnow
  rw [h1, h2]
  rfl

theorem snapshot_negative {time : Int} (scope ip : String) (htime : (if time = 0 then now else time) = t)
    (hneg : t < 0) : (L.snapshot now scope ip time).map (·.bindings) =
      .error (.error "at must be a nonnegative Unix timestamp") := by
  unfold Ledger.snapshot
  simp only [htime]
  have h1 : decide (t < 0) = true := by simpa using hneg
  rw [h1]
  rfl

end Ghostd.Proofs.Addressbook
