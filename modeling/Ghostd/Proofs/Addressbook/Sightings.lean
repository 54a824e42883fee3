import Ghostd.Proofs.Addressbook.Corroboration

/-!
# `Ghostd.Proofs.Addressbook.Sightings`: sightings of the past

The ledger has two records of sightings. The table has the last one of each key. The log has the
sighting that began the present one, and gets the end of it when the next one begins. A refresh of an
open sighting is written to the table only. `Window` has both: the first sighting and the last refresh.

`Tracks` says that table and log are the two halves of the windows that the recorded sightings make. It
is kept by every step of a run (`tracks_run`). A snapshot of the past reads the log up to the instant,
which is the log of the run up to it (`logged_until`). So the snapshot goes by the end that the first
sighting of the window announced, and what was known at the time is the end of the last
(`history_matches_iff`).
-/

set_option autoImplicit false

namespace Ghostd.Proofs.Addressbook

open Ghostd.Lib Ghostd.Addressbook List

variable {L L' : Ledger} {os : List Observation} {address k scope : String} {o : Observation} {now : Int}
    {steps : List Step}

/-! ### Windows -/

/-- A sighting of one hardware address that has not been interrupted: how it began, and its last
refresh. -/
structure Window where
  first : Observation
  last : Observation
  deriving DecidableEq, Repr

/-- A sighting refreshes the window of the same hardware address while that is open, and begins a new
one otherwise. -/
def sighted (w : Option Window) (o : Observation) : Window :=
  match w with
  | none => ⟨o, o⟩
  | some w => if w.last.mac ≠ o.mac ∨ w.last.until_ ≤ o.seen then ⟨o, o⟩ else ⟨w.first, o⟩

/-- The window that the sightings of a key leave. -/
def windowOf (os : List Observation) : Option Window := os.foldl (fun w o => some (sighted w o)) none

/-- The window at a key. -/
def windowAt (os : List Observation) (k : String) : Option Window := windowOf (os.filter (spot · = k))

theorem windowOf_concat (os : List Observation) (o : Observation) :
    windowOf (os ++ [o]) = some (sighted (windowOf os) o) := by
  simp [windowOf]

theorem windowAt_concat_self (os : List Observation) (o : Observation) :
    windowAt (os ++ [o]) (spot o) = some (sighted (windowAt os (spot o)) o) := by
  simp [windowAt, filter_append, windowOf_concat]

theorem windowAt_concat_ne (os : List Observation) (h : spot o ≠ k) :
    windowAt (os ++ [o]) k = windowAt os k := by
  simp [windowAt, filter_append, h]

/-- A window is made of sightings, of one hardware address. -/
theorem windowOf_mem {w : Window} (h : windowOf os = some w) :
    w.first ∈ os ∧ w.last ∈ os ∧ w.first.mac = w.last.mac := by
  induction os using List.reverseRecOn generalizing w with
  | nil => cases h
  | append_singleton os o ih =>
    rw [windowOf_concat, Option.some.injEq] at h
    subst h
    cases hw : windowOf os with
    | none => simp [sighted]
    | some =>
      obtain ⟨hfirst, -, hmac⟩ := ih hw
      unfold sighted
      simp only
      split
      · simp
      · rename_i hopen
        simp only [not_or, not_not] at hopen
        exact ⟨mem_append_left _ hfirst, by simp, by rw [hmac, hopen.1]⟩

theorem windowAt_mem {w : Window} (h : windowAt os k = some w) :
    w.first ∈ os ∧ spot w.first = k ∧ spot w.last = k ∧ w.first.mac = w.last.mac := by
  obtain ⟨hfirst, hlast, hmac⟩ := windowOf_mem h
  simp only [mem_filter, decide_eq_true_eq] at hfirst hlast
  exact ⟨hfirst.1, hfirst.2, hlast.2, hmac⟩

/-! ### Table and log -/

/-- The sightings in the log, with the times of their events. -/
def logged (L : Ledger) : List (Int × Observation) :=
  L.events.filterMap fun e => e.observation.map fun o => (e.time, o)

/-- The last sighting of a key in the log. -/
def lastLogged (L : Ledger) (k : String) : Option Observation :=
  (((logged L).map Prod.snd).filter (spot · = k)).getLast?

/-- Table and log are the two halves of the windows that the sightings make. -/
structure Tracks (L : Ledger) (os : List Observation) : Prop where
  table : ∀ k, L.observations.get k = (windowAt os k).map (·.last)
  log : ∀ k, lastLogged L k = (windowAt os k).map (·.first)

theorem logged_appendEvent (L : Ledger) (e : Event) :
    logged (L.appendEvent e) = logged L ++ (e.observation.map fun o => (e.time, o)).toList := by
  unfold logged Ledger.appendEvent
  cases ho : e.observation <;> simp

theorem lastLogged_concat_self {time : Int} {before : List (Int × Observation)}
    (h : logged L' = before ++ [(time, o)]) : lastLogged L' (spot o) = some o := by
  simp [lastLogged, h]

/-- Where what is logged is of other keys, the last sighting of a key stays. -/
theorem lastLogged_append {es : List (Int × Observation)} (h : logged L' = logged L ++ es)
    (hes : ∀ x ∈ es, spot x.2 ≠ k) : lastLogged L' k = lastLogged L k := by
  have hnil : ((es.map Prod.snd).filter (spot · = k)) = [] := by
    rw [filter_eq_nil_iff]
    intro o ho
    obtain ⟨x, hx, rfl⟩ := mem_map.mp ho
    simpa using hes x hx
  rw [lastLogged, h, map_append, filter_append, hnil, append_nil, lastLogged]

/-- What noting a sighting does to the log: nothing if it is a refresh; otherwise it may close the earlier
one of the key, and adds the new one. -/
theorem noteSighting_logged (now : Int) (L : Ledger) (o : Observation) :
    (noteSighting now L o).observations = L.observations.put (spot o) o ∧
      ((∃ prev, L.observations.get (spot o) = some prev ∧ prev.mac = o.mac ∧ now < prev.until_ ∧
          logged (noteSighting now L o) = logged L) ∨
        ((∀ prev, L.observations.get (spot o) = some prev → prev.mac ≠ o.mac ∨ prev.until_ ≤ now) ∧
          ∃ closed : List Observation,
            (∀ x ∈ closed, ∃ prev, L.observations.get (spot o) = some prev ∧ spot x = spot prev) ∧
            logged (noteSighting now L o) = logged L ++ (closed ++ [o]).map fun x => (now, x))) := by
  unfold noteSighting
  cases hprev : L.observations.get (spot o) with
  | none =>
    refine ⟨rfl, Or.inr ⟨fun prev h => (by cases h), [], by simp, ?_⟩⟩
    simp only [logged_appendEvent]
    rfl
  | some prev =>
    simp only
    by_cases hnew : prev.mac ≠ o.mac ∨ prev.until_ ≤ now
    · rw [if_pos hnew]
      split
      · refine ⟨rfl, Or.inr ⟨?_, [{ prev with until_ := min prev.until_ now }], ?_, ?_⟩⟩
        · intro prev' h
          rwa [← Option.some.inj h]
        · intro x hx
          rw [mem_singleton.mp hx]
          exact ⟨prev, rfl, rfl⟩
        · simp only [logged_appendEvent, append_assoc]
          rfl
      · refine ⟨rfl, Or.inr ⟨?_, [], by simp, ?_⟩⟩
        · intro prev' h
          rwa [← Option.some.inj h]
        · simp only [logged_appendEvent]
          rfl
    · rw [if_neg hnew]
      simp only [not_or, not_not, not_le] at hnew
      exact ⟨rfl, Or.inl ⟨prev, rfl, hnew.1, hnew.2, rfl⟩⟩

theorem tracks_empty : Tracks {} [] where
  table k := by simp [windowAt, windowOf]
  log k := by simp [lastLogged, logged, windowAt, windowOf]

/-- Noting a sighting goes on with the windows. -/
theorem Tracks.note (h : Tracks L os) (ho : o.seen = now) : Tracks (noteSighting now L o) (os ++ [o]) := by
  obtain ⟨htable, hlogged⟩ := noteSighting_logged now L o
  have hget := h.table (spot o)
  refine ⟨?_, ?_⟩
  · intro k
    rw [htable, Bucket.get_put]
    split
    · rename_i hk
      rw [hk, windowAt_concat_self]
      unfold sighted
      cases windowAt os (spot o) with
      | none => rfl
      | some =>
        simp only
        split <;> rfl
    · rename_i hk
      rw [windowAt_concat_ne os (Ne.symm hk)]
      exact h.table k
  · intro k
    by_cases hk : spot o = k
    · subst hk
      rw [windowAt_concat_self]
      rcases hlogged with ⟨prev, hprev, hmac, huntil, hsame⟩ | ⟨hnew, closed, -, hlog⟩
      · -- A refresh: the window has begun with what the log has last.
        rw [lastLogged, hsame, ← lastLogged, h.log]
        rw [hget] at hprev
        obtain ⟨w, hw, rfl⟩ := Option.map_eq_some_iff.mp hprev
        rw [hw, sighted, if_neg]
        · rfl
        · simp only [not_or, not_not, not_le]
          exact ⟨hmac, by rw [ho]; exact huntil⟩
      · rw [map_append, ← append_assoc] at hlog
        rw [lastLogged_concat_self hlog]
        cases hw : windowAt os (spot o) with
        | none => rfl
        | some w =>
          rw [sighted, if_pos]
          · rfl
          · rw [ho]
            exact hnew w.last (by rw [hget, hw]; rfl)
    · rw [windowAt_concat_ne os hk, ← h.log]
      rcases hlogged with ⟨prev, -, -, -, hsame⟩ | ⟨-, closed, hclosed, hlog⟩
      · rw [lastLogged, hsame, ← lastLogged]
      · refine lastLogged_append hlog ?_
        intro x hx
        obtain ⟨y, hy, rfl⟩ := mem_map.mp hx
        rcases mem_append.mp hy with hy | hy
        · -- What is closed is the sighting of the same key.
          obtain ⟨prev, hprev, hspot⟩ := hclosed y hy
          rw [hget] at hprev
          obtain ⟨w, hw, rfl⟩ := Option.map_eq_some_iff.mp hprev
          rw [hspot, (windowAt_mem hw).2.2.1]
          exact hk
        · rw [mem_singleton.mp hy]
          exact hk

/-! ### Runs -/

/-- The step is of no concern to the sightings. -/
def Unseen (L L' : Ledger) : Prop := L'.observations = L.observations ∧ logged L' = logged L

theorem Unseen.refl (L : Ledger) : Unseen L L := ⟨rfl, rfl⟩

/-- A write aside has no sighting in the log. -/
theorem Aside.unseen (h : Aside L L') : Unseen L L' := by
  obtain ⟨notes, hevents, -, -, hnotes⟩ := h.noted
  have hnil : notes.filterMap (fun e => e.observation.map fun o => (e.time, o)) = [] := by
    rw [filterMap_eq_nil_iff]
    intro e he
    rw [(hnotes e he).2]
    rfl
  refine ⟨h.observations, ?_⟩
  rw [logged, hevents, filterMap_append, hnil, append_nil]
  rfl

/-- A transaction on bindings is of no concern to the sightings. -/
theorem Saves.unseen {P : Ledger → Binding → EventKind → Prop} (h : Saves P now L L') : Unseen L L' := by
  refine h.invariant (I := Unseen L) ?_ ?_ (.refl L)
  · intro L1 L2 haside h1
    exact ⟨by rw [haside.unseen.1, h1.1], by rw [haside.unseen.2, h1.2]⟩
  · intro L1 b kind _ h1
    refine ⟨by rw [observations_save, h1.1], ?_⟩
    rw [← h1.2, logged, events_save, filterMap_append]
    simp [logged]

/-- A step notes the sightings that it records, and otherwise is of no concern to them. -/
theorem step_sightings (L : Ledger) (s : Step) :
    Unseen ((stepSightings s).foldl (noteSighting s.time) L) (s.op.apply s.time L) := by
  rcases apply_effect L s.time s.op with heq | ⟨hnone, hsaves⟩
  · rw [heq]
    exact .refl _
  · rw [hnone]
    exact hsaves.unseen

theorem Unseen.tracks (h : Unseen L L') (hL : Tracks L os) : Tracks L' os where
  table k := by rw [h.1]; exact hL.table k
  log k := by rw [lastLogged, h.2]; exact hL.log k

/-- What is recorded has the time of the step. -/
theorem stepSightings_seen {s : Step} (h : o ∈ stepSightings s) : o.seen = s.time := by
  obtain ⟨c, sc, ip, mac, ttl, o0, -, -, -, rfl⟩ := stepSightings_recorded h
  rfl

theorem tracks_notes {xs : List Observation} (h : Tracks L os) (hxs : ∀ o ∈ xs, o.seen = now) :
    Tracks (xs.foldl (noteSighting now) L) (os ++ xs) := by
  induction xs generalizing L os with
  | nil => simpa using h
  | cons o xs ih =>
    rw [foldl_cons, append_cons]
    exact ih (h.note (hxs o mem_cons_self)) fun o' ho' => hxs o' (mem_cons_of_mem _ ho')

/-- What a run records. -/
def recordedBy (steps : List Step) : List Observation := steps.flatMap stepSightings

theorem run_concat (L : Ledger) (steps : List Step) (s : Step) :
    run L (steps ++ [s]) = s.op.apply s.time (run L steps) := by
  simp [run]

/-- Along a run table and log stay the two halves of the windows. -/
theorem tracks_run (steps : List Step) : Tracks (run {} steps) (recordedBy steps) := by
  induction steps using List.reverseRecOn with
  | nil => exact tracks_empty
  | append_singleton steps s ih =>
    rw [run_concat, recordedBy, flatMap_append, flatMap_singleton]
    exact (step_sightings (run {} steps) s).tracks (tracks_notes ih fun o ho => stepSightings_seen ho)

/-! ### The log up to an instant -/

theorem logged_notes (now : Int) (L : Ledger) (xs : List Observation) :
    ∃ es, logged (xs.foldl (noteSighting now) L) = logged L ++ es ∧ ∀ x ∈ es, x.1 = now := by
  induction xs generalizing L with
  | nil => exact ⟨[], by simp, by simp⟩
  | cons o xs ih =>
    obtain ⟨es, hes, htimes⟩ := ih (noteSighting now L o)
    rw [foldl_cons, hes]
    rcases (noteSighting_logged now L o).2 with ⟨prev, -, -, -, hsame⟩ | ⟨-, closed, -, hlog⟩
    · exact ⟨es, by rw [hsame], htimes⟩
    · refine ⟨(closed ++ [o]).map (fun x => (now, x)) ++ es, by rw [hlog, append_assoc], ?_⟩
      intro x hx
      rcases mem_append.mp hx with hx | hx
      · obtain ⟨y, -, rfl⟩ := mem_map.mp hx
        rfl
      · exact htimes x hx

/-- A step adds to the log sightings at its own time. -/
theorem logged_step (L : Ledger) (s : Step) :
    ∃ es, logged (s.op.apply s.time L) = logged L ++ es ∧ ∀ x ∈ es, x.1 = s.time := by
  rw [(step_sightings L s).2]
  exact logged_notes s.time L (stepSightings s)

theorem logged_times {t : Int} (h : ∀ s ∈ steps, s.time ≤ t) : ∀ x ∈ logged (run {} steps), x.1 ≤ t := by
  induction steps using List.reverseRecOn with
  | nil => intro x hx; cases hx
  | append_singleton steps s ih =>
    intro x hx
    obtain ⟨es, hes, htimes⟩ := logged_step (run {} steps) s
    rw [run_concat, hes] at hx
    rcases mem_append.mp hx with hx | hx
    · exact ih (fun s' hs' => h s' (mem_append_left _ hs')) x hx
    · rw [htimes x hx]
      exact h s (by simp)

/-- With a clock that does not run backwards, the log up to an instant is the log of the steps up to it. -/
theorem logged_until (h : steps.Pairwise fun a b => a.time ≤ b.time) (t : Int) :
    (logged (run {} steps)).filter (fun x => x.1 ≤ t) = logged (run {} (steps.filter fun s => s.time ≤ t)) := by
  induction steps using List.reverseRecOn with
  | nil => rfl
  | append_singleton steps s ih =>
    obtain ⟨hbefore, -, hlast⟩ := pairwise_append.mp h
    by_cases hs : s.time ≤ t
    · -- All steps are up to the instant, and so is everything in the log.
      have hall : ∀ s' ∈ steps ++ [s], s'.time ≤ t := by
        intro s' hs'
        rcases mem_append.mp hs' with hs' | hs'
        · exact le_trans (hlast s' hs' s (by simp)) hs
        · rw [mem_singleton.mp hs']
          exact hs
      rw [filter_eq_self.mpr (fun x hx => by simpa using logged_times hall x hx),
        filter_eq_self.mpr (fun s' hs' => by simpa using hall s' hs')]
    · obtain ⟨es, hes, htimes⟩ := logged_step (run {} steps) s
      have hnil : es.filter (fun x => x.1 ≤ t) = [] := by
        rw [filter_eq_nil_iff]
        intro x hx
        rw [htimes x hx]
        simpa using hs
      rw [run_concat, hes, filter_append, filter_append, hnil, append_nil,
        filter_cons_of_neg (by simpa using hs), filter_nil, append_nil]
      exact ih hbefore

/-! ### A snapshot of the past -/

/-- The snapshot at the instant has a sighting of the hardware address at the address. -/
def Returned (L : Ledger) (now : Int) (scopeFilter ipFilter : String) (t : Int) (scope address mac : String) : Prop :=
  ∃ snap, L.snapshot now scopeFilter ipFilter t = .ok snap ∧
    ∃ o ∈ snap.observations, o.scope = scope ∧ o.address = address ∧ o.mac = mac

/-- The ledger's current sighting at the key is of the hardware address, and good beyond the instant. -/
def Known (L : Ledger) (k : String) (t : Int) (mac : String) : Prop :=
  ∃ o, L.observations.get k = some o ∧ o.mac = mac ∧ t < o.until_

/-- A key with a slash-free scope and address stands for no other scope and address. -/
theorem scope_address_of_key (hscope : '/' ∉ o.scope.toList) (haddress : '/' ∉ o.address.toList)
    (h : spot o = bindingKey scope address) : o.scope = scope ∧ o.address = address := by
  have hlist : o.scope.toList ++ '/' :: o.address.toList = scope.toList ++ '/' :: address.toList := by
    have := congrArg String.toList h
    simpa [spot, bindingKey, String.toList_append] using this
  -- There is one slash in the key, so there is none in the scope that was asked for.
  have hcount := congrArg (List.count '/') hlist
  simp only [count_append, count_cons_self, count_eq_zero.mpr hscope,
    count_eq_zero.mpr haddress] at hcount
  have hnone : '/' ∉ scope.toList := count_eq_zero.mp (by omega)
  obtain ⟨hs, ha⟩ := append_cons_inj hscope hnone hlist
  exact ⟨String.toList_inj.mp hs, String.toList_inj.mp ha⟩

/-- The sightings that a snapshot replays are those in the log. -/
theorem logged_filter (L : Ledger) (t : Int) :
    (L.events.filter fun e => e.time ≤ t).filterMap (·.observation) =
      ((logged L).filter fun x => x.1 ≤ t).map Prod.snd := by
  unfold logged
  induction L.events with
  | nil => rfl
  | cons e es ih =>
    cases ho : e.observation with
    | none =>
      rw [filterMap_cons_none (by simp [ho]), ← ih, filter_cons]
      split
      · exact filterMap_cons_none ho
      · rfl
    | some =>
      rw [filterMap_cons_some (by rw [ho]; rfl), filter_cons, filter_cons]
      simp only
      split
      · rw [filterMap_cons_some ho, map_cons, ih]
      · exact ih

/-- A replay has the last sighting of each key. -/
theorem get_replayed (xs : List Observation) (k : String) :
    (xs.foldl (fun b o => b.put (bindingKey o.scope o.address) o) (.empty : Bucket String Observation)).get k =
      (xs.filter (spot · = k)).getLast? := by
  have hget := Bucket.get_replay (xs.map fun o => (spot o, o)) k
  rw [Bucket.replay, foldl_map, filter_map, List.getLast?_map, Option.map_map] at hget
  refine hget.trans ?_
  simp [Function.comp_def]

/-- What the replay of the log has at a key that the filter selects. -/
theorem sightingsAt_get {scopeFilter ipFilter : String} {t : Int}
    (hkeys : ∀ x ∈ logged L, spot x.2 = bindingKey scope address → x.2.scope = scope ∧ x.2.address = address)
    (hselected : Ledger.selected scopeFilter ipFilter scope address = true) :
    (L.sightingsAt scopeFilter ipFilter t).get (bindingKey scope address) =
      ((((logged L).filter fun x => x.1 ≤ t).map Prod.snd).filter (spot · = bindingKey scope address)).getLast? := by
  unfold Ledger.sightingsAt
  rw [get_replayed, logged_filter, filter_filter]
  congr 1
  refine filter_congr fun o ho => ?_
  obtain ⟨x, hx, rfl⟩ := mem_map.mp ho
  by_cases hspot : spot x.2 = bindingKey scope address
  · obtain ⟨hscope, haddress⟩ := hkeys x (mem_filter.mp hx).1 hspot
    simp [hspot, hscope, haddress, hselected]
  · simp [hspot]

/-- A snapshot of the past returns what the replay has, if the instant is in its window. -/
theorem returned_iff {t : Int} (hpast : 0 < t ∧ t < now) {scopeFilter ipFilter mac : String} :
    Returned L now scopeFilter ipFilter t scope address mac ↔
      ∃ o, (L.sightingsAt scopeFilter ipFilter t).get (bindingKey scope address) = some o ∧
        o.scope = scope ∧ o.address = address ∧ o.mac = mac ∧ o.seen ≤ t ∧ t < o.until_ := by
  have hzero : t ≠ 0 := by omega
  have hnow : t ≠ now := by omega
  unfold Returned
  simp only [Ledger.snapshot, if_neg hzero, bind_eq_ok, refuseIf_eq_ok, exists_const, pure_eq_ok,
    decide_eq_false_iff_not, not_lt]
  constructor
  · intro h
    obtain ⟨snap, ⟨-, -, rfl⟩, o, ho, hscope, haddress, hmac⟩ := h
    simp only [if_neg hnow, mem_map, mem_filter, Bool.and_eq_true, decide_eq_true_eq] at ho
    obtain ⟨o', ⟨⟨⟨k, o''⟩, hentry, rfl⟩, hseen, huntil⟩, rfl⟩ := ho
    have hget := Bucket.mem_entries.mp hentry
    -- A replayed sighting is under its own key.
    have hkey : spot o'' = k := by
      unfold Ledger.sightingsAt at hget
      rw [get_replayed] at hget
      simpa using (mem_filter.mp (mem_of_getLast? hget)).2
    refine ⟨o'', ?_, hscope, haddress, hmac, hseen, huntil⟩
    rw [← hscope, ← haddress]
    rw [← hkey] at hget
    exact hget
  · intro h
    obtain ⟨o, hget, hscope, haddress, hmac, hseen, huntil⟩ := h
    refine ⟨_, ⟨by omega, by omega, rfl⟩, { o with historical := true }, ?_, hscope, haddress, hmac⟩
    simp only [if_neg hnow, mem_map, mem_filter, Bool.and_eq_true, decide_eq_true_eq]
    exact ⟨o, ⟨⟨(bindingKey scope address, o), Bucket.mem_entries.mpr hget, rfl⟩, hseen, huntil⟩, rfl⟩

/-! ### What was known at the time -/

theorem reached_run (h : ∀ s ∈ steps, Operation.Called s.op) : Reached (run {} steps) := by
  induction steps using List.reverseRecOn with
  | nil => exact .empty
  | append_singleton steps s ih =>
    rw [run_concat]
    exact .operate (ih fun s' hs' => h s' (mem_append_left _ hs')) s.time (h s (by simp))

/-- The sightings in the log have neither in scope nor address a slash. -/
theorem logged_keys (hL : Reached L) :
    ∀ x ∈ logged L, spot x.2 = bindingKey scope address → x.2.scope = scope ∧ x.2.address = address := by
  intro x hx hspot
  obtain ⟨e, he, hmap⟩ := mem_filterMap.mp hx
  obtain ⟨o, ho, rfl⟩ := Option.map_eq_some_iff.mp hmap
  exact scope_address_of_key (((filed_of_reached hL).logged e he).2 o ho).slashless
    (PlainAddress.slash_not_mem ((sightedAt_of_reached hL).logged e he o ho)) hspot

/-- The end of the sighting that began the window, and that of its last refresh, are on one side of the
instant. -/
def Window.Settled (w : Window) (t : Int) : Prop := t < w.first.until_ ↔ t < w.last.until_

/-- A snapshot of a past instant returns the sightings that were known then, if and only if no refresh
has moved the end of the window over the instant. -/
theorem history_matches_iff {steps : List Step} (hcalled : ∀ s ∈ steps, Operation.Called s.op)
    (hclock : steps.Pairwise fun a b => a.time ≤ b.time) {now t : Int} (hpast : 0 < t ∧ t < now)
    {scopeFilter ipFilter scope address : String}
    (hselected : Ledger.selected scopeFilter ipFilter scope address = true) :
    (∀ mac, Returned (run {} steps) now scopeFilter ipFilter t scope address mac ↔
        Known (run {} (steps.filter fun s => s.time ≤ t)) (bindingKey scope address) t mac) ↔
      ∀ w, windowAt (recordedBy (steps.filter fun s => s.time ≤ t)) (bindingKey scope address) = some w →
        w.Settled t := by
  have htracks := tracks_run (steps.filter fun s => s.time ≤ t)
  have hget := sightingsAt_get (t := t) (logged_keys (reached_run hcalled)) hselected
  rw [logged_until hclock, ← lastLogged, htracks.log] at hget
  simp only [returned_iff hpast, hget, Known, htracks.table]
  cases hw : windowAt (recordedBy (steps.filter fun s => s.time ≤ t)) (bindingKey scope address) with
  | none => simp
  | some w =>
    obtain ⟨hmem, hkey, -, hmac⟩ := windowAt_mem hw
    -- The window began at one of the steps up to the instant.
    have hseen : w.first.seen ≤ t := by
      obtain ⟨s, hs, ho⟩ := mem_flatMap.mp hmem
      rw [stepSightings_seen ho]
      simpa using (mem_filter.mp hs).2
    have hspot : w.first.scope = scope ∧ w.first.address = address := by
      have hreached : Reached (run {} (steps.filter fun s => s.time ≤ t)) :=
        reached_run fun s hs => hcalled s (mem_filter.mp hs).1
      have hlast : lastLogged (run {} (steps.filter fun s => s.time ≤ t)) (bindingKey scope address) =
          some w.first := by
        rw [htracks.log, hw]
        rfl
      obtain ⟨x, hx, hfirst⟩ := mem_map.mp (mem_filter.mp (mem_of_getLast? hlast)).1
      rw [← hfirst]
      exact logged_keys hreached x hx (by rw [hfirst]; exact hkey)
    simp only [Option.map_some, Option.some.injEq, exists_eq_left', hspot, hseen, true_and]
    constructor
    · rintro h w' rfl
      have hfirst := h w.first.mac
      rw [hmac] at hfirst
      show t < w.first.until_ ↔ t < w.last.until_
      simpa using hfirst
    · intro h mac
      have hsettled : t < w.first.until_ ↔ t < w.last.until_ := h w rfl
      rw [hmac, hsettled]

/-- The neighbour is sighted at the time. -/
def seeNine (time : Int) : Step := ⟨time, sightNine⟩

theorem called_seeNine : ∀ {times : List Int}, ∀ s ∈ times.map seeNine, Operation.Called s.op := by
  intro times s hs
  obtain ⟨time, -, rfl⟩ := mem_map.mp hs
  show (smallLan 60).validate = .ok ()
  decide +kernel

/-- What is recorded then. -/
def nineSeen (time : Int) : Observation :=
  { scope := "lan", address := "10.0.0.9", mac := "02:00:00:00:00:09", origin := "kernel-neighbor", seen := time,
    until_ := time + 120 }

/-- A sighting that ran out before the next one is returned for an instant in its window. -/
theorem history_matches_gap :
    Returned (run {} ([1000, 2000].map seeNine)) 3000 "" "10.0.0.9" 1050 "lan" "10.0.0.9"
        "02:00:00:00:00:09" ↔
      Known (run {} (([1000, 2000].map seeNine).filter fun s => s.time ≤ 1050))
        (bindingKey "lan" "10.0.0.9") 1050 "02:00:00:00:00:09" := by
  refine (history_matches_iff called_seeNine (by decide +kernel) (by decide) (by decide)).mpr ?_ _
  have hwindow : windowAt (recordedBy (([1000, 2000].map seeNine).filter fun s => s.time ≤ 1050))
      (bindingKey "lan" "10.0.0.9") = some ⟨nineSeen 1000, nineSeen 1000⟩ := by
    decide +kernel
  intro w hw
  rw [hwindow, Option.some.injEq] at hw
  rw [← hw]
  exact Iff.rfl

/-- The sighting at 1000 is good until 1120, and its refresh at 1100 until 1220. At 1150 it is known; the
snapshot of that instant does not have it. -/
theorem refreshed_sighting_forgotten :
    (∀ s ∈ [1000, 1100].map seeNine, Operation.Called s.op) ∧
      Known (run {} (([1000, 1100].map seeNine).filter fun s => s.time ≤ 1150))
        (bindingKey "lan" "10.0.0.9") 1150 "02:00:00:00:00:09" ∧
      ¬ Returned (run {} ([1000, 1100].map seeNine)) 2000 "" "10.0.0.9" 1150 "lan" "10.0.0.9"
        "02:00:00:00:00:09" := by
  refine ⟨called_seeNine, ⟨nineSeen 1100, by decide +kernel, by decide, by decide⟩, ?_⟩
  intro h
  obtain ⟨o, hget, -, -, -, -, huntil⟩ := (returned_iff (by decide)).mp h
  have hlogged : ((run {} ([1000, 1100].map seeNine)).sightingsAt "" "10.0.0.9" 1150).get
      (bindingKey "lan" "10.0.0.9") = some (nineSeen 1000) := by
    decide +kernel
  rw [hlogged, Option.some.injEq] at hget
  rw [← hget] at huntil
  exact absurd huntil (by decide)

end Ghostd.Proofs.Addressbook
