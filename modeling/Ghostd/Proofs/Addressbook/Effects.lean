import Ghostd.Addressbook.Replicate
import Ghostd.Proofs.Addressbook.Writes

/-!
# `Ghostd.Proofs.Addressbook.Effects`: every operation as sightings or saves

An operation does one of two things to the ledger. `Observe` and `ObserveSwitch` note the sightings they
accept, one after the other (`noteSighting`). Every other operation is a sequence of saves, and `OpWrite`
says what each of them saves. `apply_effect` is this for all operations, so that an invariant of runs has
two cases, whatever the operation.
-/

set_option autoImplicit false

namespace Ghostd.Proofs.Addressbook

open Ghostd.Lib Ghostd.Addressbook List

variable {L L' : Ledger} {now : Int} {os : List Observation} {o : Observation}

/-! ### Sightings -/

/-- The key of a sighting. -/
def spot (o : Observation) : String := bindingKey o.scope o.address

/-- A sighting as it is recorded, if it is accepted. -/
def sighting (now ttl : Int) (c : Config) (o : Observation) : Option Observation := do
  let s ← c.scope o.scope
  let ip ← parseAddr o.address
  let p ← parsePrefix s.subnet
  let mac ← parseMAC o.mac
  if p.contains ip ∧ mac.length = 6 then some (recorded now ttl o ip mac) else none

/-- A call records all its sightings, or none. -/
def callSightings (now ttl : Int) (c : Config) (os : List Observation) : List Observation :=
  if os.length > 10000 then [] else (os.mapM (sighting now ttl c)).getD []

/-- The sightings that a step records. -/
def stepSightings (s : Step) : List Observation :=
  match s.op with
  | .observe c os => callSightings s.time 120 c (os.map fun o => { o with origin := "kernel-neighbor" })
  | .observeSwitch c os ttl =>
    if ttl < 10 || ttl > 3600 then []
    else if os.any fun o => byteLength o.detail > 128 then []
    else callSightings s.time ttl c (os.map fun o => { o with origin := "switch-snooping" })
  | _ => []

/-- What is done with a sighting that is accepted. -/
def noteSighting (now : Int) (L : Ledger) (o : Observation) : Ledger :=
  let L' := { L with observations := L.observations.put (spot o) o }
  match L.observations.get (spot o) with
  | none => L'.appendEvent { time := now, kind := .observation, observation := some o }
  | some prev =>
    if prev.mac ≠ o.mac ∨ prev.until_ ≤ now then
      let L' :=
        if prev.until_ > 0 then
          L'.appendEvent
            { time := now, kind := .observationEnd,
              observation := some { prev with until_ := min prev.until_ now } }
        else L'
      L'.appendEvent { time := now, kind := .observation, observation := some o }
    else L'

/-- The end of the loop's body notes the sighting. -/
theorem noteSighting_eq (now : Int) (L : Ledger) (o : Observation) :
    (match L.observations.get (spot o) with
      | none =>
        (pure ({ L with observations := L.observations.put (spot o) o }.appendEvent
          { time := now, kind := .observation, observation := some o }) : Except Failure Ledger)
      | some prev =>
        if prev.mac ≠ o.mac ∨ prev.until_ ≤ now then
          pure ((if prev.until_ > 0 then
              { L with observations := L.observations.put (spot o) o }.appendEvent
                { time := now, kind := .observationEnd,
                  observation := some { prev with until_ := min prev.until_ now } }
            else { L with observations := L.observations.put (spot o) o }).appendEvent
              { time := now, kind := .observation, observation := some o })
        else pure { L with observations := L.observations.put (spot o) o }) =
      pure (noteSighting now L o) := by
  unfold noteSighting
  cases L.observations.get (spot o) with
  | none => rfl
  | some =>
    simp only
    split <;> rfl

theorem observeOne_eq_ok {ttl : Int} {c : Config} :
    observeOne now ttl c L o = .ok L' ↔ ∃ o', sighting now ttl c o = some o' ∧ noteSighting now L o' = L' := by
  unfold observeOne sighting
  cases hs : c.scope o.scope with
  | none => simp
  | some s =>
    cases hip : parseAddr o.address with
    | none => simp
    | some ip =>
      cases hp : parsePrefix s.subnet with
      | none => simp [mustParsePrefix, hp, bind_eq_ok]
      | some =>
        cases hmac : parseMAC o.mac with
        | none => simp [bind_eq_ok]
        | some mac =>
          simp only [mustParsePrefix, hp, bind_eq_ok, refuseIf_eq_ok, exists_const, pure_eq_ok,
            exists_eq_left', Option.bind_eq_bind, Option.bind_some, Option.ite_none_right_eq_some,
            Option.some.injEq]
          have htail := noteSighting_eq now L (recorded now ttl o ip mac)
          unfold spot at htail
          constructor
          · intro h
            obtain ⟨hcontains, hlength, h⟩ := h
            refine ⟨_, ⟨⟨by simpa using hcontains, by simpa using hlength⟩, rfl⟩, ?_⟩
            exact pure_eq_ok.mp (htail.symm.trans h)
          · intro h
            obtain ⟨o', ⟨⟨hcontains, hlength⟩, rfl⟩, rfl⟩ := h
            exact ⟨by simpa using hcontains, by simpa using hlength, htail⟩

/-- What a reader of pieces has read comes from a piece. -/
theorem mem_of_mapM_some {α β : Type} {f : α → Option β} {xs : List α} {ys : List β} (h : xs.mapM f = some ys)
    {y : β} (hy : y ∈ ys) : ∃ x ∈ xs, f x = some y := by
  induction xs generalizing ys with
  | nil =>
    rw [mapM_nil, Option.pure_def, Option.some.injEq] at h
    rw [← h] at hy
    cases hy
  | cons x xs ih =>
    simp only [mapM_cons, Option.bind_eq_bind, Option.bind_eq_some_iff, Option.pure_def,
      Option.some.injEq] at h
    obtain ⟨z, hz, zs, hzs, rfl⟩ := h
    rcases mem_cons.mp hy with rfl | hy
    · exact ⟨x, mem_cons_self, hz⟩
    · obtain ⟨x', hx', hfx'⟩ := ih hzs hy
      exact ⟨x', mem_cons_of_mem _ hx', hfx'⟩

theorem foldlM_observeOne {ttl : Int} {c : Config} : os.foldlM (observeOne now ttl c) L = .ok L' ↔
      ∃ os', os.mapM (sighting now ttl c) = some os' ∧ os'.foldl (noteSighting now) L = L' := by
  induction os generalizing L with
  | nil => simp [pure_eq_ok]
  | cons o os ih =>
    simp only [foldlM_cons, bind_eq_ok, observeOne_eq_ok, ih, mapM_cons, Option.bind_eq_bind,
      Option.bind_eq_some_iff, Option.pure_def, Option.some.injEq]
    constructor
    · intro h
      obtain ⟨L1, ⟨o', ho', rfl⟩, os', hos', hfold⟩ := h
      exact ⟨o' :: os', ⟨o', ho', os', hos', rfl⟩, hfold⟩
    · intro h
      obtain ⟨os'', ⟨o', ho', os', hos', rfl⟩, hfold⟩ := h
      exact ⟨_, ⟨o', ho', rfl⟩, os', hos', hfold⟩

/-- A call notes the sightings that it records. -/
theorem settle_observeAll (L : Ledger) (now ttl : Int) (c : Config) (os : List Observation) :
    L.settle (L.observeAll now c os ttl) = (callSightings now ttl c os).foldl (noteSighting now) L := by
  cases h : L.observeAll now c os ttl with
  | ok =>
    simp only [Ledger.observeAll, bind_eq_ok, refuseIf_eq_ok, exists_const, foldlM_observeOne] at h
    obtain ⟨hlength, os', hos', hfold⟩ := h
    rw [callSightings, if_neg (by simpa using hlength), hos']
    exact hfold.symm
  | error =>
    -- A call that is refused records nothing.
    have hnone : callSightings now ttl c os = [] := by
      unfold callSightings
      split
      · rfl
      · rename_i hlength
        cases hos' : os.mapM (sighting now ttl c) with
        | none => rfl
        | some os' =>
          have hok : L.observeAll now c os ttl = .ok (os'.foldl (noteSighting now) L) := by
            simp only [Ledger.observeAll, bind_eq_ok, refuseIf_eq_ok, exists_const, foldlM_observeOne]
            exact ⟨by simpa using hlength, os', hos', rfl⟩
          rw [h] at hok
          cases hok
    rw [hnone]
    rfl

/-- A call that may be refused first. -/
theorem settle_refuseIf (L : Ledger) (bad : Bool) (e : Failure) (r : Except Failure Ledger) :
    L.settle (do refuseIf bad e; r) = if bad then L else L.settle r := by
  cases bad with
  | true => rfl
  | false => rfl

theorem apply_observe (L : Ledger) (now : Int) (c : Config) (os : List Observation) :
    (Operation.observe c os).apply now L = (stepSightings ⟨now, .observe c os⟩).foldl (noteSighting now) L :=
  settle_observeAll L now 120 c _

theorem apply_observeSwitch (L : Ledger) (now : Int) (c : Config) (os : List Observation) (ttl : Int) :
    (Operation.observeSwitch c os ttl).apply now L =
      (stepSightings ⟨now, .observeSwitch c os ttl⟩).foldl (noteSighting now) L := by
  show L.settle (L.observeSwitch now c os ttl) = _
  unfold Ledger.observeSwitch
  rw [settle_refuseIf, settle_refuseIf, settle_observeAll]
  simp only [stepSightings]
  split
  · rfl
  · split <;> rfl

/-- The operation records sightings under the configuration. -/
def Operation.Sights (c : Config) : Operation → Prop
  | .observe c' _ => c' = c
  | .observeSwitch c' _ _ => c' = c
  | _ => False

/-- What a step records is sightings that were accepted: of a scope, and of an address without a zone. -/
theorem stepSightings_recorded {s : Step} (h : o ∈ stepSightings s) :
    ∃ c sc ip mac ttl o0, Operation.Sights c s.op ∧ c.scope o0.scope = some sc ∧ ip.zone = "" ∧
      o = recorded s.time ttl o0 ip mac := by
  have hcall : ∀ {ttl : Int} {c : Config} {os : List Observation}, o ∈ callSightings s.time ttl c os →
      ∃ sc ip mac o0, c.scope o0.scope = some sc ∧ ip.zone = "" ∧ o = recorded s.time ttl o0 ip mac := by
    intro ttl c os ho
    unfold callSightings at ho
    split at ho
    · cases ho
    · cases hos : os.mapM (sighting s.time ttl c) with
      | none =>
        rw [hos] at ho
        cases ho
      | some =>
        rw [hos] at ho
        obtain ⟨o0, -, ho0⟩ := mem_of_mapM_some hos ho
        unfold sighting at ho0
        simp only [Option.bind_eq_bind, Option.bind_eq_some_iff, Option.ite_none_right_eq_some,
          Option.some.injEq, Prefix.contains, Bool.and_eq_true, decide_eq_true_eq] at ho0
        obtain ⟨sc, hsc, ip, -, p, -, mac, -, ⟨hcontains, -⟩, rfl⟩ := ho0
        exact ⟨sc, ip, mac, o0, hsc, hcontains.1.1, rfl⟩
  obtain ⟨time, op⟩ := s
  cases op with
  | observe c =>
    obtain ⟨sc, ip, mac, o0, hfacts⟩ := hcall h
    exact ⟨c, sc, ip, mac, _, o0, rfl, hfacts⟩
  | observeSwitch c =>
    simp only [stepSightings] at h
    split at h
    · cases h
    · split at h
      · cases h
      · obtain ⟨sc, ip, mac, o0, hfacts⟩ := hcall h
        exact ⟨c, sc, ip, mac, _, o0, rfl, hfacts⟩
  | _ => cases h

/-- The rule for sightings: what is noted is in `Q`, and so is what was stored, which the log closes. -/
theorem notes_invariant {I : Ledger → Prop} {Q : Observation → Prop}
    (stored : ∀ {L k o}, I L → L.observations.get k = some o → Q o)
    (closed : ∀ {o : Observation} (t : Int), Q o → Q { o with until_ := t })
    (sight : ∀ {L o}, Q o → I L → I { L with observations := L.observations.put (spot o) o })
    (log : ∀ {L} {e : Event}, e.binding = {} → (∀ o, e.observation = some o → Q o) → I L → I (L.appendEvent e))
    (hos : ∀ o ∈ os, Q o) (hL : I L) : I (os.foldl (noteSighting now) L) := by
  refine foldl_invariant (fun o ho L1 h1 => ?_) hL
  have hsight := sight (hos o ho) h1
  have hlog : ∀ {L2 : Ledger} {kind : EventKind} {o' : Observation}, Q o' → I L2 →
      I (L2.appendEvent { time := now, kind, observation := some o' }) := by
    intro L2 kind o' ho' h2
    refine log rfl (fun o'' ho'' => ?_) h2
    rwa [← Option.some.inj ho'']
  unfold noteSighting
  cases hprev : L1.observations.get (spot o) with
  | none => exact hlog (hos o ho) hsight
  | some =>
    simp only
    split
    · split
      · exact hlog (hos o ho) (hlog (closed _ (stored h1 hprev)) hsight)
      · exact hlog (hos o ho) hsight
    · exact hsight

/-- Sightings leave the bindings, the indexes and the associations. -/
theorem notes_rest (now : Int) (L : Ledger) (os : List Observation) :
    (os.foldl (noteSighting now) L).bindings = L.bindings ∧ (os.foldl (noteSighting now) L).indexes = L.indexes ∧
      (os.foldl (noteSighting now) L).associations = L.associations :=
  notes_invariant (I := fun L1 : Ledger =>
      L1.bindings = L.bindings ∧ L1.indexes = L.indexes ∧ L1.associations = L.associations)
    (Q := fun _ => True) (fun _ _ => trivial) (fun _ _ => trivial) (fun _ h => h) (fun _ _ h => h)
    (fun _ _ => trivial) ⟨rfl, rfl, rfl⟩

/-! ### Saves -/

/-- A transaction that fails changes nothing. -/
theorem settle_cases {Q : Ledger → Prop} {r : Except Failure Ledger} (h0 : Q L) (h : ∀ L', r = .ok L' → Q L') :
    Q (L.settle r) := by
  cases r with
  | ok L' => exact h L' rfl
  | error => exact h0

theorem settle_map_cases {Q : Ledger → Prop} {r : Except Failure (Binding × Ledger)} (h0 : Q L)
    (h : ∀ b L', r = .ok (b, L') → Q L') : Q (L.settle (r.map Prod.snd)) := by
  cases r with
  | ok p => exact h p.1 p.2 rfl
  | error => exact h0

theorem aside_audit (L : Ledger) (now : Int) (kind : EventKind) (message : String) :
    Aside L (L.audit now kind message) :=
  ⟨rfl, rfl, rfl, rfl, Or.inl rfl, .event rfl rfl rfl rfl, fun _ _ => Or.inl⟩

theorem aside_identify (L : Ledger) (duid : List Nat) : Aside L { L with duid := duid } :=
  ⟨rfl, rfl, rfl, rfl, Or.inl rfl, .same rfl rfl, fun _ _ => Or.inl⟩

/-- A report saves what it has matched, or it is refused and only noted. -/
theorem report_saves (L : Ledger) (now : Int) (c : Config) (node : Node) :
    (∃ found device name, reportMatches L now c { node with seen := now } = .ok found ∧
        reportIdentity L now c { node with seen := now } found = .ok (device, name) ∧
        Saves (ReportWrite now { node with seen := now } device name found) now L (L.report now c node).2) ∨
      Aside L (L.report now c node).2 := by
  unfold Ledger.report
  cases checkReport node with
  | error => exact Or.inr (.refl L)
  | ok =>
    cases hjoin : L.joinReport now c node with
    | ok => exact Or.inl (joinReport_saves hjoin)
    | error e =>
      cases e with
      | panic => exact Or.inr (.refl L)
      | error => exact Or.inr (aside_audit _ _ _ _)
      | unavailable => exact Or.inr (aside_audit _ _ _ _)

/-- What an operation begun in `L₀` saves. -/
def OpWrite (now : Int) (L₀ : Ledger) : Operation → Ledger → Binding → EventKind → Prop
  | .allocate c scopeID client mac claimed requested commit =>
    AllocateWrite now c scopeID client mac claimed requested commit
  | .release scope client ip _ => ReleaseWrite now scope client ip
  | .expire => ExpireWrite now
  | .allocatePrefix s client duidHex hint via commit =>
    DelegateWrite now s client duidHex hint via commit
  | .releasePrefix _ _ => fun _ b _ =>
    ∃ b₀, L₀.bindings.get b₀.key = some b₀ ∧ b = { b₀ with state := .released, endsAt := now }
  | .importDocument c doc => ImportWrite now c doc
  | .observe _ _ => fun _ _ _ => False
  | .observeSwitch _ _ _ => fun _ _ _ => False
  | .report c node => fun L b kind =>
    ∃ found device name, reportMatches L₀ now c { node with seen := now } = .ok found ∧
      reportIdentity L₀ now c { node with seen := now } found = .ok (device, name) ∧
      ReportWrite now { node with seen := now } device name found L b kind
  | .repair _ _ => RepairWrite now
  | .abandonDelegations _ => fun _ b _ =>
    ∃ b₀ evidence, L₀.bindings.get b₀.key = some b₀ ∧
      b = { b₀ with state := .released, endsAt := now, evidence := evidence }

/-- The operations that save bindings which are there already. -/
def Operation.Rewrites : Operation → Prop
  | .release .. | .expire | .releasePrefix .. | .repair .. | .abandonDelegations _ => True
  | _ => False

/-- The binding is the first one with another state, end or identity. -/
structure Rewritten (b₀ b : Binding) : Prop where
  scope : b.scope = b₀.scope
  address : b.address = b₀.address
  client : b.client = b₀.client
  origin : b.origin = b₀.origin
  mac : b.mac = b₀.mac
  name : b.name = b₀.name ∨ labelPattern b.name = true

theorem opWrite_rewrites {L0 : Ledger} {op : Operation} {b : Binding} {kind : EventKind}
    (h : OpWrite now L0 op L b kind) (hop : Operation.Rewrites op) :
    ∃ k b0, (L.bindings.get k = some b0 ∨ L0.bindings.get k = some b0) ∧ Rewritten b0 b := by
  cases op with
  | release =>
    obtain ⟨b0, hget, -, -, rfl | rfl⟩ := h
    · exact ⟨_, b0, Or.inl hget, rfl, rfl, rfl, rfl, rfl, Or.inl rfl⟩
    · exact ⟨_, b0, Or.inl hget, rfl, rfl, rfl, rfl, rfl, Or.inl rfl⟩
  | expire =>
    obtain ⟨k, b0, hget, -, -, rfl⟩ := h
    exact ⟨k, b0, Or.inl hget, rfl, rfl, rfl, rfl, rfl, Or.inl rfl⟩
  | releasePrefix =>
    obtain ⟨b0, hget, rfl⟩ := h
    exact ⟨_, b0, Or.inr hget, rfl, rfl, rfl, rfl, rfl, Or.inl rfl⟩
  | repair =>
    obtain ⟨scope, address, b0, hget, -, -, device, name, nodeID, evidence, hname, rfl⟩ := h
    exact ⟨_, b0, Or.inl hget, rfl, rfl, rfl, rfl, rfl, Or.inr hname⟩
  | abandonDelegations =>
    obtain ⟨b0, evidence, hget, rfl⟩ := h
    exact ⟨_, b0, Or.inr hget, rfl, rfl, rfl, rfl, rfl, Or.inl rfl⟩
  | allocate | allocatePrefix | importDocument | observe | observeSwitch | report => exact hop.elim

/-- Every operation notes its sightings, or makes its saves. -/
theorem apply_effect (L : Ledger) (now : Int) (op : Operation) :
    op.apply now L = (stepSightings ⟨now, op⟩).foldl (noteSighting now) L ∨
      stepSightings ⟨now, op⟩ = [] ∧
        Saves (fun L1 b kind => Sound L → OpWrite now L op L1 b kind) now L (op.apply now L) := by
  cases op with
  | observe c os => exact Or.inl (apply_observe L now c os)
  | observeSwitch c os ttl => exact Or.inl (apply_observeSwitch L now c os ttl)
  | allocate =>
    exact Or.inr ⟨rfl, settle_map_cases .refl fun b L' h => (allocate_saves h).mono fun _ _ _ hw _ => hw⟩
  | release =>
    exact Or.inr ⟨rfl, settle_cases .refl fun L' h => (release_saves h).mono fun _ _ _ hw _ => hw⟩
  | expire => exact Or.inr ⟨rfl, (expire_saves L now).mono fun _ _ _ hw _ => hw⟩
  | allocatePrefix =>
    exact Or.inr ⟨rfl, settle_map_cases .refl fun b L' h => (allocatePrefix_saves h).mono fun _ _ _ hw _ => hw⟩
  | releasePrefix =>
    refine Or.inr ⟨rfl, settle_cases .refl fun L' h => ?_⟩
    simp only [Ledger.releasePrefix, bind_eq_ok, refuseIf_eq_ok, exists_const, pure_eq_ok] at h
    rw [← h.2]
    refine (endBindings_saves _ _ _ _).mono fun L1 b kind hb hL => ?_
    obtain ⟨b0, hb0, rfl⟩ := hb
    exact ⟨b0, (mem_liveByClient hL (mem_filter.mp hb0).1).1, rfl⟩
  | importDocument =>
    exact Or.inr ⟨rfl, settle_cases .refl fun L' h => (importDocument_saves h).mono fun _ _ _ hw _ => hw⟩
  | report c node =>
    refine Or.inr ⟨rfl, ?_⟩
    rcases report_saves L now c node with ⟨found, device, name, hfound, hidentity, hsaves⟩ | haside
    · exact hsaves.mono fun _ _ _ hw _ => ⟨found, device, name, hfound, hidentity, hw⟩
    · exact .aside .refl haside
  | repair =>
    exact Or.inr ⟨rfl, settle_cases .refl fun L' h => (repair_saves h).mono fun _ _ _ hw _ => hw⟩
  | abandonDelegations =>
    refine Or.inr ⟨rfl, (endBindings_saves _ _ _ _).mono fun L1 b kind hb hL => ?_⟩
    obtain ⟨b0, hb0, rfl⟩ := hb
    obtain ⟨⟨k, b'⟩, hentry, rfl⟩ := mem_map.mp (mem_filter.mp hb0).1
    have hget := Bucket.mem_entries.mp hentry
    exact ⟨b', _, by rw [hL.keyed hget]; exact hget, rfl⟩

/-! ### Replication -/

/-- The rule for an event of another ledger. -/
theorem applyEvent_invariant {I : Ledger → Prop} {Q : Observation → Prop} {e : Event}
    (sight : ∀ {L o}, Q o → I L → I { L with observations := L.observations.put (spot o) o })
    (log : ∀ {L} {e : Event}, e.binding = {} → (∀ o, e.observation = some o → Q o) → I L → I (L.appendEvent e))
    (save : e.binding.scope ≠ "" → I L → I (L.save now e.binding e.kind))
    (hseen : ∀ o, e.observation = some o → Q o) (hL : I L) : I (L.applyEvent now e) := by
  unfold Ledger.applyEvent
  cases ho : e.observation with
  | some o =>
    simp only
    split
    · exact log rfl (by rw [← ho]; exact hseen) (sight (hseen o ho) hL)
    · exact log rfl (by rw [← ho]; exact hseen) hL
  | none =>
    simp only
    split
    · rename_i hscope
      exact save hscope hL
    · exact hL

/-- The rule for replication: events of the list, and at last the parts of a snapshot. -/
theorem applyReplicated_invariant {I : Ledger → Prop} {R R' : Replica} {events : List Event}
    {snap : Option Snapshot} (event : ∀ {L e}, e ∈ events → I L → I (L.applyEvent now e))
    (adopt : ∀ {L L' s}, snap = some s → L.adoptSnapshot s = .ok L' → I L → I L')
    (hR : R.applyReplicated now events snap = .ok R') (h : I R.ledger) : I R'.ledger := by
  have hloop : I (events.foldl (Replica.applyOne now) R).ledger := by
    refine foldl_invariant (I := fun R1 : Replica => I R1.ledger) (fun e he R1 h1 => ?_) h
    unfold Replica.applyOne
    split
    · exact h1
    · exact event he h1
  unfold Replica.applyReplicated at hR
  cases snap with
  | none =>
    rw [pure_eq_ok] at hR
    rwa [← hR]
  | some =>
    simp only [bind_eq_ok, pure_eq_ok] at hR
    obtain ⟨L', hadopt, rfl⟩ := hR
    exact adopt rfl hadopt hloop

end Ghostd.Proofs.Addressbook
