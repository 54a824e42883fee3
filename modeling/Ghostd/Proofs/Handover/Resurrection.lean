import Ghostd.Proofs.Handover.LeaseFile
import Mathlib.Data.Int.ConditionallyCompleteOrder

/-!
# `Ghostd.Proofs.Handover.Resurrection`: what a rollback brings back

A rollback imports the original lease file once more before it exports the ledger, at every
address where nothing is live. A lease that was released during the takeover is such an
address, so it is active again in the file the legacy allocator is started on
(`released_lease_exported`).

`exported_wasLive_iff` says exactly when this happens. The calls of a rollback are followed
with the triples of `Ghostd.Lib.Fault`: `Since` is what is known of the lease files written
since it began, and `ExportOf` says from which ledgers such a file was made.
-/

set_option autoImplicit false

namespace Ghostd.Proofs.Handover

open Ghostd.Lib Ghostd.State Ghostd.Addressbook Ghostd.Handover Ghostd.Proofs.Addressbook List

/-! ### Rules for a time without traffic -/

section Quiet

variable {α : Type} {env : Env} {i : Nat} {P : World → Prop}

/-- A program on the world, seen from the host. -/
theorem triple_onWorld {m : Prog World Status α} {Q : α → World → Prop} {E : World → Prop}
    (hm : Triple P m Q E) :
    Triple (fun h : Machine => P h.world) (onWorld m) (fun a h => Q a h.world) fun h => E h.world := by
  refine .of_state fun h hh => .zoom (hm.pre (fun w hw => ?_))
    (fun _ _ hw => hw) fun _ hw => hw
  rw [hw]
  exact hh

theorem keeps_onWorld {m : Prog World Status α} (hm : Keeps P m) :
    Keeps (fun h : Machine => P h.world) (onWorld m) :=
  triple_onWorld hm

theorem arrive_quiet (hquiet : env.traffic i = []) : arrive env i = pure () := by
  funext w
  show [(Outcome.ok (), { w with store := run w.store (env.traffic i) })] = [(Outcome.ok (), w)]
  rw [hquiet]
  rfl

theorem triple_raise_world (x : Except Failure α) :
    Triple P (raise x) (fun a w => P w ∧ x = .ok a) P := by
  cases x with
  | ok => exact .pure fun w hw => ⟨hw, rfl⟩
  | error e =>
    cases e with
    | panic =>
      intro w hw r hr
      obtain rfl : r = (.crash, w) := mem_singleton.mp hr
      exact hw
    | unavailable => exact .fail fun _ hw => hw
    | error => exact .fail fun _ hw => hw

theorem triple_view_quiet (hquiet : env.traffic i = []) (f : Int → Ledger → Except Failure α) :
    Triple P (view env i f) (fun a w => P w ∧ f (env.now i) w.store = .ok a) P := by
  unfold view
  rw [arrive_quiet hquiet]
  refine .bind Keeps.pure fun _ => .bind Keeps.fallible fun _ => ?_
  refine .bind (R := fun w' w => P w ∧ w' = w) (.get fun _ hw => ⟨hw, rfl⟩) fun w' => ?_
  refine (triple_raise_world (P := fun w => P w ∧ w' = w) _).weaken (fun _ hw => hw) (fun a w hw => ?_)
    fun _ hw => hw.1
  obtain ⟨⟨hp, rfl⟩, hok⟩ := hw
  exact ⟨hp, hok⟩

/-- After a write transaction the ledger is what the transaction makes of the one before. -/
theorem triple_transact_quiet (hquiet : env.traffic i = [])
    (f : Int → Ledger → Except Failure (α × Ledger)) :
    Triple P (transact env i f)
      (fun a w => ∃ w0 L, P w0 ∧ f (env.now i) w0.store = .ok (a, L) ∧ w = { w0 with store := L })
      (fun w => P w ∨ ∃ w0 a L, P w0 ∧ f (env.now i) w0.store = .ok (a, L) ∧
        w = { w0 with store := L }) := by
  unfold transact
  rw [arrive_quiet hquiet]
  refine .bind (R := fun _ => P) (.pure fun _ hw => hw) fun _ => ?_
  refine .bind (R := fun w' w => P w ∧ w' = w) (.get fun _ hw => ⟨hw, rfl⟩) fun w' => ?_
  refine .bind ((triple_raise_world _).exit fun _ hw => Or.inl hw.1) fun p => ?_
  obtain ⟨a, L⟩ := p
  have hwrite : ∀ w, (P w ∧ w' = w) ∧ f (env.now i) w'.store = .ok (a, L) →
      P w ∧ f (env.now i) w.store = .ok (a, L) := by
    rintro w ⟨⟨hp, rfl⟩, hok⟩
    exact ⟨hp, hok⟩
  refine .bind (R := fun _ w => ∃ w0 L, P w0 ∧ f (env.now i) w0.store = .ok (a, L) ∧
    w = { w0 with store := L }) (.attempt ?_ ?_) fun _ => .pure fun _ hw => hw
  · intro w hw
    exact ⟨w, L, (hwrite w hw).1, (hwrite w hw).2, rfl⟩
  · intro w hw
    exact ⟨Or.inl (hwrite w hw).1, Or.inr ⟨w, a, L, (hwrite w hw).1, (hwrite w hw).2, rfl⟩⟩

end Quiet

/-! ### What a rollback writes -/

/-- Every lease file written since `before` has the property. -/
def Since (X : Ledger → Int → String → Prop) (before calls : List Call) : Prop :=
  ∃ new, calls = new ++ before ∧ ∀ running L t text, Call.write running L t text ∈ new → X L t text

section Since

variable {X Y : Ledger → Int → String → Prop} {before calls : List Call}

theorem since_refl : Since X before before := ⟨[], rfl, fun _ _ _ _ h => by cases h⟩

theorem Since.imp (himp : ∀ L t text, X L t text → Y L t text) (h : Since X before calls) :
    Since Y before calls := by
  obtain ⟨new, hnew, hwrites⟩ := h
  exact ⟨new, hnew, fun running L t text hmem => himp L t text (hwrites running L t text hmem)⟩

/-- A call that writes nothing. -/
theorem Since.other {call : Call} (hcall : ∀ running L t text, Call.write running L t text ≠ call)
    (h : Since X before calls) : Since X before (call :: calls) := by
  obtain ⟨new, rfl, hwrites⟩ := h
  refine ⟨call :: new, rfl, fun running L t text hmem => ?_⟩
  rcases mem_cons.mp hmem with heq | hmem
  · exact absurd heq (hcall running L t text)
  · exact hwrites running L t text hmem

theorem Since.write {running : Bool} {L : Ledger} {t : Int} {text : String} (hX : X L t text)
    (h : Since X before calls) : Since X before (.write running L t text :: calls) := by
  obtain ⟨new, rfl, hwrites⟩ := h
  refine ⟨_ :: new, rfl, fun running' L' t' text' hmem => ?_⟩
  rcases mem_cons.mp hmem with heq | hmem
  · injection heq with _ hL ht htext
    subst hL ht htext
    exact hX
  · exact hwrites running' L' t' text' hmem

end Since

/-- The ledger after the import of what is missing. `B` holds the bindings before it. -/
def Imported (env : Env) (j : HandoverJournal) (B : Bucket String Binding) (L : Ledger) : Prop :=
  ∃ (doc : ImportDocument) (s : Snapshot) (L₁ L₂ : Ledger),
    parseDNSmasq j.target j.snapshot = .ok doc ∧
    L₁.bindings = B ∧ L₁.snapshot (env.now 2) "" "" 0 = .ok s ∧
    L₂.bindings = B ∧ L₂.importDocument (env.now 3) (disabled j.target) (missingLeases s doc) = .ok L

/-- The lease file is the export of that ledger. -/
def ExportOf (env : Env) (j : HandoverJournal) (B : Bucket String Binding) (L : Ledger) (t : Int)
    (text : String) : Prop :=
  Imported env j B L ∧ t = env.now 4 ∧ IsExport L t text

/-- A condition on the stored bindings and the calls. -/
def OnBindings (K : Bucket String Binding → List Call → Prop) (w : World) : Prop :=
  K w.store.bindings w.calls

section Rollback

variable {env : Env} {i : Nat} {K : Bucket String Binding → List Call → Prop}

theorem keeps_checkAndBind (hquiet : ∀ i, env.traffic i = []) (c : Config) :
    Keeps (OnBindings K) (checkAndBind env i c) := by
  unfold checkAndBind
  refine .bind ((triple_view_quiet (hquiet i) _).post fun _ _ hw => hw.1) fun _ => .bind .fallible fun _ => ?_
  have hnote : ∀ (w : World) (u : Unit) (L : Ledger), OnBindings K w →
      (pure ((), w.store.noteDNSConfig (env.now (i + 1)) c) : Except Failure (Unit × Ledger)) = .ok (u, L) →
      OnBindings K { w with store := L } := by
    intro w u L hw hL
    obtain ⟨-, rfl⟩ := Prod.mk.inj (Except.ok.inj hL)
    show K (w.store.noteDNSConfig (env.now (i + 1)) c).bindings w.calls
    rw [(noteDNSConfig_aside _ _ c).bindings]
    exact hw
  refine (triple_transact_quiet (hquiet (i + 1)) _).weaken (fun _ hw => hw) ?_ ?_
  · rintro u w ⟨w0, L, hw0, hL, rfl⟩
    exact hnote w0 u L hw0 hL
  · rintro w (hw | ⟨w0, u, L, hw0, hL, rfl⟩)
    · exact hw
    · exact hnote w0 u L hw0 hL

theorem keeps_saveExternally (c : Config) :
    Keeps (fun h : Machine => OnBindings K h.world) (saveExternallyManagedConfig env c) := by
  unfold saveExternallyManagedConfig
  refine .bind (.bind .fallible fun _ => .bind .get fun _ => .pure) fun st => ?_
  cases st.pending with
  | some => exact .fail
  | none => exact .bind (.attempt fun _ hh => hh) fun _ => keeps_onWorld (.attempt fun _ hw => hw)

theorem keeps_apply_bindings (hquiet : ∀ i, env.traffic i = []) (c : Config) :
    Keeps (fun h : Machine => OnBindings K h.world) (apply env i c) := by
  unfold apply
  refine .bind (keeps_onWorld (keeps_checkAndBind hquiet c)) fun _ => .bind (keeps_saveExternally c) fun _ => ?_
  exact keeps_onWorld (.update fun _ hw => hw)

/-- Before the lease file is written. -/
def Unwritten (B : Bucket String Binding) (before : List Call) (bindings : Bucket String Binding)
    (calls : List Call) : Prop :=
  bindings = B ∧ Since (fun _ _ _ => False) before calls

theorem triple_handBack_quiet (hquiet : ∀ i, env.traffic i = []) (j : HandoverJournal)
    (B : Bucket String Binding) (before : List Call) :
    Triple (OnBindings (Unwritten B before)) (handBack env j)
      (fun _ w => Since (ExportOf env j B) before w.calls)
      (fun w => Since (ExportOf env j B) before w.calls) := by
  have hnone : ∀ {calls : List Call}, Since (fun _ _ _ => False) before calls →
      Since (ExportOf env j B) before calls := fun h => h.imp fun _ _ _ h => h.elim
  unfold handBack
  refine .bind ((triple_raise_world _).exit fun _ hw => hnone hw.2) fun doc => ?_
  refine .bind ((triple_view_quiet (hquiet 2) _).exit fun _ hw => hnone hw.1.2) fun current => ?_
  refine .bind (R := fun _ w => Imported env j B w.store ∧ Since (fun _ _ _ => False) before w.calls)
    ((triple_transact_quiet (hquiet 3) _).weaken (fun _ hw => hw) ?_ ?_) fun _ => ?_
  · rintro u w ⟨w0, L, ⟨⟨hw0, hdoc⟩, hsnapshot⟩, hL, rfl⟩
    simp only [bind_eq_ok, pure_eq_ok, Prod.mk.injEq] at hL
    obtain ⟨L', himport, -, rfl⟩ := hL
    exact ⟨⟨doc, current, w0.store, w0.store, hdoc, hw0.1, hsnapshot, hw0.1, himport⟩, hw0.2⟩
  · rintro w (hw | ⟨w0, u, L, hw0, -, rfl⟩)
    · exact hnone hw.1.1.2
    · exact hnone hw0.1.1.2
  refine .bind ((triple_view_quiet (hquiet 4) _).exit fun _ hw => hnone hw.2) fun p => ?_
  obtain ⟨ledger, current⟩ := p
  refine .bind ((triple_raise_world _).exit fun _ hw => hnone hw.1.2) fun text => ?_
  have hexport : ∀ w : World, ((Imported env j B w.store ∧ Since (fun _ _ _ => False) before w.calls) ∧
      (do return (w.store, ← w.store.snapshot (env.now 4) "" "" 0)) = Except.ok (ledger, current)) ∧
      exportDNSmasq current = .ok text →
      Since (ExportOf env j B) before
        (.write w.legacy.running ledger (env.now 4) text :: w.calls) := by
    rintro w ⟨⟨⟨himported, hsince⟩, hview⟩, htext⟩
    simp only [bind_eq_ok, pure_eq_ok, Prod.mk.injEq] at hview
    obtain ⟨s, hs, rfl, rfl⟩ := hview
    exact (hnone hsince).write ⟨himported, rfl, s, hs, htext⟩
  refine .bind (R := fun _ w => Since (ExportOf env j B) before w.calls) ?_ fun _ => ?_
  · unfold writeLeases
    exact .bind (.update hexport) fun _ => Keeps.attempt fun _ hw => hw
  · refine .bind (R := fun _ w => Since (ExportOf env j B) before w.calls)
      ((triple_transact_quiet (hquiet 5) _).weaken (fun _ hw => hw) ?_ ?_) fun n => .pure fun _ hw => hw
    · rintro n w ⟨w0, L, hw0, -, rfl⟩
      exact hw0
    · rintro w (hw | ⟨w0, n, L, hw0, -, rfl⟩)
      · exact hw
      · exact hw0

/-- The lease files that a rollback writes are exports of the ledger after the import of what
is missing. -/
theorem since_rollback (hquiet : ∀ i, env.traffic i = []) {h : Machine} {r : Outcome Status Unit × Machine}
    (hr : r ∈ rollback env h) :
    Since (ExportOf env h.world.journal h.world.store.bindings) h.world.calls r.2.world.calls := by
  generalize hB : h.world.store.bindings = B
  generalize hbefore : h.world.calls = before
  generalize hj : h.world.journal = j
  have hnone : ∀ {calls : List Call}, Since (fun _ _ _ => False) before calls →
      Since (ExportOf env j B) before calls := fun h => h.imp fun _ _ _ h => h.elim
  let A : Machine → Prop := fun h => OnBindings (Unwritten B before) h.world
  let F : Machine → Prop := fun h => OnBindings (fun _ => Since (ExportOf env j B) before) h.world
  have hAF : ∀ h, A h → F h := fun _ hh => hnone hh.2
  suffices htriple : Triple (fun h => A h ∧ h.world.journal = j) (rollback env) (fun _ => F) F by
    refine htriple.every_end (fun _ _ hh => hh) ?_ hr
    refine ⟨⟨hB, ?_⟩, hj⟩
    show Since _ before h.world.calls
    rw [hbefore]
    exact since_refl
  unfold rollback
  refine .bind (R := fun j' h => A h ∧ j' = j) ?_ fun j' => ?_
  · refine triple_onWorld (P := fun w => OnBindings (Unwritten B before) w ∧ w.journal = j)
      (Q := fun j' w => OnBindings (Unwritten B before) w ∧ j' = j)
      (E := OnBindings fun _ => Since (ExportOf env j B) before) ?_
    unfold loadHandover
    refine .bind (Keeps.fallible.exit fun _ hw => hnone hw.1.2) fun _ => ?_
    exact .bind (R := fun w' w => OnBindings (Unwritten B before) w ∧ w'.journal = j) (.get fun _ hw => hw)
      fun w' => .pure fun _ hw => hw
  · refine .ite (fun _ => .pure fun h hh => hAF h hh.1) fun _ => ?_
    refine .of_state fun h0 hh0 => ?_
    obtain ⟨hA, rfl⟩ := hh0
    refine .bind (R := fun _ => A) (.get ?_) fun h' => .bind (Keeps.require.exit hAF) fun _ => ?_
    · rintro h rfl
      exact hA
    have hnote : Keeps (OnBindings (Unwritten B before)) (noteRollback j'.activated) :=
      .update fun w hw => ⟨hw.1, hw.2.other fun _ _ _ _ heq => by cases heq⟩
    refine .bind ((keeps_onWorld hnote).exit hAF) fun _ => ?_
    have hsave : Keeps (OnBindings (Unwritten B before)) (saveHandover { j' with phase := .rollingBack }) :=
      .attempt fun _ hw => hw
    refine .bind ((keeps_onWorld hsave).exit hAF) fun _ => ?_
    refine .bind ((keeps_apply_bindings hquiet _).exit hAF) fun _ => ?_
    refine .bind (R := fun _ => F) (triple_onWorld (P := OnBindings (Unwritten B before)) ?_) fun p => ?_
    · unfold handBackIfActivated
      refine .ite (fun _ => ?_) fun _ => .pure fun w hw => hnone hw.2
      exact .bind (triple_handBack_quiet hquiet j' B before) fun q => .pure fun _ hw => hw
    obtain ⟨exported, n⟩ := p
    -- What is left writes no lease file.
    refine Keeps.bind (keeps_apply_bindings hquiet _) fun _ => .bind (keeps_onWorld ?_) fun _ => ?_
    · unfold startLegacy
      refine .bind (.update fun w hw => hw.other fun _ _ _ _ heq => by cases heq) fun _ => ?_
      exact .bind (.attempt fun _ hw => hw) fun _ => .bind (.attempt fun _ hw => hw) fun _ => .fallible
    exact .bind (keeps_onWorld (.attempt fun _ hw => hw)) fun _ => keeps_onWorld (.attempt fun _ hw => hw)

end Rollback

/-! ### What comes back -/

theorem live_anti {b : Binding} {t t' : Int} (h : t ≤ t') (hb : b.live t' = true) : b.live t = true := by
  simp only [Binding.live, Bool.and_eq_true, decide_eq_true_eq] at hb ⊢
  exact ⟨by omega, hb.2⟩

/-- The occupied keys are those of the live bindings. -/
theorem mem_occupied {L : Ledger} (hL : Keyed L) {t : Int} {s : Snapshot}
    (hs : L.snapshot t "" "" 0 = .ok s) {k : String} :
    k ∈ occupied s ↔ ∃ b, L.bindings.get k = some b ∧ b.live t = true := by
  simp only [occupied, mem_map, mem_filter, mem_bindings_snapshot hs]
  constructor
  · rintro ⟨b, ⟨⟨k', b0, hget, rfl⟩, hlive⟩, hkey⟩
    have hb0 := live_of_liveState_at hlive
    rw [at_of_live hb0] at hkey
    have hk : k' = k := by rw [← hL k' b0 hget]; exact hkey
    exact ⟨b0, by rw [← hk]; exact hget, hb0⟩
  · rintro ⟨b, hget, hlive⟩
    refine ⟨b, ⟨⟨k, b, hget, at_of_live hlive⟩, ?_⟩, hL k b hget⟩
    simp only [Binding.live, Bool.and_eq_true] at hlive
    exact hlive.2

/-- The binding was in the ledger and live. -/
def WasLive (h : Machine) (t : Int) (b : Binding) : Prop :=
  (∃ k, h.world.store.bindings.get k = some b) ∧ b.live t = true

/-- Every lease of the original lease file that has not run out at the export has a live binding
at its address when the rollback looks for what is missing. -/
def NoneEnded (h : Machine) (env : Env) : Prop :=
  ∀ doc, parseDNSmasq h.world.journal.target h.world.journal.snapshot = .ok doc →
    ∀ l ∈ doc.leases, env.now 4 < importedEnd l →
      ∃ b, h.world.store.bindings.get (bindingKey l.scope l.address) = some b ∧
        b.live (env.now 2) = true

section Ledgers

variable {h : Machine} {env : Env} {L : Ledger}

/-- When nothing has ended, nothing is missing, so the export is of what was there. -/
theorem wasLive_of_noneEnded (hkeyed : Keyed h.world.store) (hclock : Monotone env.now)
    (himported : Imported env h.world.journal h.world.store.bindings L) (hnone : NoneEnded h env)
    {b : Binding} (hb : Exported L (env.now 4) b) : WasLive h (env.now 0) b := by
  obtain ⟨doc, s, L1, L2, hdoc, hL1, hs, hL2, himport⟩ := himported
  obtain ⟨⟨k, hk⟩, hlive, -⟩ := hb
  rcases get_of_import himport hk with hold | ⟨l, hl, hkey, hend⟩
  · rw [hL2] at hold
    exact ⟨⟨k, hold⟩, live_anti (hclock (by omega)) hlive⟩
  · obtain ⟨hmem, hmissing⟩ := mem_filter.mp hl
    have hends : env.now 4 < importedEnd l := by
      simp only [Binding.live, Bool.and_eq_true, decide_eq_true_eq] at hlive
      omega
    obtain ⟨b', hb', hlive'⟩ := hnone doc hdoc l hmem hends
    have hoccupied : bindingKey l.scope l.address ∈ occupied s := by
      rw [mem_occupied (keyed_of_bindings_eq hL1 hkeyed) hs]
      exact ⟨b', by rw [hL1]; exact hb', hlive'⟩
    simp [hoccupied] at hmissing

/-- What has ended and not run out comes back, if the export is in the second of the import. -/
theorem noneEnded_of_wasLive (hkeyed : Keyed h.world.store) (hclock : Monotone env.now)
    (hsecond : env.now 3 = env.now 4)
    (himported : Imported env h.world.journal h.world.store.bindings L)
    (hlive : ∀ b, Exported L (env.now 4) b → WasLive h (env.now 0) b) : NoneEnded h env := by
  obtain ⟨doc, s, L1, L2, hdoc, hL1, hs, hL2, himport⟩ := himported
  intro doc' hdoc' l hl hends
  obtain rfl : doc = doc' := Except.ok.inj (hdoc.symm.trans hdoc')
  have hoccupied := mem_occupied (keyed_of_bindings_eq hL1 hkeyed) hs
    (k := bindingKey l.scope l.address)
  rw [hL1] at hoccupied
  by_cases hmissing : bindingKey l.scope l.address ∈ occupied s
  · exact hoccupied.mp hmissing
  · -- The lease is imported, and the binding it leaves is exported, so it was there before.
    obtain ⟨b, hb, hblive, horigin⟩ := landed_of_import himport
      (mem_filter.mpr ⟨hl, by simpa using hmissing⟩) (by omega) (fun b hb => by
        rw [hL2] at hb
        by_contra hcon
        rw [Bool.not_eq_false] at hcon
        exact hmissing (hoccupied.mpr ⟨b, hb, live_anti (hclock (by omega)) hcon⟩))
    have hexported : Exported L (env.now 4) b := by
      refine ⟨⟨_, hb⟩, by rw [← hsecond]; exact hblive, ?_, ?_⟩
      · rw [horigin]
        decide
      · rw [horigin]
        decide
    obtain ⟨⟨k, hk⟩, -⟩ := hlive b hexported
    have hkL : b.key = bindingKey l.scope l.address :=
      (importDocument_saves himport).keyed (keyed_of_bindings_eq hL2 hkeyed) _ b hb
    rw [← hkeyed k b hk, hkL] at hk
    exact ⟨b, hk, live_anti (hclock (by omega)) hblive⟩

end Ledgers

theorem keyed_moves {h0 h : Machine} (hmoves : Moves h0 h) (hk : Keyed h0.world.store) :
    Keyed h.world.store := by
  refine invariant_of_run (I := fun h : Machine => Keyed h.world.store) hk ?_ hmoves
  intro h1 h2 hmove hk1
  cases hmove with
  | ledger store keyed => exact keyed hk1
  | _ => exact hk1

theorem keyed_of_reached {h : Machine} (hr : Reached h) : Keyed h.world.store :=
  invariant_of_reached (I := fun h => Keyed h.world.store) (fun _ _ _ _ _ => keyed_empty)
    (fun _ _ hmove hk => keyed_moves (.single hmove) hk) hr

/-- What the lease file of a rollback lists. `h` is the host the rollback begins on, also in
the middle of another step, and `new` are the calls it makes. The file has one line for each
exported binding. If no lease has ended early, each of these was live before the rollback, and
if import and export fall in one second, only then. -/
theorem exported_wasLive_iff {h₀ h : Machine} (hr : Reached h₀) (hmoves : Moves h₀ h) {env : Env}
    (hquiet : ∀ i, env.traffic i = []) (hclock : Monotone env.now)
    {r : Outcome Status Unit × Machine} (hrun : r ∈ rollback env h) {new : List Call}
    (hnew : r.2.world.calls = new ++ h.world.calls) {running : Bool} {L : Ledger} {t : Int}
    {text : String} (hwrite : Call.write running L t text ∈ new) :
    (∃ duid lines, text = leaseFileText duid lines ∧
      (∀ b, Exported L t b → ∃ line ∈ lines, exportLine b = .ok line) ∧
      ∀ line ∈ lines, ∃ b, Exported L t b ∧ exportLine b = .ok line) ∧
    (NoneEnded h env → ∀ b, Exported L t b → WasLive h (env.now 0) b) ∧
    (env.now 3 = env.now 4 → (∀ b, Exported L t b → WasLive h (env.now 0) b) → NoneEnded h env) := by
  obtain ⟨new', hnew', hwrites⟩ := since_rollback hquiet hrun
  obtain rfl : new = new' := append_cancel_right (hnew.symm.trans hnew')
  obtain ⟨himported, rfl, hexport⟩ := hwrites running L t text hwrite
  have hkeyed := keyed_moves hmoves (keyed_of_reached hr)
  refine ⟨lines_of_isExport hexport, fun hnone b hb => ?_, fun hsecond hlive => ?_⟩
  · exact wasLive_of_noneEnded hkeyed hclock himported hnone hb
  · exact noneEnded_of_wasLive hkeyed hclock hsecond himported hlive

/-! ### A lease that was released -/

/-- The call writes this lease file. -/
def writesFile (text : String) : Call → Bool
  | .write _ _ _ text' => text' = text
  | _ => false

/-- A lease file that was not written before the rollback was written by it. -/
theorem exists_new_write {env : Env} (hquiet : ∀ i, env.traffic i = []) {h : Machine}
    {r : Outcome Status Unit × Machine} (hr : r ∈ rollback env h) (text : String)
    (hold : h.world.calls.any (writesFile text) = false)
    (hnow : r.2.world.calls.any (writesFile text) = true) :
    ∃ new running L t, r.2.world.calls = new ++ h.world.calls ∧ Call.write running L t text ∈ new := by
  obtain ⟨new, hnew, -⟩ := since_rollback hquiet hr
  rw [hnew, any_append, hold, Bool.or_false] at hnow
  obtain ⟨call, hmem, hcall⟩ := any_eq_true.mp hnow
  cases call with
  | write running L t text' =>
    obtain rfl : text' = text := by simpa [writesFile] using hcall
    exact ⟨new, running, L, t, hnew, hmem⟩
  | rollback => cases hcall
  | start => cases hcall

/-- The lease file of 10.0.0.5, as the ledger exports it. -/
def leaseText : String := "7200 02:00:00:00:00:01 10.0.0.5 device-c25cb458d38b26d4 *\n"

/-- The client has released 10.0.0.5 during the takeover. -/
def releasedHost : Machine :=
  takenHost.withWorld { takenHost.world with
    store := (Operation.release "lan" "mac:02:00:00:00:00:01" "10.0.0.5" false).apply 10
      takenHost.world.store }

/-- The address is free, but the rollback hands it back as leased. -/
theorem released_lease_exported :
    ∃ (h : Machine) (env : Env), ∃ r new running L t, Reached h ∧ h.world.journal.activated = true ∧
      (∀ i, env.traffic i = []) ∧ r ∈ rollback env h ∧ r.2.world.calls = new ++ h.world.calls ∧
      Call.write running L t leaseText ∈ new ∧
      ∀ k b, h.world.store.bindings.get k = some b → b.live (env.now 0) = false := by
  have hrun : Prog.path (rollback (still 20)) 0 releasedHost ∈ rollback (still 20) releasedHost :=
    Prog.path_mem (by decide +kernel)
  obtain ⟨new, running, L, t, hnew, hwrite⟩ := exists_new_write (fun _ => rfl) hrun leaseText
    (by decide +kernel) (by decide +kernel)
  have hreached : Reached releasedHost :=
    .step reached_takenHost (.client ⟨10, .release "lan" "mac:02:00:00:00:00:01" "10.0.0.5" false⟩
      (by decide +kernel))
  refine ⟨releasedHost, still 20, _, new, running, L, t, hreached, by decide +kernel, fun _ => rfl, hrun,
    hnew, hwrite, fun k b hb => ?_⟩
  have hall : releasedHost.world.store.bindings.entries.all (fun e => !e.2.live 20) = true := by
    decide +kernel
  show b.live 20 = false
  simpa using all_eq_true.mp hall (k, b) (Bucket.mem_entries.mpr hb)

/-- The lease is still live, so the rollback of the takeover brings nothing back. -/
theorem exported_wasLive_takenHost :
    ∃ L t, IsExport L t leaseText ∧ ∀ b, Exported L t b → WasLive takenHost 10 b := by
  have hrun : Prog.path (rollback (still 10)) 0 takenHost ∈ rollback (still 10) takenHost :=
    Prog.path_mem (by decide +kernel)
  obtain ⟨new, running, L, t, hnew, hwrite⟩ := exists_new_write (fun _ => rfl) hrun leaseText
    (by decide +kernel) (by decide +kernel)
  obtain ⟨new', hnew', hwrites⟩ := since_rollback (fun _ => rfl) hrun
  obtain rfl : new = new' := append_cancel_right (hnew.symm.trans hnew')
  refine ⟨L, t, (hwrites running L t leaseText hwrite).2.2,
    (exported_wasLive_iff reached_takenHost .refl (fun _ => rfl) (fun _ _ _ => le_rfl) hrun hnew
      hwrite).2.1 fun doc hdoc l hl _ => ?_⟩
  have hall : (parseDNSmasq takenHost.world.journal.target takenHost.world.journal.snapshot).toOption.all
      (fun doc => doc.leases.all fun l =>
        ((takenHost.world.store.bindings.get (bindingKey l.scope l.address)).any (·.live 10))) = true := by
    decide +kernel
  rw [hdoc] at hall
  have hany := all_eq_true.mp hall l hl
  cases hget : takenHost.world.store.bindings.get (bindingKey l.scope l.address) with
  | none =>
    rw [hget] at hany
    cases hany
  | some b =>
    rw [hget] at hany
    exact ⟨b, rfl, hany⟩

end Ghostd.Proofs.Handover
