import Ghostd.Lib.Replay
import Ghostd.Proofs.Addressbook.Tenure

/-!
# `Ghostd.Proofs.Addressbook.Log`: every operation as a list of writes

`OpWrite` says of each operation what it can save, and `logs_apply` that the operation does
nothing to the tables but such saves. Between them it can add events without a binding, store
sightings and drop a stale entry of the expiry index (`Beside`). An invariant of runs is then
proved once for a save and once for such a step, whatever the operation: `apply_invariant`.
-/

set_option autoImplicit false

namespace Ghostd.Proofs.Addressbook

open Ghostd.Lib Ghostd.Addressbook

variable {L L' L₀ : Ledger} {now : Int} {o : Observation} {op : Operation}

/-! ### Steps beside the bindings -/

/-- A step that writes no binding. -/
structure Beside (L L' : Ledger) : Prop where
  bindings : L'.bindings = L.bindings
  indexes : L'.indexes = L.indexes
  dns : L'.dns = L.dns
  expiry : L'.expiry = L.expiry ∨ ∃ k, Stale L k ∧ L'.expiry = L.expiry.delete k
  logged : ∃ es : List Event, L'.events = L.events ++ es ∧ L'.sequence = L.sequence + es.length ∧
    es.map (·.id) = List.range' (L.sequence + 1) es.length ∧
    ∀ e ∈ es, e.binding = {} ∧ ∀ o, e.observation = some o → Seen o
  observations : ∀ k o, L'.observations.get k = some o →
    L.observations.get k = some o ∨ (bindingKey o.scope o.address = k ∧ Seen o)
  associations : ∀ k a, L'.associations.get k = some a →
    L.associations.get k = some a ∨ labelPattern a.name = true

theorem Beside.refl (L : Ledger) : Beside L L where
  bindings := rfl
  indexes := rfl
  dns := rfl
  expiry := Or.inl rfl
  logged := ⟨[], by simp, rfl, rfl, fun e he => by cases he⟩
  observations _ _ h := Or.inl h
  associations _ _ h := Or.inl h

theorem Aside.beside (h : Aside L L') : Beside L L' where
  bindings := h.bindings
  indexes := h.indexes
  dns := h.dns
  expiry := h.expiry
  logged := by
    obtain ⟨notes, hevents, hsequence, hids, hnotes⟩ := h.noted
    refine ⟨notes, hevents, hsequence, hids, fun e he => ⟨(hnotes e he).1, fun o ho => ?_⟩⟩
    rw [(hnotes e he).2] at ho
    cases ho
  observations k o ho := by
    rw [h.observations] at ho
    exact Or.inl ho
  associations := h.associations

theorem Tidy.beside (hL : Tidy L) (h : Beside L L') : Tidy L' where
  sound := hL.sound.of_tables h.bindings h.indexes
  fits hb := hL.fits (by rwa [h.bindings] at hb)
  sighted ho := by
    rcases h.observations _ _ ho with ho | ho
    · exact hL.sighted ho
    · exact ho

/-- An event with a sighting and no binding. -/
theorem beside_sighting {e : Event} (hbinding : e.binding = {}) (ho : ∀ o, e.observation = some o → Seen o) :
    Beside L (L.appendEvent e) where
  bindings := rfl
  indexes := rfl
  dns := rfl
  expiry := Or.inl rfl
  logged := by
    refine ⟨[{ e with id := L.sequence + 1 }], rfl, rfl, rfl, fun x hx => ?_⟩
    rw [List.mem_singleton.mp hx]
    exact ⟨hbinding, ho⟩
  observations _ _ h := Or.inl h
  associations _ _ h := Or.inl h

/-- A sighting that is stored. -/
theorem beside_sight (ho : Seen o) :
    Beside L { L with observations := L.observations.put (bindingKey o.scope o.address) o } where
  bindings := rfl
  indexes := rfl
  dns := rfl
  expiry := Or.inl rfl
  logged := ⟨[], by simp, rfl, rfl, fun e he => by cases he⟩
  observations k o' h := by
    rcases Bucket.get_put_eq_some.mp h with ⟨rfl, rfl⟩ | ⟨-, h⟩
    · exact Or.inr ⟨rfl, ho⟩
    · exact Or.inl h
  associations _ _ h := Or.inl h

/-! ### Transactions -/

/-- `L'` comes from `L₀` by saves of which `P` holds, and steps beside them. -/
inductive Logs (P : Ledger → Binding → EventKind → Prop) (now : Int) (L₀ : Ledger) : Ledger → Prop where
  | refl : Logs P now L₀ L₀
  | save {L : Ledger} {b : Binding} {kind : EventKind} (h : Logs P now L₀ L) (hP : P L b kind) :
      Logs P now L₀ (L.save now b kind)
  | beside {L L' : Ledger} (h : Logs P now L₀ L) (hL' : Beside L L') : Logs P now L₀ L'

theorem Saves.logs {P Q : Ledger → Binding → EventKind → Prop} (h : Saves P now L₀ L)
    (hPQ : ∀ L b kind, P L b kind → Q L b kind) : Logs Q now L₀ L := by
  induction h with
  | refl => exact .refl
  | save _ hP ih => exact .save ih (hPQ _ _ _ hP)
  | aside _ hL' ih => exact .beside ih hL'.beside

/-- The rule for invariants. The saves fit, so the ledger is tidy at each of them. -/
theorem Logs.invariant {P : Ledger → Binding → EventKind → Prop} (h : Logs P now L₀ L)
    (hfits : ∀ L b kind, Tidy L → P L b kind → Fits b) {I : Ledger → Prop}
    (beside : ∀ L L', Tidy L → Beside L L' → I L → I L')
    (save : ∀ L b kind, Tidy L → Fits b → P L b kind → I L → I (L.save now b kind)) (htidy : Tidy L₀)
    (h0 : I L₀) : Tidy L ∧ I L := by
  induction h with
  | refl => exact ⟨htidy, h0⟩
  | save _ hP ih =>
    have hb := hfits _ _ _ ih.1 hP
    exact ⟨ih.1.save hb _ _, save _ _ _ ih.1 hb hP ih.2⟩
  | beside _ hL' ih => exact ⟨ih.1.beside hL', beside _ _ ih.1 hL' ih.2⟩

/-- What is saved fits. -/
theorem opWrite_fits (hop : op.Admissible) (h0 : Tidy L₀) (hL : Tidy L) {b : Binding} {kind : EventKind}
    (h : OpWrite now L₀ op L b kind) : Fits b := by
  cases op with
  | allocate => exact (allocate_guard hop h).1
  | release scope client ip =>
    obtain ⟨⟨s, hs, rfl⟩, hplain⟩ := hop
    have hw : ReleaseWrite now s.id client ip L b kind := h
    exact release_fits hL (AcceptedScope.slash_not_mem hs) hplain hw
  | expire =>
    have hw : ExpireWrite now L b kind := h
    exact (expire_guard hL hw).1
  | allocatePrefix s client duidHex hint via commit =>
    have hw : DelegateWrite now s client duidHex hint via commit L b kind := h
    exact (delegate_guard hop hL hw).1
  | releasePrefix =>
    obtain ⟨b0, hget, rfl⟩ := h
    exact (h0.fits hget).released rfl rfl rfl rfl
  | importDocument c doc =>
    have hw : ImportWrite now c doc L b kind := h
    exact (import_guard hop.1 hop.2 hw).1
  | report =>
    obtain ⟨found, device, name, hfound, -, m, hm, rfl⟩ := h
    exact associated_fits h0 (reportMatches_matched h0 hfound m hm) L _ device name
  | repair =>
    have hw : RepairWrite now L b kind := h
    exact (repair_guard hL hw).1
  | abandonDelegations =>
    obtain ⟨b0, evidence, hget, rfl⟩ := h
    exact (h0.fits hget).released rfl rfl rfl rfl
  | observe | observeSwitch => exact h.elim

/-! ### Every operation -/

/-- Every operation is such a transaction. A sighting is steps beside the bindings. -/
theorem logs_apply (hL : Tidy L) (now : Int) (hop : op.Admissible) :
    Logs (OpWrite now L op) now L (op.apply now L) := by
  rcases apply_effect L now op with heq | ⟨-, hsaves⟩
  · rw [heq]
    refine (notes_invariant (I := fun L' => Tidy L' ∧ Logs (OpWrite now L op) now L L')
      (fun h ho => (h.1.sighted ho).2) (fun t ho => ho.closed t)
      (fun ho h => ⟨h.1.sight ho, .beside h.2 (beside_sight ho)⟩)
      (fun hbinding ho h => ⟨h.1.appendEvent _, .beside h.2 (beside_sighting hbinding ho)⟩)
      (seen_of_stepSightings fun _ hc => Sights.admissible hc hop) ⟨hL, .refl⟩).2
  · exact hsaves.logs fun _ _ _ hw => hw hL.sound

/-- An invariant that saves and steps beside them keep is kept by every operation. -/
theorem apply_invariant {I : Ledger → Prop} (hL : Tidy L) (hop : op.Admissible)
    (beside : ∀ L L', Tidy L → Beside L L' → I L → I L')
    (save : ∀ L1 b kind, Tidy L1 → Fits b → OpWrite now L op L1 b kind → I L1 → I (L1.save now b kind))
    (hI : I L) : Tidy (op.apply now L) ∧ I (op.apply now L) :=
  (logs_apply hL now hop).invariant (fun _ _ _ htidy hw => opWrite_fits hop hL htidy hw) beside save
    hL hI

end Ghostd.Proofs.Addressbook
