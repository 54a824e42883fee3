import Ghostd.Proofs.Addressbook.Export
import Ghostd.Proofs.Addressbook.Tenure

/-!
# `Ghostd.Proofs.Addressbook.Import`: what an import leaves in the ledger

Every binding is stored under its own key, whatever the operations are called with (`Keyed`).
An import touches only the keys of its leases, and what it stores there ends with the lease
(`get_of_import`). In the other direction, a lease that has not run out leaves a live binding
of the import at its key, if nothing was live there before (`landed_of_import`).
-/

set_option autoImplicit false

namespace Ghostd.Proofs.Addressbook

open Ghostd.Lib Ghostd.Addressbook

/-! ### Keys -/

/-- Every binding is stored under its own key. -/
def Keyed (L : Ledger) : Prop := ∀ k b, L.bindings.get k = some b → b.key = k

theorem keyed_empty : Keyed {} := fun k b h => by simp at h

theorem keyed_of_bindings_eq {L L' : Ledger} (h : L'.bindings = L.bindings) (hL : Keyed L) :
    Keyed L' := by
  intro k b hb
  rw [h] at hb
  exact hL k b hb

theorem Keyed.save {L : Ledger} (hL : Keyed L) (now : Int) (b : Binding) (kind : EventKind) :
    Keyed (L.save now b kind) := by
  intro k b' h
  rcases get_save_eq_some.mp h with ⟨rfl, rfl⟩ | ⟨-, h⟩
  · rfl
  · exact hL k b' h

theorem Saves.keyed {P : Ledger → Binding → EventKind → Prop} {now : Int} {L L' : Ledger}
    (h : Saves P now L L') (hL : Keyed L) : Keyed L' :=
  h.invariant (fun _ _ haside => keyed_of_bindings_eq haside.bindings)
    (fun _ b kind _ hL1 => hL1.save now b kind) hL

/-- Every operation keeps the keys, also with arguments nobody has checked. -/
theorem keyed_apply {L : Ledger} (hL : Keyed L) (now : Int) (op : Operation) :
    Keyed (op.apply now L) := by
  rcases apply_effect L now op with heq | ⟨-, hsaves⟩
  · exact keyed_of_bindings_eq (by rw [heq]; exact (notes_rest now L _).1) hL
  · exact hsaves.keyed hL

theorem keyed_run {L : Ledger} (hL : Keyed L) (steps : List Step) : Keyed (run L steps) := by
  unfold run
  exact foldl_invariant (I := Keyed) (fun s _ _ hL => keyed_apply hL s.time s.op) hL

/-! ### What an import writes -/

section Import

variable {now : Int} {c : Config} {doc : ImportDocument} {L L' : Ledger}

/-- A lease is skipped because it has run out or something live is at its address, or it is
stored under its key as a live binding of the import. -/
theorem importLease_cases {l : ImportedLease} (h : importLease now c doc L l = .ok L') :
    (L' = L ∧ (importedEnd l ≤ now ∨ (L.readBinding l.scope l.address).live now = true)) ∨
      ∃ b, L' = L.save now b .import ∧ b.key = bindingKey l.scope l.address ∧
        b.endsAt = importedEnd l ∧ now < importedEnd l ∧ liveState b.state = true ∧
        b.origin = .dnsmasqImport := by
  simp only [importLease, bind_eq_ok] at h
  obtain ⟨⟨s, mac, client⟩, -, h⟩ := h
  simp only at h
  split at h
  · rename_i hends
    rw [pure_eq_ok] at h
    exact Or.inl ⟨h.symm, Or.inl hends⟩
  · rename_i hends
    have hnow : now < importedEnd l := by
      simpa using hends
    split at h
    · split at h
      · rename_i hdeclined
        rw [pure_eq_ok] at h
        refine Or.inl ⟨h.symm, Or.inr ?_⟩
        rw [Binding.live_eq]
        simp [hdeclined]
      · split at h
        · simp at h
        · rw [pure_eq_ok] at h
          exact Or.inr ⟨_, h.symm, rfl, rfl, hnow, rfl, rfl⟩
    · split at h
      · rename_i hkeep
        rw [pure_eq_ok] at h
        exact Or.inl ⟨h.symm, Or.inr hkeep.1⟩
      · split at h
        · simp at h
        · rw [pure_eq_ok] at h
          obtain ⟨hscope, haddress, -, -, hstate, horigin, hend⟩ := importedBinding_fields now c s l
            mac client (importedEnd l) (L.readBinding l.scope l.address)
          refine Or.inr ⟨_, h.symm, ?_, hend, hnow, by rw [hstate]; rfl, horigin⟩
          rw [Binding.key, hscope, haddress]

theorem importDocument_loop (h : L.importDocument now c doc = .ok L') :
    ∃ L1, L1.bindings = L.bindings ∧ doc.leases.foldlM (importLease now c doc) L1 = .ok L' := by
  simp only [Ledger.importDocument, bind_eq_ok, refuseIf_eq_ok, exists_const] at h
  obtain ⟨-, L1, hadopt, h⟩ := h
  refine ⟨L1, ?_, h⟩
  unfold Ledger.adoptServer at hadopt
  split at hadopt
  · exact (adoptDUID_aside hadopt).bindings
  · rw [pure_eq_ok] at hadopt
    rw [← hadopt]

/-- After an import a binding is one that was there before, or it ends with one of the leases
and is stored under its key. -/
theorem get_of_import (h : L.importDocument now c doc = .ok L') {k : String} {b : Binding}
    (hb : L'.bindings.get k = some b) :
    L.bindings.get k = some b ∨
      ∃ l ∈ doc.leases, bindingKey l.scope l.address = k ∧ b.endsAt = importedEnd l := by
  obtain ⟨L1, hsame, hloop⟩ := importDocument_loop h
  refine foldlM_invariant (I := fun L' => ∀ b, L'.bindings.get k = some b →
    L.bindings.get k = some b ∨
      ∃ l ∈ doc.leases, bindingKey l.scope l.address = k ∧ b.endsAt = importedEnd l)
    ?_ (fun b hb => Or.inl (by rwa [hsame] at hb)) hloop b hb
  intro l hl L2 L3 hL2 hstep b hb
  rcases importLease_cases hstep with ⟨rfl, -⟩ | ⟨b', rfl, hkey, hend, -⟩
  · exact hL2 b hb
  · rcases get_save_eq_some.mp hb with ⟨hk, rfl⟩ | ⟨-, hb⟩
    · exact Or.inr ⟨l, hl, by rw [hk, hkey], hend⟩
    · exact hL2 b hb

/-- A live binding of an import is stored at the key. -/
def Landed (now : Int) (k : String) (L : Ledger) : Prop :=
  ∃ b, L.bindings.get k = some b ∧ b.live now = true ∧ b.origin = .dnsmasqImport

/-- A lease that has not run out lands, unless something else was live at its address. -/
theorem landed_of_import (h : L.importDocument now c doc = .ok L') {l : ImportedLease}
    (hl : l ∈ doc.leases) (hends : now < importedEnd l)
    (hfree : ∀ b, L.bindings.get (bindingKey l.scope l.address) = some b → b.live now = false) :
    Landed now (bindingKey l.scope l.address) L' := by
  obtain ⟨L1, hsame, hloop⟩ := importDocument_loop h
  generalize hk : bindingKey l.scope l.address = k at hfree ⊢
  -- Until the key is written it is free, and what is written there is live and of the import.
  have hstep : ∀ l' L2 L3, importLease now c doc L2 l' = .ok L3 →
      L3.bindings.get k = L2.bindings.get k ∨ Landed now k L3 := by
    intro l' L2 L3 hstep
    rcases importLease_cases hstep with ⟨rfl, -⟩ | ⟨b, rfl, hkey, hend, hnow, hlive, horigin⟩
    · exact Or.inl rfl
    · by_cases hkb : k = b.key
      · refine Or.inr ⟨b, by rw [get_save, if_pos hkb], ?_, horigin⟩
        simp only [Binding.live, hlive, Bool.and_true, decide_eq_true_eq]
        omega
      · exact Or.inl (by rw [get_save, if_neg hkb])
  have hlanded : ∀ l' L2 L3, Landed now k L2 → importLease now c doc L2 l' = .ok L3 → Landed now k L3 := by
    intro l' L2 L3 hL2 h3
    rcases hstep l' L2 L3 h3 with hget | hland
    · obtain ⟨b, hb, hlive⟩ := hL2
      exact ⟨b, by rw [hget, hb], hlive⟩
    · exact hland
  refine foldlM_establish hl
    (I := fun L2 => (∀ b, L2.bindings.get k = some b → b.live now = false) ∨ Landed now k L2)
    ?_ ?_ (fun l' _ L2 L3 => hlanded l' L2 L3) (Or.inl (by rw [hsame]; exact hfree)) hloop
  · intro l' _ L2 L3 hL2 h3
    rcases hL2 with hL2 | hL2
    · rcases hstep l' L2 L3 h3 with hget | hland
      · exact Or.inl (by rw [hget]; exact hL2)
      · exact Or.inr hland
    · exact Or.inr (hlanded l' L2 L3 hL2 h3)
  · intro L2 L3 hL2 h3
    rcases hL2 with hL2 | hL2
    · rcases importLease_cases h3 with ⟨rfl, hdone | hlive⟩ | ⟨b, rfl, hkey, hend, -, hlive, horigin⟩
      · omega
      · -- What is live at the address is not the zero binding, so it is stored there.
        have hget : L3.bindings.get k = some (L3.readBinding l.scope l.address) := by
          rw [← hk]
          refine get_of_readBinding ?_
          intro hunset
          simp [Binding.live, hunset, liveState] at hlive
        rw [hL2 _ hget] at hlive
        cases hlive
      · refine ⟨b, by rw [get_save, if_pos (by rw [hkey, hk])], ?_, horigin⟩
        simp only [Binding.live, hlive, Bool.and_true, decide_eq_true_eq]
        omega
    · exact hlanded l L2 L3 hL2 h3

end Import

end Ghostd.Proofs.Addressbook
