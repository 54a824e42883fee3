import Ghostd.Proofs.Addressbook.Indexes

/-!
# `Ghostd.Proofs.Addressbook.Built`: ledgers that calls of one kind build

Some facts hold only while the program is used in a certain way: while its clock is right, say, or while
the addresses that come in are written in their one spelling. `BuiltBy Q` are the ledgers that come from
the empty one by operations of which `Q` holds, by a server identity, and by replication from such
ledgers.

`BuiltBy.every` is the rule for what holds of every binding of such a ledger: it is enough that an
operation keeps it in what it saves.
-/

set_option autoImplicit false

namespace Ghostd.Proofs.Addressbook

open Ghostd.Lib Ghostd.Addressbook

/-- The ledgers that operations of one kind build, at the instants they are called, with drawing or
adopting a server identity and replication between them. -/
inductive BuiltBy (Q : Int → Operation → Prop) : Ledger → Prop where
  | empty : BuiltBy Q {}
  | operate {L : Ledger} (h : BuiltBy Q L) {now : Int} {op : Operation} (hop : op.Admissible)
      (hprinted : Operation.Printed op) (hQ : Q now op) : BuiltBy Q (op.apply now L)
  | identify {L : Ledger} (h : BuiltBy Q L) (duid : List Nat) : BuiltBy Q { L with duid := duid }
  | replicate {R R' : Replica} {leader source : Ledger} (h : BuiltBy Q R.ledger) (hleader : BuiltBy Q leader)
      (hsource : BuiltBy Q source) {now clock time : Int} {scope ip : String} {events : List Event}
      {snap : Option Snapshot} (hevents : ∀ e ∈ events, e ∈ leader.events)
      (hsnap : ∀ s, snap = some s → source.snapshot clock scope ip time = .ok s)
      (hR : R.applyReplicated now events snap = .ok R') : BuiltBy Q R'.ledger

/-- The ledgers that the program builds. -/
def Built : Ledger → Prop := BuiltBy fun _ _ => True

/-- The server identity is no part of the tables. -/
theorem Orderly.identify {L : Ledger} (h : Orderly L) (duid : List Nat) : Orderly { L with duid := duid } where
  tidy := ⟨⟨h.tidy.sound.keyed, h.tidy.sound.indexed⟩, h.tidy.fits, h.tidy.sighted⟩
  legible := ⟨h.legible.stored, h.legible.named⟩
  logged := h.logged
  seen := h.seen
  recorded := h.recorded
  exact hends := ⟨(h.exact hends).expiry, (h.exact hends).indexes, (h.exact hends).dns⟩

theorem BuiltBy.orderly {Q : Int → Operation → Prop} {L : Ledger} (h : BuiltBy Q L) : Orderly L := by
  induction h with
  | empty => exact orderly_empty
  | operate _ hop hprinted _ ih => exact ih.apply _ hop hprinted
  | identify _ duid ih => exact ih.identify duid
  | replicate _ _ _ hevents hsnap hR ih ihleader ihsource =>
    exact ih.replicate ihleader ihsource hevents hsnap hR

/-! ### What holds of every binding -/

/-- Every binding of the table and of the log has a property. The events of the log that are about
something else have the zero binding. -/
structure Every (P : Binding → Prop) (L : Ledger) : Prop where
  stored : ∀ {k b}, L.bindings.get k = some b → P b
  logged : ∀ e ∈ L.events, e.binding = {} ∨ P e.binding

section Every

variable {P : Binding → Prop}

theorem every_empty : Every P {} where
  stored h := by simp at h
  logged _ he := by cases he

theorem Every.save {L : Ledger} (h : Every P L) {b : Binding} (hb : P b) (now : Int) (kind : EventKind) :
    Every P (L.save now b kind) where
  stored hget := by
    rcases get_save_eq_some.mp hget with ⟨-, rfl⟩ | ⟨-, hget⟩
    · exact hb
    · exact h.stored hget
  logged e he := by
    rcases mem_events_save he with he | ⟨rfl, -⟩
    · exact h.logged e he
    · exact Or.inr hb

theorem Every.beside {L L' : Ledger} (h : Every P L) (hL' : Beside L L') : Every P L' where
  stored hget := h.stored (by rwa [hL'.bindings] at hget)
  logged e he := by
    obtain ⟨es, hevents, -, -, hes⟩ := hL'.logged
    rw [hevents] at he
    rcases List.mem_append.mp he with he | he
    · exact h.logged e he
    · exact Or.inl (hes e he).1

theorem Every.logs {W : Ledger → Binding → EventKind → Prop} {now : Int} {L0 L : Ledger} (h0 : Every P L0)
    (h : Logs W now L0 L) (hW : ∀ L b kind, Every P L → W L b kind → P b) : Every P L := by
  induction h with
  | refl => exact h0
  | save _ hb ih => exact ih.save (hW _ _ _ ih hb) _ _
  | beside _ hL' ih => exact ih.beside hL'

/-- The rule: whatever an operation of the kind saves has the property, if what is there has it. -/
theorem BuiltBy.every {Q : Int → Operation → Prop} {L : Ledger} (h : BuiltBy Q L)
    (hsave : ∀ {now : Int} {op : Operation} {L0 L : Ledger} {b : Binding} {kind : EventKind}, Q now op →
      op.Admissible → Tidy L0 → Every P L0 → Every P L → OpWrite now L0 op L b kind → P b) : Every P L := by
  induction h with
  | empty => exact every_empty
  | operate h hop _ hQ ih =>
    exact ih.logs (logs_apply h.orderly.tidy _ hop) fun L b kind hL hw => hsave hQ hop h.orderly.tidy ih hL hw
  | identify _ _ ih => exact ⟨ih.stored, ih.logged⟩
  | replicate _ hleader hsource hevents hsnap hR ih ihleader _ =>
    have hbindings := applyReplicated_logs (P := P) hleader.orderly hsource.orderly hevents
      (fun e he hscope => (ihleader.logged e (hevents e he)).resolve_left fun hzero => hscope (by rw [hzero]))
      hsnap hR
    exact ih.logs hbindings fun _ _ _ _ hb => hb

end Every

end Ghostd.Proofs.Addressbook
