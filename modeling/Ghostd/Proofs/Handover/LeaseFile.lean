import Ghostd.Proofs.Handover.Authority

/-!
# `Ghostd.Proofs.Handover.LeaseFile`: the lease file of a rollback

What the legacy allocator finds when a rollback starts it, and when the file is written.

The lease file of a takeover that was not activated is never written, so it is still the
original one (`Kept.untouched`). For one that was activated, `Start` is only called after
the export of the same rollback has replaced the file, so no lease of the ledger is missing
from it (`keeps_leases`).

A rollback is always resumed from its beginning. One that is resumed after `Start` has
succeeded writes the file under the running allocator (`overwritten_grant`), and only such a
one does (`write_of_stopped`).
-/

set_option autoImplicit false

namespace Ghostd.Proofs.Handover

open Ghostd.Lib Ghostd.State Ghostd.Addressbook Ghostd.Handover Ghostd.Proofs.Addressbook List

/-! ### No lease is lost -/

/-- The legacy allocator was started on the right lease file. -/
def Handed : Call → Prop
  | .start activated original leases exported =>
    (activated = true → ∃ L t, exported = some (L, t) ∧ IsExport L t leases) ∧
      (activated = false → leases = original)
  | _ => True

/-- The lease file is the original one until the takeover is activated, and every start was on
the right one. -/
structure Kept (h : Machine) : Prop where
  untouched : h.world.journal.phase.idle = false → h.world.journal.activated = false →
    h.world.legacy.leases = h.world.original
  handed : ∀ call ∈ h.world.calls, Handed call

theorem kept_move {h h' : Machine} (hmove : Move h h') (hk : Kept h) : Kept h' := by
  cases hmove with
  | openJournal => exact ⟨fun _ _ => rfl, hk.handed⟩
  | journal j follows =>
    exact ⟨fun hphase hactivated =>
      hk.untouched (follows.active hphase) (follows.activated hactivated), hk.handed⟩
  | noteRollback => exact ⟨hk.untouched, forall_mem_cons.mpr ⟨trivial, hk.handed⟩⟩
  | noteWrite =>
    exact ⟨hk.untouched, forall_mem_cons.mpr ⟨trivial, hk.handed⟩⟩
  | leases text activated =>
    -- The file is only written once the journal says so.
    refine ⟨fun _ hactivated => ?_, hk.handed⟩
    have : h.world.journal.activated = false := hactivated
    rw [activated] at this
    cases this
  | noteStart exported active handed =>
    exact ⟨hk.untouched, forall_mem_cons.mpr ⟨⟨handed, hk.untouched active⟩, hk.handed⟩⟩
  | legacyWrites => exact ⟨fun _ _ => rfl, hk.handed⟩
  | _ => exact ⟨hk.untouched, hk.handed⟩

theorem kept_of_reached {h : Machine} (hr : Reached h) : Kept h := by
  refine invariant_of_reached ?_ (fun _ _ hmove => kept_move hmove) hr
  intro file confirmed legacy _ _
  exact ⟨fun _ _ => rfl, fun call hcall => by cases hcall⟩

/-- When a rollback starts the legacy allocator, the lease file has the line of every binding
that is live at the export, and the file of a takeover that was not activated is the original
one. -/
theorem keeps_leases {h : Machine} (hr : Reached h) {activated : Bool} {original leases : String}
    {exported : Option (Ledger × Int)}
    (hstart : Call.start activated original leases exported ∈ h.world.calls) :
    (activated = true → ∃ L t, exported = some (L, t) ∧
      ∀ b, Exported L t b → ∃ line, Lists leases line ∧ Carries b line) ∧
    (activated = false → leases = original) := by
  obtain ⟨hhanded, horiginal⟩ := (kept_of_reached hr).handed _ hstart
  refine ⟨fun hactivated => ?_, horiginal⟩
  obtain ⟨L, t, hexported, hexport⟩ := hhanded hactivated
  exact ⟨L, t, hexported, fun b hb => exists_line hexport hb⟩

/-- The takeover was rolled back. -/
def rolledBackHost : Machine := settle (Prog.path (rollback (still 10)) 0 takenHost)

theorem reached_rolledBackHost : Reached rolledBackHost :=
  .step reached_takenHost (.rollback (still 10) (by decide +kernel)
    (Prog.path_mem (by decide +kernel)))

/-- The legacy allocator is started on this lease file, after a takeover that was activated. -/
def startsOn (text : String) : Call → Bool
  | .start activated _ leases _ => activated && leases = text
  | _ => false

/-- The one lease of the ledger is in the file that the rollback leaves. -/
theorem keeps_leases_rolledBackHost :
    ∃ original leases exported, Call.start true original leases exported ∈ rolledBackHost.world.calls ∧
      leases = "7200 02:00:00:00:00:01 10.0.0.5 device-c25cb458d38b26d4 *\n" ∧
      ∃ L t, exported = some (L, t) ∧
        ∀ b, Exported L t b → ∃ line, Lists leases line ∧ Carries b line := by
  have hany : rolledBackHost.world.calls.any
      (startsOn "7200 02:00:00:00:00:01 10.0.0.5 device-c25cb458d38b26d4 *\n") = true := by
    decide +kernel
  obtain ⟨call, hmem, hcall⟩ := any_eq_true.mp hany
  cases call with
  | start activated original leases exported =>
    obtain ⟨rfl, htext⟩ : activated = true ∧ leases = _ := by simpa [startsOn] using hcall
    exact ⟨original, leases, exported, hmem, htext, (keeps_leases reached_rolledBackHost hmem).1 rfl⟩
  | rollback => cases hcall
  | write => cases hcall

/-! ### Writing under a running allocator -/

/-- The lease file was written under a running allocator only after a rollback of an activated
takeover had begun under one. -/
def Late (h : Machine) : Prop :=
  ∀ L t text, Call.write true L t text ∈ h.world.calls → Call.rollback true true ∈ h.world.calls

theorem late_move {h h' : Machine} (hmove : Move h h') (hl : Late h) : Late h' := by
  -- A call that is not such a write is one more in the history.
  have hcons : ∀ call, (∀ L t text, Call.write true L t text ≠ call) →
      Late (h.withWorld { h.world with calls := call :: h.world.calls }) := by
    intro call hcall L t text hmem
    rcases mem_cons.mp hmem with heq | hmem
    · exact absurd heq (hcall L t text)
    · exact mem_cons_of_mem _ (hl L t text hmem)
  cases hmove with
  | noteRollback => exact hcons _ fun L t text heq => by cases heq
  | noteStart => exact hcons _ fun L t text heq => by cases heq
  | noteWrite L t text isExport late =>
    intro L' t' text' hmem
    rcases mem_cons.mp hmem with heq | hmem
    · injection heq with hrunning
      exact mem_cons_of_mem _ (late hrunning.symm)
    · exact mem_cons_of_mem _ (hl L' t' text' hmem)
  | _ => exact hl

theorem late_of_reached {h : Machine} (hr : Reached h) : Late h := by
  refine invariant_of_reached ?_ (fun _ _ hmove => late_move hmove) hr
  intro file confirmed legacy _ _ L t text hmem
  cases hmem

/-- In a run whose rollbacks of activated takeovers all begin with the legacy allocator
stopped, the lease file is never written while it runs. -/
theorem write_of_stopped {h : Machine} (hr : Reached h)
    (hstopped : ∀ running, Call.rollback true running ∈ h.world.calls → running = false)
    {running : Bool} {L : Ledger} {t : Int} {text : String}
    (hwrite : Call.write running L t text ∈ h.world.calls) : running = false := by
  cases running with
  | false => rfl
  | true => exact hstopped true (late_of_reached hr L t text hwrite)

/-- Whether the legacy allocator runs when its lease file is written. -/
def writtenWhile : Call → Option Bool
  | .write running .. => some running
  | _ => none

/-- A rollback that was activated finds the legacy allocator stopped. -/
def findsStopped : Call → Bool
  | .rollback activated running => !(activated && running)
  | _ => true

/-- The takeover was rolled back with the legacy allocator stopped until the end. -/
theorem write_of_stopped_rolledBackHost :
    ∃ running L t text, Call.write running L t text ∈ rolledBackHost.world.calls ∧ running = false := by
  have hwrites : rolledBackHost.world.calls.any (fun call => (writtenWhile call).isSome) = true := by decide +kernel
  have hstopped : rolledBackHost.world.calls.all findsStopped = true := by decide +kernel
  obtain ⟨call, hmem, hcall⟩ := any_eq_true.mp hwrites
  cases call with
  | write running L t text =>
    refine ⟨running, L, t, text, hmem, write_of_stopped reached_rolledBackHost ?_ hmem⟩
    intro running' hrollback
    simpa [findsStopped] using all_eq_true.mp hstopped _ hrollback
  | rollback => cases hcall
  | start => cases hcall

/-- The rollback has started the legacy allocator, but the journal could not be saved. -/
def unsavedHost : Machine := settle (Prog.path (rollback (still 10)) 5 takenHost)

/-- The lease file after the legacy allocator has granted 10.0.0.6. -/
def grantedText : String :=
  "7200 02:00:00:00:00:01 10.0.0.5 * *\n7210 02:00:00:00:00:02 10.0.0.6 * *\n"

def grantedHost : Machine :=
  unsavedHost.withWorld { unsavedHost.world with
    original := grantedText, legacy := { unsavedHost.world.legacy with leases := grantedText } }

theorem reached_grantedHost : Reached grantedHost := by
  have hunsaved : Reached unsavedHost :=
    .step reached_takenHost (.rollback (still 10) (by decide +kernel)
      (Prog.path_mem (by decide +kernel)))
  exact .step hunsaved (.legacyWrites grantedText (by decide +kernel))

/-- The resumed rollback writes the lease file under the running allocator, and the lease it
has granted since its start is gone. -/
theorem overwritten_grant :
    ∃ h : Machine, Reached h ∧ (∃ L t text, Call.write true L t text ∈ h.world.calls) ∧
      grantedHost.world.legacy.running = true ∧ grantedHost.world.legacy.leases = grantedText ∧
      HostStep grantedHost h ∧
      h.world.legacy.leases = "7200 02:00:00:00:00:01 10.0.0.5 device-c25cb458d38b26d4 *\n" := by
  have hstep : HostStep grantedHost (settle (Prog.path (rollback (still 20)) 0 grantedHost)) :=
    .rollback (still 20) (by decide +kernel) (Prog.path_mem (by decide +kernel))
  refine ⟨_, .step reached_grantedHost hstep, ?_, by decide +kernel, rfl, hstep, by decide +kernel⟩
  have hwrites : (settle (Prog.path (rollback (still 20)) 0 grantedHost)).world.calls.any
      (fun call => writtenWhile call = some true) = true := by
    decide +kernel
  obtain ⟨call, hmem, hcall⟩ := any_eq_true.mp hwrites
  cases call with
  | write running L t text =>
    obtain rfl : running = true := Option.some.inj (of_decide_eq_true hcall)
    exact ⟨L, t, text, hmem⟩
  | rollback => cases of_decide_eq_true hcall
  | start => cases of_decide_eq_true hcall

end Ghostd.Proofs.Handover
