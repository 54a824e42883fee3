import Ghostd.State.Transaction

/-!
# `Ghostd.Rpc.Server`: the lease around an apply

The part of `internal/rpc/server.go` and `cmd/ghostd/main.go` that every domain shares:
`recoverExpired`, `begin`, `finishApply`, `Confirm` and `recoverDomain`. A domain's own
apply puts its snapshot and its mutation between these. Every program here runs under the
store lock, so two of them never interleave; a crash releases the lock in the middle.

The clock is an argument. `Confirm` reads it twice, before and after it read the live
state.
-/

set_option autoImplicit false

namespace Ghostd.Rpc

open Ghostd.Lib Ghostd.State

variable {L B : Type}

/-- `Server.recoverExpired`: an expired lease is rolled back before a new snapshot is
taken; a live one refuses the apply. -/
def recoverExpired (d : Domain L B) (now : Int) : Prog (Host L B) Status Unit := do
  let st ← loadDomain d
  match st.pending with
  | none => pure ()
  | some p =>
    if now < p.deadline then
      Prog.fail ⟨.failedPrecondition,
        "domain " ++ d.name ++ " has unconfirmed lease " ++ p.id ++ "; rollback due"⟩
    else
      match p.snapshot with
      | none =>
        Prog.fail ⟨.internal, "expired " ++ d.name ++ " lease " ++ p.id ++
          " has no rollback snapshot; pending record retained"⟩
      | some b => do
        onWorld (d.restore b)
        saveDomain d .recover { st with pending := none }

/-- `Server.begin`: record the lease, then arm its timer, before the first mutation. When
arming fails nothing has been changed yet, so the record is withdrawn again. -/
def begin (d : Domain L B) (now timeout : Int) (target : B) (peer id : String)
    (snapshot : B) : Prog (Host L B) Status Unit := do
  let st ← loadDomain d
  match st.pending with
  | some _ =>
    Prog.fail ⟨.failedPrecondition,
      "domain already has an unconfirmed apply; wait for rollback"⟩
  | none => do
    Prog.update fun h => { h with issued := id :: h.issued }
    saveDomain d .begin
      { st with
          pending := some
            { applied := false, id, deadline := now + timeout, snapshot := some snapshot,
              target, peer } }
    Prog.handle (arm id) fun e => do
      Prog.ignore (saveDomain d .abort { st with pending := none })
      Prog.fail e

/-- `Server.finishApply`: only a completed mutation can be confirmed. A record without a
pending lease would be a nil dereference here. -/
def finishApply (d : Domain L B) : Prog (Host L B) Status Unit := do
  Prog.fallible ⟨.deadlineExceeded, "apply did not complete in time; rollback stays armed"⟩
  let st ← loadDomain d
  match st.pending with
  | none => fun h => [(.crash, h)]
  | some p => saveDomain d .finishApply { st with pending := some { p with applied := true } }

/-- `Server.Confirm`, for the domain whose record it finds the lease in. The saved record
already disarms the rollback; stopping the timer is cleanup. -/
def confirm (d : Domain L B) (now later : Int) (peer leaseID : String) :
    Prog (Host L B) Status Unit := do
  let st ← loadDomain d
  match st.pending with
  | none => Prog.fail ⟨.failedPrecondition, "unknown or completed lease"⟩
  | some p => do
    Prog.require (p.id == leaseID) ⟨.failedPrecondition, "unknown or completed lease"⟩
    Prog.require (now < p.deadline)
      ⟨.failedPrecondition, "lease expired; rollback must complete"⟩
    Prog.require (p.peer != peer)
      ⟨.failedPrecondition, "confirm requires a fresh connection"⟩
    Prog.require p.applied
      ⟨.failedPrecondition, "apply did not complete; rollback must complete"⟩
    let confirmed ← onWorld (d.confirmed p)
    Prog.require (later < p.deadline)
      ⟨.failedPrecondition, "confirmation exceeded lease deadline; rollback stays armed"⟩
    saveDomain d .confirm { confirmed := some confirmed, pending := none }
    Prog.ignore (cancel leaseID)

/-- `recoverDomain`: a timer passes its lease, boot passes the empty identifier. A timer
whose lease is no longer the pending one does nothing. Boot without a pending lease
replays the confirmed bytes. -/
def recoverDomain (d : Domain L B) (leaseID : String) : Prog (Host L B) Status Unit := do
  let st ← loadDomain d
  match st.pending with
  | some p =>
    if leaseID = "" ∨ p.id = leaseID then do
      onWorld (d.recover p.snapshot)
      saveDomain d .recover { st with pending := none }
    else
      pure ()
  | none =>
    if leaseID = "" then onWorld (d.recover st.confirmed) else pure ()

/-- The boot of the daemon: recover the domain, then serve. An error ends the process. -/
def boot (d : Domain L B) (start : Prog L Status Unit) : Prog (Host L B) Status Unit := do
  recoverDomain d ""
  onWorld start
  Prog.update fun h => { h with serving := true, rebooted := false }

end Ghostd.Rpc
