import Ghostd.Addressbook.Operation

/-!
# `Ghostd.Addressbook.Replicate`: mirroring another ledger

`internal/addressbook/replicate.go` without `SetStandby`, and `Events` of
`internal/addressbook/store.go`. The database of a standby is a ledger with a replica cursor in
its metadata: the number of the last leader event that was applied.

`ApplyReplicated` is one transaction. It fails only on a server identity that is no hexadecimal
text, and then nothing is applied. What it saves is stamped with the standby's own clock.
-/

set_option autoImplicit false

namespace Ghostd.Addressbook

open Ghostd.Lib

/-- `Events`: the events after a number, in order, up to a limit. -/
def Ledger.eventsAfter (L : Ledger) (after : Nat) (limit : Int) : Except Failure (List Event) := do
  refuseIf (limit < 1 || limit > 1000) (.error "limit must be 1..1000")
  pure ((L.events.filter fun e => e.id > after).take limit.toNat)

/-- A ledger with its replica cursor. -/
structure Replica where
  ledger : Ledger := {}
  cursor : Nat := 0

/-- One event of the leader. A sighting keeps its time; an event with neither a sighting nor a
binding leaves nothing. -/
def Ledger.applyEvent (now : Int) (L : Ledger) (e : Event) : Ledger :=
  match e.observation with
  | some o =>
    let L :=
      if e.kind = .observation then
        { L with observations := L.observations.put (bindingKey o.scope o.address) o }
      else L
    L.appendEvent { time := e.time, kind := e.kind, observation := some o }
  | none => if e.binding.scope ≠ "" then L.save now e.binding e.kind else L

/-- The body of the loop of `ApplyReplicated`: what the cursor has passed is skipped. -/
def Replica.applyOne (now : Int) (R : Replica) (e : Event) : Replica :=
  if e.id ≤ R.cursor then R else { ledger := R.ledger.applyEvent now e, cursor := e.id }

/-- The server identity after a snapshot: one that the snapshot has replaces it. -/
def Ledger.replicatedDUID (L : Ledger) (snap : Snapshot) : Except Failure (List Nat) :=
  if snap.serverDUID = "" then pure L.duid
  else
    match decodeHex (removeAll snap.serverDUID ':') with
    | some raw => pure raw
    | none => throw (.error "replicated server DUID: invalid hexadecimal text")

/-- What the events do not carry: the server identity, the nodes and the associations. -/
def Ledger.adoptSnapshot (L : Ledger) (snap : Snapshot) : Except Failure Ledger := do
  let duid ← L.replicatedDUID snap
  pure
    { L with
        duid := duid
        nodes := snap.nodes.foldl (fun nodes n => nodes.put n.id n) .empty
        associations := snap.associations.foldl (fun table a => table.put a.client a) .empty }

/-- `ApplyReplicated`. -/
def Replica.applyReplicated (now : Int) (R : Replica) (events : List Event) (snap : Option Snapshot) :
    Except Failure Replica := do
  let R := events.foldl (Replica.applyOne now) R
  match snap with
  | none => pure R
  | some snap => do
    let L ← R.ledger.adoptSnapshot snap
    pure { R with ledger := L }

end Ghostd.Addressbook
