import Ghostd.Addressbook.Manager
import Ghostd.Lib.Session
import Ghostd.State.Transaction

/-!
# `Ghostd.Replica.Promote`: a promotion and what can go wrong in it

`Follower.Promote` of `internal/replica/replica.go`, with `SaveExternallyManagedConfig` of
`internal/state/transaction.go` and the part of `Manager.Apply` that it runs. In
`Ghostd.Replica.Follower` a promotion is cut into steps between which a sync loop can come. Here it is
one call that meets faults: a file cannot be read, a listener cannot be opened, a save fails. The
faults are an argument, so that a statement can say for which of them a failed promotion leaves
everything as it was.

`Store.Save` writes a new file, renames it over the old one and syncs the directory. When that sync
fails, an error is returned and the file has been replaced. A program that stops keeps what it wrote,
so the call is a `Session`.

`ParseConfig` is a parameter. The sync loops are left out.
-/

set_option autoImplicit false

namespace Ghostd.Replica

open Ghostd.Lib Ghostd.Addressbook Ghostd.State Session

/-- How `Store.Save` ends: it replaces the file, it fails before the rename, or it fails after it. -/
inductive SaveResult where
  | saved | lost | replaced
  deriving DecidableEq, Repr

/-- What goes wrong during a promotion: reading the mirrored configuration, opening a listener, the
transaction of `NoteDNSConfig`, reading the record, and the two saves. -/
structure Faults where
  readMirror : Bool := false
  bind : Bool := false
  note : Bool := false
  readRecord : Bool := false
  saveRecord : SaveResult := .saved
  saveFile : SaveResult := .saved
  deriving DecidableEq, Repr

/-- The daemon of a standby: the file `ConfigMirror`, the record of the domain `dhcp-v1`, the live
configuration file, and the manager. -/
structure StandbyHost where
  mirror : Option String := none
  record : Option (DomainState String) := none
  file : Option String := none
  manager : Manager := {}
  standby : Bool := true
  promoted : Bool := false

namespace StandbyHost

/-- `Store.Domain`: the record, or the live file when no record was ever written. -/
def domain (h : StandbyHost) : DomainState String := h.record.getD { confirmed := h.file, pending := none }

/-- The running configuration enables a scope. -/
def serves (h : StandbyHost) : Bool := h.manager.config.scopes.any (·.enabled)

end StandbyHost

/-! ### The two saves -/

/-- `Store.Save`. -/
def writeFile (r : SaveResult) (write : StandbyHost → StandbyHost) (message : String) :
    Session StandbyHost String Unit := fun h =>
  match r with
  | .saved => (.ok (), write h)
  | .lost => (.error message, h)
  | .replaced => (.error message, write h)

/-- `SaveExternallyManagedConfig`. -/
def saveExternallyManagedConfig (faults : Faults) (raw : String) : Session StandbyHost String Unit := do
  stopIf faults.readRecord "state: read dhcp-v1-transaction.json"
  let d ← read StandbyHost.domain
  stopIf d.pending.isSome "finish pending dhcp-v1 configuration lease first"
  writeFile faults.saveRecord (fun h => { h with record := some { d with confirmed := some raw } })
    "state: write dhcp-v1-transaction.json"
  writeFile faults.saveFile (fun h => { h with file := some raw }) "state: write dhcp-config.json"

/-! ### The promotion -/

/-- The text of an error. -/
def failureText : Failure → String
  | .unavailable message | .error message | .panic message => message

/-- `Manager.Apply`. -/
def applyManager (faults : Faults) (now : Int) (c : Config) (save : Session StandbyHost String Unit) :
    Session StandbyHost String Unit := do
  ofExcept c.validate id
  let h ← read id
  match h.standby, c.scopes.find? (·.enabled) with
  | true, some s =>
    throw ("this authority is a warm standby; promote it before enabling scope " ++ s.id)
  | _, _ => do
    ofExcept (h.manager.store.admits now c) failureText
    stopIf faults.bind "DHCP bind"
    stopIf faults.note "note DNS configuration"
    modify fun h => { h with manager := { h.manager with store := h.manager.store.noteDNSConfig now c } }
    save
    modify fun h => { h with manager := { h.manager with config := c } }

/-- The end of a promotion that `Manager.Apply` refused. -/
def stayStandby (e : String) : Session StandbyHost String Unit := do
  modify fun h => { h with standby := true }
  throw ("promotion failed, still a standby: " ++ e)

/-- `Follower.Promote`. -/
def promote (parse : String → Option Config) (faults : Faults) (now : Int) :
    Session StandbyHost String Unit := do
  stopIf faults.readMirror "state: read replica-dhcp-config.json"
  let mirror ← read StandbyHost.mirror
  let raw := mirror.getD ""
  stopIf (raw = "") "no leader configuration has been mirrored yet; nothing to promote"
  match parse raw with
  | none => throw "invalid configuration"
  | some c => do
    modify fun h => { h with standby := false }
    tryCatch (applyManager faults now c (saveExternallyManagedConfig faults raw)) stayStandby
    modify fun h => { h with promoted := true }

/-! ### The restart -/

/-- The configuration that a restart brings back: `recoverDomain` writes the confirmed one, or the
snapshot of a pending lease, into the file, and `startAddressbook` reads it from there. -/
def restartConfig (parse : String → Option Config) (h : StandbyHost) : Option Config :=
  let raw := match h.domain.pending with
    | some p => p.snapshot
    | none => h.domain.confirmed
  match raw with
  | none => some {}
  | some raw => parse raw

/-- A restart with `--follow` starts as a standby: `Manager.Apply` of a standby refuses an enabled
scope. -/
def restartsAsStandby (parse : String → Option Config) (now : Int) (h : StandbyHost) : Bool :=
  (restartConfig parse h).any fun c =>
    !c.scopes.any (·.enabled) && (h.manager.store.admits now c).isOk

end Ghostd.Replica
