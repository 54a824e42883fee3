import Ghostd.Netconfig.Apply
import Ghostd.Rpc.Server

/-!
# `Ghostd.Rpc.Netconfig`: the network domain under its lease

`applyNetconfig` of `internal/rpc/server.go` and the netconfig branches of `recoverExpired` and of
`recoverDomain`. The bytes this domain stores are an undo record, as the snapshot of a lease, or a
target, as what is confirmed and what a lease is for. `recoverDomain` is told whether it rolls
back or replays. Here the bytes say it: a snapshot is always an undo record and a confirmed target
never is.

`NetStep` lists what can happen to the host. A reboot keeps the files and the records and loses
the runtime state: it can be anything afterwards, and nothing has been run.
-/

set_option autoImplicit false

namespace Ghostd.Rpc

open Ghostd.Lib Ghostd.State Ghostd.Netconfig

/-- The bytes of a netconfig record. -/
inductive NetBlob where
  | undo (u : Undo)
  | target (ds : DesiredState)

/-- An error of the package, with a code and what the caller puts before it. -/
def asStatus {α : Type} (code : Code) (lead : String) (m : NetProg α) : Prog NetHost Status α :=
  Prog.handle m fun e => Prog.fail ⟨code, lead ++ e⟩

section

variable (glob : String → String → Option Bool)

/-- The restore of `recoverDomain`. -/
def recoverNetconfig : Option NetBlob → Prog NetHost Status Unit
  | none => pure ()
  | some (.undo u) => asStatus .unknown "" (rollback u)
  | some (.target ds) => asStatus .unknown "" (Netconfig.restore glob (some ds))

/-- The netconfig domain. `Confirm` records the target of the lease. -/
def netconfig : Domain NetHost NetBlob where
  name := "netconfig"
  legacy h := h.stateFile.map .target
  restore b := recoverNetconfig glob (some b)
  recover := recoverNetconfig glob
  confirmed p := pure p.target
  lose := id

/-- A netconfig request that parsed. -/
structure NetRequest where
  desired : DesiredState
  seconds : Int
  peer : String

/-- `Server.applyNetconfig`. -/
def applyNetconfig (now : Int) (req : NetRequest) (id : String) : Prog (Host NetHost NetBlob) Status Unit := do
  Prog.fallible ⟨.invalidArgument, "rpc: desired_state_json"⟩
  let _ ← onWorld (asStatus .invalidArgument "rpc: " (Prog.lift req.desired.validate))
  recoverExpired (netconfig glob) now
  let u ← onWorld (asStatus .internal "snapshot: " (snapshot glob req.desired))
  begin (netconfig glob) now req.seconds (.target req.desired) req.peer id (.undo u)
  onWorld (asStatus .internal "rpc: " (applyState glob req.desired))
  finishApply (netconfig glob)

/-- A host whose daemon never ran. -/
def netHost (world : NetHost) : Host NetHost NetBlob where
  world := world
  record := none
  timers := []
  serving := false
  rebooted := false
  issued := []
  saves := []

/-- The host after a reboot. -/
def rebootNet (r : Runtime) (h : Host NetHost NetBlob) : Host NetHost NetBlob :=
  { h with serving := false, rebooted := true, timers := [],
           world := { h.world with runtime := r, ran := [] } }

/-- One step of the host. -/
inductive NetStep : Host NetHost NetBlob → Host NetHost NetBlob → Prop where
  | apply {h} {r} (now : Int) (req : NetRequest) (id : String) (up : h.serving = true)
      (fresh : id ∉ h.issued) (run : r ∈ applyNetconfig glob now req id h) :
      NetStep h (Host.settle (netconfig glob) r)
  | confirm {h} {r} (now later : Int) (peer leaseID : String) (up : h.serving = true)
      (run : r ∈ confirm (netconfig glob) now later peer leaseID h) :
      NetStep h (Host.settle (netconfig glob) r)
  | timer {h} {r} (leaseID : String) (named : leaseID ≠ "") (armed : leaseID ∈ h.timers)
      (run : r ∈ recoverDomain (netconfig glob) leaseID h) : NetStep h r.2
  | boot {h} {r} (down : h.serving = false) (run : r ∈ boot (netconfig glob) (pure ()) h) :
      NetStep h (Host.settle (netconfig glob) r)
  | die {h} : NetStep h { h with serving := false }
  | reboot {h} (r : Runtime) : NetStep h (rebootNet r h)

end

end Ghostd.Rpc
