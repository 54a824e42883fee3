import Ghostd.Lib.Fault
import Ghostd.Netconfig.DesiredState

/-!
# `Ghostd.Netconfig.Apply`: applying, undoing and replaying a network target

`Apply` and `Restore` of `internal/netconfig/netconfig.go`, and `internal/netconfig/snapshot.go`.
They are programs on a host, its files and its runtime network state, that can fail or be cut
between any two effects. A file is replaced atomically.

`Runtime` is what the commands `ip` and `sysctl` read and write. A command the kernel refuses
fails and changes nothing: adding a link, an address or a default route that is there, or using a
device that is not. Any command can fail for other reasons as well. What the forwarding script
itself does is left out.

`ran` is not in the program. It lists the actions that were run since the host came up, which is
what "has been replayed" is measured against.
-/

set_option autoImplicit false

namespace Ghostd.Netconfig

open Ghostd.Lib

/-! ### The host -/

/-- A network device; a VLAN has a base and a number. -/
structure Link where
  name : String
  base : String := ""
  vlan : Option Nat := none
  up : Bool := false
  deriving DecidableEq, Repr

/-- A default route of the main table. `owned` is the protocol 242, and `plain` says that it has no
attribute that the program does not know and no metric. -/
structure Route where
  gateway : String
  dev : String
  onlink : Bool
  owned : Bool
  plain : Bool
  deriving DecidableEq, Repr

/-- What the kernel knows of the network. -/
structure Runtime where
  links : List Link := []
  addrs : List (String × Prefix) := []
  routes : List Route := []
  ipForward : String := "0"

/-- The host as this domain sees it. `stateFile` is the target that an older daemon has left in
`netconfig-state.json`. -/
structure NetHost where
  files : Bucket String String := .empty
  runtime : Runtime := {}
  ran : List Action := []
  stateFile : Option DesiredState := none

/-- Programs on the host; an error is its text. -/
abbrev NetProg := Prog NetHost String

/-! ### Commands -/

/-- A command that changes the runtime state, if the kernel accepts it. -/
def command (change : Runtime → Option Runtime) (e : String) : NetProg Unit := fun h =>
  match change h.runtime with
  | some r => Prog.attempt (fun _ => { h with runtime := r }) e h
  | none => [(.error e, h), (.crash, h)]

/-- A command that reads the runtime state. -/
def observe (e : String) : NetProg Runtime := do
  Prog.fallible e
  let h ← Prog.get
  pure h.runtime

/-- The address with its length that `ip addr add` takes: a bare address has the full length. -/
def readAddress (ip : String) : Option Prefix :=
  match parsePrefix ip with
  | some p => some p
  | none => (parseAddr ip).bind fun a => parsePrefix (a.text ++ "/" ++ toString a.family.bits)

namespace Runtime

/-- There is a device of that name. -/
def hasLink (r : Runtime) (dev : String) : Bool := r.links.any (·.name = dev)

/-- `ip link add link BASE name DEV type vlan id ID`. -/
def addVLAN (base dev vlanID : String) (r : Runtime) : Option Runtime := do
  let id ← parseUint vlanID 10 16
  if r.hasLink dev || !r.hasLink base || id > 4095 then none
  else some { r with links := r.links ++ [{ name := dev, base, vlan := some id }] }

/-- `ip addr add IP dev DEV`. -/
def addAddress (dev ip : String) (r : Runtime) : Option Runtime := do
  let p ← readAddress ip
  if !r.hasLink dev || r.addrs.any (fun a => a.1 = dev ∧ a.2 = p) then none
  else some { r with addrs := r.addrs ++ [(dev, p)] }

/-- `ip link set DEV up`. -/
def linkUp (dev : String) (r : Runtime) : Option Runtime :=
  if r.hasLink dev then
    some { r with links := r.links.map fun l => if l.name = dev then { l with up := true } else l }
  else none

/-- `sysctl -q -w net.ipv4.ip_forward=VALUE`. -/
def setForward (value : String) (r : Runtime) : Option Runtime := some { r with ipForward := value }

/-- The route that `routeArgs` describes. -/
def ofAction (d : DefaultRoute) : Route :=
  { gateway := d.gateway, dev := d.dev, onlink := d.flag = "onlink", owned := true, plain := true }

/-- `ip -4 route add default …`: there is one default route without a metric. -/
def addRoute (d : DefaultRoute) (r : Runtime) : Option Runtime :=
  if r.routes.any (·.plain) || !r.hasLink d.dev then none
  else some { r with routes := r.routes ++ [ofAction d] }

/-- `ip -4 route del default …`. -/
def delRoute (d : DefaultRoute) (r : Runtime) : Option Runtime :=
  if ofAction d ∈ r.routes then some { r with routes := r.routes.erase (ofAction d) } else none

/-- `routeState`: whether the default route is there, and whether it is the program's own. -/
def routeState (r : Runtime) (d : DefaultRoute) : Except String (Bool × Bool) :=
  match r.routes with
  | [] => pure (false, false)
  | [route] =>
    if !route.plain then throw "unsupported default route attribute"
    else if route.gateway ≠ d.gateway || route.dev ≠ d.dev || route.onlink ≠ decide (d.flag = "onlink") then
      throw "existing default route conflicts; refusing replacement"
    else pure (true, route.owned)
  | _ => throw "multiple default routes require explicit migration"

end Runtime

/-- `routeState` as a program. -/
def routeState (d : DefaultRoute) : NetProg (Bool × Bool) := do
  let r ← observe "ip route show"
  Prog.lift (r.routeState d)

/-- `writeFile`. -/
def writeFile (path content : String) : NetProg Unit :=
  Prog.attempt (fun h => { h with files := h.files.put path content }) ("netconfig: write " ++ path)

/-- `os.Remove`. -/
def removeFile (path : String) : NetProg Unit :=
  Prog.attempt (fun h => { h with files := h.files.delete path }) ("remove " ++ path)

/-! ### `Apply` -/

/-- `ensureDefaultRoute`. -/
def ensureDefaultRoute (d : DefaultRoute) : NetProg Unit := do
  let (there, _) ← routeState d
  if there then pure ()
  else
    Prog.handle (command (Runtime.addRoute d) "ip route add") fun e => do
      -- Somebody else may have added it meanwhile.
      let again ← Prog.handle (routeState d) fun _ => pure (false, false)
      if again.1 then pure () else Prog.fail e

/-- `checkVLAN`: a link of that name is the VLAN that was asked for. -/
def checkVLAN (base dev vlanID : String) (r : Runtime) : Bool :=
  r.hasLink base && r.links.any fun l =>
    l.name = dev && l.base = base && l.vlan.isSome && l.vlan = parseUint vlanID 10 63

/-- The address is there. -/
def hasAddress (dev ip : String) (r : Runtime) : Bool :=
  r.addrs.any fun a => a.1 = dev && some a.2 = parsePrefix ip

/-- A command that may fail because its work is done: then `done` says so. -/
def unlessDone (m : NetProg Unit) (isDone : Runtime → Bool) (refused : String → String) : NetProg Unit :=
  Prog.handle m fun e => do
    let r ← Prog.handle (observe e) fun _ => Prog.fail (refused e)
    Prog.require (isDone r) (refused e)

/-- `applyAction`. -/
def applyAction : Action → NetProg Unit
  | .defaultRoute d => ensureDefaultRoute d
  | .vlan base dev vlanID =>
      unlessDone (command (Runtime.addVLAN base dev vlanID) "ip link add") (checkVLAN base dev vlanID)
        fun e => "netconfig: create vlan " ++ dev ++ " on " ++ base ++ ": " ++ e
  | .addr dev ip =>
      unlessDone (command (Runtime.addAddress dev ip) "ip addr add") (hasAddress dev ip)
        fun e => "netconfig: add " ++ ip ++ " to " ++ dev ++ ": " ++ e
  | .sysctl keyval =>
      command (Runtime.setForward (if keyval = "net.ipv4.ip_forward=1" then "1" else "0"))
        ("netconfig: sysctl -w " ++ keyval)
  | .forward script => do
      Prog.fallible ("netconfig: apply forwarding script " ++ script)
      command (Runtime.setForward "1") "netconfig: sysctl -w net.ipv4.ip_forward=1"
  | .up dev => command (Runtime.linkUp dev) ("netconfig: bring " ++ dev ++ " up")

/-- An action, and the note that it was run. -/
def runAction (a : Action) : NetProg Unit := do
  Prog.fallible "context deadline exceeded"
  applyAction a
  Prog.update fun h => { h with ran := h.ran ++ [a] }

section

variable (glob : String → String → Option Bool)

/-- The checks that `Apply` and `Snapshot` begin with. -/
def precheck (ds : DesiredState) : NetProg (List Action) := do
  let actions ← Prog.lift ds.validate
  Prog.fallible "read network files"
  let h ← Prog.get
  Prog.lift (checkFilePreconditions h.files ds)
  Prog.lift (checkIfupdown glob h.files ds)
  pure actions

/-- The default routes among the actions. -/
def defaultRoutes (actions : List Action) : List DefaultRoute :=
  actions.filterMap fun a =>
    match a with
    | .defaultRoute d => some d
    | _ => none

/-- `Apply`. A conflicting route is refused before a file is written. -/
def applyState (ds : DesiredState) : NetProg Unit := do
  let actions ← precheck glob ds
  (defaultRoutes actions).forM fun d => do
    let _ ← routeState d
    pure ()
  ds.files.entries.forM fun e => do
    Prog.fallible "context deadline exceeded"
    writeFile e.1 e.2
  actions.forM runAction

/-! ### `Snapshot` and `Rollback` -/

/-- `Undo`: the files that an apply may overwrite, with `none` for one that is not there. -/
structure Undo where
  addedRoutes : List DefaultRoute := []
  files : Bucket String (Option String) := .empty
  ipForward : String := ""

/-- The action changes the forwarding setting. -/
def forwards : Action → Bool
  | .sysctl _ => true
  | .forward _ => true
  | _ => false

/-- The routes that an apply will add. -/
def routesToAdd : List DefaultRoute → NetProg (List DefaultRoute)
  | [] => pure []
  | d :: rest => do
    let (there, _) ← routeState d
    let more ← routesToAdd rest
    pure (if there then more else d :: more)

/-- What an undo record keeps of the forwarding setting. -/
def snapshotForward (actions : List Action) : NetProg String :=
  if actions.any forwards then do
    let r ← observe "sysctl -n net.ipv4.ip_forward"
    Prog.require (r.ipForward = "0" || r.ipForward = "1")
      ("cannot snapshot ip_forward: " ++ quoted r.ipForward)
    pure r.ipForward
  else pure ""

/-- `Snapshot`. -/
def snapshot (ds : DesiredState) : NetProg Undo := do
  let actions ← precheck glob ds
  Prog.fallible "read network files"
  let h ← Prog.get
  let files := ds.files.entries.foldl (fun files e => files.put e.1 (h.files.get e.1)) .empty
  let addedRoutes ← routesToAdd (defaultRoutes actions)
  let ipForward ← snapshotForward actions
  pure { addedRoutes, files, ipForward }

end

/-- The target that `Rollback` validates its paths with. -/
def Undo.paths (u : Undo) : DesiredState where
  files := u.files.entries.foldl (fun files e => files.put e.1 "") .empty
  expectedFilesSHA256 :=
    if (u.files.get interfacesMain).isSome then
      Bucket.empty.put interfacesMain (String.ofList (List.replicate 64 '0'))
    else .empty

/-- A route that the apply added is removed, unless it is somebody else's now. -/
def removeRoute (d : DefaultRoute) : NetProg Unit := do
  let (there, owned) ← routeState d
  Prog.require (!(there && !owned)) "default route ownership changed; refusing rollback deletion"
  if there then command (Runtime.delRoute d) "ip route del" else pure ()

/-- A file as it was before the apply. -/
def restoreFile (path : String) : Option String → NetProg Unit
  | none => removeFile path
  | some content => writeFile path content

/-- The forwarding setting as it was before the apply. -/
def restoreForward (value : String) : NetProg Unit :=
  if value = "" then pure ()
  else do
    Prog.require (value = "0" || value = "1") "invalid forwarding snapshot"
    command (Runtime.setForward value) "sysctl -w net.ipv4.ip_forward"

/-- `Rollback`. -/
def rollback (u : Undo) : NetProg Unit := do
  u.addedRoutes.forM fun d => Prog.lift (validateDefaultRoute d)
  let _ ← Prog.lift u.paths.validate
  u.files.entries.forM fun e => restoreFile e.1 e.2
  u.addedRoutes.forM removeRoute
  restoreForward u.ipForward

/-- `Restore`: nothing confirmed is nothing to replay. -/
def restore (glob : String → String → Option Bool) : Option DesiredState → NetProg Unit
  | none => pure ()
  | some ds => applyState glob ds

end Ghostd.Netconfig
