import Ghostd.Rpc.Server

/-!
# `Ghostd.Rpc.ConfigDomain`: the two domains that live in a configuration file

`dhcp-v1` (`internal/rpc/dhcp.go`, `cmd/ghostd/dhcp_feature.go`) and `mdns-v2`
(`internal/rpc/mdns.go`, `cmd/ghostd/mdns_feature.go`). In both the daemon runs a manager
with a configuration in memory, the target is a file, and three parties work on them.

* The daemon's apply changes the manager and the file, in an order that differs between the
  two domains.
* The revert process and boot only rewrite the file (`restoreDHCPConfig`,
  `restoreMDNSConfig`).
* A watcher inside the daemon brings the manager to the file later.

`Codec` is what the lease machinery knows of the two JSON formats: a parser that also
validates, and a printer whose output parses back. `C` is the type of the configurations
validation accepts.

The wall clock is part of the world, because the property of these domains needs what the
firewall's does not: a revert timer does not fire before its lease's deadline, and the clock
does not go back. The observation-only and warm-standby modes, which refuse every apply,
are left out, and so is a takeover from a legacy allocator.
-/

set_option autoImplicit false

namespace Ghostd.Rpc

open Ghostd.Lib Ghostd.State

/-- A configuration format: `ParseConfig`, `json.Marshal`, the configuration of a manager
that was never given one, and the bytes that stand for it. -/
structure Codec (R C : Type) where
  parse : R → Option C
  marshal : C → R
  idle : C
  blank : R
  parse_marshal : ∀ c, parse (marshal c) = some c
  parse_blank : parse blank = some idle

namespace Codec

variable {R C : Type}

/-- `ParseConfig` of what `Store.Load` returned: nothing stands for the idle
configuration. -/
def parseConfig (codec : Codec R C) : Option R → Option C
  | none => some codec.idle
  | some raw => codec.parse raw

end Codec

/-- The world of a configuration domain: the file, the manager's configuration, the bytes
the DHCP watcher last loaded, and the time. -/
structure Managed (R C : Type) where
  file : Option R
  config : C
  loaded : Option R
  clock : Int

/-- The two domains. -/
inductive Kind where
  | dhcp | mdns
  deriving DecidableEq, Repr

/-- The name of the domain's record. -/
def Kind.domainName : Kind → String
  | .dhcp => "dhcp-v1"
  | .mdns => "mdns-v2"

/-- The name of the domain's configuration file. -/
def Kind.configFile : Kind → String
  | .dhcp => "dhcp-config.json"
  | .mdns => "mdns-config-v2.json"

variable {R C : Type}

/-- `Store.Save` of the configuration file. -/
def saveConfig (k : Kind) (raw : R) : Prog (Managed R C) Status Unit :=
  Prog.attempt (fun w => { w with file := some raw }) ⟨.unknown, "state: write " ++ k.configFile⟩

/-- `Store.Load` of the configuration file. -/
def loadConfig (k : Kind) : Prog (Managed R C) Status (Option R) := do
  Prog.fallible ⟨.unknown, "state: read " ++ k.configFile⟩
  let w ← Prog.get
  pure w.file

/-- `ParseConfig`, as a step of a program. -/
def parseOrFail (codec : Codec R C) (raw : Option R) : Prog (Managed R C) Status C :=
  match codec.parseConfig raw with
  | some c => pure c
  | none => Prog.fail ⟨.invalidArgument, "invalid configuration"⟩

/-- `Manager.Apply`: check and bind everything the configuration needs, save, and only then
adopt it. -/
def managerApply (c : C) (save : Prog (Managed R C) Status Unit) :
    Prog (Managed R C) Status Unit := do
  Prog.fallible ⟨.unknown, "DHCP bind"⟩
  save
  Prog.update fun w => { w with config := c }

/-- `Service.Apply` of mDNS: a failed start leaves the old configuration. -/
def serviceApply (c : C) : Prog (Managed R C) Status Unit := do
  Prog.fallible ⟨.unknown, "mdns: advertisement not running"⟩
  Prog.update fun w => { w with config := c }

/-- The mutation of an apply. `applyDHCP` saves the request inside `Manager.Apply`, before
the manager adopts it; `applyMDNS` saves it after. -/
def mutate (k : Kind) (desired : C) (json : R) : Prog (Managed R C) Status Unit :=
  match k with
  | .dhcp => managerApply desired (saveConfig .dhcp json)
  | .mdns => do
    serviceApply desired
    saveConfig .mdns json

/-- `restoreDHCP` and `restoreMDNS`: the rollback inside the daemon. Both put the bytes into
force the way the apply does. -/
def restoreManaged (k : Kind) (codec : Codec R C) (raw : R) : Prog (Managed R C) Status Unit := do
  let config ← parseOrFail codec (some raw)
  mutate k config raw

/-- `restoreDHCPConfig` and `restoreMDNSConfig`: the rollback in the revert process and the
restore of boot. Only the file changes; nothing to restore is the blank file. -/
def restoreConfigFile (k : Kind) (codec : Codec R C) (raw : Option R) :
    Prog (Managed R C) Status Unit := do
  let _ ← parseOrFail codec raw
  saveConfig k (raw.getD codec.blank)

/-- The domain. `Confirm` records the request's own bytes, and the legacy blob is the
configuration file itself. A dying daemon loses its manager. -/
def Kind.domain (k : Kind) (codec : Codec R C) : Domain (Managed R C) R where
  name := k.domainName
  legacy w := w.file
  restore := restoreManaged k codec
  recover := restoreConfigFile k codec
  confirmed p := pure p.target
  lose w := { w with config := codec.idle, loaded := none }

/-- A request: its bytes, its dead-man's-switch timeout, and the caller's connection. -/
structure ConfigRequest (R : Type) where
  json : R
  seconds : Int
  peer : String

/-- `applyDHCP` and `applyMDNS`. The snapshot is what the manager runs. -/
def applyConfig (k : Kind) (codec : Codec R C) (now : Int) (req : ConfigRequest R) (id : String) :
    Prog (Host (Managed R C) R) Status Unit := do
  -- A pending takeover refuses a DHCP apply; the address ledger and mDNS can be unavailable.
  Prog.fallible ⟨.failedPrecondition, k.domainName ++ " unavailable"⟩
  let desired ← onWorld (parseOrFail codec (some req.json))
  recoverExpired (k.domain codec) now
  let running ← onWorld (do let w ← Prog.get; pure w.config)
  begin (k.domain codec) now req.seconds req.json req.peer id (codec.marshal running)
  onWorld (mutate k desired req.json)
  finishApply (k.domain codec)

/-- What a booting daemon does after recovery. `startAddressbook` applies the file and hands
its bytes to the watcher. The mDNS service starts idle and waits for its watcher. -/
def start (k : Kind) (codec : Codec R C) : Prog (Managed R C) Status Unit :=
  match k with
  | .dhcp => do
    let raw ← loadConfig .dhcp
    let config ← parseOrFail codec raw
    managerApply config (pure ())
    Prog.update fun w => { w with loaded := raw }
  | .mdns => pure ()

/-- One pass of the watcher. The DHCP watcher compares the file's bytes with the ones it
last loaded, `watchMDNS` the file's configuration with the running one. -/
def watch [DecidableEq R] [DecidableEq C] (k : Kind) (codec : Codec R C) :
    Prog (Managed R C) Status Unit := do
  let latest ← loadConfig k
  match k with
  | .dhcp => do
    let w ← Prog.get
    if latest = w.loaded then
      pure ()
    else do
      let desired ← parseOrFail codec latest
      managerApply desired (pure ())
      Prog.update fun w => { w with loaded := latest }
  | .mdns => do
    let want ← parseOrFail codec latest
    let w ← Prog.get
    if want = w.config then pure () else serviceApply want

/-- A host with the given configuration file whose daemon never ran. -/
def configHost (codec : Codec R C) (file : Option R) : Host (Managed R C) R where
  world := { file, config := codec.idle, loaded := none, clock := 0 }
  record := none
  timers := []
  serving := false
  rebooted := false
  issued := []
  saves := []

/-- The host at a later time. -/
def atTime (now : Int) (h : Host (Managed R C) R) : Host (Managed R C) R :=
  h.withWorld { h.world with clock := now }

/-- One step of the host at time `now`. An apply is only made in a state in `ready`; the
program's own behaviour is the one where every state is. -/
inductive ConfigStep [DecidableEq R] [DecidableEq C] (k : Kind) (codec : Codec R C)
    (ready : Host (Managed R C) R → Prop) :
    Host (Managed R C) R → Host (Managed R C) R → Prop where
  /-- An `Apply` call, with an identifier not issued before. -/
  | apply {h} {r} (now : Int) (req : ConfigRequest R) (id : String) (clock : h.world.clock ≤ now)
      (up : h.serving = true) (fresh : id ∉ h.issued) (calm : ready h)
      (run : r ∈ applyConfig k codec now req id (atTime now h)) :
      ConfigStep k codec ready h (Host.settle (k.domain codec) r)
  /-- A `Confirm` call. -/
  | confirm {h} {r} (now later : Int) (peer leaseID : String) (clock : h.world.clock ≤ now)
      (up : h.serving = true)
      (run : r ∈ confirm (k.domain codec) now later peer leaseID (atTime now h)) :
      ConfigStep k codec ready h (Host.settle (k.domain codec) r)
  /-- An armed revert timer fires, not before the deadline of its lease. -/
  | timer {h} {r} (now : Int) (leaseID : String) (clock : h.world.clock ≤ now)
      (named : leaseID ≠ "") (armed : leaseID ∈ h.timers)
      (due : ∀ p, (h.domain (k.domain codec)).pending = some p → p.id = leaseID →
        p.deadline ≤ now)
      (run : r ∈ recoverDomain (k.domain codec) leaseID (atTime now h)) :
      ConfigStep k codec ready h r.2
  /-- One pass of the daemon's watcher. -/
  | watch {h} {r} (up : h.serving = true) (run : r ∈ onWorld (watch k codec) h) :
      ConfigStep k codec ready h (Host.settle (k.domain codec) r)
  /-- The daemon starts. -/
  | boot {h} {r} (now : Int) (clock : h.world.clock ≤ now) (down : h.serving = false)
      (run : r ∈ boot (k.domain codec) (start k codec) (atTime now h)) :
      ConfigStep k codec ready h (Host.settle (k.domain codec) r)
  /-- The daemon process dies between two calls. -/
  | die {h} : ConfigStep k codec ready h
      { h with serving := false, world := (k.domain codec).lose h.world }
  /-- The machine reboots: systemd forgets its transient units. -/
  | reboot {h} : ConfigStep k codec ready h
      { h with serving := false, rebooted := true, timers := [],
               world := (k.domain codec).lose h.world }

end Ghostd.Rpc
