import Ghostd.Addressbook.Handover

/-!
# `Ghostd.Addressbook.Startup`: boot, the watcher, and the steps of a host

`startAddressbook` of `cmd/ghostd/dhcp_feature.go` and `recoverLegacyHandover` of
`cmd/ghostd/dnsmasq_feature.go`, and the handover actions of `internal/rpc/dnsmasq.go`. The
observation-only and warm-standby modes are left out.

`HostStep` is one step of the host: an action, a pass of the watcher, a boot, a client operation,
the death of the process or of the machine, or something that the legacy allocator does by
itself. No step changes the DHCP configuration outside of the takeover.
-/

set_option autoImplicit false

namespace Ghostd.Handover

open Ghostd.Lib Ghostd.State Ghostd.Addressbook Ghostd.Rpc

/-! ### Boot and watcher -/

/-- Read the journal after a recovery, and say whether the takeover was rolled back. -/
def rolledBack : Prog Machine Status Bool :=
  Prog.handle (do let j ← onWorld loadHandover; pure (j.phase = .rolledBack)) fun _ => pure false

/-- `Rollback` for a pending takeover that must not go on, and otherwise `Recover`. -/
def recoverOrForce (env : Env) (force : Bool) (j : HandoverJournal) : Prog Machine Status Unit :=
  if force ∧ j.phase = .pending then rollback env else recover env

/-- `recoverLegacyHandover`. -/
def recoverHandover (env : Env) (force : Bool) : Prog Machine Status Bool := do
  let j ← onWorld loadHandover
  if j.phase = .none then pure false
  else do
    recoverOrForce env force j
    rolledBack

/-- What boot does when the configuration cannot start: roll a pending takeover back, and try
again with the configuration that it left. -/
def applyAfterRollback (env : Env) (e : Status) : Prog Machine Status (Option Config) := do
  let back ← recoverHandover env true
  if back then do
    let raw ← onWorld loadFile
    let c ← raise (parseConfig raw)
    onWorld (managerApply env 20 c)
    pure raw
  else Prog.fail e

/-- `Manager.Apply` of the configuration file at boot. -/
def applyAtBoot (env : Env) (raw : Option Config) (c : Config) :
    Prog Machine Status (Option Config) :=
  Prog.handle (do onWorld (managerApply env 20 c); pure raw) (applyAfterRollback (env.after 30))

/-- `startAddressbook`. A failed recovery does not end the boot. -/
def startAddressbook (env : Env) : Prog Machine Status Unit := do
  Prog.fallible ⟨.unknown, "open addressbook.db"⟩
  let raw ← onWorld loadFile
  let _ ← raise (parseConfig raw)
  Prog.fallible ⟨.unknown, "state: lock"⟩
  let _ ← Prog.handle (recoverHandover env false) fun _ => pure false
  let raw ← onWorld loadFile
  let c ← raise (parseConfig raw)
  let raw ← applyAtBoot env raw c
  Prog.update fun h => h.withWorld { h.world with loaded := raw }

/-- The boot of the daemon: restore the confirmed configuration, and start. -/
def boot (env : Env) : Prog Machine Status Unit := do
  recoverDomain (dhcp env) ""
  startAddressbook env
  Prog.update fun h => { h with serving := true, rebooted := false }

/-- One pass of the watcher. -/
def watch (env : Env) : Prog Machine Status Unit := do
  let _ ← Prog.handle (recoverHandover env false) fun _ => pure false
  let latest ← onWorld loadFile
  let h ← Prog.get
  if latest = h.world.loaded then pure ()
  else do
    let c ← raise (parseConfig latest)
    onWorld (managerApply env 20 c)
    Prog.update fun h => h.withWorld { h.world with loaded := latest }

/-! ### Steps -/

/-- The action `begin`: an expired configuration lease is rolled back first. -/
def beginAction (o : Options) (env : Env) (target : Config) (grace : Int) :
    Prog Machine Status Unit := do
  recoverExpired (dhcp env) (env.now 0)
  begin o env target grace

/-- The host after its daemon has died. -/
def died (h : Machine) : Machine :=
  { h with serving := false, world := { h.world with config := {}, loaded := none } }

/-- What the end of a program of the daemon does to the host: a crash ends the process. -/
def settle {α : Type} : Outcome Status α × Machine → Machine
  | (.crash, h) => died h
  | (_, h) => h

/-- What the end of a boot does to the host: an error ends the process too. -/
def settleBoot {α : Type} : Outcome Status α × Machine → Machine
  | (.ok _, h) => h
  | (_, h) => died h

/-- One step of the host. -/
inductive HostStep : Machine → Machine → Prop where
  | begin {h r} (o : Options) (env : Env) (target : Config) (grace : Int) (up : h.serving = true)
      (run : r ∈ beginAction o env target grace h) : HostStep h (settle r)
  | confirm {h r} (env : Env) (up : h.serving = true) (run : r ∈ confirm env h) :
      HostStep h (settle r)
  | rollback {h r} (env : Env) (up : h.serving = true) (run : r ∈ rollback env h) :
      HostStep h (settle r)
  | recover {h r} (env : Env) (up : h.serving = true) (run : r ∈ recover env h) :
      HostStep h (settle r)
  | watch {h r} (env : Env) (up : h.serving = true) (run : r ∈ watch env h) :
      HostStep h (settle r)
  | boot {h r} (env : Env) (down : h.serving = false) (run : r ∈ boot env h) :
      HostStep h (settleBoot r)
  /-- A client operation, or any other transaction on the ledger. -/
  | client {h} (s : Step) (up : h.serving = true) :
      HostStep h (h.withWorld { h.world with store := s.op.apply s.time h.world.store })
  | die {h} : HostStep h (died h)
  /-- The machine reboots. The legacy service comes back unless it is masked. -/
  | reboot {h} (running : Bool) (masked : running = true → h.world.legacy.masked = false) :
      HostStep h (died { h with
        rebooted := true, timers := [],
        world := { h.world with legacy := { h.world.legacy with running } } })
  /-- The running legacy allocator rewrites its lease file. -/
  | legacyWrites {h} (text : String) (running : h.world.legacy.running = true) :
      HostStep h (h.withWorld { h.world with
        original := text, legacy := { h.world.legacy with leases := text } })
  /-- The legacy allocator stops by itself. -/
  | legacyStops {h} :
      HostStep h (h.withWorld { h.world with legacy := { h.world.legacy with running := false } })

/-- A host before its first takeover: what its configuration file and its record hold, and the
legacy service. -/
def freshHost (file confirmed : Option Config) (legacy : Legacy) : Machine where
  world :=
    { store := {}, journal := {}, history := [], file, config := {}, loaded := none, legacy,
      original := legacy.leases, calls := [] }
  record := confirmed.map fun c => { confirmed := some c, pending := none }
  timers := []
  serving := false
  rebooted := false
  issued := []
  saves := []

/-- Every scope of the configuration is off. -/
def Off (c : Config) : Prop := ∀ s ∈ c.scopes, s.enabled = false

/-- The hosts that a run reaches from one whose configured scopes are all off. -/
inductive Reached : Machine → Prop where
  | start (file confirmed : Option Config) (legacy : Legacy) (fileOff : ∀ c ∈ file, Off c)
      (confirmedOff : ∀ c ∈ confirmed, Off c) : Reached (freshHost file confirmed legacy)
  | step {h h' : Machine} (before : Reached h) (next : HostStep h h') : Reached h'

end Ghostd.Handover
