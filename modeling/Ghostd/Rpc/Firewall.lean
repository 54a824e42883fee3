import Ghostd.Rpc.Server

/-!
# `Ghostd.Rpc.Firewall`: the firewall domain under its lease

`applyFirewall` of `internal/rpc/server.go` with the parts of `internal/nft/nft.go` it calls.
The world of this domain is the daemon's own nftables table, which can be absent, and the
legacy blob of the store. The type `T` of tables stays abstract: nothing in the lease
machinery looks into a table, except that a redirect-only request is refused when the live
table filters (`filters`).

An nft transaction is atomic. `Commit` and `Restore` therefore set the owned table or leave
it, whatever they report.

`Step` lists what can happen to the host. The remote calls need a serving daemon. A timer
runs in its own process, so its crash leaves the daemon alone. `reboot` empties the kernel's
tables and drops the transient timers; the daemon has to recover before it serves again.
-/

set_option autoImplicit false

namespace Ghostd.Rpc

open Ghostd.Lib Ghostd.State

/-- The bytes this domain stores: a dump of the owned table (`nft.OwnedRuleset`), where an
absent table is a dump without objects, or the JSON text of a request. -/
inductive Blob (T : Type) where
  | ruleset (table : Option T)
  | request (json : String)
  deriving DecidableEq, Repr

/-- The table a blob restores. A request's JSON has no `nftables` objects, so replaying it
would remove the table. -/
def Blob.table {T : Type} : Blob T → Option T
  | .ruleset t => t
  | .request _ => none

/-- The kernel's copy of the owned table, and the legacy blob `nft-ruleset.json`. -/
structure Kernel (T : Type) where
  live : Option T
  legacyBlob : Option (Blob T)
  deriving DecidableEq, Repr

variable {T : Type}

/-- `nft.OwnedRuleset` of a live dump. -/
def ownedRuleset (live : Option T) : Blob T := .ruleset live

/-- `nft.Commit`: load the rendered script, which defines the table `t`. -/
def commit (t : T) : Prog (Kernel T) Status Unit :=
  Prog.attempt (fun k => { k with live := some t }) ⟨.internal, "nft: commit failed"⟩

/-- `nft.Restore`: no blob means there is no baseline to go back to, not an empty table. -/
def restore : Option (Blob T) → Prog (Kernel T) Status Unit
  | none => pure ()
  | some b => Prog.attempt (fun k => { k with live := b.table }) ⟨.internal, "nft: restore failed"⟩

/-- `nft.ReadRulesetJSON`, reduced to the owned table. -/
def readRulesetJSON : Prog (Kernel T) Status (Option T) := do
  Prog.fallible ⟨.internal, "nft: list ruleset"⟩
  let k ← Prog.get
  pure k.live

/-- The firewall domain. `Confirm` records a fresh dump of the live table, not the request. -/
def firewall : Domain (Kernel T) (Blob T) where
  name := "firewall"
  legacy k := k.legacyBlob
  restore b := restore (some b)
  recover := restore
  confirmed _ := do
    let live ← readRulesetJSON
    pure (ownedRuleset live)
  lose := id

/-- A firewall request that parsed: its text, the table its rendered script defines, and
whether it is redirect-only. -/
structure FirewallRequest (T : Type) where
  json : String
  script : T
  redirectOnly : Bool
  seconds : Int
  peer : String

/-- `Server.applyFirewall`. -/
def applyFirewall (filters : T → Bool) (now : Int) (req : FirewallRequest T) (id : String) :
    Prog (Host (Kernel T) (Blob T)) Status Unit := do
  -- `ParseDesiredState`, `Render` and `ValidateSyntax` refuse before anything is touched.
  Prog.fallible ⟨.invalidArgument, "rpc: desired_state_json"⟩
  recoverExpired firewall now
  let live ← onWorld readRulesetJSON
  Prog.require (!(req.redirectOnly && live.any filters))
    ⟨.failedPrecondition, "nft: redirect-only policy would remove existing ghostd filtering; " ++
      "retain the declared full firewall policy"⟩
  begin firewall now req.seconds (.request req.json) req.peer id (ownedRuleset live)
  onWorld (commit req.script)
  finishApply firewall

/-- A host that never ran the daemon: no owned table, no record, no legacy blob. -/
def freshHost : Host (Kernel T) (Blob T) where
  world := { live := none, legacyBlob := none }
  record := none
  timers := []
  serving := false
  rebooted := false
  issued := []
  saves := []

/-- One step of the host. The programs end in any of their ways. -/
inductive Step (filters : T → Bool) :
    Host (Kernel T) (Blob T) → Host (Kernel T) (Blob T) → Prop where
  /-- An `Apply` call, with an identifier not issued before. -/
  | apply {h} {r} (now : Int) (req : FirewallRequest T) (id : String)
      (up : h.serving = true) (fresh : id ∉ h.issued)
      (run : r ∈ applyFirewall filters now req id h) : Step filters h (Host.settle firewall r)
  /-- A `Confirm` call. -/
  | confirm {h} {r} (now later : Int) (peer leaseID : String) (up : h.serving = true)
      (run : r ∈ confirm firewall now later peer leaseID h) :
      Step filters h (Host.settle firewall r)
  /-- An armed revert timer fires. Its unit restarts on failure, so it stays armed. -/
  | timer {h} {r} (leaseID : String) (named : leaseID ≠ "") (armed : leaseID ∈ h.timers)
      (run : r ∈ recoverDomain firewall leaseID h) : Step filters h r.2
  /-- The daemon starts. -/
  | boot {h} {r} (down : h.serving = false) (run : r ∈ boot firewall (pure ()) h) :
      Step filters h (Host.settle firewall r)
  /-- The daemon process dies between two calls. -/
  | die {h} : Step filters h { h with serving := false }
  /-- The machine reboots: the kernel forgets its tables and systemd its transient units. -/
  | reboot {h} : Step filters h
      { h with serving := false, rebooted := true, timers := [],
               world := { h.world with live := none } }

/-- The hosts a run from a fresh one can reach. -/
def Reachable (filters : T → Bool) (h : Host (Kernel T) (Blob T)) : Prop :=
  Relation.ReflTransGen (Step filters) freshHost h

end Ghostd.Rpc
