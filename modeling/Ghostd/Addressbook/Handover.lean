import Ghostd.Addressbook.Dnsmasq
import Ghostd.Addressbook.Manager
import Ghostd.Rpc.Server

/-!
# `Ghostd.Addressbook.Handover`: the takeover from a legacy allocator

`internal/addressbook/handover.go` with the legacy service of `legacy.go`. A takeover is a
durable transaction of its own: a journal in the ledger's database says how far it has come,
and a rollback can be resumed from any point of it.

The programs are `Prog`s, so each of their writes can fail with or without effect and the
process can die on either side of it. The clock and the clients are an `Env`: the instant of
every access to the ledger, and the client operations that come in before it, since the
protocol handlers do not take the store lock.

Two things are not in the program. `original` is the lease file as the legacy allocator left
it. `calls` is the history of the calls that roll back, write the lease file and start the
service, newest first.
-/

set_option autoImplicit false

namespace Ghostd.Handover

open Ghostd.Lib Ghostd.State Ghostd.Addressbook

/-! ### The journal -/

/-- The phases of a takeover; `none` is the empty text of a journal that was never written. -/
inductive Phase where
  | none | stopping | snapshot | pending | confirmed | rollingBack | rolledBack
  deriving DecidableEq, Repr

def Phase.text : Phase → String
  | .none => ""
  | .stopping => "stopping"
  | .snapshot => "snapshot"
  | .pending => "pending"
  | .confirmed => "confirmed"
  | .rollingBack => "rolling-back"
  | .rolledBack => "rolled-back"

/-- No takeover is under way. -/
def Phase.idle (p : Phase) : Bool := p = .none || p = .rolledBack

structure Probe where
  kind : String
  scope : String := ""
  name : String := ""
  expect : String := ""
  addr : String := ""
  deriving DecidableEq, Repr

structure HandoverJournal where
  phase : Phase := .none
  deadline : Int := 0
  target : Config := {}
  previous : Config := {}
  snapshot : String := ""
  activated : Bool := false
  error : String := ""
  revision : Nat := 0
  started : Int := 0
  finished : Int := 0
  importedLeases : List (String × Nat) := []
  requireEvidence : Bool := false
  probes : List Probe := []
  abandonedDelegations : Nat := 0
  deriving DecidableEq, Repr

/-- `NeedsRecovery`. -/
def HandoverJournal.needsRecovery (j : HandoverJournal) (now : Int) : Bool :=
  match j.phase with
  | .stopping | .snapshot | .rollingBack => true
  | .pending => j.deadline ≤ now
  | _ => false

/-! ### Client evidence -/

structure ScopeEvidence where
  imported : Nat := 0
  renewals : Nat := 0
  grants : Nat := 0
  deriving DecidableEq, Repr

/-- `isProbeMAC`. -/
def isProbeMAC (mac : String) : Bool := startsWith (toLower mac) "02:67:68:6f:73:"

/-- An origin whose text starts with `dhcp`. -/
def ofClient : Origin → Bool
  | .dhcpv4 | .dhcpv6 | .dhcpv6PD => true
  | _ => false

/-- The evidence after one more event of the scope. -/
def ScopeEvidence.count (e : ScopeEvidence) : EventKind → ScopeEvidence
  | .renew => { e with renewals := e.renewals + 1 }
  | .grant => { e with grants := e.grants + 1 }
  | _ => e

/-- `clientEvidence`: what clients did in each enabled scope of the target since the takeover
began. -/
def clientEvidence (L : Ledger) (j : HandoverJournal) : List (String × ScopeEvidence) :=
  (j.target.scopes.filter (·.enabled)).map fun s =>
    (s.id, ((L.events.filter fun e => j.revision < e.id && e.binding.scope = s.id &&
        ofClient e.binding.origin && !isProbeMAC e.binding.mac).map (·.kind)).foldl
      ScopeEvidence.count { imported := (j.importedLeases.lookup s.id).getD 0 })

/-- `missingEvidence`. -/
def missingEvidence (evidence : List (String × ScopeEvidence)) : List String :=
  (evidence.flatMap fun (id, e) =>
    (if e.imported > 0 ∧ e.renewals = 0 then
      ["scope " ++ id ++ ": no client has renewed an inherited lease yet"] else []) ++
    (if e.grants = 0 then
      ["scope " ++ id ++ ": no new client has been allocated an address yet"] else [])
  ).insertionSort (· ≤ ·)

/-! ### The host -/

/-- The legacy service: masked units are not started at boot. -/
structure Legacy where
  masked : Bool
  running : Bool
  leases : String
  deriving DecidableEq, Repr

/-- A call that matters later: a rollback of a takeover that is under way, with whether the
takeover was activated and the legacy service ran; writing the lease file, with whether the
service ran and the ledger and instant of the export; and starting the service, with the lease
file at that moment. -/
inductive Call where
  | rollback (activated running : Bool)
  | write (running : Bool) (ledger : Ledger) (time : Int) (text : String)
  | start (activated : Bool) (original leases : String) (exported : Option (Ledger × Int))

/-- What a takeover touches besides the transaction record: the database with ledger and
journal, the configuration file, the manager's configuration, the bytes the watcher last
loaded, and the legacy service. -/
structure World where
  store : Ledger
  journal : HandoverJournal
  history : List HandoverJournal
  file : Option Config
  config : Config
  loaded : Option Config
  legacy : Legacy
  original : String
  calls : List Call

/-- The host, with the transaction record of `dhcp-v1`. -/
abbrev Machine := Host World Config

/-- The instants of the accesses to the ledger, and the client operations before each. -/
structure Env where
  now : Nat → Int
  traffic : Nat → List Step

/-- The environment from its `n`-th access on. -/
def Env.after (env : Env) (n : Nat) : Env := ⟨fun i => env.now (i + n), fun i => env.traffic (i + n)⟩

/-! ### Access to the ledger -/

section Access

variable {σ α : Type}

/-- A computation of the program: an error is an error, a panic kills the process. -/
def raise : Except Failure α → Prog σ Status α
  | .ok a => pure a
  | .error (.panic _) => fun s => [(.crash, s)]
  | .error e => Prog.fail ⟨.unknown, e.text⟩

/-- The client operations that come in before an access. -/
def arrive (env : Env) (i : Nat) : Prog World Status Unit :=
  Prog.update fun w => { w with store := run w.store (env.traffic i) }

/-- A read transaction. -/
def view (env : Env) (i : Nat) (f : Int → Ledger → Except Failure α) : Prog World Status α := do
  arrive env i
  Prog.fallible ⟨.unknown, "database read"⟩
  let w ← Prog.get
  raise (f (env.now i) w.store)

/-- A write transaction. -/
def transact (env : Env) (i : Nat) (f : Int → Ledger → Except Failure (α × Ledger)) :
    Prog World Status α := do
  arrive env i
  let w ← Prog.get
  let (a, store) ← raise (f (env.now i) w.store)
  Prog.attempt (fun w => { w with store }) ⟨.unknown, "database write"⟩
  pure a

end Access

/-- `Store.HandoverJournal`. -/
def loadHandover : Prog World Status HandoverJournal := do
  Prog.fallible ⟨.unknown, "database read"⟩
  let w ← Prog.get
  pure w.journal

/-- `saveHandover`. -/
def saveHandover (j : HandoverJournal) : Prog World Status Unit :=
  Prog.attempt (fun w => { w with journal := j }) ⟨.unknown, "database write"⟩

/-- The first `saveHandover` of a takeover. The lease file is now the original one. -/
def openHandover (j : HandoverJournal) : Prog World Status Unit :=
  Prog.attempt (fun w => { w with journal := j, original := w.legacy.leases })
    ⟨.unknown, "database write"⟩

/-- `archiveHandover`. -/
def archiveHandover (j : HandoverJournal) (now : Int) : Prog World Status Unit :=
  Prog.attempt
    (fun w => { w with history := w.history ++ [{ j with snapshot := "", finished := now }] })
    ⟨.unknown, "database write"⟩

/-! ### The legacy service -/

/-- `SystemDNSmasq.Stop`: mask the unit, stop it, and look. -/
def stopLegacy : Prog World Status Unit := do
  Prog.attempt (fun w => { w with legacy := { w.legacy with masked := true } })
    ⟨.unknown, "systemctl mask"⟩
  Prog.attempt (fun w => { w with legacy := { w.legacy with running := false } })
    ⟨.unknown, "systemctl stop"⟩
  Prog.fallible ⟨.unknown, "dnsmasq did not stop"⟩

/-- `SystemDNSmasq.Start`: unmask the unit, start it, and wait until it serves. -/
def startLegacy (activated : Bool) (exported : Option (Ledger × Int)) : Prog World Status Unit := do
  Prog.update fun w =>
    { w with calls := .start activated w.original w.legacy.leases exported :: w.calls }
  Prog.attempt (fun w => { w with legacy := { w.legacy with masked := false } })
    ⟨.unknown, "systemctl unmask"⟩
  Prog.attempt (fun w => { w with legacy := { w.legacy with running := true } })
    ⟨.unknown, "systemctl start"⟩
  Prog.fallible ⟨.unknown, "dnsmasq is active but not serving DHCP"⟩

/-- `SystemDNSmasq.ReadLeases`. -/
def readLeases : Prog World Status String := do
  Prog.fallible ⟨.unknown, "read lease file"⟩
  let w ← Prog.get
  pure w.legacy.leases

/-- `SystemDNSmasq.WriteLeases`: the file is replaced at once, and synced after. -/
def writeLeases (ledger : Ledger) (time : Int) (text : String) : Prog World Status Unit := do
  Prog.update fun w => { w with calls := .write w.legacy.running ledger time text :: w.calls }
  Prog.attempt (fun w => { w with legacy := { w.legacy with leases := text } })
    ⟨.unknown, "write lease file"⟩

/-! ### Configurations -/

/-- `ParseConfig` of what `Store.Load` returned; nothing is the empty configuration. -/
def parseConfig (file : Option Config) : Except Failure Config := do
  (file.getD {}).validate.mapError Failure.error
  pure (file.getD {})

/-- `Store.Save` of the configuration file. -/
def saveFile (c : Config) : Prog World Status Unit :=
  Prog.attempt (fun w => { w with file := some c }) ⟨.unknown, "state: write dhcp-config.json"⟩

/-- `Store.Load` of the configuration file. -/
def loadFile : Prog World Status (Option Config) := do
  Prog.fallible ⟨.unknown, "state: read dhcp-config.json"⟩
  let w ← Prog.get
  pure w.file

/-- `Manager.Apply` up to its call of `save`: the checks, the listeners, and the note of the
DNS configuration. -/
def checkAndBind (env : Env) (i : Nat) (c : Config) : Prog World Status Unit := do
  view env i fun now L => L.admits now c
  Prog.fallible ⟨.unknown, "DHCP bind"⟩
  transact env (i + 1) fun now L => pure ((), L.noteDNSConfig now c)

/-- The rest of `Manager.Apply`: adopt the configuration. -/
def adopt (c : Config) : Prog World Status Unit := Prog.update fun w => { w with config := c }

/-- `Manager.Apply` with nothing to save. -/
def managerApply (env : Env) (i : Nat) (c : Config) : Prog World Status Unit := do
  checkAndBind env i c
  adopt c

/-- `restoreDHCP`: the rollback of a lease inside the daemon. -/
def restoreDHCP (env : Env) (c : Config) : Prog World Status Unit := do
  let c ← raise (parseConfig (some c))
  checkAndBind env 0 c
  saveFile c
  adopt c

/-- `restoreDHCPConfig`: the rollback of a lease in the revert process, and the restore of
boot. -/
def restoreDHCPConfig (raw : Option Config) : Prog World Status Unit := do
  let c ← raise (parseConfig raw)
  saveFile c

/-- The domain `dhcp-v1`. A dying daemon loses its manager. -/
def dhcp (env : Env) : Domain World Config where
  name := "dhcp-v1"
  legacy w := w.file
  restore := restoreDHCP env
  recover := restoreDHCPConfig
  confirmed p := pure p.target
  lose w := { w with config := {}, loaded := none }

/-- `SaveExternallyManagedConfig`. -/
def saveExternallyManagedConfig (env : Env) (c : Config) : Prog Machine Status Unit := do
  let st ← loadDomain (dhcp env)
  match st.pending with
  | some _ => Prog.fail ⟨.unknown, "finish pending dhcp-v1 configuration lease first"⟩
  | none => do
    saveDomain (dhcp env) .external { st with confirmed := some c }
    onWorld (saveFile c)

/-- `Handover.apply`. -/
def apply (env : Env) (i : Nat) (c : Config) : Prog Machine Status Unit := do
  onWorld (checkAndBind env i c)
  saveExternallyManagedConfig env c
  onWorld (adopt c)

/-! ### Rollback -/

/-- The keys of the live bindings of a snapshot. -/
def occupied (s : Snapshot) : List String :=
  (s.bindings.filter fun b => liveState b.state).map fun b => bindingKey b.scope b.address

/-- The leases of the original lease file at addresses where nothing is live. -/
def missingLeases (s : Snapshot) (doc : ImportDocument) : ImportDocument :=
  { doc with leases := doc.leases.filter fun l => bindingKey l.scope l.address ∉ occupied s }

/-- The part of `Rollback` for a takeover that was activated: import what is missing, write the
lease file, and end the delegations. It gives the ledger and instant of the export and the
number of delegations. -/
def handBack (env : Env) (j : HandoverJournal) : Prog World Status ((Ledger × Int) × Nat) := do
  let doc ← raise (parseDNSmasq j.target j.snapshot)
  let current ← view env 2 fun now L => L.snapshot now "" "" 0
  transact env 3 fun now L =>
    return ((), ← L.importDocument now (disabled j.target) (missingLeases current doc))
  let (ledger, current) ← view env 4 fun now L => return (L, ← L.snapshot now "" "" 0)
  let text ← raise (exportDNSmasq current)
  writeLeases ledger (env.now 4) text
  let n ← transact env 5 fun now L => pure (L.abandonDelegations now j.target)
  pure ((ledger, env.now 4), n)

/-- Only a takeover that was activated hands anything back. -/
def handBackIfActivated (env : Env) (j : HandoverJournal) :
    Prog World Status (Option (Ledger × Int) × Nat) :=
  if j.activated then do
    let (exported, n) ← handBack env j
    pure (some exported, n)
  else pure (none, 0)

/-- The rollback of a takeover that is under way has begun. -/
def noteRollback (activated : Bool) : Prog World Status Unit :=
  Prog.update fun w => { w with calls := .rollback activated w.legacy.running :: w.calls }

/-- `Handover.Rollback`. -/
def rollback (env : Env) : Prog Machine Status Unit := do
  let j ← onWorld loadHandover
  if j.phase.idle then pure ()
  else do
    let h ← Prog.get
    Prog.require (!(j.phase = .confirmed && disabled h.world.config ≠ disabled j.target))
      ⟨.unknown, "DHCP configuration changed since takeover; reconcile it before rollback"⟩
    onWorld (noteRollback j.activated)
    onWorld (saveHandover { j with phase := .rollingBack })
    apply env 0 (disabled j.target)
    let (exported, n) ← onWorld (handBackIfActivated env j)
    apply env 6 (disabled j.previous)
    onWorld (startLegacy j.activated exported)
    let j := { j with phase := .rolledBack, deadline := 0,
                      abandonedDelegations := j.abandonedDelegations + n }
    onWorld (saveHandover j)
    onWorld (archiveHandover j (env.now 8))

/-- `Handover.Recover`. -/
def recover (env : Env) : Prog Machine Status Unit := do
  let j ← onWorld loadHandover
  if j.needsRecovery (env.now 0) then rollback (env.after 1) else pure ()

/-! ### Begin -/

/-- The options of a takeover. -/
structure Options where
  requireEvidence : Bool := false
  probes : List Probe := []
  allowPD : Bool := false

/-- An error together with the journal as it is in memory. -/
def blame {σ α : Type} (j : HandoverJournal) (m : Prog σ Status α) :
    Prog σ (HandoverJournal × Status) α :=
  Prog.handle m fun e => Prog.fail (j, e)

/-- The number of leases of each scope. -/
def leasesByScope (doc : ImportDocument) : List (String × Nat) :=
  (doc.leases.map (·.scope)).dedup.map fun s => (s, (doc.leases.filter (·.scope = s)).length)

/-- `begin`: stop the legacy allocator, keep its lease file, import it, and apply the target.
`activated` is durable before the target is. -/
def takeOver (env : Env) (j : HandoverJournal) : Prog Machine (HandoverJournal × Status) Unit := do
  blame j (onWorld stopLegacy)
  let raw ← blame j (onWorld readLeases)
  let j := { j with snapshot := raw, phase := .snapshot }
  blame j (onWorld (saveHandover j))
  let doc ← blame j (raise (parseDNSmasq j.target raw))
  blame j (onWorld (transact env 0 fun now L =>
    return ((), ← L.importDocument now (disabled j.target) doc)))
  let j := { j with importedLeases := leasesByScope doc, activated := true }
  blame j (onWorld (saveHandover j))
  blame j (apply env 1 j.target)
  let j := { j with phase := .pending }
  blame j (onWorld (saveHandover j))

/-- What `Begin` does after an error of `begin`: keep the error, and roll back. -/
def giveUp (env : Env) (j : HandoverJournal) (e : Status) : Prog Machine Status Unit := do
  Prog.ignore (onWorld (saveHandover { j with error := e.message }))
  Prog.handle (rollback env) fun recovery =>
    Prog.fail ⟨.unknown, "takeover: " ++ e.message ++ "; rollback pending: " ++ recovery.message⟩
  Prog.fail e

/-- Delegations have no place in a lease file, so the operator must accept their loss. -/
def checkDelegation (allowPD : Bool) (target : Config) : Except Failure Unit :=
  target.scopes.forM fun s =>
    refuseIf (s.pd.isSome && !allowPD)
      (.error ("scope " ++ s.id ++ " delegates prefixes, which dnsmasq's lease file cannot carry: " ++
        "a rollback would abandon them. Repeat the request with allow_pd to accept that, or add " ++
        "prefix delegation with an ordinary apply after the takeover"))

/-- `Handover.Begin`. The validation of probes and of the legacy configuration depends on the
host. -/
def begin (o : Options) (env : Env) (target : Config) (grace : Int) : Prog Machine Status Unit := do
  raise (target.validate.mapError Failure.error)
  Prog.require (30 ≤ grace && grace ≤ 1800)
    ⟨.unknown, "handover deadline must be 30..1800 seconds"⟩
  raise (checkDelegation o.allowPD target)
  Prog.fallible ⟨.unknown, "invalid probe"⟩
  let h ← Prog.get
  let previous := h.world.config
  Prog.require (previous.scopes.all fun s => !s.enabled)
    ⟨.unknown, "disable ghostd scopes before dnsmasq takeover"⟩
  let old ← onWorld loadHandover
  Prog.require old.phase.idle ⟨.unknown, "handover already exists in phase " ++ old.phase.text⟩
  Prog.fallible ⟨.unknown, "legacy configuration differs from the target"⟩
  let j : HandoverJournal :=
    { phase := .stopping, started := env.now 0, requireEvidence := o.requireEvidence,
      probes := o.probes, deadline := env.now 1 + grace, target, previous,
      revision := h.world.store.sequence % 2 ^ 32 }
  onWorld (openHandover j)
  Prog.handle (takeOver (env.after 2) j) fun (j, e) => giveUp (env.after 5) j e

/-! ### Confirm -/

/-- The client evidence a confirmation asks for. -/
def checkEvidence (env : Env) (j : HandoverJournal) : Prog World Status Unit :=
  if j.requireEvidence then do
    let missing ← view env 1 fun _ L => pure (missingEvidence (clientEvidence L j))
    Prog.require (missing = [])
      ⟨.unknown, "client verification incomplete: " ++ joinText missing "; "⟩
  else pure ()

/-- The active probes a confirmation runs; the journal keeps their results. -/
def checkProbes (j : HandoverJournal) : Prog World Status Unit :=
  if j.probes ≠ [] then do
    saveHandover j
    Prog.fallible ⟨.unknown, "active verification failed"⟩
  else pure ()

/-- `Handover.Confirm`. -/
def confirm (env : Env) : Prog Machine Status Unit := do
  let j ← onWorld loadHandover
  if j.phase = .confirmed then pure ()
  else do
    Prog.require (j.phase = .pending && env.now 0 < j.deadline)
      ⟨.unknown, "no live takeover to confirm"⟩
    onWorld (checkEvidence env j)
    Prog.fallible ⟨.unknown, "DNS verification failed"⟩
    onWorld (checkProbes j)
    Prog.require (env.now 2 < j.deadline) ⟨.unknown, "takeover expired during verification"⟩
    let j := { j with phase := .confirmed, deadline := 0 }
    onWorld (saveHandover j)
    onWorld (archiveHandover j (env.now 3))

end Ghostd.Handover
