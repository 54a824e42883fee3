import Ghostd.Addressbook.Allocate

/-!
# `Ghostd.Addressbook.Identity`: sightings, host reports and operator repairs

`internal/addressbook/identity.go` and the ledger half of
`internal/addressbook/observations.go`. A report or a repair writes bindings that are there
already, under another device, name and node; only a report of an address with a fresh
sighting and no live binding adds one.

`Report` and `Repair` are one transaction each. `Report` that fails appends an audit event in
a second transaction, so its outcome is a ledger in any case.
-/

set_option autoImplicit false

namespace Ghostd.Addressbook

open Ghostd.Lib

/-! ### Observe -/

/-- A sighting as it is stored: in canonical text, with the time it is good for. -/
def recorded (now ttl : Int) (o : Observation) (ip : Addr) (mac : List Nat) : Observation :=
  { o with address := ip.text, mac := macText mac, seen := now, until_ := now + ttl }

/-- The body of the loop of `observe`. A first sighting, a changed hardware address and a
sighting after the last one ran out are history; a refresh only extends the stored one. -/
def observeOne (now ttl : Int) (c : Config) (L : Ledger) (o : Observation) :
    Except Failure Ledger := do
  let some s := c.scope o.scope | throw (.error "unknown observation scope")
  let some ip := parseAddr o.address | throw (.error "observation outside scope")
  let p ← mustParsePrefix s.subnet
  refuseIf (!p.contains ip) (.error "observation outside scope")
  let some mac := parseMAC o.mac | throw (.error "invalid observation MAC")
  refuseIf (mac.length ≠ 6) (.error "invalid observation MAC")
  let o := recorded now ttl o ip mac
  let key := bindingKey o.scope o.address
  let L' := { L with observations := L.observations.put key o }
  match L.observations.get key with
  | none => pure (L'.appendEvent { time := now, kind := .observation, observation := some o })
  | some prev =>
    if prev.mac ≠ o.mac ∨ prev.until_ ≤ now then
      let L' :=
        if prev.until_ > 0 then
          L'.appendEvent
            { time := now, kind := .observationEnd,
              observation := some { prev with until_ := min prev.until_ now } }
        else L'
      pure (L'.appendEvent { time := now, kind := .observation, observation := some o })
    else pure L'

/-- `observe`. -/
def Ledger.observeAll (L : Ledger) (now : Int) (c : Config) (observations : List Observation)
    (ttl : Int) : Except Failure Ledger := do
  refuseIf (observations.length > 10000) (.error "too many observations")
  observations.foldlM (observeOne now ttl c) L

/-- `Observe`: what the kernel's neighbour table says. -/
def Ledger.observe (L : Ledger) (now : Int) (c : Config) (observations : List Observation) :
    Except Failure Ledger :=
  L.observeAll now c (observations.map fun o => { o with origin := "kernel-neighbor" }) 120

/-- `ObserveSwitch`: what a switch says. -/
def Ledger.observeSwitch (L : Ledger) (now : Int) (c : Config) (observations : List Observation)
    (ttl : Int) : Except Failure Ledger := do
  refuseIf (ttl < 10 || ttl > 3600) (.error "ttl must be 10..3600 seconds")
  refuseIf (observations.any fun o => byteLength o.detail > 128)
    (.error "observation detail too long")
  L.observeAll now c (observations.map fun o => { o with origin := "switch-snooping" }) ttl

/-! ### Report -/

/-- A sighting of the hardware address that has not run out. -/
def freshSighting (now : Int) (mac : String) (o : Observation) : Bool := o.until_ > now && o.mac = mac

/-- A live binding at a reported address: it is matched when its hardware address is the
reported one, or a fresh sighting of that one is stored for it. -/
def matchBinding (L : Ledger) (now : Int) (mac : String)
    (found : List String × List Binding) (b : Binding) : List String × List Binding :=
  if b.key ∈ found.1 ∨ b.state ≠ .active ∨ b.endsAt ≤ now then found
  else if b.mac ≠ mac ∧ !(L.observations.get b.key).elim false (freshSighting now mac) then found
  else (b.key :: found.1, found.2 ++ [b])

/-- A scope that has the reported address: a fresh sighting with no live binding is matched as
a new binding. -/
def matchSighting (L : Ledger) (now : Int) (mac : String) (ip : Addr)
    (found : List String × List Binding) (s : Scope) : Except Failure (List String × List Binding) := do
  let p ← mustParsePrefix s.subnet
  let key := bindingKey s.id ip.text
  if !p.contains ip ∨ key ∈ found.1 then pure found
  else
    match (L.observations.get key).filter (freshSighting now mac) with
    | none => pure found
    | some o =>
      if (L.readBinding o.scope o.address).live now then pure found
      else
        pure (key :: found.1,
          found.2 ++
            [{ scope := o.scope, address := o.address, mac := o.mac, client := "neighbor:" ++ o.mac,
               device := deviceID o.scope o.mac, origin := .neighborReport, state := .active,
               start := now, endsAt := o.until_ }])

/-- One reported address. -/
def matchAddress (L : Ledger) (now : Int) (c : Config) (mac : String)
    (found : List String × List Binding) (address : String) :
    Except Failure (List String × List Binding) := do
  let found := (L.liveByAddress address).foldl (matchBinding L now mac) found
  match parseAddr address with
  | none => pure found
  | some ip => c.scopes.foldlM (matchSighting L now mac ip) found

/-- One reported interface. -/
def matchInterface (L : Ledger) (now : Int) (c : Config)
    (found : List String × List Binding) (iface : InterfaceReport) :
    Except Failure (List String × List Binding) :=
  iface.addresses.foldlM (matchAddress L now c ((parseMAC iface.mac).elim "" macText)) found

/-- The bindings a report is about. -/
def reportMatches (L : Ledger) (now : Int) (c : Config) (node : Node) :
    Except Failure (List Binding) := do
  let found ← node.interfaces.foldlM (matchInterface L now c) ([], [])
  pure found.2

/-- One matched binding against what is declared; the device and name found so far are passed
on. -/
def judgeMatch (c : Config) (node : Node) (found : String × String) (b : Binding) :
    Except Failure (String × String) := do
  refuseIf (b.nodeID ≠ "" && b.nodeID ≠ node.id &&
      !(c.device b.device).elim false fun d => d.hasNode b.nodeID && d.hasNode node.id)
    (.error ("identity conflict for " ++ b.scope ++ "/" ++ b.address))
  match c.device b.device with
  | none => pure found
  | some d => do
    refuseIf (d.declaresNodes && !d.hasNode node.id) (.error "inventory identity conflict")
    refuseIf (found.1 ≠ "" && found.1 ≠ d.id) (.error "report spans distinct declared devices")
    pure (d.id, d.name)

/-- The name of an undeclared node: its DNS label, unless the inventory or another node's live
binding has it. -/
def nodeName (L : Ledger) (now : Int) (c : Config) (node : Node) (device : String) : String :=
  let name := (splitText node.dnsName ".").getD 0 ""
  let name := if !labelPattern name || name = "ns" then device else name
  let name := if c.devices.any fun d => d.name = name || d.hasAlias name then device else name
  if (L.activeByName name).any fun b =>
      b.device ≠ device && b.nodeID ≠ "" && b.nodeID ≠ node.id && b.endsAt > now
  then device else name

/-- The device and name a report stands for. -/
def reportIdentity (L : Ledger) (now : Int) (c : Config) (node : Node) (found : List Binding) :
    Except Failure (String × String) := do
  let declared := c.devices.foldl
    (fun acc d => if d.hasNode node.id then (d.id, d.name) else acc) (("", "") : String × String)
  let (device, name) ← found.foldlM (judgeMatch c node) declared
  if device = "" then
    let device := deviceID "tailnet" node.id
    pure (device, nodeName L now c node device)
  else pure (device, name)

/-- A matched binding as the report leaves it. -/
def associated (L : Ledger) (now : Int) (node : Node) (device name : String) (b : Binding) : Binding :=
  let b' := { b with device := device, name := name, nodeID := node.id,
                     evidence := "authenticated self-report + active DHCP MAC/address" }
  if b.origin = .neighborReport then
    match (L.observations.get b.key).filter (freshSighting now b.mac) with
    | some o =>
      { b' with
          endsAt := o.until_
          evidence := "authenticated self-report + fresh " ++ o.origin ++ " sighting (not a DHCP grant)" }
    | none =>
      { b' with
          evidence := "authenticated self-report + fresh kernel-neighbor sighting (not a DHCP grant)" }
  else b'

/-- Write one matched binding, if the report changes its device, name, node or end. -/
def associate (now : Int) (node : Node) (device name : String) (L : Ledger) (b : Binding) :
    Except Failure Ledger := do
  refuseIf (startsWith b.evidence "operator repair:" && b.nodeID ≠ node.id)
    (.error "operator association requires explicit repair")
  let b' := associated L now node device name b
  if b.device ≠ device ∨ b.nodeID ≠ node.id ∨ b.name ≠ name ∨ b'.endsAt ≠ b.endsAt then
    pure (L.save now b' .associate)
  else pure L

/-- The transaction of `Report`. -/
def Ledger.joinReport (L : Ledger) (now : Int) (c : Config) (node : Node) :
    Except Failure (List Binding × Ledger) := do
  let node := { node with seen := now }
  let found ← reportMatches L now c node
  let (device, name) ← reportIdentity L now c node found
  let L' ← found.foldlM (associate now node device name) L
  pure (found.map (associated L now node device name), { L' with nodes := L'.nodes.put node.id node })

/-- The checks of a report before the transaction. -/
def checkReport (node : Node) : Except Failure Unit := do
  refuseIf (node.id = "" || node.interfaces.length > 64) (.error "invalid host report")
  node.interfaces.forM fun iface => do
    refuseIf (!(parseMAC iface.mac).elim false (·.length = 6) || iface.addresses.length > 128)
      (.error "invalid reported interface")
    refuseIf (iface.addresses.any fun a => (parseAddr a).isNone) (.error "invalid reported address")

/-- The text of a failure. -/
def Failure.text : Failure → String
  | .unavailable m => "address unavailable: " ++ m
  | .error m => m
  | .panic m => m

/-- `Report`. A refused transaction leaves an audit event; a panic leaves nothing. -/
def Ledger.report (L : Ledger) (now : Int) (c : Config) (node : Node) :
    Except Failure (List Binding) × Ledger :=
  match checkReport node with
  | .error e => (.error e, L)
  | .ok () =>
    match L.joinReport now c node with
    | .ok (joined, L') => (.ok joined, L')
    | .error (.panic m) => (.error (.panic m), L)
    | .error e => (.error e, L.audit now .identityConflict (node.id ++ ": " ++ e.text))

/-! ### Repair -/

structure IdentityRepair where
  scope : String
  address : String
  client : String
  expectedDevice : String
  device : String
  name : String
  nodeID : String
  reason : String
  persist : Bool := false
  forget : Bool := false
  deriving DecidableEq, Repr

/-- `putAssociation`. -/
def Ledger.putAssociation (L : Ledger) (now : Int) (r : IdentityRepair) : Ledger :=
  if r.forget then { L with associations := L.associations.delete r.client }
  else if !r.persist then L
  else
    let a := (L.readAssociation r.client).getD {}
    let replaced := (L.readAssociation r.client).isSome &&
      (a.device ≠ r.device || a.name ≠ r.name || a.nodeID ≠ r.nodeID)
    let version : AssociationVersion :=
      { device := a.device, name := a.name, nodeID := a.nodeID, reason := a.reason,
        updated := a.updated, ended := now }
    { L with
        associations := L.associations.put r.client
          { client := r.client, device := r.device, name := r.name, nodeID := r.nodeID,
            reason := r.reason, updated := now,
            history := if replaced then a.history ++ [version] else a.history } }

/-- The inventory forbids the repair: the name is another declared device's, or the device is
declared with another name or without the node. -/
def repairConflict (r : IdentityRepair) (d : DeviceConfig) : Bool :=
  ((d.name = r.name || d.hasAlias r.name) && d.id ≠ r.device) ||
    (d.id = r.device && (d.name ≠ r.name || (d.declaresNodes && !d.hasNode r.nodeID)))

/-- The body of the loop of `Repair`. -/
def repairOne (now : Int) (c : Config) (L : Ledger) (r : IdentityRepair) : Except Failure Ledger := do
  refuseIf (!labelPattern r.device || !labelPattern r.name || r.name = "ns" ||
      r.reason.toList.all isSpace || byteLength r.reason > 512)
    (.error "repair requires valid device/name and reason")
  refuseIf (c.devices.any (repairConflict r)) (.error "repair conflicts with inventory")
  match (L.activeByName r.name).find? fun other =>
      other.device ≠ r.device && other.endsAt > now &&
        !(other.scope = r.scope && other.address = r.address) with
  | some other =>
    throw (.error ("name " ++ quoted r.name ++ " is already held by live device " ++ other.device))
  | none => do
    let b := L.readBinding r.scope r.address
    refuseIf (b.client ≠ r.client || b.device ≠ r.expectedDevice || b.state ≠ .active ||
        b.endsAt ≤ now)
      (.error "binding changed; refresh before repairing")
    refuseIf ((c.scope b.scope).elim false fun s =>
        (reservation s b.client b.mac).elim false fun reserved => reserved.device ≠ r.device)
      (.error "change inventory reservation before repairing this binding")
    let b := { b with device := r.device, name := r.name, nodeID := r.nodeID,
                      evidence := "operator repair: " ++ r.reason }
    pure ((L.save now b .identityRepair).putAssociation now r)

/-- `Repair`. -/
def Ledger.repair (L : Ledger) (now : Int) (c : Config) (changes : List IdentityRepair) :
    Except Failure Ledger := do
  refuseIf (changes.length = 0 || changes.length > 256) (.error "repair needs 1..256 bindings")
  changes.foldlM (repairOne now c) L

end Ghostd.Addressbook
