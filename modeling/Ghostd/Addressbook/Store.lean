import Ghostd.Addressbook.Config
import Ghostd.Lib.Bucket
import Ghostd.Lib.Sha256
import Mathlib.Data.List.Sort
import Mathlib.Logic.Function.Basic

/-!
# `Ghostd.Addressbook.Store`: the ledger of bindings

`internal/addressbook/store.go` and `internal/addressbook/index.go`. A `Ledger` is the content
of the database: one `Bucket` for each bucket of the source, under the same keys. A Go string
is compared by its bytes and a Lean string by its characters, which is the same order.

A binding is written by `Ledger.save` only, which keeps the DNS index, the expiry index and
the four secondary indexes in step with it and appends an event. Times are Unix seconds; the
time of a transaction is an argument. A transaction of the source that fails leaves the
database as it was, so it is a function to `Except Failure`, whose failure carries no ledger.

Bindings are stored as JSON, which every value here survives, so reading one back does not
fail. `endsAt` is the field `End`.
-/

set_option autoImplicit false

namespace Ghostd.Addressbook

open Ghostd.Lib

/-! ### Records -/

/-- The states of a binding; `unset` is that of the zero value. -/
inductive BindingState where
  | unset | active | offered | declined | released | expired
  deriving DecidableEq, Repr

/-- Where a binding comes from. `dhcpv6PD` is `originPD`: the address is a prefix. -/
inductive Origin where
  | unset | dhcpv4 | dhcpv6 | dhcpv6PD | dnsmasqImport | neighborReport
  deriving DecidableEq, Repr

structure Binding where
  duid : String := ""
  iaid : String := ""
  preferredEnd : Int := 0
  scope : String := ""
  address : String := ""
  client : String := ""
  mac : String := ""
  device : String := ""
  name : String := ""
  claimedName : String := ""
  state : BindingState := .unset
  origin : Origin := .unset
  start : Int := 0
  endsAt : Int := 0
  nodeID : String := ""
  evidence : String := ""
  via : String := ""
  deriving DecidableEq, Repr

structure Observation where
  scope : String
  address : String
  mac : String
  origin : String := ""
  detail : String := ""
  seen : Int := 0
  until_ : Int := 0
  historical : Bool := false
  deriving DecidableEq, Repr

structure InterfaceReport where
  mac : String
  addresses : List String
  deriving DecidableEq, Repr

structure Node where
  id : String
  dnsName : String
  addresses : List String := []
  interfaces : List InterfaceReport := []
  seen : Int := 0
  deriving DecidableEq, Repr

structure AssociationVersion where
  device : String
  name : String
  nodeID : String
  reason : String
  updated : Int
  ended : Int
  deriving DecidableEq, Repr

/-- An operator-asserted mapping from a client to a device. -/
structure Association where
  client : String := ""
  device : String := ""
  name : String := ""
  nodeID : String := ""
  reason : String := ""
  updated : Int := 0
  history : List AssociationVersion := []
  deriving DecidableEq, Repr

/-- The kinds of events. -/
inductive EventKind where
  | offer | grant | renew | release | decline | expire | «import» | associate | identityRepair
  | observation | observationEnd | dnsConfig | identityConflict
  deriving DecidableEq, Repr

structure Event where
  message : String := ""
  id : Nat := 0
  time : Int
  kind : EventKind
  binding : Binding := {}
  observation : Option Observation := none
  deriving DecidableEq, Repr

/-- Why an operation fails. `unavailable` is an error that wraps `ErrUnavailable`; `panic` is a
`Must` function of `netip` on text it cannot parse, or a nil dereference. -/
inductive Failure where
  | unavailable (message : String)
  | error (message : String)
  | panic (message : String)
  deriving DecidableEq, Repr

/-- The secondary indexes. -/
inductive Index where
  | client | mac | name | addr
  deriving DecidableEq, Repr

/-- The database. `duid` is the server DUID of the metadata bucket, empty when there is none,
and `dnsConfig` what the stored fingerprint was computed from. -/
structure Ledger where
  bindings : Bucket String Binding := .empty
  events : List Event := []
  sequence : Nat := 0
  nodes : Bucket String Node := .empty
  dns : Bucket String String := .empty
  expiry : Bucket (Nat ×ₗ String) Unit := .empty
  indexes : Index → Bucket String Unit := fun _ => .empty
  observations : Bucket String Observation := .empty
  associations : Bucket String Association := .empty
  duid : List Nat := []
  dnsConfig : Option (List Scope × List DeviceConfig) := none

/-! ### Keys and states -/

/-- `bindingKey`. -/
def bindingKey (scope address : String) : String := scope ++ "/" ++ address

/-- The key a binding is stored under. -/
def Binding.key (b : Binding) : String := bindingKey b.scope b.address

/-- `liveState`. -/
def liveState : BindingState → Bool
  | .active | .offered | .declined => true
  | .unset | .released | .expired => false

/-- Somebody holds the address: the binding is active or offered. -/
def heldState : BindingState → Bool
  | .active | .offered => true
  | .unset | .declined | .released | .expired => false

/-- A 64-bit time as the unsigned number its key starts with. -/
def timeKey (t : Int) : Nat := (t % 2 ^ 64).toNat

/-- The time of a key. -/
def keyTime (n : Nat) : Int := if n < 2 ^ 63 then n else n - 2 ^ 64

/-- `expiryKey`: the end first, so that the index is ordered by it. -/
def expiryKey (b : Binding) : Nat ×ₗ String := toLex (timeKey b.endsAt, b.key)

/-- `dnsKey`. -/
def dnsKey (b : Binding) : String := b.scope ++ "/" ++ b.name ++ "/" ++ b.address

/-- The parts of an index key, joined by NUL. -/
def indexKey (parts : List String) : String := joinText parts "\x00"

/-- `indexEntries`. -/
def indexEntries (b : Binding) : List (Index × String) :=
  if liveState b.state then
    [(.client, indexKey [b.client, b.scope, b.address])] ++
      (if b.mac ≠ "" then [(.mac, indexKey [b.mac, b.scope, b.address])] else []) ++
      (if b.state = .active ∧ b.name ≠ "" then [(.name, indexKey [b.name, b.scope, b.address])]
        else []) ++
      [(.addr, indexKey [b.address, b.scope])]
  else []

/-- `deviceID`. -/
def deviceID (scope client : String) : String :=
  String.ofList
    (("device-" ++ encodeHex (sha256 (utf8Bytes (scope ++ "/" ++ client)))).toList.take 23)

namespace Ledger

/-! ### Writing -/

/-- `readBinding`: the zero binding when there is none. -/
def readBinding (L : Ledger) (scope address : String) : Binding :=
  (L.bindings.get (bindingKey scope address)).getD {}

/-- Remove an entry of an index. -/
def dropIndex (L : Ledger) (e : Index × String) : Ledger :=
  { L with indexes := Function.update L.indexes e.1 ((L.indexes e.1).delete e.2) }

/-- Add an entry to an index. -/
def addIndex (L : Ledger) (e : Index × String) : Ledger :=
  { L with indexes := Function.update L.indexes e.1 ((L.indexes e.1).put e.2 ()) }

/-- `reindex`. -/
def reindex (L : Ledger) (old b : Binding) : Ledger :=
  (indexEntries b).foldl addIndex ((indexEntries old).foldl dropIndex L)

/-- `appendEvent`: the event gets the next number. -/
def appendEvent (L : Ledger) (e : Event) : Ledger :=
  { L with sequence := L.sequence + 1, events := L.events ++ [{ e with id := L.sequence + 1 }] }

/-- `audit`. -/
def audit (L : Ledger) (now : Int) (kind : EventKind) (message : String) : Ledger :=
  L.appendEvent { time := now, kind := kind, message := message }

/-- `save`: write a binding with everything that is derived from it. -/
def save (L : Ledger) (now : Int) (b : Binding) (kind : EventKind) : Ledger :=
  let old := L.readBinding b.scope b.address
  let dns := if old.name ≠ "" then L.dns.delete (dnsKey old) else L.dns
  let expiry := if liveState old.state then L.expiry.delete (expiryKey old) else L.expiry
  let L := L.reindex old b
  let L :=
    { L with
        expiry := if liveState b.state then expiry.put (expiryKey b) () else expiry
        dns := if b.state = BindingState.active ∧ b.origin ≠ Origin.dhcpv6PD then dns.put (dnsKey b) b.key else dns
        bindings := L.bindings.put b.key b }
  L.appendEvent { time := now, kind := kind, binding := b }

/-- `NoteDNSConfig`. -/
def noteDNSConfig (L : Ledger) (now : Int) (c : Config) : Ledger :=
  if L.dnsConfig = some (c.scopes, c.devices) then L
  else
    { L with dnsConfig := some (c.scopes, c.devices) }.appendEvent { time := now, kind := .dnsConfig }

/-! ### Reading through the indexes -/

/-- The scope and address of an index key; a key with another number of parts has none. -/
def indexTarget (index : Index) (key : String) : Option (String × String) :=
  match index, key.toList.splitOn '\x00' with
  | .addr, [address, scope] => some (String.ofList scope, String.ofList address)
  | _, [_, scope, address] => some (String.ofList scope, String.ofList address)
  | _, _ => none

/-- `idxPrefix`. -/
def idxPrefix (parts : List String) : String :=
  String.ofList (parts.flatMap fun p => p.toList ++ ['\x00'])

/-- `liveFromIndex`: the live bindings behind the keys with a given start, in key order. -/
def liveFromIndex (L : Ledger) (index : Index) (start : String) : List Binding :=
  (L.indexes index).entries.filterMap fun e =>
    if startsWith e.1 start then do
      let (scope, address) ← indexTarget index e.1
      let b := L.readBinding scope address
      if b.scope = "" ∨ !liveState b.state then none else some b
    else none

/-- `liveByClient`: a client's live bindings in one scope. -/
def liveByClient (L : Ledger) (scope client : String) : List Binding :=
  L.liveFromIndex .client (idxPrefix [client, scope])

/-- `liveByClientPrefix`: the live bindings of every client whose name starts so. -/
def liveByClientPrefix (L : Ledger) (start : String) : List Binding :=
  L.liveFromIndex .client start

/-- `liveByAddress`: the live bindings at an address, across scopes. -/
def liveByAddress (L : Ledger) (address : String) : List Binding :=
  L.liveFromIndex .addr (idxPrefix [address])

/-- `activeByName`: the active bindings that carry a DNS name. -/
def activeByName (L : Ledger) (name : String) : List Binding :=
  (L.liveFromIndex .name (idxPrefix [name])).filter fun b => b.state = .active ∧ b.name = name

/-- `forEachLive`: the live bindings behind the keys of the expiry index, in its order. -/
def forEachLive (L : Ledger) : List Binding :=
  L.expiry.entries.filterMap fun e =>
    (L.bindings.get (ofLex e.1).2).filter fun b => liveState b.state

/-- `readAssociation`. -/
def readAssociation (L : Ledger) (client : String) : Option Association :=
  L.associations.get client

end Ledger

/-! ### Snapshots -/

/-- `Snapshot`: the state of the ledger at an instant. -/
structure Snapshot where
  observations : List Observation := []
  serverDUID : String := ""
  bindings : List Binding := []
  nodes : List Node := []
  associations : List Association := []

/-- The order of the bindings of a snapshot. -/
def Binding.before (a b : Binding) : Bool := toLex (a.scope, a.address) ≤ toLex (b.scope, b.address)

/-- How a snapshot shows a binding: one whose end has come is expired, also before `Expire`
has said so. -/
def Binding.at (b : Binding) (time : Int) : Binding :=
  if b.endsAt ≤ time ∧ liveState b.state then { b with state := .expired } else b

namespace Ledger

/-- The filter of a snapshot. -/
def selected (scope ip : String) (s a : String) : Bool := (scope = "" || s = scope) && (ip = "" || a = ip)

/-- The selected bindings as the events up to an instant left them. -/
def bindingsAt (L : Ledger) (scope ip : String) (time : Int) : Bucket String Binding :=
  (L.events.filter fun e =>
      e.time ≤ time && e.binding.scope ≠ "" && selected scope ip e.binding.scope e.binding.address).foldl
    (fun states e => states.put e.binding.key e.binding) .empty

/-- The last selected sighting of each address up to an instant. -/
def sightingsAt (L : Ledger) (scope ip : String) (time : Int) : Bucket String Observation :=
  (((L.events.filter fun e => e.time ≤ time).filterMap (·.observation)).filter fun o =>
      selected scope ip o.scope o.address).foldl
    (fun sightings o => sightings.put (bindingKey o.scope o.address) o) .empty

/-- `Snapshot`. The instant zero means now; a past instant is answered from the events. -/
def snapshot (L : Ledger) (now : Int) (scope ip : String) (time : Int) :
    Except Failure Snapshot := do
  let time := if time = 0 then now else time
  refuseIf (time < 0) (.error "at must be a nonnegative Unix timestamp")
  refuseIf (time > now) (.error "future attribution is not available")
  let held := (L.bindings.entries.map Prod.snd).filter fun b => selected scope ip b.scope b.address
  let states := if time = now then held else (L.bindingsAt scope ip time).entries.map Prod.snd
  let current := (L.observations.entries.map Prod.snd).filter fun o => selected scope ip o.scope o.address
  let past := ((L.sightingsAt scope ip time).entries.map Prod.snd).filter fun o =>
    o.seen ≤ time && time < o.until_
  pure
    { observations := if time = now then current else past.map fun o => { o with historical := true }
      serverDUID := encodeHex L.duid
      bindings := (states.map (·.at time)).insertionSort fun a b => a.before b
      nodes := L.nodes.entries.map Prod.snd
      associations := if time = now then L.associations.entries.map Prod.snd else [] }

end Ledger

end Ghostd.Addressbook
