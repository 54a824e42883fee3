import Ghostd.Addressbook.Identity
import Ghostd.Lib.Utf8

/-!
# `Ghostd.Addressbook.Suggest`: which peer may hold a lease

`internal/addressbook/suggest.go`. The peers that `tailscaled` reports are kept as they are. `Suggest`
compares them with the live leases that no node stands for, and proposes for each peer that fits an
operator's repair. It changes nothing itself.

Of a peer only what `Suggest` reads is modelled.
-/

set_option autoImplicit false

namespace Ghostd.Addressbook

open Ghostd.Lib

structure Peer where
  id : String
  dnsName : String
  lanAddrs : List String := []
  seen : Int := 0
  deriving DecidableEq, Repr

/-- `SightPeers`: the inventory is replaced by what is reported now. -/
def sightPeers (now : Int) (peers : List Peer) : Except Failure (Bucket String Peer) := do
  refuseIf (peers.length > 10000) (.error "too many peers")
  pure ((peers.filter (·.id ≠ "")).foldl (fun b p => b.put p.id { p with seen := now }) .empty)

/-- What a suggestion rests on. -/
inductive Strength where
  | endpoint
  | hostname
  deriving DecidableEq, Repr

def Strength.text : Strength → String
  | .endpoint => "endpoint"
  | .hostname => "hostname"

def Strength.evidence : Strength → String
  | .endpoint => "tailscaled reaches this peer directly at the leased LAN address"
  | .hostname => "only the host name matches; weak, confirm out of band before applying"

structure Suggestion where
  scope : String
  address : String
  device : String
  peerID : String
  peerName : String
  strength : Strength
  evidence : String
  ambiguous : Bool := false
  conflict : String := ""
  repair : IdentityRepair
  deriving DecidableEq, Repr

/-- `firstLabel`. -/
@[irreducible] def firstLabel (dnsName : String) : String := toLower ((splitText (trimEnd dnsName ".") ".").getD 0 "")

/-- How a peer fits a binding, if it does. The host name counts only when no endpoint does. -/
def fit (b : Binding) (p : Peer) : Option Strength :=
  if p.lanAddrs.any (· = b.address) then some .endpoint
  else
    let name := firstLabel p.dnsName
    if name ≠ "" && (name = toLower b.claimedName || (b.name ≠ b.device && name = b.name)) then
      some .hostname
    else none

/-- The name that is proposed: the peer's own, if it can be a name. -/
def proposedName (p : Peer) : String :=
  let name := firstLabel p.dnsName
  if !labelPattern name || name = "ns" then deviceID "tailnet" p.id else name

/-- The repair that is proposed. -/
def proposedRepair (b : Binding) (p : Peer) (strength : Strength) : IdentityRepair :=
  { scope := b.scope, address := b.address, client := b.client, expectedDevice := b.device
    device := deviceID "tailnet" p.id, name := proposedName p, nodeID := p.id
    reason := "suggested from peer inventory (" ++ strength.text ++ ")", persist := true }

/-- The suggestion of one peer for one binding. -/
def suggestOne (linked : Bucket String String) (b : Binding) (p : Peer) : Option Suggestion := do
  let strength ← fit b p
  pure
    { scope := b.scope, address := b.address, device := b.device, peerID := p.id, peerName := p.dnsName
      strength := strength, evidence := strength.evidence, repair := proposedRepair b p strength
      conflict := ((linked.get p.id).filter (· ≠ b.device)).elim "" ("peer is already linked to device " ++ ·) }

/-- The suggestions for one binding. When several peers fit, none is more right than another. -/
def suggestFor (linked : Bucket String String) (peers : List Peer) (b : Binding) : List Suggestion :=
  let mine := peers.filterMap (suggestOne linked b)
  mine.map fun sg => { sg with ambiguous := mine.length > 1 }

/-- `Suggest`. The inventory speaks for a device that declares its nodes. -/
def Ledger.suggest (L : Ledger) (now : Int) (c : Config) (inventory : Bucket String Peer) : List Suggestion :=
  let bindings := L.forEachLive.filter fun b => b.state = .active ∧ b.endsAt > now
  let linked := bindings.foldl
    (fun linked b => if b.nodeID ≠ "" then linked.put b.nodeID b.device else linked) .empty
  let peers := (inventory.entries.map Prod.snd).insertionSort fun p q => p.id ≤ q.id
  let bindings := bindings.insertionSort fun a b => a.scope ++ a.address ≤ b.scope ++ b.address
  bindings.flatMap fun b =>
    if b.nodeID ≠ "" ∨ startsWith b.evidence "operator repair:" then []
    else if (c.device b.device).any (·.declaresNodes) then []
    else suggestFor linked peers b

end Ghostd.Addressbook
