import Ghostd.Addressbook.Dhcp4

/-!
# `Ghostd.Addressbook.CorePlugin`: from a socket to the handlers

`internal/addressbook/core_plugin.go`, `matches4` and `matches6` of
`internal/addressbook/server.go`, and `HandleMsg4` and `HandleMsg6` of
`internal/coredhcpserver/handle.go`.

A socket serves the scopes of one family on one interface, its `key`. A packet first passes the
guard, which asks every enabled scope of the socket with `matches4` or `matches6`. Then it goes
through the chain of plugins. The plugin `ghostleases` looks for its scope once more, by the link
alone, and calls the handler with the first one. The guard keeps the configuration locked until
the packet is done, so both look at the same one.

The other plugins of the chain are parameters, and so are the handlers of the store, since which
scope they are called with is the question here. Logging and the locks are left out, and so is the
pass over the routes that a DHCPv6 reply starts in the background.
-/

set_option autoImplicit false

namespace Ghostd.Addressbook

open Ghostd.Lib Session

/-! ### Peers -/

/-- `net.UDPAddr`; its address may be missing. -/
structure UDPAddr where
  ip : Option IP
  port : Int
  deriving DecidableEq, Repr

/-- `net.Addr`: a UDP address, or one of another kind. -/
inductive NetAddr where
  | udp (a : UDPAddr)
  | other
  deriving DecidableEq, Repr

def portDHCPv4Server : Int := 67
def portDHCPv6Server : Int := 547

/-! ### The guard -/

/-- `matches4`. -/
def matches4 (s : Scope) (r : Message4) (peer : NetAddr) : Bool :=
  if s.is6 then false
  else
    match s.relay with
    | none => r.gatewayIP = 0
    | some relay =>
      match peer with
      | .udp p =>
        p.port = portDHCPv4Server && p.ip = parseIP relay.peer &&
          some (IP.ofV4 r.gatewayIP) = parseIP relay.link && r.hopCount ≤ 16
      | .other => false

/-- The loop of `matches6`: every layer is a Relay-forward within the limits, and the innermost one
has the link. -/
def relayedFrom (link : Option IP) (depth : Nat) : Packet6 → Bool
  | .message _ => false
  | .relay _ none => false
  | .relay header (some inner) =>
    if header.messageType ≠ .forward ∨ header.hopCount > 32 ∨ depth ≥ 32 then false
    else if !inner.isRelay then some header.linkAddr = link
    else relayedFrom link (depth + 1) inner

/-- `matches6`. -/
def matches6 (s : Scope) (r : Packet6) (peer : NetAddr) : Bool :=
  if !s.is6 then false
  else
    match s.relay with
    | none => !r.isRelay
    | some relay =>
      match peer with
      | .udp p =>
        p.port = portDHCPv6Server && p.ip = parseIP relay.peer && relayedFrom (parseIP relay.link) 0 r
      | .other => false

/-- The scope is served on the socket. -/
def Scope.onSocket (key : String) (s : Scope) : Bool := s.enabled && s.socketKey = key

/-- `Guard4` of `startCore`. -/
def guard4 (c : Config) (key : String) (r : Message4) (peer : NetAddr) : Bool :=
  c.scopes.any fun s => s.onSocket key && matches4 s r peer

/-- `Guard6` of `startCore`. -/
def guard6 (c : Config) (key : String) (r : Packet6) (peer : NetAddr) : Bool :=
  c.scopes.any fun s => s.onSocket key && matches6 s r peer

/-! ### The plugin -/

/-- `relayLink`: the link of the innermost relay layer; `n` counts the layers. -/
def relayLink (n : Nat) : Packet6 → Option IP
  | .message _ => none
  | .relay _ none => none
  | .relay header (some inner) =>
    if n ≥ 32 then none
    else if !inner.isRelay then some header.linkAddr
    else relayLink (n + 1) inner

/-- `clientLinkLocal`: the next hop to a client. -/
def clientLinkLocal (r : Packet6) (peer : UDPAddr) : Option IP :=
  if r.isRelay then peer.ip.filter fun ip => !(IP.isUnspecified ip || IP.isMulticast ip)
  else peer.ip.filter IP.isLinkLocalUnicast

/-- The condition of the loop of the DHCPv4 plugin. -/
def serves4 (key : String) (r : Message4) (s : Scope) : Bool :=
  s.onSocket key &&
    match s.relay with
    | none => r.gatewayIP = 0
    | some relay => some (IP.ofV4 r.gatewayIP) = parseIP relay.link

/-- The condition of the loop of the DHCPv6 plugin. -/
def serves6 (key : String) (r : Packet6) (s : Scope) : Bool :=
  s.onSocket key &&
    match s.relay with
    | none => !r.isRelay
    | some relay => relayLink 0 r = parseIP relay.link

/-- `ghostleases` for DHCPv4. The reply of `Handle4` is given the server's address. -/
def ghostleases4 (handle : Config → Scope → Message4 → Handler Reply4) (c : Config) (key : String)
    (r : Message4) : Handler Reply4 :=
  match c.scopes.find? (serves4 key r) with
  | none => throw .silent
  | some s => do
    let reply ← handle c s r
    pure { reply with serverIP := (parseIP s.server).getD 0 }

/-- `ghostleases` for DHCPv6. -/
def ghostleases6 (handle : Config → Scope → Packet6 → Option IP → Handler Message6) (c : Config)
    (key : String) (r : Packet6) (peer : UDPAddr) : Handler Message6 :=
  match c.scopes.find? (serves6 key r) with
  | none => throw .silent
  | some s => handle c s r (clientLinkLocal r peer)

/-! ### The chain -/

/-- A plugin of the chain. Given the request and the reply so far, it returns the reply to go on
with, and whether the chain stops here. -/
abbrev Plugin (Q R : Type) := Q → Option R → Ledger → (Option R × Bool) × Ledger

/-- A handler as a plugin: a packet without a reply stops the chain. -/
def asPlugin {Q R : Type} (handler : Q → Handler R) : Plugin Q R := fun r _ L =>
  match (handler r).on L with
  | (.ok reply, L') => ((some reply, false), L')
  | (.error _, L') => ((none, true), L')

/-- The loop over the handlers. -/
def runChain {Q R : Type} : List (Plugin Q R) → Q → Option R → Ledger → Option R × Ledger
  | [], _, resp, L => (resp, L)
  | plugin :: rest, r, resp, L =>
    match plugin r resp L with
    | ((resp', stop), L') => if stop then (resp', L') else runChain rest r resp' L'

/-- The reply that the chain starts with; nothing for a message that is not served. -/
def basicReply4 : MessageType4 → Option Reply4
  | .discover => some { options := Bucket.empty.put optionMessageType [MessageType4.offer.code] }
  | .request | .inform => some { options := Bucket.empty.put optionMessageType [MessageType4.ack.code] }
  | .release | .decline => some {}
  | .none | .offer | .ack | .nak | .other _ => none

/-- `HandleMsg4`: the reply that is sent, and the ledger. -/
def handleMsg4 (guard : Message4 → NetAddr → Bool) (chain : List (Plugin Message4 Reply4)) (r : Message4)
    (peer : NetAddr) (L : Ledger) : Option Reply4 × Ledger :=
  if !guard r peer then (none, L)
  else if !r.bootRequest then (none, L)
  else
    match basicReply4 r.messageType with
    | none => (none, L)
    | some reply => runChain chain r (some reply) L

/-- The reply that the chain starts with. `library` is what the library makes of a message that it
answers by itself, or its refusal. -/
def basicReply6 (library : Message6 → Option Message6) (m : Message6) : Option Message6 :=
  match m.messageType with
  | .solicit | .request | .confirm | .renew | .rebind | .release => library m
  | .decline | .informationRequest => some { messageType := .reply, transactionID := m.transactionID }
  | .advertise | .reply | .reconfigure | .other _ => none

/-- `HandleMsg6`, before the reply is wrapped for the relays. -/
def handleMsg6 (guard : Packet6 → NetAddr → Bool) (library : Message6 → Option Message6)
    (chain : UDPAddr → List (Plugin Packet6 Message6)) (r : Packet6) (peer : UDPAddr) (L : Ledger) :
    Option Message6 × Ledger :=
  if !guard r (.udp peer) then (none, L)
  else
    match r.getInnerMessage.bind (basicReply6 library) with
    | none => (none, L)
    | some reply => runChain (chain peer) r (some reply) L

/-- A DHCPv4 socket that `startCore` starts, with the plugins before and after `ghostleases`. -/
def socket4 (handle : Config → Scope → Message4 → Handler Reply4)
    (before after : List (Plugin Message4 Reply4)) (c : Config) (key : String) :
    Message4 → NetAddr → Ledger → Option Reply4 × Ledger :=
  handleMsg4 (guard4 c key) (before ++ asPlugin (ghostleases4 handle c key) :: after)

/-- A DHCPv6 socket that `startCore` starts. -/
def socket6 (handle : Config → Scope → Packet6 → Option IP → Handler Message6)
    (library : Message6 → Option Message6) (before after : List (Plugin Packet6 Message6)) (c : Config)
    (key : String) : Packet6 → UDPAddr → Ledger → Option Message6 × Ledger :=
  handleMsg6 (guard6 c key) library fun peer =>
    before ++ asPlugin (fun r => ghostleases6 handle c key r peer) :: after

end Ghostd.Addressbook
