import Ghostd.Addressbook.Dhcp6

/-!
# `Ghostd.Addressbook.Dhcp4`: answering a DHCPv4 packet

`Handle4` and `wantsBoot` of `internal/addressbook/server.go`, and `DHCPOption.wire` of
`internal/addressbook/config.go`. The handler is a `Session` as that of `Ghostd.Addressbook.Dhcp6`.

The options of a reply are a table by their code, as in the library: a later one with the same code
replaces an earlier one. The fields that the library copies from every request into its reply
(transaction, hardware address, relay and client options) are left out.
-/

set_option autoImplicit false

namespace Ghostd.Addressbook

open Ghostd.Lib Session

/-! ### Messages -/

inductive MessageType4 where
  | none | discover | offer | request | decline | ack | nak | release | inform | other (code : Nat)
  deriving DecidableEq, Repr

/-- What the handler reads of a `dhcpv4.DHCPv4`. An option that is absent is empty or missing. -/
structure Message4 where
  bootRequest : Bool := true
  hwAddr : List Nat
  gatewayIP : BitVec 32 := 0
  clientIP : BitVec 32 := 0
  messageType : MessageType4
  serverIdentifier : Option (BitVec 32) := .none
  clientIdentifier : List Nat := []
  requestedIP : Option (BitVec 32) := .none
  hostName : String := ""
  classIdentifier : String := ""
  parameterRequestList : List Nat := []
  hopCount : Nat := 0
  deriving DecidableEq, Repr

/-- What the handler sets of a reply. -/
structure Reply4 where
  clientIP : BitVec 32 := 0
  yourIP : IP := 0
  serverIP : IP := 0
  bootFileName : String := ""
  options : Bucket Nat (List Nat) := .empty

/-- The codes of the options that the handler sets itself. -/
def optionSubnetMask : Nat := 1
def optionRouter : Nat := 3
def optionDNS : Nat := 6
def optionLeaseTime : Nat := 51
def optionMessageType : Nat := 53
def optionServerIdentifier : Nat := 54
def optionTFTPServerName : Nat := 66
def optionBootfileName : Nat := 67
def optionDomainSearch : Nat := 119

/-- The code of a message type in option 53. -/
def MessageType4.code : MessageType4 → Nat
  | .none => 0
  | .discover => 1
  | .offer => 2
  | .request => 3
  | .decline => 4
  | .ack => 5
  | .nak => 6
  | .release => 7
  | .inform => 8
  | .other code => code

/-- A number as four bytes, the highest first. -/
def fourBytes (n : Nat) : List Nat := [n / 2 ^ 24 % 256, n / 2 ^ 16 % 256, n / 2 ^ 8 % 256, n % 256]

/-- `IP.To4`: nothing for an address that is none of four bytes. -/
def to4 (ip : IP) : List Nat := if IP.is4 ip then fourBytes ip.toNat else []

/-- A domain search list of one name. -/
def searchList (zone : String) : List Nat :=
  ((splitText zone ".").flatMap fun label => byteLength label :: utf8Bytes label) ++ [0]

/-! ### Extra options and network boot -/

/-- `DHCPOption.wire`. -/
def DHCPOption.wire (o : DHCPOption) : Except Failure (List Nat) :=
  let number (bits : Nat) : Nat := (parseUint (o.value.headD "") 10 bits).getD 0
  match o.type with
  | "ips" => do
    let addresses ← o.value.mapM fun v => do
      let a ← mustParseAddr v
      refuseIf (!a.is4) (.panic "As4 called on IPv6 address")
      pure (fourBytes a.value)
    pure addresses.flatten
  | "text" => pure (utf8Bytes (o.value.headD ""))
  | "u8" => pure [number 8]
  | "u16" => pure [number 16 / 256, number 16 % 256]
  | "u32" => pure (fourBytes (number 32))
  | _ => pure []

/-- `wantsBoot`. -/
def wantsBoot (r : Message4) (b : BootConfig) : Bool :=
  b.always || r.messageType = .none || startsWith r.classIdentifier "PXEClient" ||
    optionTFTPServerName ∈ r.parameterRequestList || optionBootfileName ∈ r.parameterRequestList

/-- `dhcpv4.GenericOptionCode`: a code of one byte. -/
def genericOptionCode (code : Int) : Nat := (code % 256).toNat

/-- The loop over the extra options of a scope. -/
def withOption (reply : Reply4) (o : DHCPOption) : Except Failure Reply4 := do
  let value ← o.wire
  pure { reply with options := reply.options.put (genericOptionCode o.code) value }

/-- The network-boot fields. -/
def withBoot (server : IP) (b : BootConfig) (reply : Reply4) : Reply4 :=
  let next := if b.nextServer ≠ "" then (parseIP b.nextServer).getD 0 else server
  { reply with
      serverIP := next
      bootFileName := b.file
      options :=
        (reply.options.put optionTFTPServerName (utf8Bytes (IP.text next))).put optionBootfileName
          (utf8Bytes b.file) }

/-! ### The handler -/

/-- The client a packet comes from: its client identifier, or its hardware address. -/
def client4 (r : Message4) : String :=
  if r.clientIdentifier ≠ [] then "id:" ++ encodeHex r.clientIdentifier else "mac:" ++ macText r.hwAddr

/-- The address a packet is about: the one it asks for, or the one it comes from. -/
def requested4 (r : Message4) : String :=
  match r.requestedIP with
  | some ip => IP.text (IP.ofV4 ip)
  | .none => if r.clientIP ≠ 0 then IP.text (IP.ofV4 r.clientIP) else ""

/-- A reply with a message type and the server's identity. -/
def plainReply (server : IP) (type : MessageType4) : Reply4 :=
  { options :=
      (Bucket.empty.put optionMessageType [type.code]).put optionServerIdentifier (to4 server) }

/-- The reply that carries a lease, before the extra options. -/
def leaseReply (s : Scope) (r : Message4) (server : IP) (network : Prefix) (type : MessageType4)
    (b : Binding) : Reply4 :=
  let dns := if s.dnsServers = [] then [server] else s.dnsServers.map fun d => (parseIP d).getD 0
  { plainReply server type with
      clientIP := r.clientIP
      yourIP := (parseIP b.address).getD 0
      options :=
        (((((plainReply server type).options.put optionSubnetMask
          (fourBytes (2 ^ 32 - 2 ^ (32 - network.bits)))).put optionRouter
          (to4 ((parseIP s.router).getD 0))).put optionDNS (dns.flatMap to4)).put optionLeaseTime
          (fourBytes (s.leaseSeconds % 2 ^ 32).toNat)).put optionDomainSearch (searchList s.zone) }

/-- The answer to a Discover or Request that got a lease. -/
def answerLease (s : Scope) (r : Message4) (server : IP) (type : MessageType4) (b : Binding) :
    Except Failure Reply4 := do
  match parsePrefix s.subnet with
  | .none => throw (.panic "nil network")
  | some network => do
    let reply ← s.options.foldlM withOption (leaseReply s r server network type b)
    match s.boot with
    | some boot => pure (if wantsBoot r boot then withBoot server boot reply else reply)
    | .none => pure reply

/-- `Handle4`. -/
def handle4 (c : Config) (s : Scope) (now : Int) (r : Message4) : Handler Reply4 := do
  stopIf (!r.bootRequest || r.hwAddr.length ≠ 6) .silent
  stopIf (s.relay.isNone && r.gatewayIP ≠ 0) .silent
  let server := (parseIP s.server).getD 0
  stopIf (r.serverIdentifier.any fun id => some (IP.ofV4 id) ≠ parseIP s.server) .silent
  let client := client4 r
  let requested := requested4 r
  match r.messageType with
  | .discover => do
    let b ← transact (fun L =>
      L.allocate now c s.id client (macText r.hwAddr) r.hostName requested false) .failed
    ofExcept (answerLease s r server .offer b) .failed
  | .request => do
    let granted ← tryAllocate fun L =>
      L.allocate now c s.id client (macText r.hwAddr) r.hostName requested true
    match granted with
    | some b => ofExcept (answerLease s r server .ack b) .failed
    | .none => pure (plainReply server .nak)
  | .release | .decline => do
    transact (fun L => (L.release now s.id client requested (r.messageType = .decline)).map ((), ·)) .failed
    throw .silent
  | .inform =>
    pure
      { plainReply server .ack with
          clientIP := r.clientIP
          options :=
            ((plainReply server .ack).options.put optionDNS (to4 server)).put optionDomainSearch
              (searchList s.zone) }
  | .none | .offer | .ack | .nak | .other _ => throw .silent

end Ghostd.Addressbook
