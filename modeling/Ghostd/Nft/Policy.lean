import Ghostd.Nft.Semantics

/-!
# `Ghostd.Nft.Policy`: what a firewall policy says about a packet

The policy read as a declaration, without chains, jumps or an order of rules. `Opens` lists what
a zone opens, `Admits` what may reach the host, and `Forwards` what may cross it. Each constructor
is one reason. `Ghostd.Proofs.Nft.Filter` compares them with the rendered chains.

A packet belongs to the zone that owns its input interface. `validate` lets an interface be in one
zone only, so there is at most one.
-/

set_option autoImplicit false

namespace Ghostd.Nft

open Ghostd.Lib

/-- The zone that has an interface, with its name. -/
def DesiredState.owner (ds : DesiredState) (iface : String) : Option (String × Zone) :=
  ds.zones.entries.find? fun z => iface ∈ z.2.interfaces

/-- The packet goes to a port. -/
def Packet.To (p : Packet) (proto : String) (port : Int) : Prop := p.l4proto = proto ∧ p.dport = port

/-- The packet came in on a bridge of Podman. -/
def Packet.OnPodman (p : Packet) : Prop := "podman".toList <+: p.iif.toList

/-- A packet to the host that a zone lets in. -/
inductive Opens (name : String) (zone : Zone) (p : Packet) : Prop where
  | trusted (htrusted : name = "trusted")
  | target (htarget : equalFold zone.target "ACCEPT" = true)
  | ssh (rule : SSHRule) (hssh : zone.ssh = some rule) (hto : p.To "tcp" rule.port)
  | service (svc : String) (hsvc : svc ∈ zone.services) (ports : List PortRule)
      (hports : builtinServices svc = some ports) (rule : PortRule) (hrule : rule ∈ ports)
      (hto : p.To rule.proto rule.port)
  /-- The answer of a service's peer, from its port to an unprivileged one. -/
  | reply (svc : String) (hsvc : svc ∈ zone.services) (rule : PortRule)
      (hrule : rule ∈ serviceReplyPorts svc) (hproto : p.l4proto = rule.proto)
      (hfrom : p.sport = rule.port) (hlow : 1024 ≤ p.dport) (hhigh : p.dport ≤ 65535)
  | port (rule : PortRule) (hrule : rule ∈ zone.ports) (hto : p.To rule.proto rule.port)
  | nfs (rule : NFSRule) (hnfs : zone.nfs = some rule) (source : String) (hsource : source ∈ rule.exports)
      (hfamily : p.src.is4 = true) (hcovers : covers source p.src = true) (hproto : p.l4proto = "tcp")
      (hport : p.dport ∈ nfsPorts)
  /-- A flow that a redirect of the zone has translated. -/
  | redirect (rule : RedirectRule) (hrule : rule ∈ zone.redirects) (hdnat : p.dnat = true)
      (horiginal : p.originalDport = rule.port) (hto : p.To rule.proto rule.toPort)

/-- A packet that may reach the host. -/
inductive Admits (ds : DesiredState) (guard : ReachabilityGuard) (p : Packet) : Prop where
  | established (hstate : p.established = true)
  | loopback (hlo : p.iif = "lo")
  | podmanDNS (hbridge : p.OnPodman) (hto : p.To "udp" 53 ∨ p.To "tcp" 53)
  | podmanMDNS (hbridge : p.OnPodman) (hto : p.To "udp" 5353)
  | icmpError (hproto : p.l4proto = "ipv6-icmp")
      (htype : p.icmpType ∈ ["destination-unreachable", "packet-too-big", "time-exceeded",
        "parameter-problem"])
  /-- Neighbour and router discovery does not cross a router. -/
  | discovery (hproto : p.l4proto = "ipv6-icmp")
      (htype : p.icmpType ∈ ["nd-router-solicit", "nd-router-advert", "nd-neighbor-solicit",
        "nd-neighbor-advert"])
      (hlimit : p.hoplimit = 255)
  | guard (hiface : p.iif = guard.tailscaleInterface) (hto : p.To "tcp" guard.port)
  | ingress (ingress : Ingress) (hingress : ds.ingress = some ingress) (hiface : p.iif ∈ ingress.interfaces)
      (rule : RedirectRule) (hrule : rule ∈ ingress.redirects) (hto : p.To "tcp" rule.toPort)
  | zone (name : String) (zone : Zone) (howner : ds.owner p.iif = some (name, zone))
      (hopens : Opens name zone p)

/-- A packet that may cross the host. -/
inductive Forwards (ds : DesiredState) (p : Packet) : Prop where
  | established (hstate : p.established = true)
  | dnat (hallow : ds.allowDNATForward = true) (hdnat : p.dnat = true)
  | zones (name : String) (zone : Zone) (howner : ds.owner p.iif = some (name, zone)) (egress : String)
      (hegress : egress ∈ zone.forward) (hout : p.oif ∈ (ds.zones.get egress).interfaces)

end Ghostd.Nft
