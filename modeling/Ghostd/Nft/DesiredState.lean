import Ghostd.Lib.Netip
import Ghostd.Lib.Result
import Ghostd.Lib.Text

/-!
# `Ghostd.Nft.DesiredState`: the firewall policy and what is accepted of it

`internal/nft/desiredstate.go` and the `validate` half of `internal/nft/render.go` and
`internal/nft/output.go`. Field names follow the source. A number of the policy is a Go `int`
read from JSON, so it is an `Int` here, negative ones included.

The zones are a Go map: a list of named zones in which no name stands twice (`ZoneMap`). The
source checks them in map order, which is not fixed; here it is the order of the list. The
order decides which error is reported first and not whether there is one.
-/

set_option autoImplicit false

namespace Ghostd.Nft

open Ghostd.Lib

structure PortRule where
  port : Int
  proto : String
  deriving DecidableEq, Repr

structure RedirectRule where
  port : Int
  toPort : Int
  proto : String
  deriving DecidableEq, Repr

structure SSHRule where
  port : Int
  deriving DecidableEq, Repr

structure NFSRule where
  exports : List String
  deriving DecidableEq, Repr

structure Zone where
  interfaces : List String
  ssh : Option SSHRule := none
  nfs : Option NFSRule := none
  services : List String := []
  ports : List PortRule := []
  target : String := ""
  forward : List String := []
  masquerade : Bool := false
  redirects : List RedirectRule := []
  deriving DecidableEq, Repr

structure Ingress where
  interfaces : List String
  redirects : List RedirectRule
  deriving DecidableEq, Repr

structure OutputRule where
  proto : String
  port : Int
  family : String := ""
  interface : String := ""
  destination : String := ""
  deriving DecidableEq, Repr

structure OutputPolicy where
  policy : String
  establishedRelated : Bool
  loopback : Bool
  rules : List OutputRule
  deriving DecidableEq, Repr

/-- The zones by name. -/
structure ZoneMap where
  entries : List (String × Zone)
  nodup : (entries.map Prod.fst).Nodup

structure DesiredState where
  redirectOnly : Bool := false
  zones : ZoneMap
  ingress : Option Ingress := none
  output : Option OutputPolicy := none
  allowDNATForward : Bool := false

/-- `ReachabilityGuard`. -/
structure ReachabilityGuard where
  tailscaleInterface : String
  port : Int
  deriving DecidableEq, Repr

/-- The zone of a name; a missing one reads as the empty zone. -/
def ZoneMap.get (zones : ZoneMap) (name : String) : Zone :=
  (zones.entries.lookup name).getD { interfaces := [] }

/-! ### Characters and numbers -/

/-- `validPort`. -/
def validPort (port : Int) : Bool := 1 ≤ port && port ≤ 65535

/-- A character of `interfaceName`. -/
def interfaceChar (c : Char) : Bool := asciiAlphanum c || c ∈ ['_', '.', ':', '-']

/-- `validInterface`. -/
def validInterface (name : String) : Bool :=
  name.toList.all interfaceChar && 1 ≤ name.toList.length && name.toList.length ≤ 15 &&
    name ≠ "." && name ≠ ".."

/-- The pattern `zoneName`. -/
def validZoneName (name : String) : Bool :=
  match name.toList with
  | [] => false
  | c :: cs =>
    ((asciiAlphanum c && !('0' ≤ c && c ≤ '9')) || c = '_') &&
      cs.all fun d => asciiAlphanum d || d = '_'

/-- The `%+v` verb of a redirect. -/
def RedirectRule.show (r : RedirectRule) : String :=
  "\x7bPort:" ++ toString r.port ++ " ToPort:" ++ toString r.toPort ++ " Proto:" ++ r.proto ++ "\x7d"

/-- The `%+v` verb of a port rule. -/
def PortRule.show (r : PortRule) : String :=
  "\x7bPort:" ++ toString r.port ++ " Proto:" ++ r.proto ++ "\x7d"

/-! ### Services -/

/-- `builtinServices`. -/
def builtinServices : String → Option (List PortRule)
  | "mdns" => some [⟨5353, "udp"⟩]
  | "tftp" => some [⟨69, "udp"⟩]
  | "dns" => some [⟨53, "tcp"⟩, ⟨53, "udp"⟩]
  | "dhcp" => some [⟨67, "udp"⟩]
  | "dhcpv6-client" => some [⟨546, "udp"⟩]
  | "http" => some [⟨80, "tcp"⟩]
  | "https" => some [⟨443, "tcp"⟩]
  | _ => none

/-- `serviceReplyPorts`. -/
def serviceReplyPorts : String → List PortRule
  | "mdns" => [⟨5353, "udp"⟩]
  | _ => []

/-- `nfsPorts`: rpcbind, nfsd and mountd. -/
def nfsPorts : List Int := [111, 2049, 20048]

/-! ### Validation -/

/-- Whether the protocol is one of the two a port rule can have. -/
def validProto (proto : String) : Bool := proto = "tcp" || proto = "udp"

/-- The address an output rule's destination starts with. -/
def destinationAddr (destination : String) : Option Addr :=
  match parseAddr destination with
  | some a => some a
  | none => (parsePrefix destination).map (·.addr)

/-- The checks of `validateOutput` on one rule. -/
def validateOutputRule (rule : OutputRule) : Except String Unit := do
  refuseIf (!validPort rule.port || !validProto rule.proto) "nft: invalid output port/protocol"
  refuseIf (rule.family ≠ "" && rule.family ≠ "ip" && rule.family ≠ "ip6")
    "nft: invalid output family"
  refuseIf (rule.interface ≠ "" && !validInterface rule.interface) "nft: invalid output interface"
  match rule.destination, destinationAddr rule.destination with
  | "", _ => pure ()
  | _, none => throw "nft: invalid output destination"
  | _, some addr =>
    refuseIf (addr.zone ≠ "" || (rule.family = "ip" && !addr.is4) ||
      (rule.family = "ip6" && addr.is4)) "nft: output destination family mismatch"

/-- `validateOutput`. -/
def validateOutput : Option OutputPolicy → Except String Unit
  | none => pure ()
  | some output => do
    refuseIf (output.policy ≠ "DROP" && output.policy ≠ "ACCEPT")
      "nft: output policy must be DROP or ACCEPT"
    output.rules.forM validateOutputRule

/-- The ingress redirects, each external port once. -/
def validateIngressRedirects (seen : List Int) : List RedirectRule → Except String Unit
  | [] => pure ()
  | rule :: rest => do
    refuseIf (!validPort rule.port || !validPort rule.toPort || rule.port = rule.toPort ||
        rule.proto ≠ "tcp" || rule.port ∈ seen)
      ("nft: invalid or duplicate ingress redirect " ++ rule.show)
    validateIngressRedirects (rule.port :: seen) rest

/-- The ingress part of `validate`. -/
def validateIngress : Option Ingress → Except String Unit
  | none => pure ()
  | some ingress => do
    refuseIf (ingress.interfaces = [] || ingress.redirects = [])
      "nft: ingress requires interfaces and the ports to redirect"
    ingress.interfaces.forM fun iface =>
      refuseIf (!validInterface iface) ("nft: invalid ingress interface " ++ quoted iface)
    validateIngressRedirects [] ingress.redirects

/-- Assign a zone's interfaces; no interface is in two zones, or twice in one. -/
def assignInterfaces (name : String) :
    List String → List (String × String) → Except String (List (String × String))
  | [], assigned => pure assigned
  | iface :: rest, assigned => do
    refuseIf (!validInterface iface) ("nft: invalid interface " ++ quoted iface)
    match assigned.lookup iface with
    | some previous =>
      throw ("nft: interface " ++ quoted iface ++ " repeated in zones " ++ quoted previous ++
        " and " ++ quoted name)
    | none => assignInterfaces name rest ((iface, name) :: assigned)

/-- A zone's redirects, each protocol and external port once. -/
def validateRedirects (seen : List (String × Int)) : List RedirectRule → Except String Unit
  | [] => pure ()
  | rule :: rest => do
    refuseIf (!validPort rule.port || !validPort rule.toPort || rule.port = rule.toPort ||
        !validProto rule.proto || (rule.proto, rule.port) ∈ seen)
      ("nft: invalid or duplicate redirect " ++ rule.show)
    validateRedirects ((rule.proto, rule.port) :: seen) rest

/-- An NFS export is an IPv4 address or prefix. -/
def validExport (source : String) : Bool :=
  (parsePrefix source).any (·.addr.is4) || (parseAddr source).any (·.is4)

/-- What a redirect-only zone must not contain. -/
def Zone.filters (zone : Zone) : Bool :=
  zone.ssh.isSome || zone.nfs.isSome || zone.services ≠ [] || zone.ports ≠ [] ||
    zone.forward ≠ [] || zone.masquerade || (zone.target ≠ "" && zone.target ≠ "DROP")

/-- The body of the zone loop of `validate`. It returns the interfaces assigned so far. -/
def validateZone (ds : DesiredState) (name : String) (zone : Zone)
    (assigned : List (String × String)) : Except String (List (String × String)) := do
  refuseIf (ds.redirectOnly && zone.filters)
    "nft: redirect-only zone cannot contain filtering or forwarding policy"
  refuseIf (!validZoneName name) ("nft: invalid zone name " ++ quoted name)
  refuseIf (zone.target ≠ "" && !equalFold zone.target "DROP" && !equalFold zone.target "ACCEPT")
    ("nft: invalid target " ++ quoted zone.target)
  let assigned ← assignInterfaces name zone.interfaces assigned
  refuseIf (zone.ssh.any fun ssh => !validPort ssh.port) "nft: invalid SSH port"
  zone.ports.forM fun rule =>
    refuseIf (!validPort rule.port || !validProto rule.proto)
      ("nft: invalid port rule " ++ rule.show)
  validateRedirects [] zone.redirects
  (zone.nfs.map NFSRule.exports |>.getD []).forM fun source =>
    refuseIf (!validExport source)
      ("nft: NFS source must be an IPv4 address or CIDR: " ++ quoted source)
  zone.forward.forM fun egress =>
    refuseIf (egress ∉ ds.zones.entries.map Prod.fst)
      ("nft: zone " ++ quoted name ++ " forwards to undeclared zone " ++ quoted egress)
  zone.services.forM fun svc =>
    refuseIf (builtinServices svc).isNone
      ("nft: zone " ++ quoted name ++ " declares unrecognized service " ++ quoted svc)
  refuseIf (zone.interfaces = []) ("nft: zone " ++ quoted name ++ " declares no interfaces")
  pure assigned

/-- The zone loop of `validate`. -/
def validateZones (ds : DesiredState) :
    List (String × Zone) → List (String × String) → Except String Unit
  | [], _ => pure ()
  | (name, zone) :: rest, assigned => do
    let assigned ← validateZone ds name zone assigned
    validateZones ds rest assigned

/-- `validate`. -/
def validate (ds : DesiredState) : Except String Unit := do
  refuseIf (ds.redirectOnly && (ds.output.isSome || ds.ingress.isSome || ds.allowDNATForward))
    "nft: redirect-only policy cannot contain output or ingress policy"
  validateOutput ds.output
  refuseIf (ds.zones.entries = []) "nft: no zones declared"
  validateIngress ds.ingress
  validateZones ds ds.zones.entries []
  let hasReachableZone := ds.zones.entries.any fun z => z.1 = "trusted" || z.2.ssh.isSome
  refuseIf (!hasReachableZone && !ds.redirectOnly)
    ("nft: no zone declares ssh (and no zone is named \"trusted\") — " ++
      "this host would be unreachable")

end Ghostd.Nft
