import Ghostd.Nft.DesiredState
import Mathlib.Data.List.Sort

/-!
# `Ghostd.Nft.Render`: the script a policy becomes

`internal/nft/render.go` and `writeOutputChain` of `internal/nft/output.go`. The source writes
text; the model builds the script as a tree of chains, rules, matches and actions, one
function for each of the source's, and `Script.text` prints the tree as the source's bytes.
The meaning of a script is in `Ghostd.Nft.Semantics`.
-/

set_option autoImplicit false

namespace Ghostd.Nft

open Ghostd.Lib

/-- The condition part of a rule. -/
inductive Match where
  | ctStateEstablishedRelated
  | ctStatusDnat
  | ctOriginalProtoDst (port : Int)
  | iifname (name : String)
  | iifnameSet (names : List String)
  | oifname (name : String)
  | oifnameSet (names : List String)
  | fibDaddrLocal
  | l4proto (proto : String)
  | nfproto (family : String)
  | dport (proto : String) (port : Int)
  | dportSet (proto : String) (ports : List Int)
  | dportRange (proto : String) (low high : Int)
  | sport (proto : String) (port : Int)
  | saddr (family source : String)
  | daddr (family destination : String)
  | daddrSet (family : String) (destinations : List String)
  | icmpv6Type (types : List String)
  | hoplimit (limit : Int)
  deriving DecidableEq, Repr

/-- What a rule does when its conditions hold. -/
inductive Action where
  | accept
  | jump (chain : String)
  | redirect (port : Int)
  | dnat (port : Int)
  | masquerade
  | ctHelperSet (helper : String)
  deriving DecidableEq, Repr

structure Rule where
  conditions : List Match
  action : Action
  deriving DecidableEq, Repr

/-- Where a base chain hooks in. A chain without a policy has none written. -/
structure Hook where
  kind : String
  hook : String
  priority : Int
  policy : Option String
  deriving DecidableEq, Repr

structure Chain where
  name : String
  base : Option Hook
  rules : List Rule
  deriving DecidableEq, Repr

/-- The table: the TFTP helper object, if it is declared, and the chains in order. -/
structure Script where
  tftpHelper : Bool
  chains : List Chain
  deriving DecidableEq, Repr

/-! ### Building the chains -/

/-- `sortedStrings`. -/
def sortedStrings (items : List String) : List String := items.insertionSort (· ≤ ·)

/-- `sortedZoneNames`. -/
def sortedZoneNames (zones : ZoneMap) : List String := sortedStrings (zones.entries.map Prod.fst)

/-- `sortedIngressRedirects`. -/
def sortedIngressRedirects (ingress : Ingress) : List RedirectRule :=
  ingress.redirects.insertionSort fun a b => a.port ≤ b.port

/-- `backendPorts`: the translated ports, each once, in order. -/
def backendPorts (ingress : Ingress) : List Int :=
  ((sortedIngressRedirects ingress).map (·.toPort)).dedup.insertionSort (· ≤ ·)

/-- `ingressOutputDestinations`. -/
def ingressOutputDestinations : List Match :=
  [.daddr "ip" "100.64.0.0/10", .daddr "ip6" "fd7a:115c:a1e0::/48",
    .daddrSet "ip" ["10.0.0.0/8", "172.16.0.0/12", "192.168.0.0/16"], .daddr "ip6" "fc00::/7"]

/-- `writeTFTPHelper`: the interfaces of the zones that open the tftp service, once for each
time a zone lists it. -/
def tftpInterfaces (ds : DesiredState) (names : List String) : List String :=
  names.flatMap fun name =>
    ((ds.zones.get name).services.filter (· = "tftp")).flatMap fun _ => (ds.zones.get name).interfaces

def tftpHelperChain (ds : DesiredState) (names : List String) : List Chain :=
  if tftpInterfaces ds names = [] then []
  else
    [{ name := "tftp_helper"
       base := some ⟨"filter", "prerouting", -300, some "accept"⟩
       rules := [⟨[.iifnameSet (sortedStrings (tftpInterfaces ds names)), .dport "udp" 69],
         .ctHelperSet "ghost_tftp"⟩] }]

/-- The rules of the input chain before the guard: none of them can drop. -/
def inputPreamble : List Rule :=
  [⟨[.ctStateEstablishedRelated], .accept⟩,
    ⟨[.iifname "lo"], .accept⟩,
    ⟨[.iifname "podman*", .dport "udp" 53], .accept⟩,
    ⟨[.iifname "podman*", .dport "tcp" 53], .accept⟩,
    ⟨[.iifname "podman*", .dport "udp" 5353], .accept⟩,
    ⟨[.l4proto "ipv6-icmp", .icmpv6Type ["destination-unreachable", "packet-too-big",
      "time-exceeded", "parameter-problem"]], .accept⟩,
    ⟨[.l4proto "ipv6-icmp", .icmpv6Type ["nd-router-solicit", "nd-router-advert",
      "nd-neighbor-solicit", "nd-neighbor-advert"], .hoplimit 255], .accept⟩]

/-- The reachability guard's own rule. -/
def guardRule (guard : ReachabilityGuard) : List Rule :=
  if guard.tailscaleInterface ≠ "" ∧ guard.port ≠ 0 then
    [⟨[.iifname guard.tailscaleInterface, .dport "tcp" guard.port], .accept⟩]
  else []

/-- `writeInputChain`. -/
def inputChain (ds : DesiredState) (guard : ReachabilityGuard) (names : List String) : Chain where
  name := "input"
  base := some ⟨"filter", "input", 0, some "drop"⟩
  rules :=
    inputPreamble ++ guardRule guard ++
    (names.map fun name =>
      ⟨[.iifnameSet (sortedStrings (ds.zones.get name).interfaces)], .jump ("zone_" ++ name)⟩) ++
    match ds.ingress with
    | some ingress =>
      if ingress.redirects = [] then []
      else [⟨[.iifnameSet (sortedStrings ingress.interfaces),
        .dportSet "tcp" (backendPorts ingress)], .accept⟩]
    | none => []

/-- `writeForwardChain`. -/
def forwardChain (ds : DesiredState) (names : List String) : Chain where
  name := "forward"
  base := some ⟨"filter", "forward", 0, some "drop"⟩
  rules :=
    [⟨[.ctStateEstablishedRelated], .accept⟩] ++
    (if ds.allowDNATForward then [⟨[.ctStatusDnat], .accept⟩] else []) ++
    names.flatMap fun name =>
      (sortedStrings (ds.zones.get name).forward).map fun egress =>
        ⟨[.iifnameSet (sortedStrings (ds.zones.get name).interfaces),
          .oifnameSet (sortedStrings (ds.zones.get egress).interfaces)], .accept⟩

/-- One rule of `writeOutputChain`. -/
def outputRule (rule : OutputRule) : Rule where
  conditions :=
    (if rule.family ≠ "" then [.nfproto (if rule.family = "ip6" then "ipv6" else "ipv4")] else []) ++
    (if rule.interface ≠ "" then [.oifname rule.interface] else []) ++
    (if rule.destination ≠ "" then
      [.daddr (if ':' ∈ rule.destination.toList then "ip6" else "ip") rule.destination] else []) ++
    [.dport rule.proto rule.port]
  action := .accept

/-- The rules of `writeOutputChain`. -/
def outputRules (output : OutputPolicy) : List Rule :=
  (if output.establishedRelated then [⟨[.ctStateEstablishedRelated], .accept⟩] else []) ++
  (if output.loopback then [⟨[.oifname "lo"], .accept⟩] else []) ++
  output.rules.map outputRule

/-- `writeOutputChain`. -/
def outputChain : Option OutputPolicy → List Chain
  | none => []
  | some output =>
    [{ name := "output"
       base := some ⟨"filter", "output", 0,
         some (String.ofList (output.policy.toList.map lowerChar))⟩
       rules := outputRules output }]

/-- `writePreroutingChain`. -/
def preroutingChain (ds : DesiredState) : Chain where
  name := "prerouting"
  base := some ⟨"nat", "prerouting", -100, none⟩
  rules :=
    ((sortedZoneNames ds.zones).flatMap fun name =>
      (sortedStrings (ds.zones.get name).interfaces).flatMap fun iface =>
        (ds.zones.get name).redirects.map fun rule =>
          ⟨[.iifname iface, .fibDaddrLocal, .dport rule.proto rule.port], .redirect rule.toPort⟩) ++
    match ds.ingress with
    | some ingress =>
      (sortedStrings ingress.interfaces).flatMap fun iface =>
        (sortedIngressRedirects ingress).map fun rule =>
          ⟨[.iifname iface, .fibDaddrLocal, .dport "tcp" rule.port], .dnat rule.toPort⟩
    | none => []

/-- `writeIngressOutputChain`. -/
def ingressOutputChain (ds : DesiredState) : List Chain :=
  match ds.ingress with
  | none => []
  | some ingress =>
    if ingress.redirects = [] then []
    else
      [{ name := "output_redirect"
         base := some ⟨"nat", "output", -100, none⟩
         rules := (sortedIngressRedirects ingress).flatMap fun rule =>
           ingressOutputDestinations.map fun destination =>
             ⟨[.fibDaddrLocal, destination, .dport "tcp" rule.port], .redirect rule.toPort⟩ }]

/-- `writePostroutingChain`. -/
def postroutingChain (ds : DesiredState) (names : List String) : Chain where
  name := "postrouting"
  base := some ⟨"nat", "postrouting", 100, none⟩
  rules := names.flatMap fun name =>
    if (ds.zones.get name).masquerade then
      (sortedStrings (ds.zones.get name).interfaces).map fun iface =>
        ⟨[.oifname iface], .masquerade⟩
    else []

/-- The rules of `writeZoneChain`. The zone named trusted accepts everything. -/
def zoneRules (name : String) (zone : Zone) : List Rule :=
  if name = "trusted" then [⟨[], .accept⟩]
  else
    (zone.ssh.map fun ssh => ⟨[.dport "tcp" ssh.port], .accept⟩).toList ++
    (zone.redirects.map fun rule =>
      ⟨[.ctStatusDnat, .l4proto rule.proto, .ctOriginalProtoDst rule.port,
        .dport rule.proto rule.toPort], .accept⟩) ++
    ((zone.nfs.map fun nfs => (sortedStrings nfs.exports).map fun source =>
      ⟨[.saddr "ip" source, .dportSet "tcp" nfsPorts], .accept⟩).getD []) ++
    ((sortedStrings zone.services).flatMap fun svc =>
      ((serviceReplyPorts svc).map fun rule =>
        ⟨[.sport rule.proto rule.port, .dportRange rule.proto 1024 65535], .accept⟩) ++
      (((builtinServices svc).getD []).map fun rule =>
        ⟨[.dport rule.proto rule.port], .accept⟩)) ++
    (zone.ports.map fun rule => ⟨[.dport rule.proto rule.port], .accept⟩) ++
    (if equalFold zone.target "ACCEPT" then [⟨[], .accept⟩] else [])

/-- `writeZoneChain`. -/
def zoneChain (name : String) (zone : Zone) : Chain where
  name := "zone_" ++ name
  base := none
  rules := zoneRules name zone

/-- The table `Render` writes for an accepted policy. -/
def script (ds : DesiredState) (guard : ReachabilityGuard) : Script :=
  let names := sortedZoneNames ds.zones
  if ds.redirectOnly then { tftpHelper := false, chains := [preroutingChain ds] }
  else
    { tftpHelper := tftpInterfaces ds names ≠ []
      chains :=
        tftpHelperChain ds names ++
        [inputChain ds guard names, forwardChain ds names] ++
        outputChain ds.output ++
        [preroutingChain ds] ++
        ingressOutputChain ds ++
        [postroutingChain ds names] ++
        names.map fun name => zoneChain name (ds.zones.get name) }

/-- `Render`. -/
def render (ds : DesiredState) (guard : ReachabilityGuard) : Except String Script := do
  refuseIf (!validInterface guard.tailscaleInterface || !validPort guard.port)
    "nft: invalid reachability guard"
  validate ds
  pure (script ds guard)

/-! ### Printing -/

/-- `strings.Join(items, ", ")` in braces. -/
def bracedSet (items : List String) : String := "\x7b " ++ ", ".intercalate items ++ " \x7d"

/-- `ifaceSet`, of names that are already sorted. -/
def ifaceSet (interfaces : List String) : String := bracedSet (interfaces.map quoted)

/-- `portSet`, in braces. -/
def portSet (ports : List Int) : String := bracedSet (ports.map toString)

def Match.text : Match → String
  | .ctStateEstablishedRelated => "ct state established,related"
  | .ctStatusDnat => "ct status dnat"
  | .ctOriginalProtoDst port => "ct original proto-dst " ++ toString port
  | .iifname name => "iifname " ++ quoted name
  | .iifnameSet names => "iifname " ++ ifaceSet names
  | .oifname name => "oifname " ++ quoted name
  | .oifnameSet names => "oifname " ++ ifaceSet names
  | .fibDaddrLocal => "fib daddr type local"
  | .l4proto proto => "meta l4proto " ++ proto
  | .nfproto family => "meta nfproto " ++ family
  | .dport proto port => proto ++ " dport " ++ toString port
  | .dportSet proto ports => proto ++ " dport " ++ portSet ports
  | .dportRange proto low high => proto ++ " dport " ++ toString low ++ "-" ++ toString high
  | .sport proto port => proto ++ " sport " ++ toString port
  | .saddr family source => family ++ " saddr " ++ source
  | .daddr family destination => family ++ " daddr " ++ destination
  | .daddrSet family destinations => family ++ " daddr " ++ bracedSet destinations
  | .icmpv6Type types => "icmpv6 type " ++ bracedSet types
  | .hoplimit limit => "ip6 hoplimit " ++ toString limit

def Action.text : Action → String
  | .accept => "accept"
  | .jump chain => "jump " ++ chain
  | .redirect port => "redirect to :" ++ toString port
  | .dnat port => "dnat to :" ++ toString port
  | .masquerade => "masquerade"
  | .ctHelperSet helper => "ct helper set " ++ quoted helper

def Rule.text (rule : Rule) : String :=
  "    " ++ " ".intercalate (rule.conditions.map Match.text ++ [rule.action.text]) ++ "\n"

def Hook.text (hook : Hook) : String :=
  "    type " ++ hook.kind ++ " hook " ++ hook.hook ++ " priority " ++ toString hook.priority ++ ";" ++
    (hook.policy.map fun policy => " policy " ++ policy ++ ";").getD "" ++ "\n"

def Chain.text (chain : Chain) : String :=
  "  chain " ++ chain.name ++ " \x7b\n" ++ (chain.base.map Hook.text).getD "" ++
    "".intercalate (chain.rules.map Rule.text) ++ "  \x7d\n"

/-- The text `Render` returns. -/
def Script.text (s : Script) : String :=
  "# Atomic replacement: ensure the table exists, delete it, then recreate it below.\n" ++
  "# nft applies this entire file as one transaction; other tables are untouched.\n" ++
  "add table inet stack_ghostd\ndelete table inet stack_ghostd\n" ++
  "table inet stack_ghostd \x7b\n" ++
  (if s.tftpHelper then "  ct helper ghost_tftp \x7b\n    type \"tftp\" protocol udp\n  \x7d\n"
    else "") ++
  "".intercalate (s.chains.map Chain.text) ++ "\x7d\n"

end Ghostd.Nft
