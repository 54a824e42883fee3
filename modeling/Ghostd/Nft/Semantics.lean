import Ghostd.Nft.Render

/-!
# `Ghostd.Nft.Semantics`: what a script does to a packet

The meaning of a rendered table, as far as one packet of one connection goes. A chain takes
its first matching rule that decides; a jump that ends without a decision comes back; the end
of a base chain is its policy. A NAT chain is asked for the first packet of a connection only
and takes its first matching translation.

`Reaches` is the property of the daemon's own listener: the first packet of a connection to it
keeps its port in prerouting and is accepted by the input chain, and the packets the listener
sends back pass the output chain. A chain that is not rendered decides nothing.
-/

set_option autoImplicit false

namespace Ghostd.Nft

open Ghostd.Lib

inductive Verdict where
  | accept | drop
  deriving DecidableEq, Repr

/-- What the rules of a script look at. -/
structure Packet where
  iif : String
  oif : String
  src : Addr
  dst : Addr
  dstLocal : Bool
  l4proto : String
  sport : Int
  dport : Int
  /-- The conntrack state is established or related. -/
  established : Bool
  /-- The conntrack status has the DNAT bit. -/
  dnat : Bool
  /-- The destination port before translation. -/
  originalDport : Int
  icmpType : String
  hoplimit : Int

/-- An interface name in a rule; a trailing star matches any rest. -/
def ifnameMatches (pattern name : String) : Bool :=
  if pattern.toList.getLast? = some '*' then pattern.toList.dropLast.isPrefixOf name.toList
  else pattern = name

/-- An address or prefix in a rule. -/
def covers (text : String) (a : Addr) : Bool :=
  parseAddr text = some a || (parsePrefix text).any (·.contains a)

/-- The address family a rule names. -/
def familyMatches (family : String) (a : Addr) : Bool :=
  (family = "ip" && a.is4) || (family = "ip6" && a.is6)

/-- A condition of a rule. -/
def Match.holds (p : Packet) : Match → Bool
  | .ctStateEstablishedRelated => p.established
  | .ctStatusDnat => p.dnat
  | .ctOriginalProtoDst port => p.originalDport = port
  | .iifname name => ifnameMatches name p.iif
  | .iifnameSet names => names.any (ifnameMatches · p.iif)
  | .oifname name => ifnameMatches name p.oif
  | .oifnameSet names => names.any (ifnameMatches · p.oif)
  | .fibDaddrLocal => p.dstLocal
  | .l4proto proto => p.l4proto = proto
  | .nfproto family => (family = "ipv4" && p.dst.is4) || (family = "ipv6" && p.dst.is6)
  | .dport proto port => p.l4proto = proto && p.dport = port
  | .dportSet proto ports => p.l4proto = proto && p.dport ∈ ports
  | .dportRange proto low high => p.l4proto = proto && low ≤ p.dport && p.dport ≤ high
  | .sport proto port => p.l4proto = proto && p.sport = port
  | .saddr family source => familyMatches family p.src && covers source p.src
  | .daddr family destination => familyMatches family p.dst && covers destination p.dst
  | .daddrSet family destinations =>
    familyMatches family p.dst && destinations.any (covers · p.dst)
  | .icmpv6Type types => p.icmpType ∈ types
  | .hoplimit limit => p.hoplimit = limit

/-- All conditions of a rule. -/
def Rule.holds (p : Packet) (rule : Rule) : Bool := rule.conditions.all (Match.holds p)

/-- The decision of a list of rules, given what a jump decides. -/
def evalRules (jump : String → Option Verdict) (p : Packet) : List Rule → Option Verdict
  | [] => none
  | rule :: rest =>
    if rule.holds p then
      match rule.action with
      | .accept => some .accept
      | .jump chain => (jump chain).or (evalRules jump p rest)
      | _ => evalRules jump p rest
    else evalRules jump p rest

/-- The rules of the chain of a name. -/
def Script.rulesOf (s : Script) (name : String) : List Rule :=
  ((s.chains.find? (·.name = name)).map (·.rules)).getD []

/-- The decision of a chain that was jumped to, through at most `depth` further jumps. -/
def Script.evalChain (s : Script) (p : Packet) : Nat → String → Option Verdict
  | 0, _ => none
  | depth + 1, name => evalRules (s.evalChain p depth) p (s.rulesOf name)

/-- The base chain of a kind at a hook. -/
def Script.baseChain (s : Script) (kind hook : String) : Option Chain :=
  s.chains.find? fun c => c.base.any fun b => b.kind = kind && b.hook = hook

/-- The decision of the filter chain at a hook. A script's jumps do not form a cycle, so
they never go deeper than the number of its chains. -/
def Script.decision (s : Script) (hook : String) (p : Packet) : Verdict :=
  match s.baseChain "filter" hook with
  | none => .accept
  | some c =>
    (evalRules (s.evalChain p s.chains.length) p c.rules).getD
      (if c.base.any (·.policy = some "drop") then .drop else .accept)

/-- The first translation of a list of rules. -/
def firstTranslation (p : Packet) : List Rule → Option Int
  | [] => none
  | rule :: rest =>
    if rule.holds p then
      match rule.action with
      | .redirect port => some port
      | .dnat port => some port
      | _ => firstTranslation p rest
    else firstTranslation p rest

/-- The packet after the NAT chain of prerouting. -/
def Script.prerouted (s : Script) (p : Packet) : Packet :=
  match (s.baseChain "nat" "prerouting").bind fun c => firstTranslation p c.rules with
  | none => p
  | some port => { p with dport := port, dnat := true, originalDport := p.dport }

/-! ### The daemon's own listener -/

/-- A TCP connection to the daemon. -/
structure Connection where
  client : Addr
  server : Addr
  clientPort : Int
  same_family : client.family = server.family
  client_zone : client.zone = ""

/-- The first packet of the connection, as it arrives on the guard's interface. -/
def Connection.request (conn : Connection) (guard : ReachabilityGuard) : Packet where
  iif := guard.tailscaleInterface
  oif := ""
  src := conn.client
  dst := conn.server
  dstLocal := true
  l4proto := "tcp"
  sport := conn.clientPort
  dport := guard.port
  established := false
  dnat := false
  originalDport := guard.port
  icmpType := ""
  hoplimit := 64

/-- A packet the listener sends back. -/
def Connection.reply (conn : Connection) (guard : ReachabilityGuard) : Packet where
  iif := ""
  oif := guard.tailscaleInterface
  src := conn.server
  dst := conn.client
  dstLocal := false
  l4proto := "tcp"
  sport := guard.port
  dport := conn.clientPort
  established := true
  dnat := false
  originalDport := guard.port
  icmpType := ""
  hoplimit := 64

/-- The connection reaches the guard's port and its replies leave the host. -/
def Script.Reaches (s : Script) (guard : ReachabilityGuard) (conn : Connection) : Prop :=
  (s.prerouted (conn.request guard)).dport = guard.port ∧
  s.decision "input" (s.prerouted (conn.request guard)) = .accept ∧
  s.decision "output" (conn.reply guard) = .accept

instance (s : Script) (guard : ReachabilityGuard) (conn : Connection) :
    Decidable (s.Reaches guard conn) :=
  inferInstanceAs (Decidable (_ ∧ _ ∧ _))

end Ghostd.Nft
