import Ghostd.Lib.Netip
import Ghostd.Lib.Result
import Ghostd.Lib.Text

/-!
# `Ghostd.Addressbook.Config`: the DHCP configuration and what is accepted of it

`internal/addressbook/config.go`. Field names follow the source; `endAddr` is the field `End`
of a scope. `Config.validate` is `Config.Validate` with its checks in the order of the source
and the text of every refusal. The Go maps that collect what was seen so far are lists here.
-/

set_option autoImplicit false

namespace Ghostd.Addressbook

open Ghostd.Lib

/-! ### The configuration -/

/-- One extra DHCPv4 option. -/
structure DHCPOption where
  code : Int
  type : String
  value : List String
  deriving DecidableEq, Repr

/-- The network-boot hand-off of a scope. -/
structure BootConfig where
  always : Bool := false
  file : String
  nextServer : String := ""
  deriving DecidableEq, Repr

structure TFTPConfig where
  root : String
  interfaces : List String := []
  deriving DecidableEq, Repr

/-- A pool of prefixes to delegate, all of the same length. -/
structure PDConfig where
  pool : String
  length : Int
  route : Bool := false
  deriving DecidableEq, Repr

structure Reservation where
  client : String
  address : String
  device : String
  deriving DecidableEq, Repr

structure RelayConfig where
  peer : String
  link : String
  deriving DecidableEq, Repr

structure RAConfig where
  slaac : Bool
  routerLifetime : Int
  interval : Int
  deriving DecidableEq, Repr

structure Scope where
  id : String
  interface : String
  subnet : String
  server : String
  start : String
  endAddr : String
  router : String
  zone : String
  leaseSeconds : Int
  enabled : Bool
  reservations : List Reservation := []
  preferredSeconds : Int := 0
  relay : Option RelayConfig := none
  ra : Option RAConfig := none
  boot : Option BootConfig := none
  dnsServers : List String := []
  options : List DHCPOption := []
  pd : Option PDConfig := none
  deriving DecidableEq, Repr

structure DeviceConfig where
  aliases : List String := []
  nodeIDs : List String := []
  id : String := ""
  name : String := ""
  nodeID : String := ""
  deriving DecidableEq, Repr

structure Config where
  scopes : List Scope := []
  devices : List DeviceConfig := []
  tftp : Option TFTPConfig := none
  deriving DecidableEq, Repr

/-! ### Small readers -/

/-- `Scope.Is6`. -/
def Scope.is6 (s : Scope) : Bool := (parsePrefix s.subnet).elim false (·.addr.is6)

/-- `Scope.socketKey`. -/
def Scope.socketKey (s : Scope) : String := (if s.is6 then "6" else "4") ++ "/" ++ s.interface

/-- `Config.Scope`. -/
def Config.scope (c : Config) (id : String) : Option Scope := c.scopes.find? (·.id = id)

/-- `Config.Device`. -/
def Config.device (c : Config) (id : String) : Option DeviceConfig := c.devices.find? (·.id = id)

/-- `DeviceConfig.HasNode`. -/
def DeviceConfig.hasNode (d : DeviceConfig) (id : String) : Bool :=
  id ≠ "" && (d.nodeID = id || id ∈ d.nodeIDs)

/-- `DeviceConfig.DeclaresNodes`. -/
def DeviceConfig.declaresNodes (d : DeviceConfig) : Bool := d.nodeID ≠ "" || d.nodeIDs ≠ []

/-- `DeviceConfig.HasAlias`. -/
def DeviceConfig.hasAlias (d : DeviceConfig) (name : String) : Bool := name ∈ d.aliases

/-- `disabled`: the configuration with every scope switched off. -/
def disabled (c : Config) : Config :=
  { c with scopes := c.scopes.map fun s => { s with enabled := false } }

/-- `labelPattern`. -/
def labelPattern (s : String) : Bool :=
  let cs := s.toList
  cs.all (fun c => lowerAlphanum c || c = '-') && 1 ≤ cs.length && cs.length ≤ 63 &&
    cs.head?.elim false lowerAlphanum && cs.getLast?.elim false lowerAlphanum

/-- `interfacePattern`. -/
def interfacePattern (s : String) : Bool :=
  let cs := s.toList
  cs.all (fun c => asciiAlphanum c || c ∈ ['_', '.', ':', '-']) && 1 ≤ cs.length && cs.length ≤ 15

/-- `lastAddr`: the broadcast address of an IPv4 prefix. -/
def lastAddr (p : Prefix) : Addr := Addr.ofValue .v4 (p.addr.value ||| 0xffffffff >>> p.bits)

/-- `filepath.Clean` of a rooted path: drop empty and dot elements, and each `..` with the
element before it. -/
def cleanRooted (path : String) : String :=
  let keep (kept : List String) (e : String) : List String :=
    if e = "" ∨ e = "." then kept else if e = ".." then kept.drop 1 else e :: kept
  "/" ++ joinText ((splitText path "/").foldl keep []).reverse "/"

/-- `validZone`. -/
def validZone (s : String) : Bool :=
  '.' ∈ s.toList && !endsWith s ".local" && !endsWith s ".ts.net" && byteLength s ≤ 200 &&
    (splitText s ".").all labelPattern

/-- `validClient`: a client is named by its DUID and IAID, its hardware address or its client
identifier, each in one spelling. -/
def validClient (s : String) : Bool :=
  if startsWith s "duid:" then
    match splitText (trimStart s "duid:") "/iaid:" with
    | [duid, iaid] =>
      byteLength iaid = 8 && 4 ≤ byteLength duid && byteLength duid ≤ 256 &&
        (decodeHex duid).isSome && (decodeHex iaid).isSome && toLower s = s
    | _ => false
  else if startsWith s "mac:" then
    match parseMAC (trimStart s "mac:") with
    | some mac => mac.length = 6 && "mac:" ++ macText mac = s
    | none => false
  else if startsWith s "id:" then
    let v := trimStart s "id:"
    2 ≤ byteLength v && byteLength v ≤ 510 && byteLength v % 2 = 0 &&
      v.toList.all fun c => hexDigit c && lowerChar c = c
  else false

/-! ### Extra options -/

/-- `reservedOptionCodes`: the options the server sets itself. -/
def reservedOptionCodes : List Int :=
  [0, 1, 3, 6, 12, 15, 28, 50, 51, 52, 53, 54, 55, 58, 59, 60, 61, 66, 67, 119, 255]

/-- A number option: one decimal number of the given width. -/
def DHCPOption.validateNumber (o : DHCPOption) (bits : Nat) : Except String Unit :=
  refuseIf (o.value.length ≠ 1 || (parseUint (o.value.headD "") 10 bits).isNone)
    ("option " ++ toString o.code ++ ": " ++ o.type ++ " needs one number that fits")

/-- `DHCPOption.validate`. -/
def DHCPOption.validate (o : DHCPOption) : Except String Unit := do
  let name := "option " ++ toString o.code
  refuseIf (o.code < 1 || o.code > 254 || o.code ∈ reservedOptionCodes)
    (name ++ " is reserved or out of range")
  refuseIf (o.value.length = 0 || o.value.length > 16) (name ++ " needs 1..16 values")
  match o.type with
  | "ips" => o.value.forM fun v =>
      refuseIf (!(parseAddr v).elim false (·.is4)) (name ++ ": " ++ quoted v ++ " is not an IPv4 address")
  | "text" =>
      let v := o.value.headD ""
      refuseIf (o.value.length ≠ 1 || byteLength v = 0 || byteLength v > 255 ||
          containsAny v ['\x00', '\r', '\n'])
        (name ++ ": text must be one string of 1..255 printable characters")
  | "u8" => o.validateNumber 8
  | "u16" => o.validateNumber 16
  | "u32" => o.validateNumber 32
  | _ => throw (name ++ ": unknown type " ++ quoted o.type)

/-! ### Devices -/

/-- What the checks of the devices have seen so far. -/
structure SeenDevices where
  ids : List String := []
  nodes : List String := []
  names : List String := []

def validateAlias (names : List String) (name : String) : Except String (List String) := do
  refuseIf (!labelPattern name || name = "ns" || name ∈ names)
    ("invalid/duplicate DNS alias " ++ quoted name)
  pure (name :: names)

def validateNode (d : DeviceConfig) (nodes : List String) (nodeID : String) :
    Except String (List String) := do
  refuseIf (nodeID ≠ "" && nodeID ∈ nodes) ("duplicate tailnet node " ++ quoted d.nodeID)
  pure (if nodeID = "" then nodes else nodeID :: nodes)

def validateDevice (seen : SeenDevices) (d : DeviceConfig) : Except String SeenDevices := do
  refuseIf (!labelPattern d.id || !labelPattern d.name || d.name = "ns" || d.id ∈ seen.ids ||
      d.name ∈ seen.names)
    ("invalid/duplicate device ID or name " ++ quoted d.id)
  let names ← d.aliases.foldlM validateAlias (d.name :: seen.names)
  let nodes ← (d.nodeIDs ++ [d.nodeID]).foldlM (validateNode d) seen.nodes
  pure ⟨d.id :: seen.ids, nodes, names⟩

def validateTFTP : Option TFTPConfig → Except String Unit
  | none => pure ()
  | some t => do
    t.interfaces.forM fun i =>
      refuseIf (!interfacePattern i) ("tftp: bad interface " ++ quoted i)
    refuseIf (!startsWith t.root "/" || cleanRooted t.root ≠ t.root || byteLength t.root > 4096 ||
        t.root = "/")
      "tftp root must be an absolute, clean directory other than /"

/-! ### Scopes -/

/-- What the checks of the scopes have seen so far. -/
structure SeenScopes where
  ids : List String := []
  selectors : List String := []
  zones : List String := []
  prefixes : List Prefix := []
  pdPools : List (Prefix × String) := []

/-- The closure `valid` of `Validate`: a host address of the subnet, in any spelling. -/
def hostAddress (p : Prefix) (v : String) : Bool :=
  (parseAddr v).elim false fun a => p.contains a && a ≠ p.addr && (!a.is4 || a ≠ lastAddr p)

/-- A host address that is neither unspecified nor multicast. -/
def unicast4 (v : String) : Bool :=
  (parseAddr v).elim false fun a => a.is4 && !a.isUnspecified && !a.isMulticast

/-- The loop that counts a pool: it ends when the address has passed the last one. Behind the
last address of its family Go's `Next` starts over below every address, so that the count
runs into the limit. -/
def poolWithin : Nat → Addr → Addr → Bool
  | 0, a, last => !a.le last
  | n + 1, a, last =>
    if a.le last then a.next.elim false fun b => poolWithin n b last else true

/-- The subnet: a canonical prefix with host addresses, apart from those before it. -/
def validateSubnet (seen : SeenScopes) (s : Scope) : Except String Prefix := do
  let refusal := "scope " ++ s.id ++ " requires a canonical subnet with host addresses"
  let some p := parsePrefix s.subnet | throw refusal
  refuseIf (p ≠ p.masked || p.addr.is4In6 || p.addr.isMulticast || (p.addr.is4 && p.bits > 30) ||
    (p.addr.is6 && p.bits > 126)) refusal
  refuseIf (seen.prefixes.any p.overlaps) "overlapping scopes on one authority are not supported"
  pure p

/-- The server address and the selector: how packets of the scope are told apart. -/
def validateSelector (s : Scope) (p : Prefix) : Except String String := do
  let refusal := "invalid server address in " ++ s.id
  let some server := parseAddr s.server | throw refusal
  refuseIf (server.isUnspecified || server.isMulticast || server.is4 ≠ p.addr.is4 ||
    server.zone ≠ "") refusal
  match s.relay with
  | none => do
    refuseIf (!hostAddress p s.server) ("server must be on direct scope " ++ s.id)
    pure (s.socketKey ++ "/direct")
  | some relay => do
    let refusal := "invalid relay peer/link in " ++ s.id
    let some peer := parseAddr relay.peer | throw refusal
    let some link := parseAddr relay.link | throw refusal
    refuseIf (peer.isUnspecified || peer.isMulticast || peer.is4 ≠ server.is4 ||
      !p.contains link || link.isUnspecified) refusal
    pure (s.socketKey ++ "/" ++ peer.text ++ "/" ++ link.text)

/-- The pool and the router. -/
def validatePool (s : Scope) (p : Prefix) : Except String Unit := do
  let refusal := "invalid addresses in scope " ++ s.id
  refuseIf (!hostAddress p s.start || !hostAddress p s.endAddr ||
    (!s.is6 && !hostAddress p s.router)) refusal
  let some first := parseAddr s.start | throw refusal
  let some last := parseAddr s.endAddr | throw refusal
  refuseIf (!first.le last) refusal
  refuseIf (!poolWithin 65536 first last) "pool limited to 65536 addresses"

/-- The lifetimes and router advertisements. -/
def validateTimes (s : Scope) (p : Prefix) : Except String Unit := do
  refuseIf (s.leaseSeconds < 60 || s.leaseSeconds > 604800) "lease_seconds must be 60..604800"
  refuseIf (s.is6 && (s.preferredSeconds < 1 || s.preferredSeconds > s.leaseSeconds))
    "preferred_seconds must be positive and <= lease_seconds"
  refuseIf (!s.is6 && (s.preferredSeconds ≠ 0 || s.ra.isSome)) "IPv6 settings on IPv4 scope"
  match s.ra with
  | none => pure ()
  | some ra =>
    refuseIf (s.relay.isSome || p.bits ≠ 64 || ra.interval < 4 || ra.interval > 600 ||
        ra.routerLifetime < 0 || ra.routerLifetime > 9000 ||
        (ra.routerLifetime > 0 && ra.routerLifetime < ra.interval * 3))
      "RA needs a direct /64, interval 4..600 and router_lifetime 0 or 3*interval..9000"

/-- One extra option, with a code not given before. -/
def validateOption (s : Scope) (codes : List Int) (o : DHCPOption) : Except String (List Int) := do
  o.validate.mapError fun e => "scope " ++ s.id ++ ": " ++ e
  refuseIf (o.code ∈ codes) ("scope " ++ s.id ++ ": option " ++ toString o.code ++ " given twice")
  pure (o.code :: codes)

/-- The IPv4 settings: DNS servers and extra options. -/
def validateOptions (s : Scope) : Except String Unit :=
  if s.dnsServers.length > 0 ∨ s.options.length > 0 then do
    refuseIf s.is6 ("scope " ++ s.id ++ ": DNS servers and options are IPv4 settings")
    refuseIf (s.dnsServers.length > 8 || s.options.length > 32)
      ("scope " ++ s.id ++ ": too many DNS servers or options")
    s.dnsServers.forM fun d =>
      refuseIf (!unicast4 d) ("scope " ++ s.id ++ ": dns_servers must be unicast IPv4 addresses")
    discard (s.options.foldlM (validateOption s) [])
  else pure ()

/-- The delegation pool. It is compared with the subnets seen so far, this scope's included,
and with the pools seen so far. -/
def validatePD (seen : SeenScopes) (s : Scope) (p : Prefix) :
    Except String (List (Prefix × String)) :=
  match s.pd with
  | none => pure seen.pdPools
  | some pd => do
    let scope := "scope " ++ s.id
    refuseIf (!s.is6) (scope ++ ": prefix delegation needs an IPv6 scope")
    let refusal := scope ++ ": pd prefix must be a canonical IPv6 prefix"
    let some pool := parsePrefix pd.pool | throw refusal
    refuseIf (pool ≠ pool.masked || !pool.addr.is6 || pool.addr.is4In6) refusal
    refuseIf (pd.length ≤ pool.bits || pd.length > 64 || pd.length - pool.bits > 16 ||
        pd.length < 32)
      (scope ++ ": pd length must be 32..64, longer than the pool prefix, at most 16 bits deeper (65536 delegations)")
    refuseIf (pool.overlaps p) (scope ++ ": the pd pool overlaps the scope's own subnet")
    refuseIf (seen.prefixes.any pool.overlaps) (scope ++ ": the pd pool overlaps another scope")
    match seen.pdPools.find? (fun prior => pool.overlaps prior.1) with
    | some prior =>
      throw (scope ++ ": the pd pool overlaps scope " ++ prior.2 ++ "'s pool")
    | none => pure ((pool, s.id) :: seen.pdPools)

/-- The network boot settings. -/
def validateBoot (s : Scope) : Except String Unit :=
  match s.boot with
  | none => pure ()
  | some boot => do
    refuseIf s.is6 ("network boot is IPv4 only (scope " ++ s.id ++ ")")
    refuseIf (boot.file = "" || byteLength boot.file > 128 ||
        containsAny boot.file ['\x00', '\r', '\n'])
      ("scope " ++ s.id ++ ": boot file must be 1..128 printable characters")
    refuseIf (boot.nextServer ≠ "" && !unicast4 boot.nextServer)
      ("scope " ++ s.id ++ ": next_server must be a unicast IPv4 address")

/-- The DNS zone, which is not nested with one before it. -/
def validateZone (seen : SeenScopes) (s : Scope) : Except String Unit := do
  refuseIf (!validZone s.zone)
    ("scope " ++ s.id ++ " needs a local DNS zone (not .local or .ts.net)")
  refuseIf (seen.zones.any fun zone => endsWith zone ("." ++ s.zone) || endsWith s.zone ("." ++ zone))
    "nested authoritative zones are not supported"

/-- One reservation; client and address are given once in a scope. -/
def validateReservation (devices : List String) (s : Scope) (p : Prefix)
    (seen : List String × List String) (r : Reservation) :
    Except String (List String × List String) := do
  refuseIf (!validClient r.client || !hostAddress p r.address || r.address = s.server ||
      r.address = s.router || r.device ∉ devices || r.client ∈ seen.1 || r.address ∈ seen.2)
    ("invalid/duplicate reservation in " ++ s.id)
  refuseIf (s.is6 ≠ startsWith r.client "duid:")
    "reservation client family does not match scope"
  pure (r.client :: seen.1, r.address :: seen.2)

/-- The body of the loop over the scopes. -/
def validateScope (devices : List String) (seen : SeenScopes) (s : Scope) :
    Except String SeenScopes := do
  refuseIf (!labelPattern s.id || s.id ∈ seen.ids || !interfacePattern s.interface)
    ("invalid/duplicate scope or interface " ++ quoted s.id)
  let p ← validateSubnet seen s
  let selector ← validateSelector s p
  refuseIf (selector ∈ seen.selectors) ("ambiguous scope selector " ++ selector)
  validatePool s p
  validateTimes s p
  validateOptions s
  let pdPools ← validatePD seen s p
  validateBoot s
  validateZone seen s
  discard (s.reservations.foldlM (validateReservation devices s p) ([], []))
  pure ⟨s.id :: seen.ids, selector :: seen.selectors, s.zone :: seen.zones, p :: seen.prefixes,
    pdPools⟩

/-- `Config.Validate`. -/
def Config.validate (c : Config) : Except String Unit := do
  let seen ← c.devices.foldlM validateDevice {}
  validateTFTP c.tftp
  discard (c.scopes.foldlM (validateScope seen.ids) {})

end Ghostd.Addressbook
