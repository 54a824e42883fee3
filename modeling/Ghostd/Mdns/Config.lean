import Ghostd.Lib.Result
import Ghostd.Lib.Text

/-!
# `Ghostd.Mdns.Config`: the advertisement target and its checks

What the operator asks the mDNS service for: records to advertise, and rules that connect interfaces. A
rule relays classes of services, or translates them to ports of a pool; its ends are interfaces or
patterns for them. `path.Match` of Go is a parameter: it returns nothing for a malformed pattern.
-/

set_option autoImplicit false

namespace Ghostd.Mdns

open Ghostd.Lib

/-- `NATConfig`. -/
structure NATConfig where
  services : List String
  ports : String
  deriving DecidableEq, Repr

/-- `ReflectRule`. -/
structure ReflectRule where
  fromEnd : String
  toEnd : String
  allowServices : List String := []
  advertise : Option NATConfig := none
  deriving DecidableEq, Repr

/-- `Record`. -/
structure Record where
  service : String
  «instance» : String
  port : BitVec 16
  txt : List String := []
  subtypes : List String := []
  host : String := ""
  deriving DecidableEq, Repr

/-- `Config`. -/
structure Config where
  interfaces : List String := []
  host : String := ""
  records : List Record := []
  reflect : List ReflectRule := []
  deriving DecidableEq, Repr

/-- `Config.Empty`. -/
def Config.empty (c : Config) : Bool := c.records.length = 0 && c.reflect.length = 0

/-! ### Patterns -/

/-- A lower-case letter or digit, and then so many of them or hyphens at most. -/
def labelChars (cs : List Char) (most : Nat) : Bool :=
  match cs with
  | [] => false
  | c :: rest => lowerAlphanum c && rest.length ≤ most && rest.all fun c => lowerAlphanum c || c = '-'

/-- `serviceRE`. -/
def serviceRE (s : String) : Bool :=
  match splitText s "." with
  | [service, proto] =>
    match service.toList with
    | '_' :: cs => labelChars cs 14 && (proto = "_tcp" || proto = "_udp")
    | _ => false
  | _ => false

/-- `hostRE`. -/
def hostRE (s : String) : Bool :=
  labelChars s.toList 62 && s.toList.getLast?.elim false lowerAlphanum

/-- `subtypeRE`. -/
def subtypeRE (s : String) : Bool :=
  match s.toList with
  | '_' :: cs => labelChars cs 62
  | _ => false

/-! ### Translating rules -/

/-- `strings.Cut` at a character. -/
def cut (s : String) (c : Char) : Option (String × String) :=
  if c ∈ s.toList then
    some (String.ofList (s.toList.takeWhile (· ≠ c)), String.ofList ((s.toList.dropWhile (· ≠ c)).drop 1))
  else none

/-- `NATConfig.portRange`. -/
def NATConfig.portRange (n : NATConfig) : Except String (Nat × Nat) :=
  match cut n.ports '-' with
  | none => .error "ports must look like 20000-20999"
  | some (a, b) =>
    match parseInt64 a, parseInt64 b with
    | some lo, some hi =>
      if lo < 1024 ∨ hi > 65535 ∨ hi < lo ∨ hi - lo > 4095 then
        .error "ports must be 1024..65535, at most 4096 of them"
      else .ok (lo.toNat, hi.toNat)
    | _, _ => .error "ports must be 1024..65535, at most 4096 of them"

/-- `NATConfig.validate`. -/
def NATConfig.validate (n : NATConfig) : Except String Unit := do
  refuseIf (n.services.length = 0 || n.services.length > 32) "nat needs 1..32 services"
  n.services.forM fun s => refuseIf (!serviceRE s) ("nat: " ++ quoted s ++ " is not a service class like _ipp._tcp")
  let _ ← n.portRange

/-! ### Checks -/

section Validate

variable (glob : String → String → Option Bool)

/-- The characters of a pattern. -/
def patternChars : List Char := ['*', '?', '[']

/-- An end of a rule. -/
def validateEnd (n : String) : Except String Unit := do
  refuseIf (n = "" || byteLength n > 15 || containsAny n [' ', '/']) ("mdns: bad reflect interface " ++ quoted n)
  refuseIf (containsAny n patternChars && (glob n "").isNone) ("mdns: bad reflect interface pattern " ++ quoted n)

/-- What `validateReflect` has seen of the rules before: the pairs of ends, and the ports published on
each end. -/
structure SeenRules where
  pairs : List (String × String) := []
  pools : List (String × String) := []

/-- The body of the loop of `validateReflect`. -/
def validateRule (seen : SeenRules) (r : ReflectRule) : Except String SeenRules := do
  let ends := r.fromEnd ++ " to " ++ r.toEnd
  [r.fromEnd, r.toEnd].forM (validateEnd glob)
  refuseIf (r.fromEnd = r.toEnd) ("mdns: reflect " ++ r.fromEnd ++ " exports a domain to itself")
  refuseIf ((r.fromEnd, r.toEnd) ∈ seen.pairs)
    ("mdns: " ++ ends ++
      " has two reflect rules; one direction is one permission set, name both directions to open both")
  refuseIf (decide (r.allowServices.length = 0) = r.advertise.isNone)
    ("mdns: " ++ ends ++ " needs exactly one of allow_services and advertise")
  refuseIf (r.allowServices.length > 32) ("mdns: " ++ ends ++ " has more than 32 allow_services")
  r.allowServices.forM fun s =>
    refuseIf (s ≠ "*" && !serviceRE s) ("mdns: " ++ quoted s ++ " is not a service class like _ipp._tcp")
  refuseIf ("*" ∈ r.allowServices && r.allowServices.length > 1)
    ("mdns: " ++ ends ++ " lists \"*\" beside other classes; \"*\" already is every class")
  let seen := { seen with pairs := (r.fromEnd, r.toEnd) :: seen.pairs }
  match r.advertise with
  | none => pure seen
  | some n =>
    (n.validate).mapError ("mdns: " ++ ends ++ ": " ++ ·)
    match seen.pools.lookup r.toEnd with
    | some prev =>
      refuseIf (prev ≠ n.ports)
        ("mdns: " ++ r.toEnd ++ " publishes with ports " ++ prev ++ " and " ++ n.ports ++
          "; one interface's pool has one range")
    | none => pure ()
    pure { seen with pools := (r.toEnd, n.ports) :: seen.pools }

/-- `Config.validateReflect`. -/
def Config.validateReflect (c : Config) : Except String Unit := do
  refuseIf (c.reflect.length > 32) "mdns: at most 32 reflect rules"
  let _ ← c.reflect.foldlM (validateRule glob) {}

/-- An interface to advertise on. -/
def validateInterface (i : String) : Except String Unit := do
  refuseIf (i = "" || byteLength i > 15 || containsAny i [' ', '/']) ("mdns: bad interface " ++ quoted i)
  refuseIf (containsAny i patternChars)
    ("mdns: advertised interface " ++ quoted i ++ " must be named, not a pattern")

/-- The body of the loop over the records, with the keys of those before. -/
def validateRecord (seen : List String) (r : Record) : Except String (List String) := do
  refuseIf (!serviceRE r.service) ("mdns: " ++ quoted r.service ++ " is not a service like _smb._tcp")
  refuseIf (r.instance = "" || byteLength r.instance > 63 || containsAny r.instance ['\x00', '\r', '\n', '.'])
    ("mdns: instance name " ++ quoted r.instance ++ " must be 1..63 bytes without dots")
  refuseIf (r.host ≠ "" && !hostRE r.host) ("mdns: host " ++ quoted r.host ++ " must be one lower-case DNS label")
  refuseIf (r.port = 0 && r.service ≠ "_adisk._tcp" && r.service ≠ "_device-info._tcp")
    ("mdns: " ++ r.service ++ "/" ++ r.instance ++
      " needs a port (only _adisk and _device-info are conventionally port 0)")
  let key := toLower (r.instance ++ "." ++ r.service)
  refuseIf (key ∈ seen) ("mdns: duplicate " ++ key)
  r.txt.forM fun t => refuseIf (byteLength t > 255) ("mdns: TXT string over 255 bytes in " ++ key)
  refuseIf ((r.txt.map fun t => byteLength t + 1).sum > 1300) ("mdns: TXT record for " ++ key ++ " too large")
  r.subtypes.forM fun s => refuseIf (!subtypeRE s) ("mdns: bad subtype " ++ quoted s)
  pure (key :: seen)

/-- `Config.Validate`. -/
def Config.validate (c : Config) : Except String Unit :=
  if c.empty then pure ()
  else do
    c.validateReflect glob
    if c.records.length = 0 then pure ()
    else do
      refuseIf (c.interfaces.length = 0 || c.interfaces.length > 16) "mdns: name 1..16 interfaces"
      c.interfaces.forM validateInterface
      refuseIf (!hostRE c.host) "mdns: host must be one lower-case DNS label"
      refuseIf (c.records.length > 64) "mdns: at most 64 records"
      let _ ← c.records.foldlM validateRecord []

end Validate

end Ghostd.Mdns
