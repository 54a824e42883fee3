import Ghostd.Addressbook.Config
import Ghostd.Addressbook.Store
import Ghostd.Lib.Duration

/-!
# `Ghostd.Addressbook.Convert`: what a dnsmasq configuration means

The two readings of a dnsmasq configuration: `ConvertDNSmasq` (`convert.go`) makes a target of it, and
`ValidateDNSmasqConfig` (`legacy.go`) compares it with one before a takeover. Here are the lifetime of a
range, which each of them reads in its own way, and `deriveSettings` (`dnsmasq_options.go`), which both
call for the `dhcp-option` lines of a range.
-/

set_option autoImplicit false

namespace Ghostd.Addressbook

open Ghostd.Lib

/-! ### Lifetimes -/

/-- The seconds of the unit that a lifetime ends with, and the text before it. -/
def lifetimeUnit (s : String) : Int × String :=
  match s.toList.reverse with
  | 's' :: cs => (1, String.ofList cs.reverse)
  | 'm' :: cs => (60, String.ofList cs.reverse)
  | 'h' :: cs => (3600, String.ofList cs.reverse)
  | 'd' :: cs => (86400, String.ofList cs.reverse)
  | 'w' :: cs => (604800, String.ofList cs.reverse)
  | _ => (1, s)

/-- `parseDNSmasqDuration`. -/
def parseDNSmasqDuration (s : String) : Except Failure Int := do
  refuseIf (s = "infinite") (.error "infinite leases are not supported by the converted scope")
  let (mult, number) := lifetimeUnit s
  let some v := (parseInt64 number).filter (0 < ·) | throw (.error "unsupported lease lifetime")
  pure (wrap64 (v * mult))

/-- The check of a lifetime in `ValidateDNSmasqConfig`. -/
def lifetimeAccepted (fraction : List Char → Nat → Nat) (text : String) (leaseSeconds : Int) : Bool :=
  parseDuration fraction (if (parseInt64 text).isSome then text ++ "s" else text) =
    some (wrap64 (leaseSeconds * 10 ^ 9))

/-! ### Options -/

/-- `dmOption`: a `dhcp-option` line; the tag is empty for one that is not tagged. -/
structure DmOption where
  tag : String := ""
  code : Int
  typ : String := "ips"
  vals : List String
  deriving DecidableEq, Repr

/-- `scopeSettings`. No DNS servers stand for the server of the scope. -/
structure ScopeSettings where
  router : String := ""
  dns : List String := []
  others : List DHCPOption := []
  deriving DecidableEq, Repr

section Settings

variable (tag : String) (subnet : Prefix) (server : String)

/-- The option reaches the range. -/
def DmOption.reaches (o : DmOption) : Bool := o.tag = "" || o.tag = tag

/-- The router that the option names is in the subnet. -/
def DmOption.inSubnet (o : DmOption) : Bool := ((parseAddr (o.vals.headD "")).map subnet.contains).getD false

/-- The settings after one more option; `others` is the map by code. -/
def deriveSetting (st : ScopeSettings) (o : DmOption) : Except Failure ScopeSettings :=
  if !o.reaches tag then pure st
  else if o.code = 3 then do
    refuseIf (o.vals = []) (.panic "index out of range [0] with length 0")
    if o.inSubnet subnet then pure { st with router := o.vals.headD "" }
    else do
      refuseIf (o.tag ≠ "") (.error ("tagged router " ++ o.vals.headD "" ++ " is outside " ++ subnet.text))
      pure st
  else if o.code = 6 then pure (if o.vals = [server] then st else { st with dns := o.vals })
  else do
    refuseIf (st.others.any (·.code = o.code))
      (.error ("option " ++ toString o.code ++ " is given twice for one scope"))
    pure { st with others := st.others ++ [{ code := o.code, type := o.typ, value := o.vals }] }

/-- `deriveSettings`. -/
def deriveSettings (opts : List DmOption) : Except Failure ScopeSettings := do
  let st ← opts.foldlM (deriveSetting tag subnet server) {}
  pure { st with others := st.others.insertionSort (·.code ≤ ·.code) }

end Settings

end Ghostd.Addressbook
