import Ghostd.Addressbook.Allocate

/-!
# `Ghostd.Addressbook.Dnsmasq`: the lease file of the legacy allocator

`ParseDNSmasq` and `ExportDNSmasq` of `internal/addressbook/dnsmasq.go`. A line of the lease
file is the expiry, the hardware address or the IAID, the address, the host name and the client
identifier or the DUID. One more line, at the top, is the DUID of the server.
-/

set_option autoImplicit false

namespace Ghostd.Addressbook

open Ghostd.Lib

/-! ### Parsing -/

/-- The scope of an address: it must be in exactly one. -/
def scopeOfAddress (c : Config) (ip : Addr) : Except Failure String := do
  let scope ← c.scopes.foldlM (fun found s => do
    let p ← mustParsePrefix s.subnet
    if p.contains ip then do
      refuseIf (found ≠ "") (.error "ambiguous lease scope")
      pure s.id
    else pure found) ""
  refuseIf (scope = "") (.error ("lease " ++ ip.text ++ " has no declared scope"))
  pure scope

/-- An IAID as eight hexadecimal digits. -/
def iaidText (iaid : Nat) : String := String.ofList (padLeft 8 (Nat.toDigits 16 iaid))

/-- The lease of a line with five fields. -/
def parseLease (c : Config) (expiry holder address hostname client : String) :
    Except Failure ImportedLease := do
  let some ip := parseAddr address | throw (.error ("ParseAddr(" ++ quoted address ++ ")"))
  let some expiry := (parseInt64 expiry).filter (0 ≤ ·) | throw (.error "invalid lease expiry")
  let scope ← scopeOfAddress c ip
  let lease : ImportedLease :=
    { scope, address := ip.text, expiry, hostname := if hostname = "*" then "" else hostname }
  if ip.is6 then
    match parseUint holder 10 32 with
    | some iaid => pure { lease with iaid := iaidText iaid, duid := removeAll client ':' }
    | none => throw (.error "unsupported DHCPv6 IAID (temporary addresses are not IA_NA)")
  else pure { lease with mac := holder, clientID := client }

/-- The document with one more line, whose number is given. -/
def parseLeaseLine (c : Config) (doc : ImportDocument) (line : String × Nat) :
    Except Failure ImportDocument :=
  let malformed := Failure.error ("lease line " ++ Nat.repr (line.2 + 1) ++ ": expected five fields")
  match fields line.1 with
  | [] => pure doc
  | [word, duid] =>
      if word = "duid" then pure { doc with serverDUID := removeAll duid ':' } else throw malformed
  | [expiry, holder, address, hostname, client] => do
      let lease ← parseLease c expiry holder address hostname client
      pure { doc with leases := doc.leases ++ [lease] }
  | _ => throw malformed

/-- `ParseDNSmasq`. -/
def parseDNSmasq (c : Config) (text : String) : Except Failure ImportDocument :=
  (splitText text "\n").zipIdx.foldlM (parseLeaseLine c) {}

/-! ### Exporting -/

/-- The characters two by two; a last single one is dropped. -/
def charPairs : List Char → List (List Char)
  | a :: b :: rest => [a, b] :: charPairs rest
  | _ => []

/-- `colonHex`. -/
def colonHex (value : String) : String := String.ofList ([':'].intercalate (charPairs value.toList))

/-- A line of the lease file. -/
structure LeaseLine where
  expiry : Int
  holder : String
  address : String
  name : String
  client : String
  deriving DecidableEq, Repr

def LeaseLine.text (l : LeaseLine) : String :=
  joinText [toString l.expiry, l.holder, l.address, l.name, l.client] " "

/-- The bindings that have a line: offers and quarantines too, but no sightings and no
delegations. -/
def exportable (b : Binding) : Bool :=
  liveState b.state && b.origin ≠ .neighborReport && b.origin ≠ .dhcpv6PD

/-- The client identifier of an IPv4 binding in the lease file. -/
def clientField (b : Binding) : String :=
  if startsWith b.client "id:" then colonHex (trimStart b.client "id:") else "*"

/-- The line of a binding. A quarantine is held by an identity that nobody has. -/
def exportLine (b : Binding) : Except Failure LeaseLine := do
  let expiry := if b.endsAt = infiniteEnd then 0 else b.endsAt
  let name := if labelPattern b.name then b.name else "*"
  let some ip := parseAddr b.address | throw (.error ("ParseAddr(" ++ quoted b.address ++ ")"))
  if ip.is6 then
    match parseUint b.iaid 16 32 with
    | none => throw (.error ("strconv.ParseUint: parsing " ++ quoted b.iaid))
    | some iaid =>
        let duid := if b.state = .declined then quarantineDUID b.scope b.address else b.duid
        pure ⟨expiry, Nat.repr iaid, b.address, name, colonHex duid⟩
  else if b.state = .declined then
    pure ⟨expiry, quarantineMAC, b.address, name,
      "ff:" ++ colonHex (encodeHex (utf8Bytes b.address))⟩
  else pure ⟨expiry, b.mac, b.address, name, clientField b⟩

/-- The text of a lease file. -/
def leaseFileText (serverDUID : String) (lines : List LeaseLine) : String :=
  let header := if serverDUID ≠ "" then ["duid " ++ colonHex serverDUID] else []
  joinText (header ++ lines.map LeaseLine.text) "\n" ++ "\n"

/-- `ExportDNSmasq`. -/
def exportDNSmasq (s : Snapshot) : Except Failure String := do
  let lines ← (s.bindings.filter exportable).mapM exportLine
  pure (leaseFileText s.serverDUID lines)

end Ghostd.Addressbook
