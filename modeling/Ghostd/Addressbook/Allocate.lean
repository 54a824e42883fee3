import Ghostd.Addressbook.Store

/-!
# `Ghostd.Addressbook.Allocate`: granting, releasing, expiring and importing addresses

`internal/addressbook/allocate.go` and `adoptDUID` of `internal/addressbook/dhcp6.go`. Each
operation is one database transaction at one instant `now`. It reads the ledger, and writes
bindings through `Ledger.save`.

The texts of the errors of the hexadecimal decoder and of the DHCP library are left out:
`adoptDUID` fails with one text for each of them.
-/

set_option autoImplicit false

namespace Ghostd.Addressbook

open Ghostd.Lib

/-! ### Policy -/

/-- `netip.MustParseAddr`. -/
def mustParseAddr (s : String) : Except Failure Addr :=
  match parseAddr s with
  | some a => pure a
  | none => throw (.panic ("ParseAddr(" ++ quoted s ++ ")"))

/-- `netip.MustParsePrefix`. -/
def mustParsePrefix (s : String) : Except Failure Prefix :=
  match parsePrefix s with
  | some p => pure p
  | none => throw (.panic ("netip.ParsePrefix(" ++ quoted s ++ ")"))

/-- `reservation`: the first one for the client or for its hardware address. -/
def reservation (s : Scope) (client mac : String) : Option Reservation :=
  s.reservations.find? fun r => r.client = client || r.client = "mac:" ++ mac

/-- `allowed`: may the client have the address? A reservation decides alone; without one it is
an address of the pool that nobody has reserved. -/
def allowed (s : Scope) (client mac ip : String) : Except Failure Bool :=
  match parseAddr ip with
  | none => pure false
  | some a =>
    if a.is6 ≠ s.is6 ∨ ip = s.server ∨ ip = s.router then pure false
    else
      match reservation s client mac with
      | some r => pure (r.address = ip)
      | none =>
        if s.reservations.any (·.address = ip) then pure false
        else do
          let first ← mustParseAddr s.start
          if first.le a then do
            let last ← mustParseAddr s.endAddr
            pure (a.le last)
          else pure false

/-- The binding is in a live state and its end has not come. -/
def Binding.live (b : Binding) (now : Int) : Bool := b.endsAt > now && liveState b.state

/-- The binding is held by its client: active or offered, and its end has not come. -/
def Binding.held (b : Binding) (now : Int) : Bool := b.endsAt > now && heldState b.state

/-- The closure `available` of `Allocate`. -/
def available (L : Ledger) (now : Int) (s : Scope) (client mac ip : String) :
    Except Failure Bool := do
  if ← allowed s client mac ip then
    let b := L.readBinding s.id ip
    pure (!b.live now || (b.client = client && b.state ≠ .declined))
  else pure false

/-- The walk through the pool: the first usable address. Nothing follows the last address of
a family, which no accepted pool ends with. -/
def scanPool (usable : String → Except Failure Bool) (last : Addr) :
    Nat → Addr → Except Failure (Option String)
  | 0, _ => pure none
  | n + 1, a =>
    if a.le last then do
      if ← usable a.text then pure (some a.text)
      else
        match a.next with
        | some b => scanPool usable last n b
        | none => pure none
    else pure none

/-! ### Allocate -/

/-- One step of the rediscovery: an address the client holds and may have replaces the hint. -/
def keepAddress (now : Int) (s : Scope) (client mac : String) (candidate : String) (b : Binding) :
    Except Failure String := do
  if b.origin ≠ .dhcpv6PD ∧ b.held now then
    if ← allowed s client mac b.address then pure b.address else pure candidate
  else pure candidate

/-- The address tried first. A request names it; a discovery prefers a reservation to what
the client holds, and that to the hint. -/
def firstCandidate (L : Ledger) (now : Int) (s : Scope) (client mac requested : String)
    (commit : Bool) : Except Failure String :=
  if commit then
    if requested = "" then throw (.unavailable "request must identify its address")
    else pure requested
  else do
    let candidate ← (L.liveByClient s.id client).foldlM (keepAddress now s client mac) requested
    pure ((reservation s client mac).elim candidate (·.address))

/-- The address chosen. Only a discovery without a reservation looks further. -/
def chooseAddress (L : Ledger) (now : Int) (s : Scope) (client mac requested : String)
    (commit : Bool) : Except Failure String := do
  let candidate ← firstCandidate L now s client mac requested commit
  if ← available L now s client mac candidate then pure candidate
  else if commit then
    throw (.unavailable "requested address is outside client policy or occupied")
  else if (reservation s client mac).isSome then
    throw (.unavailable "reserved address is occupied")
  else do
    let first ← mustParseAddr s.start
    let last ← mustParseAddr s.endAddr
    match ← scanPool (available L now s client mac) last (last.value + 1 - first.value) first with
    | some ip => pure ip
    | none => throw (.unavailable "address pool exhausted")

/-- The DUID and the IAID of a DHCPv6 client name. -/
def clientParts (client : String) : String × String :=
  let parts := splitText (trimStart client "duid:") "/iaid:"
  (parts.getD 0 "", parts.getD 1 "")

/-- The device, name and node of a new lease: those of the running one, then those of an
operator's association, then those of the inventory. -/
def leaseIdentity (L : Ledger) (now : Int) (c : Config) (s : Scope) (old b : Binding) : Binding :=
  let b := { b with device := deviceID s.id b.client, name := deviceID s.id b.client }
  let b :=
    if old.client = b.client ∧ old.endsAt > now ∧ old.state ≠ .declined then
      { b with device := old.device, name := old.name, start := old.start, nodeID := old.nodeID,
               evidence := old.evidence }
    else b
  let b :=
    match L.readAssociation b.client with
    | some a =>
      { b with device := a.device, name := a.name, nodeID := a.nodeID,
               evidence := "operator repair: " ++ a.reason }
    | none => b
  match reservation s b.client b.mac with
  | some r =>
    let d := (c.device r.device).getD {}
    { b with device := d.id, name := d.name, nodeID := d.nodeID, evidence := "inventory reservation" }
  | none => b

/-- The binding an allocation writes, and its event. -/
def newLease (L : Ledger) (now : Int) (c : Config) (s : Scope) (client mac claimed ip : String)
    (commit : Bool) : Binding × EventKind :=
  let old := L.readBinding s.id ip
  let b : Binding :=
    { scope := s.id, address := ip, client := client, mac := mac, claimedName := claimed,
      state := .offered, origin := if s.is6 then .dhcpv6 else .dhcpv4, start := now,
      endsAt := now + 30,
      duid := if s.is6 then (clientParts client).1 else "",
      iaid := if s.is6 then (clientParts client).2 else "" }
  let b := leaseIdentity L now c s old b
  if commit then
    ({ b with state := .active, endsAt := now + s.leaseSeconds,
              preferredEnd := if s.is6 then now + s.preferredSeconds else 0 },
      if old.client = client ∧ old.state = .active ∧ old.endsAt > now then .renew else .grant)
  else (b, .offer)

/-- The hardware address in its one spelling. A DHCPv6 client can be without one. -/
def canonicalMAC (s : Scope) (mac : String) : Except Failure String :=
  if mac ≠ "" ∨ !s.is6 then
    match parseMAC mac with
    | some hw =>
      if hw.length = 6 then pure (macText hw) else throw (.error "invalid hardware address")
    | none => throw (.error "invalid hardware address")
  else pure mac

/-- `Allocate`: offer (`commit = false`) or grant an address. -/
def Ledger.allocate (L : Ledger) (now : Int) (c : Config)
    (scopeID client mac claimed requested : String) (commit : Bool) :
    Except Failure (Binding × Ledger) := do
  let some s := c.scope scopeID | throw (.error "scope is not enabled")
  refuseIf (!s.enabled) (.error "scope is not enabled")
  refuseIf (!validClient client) (.error "invalid client identifier")
  let mac ← canonicalMAC s mac
  refuseIf (s.is6 ≠ startsWith client "duid:") (.error "client family does not match scope")
  let ip ← chooseAddress L now s client mac requested commit
  let old := L.readBinding s.id ip
  if !commit ∧ old.client = client ∧ old.state = .active ∧ old.endsAt > now then pure (old, L)
  else
    let (b, kind) := newLease L now c s client mac claimed ip commit
    pure (b, L.save now b kind)

/-! ### Release and Expire -/

/-- `Release`: end a binding, or put it in quarantine for ten minutes. -/
def Ledger.release (L : Ledger) (now : Int) (scope client ip : String) (decline : Bool) :
    Except Failure Ledger := do
  let b := L.readBinding scope ip
  refuseIf (b.client ≠ client || !b.held now) (.error "no live binding owned by client")
  pure
    (if decline then L.save now { b with state := .declined, endsAt := now + 600 } .decline
      else L.save now { b with state := .released, endsAt := now } .release)

/-- The keys of the expiry index that are due, at most a thousand. -/
def Ledger.due (L : Ledger) (now : Int) : List (Nat ×ₗ String) :=
  ((L.expiry.entries.map Prod.fst).take 1000).takeWhile fun k => keyTime (ofLex k).1 ≤ now

/-- One due key. An entry that no longer belongs to its binding is dropped. -/
def Ledger.expireKey (now : Int) (L : Ledger) (k : Nat ×ₗ String) : Ledger :=
  match L.bindings.get (ofLex k).2 with
  | some b =>
    if liveState b.state ∧ b.endsAt = keyTime (ofLex k).1 then
      L.save now { b with state := .expired } .expire
    else { L with expiry := L.expiry.delete k }
  | none => { L with expiry := L.expiry.delete k }

/-- `Expire`. -/
def Ledger.expire (L : Ledger) (now : Int) : Ledger := (L.due now).foldl (Ledger.expireKey now) L

/-! ### Import -/

structure ImportedLease where
  duid : String := ""
  iaid : String := ""
  scope : String
  address : String
  mac : String := ""
  clientID : String := ""
  hostname : String := ""
  expiry : Int
  deriving DecidableEq, Repr

structure ImportDocument where
  leases : List ImportedLease := []
  serverDUID : String := ""
  deriving DecidableEq, Repr

/-- The end of a lease without one. -/
def infiniteEnd : Int := 253402300799

/-- `dhcpv6.DUIDFromBytes` accepts the bytes: the kinds 1, 2, 3 and 4 have a fixed start, the
last of them a fixed length, and any other kind is opaque. -/
def duidWellFormed : List Nat → Bool
  | hi :: lo :: rest =>
    match hi * 256 + lo with
    | 1 => 6 ≤ rest.length
    | 2 => 4 ≤ rest.length
    | 3 => 2 ≤ rest.length
    | 4 => rest.length = 16
    | _ => true
  | _ => false

/-- `adoptDUID`. -/
def Ledger.adoptDUID (L : Ledger) (c : Config) (value : String) : Except Failure Ledger := do
  let some raw := decodeHex (removeAll value ':') | throw (.error "invalid hexadecimal text")
  refuseIf (!duidWellFormed raw) (.error "malformed DUID")
  refuseIf (c.scopes.any fun s => s.is6 && s.enabled)
    (.error "disable IPv6 scopes before adopting DUID")
  refuseIf (L.duid ≠ [] && L.duid ≠ raw && L.bindings.entries.any fun e => e.2.duid ≠ "")
    (.error "server DUID differs from existing IPv6 ledger")
  pure { L with duid := raw }

/-- The synthetic DUID of a quarantined IPv6 address. -/
def quarantineDUID (scope address : String) : String :=
  "0004" ++ encodeHex ((sha256 (utf8Bytes (scope ++ "/" ++ address))).take 16)

/-- The synthetic hardware address of a quarantined IPv4 address. -/
def quarantineMAC : String := "02:ff:ff:ff:ff:fe"

/-- `isQuarantineMarker`. -/
def isQuarantineMarker (s : Scope) (l : ImportedLease) (mac : String) : Bool :=
  if s.is6 then equalFold (removeAll l.duid ':') (quarantineDUID s.id l.address)
  else mac = quarantineMAC

/-- The client an imported lease belongs to. -/
def importedClient (s : Scope) (l : ImportedLease) (mac : String) : String :=
  if s.is6 then "duid:" ++ toLower (removeAll l.duid ':') ++ "/iaid:" ++ toLower l.iaid
  else if l.clientID ≠ "" ∧ l.clientID ≠ "*" then "id:" ++ toLower (removeAll l.clientID ':')
  else "mac:" ++ mac

/-- The checks of an imported lease before the ledger is looked at: its scope, its hardware
address as text and its client. -/
def checkImported (L : Ledger) (c : Config) (doc : ImportDocument) (l : ImportedLease) :
    Except Failure (Scope × String × String) := do
  refuseIf (l.expiry < 0) (.error "negative imported lease expiry")
  refuseIf (l.duid ≠ "" && doc.serverDUID = "" && L.duid = [])
    (.error "IPv6 adoption requires the legacy server DUID")
  let some s := c.scope l.scope | throw (.error ("unknown import scope " ++ l.scope))
  refuseIf s.enabled (.error ("disable scope " ++ s.id ++ " before importing leases"))
  let p ← mustParsePrefix s.subnet
  refuseIf (!(parseAddr l.address).elim false fun ip =>
      p.contains ip && ip ≠ p.addr && (p.addr.is6 || ip ≠ lastAddr p) && l.address ≠ s.server &&
        l.address ≠ s.router)
    (.error "invalid imported address")
  let mac := parseMAC l.mac
  refuseIf (!s.is6 && !mac.elim false (·.length = 6)) (.error "invalid imported MAC")
  let mac := mac.elim "" macText
  let client := importedClient s l mac
  refuseIf (!validClient client) (.error "invalid imported client ID")
  pure (s, mac, client)

/-- A quarantine restored from an exported lease file. -/
def restoredQuarantine (now : Int) (s : Scope) (l : ImportedLease) (mac client : String)
    (ends : Int) : Binding :=
  { scope := l.scope, address := l.address, client := client, mac := mac, state := .declined,
    origin := .dnsmasqImport, start := now, endsAt := ends, device := deviceID l.scope client,
    name := deviceID l.scope client, evidence := "quarantine restored from exported lease file",
    duid := if s.is6 then trimStart ((splitText client "/iaid:").getD 0 "") "duid:" else "",
    iaid := if s.is6 then l.iaid else "" }

/-- The binding of an imported lease. -/
def importedBinding (now : Int) (c : Config) (s : Scope) (l : ImportedLease) (mac client : String)
    (ends : Int) (old : Binding) : Binding :=
  let b : Binding :=
    { scope := l.scope, address := l.address, client := client, mac := mac,
      claimedName := l.hostname, state := .active, origin := .dnsmasqImport, start := now,
      endsAt := ends, device := deviceID l.scope client, name := deviceID l.scope client,
      duid := if s.is6 then trimStart ((splitText client "/iaid:").getD 0 "") "duid:" else "",
      iaid := if s.is6 then l.iaid else "", preferredEnd := if s.is6 then ends else 0 }
  let b :=
    if old.client = client ∧ old.state = .active ∧ old.endsAt > now then
      { b with device := old.device, name := old.name, nodeID := old.nodeID,
               evidence := old.evidence, start := old.start }
    else b
  match reservation s client mac with
  | some r =>
    let d := (c.device r.device).getD {}
    { b with device := d.id, name := d.name, nodeID := d.nodeID, evidence := "inventory reservation" }
  | none => b

/-- When an imported lease ends. -/
def importedEnd (l : ImportedLease) : Int := if l.expiry = 0 then infiniteEnd else l.expiry

/-- The body of the loop of `ImportDocument`. -/
def importLease (now : Int) (c : Config) (doc : ImportDocument) (L : Ledger) (l : ImportedLease) :
    Except Failure Ledger := do
  let (s, mac, client) ← checkImported L c doc l
  let ends := importedEnd l
  let old := L.readBinding l.scope l.address
  let conflict := Failure.error ("import conflicts with live binding " ++ l.scope ++ "/" ++ l.address)
  if ends ≤ now then pure L
  else if isQuarantineMarker s l mac then
    if old.endsAt > now ∧ old.state = .declined then pure L
    else if old.held now then throw conflict
    else pure (L.save now (restoredQuarantine now s l mac client ends) .import)
  else if old.live now ∧ old.client = client ∧ old.state = .active ∧ old.endsAt ≥ ends then pure L
  else if old.live now ∧ (old.client ≠ client ∨ old.state = .declined) then throw conflict
  else pure (L.save now (importedBinding now c s l mac client ends old) .import)

/-- The server identity of a document, if it has one. -/
def Ledger.adoptServer (L : Ledger) (c : Config) (doc : ImportDocument) : Except Failure Ledger :=
  if doc.serverDUID ≠ "" then L.adoptDUID c doc.serverDUID else pure L

/-- `ImportDocument`. -/
def Ledger.importDocument (L : Ledger) (now : Int) (c : Config) (doc : ImportDocument) :
    Except Failure Ledger := do
  refuseIf (doc.leases.length > 10000) (.error "too many leases")
  let L ← L.adoptServer c doc
  doc.leases.foldlM (importLease now c doc) L

end Ghostd.Addressbook
