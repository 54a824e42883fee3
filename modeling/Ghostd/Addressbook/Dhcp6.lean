import Ghostd.Addressbook.Pd
import Ghostd.Lib.NetIP
import Ghostd.Lib.Session

/-!
# `Ghostd.Addressbook.Dhcp6`: answering a DHCPv6 packet

`Handle6Via` of `internal/addressbook/dhcp6.go` with what it calls: `ServerDUID`, `duidMAC` and
`currentClient` of the same file, and `handlePD` of `internal/addressbook/pd.go`.

Each identity association is served by transactions of its own. So a handler is a `Session` on
the ledger: a packet that is dropped in the middle leaves what was committed before. `Drop` is
both ways to be left without a reply, `nil, nil` and `nil, err`. A call is made at one instant
`now`, at which the source reads the clock anew for each transaction.

Messages are decoded, with the options that the handlers read: a DUID is well-formed, an address
has sixteen bytes, and options other than these are left out. Lifetimes are in seconds. A missing
address is sent as zeros.
-/

set_option autoImplicit false

namespace Ghostd.Addressbook

open Ghostd.Lib Session

/-! ### Messages -/

/-- `dhcpv6.DUID`: the bytes of a well-formed one. -/
structure Duid where
  bytes : List Nat
  isByte : ∀ b ∈ bytes, b < 256
  wellFormed : duidWellFormed bytes = true
  deriving DecidableEq

/-- `dhcpv6.DUIDFromBytes`. -/
def Duid.ofBytes (raw : List Nat) : Option Duid :=
  if h : (∀ b ∈ raw, b < 256) ∧ duidWellFormed raw = true then some ⟨raw, h.1, h.2⟩ else none

inductive MessageType6 where
  | solicit | advertise | request | confirm | renew | rebind | reply | release | decline
  | reconfigure | informationRequest | other (code : Nat)
  deriving DecidableEq, Repr

inductive StatusCode where
  | success | noAddrsAvail | noBinding | notOnLink | noPrefixAvail
  deriving DecidableEq, Repr

structure OptStatusCode where
  code : StatusCode
  message : String
  deriving DecidableEq, Repr

/-- `OptIAAddress`. -/
structure IAAddress where
  ip : IP
  preferred : Int := 0
  valid : Int := 0
  deriving DecidableEq, Repr

/-- `OptIAPrefix`. -/
structure IAPrefix where
  network : Option IPNet
  preferred : Int := 0
  valid : Int := 0
  deriving DecidableEq, Repr

/-- `OptIANA`. -/
structure IANA where
  iaid : BitVec 32
  t1 : Int := 0
  t2 : Int := 0
  addresses : List IAAddress := []
  status : Option OptStatusCode := none
  deriving DecidableEq, Repr

/-- `OptIAPD`. -/
structure IAPD where
  iaid : BitVec 32
  t1 : Int := 0
  t2 : Int := 0
  prefixes : List IAPrefix := []
  status : Option OptStatusCode := none
  deriving DecidableEq, Repr

/-- `dhcpv6.Message`. -/
structure Message6 where
  messageType : MessageType6
  transactionID : BitVec 24 := 0
  clientIDs : List Duid := []
  serverIDs : List Duid := []
  dns : List IP := []
  domainSearch : List String := []
  status : Option OptStatusCode := none
  ianas : List IANA := []
  iapds : List IAPD := []
  deriving DecidableEq

inductive RelayType where
  | forward | reply
  deriving DecidableEq, Repr

/-- The fields of a `dhcpv6.RelayMessage`, without the address of its peer. -/
structure RelayHeader where
  messageType : RelayType := .forward
  hopCount : Nat := 0
  linkAddr : IP
  deriving DecidableEq, Repr

/-- `dhcpv6.DHCPv6`: a message, or a relay message with what it carries. -/
inductive Packet6 where
  | message (m : Message6)
  | relay (header : RelayHeader) (inner : Option Packet6)

/-- `GetInnerMessage`. -/
def Packet6.getInnerMessage : Packet6 → Option Message6
  | .message m => some m
  | .relay _ none => none
  | .relay _ (some inner) => inner.getInnerMessage

/-- `IsRelay`. -/
def Packet6.isRelay : Packet6 → Bool
  | .message _ => false
  | .relay .. => true

/-! ### Sessions on the ledger -/

/-- Why a packet gets no reply: the handler returns nothing, or an error. -/
inductive Drop where
  | silent
  | failed (e : Failure)
  deriving DecidableEq, Repr

abbrev Handler := Session Ledger Drop

/-- An allocation whose `ErrUnavailable` the handler answers. -/
def tryAllocate (f : Ledger → Except Failure (Binding × Ledger)) : Handler (Option Binding) := fun L =>
  match f L with
  | .ok (b, L') => (.ok (some b), L')
  | .error (.unavailable _) => (.ok none, L)
  | .error e => (.error (.failed e), L)

/-- `ServerDUID`: a server without an identity draws one. -/
def serverDUID (uuid : Fin 16 → Fin 256) : Handler Duid := do
  let raw ← transact (fun L : Ledger =>
    let raw := if L.duid = [] then 0 :: 4 :: (List.ofFn uuid).map Fin.val else L.duid
    (pure (raw, { L with duid := raw }) : Except Failure _)) .failed
  match Duid.ofBytes raw with
  | some server => pure server
  | none => throw (.failed (.error "malformed DUID"))

/-- `duidMAC`: the hardware address of a DUID that has one. -/
def duidMAC (d : Duid) : String :=
  match d.bytes with
  | 0 :: 3 :: _ :: _ :: address => if address.length = 6 then macText address else ""
  | 0 :: 1 :: _ :: _ :: _ :: _ :: _ :: _ :: address =>
    if address.length = 6 then macText address else ""
  | _ => ""

/-- The four bytes of an IAID. -/
def iaidBytes (iaid : BitVec 32) : List Nat :=
  [iaid.toNat / 2 ^ 24 % 256, iaid.toNat / 2 ^ 16 % 256, iaid.toNat / 2 ^ 8 % 256, iaid.toNat % 256]

/-- `pdClient`: the ledger identity of an identity association. The handler writes the same text
for an IA_NA. -/
def pdClient (cid : Duid) (iaid : BitVec 32) : String :=
  "duid:" ++ encodeHex cid.bytes ++ "/iaid:" ++ encodeHex (iaidBytes iaid)

/-- `currentClient`: the active lease of a client. -/
def Ledger.currentClient (L : Ledger) (now : Int) (scope client : String) : Option Binding :=
  let found := lastBinding
    (fun b => b.origin ≠ .dhcpv6PD && b.state = .active && b.endsAt > now) (L.liveByClient scope client)
  if found.client ≠ "" then some found else none

/-! ### Identity associations for addresses -/

/-- The messages that give a lease back. -/
def MessageType6.givesBack : MessageType6 → Bool
  | .release | .decline => true
  | _ => false

/-- The messages about a lease that is there already. -/
def MessageType6.extends : MessageType6 → Bool
  | .renew | .rebind => true
  | _ => false

/-- One address of a Release or Decline: another one than the client has is passed over. -/
def releaseAddress (s : Scope) (now : Int) (kind : MessageType6) (client : String) (current : Binding)
    (a : IAAddress) : Handler PUnit :=
  if IP.text a.ip ≠ current.address then pure ()
  else
    transact (fun L => (L.release now s.id client current.address (kind = .decline)).map ((), ·)) .failed

/-- The address an IA_NA is about: the client's own, or the first hint. -/
def requestedAddress (current : Option Binding) (ia : IANA) : String :=
  match current with
  | some b => b.address
  | none => ia.addresses.head?.elim "" fun a => IP.text a.ip

/-- The address to grant. One that the client may not have is replaced by an offer, if there is any. -/
def targetNA (c : Config) (s : Scope) (now : Int) (cid : Duid) (client : String) (current : Option Binding)
    (ia : IANA) : Handler (Option String) := do
  let ok ← ofExcept (allowed s client (duidMAC cid) (requestedAddress current ia)) .failed
  if requestedAddress current ia = "" ∨ !ok then do
    let offer ← tryAllocate fun L => L.allocate now c s.id client (duidMAC cid) "" "" false
    pure (offer.map (·.address))
  else pure (some (requestedAddress current ia))

/-- The lease for an IA_NA. A refusal is its text. -/
def grantNA (c : Config) (s : Scope) (now : Int) (kind : MessageType6) (cid : Duid) (client : String)
    (current : Option Binding) (ia : IANA) : Handler (Except String Binding) := do
  match ← targetNA c s now cid client current ia with
  | none => pure (.error "pool unavailable")
  | some ip =>
    match ← tryAllocate fun L => L.allocate now c s.id client (duidMAC cid) "" ip (kind ≠ .solicit) with
    | none => pure (.error "address unavailable")
    | some b => pure (.ok b)

/-- The body of the loop over the IA_NAs. -/
def handleNA (c : Config) (s : Scope) (now : Int) (kind : MessageType6) (cid : Duid) (ia : IANA) :
    Handler IANA := do
  let out : IANA := { iaid := ia.iaid }
  let client := pdClient cid ia.iaid
  stopIf (!validClient client) .silent
  let current ← read fun L => L.currentClient now s.id client
  if kind.givesBack then
    match current with
    | none => pure { out with status := some ⟨.noBinding, "binding release"⟩ }
    | some b =>
      ia.addresses.forM (releaseAddress s now kind client b)
      let known := ia.addresses ≠ [] && ia.addresses.all (IP.text ·.ip = b.address)
      pure { out with status := some ⟨if known then .success else .noBinding, "binding release"⟩ }
  else if kind.extends && current.isNone then
    pure { out with status := some ⟨.noBinding, "no active binding"⟩ }
  else
    match ← grantNA c s now kind cid client current ia with
    | .error message => pure { out with status := some ⟨.noAddrsAvail, message⟩ }
    | .ok b =>
      pure
        { out with
            t1 := s.leaseSeconds.tdiv 2
            t2 := (s.leaseSeconds * 4).tdiv 5
            addresses :=
              [{ ip := (parseIP b.address).getD 0, preferred := s.preferredSeconds,
                 valid := s.leaseSeconds }] }

/-! ### Identity associations for prefixes -/

/-- The closure `current` of `handlePD`: the active delegation of a client. -/
def Ledger.currentDelegation (L : Ledger) (now : Int) (scope client : String) : Option Binding :=
  let found := lastBinding
    (fun b => b.origin = .dhcpv6PD && b.state = .active && b.endsAt > now) (L.liveByClient scope client)
  if found.client ≠ "" then some found else none

/-- The hint of an IA_PD: its last prefix. -/
def prefixHint (ia : IAPD) : String :=
  ((ia.prefixes.filterMap (·.network)).getLast?).elim "" IPNet.text

/-- `handlePD`. -/
def handlePD (s : Scope) (now : Int) (kind : MessageType6) (cid : Duid) (via : Option IP) (ia : IAPD) :
    Handler IAPD := do
  let out : IAPD := { iaid := ia.iaid }
  let client := pdClient cid ia.iaid
  if s.pd.isNone then
    pure { out with status := some ⟨.noPrefixAvail, "prefix delegation not configured"⟩ }
  else if !validClient client then
    pure { out with status := some ⟨.noPrefixAvail, "invalid client"⟩ }
  else
    let current ← read fun L => L.currentDelegation now s.id client
    if kind.givesBack then
      if current.isNone then
        pure { out with status := some ⟨.noBinding, "no delegation"⟩ }
      else
        transact (fun L => (L.releasePrefix now s client).map ((), ·)) .failed
        pure { out with status := some ⟨.success, "delegation released"⟩ }
    else if kind.extends && current.isNone then
      pure { out with status := some ⟨.noBinding, "no active delegation"⟩ }
    else if kind = .confirm then pure out
    else
      match ← tryAllocate fun L =>
          L.allocatePrefix now s client (encodeHex cid.bytes) (prefixHint ia) (via.elim "" IP.text)
            (kind ≠ .solicit) with
      | none => pure { out with status := some ⟨.noPrefixAvail, "no prefix available"⟩ }
      | some b =>
        pure
          { out with
              t1 := s.leaseSeconds.tdiv 2
              t2 := (s.leaseSeconds * 4).tdiv 5
              prefixes :=
                [{ network := parseCIDR b.address, preferred := s.preferredSeconds,
                   valid := s.leaseSeconds }] }

/-! ### The handler -/

/-- The message types that are served at all. -/
def MessageType6.served : MessageType6 → Bool
  | .solicit | .request | .renew | .rebind | .confirm | .release | .decline | .informationRequest => true
  | .advertise | .reply | .reconfigure | .other _ => false

/-- The messages that have to name the server. -/
def MessageType6.requiresID : MessageType6 → Bool
  | .request | .renew | .release | .decline => true
  | _ => false

/-- The messages that must not name a server. -/
def MessageType6.forbidsID : MessageType6 → Bool
  | .solicit | .confirm | .rebind => true
  | _ => false

/-- The answer to a Confirm: are all addresses those of the link? -/
def linkCheck (s : Scope) (r : Message6) : OptStatusCode :=
  let onLink (a : IAAddress) : Bool :=
    (parsePrefix s.subnet).elim false (·.contains (Addr.ofValue .v6 a.ip.toNat))
  ⟨if (r.ianas.flatMap (·.addresses)).all onLink then .success else .notOnLink, "link check"⟩

/-- The reply before anything is served. -/
def replyTo (s : Scope) (server : Duid) (r : Message6) : Message6 where
  messageType := if r.messageType = .solicit then .advertise else .reply
  transactionID := r.transactionID
  clientIDs := r.clientIDs.head?.toList
  serverIDs := [server]
  dns := [(parseIP s.server).getD 0]
  domainSearch := [s.zone]

/-- What becomes of a packet before any lease is looked at: it is answered, or its identity
associations are served and completed to the reply. -/
inductive Opened where
  | answered (reply : Message6)
  | serve (r : Message6) (cid : Duid) (reply : Message6)

/-- The first part of `Handle6Via`, up to the loop over the IA_NAs. -/
def openMessage (s : Scope) (uuid : Fin 16 → Fin 256) (packet : Packet6) : Handler Opened := do
  match packet.getInnerMessage with
  | none => throw .silent
  | some r =>
    stopIf (!s.is6 || !s.enabled) .silent
    stopIf (!r.messageType.served) .silent
    stopIf (r.clientIDs.head?.isNone && r.messageType ≠ .informationRequest) .silent
    stopIf (r.clientIDs.length > 1 || r.serverIDs.length > 1) .silent
    let server ← serverDUID uuid
    stopIf ((r.messageType.requiresID && r.serverIDs.head?.isNone) || r.serverIDs.head?.any (· ≠ server))
      .silent
    stopIf (r.messageType.forbidsID && r.serverIDs.head?.isSome) .silent
    if r.messageType = .informationRequest then pure (.answered (replyTo s server r))
    else
      stopIf (r.ianas.length > 16) .silent
      stopIf (!(r.ianas.map (·.iaid)).Nodup || r.ianas.any (·.addresses.length > 16)) .silent
      if r.messageType = .confirm then pure (.answered { replyTo s server r with status := some (linkCheck s r) })
      else
        match r.clientIDs.head? with
        | some cid => pure (.serve r cid (replyTo s server r))
        | none => throw (.failed (.panic "nil client identifier"))

/-- The second part of `Handle6Via`: the IA_NAs, then the IA_PDs. -/
def serveMessage (c : Config) (s : Scope) (now : Int) (via : Option IP) (r : Message6) (cid : Duid)
    (reply : Message6) : Handler Message6 := do
  let ianas ← r.ianas.mapM (handleNA c s now r.messageType cid)
  stopIf (r.iapds.length > 16) .silent
  let iapds ← r.iapds.mapM (handlePD s now r.messageType cid via)
  pure { reply with ianas := ianas, iapds := iapds }

/-- `Handle6Via`. -/
def handle6Via (c : Config) (s : Scope) (now : Int) (uuid : Fin 16 → Fin 256) (packet : Packet6)
    (via : Option IP) : Handler Message6 := do
  match ← openMessage s uuid packet with
  | .answered reply => pure reply
  | .serve r cid reply => serveMessage c s now via r cid reply

/-- `Handle6`. -/
def handle6 (c : Config) (s : Scope) (now : Int) (uuid : Fin 16 → Fin 256) (packet : Packet6) :
    Handler Message6 :=
  handle6Via c s now uuid packet none

end Ghostd.Addressbook
