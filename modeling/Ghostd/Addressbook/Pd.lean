import Ghostd.Addressbook.Allocate

/-!
# `Ghostd.Addressbook.Pd`: prefix delegation

The allocator of `internal/addressbook/pd.go`, and `abandonDelegations` of
`internal/addressbook/handover.go`. A delegated prefix is a binding whose origin is `dhcpv6PD`
and whose address is the text of the prefix. The link-local address a prefix is routed to is
its text, empty for none.

An accepted configuration has a delegated length between 32 and 64; `prefixAt` cuts a longer
one at 128.
-/

set_option autoImplicit false

namespace Ghostd.Addressbook

open Ghostd.Lib

/-- The sixteen bytes of an address, the lowest first. -/
def lowBytes (n : Nat) : List Nat := (List.range 16).map fun i => n / 256 ^ i % 256

/-- The number with the given bytes, the lowest first. -/
def ofLowBytes (bytes : List Nat) : Nat := bytes.foldr (fun b acc => acc * 256 + b) 0

/-- The loop of `prefixAt`: add to the bytes from the lowest on, until nothing is carried. -/
def addCarry (carry : Nat) : List Nat → List Nat
  | [] => []
  | b :: rest =>
    if carry = 0 then b :: rest
    else
      let sum := b + carry % 256
      sum % 256 :: addCarry (carry / 256 + sum / 256) rest

/-- The same loop in the words of the source: the carry is a `uint64`, and the sum is cut to a byte. -/
def addCarryWord (carry : UInt64) : List UInt8 → List UInt8
  | [] => []
  | b :: rest =>
    if carry = 0 then b :: rest
    else
      let sum := b.toUInt64 + (carry &&& 0xff)
      sum.toUInt8 :: addCarryWord ((carry >>> 8) + (sum >>> 8)) rest

/-- `prefixAt`: the `i`-th delegable prefix of a pool. -/
def prefixAt (pool : Prefix) (length i : Nat) : Prefix :=
  let raw := lowBytes pool.addr.value
  let shift := 128 - length
  let carry := i <<< (shift % 8)
  let bytes := raw.take (shift / 8) ++ addCarry carry (raw.drop (shift / 8))
  { addr := Addr.ofValue .v6 (ofLowBytes bytes)
    bits := min length 128
    bits_le := Nat.min_le_right _ _
    no_zone := rfl }

/-- `poolSize`. -/
def poolSize (pool : Prefix) (length : Nat) : Nat := 1 <<< (length - pool.bits)

/-- `inPool`. -/
def inPool (pool : Prefix) (length : Nat) (p : Prefix) : Bool :=
  p.bits = length && p = p.masked && pool.contains p.addr

/-- The closure `free` of `AllocatePrefix`: nobody else holds the prefix. -/
def freePrefix (L : Ledger) (now : Int) (scope client : String) (p : Prefix) : Bool :=
  let b := L.readBinding scope p.text
  !b.held now || b.client = client

/-- A delegation the client holds. -/
def heldDelegation (now : Int) (b : Binding) : Bool := b.origin = .dhcpv6PD && b.held now

/-- The walk through the pool: the first free prefix from the `i`-th on. -/
def scanPrefixes (free : Prefix → Bool) (pool : Prefix) (length : Nat) : Nat → Nat → Option Prefix
  | 0, _ => none
  | n + 1, i =>
    if free (prefixAt pool length i) then some (prefixAt pool length i)
    else scanPrefixes free pool length n (i + 1)

/-- The prefix for a client that holds none: the hint if it is a free prefix of the pool, and
otherwise the lowest free one. -/
def choosePrefix (L : Ledger) (now : Int) (scope client hint : String) (pool : Prefix)
    (length : Nat) : Option Prefix :=
  let free := freePrefix L now scope client
  match (parsePrefix hint).filter fun p => inPool pool length p && free p with
  | some p => some p
  | none => scanPrefixes free pool length (poolSize pool length) 0

/-- The last binding of a list with a property; the zero binding when there is none. -/
def lastBinding (p : Binding → Bool) (bs : List Binding) : Binding :=
  (bs.filter p).getLast?.getD {}

/-- The delegation the client holds in a scope; the zero binding when it holds none. -/
def myDelegation (L : Ledger) (now : Int) (s : Scope) (client : String) : Binding :=
  lastBinding (heldDelegation now) (L.liveByClient s.id client)

/-- The prefix a client gets: the one it holds, or a chosen one. -/
def settlePrefix (L : Ledger) (now : Int) (s : Scope) (client hint : String) (pool : Prefix)
    (length : Nat) : Except Failure Prefix :=
  if (myDelegation L now s client).address ≠ "" then
    mustParsePrefix (myDelegation L now s client).address
  else
    match choosePrefix L now s.id client hint pool length with
    | some p => pure p
    | none => throw (.unavailable "prefix pool exhausted")

/-- The binding of a delegation: a prefix is the device's that holds an address under the same
DUID, and otherwise the device's that had the prefix. -/
def delegation (L : Ledger) (now : Int) (s : Scope) (client duidHex via address : String) :
    Binding :=
  let old := L.readBinding s.id address
  let same := lastBinding
    (fun x => x.scope = s.id && x.origin = .dhcpv6 && x.duid = duidHex && x.state = .active &&
      x.endsAt > now)
    (L.liveByClientPrefix ("duid:" ++ duidHex ++ "/"))
  let b : Binding :=
    { scope := s.id, address := address, client := client, duid := duidHex, origin := .dhcpv6PD,
      state := .offered, start := now, endsAt := now + 30, evidence := "delegated prefix",
      via := via, device := deviceID s.id client, name := deviceID s.id client }
  let b :=
    if same.device ≠ "" then
      { b with device := same.device, name := same.name, nodeID := same.nodeID,
               evidence := "delegated prefix; same DUID as " ++ same.address }
    else if old.client = client ∧ old.device ≠ "" ∧ old.endsAt > now then
      { b with device := old.device, name := old.name, nodeID := old.nodeID }
    else b
  if old.client = client ∧ old.endsAt > now then { b with start := old.start } else b

/-- `AllocatePrefix`: offer (`commit = false`) or grant a prefix. -/
def Ledger.allocatePrefix (L : Ledger) (now : Int) (s : Scope)
    (client duidHex hint via : String) (commit : Bool) : Except Failure (Binding × Ledger) := do
  let some pd := s.pd | throw (.panic "nil prefix delegation")
  let pool ← mustParsePrefix pd.pool
  let mine := myDelegation L now s client
  let chosen ← settlePrefix L now s client hint pool pd.length.toNat
  let old := L.readBinding s.id chosen.text
  let b := delegation L now s client duidHex via chosen.text
  if commit then
    let b := { b with state := .active, endsAt := now + s.leaseSeconds,
                      preferredEnd := now + s.preferredSeconds }
    let kind := if old.client = client ∧ old.state = .active ∧ old.endsAt > now then .renew else .grant
    pure (b, L.save now b kind)
  else if mine.state = .active then pure (mine, L)
  else pure (b, L.save now b .offer)

/-- End the given bindings. -/
def Ledger.endBindings (L : Ledger) (now : Int) (bs : List Binding) (ended : Binding → Binding) :
    Ledger :=
  bs.foldl (fun L b => L.save now (ended b) .release) L

/-- `releasePrefix`. -/
def Ledger.releasePrefix (L : Ledger) (now : Int) (s : Scope) (client : String) :
    Except Failure Ledger := do
  let held := (L.liveByClient s.id client).filter (heldDelegation now)
  refuseIf (held = []) (.error "no live delegation owned by client")
  pure (L.endBindings now held fun b => { b with state := .released, endsAt := now })

/-- `abandonDelegations`: end every delegation in the scopes that delegate. -/
def Ledger.abandonDelegations (L : Ledger) (now : Int) (target : Config) : Nat × Ledger :=
  let pools := (target.scopes.filter (·.pd.isSome)).map (·.id)
  let live := (L.bindings.entries.map Prod.snd).filter fun b => heldDelegation now b && b.scope ∈ pools
  (live.length,
    L.endBindings now live fun b =>
      { b with
          state := .released
          endsAt := now
          evidence := "abandoned: rolled back to the legacy allocator, which cannot serve delegations" })

end Ghostd.Addressbook
