import Ghostd.Addressbook.Store

/-!
# `Ghostd.Addressbook.Open`: opening a ledger without its indexes

`Open` of `internal/addressbook/store.go` and `backfillIndexes` of `internal/addressbook/index.go`. A
database that was written before an index existed lacks its bucket. `Open` creates what is missing and
fills it from the bindings. The four secondary indexes are filled together, when the client index is
missing.

The bindings are read in the order of their keys. Creating the file and its directory is left out.
-/

set_option autoImplicit false

namespace Ghostd.Addressbook

open Ghostd.Lib

/-- The buckets of indexes that a database lacks. -/
structure Lacking where
  expiry : Bool := false
  dns : Bool := false
  index : Index → Bool := fun _ => false

namespace Ledger

/-- The missing buckets, created empty. -/
def create (L : Ledger) (lacking : Lacking) : Ledger :=
  { L with
      expiry := if lacking.expiry then .empty else L.expiry
      dns := if lacking.dns then .empty else L.dns
      indexes := fun i => if lacking.index i then .empty else L.indexes i }

/-- `backfillIndexes`. -/
def backfillIndexes (L : Ledger) : Ledger :=
  L.bindings.entries.foldl (fun L e => L.reindex {} e.2) L

/-- The expiry index of the live bindings. -/
def backfillExpiry (L : Ledger) : Ledger :=
  { L with
      expiry := L.bindings.entries.foldl
        (fun index e => if liveState e.2.state then index.put (expiryKey e.2) () else index) L.expiry }

/-- The DNS index of the active bindings. -/
def backfillDNS (L : Ledger) : Ledger :=
  { L with
      dns := L.bindings.entries.foldl
        (fun index e => if e.2.state = .active then index.put (dnsKey e.2) e.1 else index) L.dns }

/-- `Open`. -/
def reopen (L : Ledger) (lacking : Lacking) : Ledger :=
  let L := L.create lacking
  let L := if lacking.index .client then L.backfillIndexes else L
  let L := if lacking.expiry then L.backfillExpiry else L
  if lacking.dns then L.backfillDNS else L

end Ledger

end Ghostd.Addressbook
