import Ghostd.Lib.Fault

/-!
# `Ghostd.State.Transaction`: the durable transaction record of a domain

`internal/state/transaction.go` keeps, for each Apply/Confirm domain, one file with the
last confirmed bytes and the pending lease, if there is one. The file is replaced
atomically (write, sync, rename), so a reader sees the old record or the new one. A save
that reports an error can still have replaced the file: the directory sync comes after the
rename. `Prog.attempt` is exactly this.

A `Host` is everything the lease machinery of one domain can touch: the part of the world
the domain changes (`world`, a parameter), the record, the armed revert timers, and whether
the daemon serves. Two fields are not in the program. `issued` lists the lease identifiers
handed out so far, which is what "a fresh identifier" is measured against. `saves` is the
history of the record, newest first, with the world each save happened in. The properties
of whole runs are read off that history.

Bytes are a type parameter `B`. An empty or nil slice is `none`.
-/

set_option autoImplicit false

namespace Ghostd.State

open Ghostd.Lib

/-- The gRPC codes the lease machinery answers with. An error that carries no code reaches
the caller as `unknown`. -/
inductive Code where
  | unknown | invalidArgument | failedPrecondition | deadlineExceeded | internal | unimplemented
  deriving DecidableEq, Repr

/-- An error: its code and its text. -/
structure Status where
  code : Code
  message : String
  deriving DecidableEq, Repr

/-- `state.Pending`: an unconfirmed apply. `applied` is set only after every mutation
succeeded. -/
structure Pending (B : Type) where
  applied : Bool
  id : String
  deadline : Int
  snapshot : Option B
  target : B
  peer : String
  deriving DecidableEq, Repr

/-- `state.DomainState`: one file holds the confirmed bytes and the pending lease, so
confirming and disarming are one write. -/
structure DomainState (B : Type) where
  confirmed : Option B
  pending : Option (Pending B)
  deriving DecidableEq, Repr

/-- Which program point saved a record. -/
inductive Actor where
  | begin | abort | finishApply | confirm | recover | external
  deriving DecidableEq, Repr

/-- One durable save of the record, with the world at that moment. -/
structure Save (L B : Type) where
  actor : Actor
  before : DomainState B
  after : DomainState B
  world : L

/-- The host as one domain's lease machinery sees it. -/
structure Host (L B : Type) where
  world : L
  record : Option (DomainState B)
  timers : List String
  serving : Bool
  rebooted : Bool
  issued : List String
  saves : List (Save L B)

variable {L B : Type}

/-- A domain: its name, where its legacy blob lives, how a rollback in the daemon and one
in the revert process restore a snapshot, and what a confirmation records. -/
structure Domain (L B : Type) where
  name : String
  legacy : L → Option B
  /-- The restore of `recoverExpired`, inside the daemon. -/
  restore : B → Prog L Status Unit
  /-- The restore of `recoverDomain`, at boot and in the revert process. -/
  recover : Option B → Prog L Status Unit
  /-- What `Confirm` records for a pending lease. -/
  confirmed : Pending B → Prog L Status B
  /-- What a dying daemon process takes with it. -/
  lose : L → L

namespace Host

/-- `Store.Domain`: the record, or the legacy blob when no record was ever written. -/
def domain (d : Domain L B) (h : Host L B) : DomainState B :=
  h.record.getD { confirmed := d.legacy h.world, pending := none }

/-- The host after `Store.SaveDomain` replaced the record. -/
def saved (d : Domain L B) (actor : Actor) (st : DomainState B) (h : Host L B) : Host L B :=
  { h with
      record := some st
      saves := { actor, before := h.domain d, after := st, world := h.world } :: h.saves }

@[simp] theorem domain_saved (d : Domain L B) (actor : Actor) (st : DomainState B)
    (h : Host L B) : (h.saved d actor st).domain d = st := rfl

@[simp] theorem world_saved (d : Domain L B) (actor : Actor) (st : DomainState B)
    (h : Host L B) : (h.saved d actor st).world = h.world := rfl

@[simp] theorem issued_saved (d : Domain L B) (actor : Actor) (st : DomainState B)
    (h : Host L B) : (h.saved d actor st).issued = h.issued := rfl

/-- Replace the domain's part of the world. -/
def withWorld (w : L) (h : Host L B) : Host L B := { h with world := w }

/-- What the end of a program run by the daemon does to the host: a crash takes the
process's memory with it. -/
def settle (d : Domain L B) {α : Type} : Outcome Status α × Host L B → Host L B
  | (.crash, h) => { h with serving := false, world := d.lose h.world }
  | (_, h) => h

end Host

/-- `Store.Domain` as a program: reading the file can fail. -/
def loadDomain (d : Domain L B) : Prog (Host L B) Status (DomainState B) := do
  Prog.fallible ⟨.internal, "state: read " ++ d.name ++ "-transaction.json"⟩
  let h ← Prog.get
  pure (h.domain d)

/-- `Store.SaveDomain`. -/
def saveDomain (d : Domain L B) (actor : Actor) (st : DomainState B) :
    Prog (Host L B) Status Unit :=
  Prog.attempt (Host.saved d actor st) ⟨.internal, "state: write " ++ d.name ++ "-transaction.json"⟩

/-- A program on the domain's part of the world. -/
def onWorld {α : Type} (m : Prog L Status α) : Prog (Host L B) Status α :=
  Prog.zoom Host.world Host.withWorld m

/-- `Leases.Arm`: start the revert timer of a lease. -/
def arm (id : String) : Prog (Host L B) Status Unit :=
  Prog.attempt (fun h => { h with timers := id :: h.timers })
    ⟨.internal, "state: arm dead-man's-switch for lease " ++ id⟩

/-- `Leases.Cancel`: stop the revert timer of a lease. -/
def cancel (id : String) : Prog (Host L B) Status Unit :=
  Prog.attempt (fun h => { h with timers := h.timers.filter (· != id) })
    ⟨.unknown, "state: cancel dead-man's-switch for lease " ++ id⟩

end Ghostd.State
