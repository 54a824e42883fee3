import Ghostd.Addressbook.Manager
import Ghostd.Addressbook.Replicate

/-!
# `Ghostd.Replica.Follower`: the warm standby

`internal/replica/replica.go`. A round of `SyncOnce` reads the leader in several requests and
the leader works on between them, so a round is a value (`Round`): the point in `SyncOnce` it
has come to, with what it has fetched so far. `Round.next` is what happens at that point.

There are two systems over it. In `Mirror` one standby syncs round after round from one leader,
which is what replication itself is about. In `Follower` the sync loops of `Run` are goroutines
beside `Promote`, and each of them is cut where another one can come between.

`ParseConfig` is a parameter: the JSON of a configuration is not looked into here.
-/

set_option autoImplicit false

namespace Ghostd.Replica

open Ghostd.Lib Ghostd.Addressbook

/-! ### `SyncOnce` -/

/-- Why a round fails: a request to the leader, the transaction, or the configuration, which is
looked at last. -/
inductive SyncError where
  | leaderEvents | leaderSnapshot | leaderState
  | apply (e : Failure)
  | parse | save
  deriving DecidableEq, Repr

/-- What a round writes: the database, and the file `ConfigMirror`. -/
structure Standby where
  replica : Replica := {}
  config : Option String := none

/-- Where a round is. `stated` has all it asked for and is about to call `ApplyReplicated`;
`applied` has called it and has the configuration left. -/
inductive Round where
  | ended (result : Except SyncError Unit)
  | paging (after : Nat) (events : List Event)
  | paged (events : List Event)
  | snapped (events : List Event) (snap : Snapshot)
  | stated (events : List Event) (snap : Snapshot) (config : String)
  | applied (config : String)

/-- What a round does next, with what it meets: the clock of the leader for a snapshot, the
leader's configuration, its own clock, and whether the file could be saved. `fail` is a request
that comes to nothing. -/
inductive Call where
  | start
  | page
  | snapshot (clock : Int)
  | state (config : String)
  | apply (now : Int)
  | save (stored : Bool)
  | fail

/-- The round after a page: a full one is followed by another. -/
def Round.turn (after : Nat) (events page : List Event) : Round :=
  if page.length < 1000 then .paged (events ++ page)
  else .paging ((page.getLast?.map (·.id)).getD after) (events ++ page)

/-- One step of `SyncOnce`. What cannot happen at a point does nothing. -/
def Round.next (parse : String → Option Config) (leader : Ledger) (own : Standby) :
    Round → Call → Standby × Round
  | .ended _, .start => (own, .paging own.replica.cursor [])
  | .paging after events, .page =>
      match leader.eventsAfter after 1000 with
      | .ok page => (own, .turn after events page)
      | .error _ => (own, .ended (.error .leaderEvents))
  | .paged events, .snapshot clock =>
      match leader.snapshot clock "" "" 0 with
      | .ok snap => (own, .snapped events snap)
      | .error _ => (own, .ended (.error .leaderSnapshot))
  | .snapped events snap, .state config => (own, .stated events snap config)
  | .stated events snap config, .apply now =>
      match own.replica.applyReplicated now events (some snap) with
      | .ok replica => ({ own with replica }, .applied config)
      | .error e => (own, .ended (.error (.apply e)))
  | .applied config, .save stored =>
      if config = "" then (own, .ended (.ok ()))
      else if (parse config).isNone then (own, .ended (.error .parse))
      else if stored then ({ own with config := some config }, .ended (.ok ()))
      else (own, .ended (.error .save))
  | .paging _ _, .fail => (own, .ended (.error .leaderEvents))
  | .paged _, .fail => (own, .ended (.error .leaderSnapshot))
  | .snapped _ _, .fail => (own, .ended (.error .leaderState))
  | round, _ => (own, round)

/-! ### One leader, one standby -/

/-- A leader, its standby, and the standby's round. -/
structure Mirror where
  leader : Ledger := {}
  own : Standby := {}
  round : Round := .ended (.ok ())

namespace Mirror

/-- The leader serves or adopts a configuration, the round goes on, or a piece of the log that
begins at or before the cursor is delivered once more. -/
inductive Action where
  | lead (now : Int) (op : Operation)
  | configure (now : Int) (c : Config)
  | sync (call : Call)
  | deliver (now : Int) (start count : Nat) (snap : Option Snapshot)

def step (parse : String → Option Config) (m : Mirror) : Action → Mirror
  | .lead now op => { m with leader := op.apply now m.leader }
  | .configure now c => { m with leader := m.leader.noteDNSConfig now c }
  | .sync call =>
      let (own, round) := m.round.next parse m.leader m.own call
      { m with own, round }
  | .deliver now start count snap =>
      if start ≤ m.own.replica.cursor then
        match m.own.replica.applyReplicated now
            ((m.leader.events.filter fun e => e.id > start).take count) snap with
        | .ok replica => { m with own := { m.own with replica } }
        | .error _ => m
      else m

def run (parse : String → Option Config) (m : Mirror) (actions : List Action) : Mirror :=
  actions.foldl (step parse) m

end Mirror

/-! ### `Run` and `Promote` -/

/-- A goroutine in `Run`. It has `registered` once its cancel function is in `f.cancel`, and is
`cancelled` when its context is. -/
structure Loop where
  registered : Bool := false
  cancelled : Bool := false
  round : Round := .ended (.ok ())

/-- Where `Promote` is, with the mirrored configuration: before cancelling the loop, before
`SetStandby`, and before `Manager.Apply`. -/
inductive Promotion where
  | idle
  | loaded (c : Config)
  | cancelled (c : Config)
  | taking (c : Config)

/-- The standby's daemon with its leader. `cancel` is the loop that `f.cancel` would stop. -/
structure Follower where
  leader : Ledger := {}
  own : Standby := {}
  config : Config := {}
  standby : Bool := true
  loops : List Loop := [{}]
  cancel : Option Nat := none
  promotion : Promotion := .idle
  promoted : Bool := false

namespace Follower

/-- What can happen next. `sync` is a step of the round of one loop; `serve` an operation on the
standby's own ledger; the last four are the steps of `Promote`. -/
inductive Action where
  | lead (now : Int) (op : Operation)
  | register (i : Nat)
  | sync (i : Nat) (call : Call)
  | serve (now : Int) (op : Operation)
  | load
  | stop
  | leave
  | take (now : Int) (bound saved : Bool)

/-- The call on a loop whose context may be gone: then a request fails, and nothing else does. -/
def underContext (l : Loop) (call : Call) : Call :=
  if l.cancelled then
    match call with
    | .page | .snapshot _ | .state _ => .fail
    | call => call
  else call

/-- A step of the round of a loop, which begins one when it has registered. -/
def syncLoop (parse : String → Option Config) (f : Follower) (i : Nat) (l : Loop) (call : Call) :
    Follower :=
  if l.registered then
    let (own, round) := l.round.next parse f.leader f.own (underContext l call)
    { f with own, loops := f.loops.set i { l with round } }
  else f

/-- `f.cancel()`, when there is one. -/
def cancelLoop (f : Follower) : List Loop :=
  match f.cancel with
  | none => f.loops
  | some i => f.loops.modify i fun l => { l with cancelled := true }

/-- `Manager.Apply` succeeds. -/
def admitted (f : Follower) (now : Int) (c : Config) (bound saved : Bool) : Bool :=
  (f.own.replica.ledger.admits now c).isOk && bound && saved

/-- The manager's part of the state. -/
def manager (f : Follower) : Manager := { store := f.own.replica.ledger, config := f.config }

/-- What `Manager.Apply` leaves. -/
def adopt (f : Follower) (m : Manager) : Follower :=
  { f with own := { f.own with replica := { f.own.replica with ledger := m.store } }, config := m.config }

def step (parse : String → Option Config) (f : Follower) : Action → Follower
  | .lead now op => { f with leader := op.apply now f.leader }
  | .register i =>
      match f.loops[i]? with
      | none => f
      | some l =>
          if l.registered then f
          else { f with cancel := some i, loops := f.loops.set i { l with registered := true } }
  | .sync i call =>
      match f.loops[i]? with
      | none => f
      | some l => f.syncLoop parse i l call
  | .serve now op => f.adopt { f.manager with store := op.apply now f.own.replica.ledger }
  | .load =>
      -- The caller refuses when the manager is no standby any more.
      match f.promotion, f.standby, f.own.config.bind parse with
      | .idle, true, some c => { f with promotion := .loaded c }
      | _, _, _ => f
  | .stop =>
      match f.promotion with
      | .loaded c => { f with loops := f.cancelLoop, promotion := .cancelled c }
      | _ => f
  | .leave =>
      match f.promotion with
      | .cancelled c => { f with standby := false, promotion := .taking c }
      | _ => f
  | .take now bound saved =>
      match f.promotion with
      | .taking c =>
          let f' := { f.adopt (f.manager.apply now c bound saved) with promotion := .idle }
          if f.admitted now c bound saved then { f' with promoted := true }
          -- Still a standby: mirroring starts again.
          else { f' with standby := true, loops := f'.loops.concat {} }
      | _ => f

def run (parse : String → Option Config) (f : Follower) (actions : List Action) : Follower :=
  actions.foldl (step parse) f

/-- The daemon as it starts with `--follow`: a standby with one sync loop, and whatever an
earlier run of it has left. -/
def boot (leader : Ledger) (own : Standby) (config : Config) : Follower :=
  { leader, own, config }

end Follower

end Ghostd.Replica
