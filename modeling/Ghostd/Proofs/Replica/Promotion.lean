import Ghostd.Proofs.Addressbook.Tenure
import Ghostd.Replica.Follower

/-!
# `Ghostd.Proofs.Replica.Promotion`: a promoted standby and its old leader

`Promote` ends mirroring by cancelling the context of the loop in `f.cancel`. A cancelled context
makes the next request fail. It does not stop a round that has all it asked for, and it does not
reach a loop that has not put its cancel function there yet. Such a round still calls
`ApplyReplicated` after `Promote` has returned, over what the new authority has granted
(`promoted_overwritten`).

When no round is at that point and no loop is out of reach (`Quiet`), cancelling leaves every
loop unable to get there (`Silent`), and the ledger is the promoted authority's alone.
-/

set_option autoImplicit false

namespace Ghostd.Proofs.Replica

open Ghostd.Lib Ghostd.Addressbook Ghostd.Replica Ghostd.Proofs.Addressbook List

/-! ### Loops that write nothing -/

/-- The round has fetched everything and is about to apply it. -/
def loaded : Round → Bool
  | .stated _ _ _ => true
  | _ => false

/-- Every loop is cancelled, and none is about to apply what it fetched. -/
def Silent (f : Follower) : Prop := ∀ l ∈ f.loops, l.cancelled = true ∧ loaded l.round = false

/-- A cancelled loop that is not about to apply does not write the database and does not come to
that point. -/
theorem next_silent (parse : String → Option Config) (L : Ledger) (own : Standby) {l : Loop}
    (hcancelled : l.cancelled = true) (hround : loaded l.round = false) (call : Call) :
    let r := l.round.next parse L own (Follower.underContext l call)
    r.1.replica = own.replica ∧ loaded r.2 = false := by
  unfold Follower.underContext
  simp only [hcancelled, if_true]
  generalize l.round = round at hround ⊢
  cases round with
  | ended => cases call <;> exact ⟨rfl, rfl⟩
  | paging => cases call <;> exact ⟨rfl, rfl⟩
  | paged => cases call <;> exact ⟨rfl, rfl⟩
  | snapped => cases call <;> exact ⟨rfl, rfl⟩
  | stated => cases hround
  | applied =>
    cases call with
    | save =>
      simp only [Round.next]
      split
      · exact ⟨rfl, rfl⟩
      · split
        · exact ⟨rfl, rfl⟩
        · split <;> exact ⟨rfl, rfl⟩
    | _ => exact ⟨rfl, rfl⟩

/-- Replacing a loop by a silent one. -/
theorem silent_set {f : Follower} (h : Silent f) (i : Nat) {l : Loop} (hcancelled : l.cancelled = true)
    (hround : loaded l.round = false) :
    ∀ x ∈ f.loops.set i l, x.cancelled = true ∧ loaded x.round = false := by
  intro x hx
  rcases mem_or_eq_of_mem_set hx with hx | rfl
  · exact h x hx
  · exact ⟨hcancelled, hround⟩

/-- What the operations on the standby's own ledger make of it. -/
def served (R : Replica) : Follower.Action → Replica
  | .serve now op => { R with ledger := op.apply now R.ledger }
  | _ => R

/-- The sync loops of a silent follower stay silent and leave the database alone. -/
theorem Silent.syncLoop (parse : String → Option Config) {f : Follower} (h : Silent f) {i : Nat} {l : Loop}
    (hl : f.loops[i]? = some l) (call : Call) :
    Silent (f.syncLoop parse i l call) ∧ (f.syncLoop parse i l call).own.replica = f.own.replica := by
  have hmem := h l (mem_of_getElem? hl)
  unfold Follower.syncLoop
  split
  · obtain ⟨hsame, hround⟩ := next_silent parse f.leader f.own hmem.1 hmem.2 call
    exact ⟨silent_set h i hmem.1 hround, hsame⟩
  · exact ⟨h, rfl⟩

/-! ### Promotion -/

/-- `Promote` has cancelled and has not come back, or it has succeeded. -/
def Fenced (f : Follower) : Prop :=
  match f.promotion with
  | .idle => f.promoted = true
  | .loaded _ => False
  | .cancelled _ => True
  | .taking _ => True

/-- The invariant: once cancelled, the loops are silent, and what has been promoted is no
standby any more. -/
structure Guarded (f : Follower) : Prop where
  silent : Fenced f → Silent f
  promoted : f.promoted = true → f.standby = false ∧ f.promotion = .idle
  taking : ∀ c, f.promotion = .taking c → f.standby = false

/-- Where `Promote` may cancel: every loop is within its reach or cancelled already, and no
round is about to apply what it fetched. -/
def Quiet (f : Follower) : Prop :=
  ∀ i l, f.loops[i]? = some l → (l.cancelled = true ∨ f.cancel = some i) ∧ loaded l.round = false

/-- The condition on a run. -/
def Calm (f : Follower) : Follower.Action → Prop
  | .stop => Quiet f
  | _ => True

theorem guarded_boot (leader : Ledger) (own : Standby) (config : Config) :
    Guarded (Follower.boot leader own config) where
  silent h := by cases h
  promoted h := by cases h
  taking c h := by cases h

/-- Cancelling silences a quiet follower. -/
theorem silent_of_quiet {f : Follower} (h : Quiet f) :
    ∀ l ∈ f.cancelLoop, l.cancelled = true ∧ loaded l.round = false := by
  intro l hl
  obtain ⟨i, hi⟩ := mem_iff_getElem?.mp hl
  unfold Follower.cancelLoop at hi
  cases hcancel : f.cancel with
  | none =>
    rw [hcancel] at hi
    obtain ⟨hreach, hround⟩ := h i l hi
    rw [hcancel] at hreach
    rcases hreach with hcancelled | hnone
    · exact ⟨hcancelled, hround⟩
    · cases hnone
  | some j =>
    rw [hcancel] at hi
    simp only [List.getElem?_modify] at hi
    cases hget : f.loops[i]? with
    | none =>
      rw [hget] at hi
      cases hi
    | some l0 =>
      obtain ⟨hreach, hround⟩ := h i l0 hget
      rw [hget] at hi
      have hl0 := Option.some.inj hi
      by_cases hj : j = i
      · simp only [if_pos hj] at hl0
        rw [← hl0]
        exact ⟨rfl, hround⟩
      · simp only [if_neg hj] at hl0
        rw [← hl0]
        rcases hreach with hcancelled | hsame
        · exact ⟨hcancelled, hround⟩
        · rw [hcancel] at hsame
          exact absurd (Option.some.inj hsame) hj

/-- Every action keeps the invariant, where `Promote` cancels in a quiet moment. -/
theorem Guarded.step (parse : String → Option Config) {f : Follower} (h : Guarded f)
    {a : Follower.Action} (hcalm : Calm f a) : Guarded (f.step parse a) := by
  cases a with
  | lead => exact ⟨h.silent, h.promoted, h.taking⟩
  | register i =>
    simp only [Follower.step]
    split
    · exact h
    · rename_i l hl
      split
      · exact h
      · refine ⟨fun hfenced => ?_, h.promoted, h.taking⟩
        have hmem := h.silent hfenced l (mem_of_getElem? hl)
        exact silent_set (h.silent hfenced) i hmem.1 hmem.2
  | sync i call =>
    simp only [Follower.step]
    split
    · exact h
    · rename_i l hl
      have hsame : (f.syncLoop parse i l call).promotion = f.promotion ∧
          (f.syncLoop parse i l call).promoted = f.promoted ∧
          (f.syncLoop parse i l call).standby = f.standby := by
        unfold Follower.syncLoop
        split <;> exact ⟨rfl, rfl, rfl⟩
      obtain ⟨hpromotion, hpromoted, hstandby⟩ := hsame
      refine ⟨fun hfenced => ?_, fun hp => ?_, fun c hc => ?_⟩
      · unfold Fenced at hfenced
        rw [hpromotion, hpromoted] at hfenced
        exact ((h.silent hfenced).syncLoop parse hl call).1
      · rw [hpromoted] at hp
        rw [hstandby, hpromotion]
        exact h.promoted hp
      · rw [hpromotion] at hc
        rw [hstandby]
        exact h.taking c hc
  | serve => exact ⟨h.silent, h.promoted, h.taking⟩
  | load =>
    simp only [Follower.step]
    split
    · rename_i c hidle hstandby _
      refine ⟨fun hfenced => hfenced.elim, fun hp => ?_, fun c hc => by cases hc⟩
      have hno := (h.promoted hp).1
      rw [hstandby] at hno
      cases hno
    · exact h
  | stop =>
    simp only [Follower.step]
    split
    · rename_i c hloaded
      refine ⟨fun _ => silent_of_quiet hcalm, fun hp => ?_, fun c hc => by cases hc⟩
      have hidle := (h.promoted hp).2
      rw [hloaded] at hidle
      cases hidle
    · exact h
  | leave =>
    simp only [Follower.step]
    split
    · rename_i c hcancelled
      refine ⟨fun _ => h.silent ?_, fun hp => ?_, fun _ _ => rfl⟩
      · unfold Fenced
        rw [hcancelled]
        trivial
      · have hidle := (h.promoted hp).2
        rw [hcancelled] at hidle
        cases hidle
    · exact h
  | take =>
    simp only [Follower.step]
    split
    · rename_i c htaking
      have hsilent : Silent f := by
        refine h.silent ?_
        unfold Fenced
        rw [htaking]
        trivial
      have hnot : f.promoted ≠ true := by
        intro hp
        have hidle := (h.promoted hp).2
        rw [htaking] at hidle
        cases hidle
      split
      · exact ⟨fun _ => hsilent, fun _ => ⟨h.taking c htaking, rfl⟩, fun c hc => by cases hc⟩
      · exact ⟨fun hfenced => absurd hfenced hnot, fun hp => absurd hp hnot, fun c hc => by cases hc⟩
    · exact h

/-- Every action of a run meets the condition, in the state before it. -/
def CalmRun (parse : String → Option Config) : Follower → List Follower.Action → Prop
  | _, [] => True
  | f, a :: rest => Calm f a ∧ CalmRun parse (f.step parse a) rest

theorem Guarded.run (parse : String → Option Config) {f : Follower} (h : Guarded f)
    {actions : List Follower.Action} (hcalm : CalmRun parse f actions) :
    Guarded (f.run parse actions) := by
  induction actions generalizing f with
  | nil => exact h
  | cons a rest ih => exact ih (h.step parse hcalm.1) hcalm.2

/-! ### After the promotion -/

/-- The standby has been promoted and its loops are silent. -/
structure Promoted (f : Follower) : Prop where
  silent : Silent f
  promoted : f.promoted = true
  standby : f.standby = false
  idle : f.promotion = .idle

theorem Guarded.toPromoted {f : Follower} (h : Guarded f) (hp : f.promoted = true) : Promoted f := by
  obtain ⟨hstandby, hidle⟩ := h.promoted hp
  refine ⟨h.silent ?_, hp, hstandby, hidle⟩
  unfold Fenced
  rw [hidle]
  exact hp

/-- Nothing but the operations it serves changes the database of a promoted standby. -/
theorem Promoted.step (parse : String → Option Config) {f : Follower} (h : Promoted f)
    (a : Follower.Action) :
    Promoted (f.step parse a) ∧ (f.step parse a).own.replica = served f.own.replica a := by
  obtain ⟨hsilent, hpromoted, hstandby, hidle⟩ := h
  cases a with
  | lead => exact ⟨⟨hsilent, hpromoted, hstandby, hidle⟩, rfl⟩
  | register i =>
    simp only [Follower.step]
    split
    · exact ⟨⟨hsilent, hpromoted, hstandby, hidle⟩, rfl⟩
    · rename_i l hl
      split
      · exact ⟨⟨hsilent, hpromoted, hstandby, hidle⟩, rfl⟩
      · have hmem := hsilent l (mem_of_getElem? hl)
        exact ⟨⟨silent_set hsilent i hmem.1 hmem.2, hpromoted, hstandby, hidle⟩, rfl⟩
  | sync i call =>
    simp only [Follower.step]
    split
    · exact ⟨⟨hsilent, hpromoted, hstandby, hidle⟩, rfl⟩
    · rename_i l hl
      obtain ⟨hstill, hsame⟩ := hsilent.syncLoop parse hl call
      refine ⟨⟨hstill, ?_, ?_, ?_⟩, hsame⟩
      all_goals
        unfold Follower.syncLoop
        split
        · assumption
        · assumption
  | serve => exact ⟨⟨hsilent, hpromoted, hstandby, hidle⟩, rfl⟩
  | load =>
    -- Only a standby is promoted.
    simp only [Follower.step, hidle, hstandby]
    exact ⟨⟨hsilent, hpromoted, hstandby, hidle⟩, rfl⟩
  | stop =>
    simp only [Follower.step, hidle]
    exact ⟨⟨hsilent, hpromoted, hstandby, hidle⟩, rfl⟩
  | leave =>
    simp only [Follower.step, hidle]
    exact ⟨⟨hsilent, hpromoted, hstandby, hidle⟩, rfl⟩
  | take =>
    simp only [Follower.step, hidle]
    exact ⟨⟨hsilent, hpromoted, hstandby, hidle⟩, rfl⟩

theorem Promoted.run (parse : String → Option Config) {f : Follower} (h : Promoted f)
    (later : List Follower.Action) :
    (f.run parse later).own.replica = later.foldl served f.own.replica := by
  induction later generalizing f with
  | nil => rfl
  | cons a rest ih =>
    obtain ⟨hstep, hsame⟩ := h.step parse a
    show ((f.step parse a).run parse rest).own.replica = _
    rw [ih hstep, hsame]
    rfl

/-- A promoted standby is no longer written by its old leader, when every promotion cancels in a
quiet moment. Take any run of the daemon, with the sync loops, the leader and the steps of
`Promote` in any interleaving. Once a promotion has succeeded, whatever happens later changes the
database through the operations that the promoted authority serves, and through nothing else. -/
theorem promoted_unwritten (parse : String → Option Config) (leader : Ledger) (own : Standby)
    (config : Config) {actions : List Follower.Action}
    (hcalm : CalmRun parse (Follower.boot leader own config) actions)
    (hpromoted : ((Follower.boot leader own config).run parse actions).promoted = true)
    (later : List Follower.Action) :
    ((Follower.boot leader own config).run parse (actions ++ later)).own.replica =
      later.foldl served ((Follower.boot leader own config).run parse actions).own.replica := by
  have hguarded := (guarded_boot leader own config).run parse hcalm
  have happend : (Follower.boot leader own config).run parse (actions ++ later) =
      ((Follower.boot leader own config).run parse actions).run parse later := by
    unfold Follower.run
    rw [foldl_append]
  rw [happend]
  exact (hguarded.toPromoted hpromoted).run parse later

/-- The leader grants 10.0.0.5, and a round of the standby's loop fetches it up to a point. -/
def grantFetched (calls : List Call) : List Follower.Action :=
  [.register 0, .lead 10 (requestFive 10 60 "01").op] ++ calls.map (Follower.Action.sync 0)

/-- The standby is promoted and takes over. -/
def takeOver : List Follower.Action := [.load, .stop, .leave, .take 21 true true]

/-- A standby that has mirrored a configuration before. -/
def warm : Follower := Follower.boot {} { config := some "config" } {}

/-- It grants the same address, while the old round goes on. -/
def afterwards : List Follower.Action :=
  [.serve 22 (requestFive 22 60 "02").op, .sync 0 (.snapshot 22), .sync 0 (.apply 23)]

/-- What the promoted authority grants is its own: the round had not fetched everything. -/
theorem promoted_unwritten_paged :
    (warm.run (fun _ => some (smallLan 60)) ((grantFetched [.start, .page] ++ takeOver) ++
        afterwards)).own.replica =
      afterwards.foldl served
        (warm.run (fun _ => some (smallLan 60)) (grantFetched [.start, .page] ++ takeOver)).own.replica := by
  -- When `Promote` cancels, the one loop is in `f.cancel` and still has to ask for the snapshot.
  have hquiet : Quiet (warm.run (fun _ => some (smallLan 60)) (grantFetched [.start, .page] ++ [.load])) := by
    have hloops : (warm.run (fun _ => some (smallLan 60)) (grantFetched [.start, .page] ++ [.load])).loops.map
        (fun l => loaded l.round) = [false] := by decide +kernel
    have hcancel : (warm.run (fun _ => some (smallLan 60)) (grantFetched [.start, .page] ++ [.load])).cancel =
        some 0 := by decide +kernel
    intro i l hl
    have hget : ([false] : List Bool)[i]? = some (loaded l.round) := by
      rw [← hloops, List.getElem?_map, hl]
      rfl
    rw [hcancel]
    cases i with
    | zero => exact ⟨Or.inr rfl, (Option.some.inj hget).symm⟩
    | succ => cases hget
  have hcalm : CalmRun (fun _ => some (smallLan 60)) warm (grantFetched [.start, .page] ++ takeOver) :=
    ⟨trivial, trivial, trivial, trivial, trivial, hquiet, trivial, trivial, trivial⟩
  have hpromoted : (warm.run (fun _ => some (smallLan 60)) (grantFetched [.start, .page] ++ takeOver)).promoted =
      true := by decide +kernel
  unfold warm at hcalm hpromoted ⊢
  exact promoted_unwritten _ _ _ _ hcalm hpromoted afterwards

/-- A round that has fetched everything applies it after the promotion, over the grant of the
promoted authority. -/
theorem promoted_overwritten :
    let fetched := grantFetched [.start, .page, .snapshot 20, .state "config"]
    let served := fetched ++ takeOver ++ [.serve 22 (requestFive 22 60 "02").op]
    (warm.run (fun _ => some (smallLan 60)) (fetched ++ takeOver)).promoted = true ∧
      ((warm.run (fun _ => some (smallLan 60)) served).own.replica.ledger.bindings.get
        "lan/10.0.0.5").map (fun b => (b.client, b.state)) = some ("mac:02:00:00:00:00:02", .active) ∧
      ((warm.run (fun _ => some (smallLan 60)) (served ++ [.sync 0 (.apply 23)])).own.replica.ledger.bindings.get
        "lan/10.0.0.5").map (fun b => (b.client, b.state)) = some ("mac:02:00:00:00:00:01", .active) := by
  decide +kernel

end Ghostd.Proofs.Replica
