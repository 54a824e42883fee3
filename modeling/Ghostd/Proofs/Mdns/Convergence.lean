import Ghostd.Mdns.Service

/-!
# `Ghostd.Proofs.Mdns.Convergence`: whether the service runs what it reports

The watcher compares the configuration that the service reports with the stored one, and applies the
stored one if they differ. So it takes a service for converged that reports the stored configuration,
whether or not anything is running. `Honest` says that the service reports what it runs.

`Apply` starts the old set again if the new one does not start. If that fails too, nothing is running,
and the service goes on to report the old configuration. `runs_as_reported` says that this is all that
can go wrong: after calls that each could go back, a call leaves the service honest, and its old set
running if it failed, exactly if it could go back.
-/

set_option autoImplicit false

namespace Ghostd.Proofs.Mdns

open Ghostd.Lib Ghostd.Mdns

/-- A call of `Apply`, with the outcomes of the attempts to start a set. -/
structure Applying where
  cfg : Config
  attempt : Start
  again : Start

section Calls

variable (glob : String → String → Option Bool)

/-- The result of a call. -/
def result (s : Service) (call : Applying) : Except String Unit × Service :=
  s.apply glob call.attempt call.again call.cfg

/-- The service after calls. -/
def serviceAfter (s : Service) (calls : List Applying) : Service :=
  calls.foldl (fun s call => (result glob s call).2) s

/-- The service reports what it runs: nothing if its configuration is empty, and a set with its
configuration otherwise. -/
structure Honest (s : Service) : Prop where
  idle : s.cfg.empty = true ↔ s.run = none
  running : ∀ r, s.run = some r → r.cfg = s.cfg

/-- The set with the configuration of the old one is running again. -/
def RunsAgain (old new : Service) : Prop := ∀ r, old.run = some r → ∃ r', new.run = some r' ∧ r'.cfg = r.cfg

/-- The call can go back: if the new set has to be started and does not start, the old one does. -/
def CanGoBack (s : Service) (call : Applying) : Prop :=
  call.cfg.validate glob = .ok () → call.cfg.empty = false → (∀ plan, call.attempt call.cfg ≠ .ok plan) →
    s.run ≠ none → ∃ plan, call.again s.cfg = .ok plan

/-- Each of the calls can go back. -/
def AllGoBack : Service → List Applying → Prop
  | _, [] => True
  | s, call :: calls => CanGoBack glob s call ∧ AllGoBack (result glob s call).2 calls

/-- What is asked of a call: if it failed the old set is running again, the service is honest, and the
watcher takes it for converged on a configuration only if it runs it. -/
structure RunsAsReported (old : Service) (out : Except String Unit × Service) : Prop where
  restored : ∀ e, out.1 = .error e → RunsAgain old out.2
  honest : Honest out.2
  watched : ∀ attempt again want, want.empty = false → want = out.2.cfg →
    out.2.watch glob attempt again want = out.2 ∧ ∃ r, out.2.run = some r ∧ r.cfg = want

variable {glob}

/-- What a call does. -/
theorem result_cases (glob : String → String → Option Bool) (s : Service) (call : Applying) :
    (∃ e, call.cfg.validate glob = .error e ∧ result glob s call = (.error e, s)) ∨
    (call.cfg.validate glob = .ok () ∧ call.cfg.empty = true ∧ result glob s call = (.ok (), ⟨call.cfg, none⟩)) ∨
    (call.cfg.validate glob = .ok () ∧ call.cfg.empty = false ∧
      ((∃ plan, call.attempt call.cfg = .ok plan ∧ result glob s call = (.ok (), ⟨call.cfg, some ⟨call.cfg, plan⟩⟩)) ∨
        ∃ e, call.attempt call.cfg = .error e ∧
          ((s.run = none ∧ result glob s call = (.error e, s)) ∨
            (s.run ≠ none ∧
              ((∃ plan, call.again s.cfg = .ok plan ∧
                  result glob s call = (.error e, { s with run := some ⟨s.cfg, plan⟩ })) ∨
                ∃ e', call.again s.cfg = .error e' ∧ result glob s call = (.error e, { s with run := none })))))) := by
  unfold result Service.apply
  cases hvalid : call.cfg.validate glob with
  | error e => exact Or.inl ⟨e, rfl, rfl⟩
  | ok =>
    refine Or.inr ?_
    cases hempty : call.cfg.empty with
    | true => exact Or.inl ⟨rfl, rfl, rfl⟩
    | false =>
      refine Or.inr ⟨rfl, rfl, ?_⟩
      cases hstart : call.attempt call.cfg with
      | ok plan => exact Or.inl ⟨plan, rfl, by simp [Start.running, hstart, Except.map]⟩
      | error e =>
        refine Or.inr ⟨e, rfl, ?_⟩
        cases hrun : s.run with
        | none =>
          refine Or.inl ⟨rfl, ?_⟩
          simp only [Start.running, hstart, Except.map]
          rw [← hrun]
          rfl
        | some =>
          refine Or.inr ⟨by simp, ?_⟩
          cases hagain : call.again s.cfg with
          | ok plan => exact Or.inl ⟨plan, rfl, by simp [Start.running, hstart, hagain, Except.map]⟩
          | error e' => exact Or.inr ⟨e', rfl, by simp [Start.running, hstart, hagain, Except.map]⟩

theorem honest_new : Honest Service.new := ⟨⟨fun _ => rfl, fun _ => rfl⟩, fun r h => by cases h⟩

/-- What an honest service reports is running, unless it is nothing. -/
theorem Honest.watched {s : Service} (h : Honest s) (attempt again : Start) {want : Config}
    (hempty : want.empty = false) (hwant : want = s.cfg) :
    s.watch glob attempt again want = s ∧ ∃ r, s.run = some r ∧ r.cfg = want := by
  refine ⟨if_neg (not_not.mpr hwant), ?_⟩
  cases hrun : s.run with
  | none =>
    rw [hwant, h.idle.mpr hrun] at hempty
    cases hempty
  | some r => exact ⟨r, rfl, by rw [hwant]; exact h.running r hrun⟩

/-- A call of an honest service that can go back. -/
theorem result_honest {s : Service} (hs : Honest s) {call : Applying} (hback : CanGoBack glob s call) :
    Honest (result glob s call).2 ∧ ∀ e, (result glob s call).1 = .error e → RunsAgain s (result glob s call).2 := by
  have hsame : RunsAgain s s := fun r hr => ⟨r, hr, rfl⟩
  rcases result_cases glob s call with ⟨e, -, hr⟩ | ⟨-, hempty, hr⟩ |
    ⟨hvalid, hempty, ⟨plan, -, hr⟩ | ⟨e, hfails, ⟨-, hr⟩ | ⟨hrun, ⟨plan, -, hr⟩ | ⟨e', hagain, -⟩⟩⟩⟩
  · rw [hr]
    exact ⟨hs, fun _ _ => hsame⟩
  · rw [hr]
    exact ⟨⟨⟨fun _ => rfl, fun _ => hempty⟩, fun r h => (by cases h)⟩, fun e h => (by cases h)⟩
  · rw [hr]
    refine ⟨⟨⟨fun h => ?_, fun h => (by cases h)⟩, fun r h => ?_⟩, fun e h => (by cases h)⟩
    · rw [hempty] at h
      cases h
    · cases h
      rfl
  · rw [hr]
    exact ⟨hs, fun _ _ => hsame⟩
  · -- The old set is running again, with the configuration that is still reported.
    rw [hr]
    refine ⟨⟨⟨fun h => absurd (hs.idle.mp h) hrun, fun h => (by cases h)⟩, fun r h => ?_⟩, fun _ _ r hr => ?_⟩
    · cases h
      rfl
    · exact ⟨_, rfl, (hs.running r hr).symm⟩
  · obtain ⟨plan, hplan⟩ := hback hvalid hempty (fun plan h => by rw [hfails] at h; cases h) hrun
    rw [hagain] at hplan
    cases hplan

theorem serviceAfter_honest {s : Service} (hs : Honest s) {calls : List Applying} (h : AllGoBack glob s calls) :
    Honest (serviceAfter glob s calls) := by
  induction calls generalizing s with
  | nil => exact hs
  | cons call calls ih => exact ih (result_honest hs h.1).1 h.2

/-- **The service runs what it reports, exactly as long as it can go back.** After calls that each could,
the next call leaves the service running what it reports, and the old set if it failed, if and only if
it can go back too. -/
theorem runs_as_reported (glob : String → String → Option Bool) (calls : List Applying)
    (hcalls : AllGoBack glob Service.new calls) (call : Applying) :
    RunsAsReported glob (serviceAfter glob Service.new calls) (result glob (serviceAfter glob Service.new calls) call) ↔
      CanGoBack glob (serviceAfter glob Service.new calls) call := by
  have hs := serviceAfter_honest honest_new hcalls
  generalize serviceAfter glob Service.new calls = s at hs ⊢
  constructor
  · intro h hvalid hempty hfails hrun
    -- Otherwise nothing is running after the call, although something was.
    rcases result_cases glob s call with ⟨e, hinvalid, -⟩ | ⟨-, hempty', -⟩ |
      ⟨-, -, ⟨plan, hstarts, -⟩ | ⟨e, -, ⟨hidle, -⟩ | ⟨-, ⟨plan, hagain, -⟩ | ⟨e', -, hr⟩⟩⟩⟩
    · rw [hinvalid] at hvalid
      cases hvalid
    · rw [hempty'] at hempty
      cases hempty
    · exact absurd hstarts (hfails plan)
    · exact absurd hidle hrun
    · exact ⟨plan, hagain⟩
    · obtain ⟨r, hr'⟩ := Option.ne_none_iff_exists'.mp hrun
      have hstopped := h.restored e (by rw [hr]) r hr'
      rw [hr] at hstopped
      obtain ⟨r', hnone, -⟩ := hstopped
      cases hnone
  · intro hback
    obtain ⟨hhonest, hrestored⟩ := result_honest hs hback
    exact ⟨hrestored, hhonest, fun attempt again want hempty hwant => hhonest.watched attempt again hempty hwant⟩

end Calls

/-- A configuration that relays everything between two interfaces. -/
def relayAll (a b : String) : Config where
  reflect := [{ fromEnd := a, toEnd := b, allowServices := ["*"] }]

/-- A start that works, and one that finds the port taken. -/
def starts : Start := fun _ => .ok {}

def portTaken : Start := fun _ => .error "mdns: cannot bind UDP 5353 (is another mDNS daemon running?)"

/-- Another daemon has taken the port when the second configuration is applied. Nothing is running after
that, the first configuration is still reported, and the watcher that wants it does nothing. -/
theorem stopped_taken_for_converged :
    let s := serviceAfter (fun _ _ => some false) Service.new
      [⟨relayAll "eth0" "eth1", starts, starts⟩, ⟨relayAll "eth0" "eth2", portTaken, portTaken⟩]
    s.run.isNone = true ∧ s.cfg.empty = false ∧ s.cfg = relayAll "eth0" "eth1" ∧
      (s.watch (fun _ _ => some false) starts starts (relayAll "eth0" "eth1")).run.isNone = true := by
  decide +kernel

/-- The first configuration is started again, and the service runs what it reports. -/
theorem runs_as_reported_restored :
    let s := serviceAfter (fun _ _ => some false) Service.new [⟨relayAll "eth0" "eth1", starts, starts⟩]
    RunsAsReported (fun _ _ => some false) s
      (result (fun _ _ => some false) s ⟨relayAll "eth0" "eth2", portTaken, starts⟩) := by
  refine (runs_as_reported (fun _ _ => some false) [⟨relayAll "eth0" "eth1", starts, starts⟩] ?_ _).mpr ?_
  · exact ⟨fun _ _ _ _ => ⟨_, rfl⟩, trivial⟩
  · exact fun _ _ _ _ => ⟨_, rfl⟩

end Ghostd.Proofs.Mdns
