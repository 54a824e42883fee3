import Ghostd.Proofs.Addressbook.Tenure
import Ghostd.Replica.Promote

/-!
# `Ghostd.Proofs.Replica.FailedPromotion`: what a failed promotion leaves

`Promote` undoes what it did to the manager: the running configuration is adopted last, and the error
path makes the node a standby again. It does not undo the two saves. The record of `dhcp-v1` is saved
before the live file, so when the second save fails, the record holds the leader's configuration and
the promotion is reported as failed. The next start restores the record into the live file, finds
enabled scopes in it, and a standby refuses those (`record_ahead_of_promotion`).

`failed_promotion_iff` says for every fault whether a failed promotion left everything as it was.
-/

set_option autoImplicit false

namespace Ghostd.Proofs.Replica

open Ghostd.Lib Ghostd.Addressbook Ghostd.Replica Ghostd.State Ghostd.Proofs.Addressbook Session

variable {h h' : StandbyHost} {faults : Faults} {e : String} {now : Int}

/-! ### The checks -/

/-- The checks of `Manager.Apply` look at the bindings only. -/
theorem admits_of_bindings_eq {L L' : Ledger} (h : L'.bindings = L.bindings) (now : Int) (c : Config) :
    L'.admits now c = L.admits now c := by
  unfold Ledger.admits Ledger.snapshot
  simp only [if_true, bind_assoc, pure_bind, h]

theorem bindings_noteDNSConfig (L : Ledger) (now : Int) (c : Config) :
    (L.noteDNSConfig now c).bindings = L.bindings := (noteDNSConfig_aside L now c).bindings

/-! ### The two saves -/

/-- The record that a promotion saves. -/
def promotedRecord (h : StandbyHost) (raw : String) : StandbyHost :=
  { h with record := some { h.domain with confirmed := some raw } }

/-- Where the two saves can end with an error, and what they leave then. -/
theorem saveExternally_error {raw : String}
    (hrun : (saveExternallyManagedConfig faults raw).on h = (.error e, h')) :
    (h' = h ∧ (faults.readRecord = true ∨ h.domain.pending.isSome = true ∨ faults.saveRecord = .lost)) ∨
    (faults.readRecord = false ∧ h.domain.pending = none ∧
      ((h' = promotedRecord h raw ∧ (faults.saveRecord = .replaced ∨
          faults.saveRecord = .saved ∧ faults.saveFile = .lost)) ∨
        (h' = { promotedRecord h raw with file := some raw } ∧ faults.saveRecord = .saved ∧
          faults.saveFile = .replaced))) := by
  unfold saveExternallyManagedConfig at hrun
  rw [on_bind] at hrun
  cases hread : faults.readRecord with
  | true =>
    rw [hread] at hrun
    cases hrun
    exact Or.inl ⟨rfl, Or.inl rfl⟩
  | false =>
    rw [hread] at hrun
    simp only [on_stopIf_false, on_bind, on_read] at hrun
    cases hpending : h.domain.pending.isSome with
    | true =>
      rw [hpending] at hrun
      cases hrun
      exact Or.inl ⟨rfl, Or.inr (Or.inl rfl)⟩
    | false =>
      rw [hpending] at hrun
      have hnone : h.domain.pending = none := Option.isSome_eq_false_iff.mp hpending |> Option.isNone_iff_eq_none.mp
      cases hsave : faults.saveRecord with
      | lost =>
        rw [hsave] at hrun
        cases hrun
        exact Or.inl ⟨rfl, Or.inr (Or.inr rfl)⟩
      | replaced =>
        rw [hsave] at hrun
        cases hrun
        exact Or.inr ⟨rfl, hnone, Or.inl ⟨rfl, Or.inl rfl⟩⟩
      | saved =>
        rw [hsave] at hrun
        cases hfile : faults.saveFile with
        | saved =>
          rw [hfile] at hrun
          cases hrun
        | lost =>
          rw [hfile] at hrun
          cases hrun
          exact Or.inr ⟨rfl, hnone, Or.inl ⟨rfl, Or.inr ⟨rfl, rfl⟩⟩⟩
        | replaced =>
          rw [hfile] at hrun
          cases hrun
          exact Or.inr ⟨rfl, hnone, Or.inr ⟨rfl, rfl, rfl⟩⟩

/-! ### The promotion -/

/-- The host with the DNS configuration noted in its ledger. -/
def noted (now : Int) (c : Config) (h : StandbyHost) : StandbyHost :=
  { h with manager := { h.manager with store := h.manager.store.noteDNSConfig now c } }

/-- Where `Manager.Apply` can end with an error once the node is no standby: a check, or the save. -/
theorem applyManager_error {c : Config} {save : Session StandbyHost String Unit} (hactive : h.standby = false)
    (hrun : (applyManager faults now c save).on h = (.error e, h')) :
    (h' = h ∧ ((h.manager.store.admits now c).isOk = false ∨ faults.bind = true ∨ faults.note = true)) ∨
    ((h.manager.store.admits now c).isOk = true ∧ faults.bind = false ∧ faults.note = false ∧
      save.on (noted now c h) = (.error e, h')) := by
  unfold applyManager at hrun
  rcases bind_error.mp hrun with hrefused | ⟨u, h0, hvalid, hrun1⟩
  · -- The configuration is not valid, which the later check finds again.
    obtain ⟨⟨message, hvalid, -⟩, rfl⟩ := ofExcept_error.mp hrefused
    refine Or.inl ⟨rfl, Or.inl ?_⟩
    rw [Ledger.admits, hvalid]
    rfl
  obtain ⟨-, rfl⟩ := ofExcept_ok.mp hvalid
  rcases bind_error.mp hrun1 with hread | ⟨h1, h2, hread, hrun2⟩
  · cases hread
  cases hread
  simp only [id_eq, hactive] at hrun2
  rcases bind_error.mp hrun2 with hrefused | ⟨u, h3, hchecked, hrun3⟩
  · obtain ⟨⟨failure, hadmits, -⟩, rfl⟩ := ofExcept_error.mp hrefused
    refine Or.inl ⟨rfl, Or.inl ?_⟩
    rw [hadmits]
    rfl
  obtain ⟨hadmits, rfl⟩ := ofExcept_ok.mp hchecked
  rcases stopIf_bind_error.mp hrun3 with ⟨hbind, -, rfl⟩ | ⟨hbind, hrun4⟩
  · exact Or.inl ⟨rfl, Or.inr (Or.inl hbind)⟩
  rcases stopIf_bind_error.mp hrun4 with ⟨hnote, -, rfl⟩ | ⟨hnote, hrun5⟩
  · exact Or.inl ⟨rfl, Or.inr (Or.inr hnote)⟩
  rcases bind_error.mp hrun5 with hrefused | ⟨u, h6, hnoted, hrun6⟩
  · cases hrefused
  cases hnoted
  rcases bind_error.mp hrun6 with hsave | ⟨u, h7, -, hrun7⟩
  · refine Or.inr ⟨?_, hbind, hnote, hsave⟩
    rw [hadmits]
    rfl
  · cases hrun7

/-- Where `Promote` can end with an error: before it touches the manager, or in `Manager.Apply`. -/
theorem promote_error {parse : String → Option Config} (hrun : (promote parse faults now).on h = (.error e, h')) :
    (h' = h ∧ (faults.readMirror = true ∨ h.mirror.getD "" = "" ∨ parse (h.mirror.getD "") = none)) ∨
    (∃ c e1 h1, faults.readMirror = false ∧ h.mirror.getD "" ≠ "" ∧ parse (h.mirror.getD "") = some c ∧
      (applyManager faults now c (saveExternallyManagedConfig faults (h.mirror.getD ""))).on
        { h with standby := false } = (.error e1, h1) ∧ h' = { h1 with standby := true }) := by
  unfold promote at hrun
  rcases stopIf_bind_error.mp hrun with ⟨hread, -, rfl⟩ | ⟨hread, hrun1⟩
  · exact Or.inl ⟨rfl, Or.inl hread⟩
  rcases bind_error.mp hrun1 with hstopped | ⟨mirror, h2, hmirror, hrun2⟩
  · cases hstopped
  cases hmirror
  rcases stopIf_bind_error.mp hrun2 with ⟨hempty, -, rfl⟩ | ⟨hnonempty, hrun3⟩
  · exact Or.inl ⟨rfl, Or.inr (Or.inl (of_decide_eq_true hempty))⟩
  cases hparse : parse (h.mirror.getD "") with
  | none =>
    rw [hparse] at hrun3
    cases hrun3
    exact Or.inl ⟨rfl, Or.inr (Or.inr rfl)⟩
  | some c =>
    rw [hparse] at hrun3
    simp only [on_bind, on_modify, on_tryCatch] at hrun3
    rcases happly : (applyManager faults now c (saveExternallyManagedConfig faults (h.mirror.getD ""))).on
      { h with standby := false } with ⟨r, h4⟩
    rw [happly] at hrun3
    cases r with
    | ok => cases hrun3
    | error e1 =>
      cases hrun3
      exact Or.inr ⟨c, e1, h4, hread, of_decide_eq_false hnonempty, rfl, happly, rfl⟩

/-! ### What is left -/

/-- The promotion left a standby: nothing is served, the record and the live file are what they were,
and a restart ends as it would have before. -/
structure StillStandby (parse : String → Option Config) (h h' : StandbyHost) : Prop where
  standby : h'.standby = true
  idle : h'.serves = false
  record : h'.domain = h.domain
  file : h'.file = h.file
  restart : ∀ now, restartsAsStandby parse now h' = restartsAsStandby parse now h

/-- The promotion comes to the two saves: what it reads can be read, the configuration is accepted
and every listener opens. -/
def comesToSaves (parse : String → Option Config) (faults : Faults) (now : Int) (h : StandbyHost) : Bool :=
  !faults.readMirror && h.mirror.getD "" ≠ "" &&
    (parse (h.mirror.getD "")).any fun c =>
      (h.manager.store.admits now c).isOk && !faults.bind && !faults.note && !faults.readRecord &&
        h.domain.pending.isNone

/-- If the promotion comes to the two saves, the first of them leaves the record alone; or the mirrored
configuration is the confirmed one already, and also that of the live file if it replaces that. -/
def Harmless (parse : String → Option Config) (faults : Faults) (now : Int) (h : StandbyHost) : Prop :=
  comesToSaves parse faults now h = true → faults.saveRecord = .lost ∨
    h.domain.confirmed = h.mirror ∧ (faults.saveRecord = .saved → faults.saveFile = .replaced → h.file = h.mirror)

/-- A restart looks at the record, at the live file if there is no record, and at the bindings. -/
theorem restartsAsStandby_congr (parse : String → Option Config) (hdomain : h'.domain = h.domain)
    (hbindings : h'.manager.store.bindings = h.manager.store.bindings) (now : Int) :
    restartsAsStandby parse now h' = restartsAsStandby parse now h := by
  unfold restartsAsStandby restartConfig
  rw [hdomain]
  simp only [admits_of_bindings_eq hbindings]

/-- What is left when neither save replaced its file. -/
theorem stillStandby_of_unsaved {parse : String → Option Config} (hstandby : h'.standby = true)
    (hconfig : h'.manager.config = h.manager.config) (hidle : h.serves = false) (hrecord : h'.record = h.record)
    (hfile : h'.file = h.file) (hbindings : h'.manager.store.bindings = h.manager.store.bindings) :
    StillStandby parse h h' := by
  have hdomain : h'.domain = h.domain := by rw [StandbyHost.domain, StandbyHost.domain, hrecord, hfile]
  refine ⟨hstandby, ?_, hdomain, hfile, restartsAsStandby_congr parse hdomain hbindings⟩
  rw [StandbyHost.serves, hconfig]
  exact hidle

/-- What is left when the record was replaced: as much as before, if the mirrored configuration was the
confirmed one, and that of the live file if that was replaced too. -/
theorem stillStandby_iff_of_saved {parse : String → Option Config} {raw : String} (hstandby : h'.standby = true)
    (hconfig : h'.manager.config = h.manager.config) (hidle : h.serves = false)
    (hrecord : h'.record = some { h.domain with confirmed := some raw })
    (hbindings : h'.manager.store.bindings = h.manager.store.bindings) :
    StillStandby parse h h' ↔ h.domain.confirmed = some raw ∧ h'.file = h.file := by
  have hdomain : h'.domain = { h.domain with confirmed := some raw } := by
    rw [StandbyHost.domain, hrecord, Option.getD_some]
  constructor
  · intro hstill
    refine ⟨?_, hstill.file⟩
    rw [← hstill.record, hdomain]
  · intro hsame
    have hrestored : h'.domain = h.domain := by rw [hdomain, ← hsame.1]
    refine ⟨hstandby, ?_, hrestored, hsame.2, restartsAsStandby_congr parse hrestored hbindings⟩
    rw [StandbyHost.serves, hconfig]
    exact hidle

/-- A failed promotion leaves a standby with its record and its file as they were, if and only if it
did not come to the saves, the first of them left the record alone, or the mirrored configuration was
there already. -/
theorem failed_promotion_iff {parse : String → Option Config} {faults : Faults} {now : Int} {h : StandbyHost}
    (hstandby : h.standby = true) (hidle : h.serves = false) {e : String} {h' : StandbyHost}
    (hfail : (promote parse faults now).on h = (.error e, h')) :
    StillStandby parse h h' ↔ Harmless parse faults now h := by
  rcases promote_error hfail with ⟨rfl, hwhy⟩ | ⟨c, e1, h1, hread, hne, hparse, happly, rfl⟩
  · refine iff_of_true (stillStandby_of_unsaved hstandby rfl hidle rfl rfl rfl) fun hsaves => ?_
    unfold comesToSaves at hsaves
    rcases hwhy with hwhy | hwhy | hwhy
    · simp [hwhy] at hsaves
    · simp [hwhy] at hsaves
    · simp [hwhy] at hsaves
  have hmirror : h.mirror = some (h.mirror.getD "") := by
    cases hm : h.mirror with
    | none => simp [hm] at hne
    | some => rfl
  rcases applyManager_error rfl happly with ⟨rfl, hwhy⟩ | ⟨hadmits, hbind, hnote, hsave⟩
  · refine iff_of_true (stillStandby_of_unsaved rfl rfl hidle rfl rfl rfl) fun hsaves => ?_
    unfold comesToSaves at hsaves
    rw [hparse] at hsaves
    rcases hwhy with hwhy | hwhy | hwhy
    · simp [hwhy] at hsaves
    · simp [hwhy] at hsaves
    · simp [hwhy] at hsaves
  rcases saveExternally_error hsave with ⟨rfl, hwhy⟩ | ⟨hrecord, hpending, hwritten⟩
  · have hbindings := bindings_noteDNSConfig h.manager.store now c
    refine iff_of_true (stillStandby_of_unsaved rfl rfl hidle rfl rfl hbindings) fun hsaves => ?_
    unfold comesToSaves at hsaves
    rw [hparse] at hsaves
    rcases hwhy with hwhy | hwhy | hwhy
    · simp [hwhy] at hsaves
    · have hpending : h.domain.pending.isSome = true := hwhy
      simp [Option.isNone_eq_false_iff.mpr hpending] at hsaves
    · exact Or.inl hwhy
  · have hbindings := bindings_noteDNSConfig h.manager.store now c
    have hnone : h.domain.pending = none := hpending
    have hsaves : comesToSaves parse faults now h = true := by
      unfold comesToSaves
      have hok : (h.manager.store.admits now c).isOk = true := hadmits
      simp [hparse, hread, hne, hok, hbind, hnote, hrecord, hnone]
    rcases hwritten with ⟨rfl, hresult⟩ | ⟨rfl, hsaved, hreplaced⟩
    · refine Iff.trans (stillStandby_iff_of_saved rfl rfl hidle rfl hbindings) ?_
      rw [← hmirror]
      constructor
      · intro hsame
        refine fun _ => Or.inr ⟨hsame.1, fun hsaved hreplaced => ?_⟩
        rcases hresult with hresult | ⟨-, hresult⟩
        · rw [hresult] at hsaved
          cases hsaved
        · rw [hresult] at hreplaced
          cases hreplaced
      · intro hharmless
        rcases hharmless hsaves with hlost | hsame
        · rcases hresult with hresult | ⟨hresult, -⟩
          · rw [hresult] at hlost
            cases hlost
          · rw [hresult] at hlost
            cases hlost
        · exact ⟨hsame.1, rfl⟩
    · refine Iff.trans (stillStandby_iff_of_saved rfl rfl hidle rfl hbindings) ?_
      rw [← hmirror]
      constructor
      · intro hsame
        exact fun _ => Or.inr ⟨hsame.1, fun _ _ => hsame.2.symm⟩
      · intro hharmless
        rcases hharmless hsaves with hlost | hsame
        · rw [hsaved] at hlost
          cases hlost
        · exact ⟨hsame.1, (hsame.2 hsaved hreplaced).symm⟩

/-- A standby whose confirmed configuration serves nothing, with the leader's mirrored. -/
def twoConfigs : String → Option Config
  | "leader" => some (smallLan 60)
  | "own" => some {}
  | _ => none

@[inherit_doc twoConfigs]
def mirrored : StandbyHost where
  mirror := some "leader"
  record := some { confirmed := some "own", pending := none }
  file := some "own"

/-- The save of the live file fails. The node is a standby, but its record is the leader's
configuration, and a restart as a standby is refused. -/
theorem record_ahead_of_promotion :
    mirrored.standby = true ∧ mirrored.serves = false ∧ restartsAsStandby twoConfigs 20 mirrored = true ∧
      ∃ e h', (promote twoConfigs { saveFile := .lost } 10).on mirrored = (.error e, h') ∧
        h'.domain.confirmed = some "leader" ∧ h'.file = some "own" ∧
        restartsAsStandby twoConfigs 20 h' = false := by
  refine ⟨rfl, rfl, by decide +kernel, "promotion failed, still a standby: state: write dhcp-config.json",
    ((promote twoConfigs { saveFile := .lost } 10).on mirrored).2, ?_, ?_⟩
  · refine Prod.ext ?_ rfl
    decide +kernel
  · decide +kernel

/-- The listener of the leader's scope cannot be opened, and everything is as it was. -/
theorem failed_promotion_unbound :
    ∃ e h', (promote twoConfigs { bind := true } 10).on mirrored = (.error e, h') ∧
      StillStandby twoConfigs mirrored h' := by
  rcases hrun : (promote twoConfigs { bind := true } 10).on mirrored with ⟨r, h'⟩
  have hfail : ((promote twoConfigs { bind := true } 10).on mirrored).1 =
      .error "promotion failed, still a standby: DHCP bind" := by
    decide +kernel
  rw [hrun] at hfail
  obtain rfl : r = _ := hfail
  refine ⟨_, h', rfl, (failed_promotion_iff rfl rfl hrun).mpr fun hsaves => ?_⟩
  have hstopped : comesToSaves twoConfigs { bind := true } 10 mirrored = false := by decide +kernel
  rw [hstopped] at hsaves
  cases hsaves

end Ghostd.Proofs.Replica
