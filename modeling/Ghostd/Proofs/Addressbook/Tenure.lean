import Ghostd.Proofs.Addressbook.Guards

/-!
# `Ghostd.Proofs.Addressbook.Tenure`: no lease is taken over before it ends

`Outcome` is what one operation can do to the bindings that are live when it runs. It leaves
them, or it writes them for the client that holds them, or it is one of the operations that
end bindings and ends that one. `outcome_apply` proves it of every operation.

`tenure` is the result for runs. A client can lose its binding before the end it was given
only by releasing or declining it, by a rollback that abandons the delegation, or because its
own later offer, grant, import or sighting set an earlier end. The last case does happen:
`tenure_shortened` is a run in which a renewal under a shorter lease time lets another client
in. A quarantine stays as it is until its end, whoever asks.
-/

set_option autoImplicit false

namespace Ghostd.Proofs.Addressbook

open Ghostd.Lib Ghostd.Addressbook List

variable {L L' : Ledger} {now t : Int} {op : Operation} {steps : List Step}

/-! ### One operation -/

/-- The operation writes the key for the client: an offer, a grant or a renewal of its own, or
an import that names the address, or a report. -/
def Serves (k who : String) : Operation → Prop
  | .allocate _ _ client _ _ _ _ => who = client
  | .allocatePrefix _ client _ _ _ _ => who = client
  | .importDocument _ doc => ∃ l ∈ doc.leases, bindingKey l.scope l.address = k
  | .report _ _ => True
  | _ => False

/-- The operation ends the binding at the key: its own client releases or declines it, or a
rollback abandons it with the other delegations of its scope. -/
def Ends (k : String) (b : Binding) : Operation → Prop
  | .release scope client ip _ => client = b.client ∧ bindingKey scope ip = k
  | .releasePrefix s client => client = b.client ∧ b.scope = s.id ∧ b.origin = .dhcpv6PD
  | .abandonDelegations target =>
    b.origin = .dhcpv6PD ∧ ∃ s ∈ target.scopes, s.id = b.scope ∧ s.pd.isSome = true
  | _ => False

/-- What an operation does to the bindings that are live when it runs. -/
def Outcome (now : Int) (op : Operation) (L L' : Ledger) : Prop :=
  ∀ k b, L.bindings.get k = some b → b.live now = true →
    ∃ b', L'.bindings.get k = some b' ∧
      (b' = b ∨ b.held now = true ∧
        ((b'.held now = true ∧ b'.client = b.client ∧ (b'.endsAt = b.endsAt ∨ Serves k b.client op)) ∨
          (Ends k b op ∧ heldState b'.state = false)))

theorem outcome_of_kept {serves : String → String → Prop} (h : Kept now serves L L')
    (hserves : ∀ k who, serves k who → Serves k who op) : Outcome now op L L' := by
  intro k b hb hlive
  obtain ⟨b', hb', hkept⟩ := h k b hb hlive
  refine ⟨b', hb', ?_⟩
  rcases hkept with h | ⟨hheld, hheld', hclient, hends⟩
  · exact Or.inl h
  · refine Or.inr ⟨hheld, Or.inl ⟨hheld', hclient, ?_⟩⟩
    rcases hends with h | h
    · exact Or.inl h
    · exact Or.inr (hserves k b.client h)

theorem outcome_of_bindings_eq (h : L'.bindings = L.bindings) : Outcome now op L L' := by
  intro k b hb _
  exact ⟨b, by rw [h]; exact hb, Or.inl rfl⟩

theorem release_outcome (hL : Tidy L) {scope client ip : String} {decline : Bool}
    (hop : (Operation.release scope client ip decline).Admissible)
    (h : L.release now scope client ip decline = .ok L') :
    Tidy L' ∧ Outcome now (.release scope client ip decline) L L' := by
  obtain ⟨⟨s, hs, rfl⟩, hplain⟩ := hop
  have hslash := AcceptedScope.slash_not_mem hs
  obtain ⟨b1, kind, hwrite, rfl⟩ := release_eq h
  have hfits1 := release_fits hL hslash hplain hwrite
  obtain ⟨b0, hget, hclient, hheld, hb1⟩ := hwrite
  have hkeyed := hL.sound.keyed hget
  have hkey : b1.key = bindingKey s.id ip := by
    rcases hb1 with rfl | rfl <;> exact hkeyed
  have hended : heldState b1.state = false := by
    rcases hb1 with rfl | rfl <;> rfl
  refine ⟨hL.save hfits1 now kind, ?_⟩
  intro k b hb hlive
  rw [get_save, hkey]
  by_cases hk : k = bindingKey s.id ip
  · rw [if_pos hk]
    rw [hk, hget, Option.some.injEq] at hb
    subst hb
    exact ⟨b1, rfl, Or.inr ⟨hheld, Or.inr ⟨⟨hclient.symm, hk.symm⟩, hended⟩⟩⟩
  · rw [if_neg hk]
    exact ⟨b, hb, Or.inl rfl⟩

/-- Ending bindings that are stored and held ends those and no others. -/
theorem endBindings_outcome (hL : Tidy L) {bs : List Binding} {ended : Binding → Binding}
    (hkey : ∀ b, (ended b).key = b.key) (hstate : ∀ b, (ended b).state = .released)
    (hkeep : ∀ b, (ended b).scope = b.scope ∧ (ended b).address = b.address ∧ (ended b).origin = b.origin)
    (hbs : ∀ b ∈ bs, L.bindings.get b.key = some b ∧ b.held now = true ∧ Ends b.key b op) :
    Tidy (L.endBindings now bs ended) ∧ Outcome now op L (L.endBindings now bs ended) := by
  refine ⟨endBindings_tidy hL now ?_, ?_⟩
  · intro b hb
    obtain ⟨hscope, haddress, horigin⟩ := hkeep b
    exact (hL.fits (hbs b hb).1).released hscope haddress horigin (hstate b)
  · intro k b hb hlive
    rcases endBindings_get L now bs ended hkey k with h | ⟨b0, hb0, hk, h⟩
    · exact ⟨b, by rw [h, hb], Or.inl rfl⟩
    · obtain ⟨hget, hheld, hends⟩ := hbs b0 hb0
      rw [hk, hb, Option.some.injEq] at hget
      subst hget
      subst hk
      exact ⟨_, h, Or.inr ⟨hheld, Or.inr ⟨hends, by rw [hstate]; rfl⟩⟩⟩

theorem releasePrefix_outcome (hL : Tidy L) {s : Scope} {client : String}
    (h : L.releasePrefix now s client = .ok L') : Tidy L' ∧ Outcome now (.releasePrefix s client) L L' := by
  simp only [Ledger.releasePrefix, bind_eq_ok, refuseIf_eq_ok, exists_const, pure_eq_ok] at h
  rw [← h.2]
  refine endBindings_outcome hL (fun _ => rfl) (fun _ => rfl) (fun _ => ⟨rfl, rfl, rfl⟩) ?_
  intro b hb
  obtain ⟨hmem, hdelegation⟩ := mem_filter.mp hb
  obtain ⟨hstored, -, hclient, hscope⟩ := mem_liveByClient hL.sound hmem
  obtain ⟨horigin, hheld⟩ := Bool.and_eq_true_iff.mp hdelegation
  exact ⟨hstored, hheld, hclient.symm, hscope, by simpa using horigin⟩

theorem abandonDelegations_outcome (hL : Tidy L) (now : Int) (target : Config) :
    Tidy (L.abandonDelegations now target).2 ∧
      Outcome now (.abandonDelegations target) L (L.abandonDelegations now target).2 := by
  unfold Ledger.abandonDelegations
  refine endBindings_outcome hL (fun _ => rfl) (fun _ => rfl) (fun _ => ⟨rfl, rfl, rfl⟩) ?_
  intro b hb
  obtain ⟨hmem, hlive⟩ := mem_filter.mp hb
  obtain ⟨⟨k, b'⟩, hentry, rfl⟩ := mem_map.mp hmem
  have hget := Bucket.mem_entries.mp hentry
  have hkey := hL.sound.keyed hget
  obtain ⟨hdelegation, hpool⟩ := Bool.and_eq_true_iff.mp hlive
  obtain ⟨horigin, hheld⟩ := Bool.and_eq_true_iff.mp hdelegation
  have hpool := mem_map.mp (of_decide_eq_true hpool)
  obtain ⟨s, hs, hid⟩ := hpool
  obtain ⟨hs, hpd⟩ := mem_filter.mp hs
  exact ⟨by rw [hkey]; exact hget, hheld, by simpa using horigin, s, hs, hid, hpd⟩

/-- What every operation preserves and what it does to the live bindings. -/
theorem outcome_apply (hL : Tidy L) (now : Int) (hop : op.Admissible) :
    Tidy (op.apply now L) ∧ Outcome now op L (op.apply now L) := by
  have hsame : ∀ op : Operation, Tidy L ∧ Outcome now op L L := fun _ =>
    ⟨hL, outcome_of_bindings_eq rfl⟩
  have hnotes : ∀ {op : Operation}, op.Admissible →
      op.apply now L = (stepSightings ⟨now, op⟩).foldl (noteSighting now) L →
      Tidy (op.apply now L) ∧ Outcome now op L (op.apply now L) := by
    intro op hop heq
    rw [heq]
    exact ⟨notes_tidy hop hL, outcome_of_bindings_eq (notes_rest now L _).1⟩
  rcases apply_effect L now op with heq | ⟨-, hsaves⟩
  · exact hnotes hop heq
  cases op with
  | observe c os => exact hnotes hop (apply_observe L now c os)
  | observeSwitch c os ttl => exact hnotes hop (apply_observeSwitch L now c os ttl)
  | allocate =>
    obtain ⟨htidy, hkept⟩ := hsaves.kept (fun _ _ _ hP _ => allocate_guard hop (hP hL.sound)) hL
    exact ⟨htidy, outcome_of_kept hkept fun _ _ h => h⟩
  | release =>
    exact settle_cases (Q := fun L' => Tidy L' ∧ Outcome now _ L L') (hsame _)
      fun L' h => release_outcome hL hop h
  | expire =>
    obtain ⟨htidy, hkept⟩ := (expire_saves L now).kept (fun _ _ _ hP hL => expire_guard hL hP) hL
    exact ⟨htidy, outcome_of_kept hkept fun _ _ h => h⟩
  | allocatePrefix s client duidHex hint via commit =>
    obtain ⟨htidy, hkept⟩ := hsaves.kept (fun L1 b kind
      (hP : _ → DelegateWrite now s client duidHex hint via commit L1 b kind) h1 =>
        delegate_guard hop h1 (hP hL.sound)) hL
    exact ⟨htidy, outcome_of_kept hkept fun _ _ h => h⟩
  | releasePrefix =>
    exact settle_cases (Q := fun L' => Tidy L' ∧ Outcome now _ L L') (hsame _)
      fun L' h => releasePrefix_outcome hL h
  | importDocument c doc =>
    obtain ⟨htidy, hkept⟩ := hsaves.kept (fun L1 b kind (hP : _ → ImportWrite now c doc L1 b kind) _ =>
      import_guard hop.1 hop.2 (hP hL.sound)) hL
    exact ⟨htidy, outcome_of_kept hkept fun _ _ h => h⟩
  | report c node =>
    rcases report_saves L now c node with ⟨found, device, name, hfound, -, hsaves⟩ | haside
    · obtain ⟨htidy, hkept⟩ := report_kept hL (reportMatches_matched hL hfound) hsaves
      exact ⟨htidy, outcome_of_kept hkept fun _ _ _ => trivial⟩
    · exact ⟨hL.aside haside, outcome_of_bindings_eq haside.bindings⟩
  | repair =>
    obtain ⟨htidy, hkept⟩ := hsaves.kept (fun L1 b kind (hP : _ → RepairWrite now L1 b kind) h1 =>
      repair_guard h1 (hP hL.sound)) hL
    exact ⟨htidy, outcome_of_kept hkept fun _ _ h => h.elim⟩
  | abandonDelegations target => exact abandonDelegations_outcome hL now target

/-! ### Runs -/

theorem run_append (L : Ledger) (xs ys : List Step) : run L (xs ++ ys) = run (run L xs) ys := by
  unfold run
  rw [foldl_append]

/-- The invariant holds after every run. -/
theorem tidy_run (hL : Tidy L) (h : Scheduled t steps) : Tidy (run L steps) := by
  induction steps generalizing L t with
  | nil => exact hL
  | cons s rest ih => exact ih (outcome_apply hL s.time h.2.1).1 h.2.2

theorem scheduled_append {xs ys : List Step} (h : Scheduled t (xs ++ ys)) :
    Scheduled t xs ∧ ∃ t', Scheduled t' ys := by
  induction xs generalizing t with
  | nil => exact ⟨trivial, t, h⟩
  | cons s rest ih =>
    obtain ⟨hle, hadm, hrest⟩ := h
    obtain ⟨hxs, hys⟩ := ih hrest
    exact ⟨⟨hle, hadm, hxs⟩, hys⟩

/-- The step, taken in `L`, ends the tenure of `c` at `k` that was to last until `T`: it ends
the binding of `c`, or it leaves `c` holding it with an earlier end. -/
def Relinquished (k c : String) (T : Int) (L : Ledger) (s : Step) : Prop :=
  ∃ b b', L.bindings.get k = some b ∧ b.client = c ∧
    (s.op.apply s.time L).bindings.get k = some b' ∧
      ((Ends k b s.op ∧ heldState b'.state = false) ∨
        (Serves k c s.op ∧ b'.client = c ∧ b'.held s.time = true ∧ b'.endsAt < T))

/-- The binding at `k` is held by `c`, until `T` at least. -/
def HeldUntil (k c : String) (T : Int) (L : Ledger) : Prop :=
  ∃ b, L.bindings.get k = some b ∧ b.client = c ∧ heldState b.state = true ∧ T ≤ b.endsAt

/-- One step before the end keeps the binding with its client or relinquishes it. -/
theorem heldUntil_step (hL : Tidy L) {k c : String} {T : Int} (h : HeldUntil k c T L) {s : Step}
    (hs : s.op.Admissible) (hT : s.time < T) :
    HeldUntil k c T (s.op.apply s.time L) ∨ Relinquished k c T L s := by
  obtain ⟨b, hget, hclient, hstate, hends⟩ := h
  have hheld : b.held s.time = true := by
    simp only [Binding.held, hstate, Bool.and_true, decide_eq_true_eq]
    omega
  obtain ⟨b', hget', hcase⟩ := (outcome_apply hL s.time hs).2 k b hget (live_of_held hheld)
  rcases hcase with rfl | ⟨-, ⟨hheld', hclient', hends'⟩ | ⟨hend, hstate'⟩⟩
  · exact Or.inl ⟨b', hget', hclient, hstate, hends⟩
  · have hclient'' : b'.client = c := by rw [hclient', hclient]
    by_cases hearly : b'.endsAt < T
    · refine Or.inr ⟨b, b', hget, hclient, hget', Or.inr ⟨?_, hclient'', hheld', hearly⟩⟩
      rcases hends' with h | h
      · omega
      · rwa [hclient] at h
    · exact Or.inl ⟨b', hget', hclient'', (Bool.and_eq_true_iff.mp hheld').2, by omega⟩
  · exact Or.inr ⟨b, b', hget, hclient, hget', Or.inl ⟨hend, hstate'⟩⟩

/-- The same over a run: the first step that relinquishes the binding, if there is one, is
found in it. -/
theorem heldUntil_run (hL : Tidy L) {k c : String} {T : Int} (h : HeldUntil k c T L)
    (hsteps : Scheduled t steps) (hT : ∀ s ∈ steps, s.time < T) : HeldUntil k c T (run L steps) ∨
      ∃ xs s ys, steps = xs ++ s :: ys ∧ Relinquished k c T (run L xs) s := by
  induction steps generalizing L t with
  | nil => exact Or.inl h
  | cons s rest ih =>
    rcases heldUntil_step hL h hsteps.2.1 (hT s (by simp)) with hkept | hgone
    · rcases ih (outcome_apply hL s.time hsteps.2.1).1 hkept hsteps.2.2
        (fun x hx => hT x (by simp [hx])) with hkept' | ⟨xs, x, ys, hsplit, hgone⟩
      · exact Or.inl hkept'
      · exact Or.inr ⟨s :: xs, x, ys, by rw [hsplit, cons_append], hgone⟩
    · exact Or.inr ⟨[], s, rest, rfl, hgone⟩

/-- A quarantine is unchanged by every step before its end. -/
theorem declined_run (hL : Tidy L) {k : String} {b : Binding} (hget : L.bindings.get k = some b)
    (hstate : b.state = .declined) (hsteps : Scheduled t steps) (hT : ∀ s ∈ steps, s.time < b.endsAt) :
    (run L steps).bindings.get k = some b := by
  induction steps generalizing L t with
  | nil => exact hget
  | cons s rest ih =>
    have hlive : b.live s.time = true := by
      simp only [Binding.live, hstate, liveState, Bool.and_true, decide_eq_true_eq]
      exact hT s (by simp)
    obtain ⟨htidy, houtcome⟩ := outcome_apply hL s.time hsteps.2.1
    obtain ⟨b', hget', hcase⟩ := houtcome k b hget hlive
    rcases hcase with rfl | ⟨hheld, -⟩
    · exact ih htidy hget' hsteps.2.2 fun x hx => hT x (by simp [hx])
    · simp [Binding.held, hstate, heldState] at hheld

/-- No lease is taken over before it ends. Take any run from the empty ledger, any moment in
it and any key, and let every later step of the run come before `T`. If at that moment a
client holds the key with end `T`, the key is the client's to the end of the run, unless a
step relinquished it. If the key is in quarantine with end `T`, it stays so. -/
theorem tenure {t T : Int} {earlier later : List Step} (hrun : Scheduled t (earlier ++ later))
    (hT : ∀ s ∈ later, s.time < T) {k : String} {b : Binding}
    (hget : (run {} earlier).bindings.get k = some b) (hends : b.endsAt = T) :
    (heldState b.state = true →
      (∃ b', (run {} (earlier ++ later)).bindings.get k = some b' ∧ b'.client = b.client) ∨
        ∃ xs s ys, later = xs ++ s :: ys ∧
          Relinquished k b.client T (run {} (earlier ++ xs)) s) ∧
    (b.state = .declined → (run {} (earlier ++ later)).bindings.get k = some b) := by
  obtain ⟨hearlier, t', hlater⟩ := scheduled_append hrun
  have hL : Tidy (run {} earlier) := tidy_run tidy_empty hearlier
  refine ⟨?_, ?_⟩
  · intro hstate
    have hheld : HeldUntil k b.client T (run {} earlier) := ⟨b, hget, rfl, hstate, by omega⟩
    rcases heldUntil_run hL hheld hlater hT with ⟨b', hb', hclient, -⟩ | ⟨xs, s, ys, hsplit, hgone⟩
    · exact Or.inl ⟨b', by rw [run_append]; exact hb', hclient⟩
    · exact Or.inr ⟨xs, s, ys, hsplit, by rw [run_append]; exact hgone⟩
  · intro hstate
    rw [run_append]
    exact declined_run hL hget hstate hlater (by rw [hends]; exact hT)

/-! ### A shortened lease -/

/-- A network with a pool of two addresses and the given lease time. -/
def smallLan (leaseSeconds : Int) : Config where
  scopes :=
    [{ id := "lan", interface := "eth0", subnet := "10.0.0.0/24", server := "10.0.0.1",
       start := "10.0.0.5", endAddr := "10.0.0.6", router := "10.0.0.1", zone := "lan.home",
       leaseSeconds := leaseSeconds, enabled := true }]

/-- A client with the given last byte of its hardware address requests 10.0.0.5. -/
def requestFive (time leaseSeconds : Int) (last : String) : Step where
  time := time
  op := .allocate (smallLan leaseSeconds) "lan" ("mac:02:00:00:00:00:" ++ last)
    ("02:00:00:00:00:" ++ last) "" "10.0.0.5" true

/-- At the start a client is granted 10.0.0.5 for two hours. Ten seconds later it renews under
a lease time of one minute, and after a hundred seconds another client is granted the address,
although nobody has released it and the two hours are not over. -/
theorem tenure_shortened :
    Scheduled 0 [requestFive 0 7200 "01", requestFive 10 60 "01", requestFive 100 60 "02"] ∧
    ((run {} [requestFive 0 7200 "01"]).bindings.get "lan/10.0.0.5").map
        (fun b => (b.client, b.state, b.endsAt)) = some ("mac:02:00:00:00:00:01", .active, 7200) ∧
    (∀ k b, ¬ Ends k b (requestFive 10 60 "01").op ∧ ¬ Ends k b (requestFive 100 60 "02").op) ∧
    ((run {} [requestFive 0 7200 "01", requestFive 10 60 "01",
          requestFive 100 60 "02"]).bindings.get "lan/10.0.0.5").map
        (fun b => (b.client, b.state, b.endsAt)) = some ("mac:02:00:00:00:00:02", .active, 160) := by
  refine ⟨⟨by decide, ?_, by decide, ?_, by decide, ?_, trivial⟩, by decide +kernel,
    fun _ _ => ⟨id, id⟩, by decide +kernel⟩
  · show (smallLan 7200).validate = .ok ()
    decide +kernel
  · show (smallLan 60).validate = .ok ()
    decide +kernel
  · show (smallLan 60).validate = .ok ()
    decide +kernel

/-- Without the renewal the second client is refused and the first one keeps the address. -/
theorem tenure_smallLan :
    ∃ b, (run {} [requestFive 0 7200 "01"]).bindings.get "lan/10.0.0.5" = some b ∧
      b.endsAt = 7200 ∧ heldState b.state = true ∧
      ((∃ b', (run {} ([requestFive 0 7200 "01"] ++ [requestFive 100 60 "02"])).bindings.get
            "lan/10.0.0.5" = some b' ∧ b'.client = b.client) ∨
        ∃ xs s ys, [requestFive 100 60 "02"] = xs ++ s :: ys ∧
          Relinquished "lan/10.0.0.5" b.client 7200
            (run {} ([requestFive 0 7200 "01"] ++ xs)) s) := by
  have hsome : ∃ b, (run {} [requestFive 0 7200 "01"]).bindings.get "lan/10.0.0.5" = some b :=
    Option.isSome_iff_exists.mp (by decide +kernel)
  obtain ⟨b, hb⟩ := hsome
  have hfields : ((run {} [requestFive 0 7200 "01"]).bindings.get "lan/10.0.0.5").map
      (fun b => (b.endsAt, heldState b.state)) = some (7200, true) := by decide +kernel
  rw [hb] at hfields
  obtain ⟨hends, hheld⟩ := Prod.mk.inj (Option.some.inj hfields)
  have hfirst : (smallLan 7200).validate = .ok () := by decide +kernel
  have hsecond : (smallLan 60).validate = .ok () := by decide +kernel
  have hrun : Scheduled 0 ([requestFive 0 7200 "01"] ++ [requestFive 100 60 "02"]) :=
    ⟨by decide, hfirst, by decide, hsecond, trivial⟩
  exact ⟨b, hb, hends, hheld, (tenure hrun (by simp [requestFive]) hb hends).1 hheld⟩

end Ghostd.Proofs.Addressbook
