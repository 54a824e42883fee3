import Mathlib.Data.List.Basic
import Mathlib.Logic.Relation

/-!
# `Ghostd.Lib.Fault`: programs that fail or crash between two effects

A `Prog σ ε α` maps a state to the list of all the ways it can end: each entry is an
outcome and the state it leaves behind. The effects of the outside world are
nondeterministic. `attempt f e` is a write that can succeed, report an error with or
without having happened, or be cut by a crash on either side. A crash ends the program
where it stands, and no handler sees it.

The proof rules are a small Hoare logic with one postcondition for a normal return and
one for every other end. `Triple P m Q E` says: from a state in `P`, a normal return
lands in `Q`, and an error or a crash lands in `E`. Since a crash can come between any
two effects, `E` has to hold at every one of these points. `Keeps` is the special case
of an invariant.
-/

set_option autoImplicit false

namespace Ghostd.Lib

open List

/-- How a program ends: it returns, it reports an error, or the process dies. -/
inductive Outcome (ε α : Type) where
  | ok (a : α)
  | error (e : ε)
  | crash
  deriving DecidableEq, Repr

/-- Every way a program can end from a given state, with the state it leaves. -/
def Prog (σ ε α : Type) : Type := σ → List (Outcome ε α × σ)

namespace Prog

variable {σ ε ε' α β : Type}

/-- Continue after a normal return. An error and a crash end the program. -/
def andThen (m : Prog σ ε α) (f : α → Prog σ ε β) : Prog σ ε β := fun s =>
  (m s).flatMap fun r =>
    match r with
    | (.ok a, s') => f a s'
    | (.error e, s') => [(.error e, s')]
    | (.crash, s') => [(.crash, s')]

instance : Monad (Prog σ ε) where
  pure a := fun s => [(.ok a, s)]
  bind := andThen

/-- Stop with an error. -/
def fail (e : ε) : Prog σ ε α := fun s => [(.error e, s)]

/-- The current state. -/
def get : Prog σ ε σ := fun s => [(.ok s, s)]

/-- A change of the process's own memory: it cannot fail. -/
def update (f : σ → σ) : Prog σ ε Unit := fun s => [(.ok (), f s)]

/-- A write to the outside world. It succeeds, or reports the error `e` having happened or
not, or the process dies before or after it. -/
def attempt (f : σ → σ) (e : ε) : Prog σ ε Unit := fun s =>
  [(.ok (), f s), (.error e, s), (.error e, f s), (.crash, s), (.crash, f s)]

/-- A step without effect that can be refused with `e`, such as a read or a check. -/
def fallible (e : ε) : Prog σ ε Unit := fun s => [(.ok (), s), (.error e, s), (.crash, s)]

/-- Go on only when `b` holds. -/
def require (b : Bool) (e : ε) : Prog σ ε Unit := if b then pure () else fail e

/-- A pure computation that can fail. -/
def lift : Except ε α → Prog σ ε α
  | .ok a => pure a
  | .error e => fail e

/-- Run `h` after an error. A crash is not an error. -/
def handle (m : Prog σ ε α) (h : ε → Prog σ ε' α) : Prog σ ε' α := fun s =>
  (m s).flatMap fun r =>
    match r with
    | (.ok a, s') => [(.ok a, s')]
    | (.error e, s') => h e s'
    | (.crash, s') => [(.crash, s')]

/-- Go on after an error as if there had been none. -/
def ignore (m : Prog σ ε Unit) : Prog σ ε Unit := handle m fun _ => pure ()

/-- Run a program on a part of the state, given how to read and replace that part. -/
def zoom {τ : Type} (read : σ → τ) (write : τ → σ → σ) (m : Prog τ ε α) : Prog σ ε α := fun s =>
  (m (read s)).map fun r => (r.1, write r.2 s)

/-! ### Programs on a part of the state -/

section Zoom

variable {τ : Type} {read : σ → τ} {write : τ → σ → σ}

theorem zoom_bind (hread : ∀ t s, read (write t s) = t)
    (hwrite : ∀ t t' s, write t' (write t s) = write t' s) (m : Prog τ ε α) (f : α → Prog τ ε β) :
    zoom read write (m >>= f) = zoom read write m >>= fun a => zoom read write (f a) := by
  funext s
  show ((m (read s)).flatMap _).map _ = ((m (read s)).map _).flatMap _
  rw [map_flatMap, flatMap_map]
  congr 1
  funext r
  obtain ⟨o, t⟩ := r
  cases o with
  | ok a =>
    show (f a t).map _ = (f a (read (write t s))).map _
    rw [hread]
    congr 1
    funext r
    rw [hwrite]
  | error => rfl
  | crash => rfl

theorem zoom_pure (hsame : ∀ s, write (read s) s = s) (a : α) :
    zoom read write (pure a : Prog τ ε α) = pure a := by
  funext s
  show [(Outcome.ok a, write (read s) s)] = [(Outcome.ok a, s)]
  rw [hsame]

end Zoom

/-- The `i`-th way a program can end. Every effect lists its success first, so `0` is the
end in which nothing fails. -/
def path (m : Prog σ ε α) (i : Nat) (s : σ) : Outcome ε α × σ := (m s).getD i (.crash, s)

/-! ### Membership -/

theorem path_mem {m : Prog σ ε α} {i : Nat} {s : σ} (hi : ((m s)[i]?).isSome = true) :
    path m i s ∈ m s := by
  obtain ⟨r, hr⟩ := Option.isSome_iff_exists.mp hi
  have hpath : path m i s = r := by
    unfold path
    rw [getD_eq_getElem?_getD, hr, Option.getD_some]
  rw [hpath]
  exact mem_of_getElem? hr

theorem mem_bind {m : Prog σ ε α} {f : α → Prog σ ε β} {s : σ} {r : Outcome ε β × σ} :
    r ∈ (m >>= f) s ↔
      (∃ a s', (Outcome.ok a, s') ∈ m s ∧ r ∈ f a s') ∨
      (∃ e s', (Outcome.error e, s') ∈ m s ∧ r = (.error e, s')) ∨
      (∃ s', (Outcome.crash, s') ∈ m s ∧ r = (.crash, s')) := by
  show r ∈ (m s).flatMap _ ↔ _
  rw [mem_flatMap]
  constructor
  · rintro ⟨⟨o, s'⟩, hm, hr⟩
    cases o with
    | ok a => exact Or.inl ⟨a, s', hm, hr⟩
    | error e => exact Or.inr (Or.inl ⟨e, s', hm, by simpa using hr⟩)
    | crash => exact Or.inr (Or.inr ⟨s', hm, by simpa using hr⟩)
  · rintro (⟨a, s', hm, hr⟩ | ⟨e, s', hm, rfl⟩ | ⟨s', hm, rfl⟩)
    · exact ⟨_, hm, hr⟩
    · exact ⟨_, hm, by simp⟩
    · exact ⟨_, hm, by simp⟩

theorem mem_handle {m : Prog σ ε α} {h : ε → Prog σ ε' α} {s : σ} {r : Outcome ε' α × σ} :
    r ∈ handle m h s ↔
      (∃ a s', (Outcome.ok a, s') ∈ m s ∧ r = (.ok a, s')) ∨
      (∃ e s', (Outcome.error e, s') ∈ m s ∧ r ∈ h e s') ∨
      (∃ s', (Outcome.crash, s') ∈ m s ∧ r = (.crash, s')) := by
  unfold handle
  rw [mem_flatMap]
  constructor
  · rintro ⟨⟨o, s'⟩, hm, hr⟩
    cases o with
    | ok a => exact Or.inl ⟨a, s', hm, by simpa using hr⟩
    | error e => exact Or.inr (Or.inl ⟨e, s', hm, hr⟩)
    | crash => exact Or.inr (Or.inr ⟨s', hm, by simpa using hr⟩)
  · rintro (⟨a, s', hm, rfl⟩ | ⟨e, s', hm, hr⟩ | ⟨s', hm, rfl⟩)
    · exact ⟨_, hm, by simp⟩
    · exact ⟨_, hm, hr⟩
    · exact ⟨_, hm, by simp⟩

/-! ### Normal returns -/

theorem mem_bind_ok {m : Prog σ ε α} {f : α → Prog σ ε β} {b : β} {s s' : σ} :
    (.ok b, s') ∈ (m >>= f) s ↔ ∃ a s1, (Outcome.ok a, s1) ∈ m s ∧ (.ok b, s') ∈ f a s1 := by
  simp [mem_bind]

/-- An error is that of the first program, or of the second after a normal return of the first. -/
theorem mem_bind_error {m : Prog σ ε α} {f : α → Prog σ ε β} {e : ε} {s s' : σ} :
    (.error e, s') ∈ (m >>= f) s ↔
      (∃ a s1, (Outcome.ok a, s1) ∈ m s ∧ (.error e, s') ∈ f a s1) ∨ (.error e, s') ∈ m s := by
  simp [mem_bind]

theorem mem_lift_ok {x : Except ε α} {a : α} {s s' : σ} :
    (.ok a, s') ∈ lift x s ↔ x = .ok a ∧ s' = s := by
  cases x with
  | ok => simp [lift, Pure.pure, eq_comm]
  | error => simp [lift, fail]

theorem mem_pure_ok {a b : α} {s s' : σ} :
    (.ok b, s') ∈ (pure a : Prog σ ε α) s ↔ a = b ∧ s' = s := by
  simp [Pure.pure, @eq_comm _ b]

theorem mem_get_ok {s0 s s' : σ} : (.ok s0, s') ∈ (get : Prog σ ε σ) s ↔ s0 = s ∧ s' = s := by
  simp [get]

theorem mem_fallible_ok {e : ε} {u : Unit} {s s' : σ} : (.ok u, s') ∈ fallible e s ↔ s' = s := by
  simp [fallible]

/-- The normal returns of a loop, from those of its body. -/
theorem mem_forM_ok {body : β → Prog σ ε PUnit} {f : σ → β → Option σ}
    (hbody : ∀ x s s', (.ok (), s') ∈ body x s ↔ f s x = some s') {xs : List β} {s s' : σ} :
    (.ok (), s') ∈ xs.forM body s ↔ xs.foldlM f s = some s' := by
  induction xs generalizing s with
  | nil => simp [Pure.pure, eq_comm]
  | cons x xs ih =>
    rw [foldlM_cons, Option.bind_eq_bind, Option.bind_eq_some_iff]
    refine mem_bind_ok.trans ?_
    simp only [← hbody, ← ih]
    exact ⟨fun ⟨_, s1, hx, hxs⟩ => ⟨s1, hx, hxs⟩, fun ⟨s1, hx, hxs⟩ => ⟨(), s1, hx, hxs⟩⟩

end Prog

/-! ### Triples -/

section Triple

variable {σ ε ε' α β : Type}

/-- From a state in `P`, a normal return of `m` lands in `Q`, and every other end of it
lands in `E`. -/
def Triple (P : σ → Prop) (m : Prog σ ε α) (Q : α → σ → Prop) (E : σ → Prop) : Prop :=
  ∀ s, P s → ∀ r ∈ m s,
    match r with
    | (.ok a, s') => Q a s'
    | (.error _, s') => E s'
    | (.crash, s') => E s'

/-- As `Triple`, with what is known after each error kept apart from what is known after a
crash. -/
def Spec (P : σ → Prop) (m : Prog σ ε α) (Q : α → σ → Prop) (X : ε → σ → Prop) (C : σ → Prop) :
    Prop :=
  ∀ s, P s → ∀ r ∈ m s,
    match r with
    | (.ok a, s') => Q a s'
    | (.error e, s') => X e s'
    | (.crash, s') => C s'

/-- `m` keeps the invariant `I` however it ends. -/
def Keeps (I : σ → Prop) (m : Prog σ ε α) : Prop := Triple I m (fun _ => I) I

namespace Triple

variable {P P' E E' : σ → Prop} {Q Q' : α → σ → Prop} {R : β → σ → Prop}

/-- The rule of consequence. -/
theorem weaken {m : Prog σ ε α} (h : Triple P' m Q' E') (hP : ∀ s, P s → P' s)
    (hQ : ∀ a s, Q' a s → Q a s) (hE : ∀ s, E' s → E s) : Triple P m Q E := by
  intro s hs r hr
  have hpost := h s (hP s hs) r hr
  obtain ⟨o, s'⟩ := r
  cases o with
  | ok a => exact hQ a s' hpost
  | error => exact hE s' hpost
  | crash => exact hE s' hpost

theorem pre {m : Prog σ ε α} (h : Triple P' m Q E) (hP : ∀ s, P s → P' s) : Triple P m Q E :=
  h.weaken hP (fun _ _ hQ => hQ) fun _ hE => hE

theorem post {m : Prog σ ε α} (h : Triple P m Q' E) (hQ : ∀ a s, Q' a s → Q a s) : Triple P m Q E :=
  h.weaken (fun _ hP => hP) hQ fun _ hE => hE

theorem exit {m : Prog σ ε α} (h : Triple P m Q E') (hE : ∀ s, E' s → E s) : Triple P m Q E :=
  h.weaken (fun _ hP => hP) (fun _ _ hQ => hQ) hE

theorem pure {a : α} (h : ∀ s, P s → Q a s) : Triple (ε := ε) P (Pure.pure a) Q E := by
  intro s hs r hr
  obtain rfl : r = (.ok a, s) := mem_singleton.mp hr
  exact h s hs

/-- Sequencing, through the assertion `R` between the two programs. -/
theorem bind {m : Prog σ ε β} {f : β → Prog σ ε α} (hm : Triple P m R E)
    (hf : ∀ b, Triple (R b) (f b) Q E) : Triple P (m >>= f) Q E := by
  intro s hs r hr
  rcases Prog.mem_bind.mp hr with ⟨b, s', hmem, hr⟩ | ⟨e, s', hmem, rfl⟩ | ⟨s', hmem, rfl⟩
  · exact hf b s' (hm s hs _ hmem) r hr
  · exact hm s hs _ hmem
  · exact hm s hs _ hmem

theorem fail {e : ε} (h : ∀ s, P s → E s) : Triple P (Prog.fail e) Q E := by
  intro s hs r hr
  obtain rfl : r = (.error e, s) := mem_singleton.mp hr
  exact h s hs

theorem get {Q : σ → σ → Prop} (h : ∀ s, P s → Q s s) :
    Triple (ε := ε) P Prog.get Q E := by
  intro s hs r hr
  obtain rfl : r = (.ok s, s) := mem_singleton.mp hr
  exact h s hs

theorem update {f : σ → σ} {Q : Unit → σ → Prop} (h : ∀ s, P s → Q () (f s)) :
    Triple (ε := ε) P (Prog.update f) Q E := by
  intro s hs r hr
  obtain rfl : r = (.ok (), f s) := mem_singleton.mp hr
  exact h s hs

/-- The rule for a write: the error and crash condition has to hold on both sides of it. -/
theorem attempt {f : σ → σ} {e : ε} {Q : Unit → σ → Prop} (hQ : ∀ s, P s → Q () (f s))
    (hE : ∀ s, P s → E s ∧ E (f s)) : Triple P (Prog.attempt f e) Q E := by
  intro s hs r hr
  simp only [Prog.attempt, mem_cons, not_mem_nil, or_false] at hr
  rcases hr with rfl | rfl | rfl | rfl | rfl
  · exact hQ s hs
  · exact (hE s hs).1
  · exact (hE s hs).2
  · exact (hE s hs).1
  · exact (hE s hs).2

theorem fallible {e : ε} {Q : Unit → σ → Prop} (hQ : ∀ s, P s → Q () s)
    (hE : ∀ s, P s → E s) : Triple P (Prog.fallible e) Q E := by
  intro s hs r hr
  simp only [Prog.fallible, mem_cons, not_mem_nil, or_false] at hr
  rcases hr with rfl | rfl | rfl
  · exact hQ s hs
  · exact hE s hs
  · exact hE s hs

theorem require {b : Bool} {e : ε} {Q : Unit → σ → Prop} (hQ : ∀ s, P s → b = true → Q () s)
    (hE : ∀ s, P s → E s) : Triple P (Prog.require b e) Q E := by
  cases b with
  | true => exact pure fun s hs => hQ s hs rfl
  | false => exact fail hE

theorem lift {x : Except ε α} (hQ : ∀ a s, x = .ok a → P s → Q a s) (hE : ∀ s, P s → E s) :
    Triple P (Prog.lift x) Q E := by
  cases x with
  | ok a => exact pure fun s hs => hQ a s rfl hs
  | error => exact fail hE

/-- A handler runs from the error condition of the guarded program. A crash passes by it,
so the error condition has to imply the final one. -/
theorem handle {m : Prog σ ε α} {h : ε → Prog σ ε' α} (hm : Triple P m Q E)
    (hh : ∀ e, Triple E (h e) Q E') (hE : ∀ s, E s → E' s) :
    Triple P (Prog.handle m h) Q E' := by
  intro s hs r hr
  rcases Prog.mem_handle.mp hr with ⟨a, s', hmem, rfl⟩ | ⟨e, s', hmem, hr⟩ | ⟨s', hmem, rfl⟩
  · exact hm s hs _ hmem
  · exact hh e s' (hm s hs _ hmem) r hr
  · exact hE s' (hm s hs _ hmem)

/-- An ignored error is a normal return. -/
theorem ignore {m : Prog σ ε Unit} {Q : Unit → σ → Prop} (hm : Triple P m Q E)
    (hQ : ∀ s, E s → Q () s) : Triple P (Prog.ignore m) Q E :=
  handle hm (fun _ => pure hQ) fun _ h => h

/-- A program on a part of the state, seen from the whole state `s₀` it starts in. -/
theorem zoom {τ : Type} {read : σ → τ} {write : τ → σ → σ} {m : Prog τ ε α} {s0 : σ}
    {Qt : α → τ → Prop} {Et : τ → Prop} (hm : Triple (fun t => t = read s0) m Qt Et)
    (hQ : ∀ a t, Qt a t → Q a (write t s0)) (hE : ∀ t, Et t → E (write t s0)) :
    Triple (fun s => s = s0) (Prog.zoom read write m) Q E := by
  rintro s rfl r hr
  obtain ⟨⟨o, t⟩, hmem, rfl⟩ := mem_map.mp hr
  have hpost := hm _ rfl _ hmem
  cases o with
  | ok a => exact hQ a t hpost
  | error => exact hE t hpost
  | crash => exact hE t hpost

/-- A precondition that fixes the state at entry can be used as a fact about it. -/
theorem of_state {m : Prog σ ε α} (h : ∀ s0, P s0 → Triple (fun s => s = s0) m Q E) :
    Triple P m Q E :=
  fun s hs r hr => h s hs s rfl r hr

/-- A postcondition that implies the error condition: that one holds however the program
ends. -/
theorem every_end {m : Prog σ ε α} (hm : Triple P m Q E) (hQ : ∀ a s, Q a s → E s) {s : σ}
    (hs : P s) {r : Outcome ε α × σ} (hr : r ∈ m s) : E r.2 := by
  have hpost := hm s hs r hr
  obtain ⟨o, s'⟩ := r
  cases o with
  | ok a => exact hQ a s' hpost
  | error => exact hpost
  | crash => exact hpost

theorem ite {c : Prop} [Decidable c] {m m' : Prog σ ε α}
    (ht : c → Triple P m Q E) (hf : ¬ c → Triple P m' Q E) :
    Triple P (if c then m else m') Q E := by
  split
  · exact ht ‹c›
  · exact hf ‹¬ c›

/-- The rule for a loop over a list. The invariant says what holds once a part of it is done. -/
theorem forM {xs : List β} {body : β → Prog σ ε PUnit} {I : List β → σ → Prop}
    (hbody : ∀ before x after, xs = before ++ x :: after →
      Triple (I before) (body x) (fun _ => I (before ++ [x])) E) :
    Triple (I []) (xs.forM body) (fun _ => I xs) E := by
  suffices hrest : ∀ before after, xs = before ++ after →
      Triple (I before) (after.forM body) (fun _ => I xs) E from hrest [] xs rfl
  intro before after
  induction after generalizing before with
  | nil =>
    intro hsplit
    rw [append_nil] at hsplit
    rw [hsplit]
    exact pure fun s hs => hs
  | cons x after ih =>
    intro hsplit
    refine bind (hbody before x after hsplit) fun _ => ih (before ++ [x]) ?_
    rw [hsplit, append_assoc, singleton_append]

/-- What a program returns is one of its ends. -/
theorem self {m : Prog σ ε α} {s0 : σ} :
    Triple (fun s => s = s0) m (fun a s => (Outcome.ok a, s) ∈ m s0) (fun _ => True) := by
  intro s hs r hr
  subst hs
  obtain ⟨o, s'⟩ := r
  cases o with
  | ok => exact hr
  | error => trivial
  | crash => trivial

/-- Postconditions that hold in every state ask nothing of the program. -/
theorem of_forall {m : Prog σ ε α} (hQ : ∀ a s, Q a s) (hE : ∀ s, E s) : Triple P m Q E := by
  intro s _ r _
  obtain ⟨o, s'⟩ := r
  cases o with
  | ok a => exact hQ a s'
  | error => exact hE s'
  | crash => exact hE s'

/-- A handler that uses what is known after the error it handles. -/
theorem handle_spec {m : Prog σ ε α} {h : ε → Prog σ ε' α} {X : ε → σ → Prop} {C : σ → Prop}
    (hm : Spec P m Q X C) (hh : ∀ e, Triple (X e) (h e) Q E) (hC : ∀ s, C s → E s) :
    Triple P (Prog.handle m h) Q E := by
  intro s hs r hr
  rcases Prog.mem_handle.mp hr with ⟨a, s', hmem, rfl⟩ | ⟨e, s', hmem, hr⟩ | ⟨s', hmem, rfl⟩
  · exact hm s hs _ hmem
  · exact hh e s' (hm s hs _ hmem) r hr
  · exact hC s' (hm s hs _ hmem)

end Triple

/-! ### Invariants -/

namespace Keeps

variable {I : σ → Prop}

theorem pure {a : α} : Keeps (ε := ε) I (Pure.pure a) := Triple.pure fun _ h => h

theorem fail {e : ε} : Keeps (α := α) I (Prog.fail e) := Triple.fail fun _ h => h

theorem get : Keeps (ε := ε) I Prog.get := Triple.get fun _ h => h

theorem fallible {e : ε} : Keeps I (Prog.fallible e) := Triple.fallible (fun _ h => h) fun _ h => h

theorem require {b : Bool} {e : ε} : Keeps I (Prog.require b e) := Triple.require (fun _ h _ => h) fun _ h => h

theorem lift {x : Except ε α} : Keeps I (Prog.lift x) := Triple.lift (fun _ _ _ h => h) fun _ h => h

theorem update {f : σ → σ} (h : ∀ s, I s → I (f s)) : Keeps (ε := ε) I (Prog.update f) := Triple.update h

theorem attempt {f : σ → σ} {e : ε} (h : ∀ s, I s → I (f s)) : Keeps I (Prog.attempt f e) :=
  Triple.attempt h fun s hs => ⟨hs, h s hs⟩

theorem bind {m : Prog σ ε β} {f : β → Prog σ ε α} (hm : Keeps I m) (hf : ∀ b, Keeps I (f b)) :
    Keeps I (m >>= f) :=
  Triple.bind hm hf

theorem handle {m : Prog σ ε α} {h : ε → Prog σ ε' α} (hm : Keeps I m) (hh : ∀ e, Keeps I (h e)) :
    Keeps I (Prog.handle m h) :=
  Triple.handle hm hh fun _ h => h

theorem ite {c : Prop} [Decidable c] {m m' : Prog σ ε α} (ht : c → Keeps I m) (hf : ¬ c → Keeps I m') :
    Keeps I (if c then m else m') :=
  Triple.ite ht hf

/-- A loop whose body keeps an invariant keeps it. -/
theorem forM {xs : List β} {body : β → Prog σ ε PUnit} (hbody : ∀ x ∈ xs, Keeps I (body x)) :
    Keeps I (xs.forM body) := by
  refine Triple.forM (I := fun _ => I) fun before x after hsplit => hbody x ?_
  rw [hsplit]
  exact mem_append_right _ mem_cons_self

theorem every_end {m : Prog σ ε α} (hm : Keeps I m) {s : σ} (hs : I s) {r : Outcome ε α × σ} (hr : r ∈ m s) :
    I r.2 :=
  Triple.every_end hm (fun _ _ h => h) hs hr

end Keeps

namespace Spec

variable {P E C : σ → Prop} {Q : α → σ → Prop} {R : β → σ → Prop} {X : ε → σ → Prop}

theorem bind {m : Prog σ ε β} {f : β → Prog σ ε α} (hm : Spec P m R X C)
    (hf : ∀ b, Spec (R b) (f b) Q X C) : Spec P (m >>= f) Q X C := by
  intro s hs r hr
  rcases Prog.mem_bind.mp hr with ⟨b, s', hmem, hr⟩ | ⟨e, s', hmem, rfl⟩ | ⟨s', hmem, rfl⟩
  · exact hf b s' (hm s hs _ hmem) r hr
  · exact hm s hs _ hmem
  · exact hm s hs _ hmem

/-- An error that is passed on under another name. -/
theorem rethrow {m : Prog σ ε' α} {f : ε' → ε} (hm : Triple P m Q E)
    (hX : ∀ e s, E s → X (f e) s) (hC : ∀ s, E s → C s) :
    Spec P (Prog.handle m fun e => Prog.fail (f e)) Q X C := by
  intro s hs r hr
  rcases Prog.mem_handle.mp hr with ⟨a, s', hmem, rfl⟩ | ⟨e, s', hmem, hr⟩ | ⟨s', hmem, rfl⟩
  · exact hm s hs _ hmem
  · obtain rfl : r = (.error (f e), s') := mem_singleton.mp hr
    exact hX e s' (hm s hs _ hmem)
  · exact hC s' (hm s hs _ hmem)

end Spec

end Triple

/-! ### Runs -/

/-- An invariant that holds at the start and that every step keeps holds in every state
of a run. -/
theorem invariant_of_run {σ : Type} {step : σ → σ → Prop} {I : σ → Prop} {s0 s : σ}
    (h0 : I s0) (hstep : ∀ s s', step s s' → I s → I s')
    (hrun : Relation.ReflTransGen step s0 s) : I s := by
  induction hrun with
  | refl => exact h0
  | tail _ hlast ih => exact hstep _ _ hlast ih

end Ghostd.Lib
