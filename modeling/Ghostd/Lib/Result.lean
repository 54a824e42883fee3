import Mathlib.Data.List.Basic

/-!
# `Ghostd.Lib.Result`: what a successful `Except` computation says

Inversion rules for `Except` in `do` notation: a sequence succeeded when each step did, a
check succeeded when its condition did not hold, a loop of checks when every element passed.
They are simp lemmas, so that `simp at h` turns a success into the facts it stands for.
`refuseIf` is the usual `if bad { return err }` as one step of a sequence. `Fails` bounds the errors.
-/

set_option autoImplicit false

namespace Ghostd.Lib

open List

variable {ε α β σ : Type}

/-- Stop with the error `e` when `bad` holds. -/
def refuseIf (bad : Bool) (e : ε) : Except ε Unit := if bad then throw e else pure ()

@[simp] theorem bind_eq_ok {x : Except ε α} {f : α → Except ε β} {b : β} :
    x >>= f = .ok b ↔ ∃ a, x = .ok a ∧ f a = .ok b := by
  cases x with
  | error =>
    constructor
    · intro h
      exact absurd h (by intro h'; cases h')
    · intro h
      obtain ⟨a, ha, -⟩ := h
      cases ha
  | ok a =>
    constructor
    · intro h
      exact ⟨a, rfl, h⟩
    · intro h
      obtain ⟨a', ha, hf⟩ := h
      cases ha
      exact hf

@[simp] theorem throw_eq_ok {e : ε} {a : α} : (throw e : Except ε α) = .ok a ↔ False := by
  constructor
  · intro h
    cases h
  · intro h
    exact h.elim

@[simp] theorem pure_eq_ok {a b : α} : (pure a : Except ε α) = .ok b ↔ a = b := by
  constructor
  · intro h
    cases h
    rfl
  · intro h
    rw [h]
    rfl

@[simp] theorem map_eq_ok {x : Except ε α} {f : α → β} {b : β} :
    f <$> x = .ok b ↔ ∃ a, x = .ok a ∧ f a = b := by
  cases x with
  | error =>
    constructor
    · intro h
      exact absurd h (by intro h'; cases h')
    · rintro ⟨a, ha, -⟩
      cases ha
  | ok a =>
    constructor
    · intro h
      cases h
      exact ⟨a, rfl, rfl⟩
    · rintro ⟨a', ha, rfl⟩
      cases ha
      rfl

@[simp] theorem refuseIf_eq_ok {bad : Bool} {e : ε} {u : Unit} :
    refuseIf bad e = .ok u ↔ bad = false := by
  cases bad with
  | true => simp [refuseIf]
  | false => simp [refuseIf]

/-- A loop of checks succeeds exactly when every check does. -/
@[simp] theorem forM_eq_ok {f : α → Except ε Unit} {xs : List α} {u : Unit} :
    forM xs f = .ok u ↔ ∀ x ∈ xs, f x = .ok () := by
  induction xs with
  | nil =>
    constructor
    · intro _ x hx
      exact absurd hx (by simp)
    · intro _
      rfl
  | cons x xs ih =>
    rw [forM_cons, bind_eq_ok]
    constructor
    · rintro ⟨⟨⟩, hx, hxs⟩ y hy
      rcases mem_cons.mp hy with rfl | hy
      · exact hx
      · exact ih.mp hxs y hy
    · intro h
      exact ⟨(), h x (by simp), ih.mpr fun y hy => h y (by simp [hy])⟩

/-- What every step of a loop preserves holds after the loop. -/
theorem foldlM_invariant {f : σ → α → Except ε σ} {xs : List α} {I : σ → Prop}
    (step : ∀ x ∈ xs, ∀ s s', I s → f s x = .ok s' → I s') {s s' : σ} (hs : I s)
    (h : xs.foldlM f s = .ok s') : I s' := by
  induction xs generalizing s with
  | nil =>
    rw [foldlM_nil, pure_eq_ok] at h
    rwa [← h]
  | cons x xs ih =>
    rw [foldlM_cons, bind_eq_ok] at h
    obtain ⟨s1, hx, hxs⟩ := h
    exact ih (fun y hy => step y (mem_cons_of_mem x hy))
      (step x mem_cons_self s s1 hs hx) hxs

/-- A loop that succeeded has passed every element. -/
theorem foldlM_mem {f : σ → α → Except ε σ} {xs : List α} {s s' : σ}
    (h : xs.foldlM f s = .ok s') : ∀ x ∈ xs, ∃ s1 s2, f s1 x = .ok s2 := by
  induction xs generalizing s with
  | nil =>
    intro x hx
    exact absurd hx (by simp)
  | cons y ys ih =>
    rw [foldlM_cons, bind_eq_ok] at h
    obtain ⟨s1, hy, hys⟩ := h
    intro x hx
    rcases mem_cons.mp hx with rfl | hx
    · exact ⟨s, s1, hy⟩
    · exact ih hys x hx

/-- A loop that has passed every element as new (`N`) after those before it. What is new after a step was
new before, and `R` relates it to the element of the step. -/
theorem foldlM_pairwise {f : σ → α → Except ε σ} {xs : List α} {N : σ → α → Prop} {R : α → α → Prop}
    (fresh : ∀ {s s' x}, f s x = .ok s' → N s x)
    (older : ∀ {s s' x y}, f s x = .ok s' → N s' y → R x y ∧ N s y) {s s' : σ}
    (h : xs.foldlM f s = .ok s') : xs.Pairwise R ∧ ∀ x ∈ xs, N s x := by
  induction xs generalizing s with
  | nil => exact ⟨.nil, fun x hx => by cases hx⟩
  | cons x xs ih =>
    rw [foldlM_cons, bind_eq_ok] at h
    obtain ⟨s1, hx, hxs⟩ := h
    obtain ⟨hpairs, hfresh⟩ := ih hxs
    refine ⟨.cons (fun y hy => (older hx (hfresh y hy)).1) hpairs, fun y hy => ?_⟩
    rcases mem_cons.mp hy with rfl | hy
    · exact fresh hx
    · exact (older hx (hfresh y hy)).2

/-- What one element of a loop brings about and every later step keeps holds after the loop.
`I` is what the steps before it keep. -/
theorem foldlM_establish {f : σ → α → Except ε σ} {xs : List α} {x : α} (hx : x ∈ xs)
    {I T : σ → Prop} (before : ∀ y ∈ xs, ∀ s s', I s → f s y = .ok s' → I s')
    (here : ∀ s s', I s → f s x = .ok s' → T s')
    (later : ∀ y ∈ xs, ∀ s s', T s → f s y = .ok s' → T s') {s s' : σ} (hs : I s)
    (h : xs.foldlM f s = .ok s') : T s' := by
  induction xs generalizing s with
  | nil => cases hx
  | cons y ys ih =>
    rw [foldlM_cons, bind_eq_ok] at h
    obtain ⟨s1, hy, hys⟩ := h
    by_cases hxy : x = y
    · subst hxy
      exact foldlM_invariant (fun z hz => later z (mem_cons_of_mem x hz)) (here s s1 hs hy) hys
    · have hx' : x ∈ ys := (mem_cons.mp hx).resolve_left hxy
      exact ih hx' (fun z hz => before z (mem_cons_of_mem y hz))
        (fun z hz => later z (mem_cons_of_mem y hz)) (before y mem_cons_self s s1 hs hy) hys

/-- A loop that collects results has one for each element, and nothing else. -/
theorem mapM_members {f : α → Except ε β} {xs : List α} {ys : List β} (h : xs.mapM f = .ok ys) :
    (∀ x ∈ xs, ∃ y ∈ ys, f x = .ok y) ∧ ∀ y ∈ ys, ∃ x ∈ xs, f x = .ok y := by
  induction xs generalizing ys with
  | nil =>
    rw [mapM_nil, pure_eq_ok] at h
    subst h
    simp
  | cons x xs ih =>
    rw [mapM_cons, bind_eq_ok] at h
    obtain ⟨y, hy, h⟩ := h
    rw [bind_eq_ok] at h
    obtain ⟨ys', hys, h⟩ := h
    rw [pure_eq_ok] at h
    subst h
    obtain ⟨hforth, hback⟩ := ih hys
    constructor
    · intro x' hx'
      rcases mem_cons.mp hx' with rfl | hx'
      · exact ⟨y, by simp, hy⟩
      · obtain ⟨y', hy', hf⟩ := hforth x' hx'
        exact ⟨y', by simp [hy'], hf⟩
    · intro y' hy'
      rcases mem_cons.mp hy' with rfl | hy'
      · exact ⟨x, by simp, hy⟩
      · obtain ⟨x', hx', hf⟩ := hback y' hy'
        exact ⟨x', by simp [hx'], hf⟩

/-- What every step of a loop that cannot fail preserves holds after it. -/
theorem foldl_invariant {f : σ → α → σ} {xs : List α} {I : σ → Prop}
    (step : ∀ x ∈ xs, ∀ s, I s → I (f s x)) {s : σ} (hs : I s) : I (xs.foldl f s) := by
  induction xs generalizing s with
  | nil => exact hs
  | cons x xs ih =>
    exact ih (fun y hy => step y (mem_cons_of_mem x hy)) (step x mem_cons_self s hs)

/-! ### Errors -/

/-- Every error that the computation can end with is one of `P`. -/
def Fails (P : ε → Prop) (x : Except ε α) : Prop := ∀ e, x = .error e → P e

section Fails

variable {P : ε → Prop}

theorem Fails.pure (a : α) : Fails P (Pure.pure a : Except ε α) := fun _ h => by cases h

theorem Fails.throw {e : ε} (h : P e) : Fails P (MonadExcept.throw e : Except ε α) := by
  intro e' he
  cases he
  exact h

theorem Fails.of_ok {x : Except ε α} {a : α} (h : x = .ok a) : Fails P x := by
  rw [h]
  exact .pure a

theorem Fails.bind {x : Except ε α} {f : α → Except ε β} (hx : Fails P x) (hf : ∀ a, x = .ok a → Fails P (f a)) :
    Fails P (x >>= f) := by
  cases x with
  | error e => exact fun e' he => hx e' (by cases he; rfl)
  | ok a => exact hf a rfl

theorem Fails.foldlM {f : σ → α → Except ε σ} {xs : List α} (h : ∀ s x, Fails P (f s x)) (s : σ) :
    Fails P (xs.foldlM f s) := by
  induction xs generalizing s with
  | nil => exact .pure s
  | cons x xs ih => exact .bind (h s x) fun s' _ => ih s'

theorem Fails.exists_ok {x : Except ε α} (h : Fails (fun _ => False) x) : ∃ a, x = .ok a := by
  cases x with
  | error e => exact (h e rfl).elim
  | ok a => exact ⟨a, rfl⟩

end Fails

end Ghostd.Lib
