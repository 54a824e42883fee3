import Ghostd.Addressbook.Convert
import Ghostd.Lib.Result
import Mathlib.Data.List.Induction

/-!
# `Ghostd.Proofs.Addressbook.Convert`: what the converter and the validator make of a configuration

The converter reads a lifetime with a parser of its own, and the validator with `time.ParseDuration`.
They agree except for two units that only the first knows, and for products that do not fit
(`lifetimes_agree_iff`).

`deriveSettings` lets the last line win. `settings_eq` is the fold in closed form: the router is the last
one in the subnet, the DNS servers are the last ones that are not the server itself. Whether a line is
tagged plays no part in this, so that an untagged line after a tagged one replaces its setting.
`tagged_settings_win_iff` says when it does not matter.
-/

set_option autoImplicit false

namespace Ghostd.Proofs.Addressbook

open Ghostd.Lib Ghostd.Addressbook List

/-! ### Lifetimes -/

theorem wrap64_of_lt {n : Int} (hlow : 0 ≤ n) (hlt : n < 2 ^ 63) : wrap64 n = n := by
  unfold wrap64
  exact Int.bmod_eq_of_le (by omega) (by omega)

/-- The letters of units. -/
def lifetimeUnits : List (Char × Int) := [('s', 1), ('m', 60), ('h', 3600), ('d', 86400), ('w', 604800)]

/-- `time.ParseDuration` knows the units except for days and weeks. -/
theorem durationUnit_of_mem {p : Char × Int} (h : p ∈ lifetimeUnits) :
    decimalDigit p.1 = false ∧ p.1 ≠ '.' ∧ 0 < p.2 ∧
      durationUnit [p.1] = if p.2 = 86400 ∨ p.2 = 604800 then none else some (p.2.toNat * 10 ^ 9) := by
  have hall : ∀ p ∈ lifetimeUnits, decimalDigit p.1 = false ∧ p.1 ≠ '.' ∧ 0 < p.2 ∧
      durationUnit [p.1] = if p.2 = 86400 ∨ p.2 = 604800 then none else some (p.2.toNat * 10 ^ 9) := by decide
  exact hall p h

theorem lifetimeUnit_cases (s : String) :
    lifetimeUnit s = (1, s) ∨ ∃ t u mult, s = String.ofList (t.toList ++ [u]) ∧ lifetimeUnit s = (mult, t) ∧
      (u, mult) ∈ lifetimeUnits := by
  have hlast : ∀ {cs : List Char} {u : Char}, s.toList.reverse = u :: cs →
      s = String.ofList ((String.ofList cs.reverse).toList ++ [u]) := by
    intro cs u hs
    apply String.toList_inj.mp
    rw [String.toList_ofList, String.toList_ofList, ← reverse_cons, ← hs, reverse_reverse]
  unfold lifetimeUnit
  split
  all_goals first
    | exact Or.inl rfl
    | exact Or.inr ⟨_, _, _, hlast ‹_›, rfl, by decide⟩

theorem parseDNSmasqDuration_ok {s : String} {n : Int} (h : parseDNSmasqDuration s = .ok n) :
    ∃ v, parseInt64 (lifetimeUnit s).2 = some v ∧ 0 < v ∧ n = wrap64 (v * (lifetimeUnit s).1) := by
  simp only [parseDNSmasqDuration, bind_eq_ok, refuseIf_eq_ok, exists_const] at h
  obtain ⟨-, h⟩ := h
  cases hv : (parseInt64 (lifetimeUnit s).2).filter (0 < ·) with
  | none =>
    rw [hv] at h
    cases h
  | some v =>
    rw [hv] at h
    obtain ⟨hread, hpos⟩ := Option.filter_eq_some_iff.mp hv
    exact ⟨v, hread, by simpa using hpos, (Except.ok.inj h).symm⟩

/-- **The two readings of a lifetime agree, exactly if its unit is no day or week and its seconds fit.** -/
theorem lifetimes_agree_iff (fraction : List Char → Nat → Nat) {s : String} {n : Int}
    (h : parseDNSmasqDuration s = .ok n) (hn : 60 ≤ n ∧ n ≤ 604800) :
    (lifetimeAccepted fraction s n = true ∧
      ∃ v, parseInt64 (lifetimeUnit s).2 = some v ∧ n = v * (lifetimeUnit s).1) ↔
    (lifetimeUnit s).1 ≠ 86400 ∧ (lifetimeUnit s).1 ≠ 604800 ∧
      ∀ v, parseInt64 (lifetimeUnit s).2 = some v → v * (lifetimeUnit s).1 < 2 ^ 63 := by
  obtain ⟨v, hread, hpos, hwrap⟩ := parseDNSmasqDuration_ok h
  have hseconds : wrap64 (n * 10 ^ 9) = n * 10 ^ 9 := wrap64_of_lt (by omega) (by omega)
  -- What the validator reads is the number with a unit: that of the text, or seconds.
  obtain ⟨u, hmem, htext⟩ : ∃ u, (u, (lifetimeUnit s).1) ∈ lifetimeUnits ∧
      (if (parseInt64 s).isSome then s ++ "s" else s) = String.ofList ((lifetimeUnit s).2.toList ++ [u]) := by
    rcases lifetimeUnit_cases s with hplain | ⟨t, u, mult, hs, hunit, hmem⟩
    · rw [hplain] at hread ⊢
      refine ⟨'s', mem_cons_self, ?_⟩
      rw [hread, Option.isSome_some, if_pos rfl]
      apply String.toList_inj.mp
      simp
    · rw [hunit]
      refine ⟨u, hmem, ?_⟩
      rw [hs, parseInt64_suffix (durationUnit_of_mem hmem).1]
      rfl
  obtain ⟨hdigit, hdot, hmult, hunit⟩ := durationUnit_of_mem hmem
  obtain ⟨hunknown, hknown⟩ := parseDuration_number fraction hread hpos hdigit hdot
  unfold lifetimeAccepted
  rw [htext, hseconds, hread]
  simp only [Option.some.injEq, exists_eq_left', forall_eq', decide_eq_true_eq] at hunit ⊢
  generalize (lifetimeUnit s).1 = mult at hwrap hmult hunit ⊢
  constructor
  · intro hagree
    obtain ⟨hparsed, hproduct⟩ := hagree
    have hno : ¬ (mult = 86400 ∨ mult = 604800) := by
      intro hlong
      rw [if_pos hlong] at hunit
      rw [hunknown hunit] at hparsed
      cases hparsed
    exact ⟨fun h => hno (Or.inl h), fun h => hno (Or.inr h), by omega⟩
  · intro hfits
    obtain ⟨hday, hweek, hlt⟩ := hfits
    have hproduct : n = v * mult := hwrap.trans (wrap64_of_lt (Int.mul_nonneg hpos.le hmult.le) hlt)
    rw [if_neg (by simp [hday, hweek])] at hunit
    have hcast : v * ((mult.toNat * 10 ^ 9 : Nat) : Int) = n * 10 ^ 9 := by
      push_cast
      rw [Int.toNat_of_nonneg hmult.le, hproduct, Int.mul_assoc]
    refine ⟨?_, hproduct⟩
    rw [← hcast]
    exact hknown _ hunit (by omega) (by omega)

/-- A lifetime of twelve hours is read alike. -/
theorem lifetimes_agree_twelveHours :
    parseDNSmasqDuration "12h" = .ok 43200 ∧ lifetimeAccepted (fun _ _ => 0) "12h" 43200 = true := by
  have hparsed : parseDNSmasqDuration "12h" = .ok 43200 := by decide +kernel
  have hread : parseInt64 (lifetimeUnit "12h").2 = some 12 := by decide +kernel
  refine ⟨hparsed, ((lifetimes_agree_iff _ hparsed (by decide)).mpr ⟨by decide +kernel, by decide +kernel, ?_⟩).1⟩
  intro v hv
  rw [hread, Option.some.injEq] at hv
  rw [← hv]
  decide +kernel

/-- A lifetime of one day is converted, and refused by the validator. One of more minutes than fit is taken for
a minute. -/
theorem day_refused :
    (parseDNSmasqDuration "1d" = .ok 86400 ∧ lifetimeAccepted (fun _ _ => 0) "1d" 86400 = false) ∧
      parseDNSmasqDuration "4611686018427387905m" = .ok 60 ∧
      parseInt64 (lifetimeUnit "4611686018427387905m").2 = some 4611686018427387905 := by
  decide +kernel

/-! ### The last of several writes -/

section LastWrite

variable {α β : Type} {p q t : α → Bool} {f : α → β} {l : List α} {x : α}

/-- What the last write of a list that counts has written. -/
def lastWrite (p : α → Bool) (f : α → β) (l : List α) : Option β := (l.filter p).getLast?.map f

theorem lastWrite_append (l1 l2 : List α) :
    lastWrite p f (l1 ++ l2) = (lastWrite p f l2).or (lastWrite p f l1) := by
  unfold lastWrite
  rw [filter_append, List.getLast?_append]
  cases (l2.filter p).getLast? <;> rfl

theorem lastWrite_singleton : lastWrite p f [x] = if p x then some (f x) else none := by
  unfold lastWrite
  cases hp : p x <;> simp [hp]

theorem lastWrite_filter : lastWrite p f (l.filter t) = lastWrite (fun x => p x && t x) f l := by
  unfold lastWrite
  rw [filter_filter]

theorem lastWrite_congr (h : ∀ x ∈ l, p x = q x) : lastWrite p f l = lastWrite q f l := by
  unfold lastWrite
  rw [filter_congr h]

/-- Of two kinds of writes one is the last. -/
theorem lastWrite_cases (t : α → Bool) :
    lastWrite p f l = (lastWrite (fun x => p x && t x) f l).or (lastWrite (fun x => p x && !t x) f l) ∨
      lastWrite p f l = (lastWrite (fun x => p x && !t x) f l).or (lastWrite (fun x => p x && t x) f l) := by
  induction l using List.reverseRecOn with
  | nil => exact Or.inl rfl
  | append_singleton l x ih =>
    simp only [lastWrite_append, lastWrite_singleton]
    cases hp : p x with
    | false => simpa [hp] using ih
    | true =>
      cases ht : t x with
      | true => exact Or.inl (by simp)
      | false => exact Or.inr (by simp)

theorem lastWrite_mem {v : β} (h : lastWrite p f l = some v) : ∃ x ∈ l, p x = true ∧ f x = v := by
  obtain ⟨x, hx, rfl⟩ := Option.map_eq_some_iff.mp h
  obtain ⟨hmem, hp⟩ := mem_filter.mp (mem_of_getLast? hx)
  exact ⟨x, hmem, hp, rfl⟩

theorem lastWrite_none : lastWrite p f l = none ↔ ∀ x ∈ l, p x = false := by
  unfold lastWrite
  simp

/-- The last write counts if it does so for what it writes. -/
theorem lastWrite_and {e : β → Bool} {v : β} (h : lastWrite p f l = some v) (he : e v = true) :
    lastWrite (fun x => p x && e (f x)) f l = some v := by
  obtain ⟨x, hx, rfl⟩ := Option.map_eq_some_iff.mp h
  obtain ⟨ys, hys⟩ := List.getLast?_eq_some_iff.mp hx
  unfold lastWrite
  have hsplit : l.filter (fun x => p x && e (f x)) = (l.filter p).filter fun x => e (f x) := by
    rw [filter_filter]
    exact filter_congr fun x _ => Bool.and_comm _ _
  rw [hsplit, hys, filter_append]
  simp [he]

end LastWrite

/-! ### Settings -/

section Settings

variable {tag : String} {subnet : Prefix} {server : String} {opts opts' : List DmOption} {st : ScopeSettings}

/-- An option that carries a tag. If it reaches the range, it is the range's. -/
def isTagged (o : DmOption) : Bool := o.tag ≠ ""

/-- The router that counts: it reaches the range and is in the subnet. -/
def setsRouter (tag : String) (subnet : Prefix) (o : DmOption) : Bool :=
  o.reaches tag && o.code = 3 && o.inSubnet subnet

/-- DNS servers that count. -/
def setsDNS (tag : String) (server : String) (o : DmOption) : Bool :=
  o.reaches tag && o.code = 6 && o.vals ≠ [server]

/-- The other options. -/
def otherOptions (tag : String) (opts : List DmOption) : List DHCPOption :=
  (opts.filter fun o => o.reaches tag && !(o.code = 3 || o.code = 6)).map fun o =>
    { code := o.code, type := o.typ, value := o.vals }

/-- A router that is tagged is in the subnet. -/
def RoutersFit (tag : String) (subnet : Prefix) (opts : List DmOption) : Prop :=
  ∀ o ∈ opts, o.reaches tag = true → o.code = 3 → o.vals ≠ [] ∧ (o.inSubnet subnet = true ∨ o.tag = "")

/-- What one line does. -/
theorem deriveSetting_ok {o : DmOption} {st' : ScopeSettings} : deriveSetting tag subnet server st o = .ok st' ↔
    RoutersFit tag subnet [o] ∧ (∀ d ∈ otherOptions tag [o], ∀ d' ∈ st.others, d'.code ≠ d.code) ∧
      st' = { router := (lastWrite (setsRouter tag subnet) (·.vals.headD "") [o]).getD st.router
              dns := (lastWrite (setsDNS tag server) (·.vals) [o]).getD st.dns
              others := st.others ++ otherOptions tag [o] } := by
  simp only [RoutersFit, otherOptions, lastWrite_singleton, setsRouter, setsDNS, forall_mem_singleton]
  unfold deriveSetting
  by_cases hreach : o.reaches tag = true
  · by_cases hrouter : o.code = 3
    · by_cases hin : o.inSubnet subnet = true
      · simp [hreach, hrouter, hin, @eq_comm _ st']
      · simp [hreach, hrouter, hin, and_assoc, @eq_comm _ st']
    · by_cases hdns : o.code = 6
      · by_cases hown : o.vals = [server]
        · simp [hreach, hdns, hown, @eq_comm _ st']
        · simp [hreach, hdns, hown, @eq_comm _ st']
      · simp [hreach, hrouter, hdns, @eq_comm _ st']
  · simp [hreach, @eq_comm _ st']

/-- The settings of a list, with the other options in its order. -/
def settingsOf (tag : String) (subnet : Prefix) (server : String) (opts : List DmOption) : ScopeSettings where
  router := (lastWrite (setsRouter tag subnet) (·.vals.headD "") opts).getD ""
  dns := (lastWrite (setsDNS tag server) (·.vals) opts).getD []
  others := otherOptions tag opts

theorem settings_eq : opts.foldlM (deriveSetting tag subnet server) {} = .ok st ↔
    RoutersFit tag subnet opts ∧ ((otherOptions tag opts).map (·.code)).Nodup ∧
      st = settingsOf tag subnet server opts := by
  induction opts using List.reverseRecOn generalizing st with
  | nil => simp [RoutersFit, otherOptions, lastWrite, settingsOf, @eq_comm _ st]
  | append_singleton opts o ih =>
    have hothers : otherOptions tag (opts ++ [o]) = otherOptions tag opts ++ otherOptions tag [o] := by
      simp [otherOptions]
    have hone : ((otherOptions tag [o]).map (·.code)).Nodup := by
      unfold otherOptions
      rw [filter_cons, filter_nil]
      split
      · exact nodup_singleton _
      · exact nodup_nil
    have hrouters : RoutersFit tag subnet (opts ++ [o]) ↔ RoutersFit tag subnet opts ∧ RoutersFit tag subnet [o] :=
      forall_mem_append
    simp only [foldlM_append, bind_eq_ok, ih, foldlM_cons, foldlM_nil, pure_eq_ok,
      exists_eq_right, deriveSetting_ok, settingsOf, lastWrite_append, hothers, map_append,
      nodup_append, Option.getD_or, hrouters, forall_mem_map]
    constructor
    · rintro ⟨_, ⟨hfit, hnodup, rfl⟩, hlast, hnew, rfl⟩
      exact ⟨⟨hfit, hlast⟩, ⟨hnodup, hone, fun d' hd' d hd => hnew d hd d' hd'⟩, rfl⟩
    · rintro ⟨⟨hfit, hlast⟩, ⟨hnodup, -, hnew⟩, rfl⟩
      exact ⟨_, ⟨hfit, hnodup, rfl⟩, hlast, fun d hd d' hd' => hnew d' hd' d hd, rfl⟩

theorem deriveSettings_eq_ok : deriveSettings tag subnet server opts = .ok st ↔
    RoutersFit tag subnet opts ∧ ((otherOptions tag opts).map (·.code)).Nodup ∧
      st = { settingsOf tag subnet server opts with
              others := (otherOptions tag opts).insertionSort (·.code ≤ ·.code) } := by
  simp only [deriveSettings, bind_eq_ok, settings_eq, pure_eq_ok, @eq_comm _ st]
  constructor
  · rintro ⟨_, ⟨hfit, hnodup, rfl⟩, hst⟩
    exact ⟨hfit, hnodup, hst⟩
  · rintro ⟨hfit, hnodup, hst⟩
    exact ⟨_, ⟨hfit, hnodup, rfl⟩, hst⟩

/-- Another order, in which the options of the same tag and code keep theirs. -/
structure Reordered (opts opts' : List DmOption) : Prop where
  perm : opts.Perm opts'
  keeps : ∀ g n, opts'.filter (fun o => o.tag = g && o.code = n) = opts.filter fun o => o.tag = g && o.code = n

/-- What the last option with the range's tag and this code sets. -/
def taggedSetting {β : Type} (tag : String) (code : Int) (f : DmOption → β) (opts : List DmOption) : Option β :=
  lastWrite (fun o => (o.reaches tag && o.code = code) && isTagged o) f opts

/-- The order of the options does not matter, and the tagged ones win. -/
structure TaggedWin (tag : String) (subnet : Prefix) (server : String) (opts : List DmOption)
    (st : ScopeSettings) : Prop where
  stable : ∀ opts', Reordered opts opts' → deriveSettings tag subnet server opts' = .ok st
  router : ∀ r, taggedSetting tag 3 (·.vals.headD "") opts = some r → st.router = r
  dns : ∀ v, taggedSetting tag 6 (·.vals) opts = some v → st.dns = if v = [server] then [] else v

/-- The last write of a tagged option and that of an untagged one are the same, if there are both. -/
def Agree {β : Type} (p : DmOption → Bool) (f : DmOption → β) (opts : List DmOption) : Prop :=
  (lastWrite (fun o => p o && isTagged o) f opts).or (lastWrite (fun o => p o && !isTagged o) f opts) =
    (lastWrite (fun o => p o && !isTagged o) f opts).or (lastWrite (fun o => p o && isTagged o) f opts)

/-- Tagged and untagged options agree on the router and on the DNS servers; and if the last tagged option sets the
server itself, no option sets another. -/
structure Undisputed (tag : String) (subnet : Prefix) (server : String) (opts : List DmOption) : Prop where
  router : Agree (setsRouter tag subnet) (·.vals.headD "") opts
  dns : Agree (setsDNS tag server) (·.vals) opts
  own : taggedSetting tag 6 (·.vals) opts = some [server] → lastWrite (setsDNS tag server) (·.vals) opts = none

/-- What is written where tagged and untagged options agree. -/
theorem Agree.lastWrite {β : Type} {f : DmOption → β} {p : DmOption → Bool} (h : Agree p f opts) :
    lastWrite p f opts = (lastWrite (fun o => p o && isTagged o) f opts).or
      (lastWrite (fun o => p o && !isTagged o) f opts) := by
  rcases lastWrite_cases isTagged with hlast | hlast
  · exact hlast
  · exact hlast.trans h.symm

/-- The writes of one tag and code are the same in another order. -/
theorem Reordered.lastWrite {β : Type} {f : DmOption → β} {p : DmOption → Bool} {g : String} {n : Int}
    (h : Reordered opts opts') (hp : ∀ o, p o = true → o.tag = g ∧ o.code = n) :
    lastWrite p f opts' = lastWrite p f opts := by
  have hkey : ∀ l : List DmOption, l.filter p = (l.filter fun o => o.tag = g && o.code = n).filter p := by
    intro l
    rw [filter_filter]
    refine filter_congr fun o _ => ?_
    cases ho : p o with
    | false => rfl
    | true => simp [hp o ho]
  unfold Addressbook.lastWrite
  rw [hkey opts', h.keeps, ← hkey]

/-- Where tagged and untagged options agree, the order does not matter. -/
theorem Agree.reordered {β : Type} {f : DmOption → β} {p : DmOption → Bool} {n : Int} (h : Agree p f opts)
    (hre : Reordered opts opts') (hp : ∀ o, p o = true → o.reaches tag = true ∧ o.code = n) :
    Addressbook.lastWrite p f opts' = Addressbook.lastWrite p f opts := by
  have htagged := hre.lastWrite (f := f) (p := fun o => p o && isTagged o) (g := tag) (n := n) fun o ho => by
    obtain ⟨hp', ht⟩ := Bool.and_eq_true_iff.mp ho
    obtain ⟨hreach, hn⟩ := hp o hp'
    simp only [DmOption.reaches, isTagged, Bool.or_eq_true, decide_eq_true_eq] at hreach ht
    exact ⟨hreach.resolve_left ht, hn⟩
  have huntagged := hre.lastWrite (f := f) (p := fun o => p o && !isTagged o) (g := "") (n := n) fun o ho => by
    obtain ⟨hp', ht⟩ := Bool.and_eq_true_iff.mp ho
    exact ⟨by simpa [isTagged] using ht, (hp o hp').2⟩
  have h' : Agree p f opts' := by
    unfold Agree
    rw [htagged, huntagged]
    exact h
  rw [h.lastWrite, h'.lastWrite, htagged, huntagged]

/-- The tagged options first. -/
theorem reordered_tagged_first (opts : List DmOption) :
    Reordered opts (opts.filter isTagged ++ opts.filter fun o => !isTagged o) := by
  refine ⟨(filter_append_perm isTagged opts).symm, fun g n => ?_⟩
  rw [filter_append, filter_filter, filter_filter]
  -- Options of one tag are all on one side.
  have hside : ∀ o : DmOption, o.tag = g → isTagged o = decide (g ≠ "") := fun o ho => by rw [isTagged, ho]
  have hpart : ∀ (b : Bool) (t : DmOption → Bool), (∀ o : DmOption, o.tag = g → t o = b) →
      opts.filter (fun o => (decide (o.tag = g) && decide (o.code = n)) && t o) =
        opts.filter fun o => (decide (o.tag = g) && decide (o.code = n)) && b := by
    intro b t ht
    refine filter_congr fun o _ => ?_
    by_cases ho : o.tag = g
    · rw [ht o ho]
    · simp [ho]
  rw [hpart _ _ hside, hpart (!decide (g ≠ "")) (fun o => !isTagged o) fun o ho => by rw [hside o ho]]
  cases decide (g ≠ "") <;> simp

/-- The other options of a list in another order. -/
theorem Reordered.others (h : Reordered opts opts') (hnodup : ((otherOptions tag opts).map (·.code)).Nodup) :
    ((otherOptions tag opts').map (·.code)).Nodup ∧ (otherOptions tag opts').insertionSort (·.code ≤ ·.code) =
      (otherOptions tag opts).insertionSort (·.code ≤ ·.code) := by
  have hperm : (otherOptions tag opts').Perm (otherOptions tag opts) := (h.perm.symm.filter _).map _
  have hsorted : ∀ l : List DHCPOption, (l.insertionSort (·.code ≤ ·.code)).Pairwise (·.code ≤ ·.code) := by
    have htotal : Std.Total fun a b : DHCPOption => a.code ≤ b.code := ⟨fun a b => Int.le_total a.code b.code⟩
    have htrans : IsTrans DHCPOption fun a b => a.code ≤ b.code := ⟨fun _ _ _ => Int.le_trans⟩
    exact pairwise_insertionSort _
  refine ⟨(hperm.map _).nodup_iff.mpr hnodup, List.Perm.eq_of_pairwise (fun a b ha hb hle hge => ?_) (hsorted _)
    (hsorted _) (((perm_insertionSort _ _).trans hperm).trans (perm_insertionSort _ _).symm)⟩
  rw [mem_insertionSort] at ha hb
  exact inj_on_of_nodup_map hnodup (hperm.mem_iff.mp ha) hb (Int.le_antisymm hle hge)

/-- **The order of the options does not matter and the tagged ones win, exactly if no untagged one disputes what a
tagged one sets.** -/
theorem tagged_settings_win_iff (hparsed : ∀ o ∈ opts, o.vals ≠ [])
    (h : deriveSettings tag subnet server opts = .ok st) :
    TaggedWin tag subnet server opts st ↔ Undisputed tag subnet server opts := by
  obtain ⟨hfit, hnodup, rfl⟩ := deriveSettings_eq_ok.mp h
  have hrouters : taggedSetting tag 3 (·.vals.headD "") opts =
      lastWrite (fun o => setsRouter tag subnet o && isTagged o) (·.vals.headD "") opts := by
    refine lastWrite_congr fun o ho => ?_
    rw [Bool.eq_iff_iff]
    simp only [setsRouter, Bool.and_eq_true, decide_eq_true_eq]
    constructor
    · rintro ⟨⟨hreach, hcode⟩, ht⟩
      exact ⟨⟨⟨hreach, hcode⟩, (hfit o ho hreach hcode).2.resolve_right (by simpa [isTagged] using ht)⟩, ht⟩
    · rintro ⟨⟨hreach, -⟩, ht⟩
      exact ⟨hreach, ht⟩
  have hservers : ∀ v, taggedSetting tag 6 (·.vals) opts = some v → v ≠ [server] →
      lastWrite (fun o => setsDNS tag server o && isTagged o) (·.vals) opts = some v := by
    intro v hv hne
    rw [← lastWrite_and (e := fun v => decide (v ≠ [server])) hv (by simpa using hne)]
    refine lastWrite_congr fun o _ => ?_
    unfold setsDNS
    exact Bool.and_right_comm _ _ _
  constructor
  · intro hwin
    obtain ⟨-, -, hst⟩ := deriveSettings_eq_ok.mp (hwin.stable _ (reordered_tagged_first opts))
    simp only [settingsOf, lastWrite_append, lastWrite_filter, ScopeSettings.mk.injEq] at hst
    -- With the untagged options last, what they set is what the scope gets.
    have hlast : ∀ {β : Type} {a b : Option β}, (∀ x y, a = some x → b = some y → x = y) → a.or b = b.or a := by
      intro β a b hsame
      cases a with
      | none => simp
      | some x =>
        cases b with
        | none => rfl
        | some y => rw [hsame x y rfl rfl]
    have hown : taggedSetting tag 6 (·.vals) opts = some [server] →
        lastWrite (setsDNS tag server) (·.vals) opts = none := by
      intro hserver
      have hset := hwin.dns _ hserver
      rw [if_pos rfl] at hset
      refine Option.eq_none_iff_forall_ne_some.mpr fun w hw => ?_
      -- A line has a value, so that one which counts would be seen.
      obtain ⟨x, hx, -, rfl⟩ := lastWrite_mem hw
      refine hparsed x hx ?_
      simpa [settingsOf, hw] using hset
    refine ⟨hlast fun r u hr hu => ?_, hlast fun v u hv hu => ?_, hown⟩
    · have hset : (lastWrite (setsRouter tag subnet) _ opts).getD "" = r := hwin.router r (hrouters.trans hr)
      rw [hst.1, hu] at hset
      exact hset.symm
    · obtain ⟨x, hx, hsets, -⟩ := lastWrite_mem hv
      obtain ⟨hsets, ht⟩ := Bool.and_eq_true_iff.mp hsets
      cases htagged : taggedSetting tag 6 (·.vals) opts with
      | none =>
        have hnone := lastWrite_none.mp htagged x hx
        rw [ht, Bool.and_true] at hnone
        simp [setsDNS, hnone] at hsets
      | some w =>
        by_cases hserver : w = [server]
        · rw [lastWrite_none.mp (hown (by rw [htagged, hserver])) x hx] at hsets
          cases hsets
        · have hset : (lastWrite (setsDNS tag server) _ opts).getD [] = _ := hwin.dns w htagged
          rw [hst.2.1, hu, if_neg hserver] at hset
          exact (Option.some.inj (hv.symm.trans (hservers w htagged hserver))).trans hset.symm
  · intro hundisputed
    refine ⟨fun opts' hre => ?_, fun r hr => ?_, fun v hv => ?_⟩
    · obtain ⟨hnodup', hothers⟩ := hre.others hnodup
      refine deriveSettings_eq_ok.mpr ⟨fun o ho => hfit o (hre.perm.mem_iff.mpr ho), hnodup', ?_⟩
      have hrouter := hundisputed.router.reordered (n := 3) hre fun o ho => by
        simp only [setsRouter, Bool.and_eq_true, decide_eq_true_eq] at ho
        exact ho.1
      have hdns := hundisputed.dns.reordered (n := 6) hre fun o ho => by
        simp only [setsDNS, Bool.and_eq_true, decide_eq_true_eq] at ho
        exact ho.1
      rw [settingsOf, settingsOf, hrouter, hdns, hothers]
    · show (lastWrite (setsRouter tag subnet) _ opts).getD "" = r
      rw [hundisputed.router.lastWrite, ← hrouters, hr]
      rfl
    · show (lastWrite (setsDNS tag server) _ opts).getD [] = _
      split
      · rename_i hserver
        rw [hundisputed.own (by rw [hv, hserver])]
        rfl
      · rename_i hne
        rw [hundisputed.dns.lastWrite, hservers v hv hne]
        rfl

end Settings

/-- The subnet 10.0.0.0/24. -/
def homeSubnet : Prefix := ⟨⟨.v4, 0x0a000000, "", by decide, fun _ => rfl⟩, 24, by decide, rfl⟩

/-- A tagged router and untagged DNS servers do not meet. -/
theorem tagged_settings_win_home :
    TaggedWin "home" homeSubnet "10.0.0.2" [⟨"home", 3, "ips", ["10.0.0.1"]⟩, ⟨"", 6, "ips", ["10.0.0.53"]⟩]
      ⟨"10.0.0.1", ["10.0.0.53"], []⟩ := by
  refine (tagged_settings_win_iff (by decide) (by decide +kernel)).mpr ⟨?_, ?_, ?_⟩
  · show Option.or _ _ = Option.or _ _
    decide +kernel
  · show Option.or _ _ = Option.or _ _
    decide +kernel
  · decide +kernel

/-- An untagged router after the tagged one replaces it. -/
theorem untagged_router_wins :
    ¬ ∀ opts st, (∀ o ∈ opts, o.vals ≠ []) → deriveSettings "home" homeSubnet "10.0.0.2" opts = .ok st →
      TaggedWin "home" homeSubnet "10.0.0.2" opts st := by
  intro hwin
  have h := (hwin [⟨"home", 3, "ips", ["10.0.0.1"]⟩, ⟨"", 3, "ips", ["10.0.0.254"]⟩] ⟨"10.0.0.254", [], []⟩
    (by decide) (by decide +kernel)).router "10.0.0.1" (by decide +kernel)
  exact absurd h (by decide)

end Ghostd.Proofs.Addressbook
