import Ghostd.Lib.Netip
import Mathlib.Data.List.TakeWhile

/-!
# `Ghostd.Lib.NetipText`: parsing undoes printing

`parseAddr_text` and `parsePrefix_text`: every address and every prefix is read back from its
text. So the text is injective, and a text is canonical when it is the text of what it parses
to. `not_mem_chars` says which characters an address without a zone is made of.
-/

set_option autoImplicit false

namespace Ghostd.Lib

open List

variable {gs : List Nat} {c x : Char} {a : Addr} {n : Nat}

/-! ### Digits -/

/-- A character that is no digit does not occur in a number. -/
theorem not_mem_toDigits (hx : digitValue x = none) {b : Nat} (hb : 1 < b) (hb16 : b ≤ 16) (n : Nat) :
    x ∉ Nat.toDigits b n := by
  intro hmem
  obtain ⟨d, hd⟩ := digitValue_of_mem_toDigits hb hb16 hmem
  rw [hx] at hd
  cases hd

/-- A number has none of the characters that tell the forms of an address apart. -/
theorem find?_toDigits {b : Nat} (hb : 1 < b) (hb16 : b ≤ 16) (n : Nat) :
    (Nat.toDigits b n).find? (fun c => c = '.' || c = ':' || c = '%') = none := by
  rw [List.find?_eq_none]
  intro c hc hsep
  have hnot : ∀ x, digitValue x = none → c ≠ x := by
    intro x hx h
    exact not_mem_toDigits hx hb hb16 n (h ▸ hc)
  simp [hnot '.' (by decide), hnot ':' (by decide), hnot '%' (by decide)] at hsep

theorem readOctet_toDigits (hn : n < 256) : readOctet (Nat.toDigits 10 n) = some n := by
  simp [readOctet, readDecimal_toDigits, hn]

theorem readGroup_toDigits (hn : n < 65536) : readGroup (Nat.toDigits 16 n) = some n := by
  have hlen : (Nat.toDigits 16 n).length ≤ 4 :=
    (Nat.length_toDigits_le_iff (by omega) (by omega)).mpr (by omega)
  unfold readGroup
  rw [if_neg ?_, readDigits_toDigits (by omega) (by omega)]
  intro h
  rcases h with h | h
  · exact Nat.toDigits_ne_nil h
  · omega

/-! ### IPv4 -/

theorem splitOn_printIPv4 (n : Nat) :
    (printIPv4 n).splitOn '.' =
      [Nat.toDigits 10 (n / 2 ^ 24 % 256), Nat.toDigits 10 (n / 2 ^ 16 % 256),
        Nat.toDigits 10 (n / 2 ^ 8 % 256), Nat.toDigits 10 (n % 256)] := by
  refine splitOn_intercalate '.' ?_ (by simp)
  intro l hl
  simp only [mem_cons, not_mem_nil, or_false] at hl
  rcases hl with rfl | rfl | rfl | rfl <;> exact not_mem_toDigits (by decide) (by omega) (by omega) _

theorem readIPv4_printIPv4 (hn : n < 2 ^ 32) : readIPv4 (printIPv4 n) = some n := by
  have hoctet : ∀ m, readOctet (Nat.toDigits 10 (m % 256)) = some (m % 256) := fun m =>
    readOctet_toDigits (Nat.mod_lt _ (by omega))
  unfold readIPv4
  rw [splitOn_printIPv4]
  simp only [hoctet, Option.bind_eq_bind, Option.bind_some, Option.pure_def, ofOctets,
    Option.some.injEq]
  omega

/-- The first separator of a dotted address is a dot. -/
theorem find?_printIPv4 (n : Nat) (rest : List Char) :
    (printIPv4 n ++ rest).find? (fun c => c = '.' || c = ':' || c = '%') = some '.' := by
  simp only [printIPv4, intercalate_cons_cons, append_assoc, List.find?_append,
    find?_toDigits (b := 10) (by omega) (by omega)]
  rfl

/-! ### Groups -/

theorem printGroups_cons_cons (x y : Nat) (gs : List Nat) :
    printGroups (x :: y :: gs) = Nat.toDigits 16 x ++ ':' :: printGroups (y :: gs) := by
  simp [printGroups, intercalate_cons_cons]

theorem printGroups_singleton (x : Nat) : printGroups [x] = Nat.toDigits 16 x := by
  simp [printGroups]

/-- A printed list of groups starts with a digit. -/
theorem printGroups_cons_head (x : Nat) (gs : List Nat) :
    ∃ c cs, printGroups (x :: gs) = c :: cs ∧ c ≠ ':' := by
  have hdigit : ∃ c cs, Nat.toDigits 16 x = c :: cs ∧ c ≠ ':' := by
    cases hd : Nat.toDigits 16 x with
    | nil => exact absurd hd Nat.toDigits_ne_nil
    | cons c cs =>
      refine ⟨c, cs, rfl, ?_⟩
      intro hc
      refine not_mem_toDigits (x := ':') (by decide) (b := 16) (by omega) (by omega) x ?_
      rw [hd, hc]
      exact mem_cons_self
  obtain ⟨c, cs, hx, hc⟩ := hdigit
  cases gs with
  | nil => exact ⟨c, cs, by rw [printGroups_singleton, hx], hc⟩
  | cons y gs => exact ⟨c, cs ++ ':' :: printGroups (y :: gs), by rw [printGroups_cons_cons, hx]; rfl, hc⟩

theorem splitOn_printGroups (hne : gs ≠ []) : (printGroups gs).splitOn ':' = gs.map (Nat.toDigits 16) := by
  refine splitOn_intercalate ':' ?_ (by simpa using hne)
  intro l hl
  obtain ⟨x, -, rfl⟩ := mem_map.mp hl
  exact not_mem_toDigits (by decide) (by omega) (by omega) x

theorem colonFields_printGroups (gs : List Nat) :
    colonFields (printGroups gs) = gs.map (Nat.toDigits 16) := by
  cases gs with
  | nil => rfl
  | cons x gs =>
    obtain ⟨c, cs, hcs, -⟩ := printGroups_cons_head x gs
    unfold colonFields
    rw [if_neg (by rw [hcs]; simp), splitOn_printGroups (by simp)]

theorem mapM_readGroup (hgs : ∀ g ∈ gs, g < 65536) : (gs.map (Nat.toDigits 16)).mapM readGroup = some gs := by
  induction gs with
  | nil => rfl
  | cons x gs ih =>
    simp [readGroup_toDigits (hgs x (by simp)), ih fun g hg => hgs g (by simp [hg])]

theorem readGroups_toDigits (hgs : ∀ g ∈ gs, g < 65536) : readGroups (gs.map (Nat.toDigits 16)) = some gs := by
  have hdot : ∀ x, '.' ∉ Nat.toDigits 16 x := fun x =>
    not_mem_toDigits (by decide) (by omega) (by omega) x
  induction gs with
  | nil => rfl
  | cons x gs ih =>
    have hx := readGroup_toDigits (hgs x (by simp))
    cases gs with
    | nil => simp [readGroups, hdot, hx]
    | cons =>
      have hrest := ih fun g hg => hgs g (by simp [hg])
      simp only [map_cons] at hrest ⊢
      simp [readGroups, hx, hrest]

/-! ### The ellipsis -/

/-- Text without a colon is passed over. -/
theorem splitEllipsis_append {ds : List Char} (hds : ':' ∉ ds) (rest : List Char) :
    splitEllipsis (ds ++ rest) = (splitEllipsis rest).map fun p => (ds ++ p.1, p.2) := by
  induction ds with
  | nil => simp
  | cons c ds ih =>
    have hc : c ≠ ':' := fun h => hds (by simp [h])
    have hstep : splitEllipsis (c :: (ds ++ rest))
        = (splitEllipsis (ds ++ rest)).map fun p => (c :: p.1, p.2) := by
      rw [splitEllipsis]
      intro _ h
      exact absurd h hc
    rw [cons_append, hstep, ih fun h => hds (by simp [h]), Option.map_map]
    rfl

/-- A single colon is passed over. -/
theorem splitEllipsis_colon (hc : c ≠ ':') (rest : List Char) :
    splitEllipsis (':' :: c :: rest) = (splitEllipsis (c :: rest)).map fun p => (':' :: p.1, p.2) := by
  rw [splitEllipsis]
  intro _ _ h
  exact absurd (List.cons.inj h).1 hc

/-- Printed groups have no ellipsis of their own. -/
theorem splitEllipsis_printGroups (gs : List Nat) (rest : List Char) :
    splitEllipsis (printGroups gs ++ rest)
      = (splitEllipsis rest).map fun p => (printGroups gs ++ p.1, p.2) := by
  have hcolon : ∀ x, ':' ∉ Nat.toDigits 16 x := fun x =>
    not_mem_toDigits (by decide) (by omega) (by omega) x
  induction gs with
  | nil => simp [printGroups]
  | cons x gs ih =>
    cases gs with
    | nil => rw [printGroups_singleton, splitEllipsis_append (hcolon x)]
    | cons y gs =>
      obtain ⟨c, cs, hcs, hc⟩ := printGroups_cons_head y gs
      rw [printGroups_cons_cons, append_assoc, splitEllipsis_append (hcolon x),
        cons_append, hcs, cons_append, splitEllipsis_colon hc, ← cons_append,
        ← hcs, ih, Option.map_map, Option.map_map]
      congr 1
      funext p
      simp

/-! ### The run of zeros -/

theorem betterRun_spec {best : Option (Nat × Nat)} {i : Nat}
    (hbest : ∀ r, best = some r → 2 ≤ r.2 ∧ r.2 = zerosAt gs r.1) :
    ∀ r, betterRun gs best i = some r → 2 ≤ r.2 ∧ r.2 = zerosAt gs r.1 := by
  intro r hr
  unfold betterRun at hr
  split at hr
  · rename_i h
    rw [← Option.some.inj hr]
    exact ⟨h.1, rfl⟩
  · exact hbest r hr

/-- The run found has at least two groups and is all the zeros from where it starts. -/
theorem longestRun_spec {r : Nat × Nat} (hr : longestRun gs = some r) : 2 ≤ r.2 ∧ r.2 = zerosAt gs r.1 := by
  have hfold : ∀ (is : List Nat) (best : Option (Nat × Nat)),
      (∀ r, best = some r → 2 ≤ r.2 ∧ r.2 = zerosAt gs r.1) →
      ∀ r, is.foldl (betterRun gs) best = some r → 2 ≤ r.2 ∧ r.2 = zerosAt gs r.1 := by
    intro is
    induction is with
    | nil =>
      intro best hbest
      exact hbest
    | cons i is ih =>
      intro best hbest
      exact ih _ (betterRun_spec hbest)
  exact hfold _ none (by simp) r hr

/-- The groups are what is printed before the run, the run, and what is printed behind it. -/
theorem groups_eq_run (gs : List Nat) (i : Nat) :
    gs = gs.take i ++ List.replicate (zerosAt gs i) 0 ++ gs.drop (i + zerosAt gs i) := by
  have hzeros : (gs.drop i).takeWhile (· = 0) = List.replicate (zerosAt gs i) 0 := by
    refine eq_replicate_iff.mpr ⟨rfl, ?_⟩
    intro x hx
    simpa using mem_takeWhile_imp hx
  have hrest : (gs.drop i).dropWhile (· = 0) = gs.drop (i + zerosAt gs i) := by
    rw [← drop_drop]
    conv_rhs => rw [← takeWhile_append_dropWhile (p := (· = 0)) (l := gs.drop i)]
    exact (drop_left' rfl).symm
  rw [← hzeros, ← hrest, append_assoc, takeWhile_append_dropWhile, take_append_drop]

theorem readIPv6Groups_printIPv6 (hlen : gs.length = 8) (hgs : ∀ g ∈ gs, g < 65536) :
    readIPv6Groups (printIPv6 gs) = some gs := by
  have hne : gs ≠ [] := by
    intro h
    rw [h] at hlen
    cases hlen
  unfold printIPv6
  cases hrun : longestRun gs with
  | none =>
    have hsplit := splitEllipsis_printGroups gs []
    rw [append_nil] at hsplit
    simp only [readIPv6Groups, hsplit, splitEllipsis, Option.map_none, splitOn_printGroups hne,
      readGroups_toDigits hgs]
    simp [hlen]
  | some r =>
    obtain ⟨i, len⟩ := r
    obtain ⟨htwo, hzeros⟩ := longestRun_spec hrun
    simp only at htwo hzeros
    have hparts := groups_eq_run gs i
    rw [← hzeros] at hparts
    have hleft : ((gs.take i).map (Nat.toDigits 16)).mapM readGroup = some (gs.take i) :=
      mapM_readGroup fun g hg => hgs g (mem_of_mem_take hg)
    have hright : readGroups ((gs.drop (i + len)).map (Nat.toDigits 16)) = some (gs.drop (i + len)) :=
      readGroups_toDigits fun g hg => hgs g (mem_of_mem_drop hg)
    have hsplit := splitEllipsis_printGroups (gs.take i) (':' :: ':' :: printGroups (gs.drop (i + len)))
    -- The run is not empty, so it lies within the eight groups.
    have hcount : (gs.take i).length + len + (gs.drop (i + len)).length = 8 := by
      have := congrArg List.length hparts
      simp only [length_append, length_replicate] at this
      omega
    simp only [readIPv6Groups, append_assoc, cons_append, nil_append, hsplit,
      splitEllipsis, Option.map_some, append_nil, colonFields_printGroups, hleft, hright,
      Option.bind_eq_bind, Option.bind_some]
    rw [if_pos (by omega)]
    have hgap : 8 - ((gs.take i).length + (gs.drop (i + len)).length) = len := by omega
    rw [hgap, Option.pure_def, Option.some.injEq, ← append_assoc]
    exact hparts.symm

/-! ### Addresses -/

theorem ofGroups_groupsOf (hn : n < 2 ^ 128) : ofGroups (groupsOf n) = n := by
  simp only [ofGroups, groupsOf, List.range, List.range.loop, map_cons, map_nil,
    foldl_cons, foldl_nil]
  omega

theorem groupsOf_lt (n : Nat) : ∀ g ∈ groupsOf n, g < 65536 := by
  intro g hg
  obtain ⟨i, -, rfl⟩ := mem_map.mp hg
  exact Nat.mod_lt _ (by omega)

/-- The text of an address without its zone. -/
def Addr.body (a : Addr) : List Char :=
  match a.family with
  | .v4 => printIPv4 a.value
  | .v6 =>
    if a.is4In6 then [':', ':', 'f', 'f', 'f', 'f', ':'] ++ printIPv4 (a.value % 2 ^ 32)
    else printIPv6 (groupsOf a.value)

theorem Addr.chars_eq (a : Addr) :
    a.chars = a.body ++ (if a.zone = "" then [] else '%' :: a.zone.toList) := by
  unfold Addr.chars Addr.body
  by_cases hz : a.zone = ""
  · have hnone : (if a.zone = "" then [] else '%' :: a.zone.toList) = [] := if_pos hz
    rw [hnone, append_nil]
    exact if_pos hz
  · have hsome : (if a.zone = "" then [] else '%' :: a.zone.toList) = '%' :: a.zone.toList := if_neg hz
    rw [hsome]
    exact if_neg hz

theorem mem_printIPv4 (hc : c ∈ printIPv4 n) : (digitValue c).isSome ∨ c = '.' := by
  have hdigit : ∀ m, c ∈ Nat.toDigits 10 m → (digitValue c).isSome := by
    intro m hm
    obtain ⟨d, hd⟩ := digitValue_of_mem_toDigits (by omega) (by omega) hm
    rw [hd]
    rfl
  simp only [printIPv4, intercalate_cons_cons, intercalate_singleton, mem_append,
    mem_singleton] at hc
  rcases hc with (h | h) | (h | h) | (h | h) | h
  · exact Or.inl (hdigit _ h)
  · exact Or.inr h
  · exact Or.inl (hdigit _ h)
  · exact Or.inr h
  · exact Or.inl (hdigit _ h)
  · exact Or.inr h
  · exact Or.inl (hdigit _ h)

theorem mem_printGroups (hc : c ∈ printGroups gs) : (digitValue c).isSome ∨ c = ':' := by
  induction gs with
  | nil => simp [printGroups] at hc
  | cons x gs ih =>
    have hdigit : c ∈ Nat.toDigits 16 x → (digitValue c).isSome := by
      intro hm
      obtain ⟨d, hd⟩ := digitValue_of_mem_toDigits (by omega) (by omega) hm
      rw [hd]
      rfl
    cases gs with
    | nil =>
      rw [printGroups_singleton] at hc
      exact Or.inl (hdigit hc)
    | cons =>
      rw [printGroups_cons_cons, mem_append, mem_cons] at hc
      rcases hc with h | h | h
      · exact Or.inl (hdigit h)
      · exact Or.inr h
      · exact ih h

/-- An address without its zone is made of digits, dots and colons. -/
theorem Addr.mem_body (hc : c ∈ a.body) : (digitValue c).isSome ∨ c = '.' ∨ c = ':' := by
  unfold Addr.body at hc
  split at hc
  · rcases mem_printIPv4 hc with h | h
    · exact Or.inl h
    · exact Or.inr (Or.inl h)
  · split at hc
    · rcases mem_append.mp hc with h | h
      · simp only [mem_cons, not_mem_nil, or_false] at h
        rcases h with rfl | rfl | rfl | rfl | rfl | rfl | rfl <;> decide
      · rcases mem_printIPv4 h with h | h
        · exact Or.inl h
        · exact Or.inr (Or.inl h)
    · unfold printIPv6 at hc
      split at hc
      · rcases mem_printGroups hc with h | h
        · exact Or.inl h
        · exact Or.inr (Or.inr h)
      · simp only [mem_append, mem_cons, not_mem_nil, or_false, or_self] at hc
        rcases hc with (h | h) | h
        · rcases mem_printGroups h with h | h
          · exact Or.inl h
          · exact Or.inr (Or.inr h)
        · exact Or.inr (Or.inr h)
        · rcases mem_printGroups h with h | h
          · exact Or.inl h
          · exact Or.inr (Or.inr h)

theorem Addr.not_mem_body (hx : digitValue x = none) (hdot : x ≠ '.') (hcolon : x ≠ ':') : x ∉ a.body := by
  intro hmem
  rcases a.mem_body hmem with h | h | h
  · rw [hx] at h
    cases h
  · exact hdot h
  · exact hcolon h

/-- The first separator of an IPv6 address is a colon. -/
theorem find?_printIPv6 (hlen : gs.length = 8) (rest : List Char) :
    (printIPv6 gs ++ rest).find? (fun c => c = '.' || c = ':' || c = '%') = some ':' := by
  have hfirst : ∀ (x : Nat) (more : List Char),
      (Nat.toDigits 16 x ++ ':' :: more).find? (fun c => c = '.' || c = ':' || c = '%') = some ':' := by
    intro x more
    rw [List.find?_append, find?_toDigits (by omega) (by omega)]
    rfl
  have hgroups : ∀ (gs : List Nat) (more : List Char),
      (printGroups gs ++ ':' :: more).find? (fun c => c = '.' || c = ':' || c = '%') = some ':' := by
    intro gs more
    cases gs with
    | nil => rfl
    | cons x gs =>
      cases gs with
      | nil => rw [printGroups_singleton, hfirst]
      | cons => rw [printGroups_cons_cons, append_assoc, cons_append, hfirst]
  unfold printIPv6
  split
  · match gs, hlen with
    | x :: y :: gs, _ => rw [printGroups_cons_cons, append_assoc, cons_append, hfirst]
  · rw [append_assoc, append_assoc, cons_append, hgroups]

/-- What `readIPv6` makes of groups and a zone. -/
theorem readIPv6_body (hf : a.family = .v6) (hgs : readIPv6Groups a.body = some gs) (hv : ofGroups gs = a.value) :
    readIPv6 a.chars = some a := by
  have hper : ∀ c ∈ a.body, decide (c ≠ '%') = true := by
    intro c hc
    have : c ≠ '%' := by
      rintro rfl
      exact a.not_mem_body (by decide) (by decide) (by decide) hc
    simpa using this
  have hvalue : ofGroups gs % 2 ^ Family.bits .v6 = a.value := by
    rw [hv, Nat.mod_eq_of_lt]
    have := a.value_lt
    rwa [hf] at this
  rw [Addr.chars_eq]
  unfold readIPv6
  by_cases hz : a.zone = ""
  · rw [if_pos hz, append_nil, takeWhile_eq_self_iff.mpr hper,
      dropWhile_eq_nil_iff.mpr hper, hgs]
    simp only [Option.bind_eq_bind, Option.bind_some, Option.pure_def, Option.some.injEq]
    exact Addr.ext' hf.symm hvalue hz.symm
  · rw [if_neg hz, takeWhile_append_of_pos hper, dropWhile_append_of_pos hper]
    have hzone : a.zone.toList ≠ [] := by simpa using hz
    have htake : ('%' :: a.zone.toList).takeWhile (fun c => decide (c ≠ '%')) = [] := by simp
    have hdrop : ('%' :: a.zone.toList).dropWhile (fun c => decide (c ≠ '%'))
        = '%' :: a.zone.toList := by simp
    rw [htake, hdrop, append_nil, hgs]
    simp only [Option.bind_eq_bind, Option.bind_some]
    cases hl : a.zone.toList with
    | nil => exact absurd hl hzone
    | cons c cs =>
      simp only [Option.pure_def, Option.some.injEq]
      refine Addr.ext' hf.symm hvalue ?_
      show String.ofList (c :: cs) = a.zone
      rw [← hl, String.ofList_toList]

/-- The groups of an IPv4-mapped address. -/
theorem readIPv6Groups_mapped (hn : n < 2 ^ 32) :
    readIPv6Groups (':' :: ':' :: 'f' :: 'f' :: 'f' :: 'f' :: ':' :: printIPv4 n)
      = some [0, 0, 0, 0, 0, 0xffff, n / 65536, n % 65536] := by
  have hcolon : ':' ∉ printIPv4 n := by
    intro h
    rcases mem_printIPv4 h with h | h
    · exact absurd h (by decide)
    · exact absurd h (by decide)
  have hjoin : 'f' :: 'f' :: 'f' :: 'f' :: ':' :: printIPv4 n
      = [':'].intercalate [['f', 'f', 'f', 'f'], printIPv4 n] := by
    simp [intercalate_cons_cons]
  have hfields : colonFields ('f' :: 'f' :: 'f' :: 'f' :: ':' :: printIPv4 n)
      = [['f', 'f', 'f', 'f'], printIPv4 n] := by
    unfold colonFields
    rw [if_neg (by simp), hjoin]
    refine splitOn_intercalate ':' ?_ (by simp)
    intro l hl
    simp only [mem_cons, not_mem_nil, or_false] at hl
    rcases hl with rfl | rfl
    · decide
    · exact hcolon
  have hdot : '.' ∈ printIPv4 n := by simp [printIPv4, intercalate_cons_cons]
  have hffff : readGroup ['f', 'f', 'f', 'f'] = some 0xffff := by decide
  simp only [readIPv6Groups, splitEllipsis, hfields, readGroups, hffff, hdot, if_pos,
    readIPv4_printIPv4 hn]
  rfl

/-- The address of a text that starts with a colon or a group. -/
theorem parseAddr_of_colon {s : String}
    (hs : s.toList.find? (fun c => c = '.' || c = ':' || c = '%') = some ':') :
    parseAddr s = readIPv6 s.toList := by
  unfold parseAddr
  rw [hs]
  rfl

theorem parseAddr_text_v4 (hf : a.family = .v4) : parseAddr a.text = some a := by
  have hz : a.zone = "" := a.zone_v4 hf
  have hvalue : a.value < 2 ^ 32 := by
    have := a.value_lt
    rwa [hf] at this
  have hchars : a.chars = printIPv4 a.value := by simp [Addr.chars, hf, hz]
  have hfind := find?_printIPv4 a.value []
  rw [append_nil] at hfind
  unfold parseAddr Addr.text
  rw [String.toList_ofList, hchars, hfind]
  simp only [readIPv4_printIPv4 hvalue, Option.map_some, Option.some.injEq]
  refine Addr.ext' hf.symm ?_ hz.symm
  show a.value % 2 ^ 32 = a.value
  exact Nat.mod_eq_of_lt hvalue

theorem parseAddr_text_v6 (hf : a.family = .v6) : parseAddr a.text = some a := by
  have hvalue : a.value < 2 ^ 128 := by
    have := a.value_lt
    rwa [hf] at this
  have htext : a.text.toList = a.chars := String.toList_ofList
  by_cases h46 : a.is4In6 = true
  · have hbody : a.body
        = ':' :: ':' :: 'f' :: 'f' :: 'f' :: 'f' :: ':' :: printIPv4 (a.value % 2 ^ 32) := by
      simp [Addr.body, hf, h46]
    have hhigh : a.value / 2 ^ 32 = 0xffff := by
      simpa [Addr.is4In6, Addr.is6, hf] using h46
    rw [parseAddr_of_colon (by rw [htext, Addr.chars_eq, hbody]; rfl), htext]
    refine readIPv6_body hf (by rw [hbody]; exact readIPv6Groups_mapped (Nat.mod_lt _ (by omega))) ?_
    simp only [ofGroups, foldl_cons, foldl_nil]
    omega
  · have hlen : (groupsOf a.value).length = 8 := by simp [groupsOf]
    have hbody : a.body = printIPv6 (groupsOf a.value) := by simp [Addr.body, hf, h46]
    rw [parseAddr_of_colon (by rw [htext, Addr.chars_eq, hbody, find?_printIPv6 hlen]), htext]
    refine readIPv6_body hf ?_ (ofGroups_groupsOf hvalue)
    rw [hbody]
    exact readIPv6Groups_printIPv6 hlen (groupsOf_lt a.value)

/-- Every address is read back from its text. -/
theorem parseAddr_text (a : Addr) : parseAddr a.text = some a := by
  cases hf : a.family with
  | v4 => exact parseAddr_text_v4 hf
  | v6 => exact parseAddr_text_v6 hf

/-- An address without a zone is made of digits, dots and colons. -/
theorem Addr.not_mem_text (hz : a.zone = "") (hx : digitValue x = none) (hdot : x ≠ '.') (hcolon : x ≠ ':') :
    x ∉ a.text.toList := by
  rw [Addr.text, String.toList_ofList, Addr.chars_eq, if_pos hz, append_nil]
  exact a.not_mem_body hx hdot hcolon

/-! ### Prefixes -/

theorem splitSlash_append {l r : List Char} (hr : '/' ∉ r) : splitSlash (l ++ '/' :: r) = some (l, r) := by
  have htail : (l ++ '/' :: r).reverse.takeWhile (· ≠ '/') = r.reverse := by
    have hall : ∀ c ∈ r.reverse, decide (c ≠ '/') = true := by
      intro c hc
      have : c ≠ '/' := fun h => hr (by rw [← h]; exact mem_reverse.mp hc)
      simpa using this
    rw [reverse_append, reverse_cons, append_assoc,
      takeWhile_append_of_pos hall]
    simp
  unfold splitSlash
  rw [if_pos (by simp)]
  have hcount : l.length + (r.length + 1) - r.length - 1 = l.length := by omega
  simp only [htail, reverse_reverse, length_append, length_cons, hcount]
  rw [take_left']
  rfl

/-- Every prefix is read back from its text. -/
theorem parsePrefix_text (p : Prefix) : parsePrefix p.text = some p := by
  have hslash : '/' ∉ Nat.toDigits 10 p.bits := not_mem_toDigits (by decide) (by omega) (by omega) _
  unfold parsePrefix Prefix.text
  have haddr : parseAddr (String.ofList p.addr.chars) = some p.addr := parseAddr_text p.addr
  rw [String.toList_ofList, splitSlash_append hslash]
  simp only [Option.bind_eq_bind, Option.bind_some, haddr, readDecimal_toDigits,
    p.bits_le, p.no_zone, and_self, dif_pos, Option.pure_def]

end Ghostd.Lib
