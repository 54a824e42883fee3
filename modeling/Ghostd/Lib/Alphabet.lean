import Ghostd.Lib.NetipText
import Ghostd.Lib.Text

/-!
# `Ghostd.Lib.Alphabet`: which characters a text can have

A text that a reader accepts, or that a printer gives, is made of few characters: digits and
separators. So a character that is neither, such as the NUL that joins the parts of a key, is
in none of them. One lemma for each reader and printer, all about a character `x` that is not a
hexadecimal digit.
-/

set_option autoImplicit false

namespace Ghostd.Lib

open List

variable {cs : List Char} {n : Nat}

/-! ### Pieces of a text -/

/-- A character other than the separator is in one of the pieces. -/
theorem mem_splitOn {α : Type} [DecidableEq α] {x sep : α} {cs : List α} (hx : x ∈ cs)
    (hne : x ≠ sep) : ∃ piece ∈ cs.splitOn sep, x ∈ piece := by
  have hsep : [sep].filter (fun c => decide (c = x)) = [] := by
    simp [Ne.symm hne]
  have hjoin := filter_intercalate hsep (cs.splitOn sep)
  rw [intercalate_splitOn] at hjoin
  have hmem : x ∈ cs.filter fun c => decide (c = x) := mem_filter.mpr ⟨hx, by simp⟩
  rw [hjoin] at hmem
  obtain ⟨kept, hkept, hx'⟩ := mem_flatten.mp hmem
  obtain ⟨piece, hpiece, rfl⟩ := mem_map.mp hkept
  exact ⟨piece, hpiece, (mem_filter.mp hx').1⟩

/-- The walk of `splitText`: what is passed over belongs to the separator. -/
theorem mem_splitFrom {d : Char} {ds : List Char} {x : Char} (hsep : x ∉ d :: ds) {skip : Nat}
    {piece : List Char} (hskip : ∀ c ∈ cs.take skip, c ∈ d :: ds) (hx : x ∈ piece ∨ x ∈ cs) :
    ∃ p ∈ splitFrom (d :: ds) skip piece cs, x ∈ p := by
  induction cs generalizing skip piece with
  | nil =>
    rcases hx with hx | hx
    · exact ⟨piece.reverse, by simp [splitFrom], mem_reverse.mpr hx⟩
    · cases hx
  | cons c cs ih =>
    cases skip with
    | succ =>
      rw [splitFrom]
      refine ih (fun e he => hskip e (by simp [he])) ?_
      rcases hx with hx | hx
      · exact Or.inl hx
      · rcases mem_cons.mp hx with rfl | hx
        · exact absurd (hskip x (by simp)) hsep
        · exact Or.inr hx
    | zero =>
      rw [splitFrom]
      split
      · rename_i hstart
        obtain ⟨rest, hrest⟩ := isPrefixOf_iff_prefix.mp hstart
        rcases hx with hx | hx
        · exact ⟨piece.reverse, mem_cons_self, mem_reverse.mpr hx⟩
        · -- A separator starts here, and its characters are the next to be passed over.
          rw [cons_append, List.cons.injEq] at hrest
          obtain ⟨rfl, hds⟩ := hrest
          have hx' : x ∈ cs := by
            rcases mem_cons.mp hx with rfl | hx
            · exact absurd mem_cons_self hsep
            · exact hx
          have hpassed : ∀ e ∈ cs.take ds.length, e ∈ d :: ds := by
            intro e he
            rw [← hds, take_left] at he
            exact mem_cons_of_mem _ he
          obtain ⟨p, hp, hxp⟩ := @ih ds.length [] hpassed (Or.inr hx')
          exact ⟨p, mem_cons_of_mem _ hp, hxp⟩
      · refine @ih 0 (c :: piece) (by simp) ?_
        rcases hx with hx | hx
        · exact Or.inl (mem_cons_of_mem _ hx)
        · rcases mem_cons.mp hx with rfl | hx
          · exact Or.inl mem_cons_self
          · exact Or.inr hx

/-- Where a reader of pieces succeeds, it has read every piece. -/
theorem mapM_some_mem {α β : Type} {f : α → Option β} {xs : List α} {ys : List β}
    (h : xs.mapM f = some ys) : ∀ x ∈ xs, ∃ y, f x = some y := by
  induction xs generalizing ys with
  | nil => simp
  | cons x xs ih =>
    simp only [mapM_cons, Option.bind_eq_bind, Option.bind_eq_some_iff] at h
    obtain ⟨y, hy, zs, hzs, -⟩ := h
    intro x' hx'
    rcases mem_cons.mp hx' with rfl | hx'
    · exact ⟨y, hy⟩
    · exact ih hzs x' hx'

/-- A text without a percent sign has no zone. -/
theorem zone_of_parseAddr {s : String} (hs : '%' ∉ s.toList) {a : Addr} (h : parseAddr s = some a) :
    a.zone = "" := by
  unfold parseAddr at h
  split at h
  · obtain ⟨n, -, rfl⟩ := Option.map_eq_some_iff.mp h
    rfl
  · simp only [readIPv6, Option.bind_eq_bind, Option.bind_eq_some_iff] at h
    obtain ⟨gs, -, h⟩ := h
    have hdrop : s.toList.dropWhile (· ≠ '%') = [] := by
      rw [dropWhile_eq_nil_iff]
      intro c hc
      refine decide_eq_true fun hpercent => hs ?_
      rwa [← hpercent]
    rw [hdrop] at h
    rw [← Option.some.inj h]
    rfl
  · cases h

/-! ### Digits -/

variable {x : Char} (hx : digitValue x = none)

include hx

theorem not_mem_of_readDigits {b acc : Nat} (h : readDigits b acc cs = some n) : x ∉ cs := by
  induction cs generalizing acc with
  | nil => simp
  | cons c cs ih =>
    rw [readDigits] at h
    intro hmem
    rcases mem_cons.mp hmem with rfl | hmem
    · rw [hx] at h
      cases h
    · split at h
      · split at h
        · exact ih h hmem
        · cases h
      · cases h

theorem not_mem_hexByte (n : Nat) : x ∉ hexByte n := by
  have hdigit : ∀ d, d < 16 → x ≠ d.digitChar := by
    intro d hd heq
    rw [heq, digitValue_digitChar hd] at hx
    cases hx
  simp only [hexByte, mem_cons, not_mem_nil, or_false, not_or]
  exact ⟨hdigit _ (by omega), hdigit _ (by omega)⟩

theorem not_mem_encodeHex (bytes : List Nat) : x ∉ (encodeHex bytes).toList := by
  rw [encodeHex, String.toList_ofList]
  intro hmem
  obtain ⟨n, -, hn⟩ := mem_flatMap.mp hmem
  exact not_mem_hexByte hx n hn

theorem not_mem_macText (hcolon : x ≠ ':') (bytes : List Nat) : x ∉ (macText bytes).toList := by
  rw [macText, String.toList_ofList]
  intro hmem
  have hsep : [':'].filter (fun c => decide (c = x)) = [] := by
    simp [Ne.symm hcolon]
  have hkept : x ∈ ([':'].intercalate (bytes.map hexByte)).filter fun c => decide (c = x) :=
    mem_filter.mpr ⟨hmem, by simp⟩
  rw [filter_intercalate hsep] at hkept
  obtain ⟨kept, hk, hxk⟩ := mem_flatten.mp hkept
  obtain ⟨byte, hbyte, rfl⟩ := mem_map.mp hk
  obtain ⟨n, -, rfl⟩ := mem_map.mp hbyte
  exact not_mem_hexByte hx n (mem_filter.mp hxk).1

/-! ### Addresses and prefixes -/

theorem not_mem_of_readDecimal (h : readDecimal cs = some n) : x ∉ cs := by
  unfold readDecimal at h
  split at h
  · cases h
  · exact not_mem_of_readDigits hx h

theorem not_mem_of_readIPv4 (hdot : x ≠ '.') (h : readIPv4 cs = some n) : x ∉ cs := by
  intro hmem
  obtain ⟨piece, hpiece, hxp⟩ := mem_splitOn hmem hdot
  unfold readIPv4 at h
  split at h
  · rename_i a b c d hsplit
    simp only [Option.bind_eq_bind, Option.bind_eq_some_iff, readOctet, Option.filter_eq_some_iff] at h
    obtain ⟨va, ⟨ha, -⟩, vb, ⟨hb, -⟩, vc, ⟨hc, -⟩, vd, ⟨hd, -⟩, -⟩ := h
    rw [hsplit] at hpiece
    simp only [mem_cons, not_mem_nil, or_false] at hpiece
    rcases hpiece with rfl | rfl | rfl | rfl
    · exact not_mem_of_readDecimal hx ha hxp
    · exact not_mem_of_readDecimal hx hb hxp
    · exact not_mem_of_readDecimal hx hc hxp
    · exact not_mem_of_readDecimal hx hd hxp
  · cases h

theorem not_mem_of_readGroup (h : readGroup cs = some n) : x ∉ cs := by
  unfold readGroup at h
  split at h
  · cases h
  · exact not_mem_of_readDigits hx h

theorem not_mem_of_readGroups (hdot : x ≠ '.') {fs : List (List Char)} {gs : List Nat}
    (h : readGroups fs = some gs) : ∀ f ∈ fs, x ∉ f := by
  induction fs using readGroups.induct generalizing gs with
  | case1 => simp
  | case2 f hf =>
    rw [readGroups, if_pos hf, Option.map_eq_some_iff] at h
    obtain ⟨n, hn, -⟩ := h
    intro g hg
    rw [mem_singleton.mp hg]
    exact not_mem_of_readIPv4 hx hdot hn
  | case3 f hf =>
    rw [readGroups, if_neg hf, Option.map_eq_some_iff] at h
    obtain ⟨n, hn, -⟩ := h
    intro g hg
    rw [mem_singleton.mp hg]
    exact not_mem_of_readGroup hx hn
  | case4 f rest hrest ih =>
    rw [readGroups] at h
    · simp only [Option.bind_eq_bind, Option.bind_eq_some_iff] at h
      obtain ⟨n, hn, ms, hms, -⟩ := h
      intro g hg
      rcases mem_cons.mp hg with rfl | hg
      · exact not_mem_of_readGroup hx hn
      · exact ih hms g hg
    · exact hrest

omit hx in
theorem splitEllipsis_eq {l r : List Char} (h : splitEllipsis cs = some (l, r)) :
    cs = l ++ [':', ':'] ++ r := by
  induction cs using splitEllipsis.induct generalizing l r with
  | case1 =>
    simp only [splitEllipsis, Option.some.injEq, Prod.mk.injEq] at h
    rw [← h.1, ← h.2]
    rfl
  | case2 c rest hne ih =>
    rw [splitEllipsis] at h
    · obtain ⟨⟨l', r'⟩, hp, heq⟩ := Option.map_eq_some_iff.mp h
      simp only [Prod.mk.injEq] at heq
      rw [← heq.1, ← heq.2, ih hp]
      rfl
    · exact hne
  | case3 => simp [splitEllipsis] at h

omit hx in
theorem not_mem_of_colonFields (hcolon : x ≠ ':') (h : ∀ f ∈ colonFields cs, x ∉ f) : x ∉ cs := by
  intro hmem
  obtain ⟨piece, hpiece, hxp⟩ := mem_splitOn hmem hcolon
  unfold colonFields at h
  split at h
  · rename_i hnil
    rw [hnil] at hmem
    cases hmem
  · exact h piece hpiece hxp

theorem not_mem_of_readIPv6Groups (hdot : x ≠ '.') (hcolon : x ≠ ':') {gs : List Nat}
    (h : readIPv6Groups cs = some gs) : x ∉ cs := by
  unfold readIPv6Groups at h
  split at h
  · intro hmem
    obtain ⟨piece, hpiece, hxp⟩ := mem_splitOn hmem hcolon
    exact not_mem_of_readGroups hx hdot (Option.filter_eq_some_iff.mp h).1 piece hpiece hxp
  · rename_i l r hsplit
    simp only [Option.bind_eq_bind, Option.bind_eq_some_iff] at h
    obtain ⟨gl, hgl, gr, hgr, -⟩ := h
    have hleft : x ∉ l := by
      refine not_mem_of_colonFields hcolon fun f hf => ?_
      obtain ⟨n, hn⟩ := mapM_some_mem hgl f hf
      exact not_mem_of_readGroup hx hn
    have hright : x ∉ r := not_mem_of_colonFields hcolon (not_mem_of_readGroups hx hdot hgr)
    rw [splitEllipsis_eq hsplit]
    simp [hleft, hright, hcolon]

/-- A text that parses to an address without a zone is made of digits, dots and colons. -/
theorem not_mem_of_parseAddr (hdot : x ≠ '.') (hcolon : x ≠ ':') {s : String} {a : Addr}
    (h : parseAddr s = some a) (hzone : a.zone = "") : x ∉ s.toList := by
  unfold parseAddr at h
  split at h
  · obtain ⟨n, hn, -⟩ := Option.map_eq_some_iff.mp h
    exact not_mem_of_readIPv4 hx hdot hn
  · simp only [readIPv6, Option.bind_eq_bind, Option.bind_eq_some_iff] at h
    obtain ⟨gs, hgs, h⟩ := h
    have hbody := not_mem_of_readIPv6Groups hx hdot hcolon hgs
    split at h
    · rename_i hdrop
      -- Nothing follows the groups, so they are the whole text.
      have hwhole := takeWhile_append_dropWhile (p := fun c => decide (c ≠ '%')) (l := s.toList)
      rw [hdrop, append_nil] at hwhole
      rwa [hwhole] at hbody
    · cases h
    · rename_i c zone hne hdrop
      have hzone' : String.ofList zone = "" := by
        rw [← hzone, ← Option.some.inj h]
      have hnil : zone = [] := by
        have := congrArg String.toList hzone'
        simpa using this
      exact absurd hnil hne
  · cases h

theorem not_mem_prefixText (hdot : x ≠ '.') (hcolon : x ≠ ':') (hslash : x ≠ '/') (p : Prefix) :
    x ∉ p.text.toList := by
  rw [Prefix.text, String.toList_ofList]
  have haddr : x ∉ p.addr.chars := by
    have htext := Addr.not_mem_text p.no_zone hx hdot hcolon
    rwa [Addr.text, String.toList_ofList] at htext
  have hbits := not_mem_toDigits hx (b := 10) (by omega) (by omega) p.bits
  simp [haddr, hbits, hslash]

end Ghostd.Lib
