import Ghostd.Lib.Numeral
import Ghostd.Lib.Text

/-!
# `Ghostd.Lib.Hex`: hexadecimal texts read back

Two digits for each byte, as `encoding/hex` writes them, and the same behind colons for a hardware
address. Both read back (`decodeHex_encodeHex`, `parseMAC_macText`), and every digit is one byte in
lower case.
-/

set_option autoImplicit false

namespace Ghostd.Lib

open List

theorem readHexBytes_encode {bytes : List Nat} (h : ∀ b ∈ bytes, b < 256) :
    readHexBytes (bytes.flatMap hexByte) = some bytes := by
  induction bytes with
  | nil => rfl
  | cons b bytes ih =>
    have hb := h b mem_cons_self
    have hrest := ih fun b' hb' => h b' (mem_cons_of_mem _ hb')
    have hhigh : digitValue (b / 16 % 16).digitChar = some (b / 16 % 16) :=
      digitValue_digitChar (Nat.mod_lt _ (by decide))
    have hlow : digitValue (b % 16).digitChar = some (b % 16) :=
      digitValue_digitChar (Nat.mod_lt _ (by decide))
    rw [flatMap_cons, hexByte]
    simp only [cons_append, nil_append, readHexBytes, hhigh, hlow, hrest, Option.bind_eq_bind,
      Option.bind_some, Option.pure_def]
    congr 2
    omega

theorem decodeHex_encodeHex {bytes : List Nat} (h : ∀ b ∈ bytes, b < 256) :
    decodeHex (encodeHex bytes) = some bytes := by
  rw [decodeHex, encodeHex, String.toList_ofList]
  exact readHexBytes_encode h

/-- Different bytes have different texts. -/
theorem encodeHex_inj {xs ys : List Nat} (hx : ∀ b ∈ xs, b < 256) (hy : ∀ b ∈ ys, b < 256)
    (h : encodeHex xs = encodeHex ys) : xs = ys := by
  have hread := decodeHex_encodeHex hx
  rw [h, decodeHex_encodeHex hy, Option.some.injEq] at hread
  exact hread.symm

/-! ### Digits -/

/-- The digits that are written. -/
def IsDigit (x : Char) : Prop := ∃ d < 16, x = d.digitChar

theorem isDigit_of_mem_hexByte {n : Nat} {x : Char} (h : x ∈ hexByte n) : IsDigit x := by
  simp only [hexByte, mem_cons, not_mem_nil, or_false] at h
  rcases h with rfl | rfl
  · exact ⟨_, Nat.mod_lt _ (by decide), rfl⟩
  · exact ⟨_, Nat.mod_lt _ (by decide), rfl⟩

theorem isDigit_of_mem_encodeHex {bytes : List Nat} {x : Char} (h : x ∈ (encodeHex bytes).toList) : IsDigit x := by
  rw [encodeHex, String.toList_ofList] at h
  obtain ⟨n, -, hn⟩ := mem_flatMap.mp h
  exact isDigit_of_mem_hexByte hn

theorem IsDigit.lower {x : Char} (h : IsDigit x) : lowerChar x = x := by
  obtain ⟨d, hd, rfl⟩ := h
  have hall : ∀ d : Nat, d < 16 → lowerChar d.digitChar = d.digitChar := by decide
  exact hall d hd

theorem IsDigit.utf8Size {x : Char} (h : IsDigit x) : x.utf8Size = 1 := by
  obtain ⟨d, hd, rfl⟩ := h
  have hall : ∀ d : Nat, d < 16 → d.digitChar.utf8Size = 1 := by decide
  exact hall d hd

theorem IsDigit.ne {x y : Char} (h : IsDigit x) (hy : digitValue y = none) : x ≠ y := by
  obtain ⟨d, hd, rfl⟩ := h
  intro heq
  rw [← heq, digitValue_digitChar hd] at hy
  cases hy

theorem byteLength_encodeHex (bytes : List Nat) : byteLength (encodeHex bytes) = 2 * bytes.length := by
  have hone : ∀ x ∈ (encodeHex bytes).toList, x.utf8Size = 1 := fun x hx =>
    (isDigit_of_mem_encodeHex hx).utf8Size
  have hsum : ∀ cs : List Char, (∀ x ∈ cs, x.utf8Size = 1) → (cs.map Char.utf8Size).sum = cs.length := by
    intro cs hcs
    induction cs with
    | nil => rfl
    | cons c cs ih =>
      rw [map_cons, sum_cons, hcs c mem_cons_self,
        ih fun x hx => hcs x (mem_cons_of_mem _ hx), length_cons]
      omega
  rw [byteLength, hsum _ hone, encodeHex, String.toList_ofList, length_flatMap]
  simp [hexByte, Nat.mul_comm]

/-- A hardware address of six bytes reads back. -/
theorem parseMAC_macText {bytes : List Nat} (h : ∀ b ∈ bytes, b < 256) (hsix : bytes.length = 6) :
    parseMAC (macText bytes) = some bytes := by
  match bytes, hsix with
  | [a, b, c, d, e, f], _ =>
    have hfields : (macText [a, b, c, d, e, f]).toList.splitOn ':' = [a, b, c, d, e, f].map hexByte := by
      rw [macText, String.toList_ofList]
      refine splitOn_intercalate ':' ?_ (by simp)
      intro l hl
      obtain ⟨n, -, rfl⟩ := mem_map.mp hl
      intro hmem
      exact (isDigit_of_mem_hexByte hmem).ne (by decide) rfl
    have hthird : ((macText [a, b, c, d, e, f]).toList.drop 2).head? = some ':' := by
      rw [macText, String.toList_ofList]
      rfl
    unfold parseMAC
    simp only [hthird, Option.elim_some, headD_eq_head?_getD, Option.getD_some, hfields]
    have hread : readHexFields 2 ([a, b, c, d, e, f].map hexByte) = some [a, b, c, d, e, f] := by
      unfold readHexFields
      rw [if_pos (by simp [hexByte]), ← flatMap_def, readHexBytes_encode h]
    simp only [decide_true, Bool.true_or, if_true, hread]
    rfl

/-! ### Splitting -/

/-- Splitting at one character is `List.splitOn`. -/
theorem splitFrom_char (d : Char) (piece cs : List Char) :
    splitFrom [d] 0 piece cs = (cs.splitOn d).modifyHead (piece.reverse ++ ·) := by
  induction cs generalizing piece with
  | nil => simp [splitFrom]
  | cons c cs ih =>
    by_cases hc : c = d
    · subst hc
      have hyes : [c].isPrefixOf (c :: cs) = true := by simp
      rw [splitFrom, if_pos hyes]
      show piece.reverse :: splitFrom [c] 0 [] cs = _
      rw [ih]
      cases hsplit : cs.splitOn c with
      | nil => exact absurd hsplit (splitOn_ne_nil c cs)
      | cons => simp [splitOn_cons_eq_if_modifyHead, hsplit]
    · have hno : [d].isPrefixOf (c :: cs) = false := by simp [List.isPrefixOf, Ne.symm hc]
      rw [splitFrom, hno, if_neg (by decide), ih]
      cases hsplit : cs.splitOn d with
      | nil => exact absurd hsplit (splitOn_ne_nil d cs)
      | cons => simp [splitOn_cons_eq_if_modifyHead, hc, hsplit]

theorem splitFrom_none {d : Char} {ds cs piece : List Char} (h : d ∉ cs) :
    splitFrom (d :: ds) 0 piece cs = [piece.reverse ++ cs] := by
  induction cs generalizing piece with
  | nil => simp [splitFrom]
  | cons c cs ih =>
    have hc : d ≠ c := fun heq => h (by rw [heq]; exact mem_cons_self)
    have hno : (d :: ds).isPrefixOf (c :: cs) = false := by simp [List.isPrefixOf, hc]
    rw [splitFrom, hno, if_neg (by decide), ih fun hmem => h (mem_cons_of_mem _ hmem)]
    simp

theorem splitFrom_skip {sep ds cs piece : List Char} :
    splitFrom sep ds.length piece (ds ++ cs) = splitFrom sep 0 piece cs := by
  induction ds with
  | nil => rfl
  | cons c ds ih => rw [cons_append, length_cons, splitFrom, ih]

/-- A text of two parts around a separator whose first character is in neither is split into them. -/
theorem splitText_two {d : Char} {ds : List Char} {x y : String} (hx : d ∉ x.toList) (hy : d ∉ y.toList) :
    splitText (x ++ String.ofList (d :: ds) ++ y) (String.ofList (d :: ds)) = [x, y] := by
  have hmain : ∀ (cs piece : List Char), d ∉ cs →
      splitFrom (d :: ds) 0 piece (cs ++ (d :: ds ++ y.toList)) = [piece.reverse ++ cs, y.toList] := by
    intro cs
    induction cs with
    | nil =>
      intro piece _
      have hyes : (d :: ds).isPrefixOf (d :: (ds ++ y.toList)) = true :=
        isPrefixOf_iff_prefix.mpr ⟨y.toList, rfl⟩
      rw [nil_append, cons_append, splitFrom, hyes, if_pos rfl]
      rw [length_cons, Nat.add_sub_cancel, splitFrom_skip, splitFrom_none hy]
      simp
    | cons c cs ih =>
      intro piece hcs
      have hc : d ≠ c := fun heq => hcs (by rw [heq]; exact mem_cons_self)
      have hno : (d :: ds).isPrefixOf (c :: (cs ++ (d :: ds ++ y.toList))) = false := by
        simp [List.isPrefixOf, hc]
      rw [cons_append, splitFrom, hno, if_neg (by decide),
        ih _ fun hmem => hcs (mem_cons_of_mem _ hmem)]
      simp
  unfold splitText
  rw [String.toList_append, String.toList_append, String.toList_ofList, append_assoc, hmain _ _ hx]
  simp

/-! ### Texts that can be decoded -/

theorem not_mem_of_readHexBytes {x : Char} (hx : digitValue x = none) {cs : List Char} {bytes : List Nat}
    (h : readHexBytes cs = some bytes) : x ∉ cs := by
  induction cs using readHexBytes.induct generalizing bytes with
  | case1 => simp
  | case2 => simp [readHexBytes] at h
  | case3 hi lo cs ih =>
    simp only [readHexBytes, Option.bind_eq_bind, Option.bind_eq_some_iff] at h
    obtain ⟨vh, hvh, vl, hvl, rest, hrest, -⟩ := h
    intro hmem
    rcases mem_cons.mp hmem with rfl | hmem
    · rw [hx] at hvh
      cases hvh
    · rcases mem_cons.mp hmem with rfl | hmem
      · rw [hx] at hvl
        cases hvl
      · exact ih hrest hmem

theorem digit_of_hex {x : String} (h : (decodeHex x).isSome = true) {c : Char} (hc : c ∈ x.toList) :
    (digitValue c).isSome := by
  obtain ⟨bytes, hbytes⟩ := Option.isSome_iff_exists.mp h
  by_contra hnone
  rw [Option.not_isSome_iff_eq_none] at hnone
  exact not_mem_of_readHexBytes hnone hbytes hc

theorem slash_not_mem_hex {x : String} (h : (decodeHex x).isSome = true) : '/' ∉ x.toList :=
  fun hmem => absurd (digit_of_hex h hmem) (by decide)

theorem colon_not_mem_hex {x : String} (h : (decodeHex x).isSome = true) : ':' ∉ x.toList :=
  fun hmem => absurd (digit_of_hex h hmem) (by decide)

theorem isSome_decodeHex {bytes : List Nat} (h : ∀ b ∈ bytes, b < 256) : (decodeHex (encodeHex bytes)).isSome = true := by
  rw [decodeHex_encodeHex h]
  rfl

theorem toLower_encodeHex (bytes : List Nat) : toLower (encodeHex bytes) = encodeHex bytes := by
  unfold toLower
  rw [map_congr_left (fun x hx => (isDigit_of_mem_encodeHex hx).lower), map_id', String.ofList_toList]

end Ghostd.Lib
