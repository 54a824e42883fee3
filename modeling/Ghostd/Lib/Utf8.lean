import Ghostd.Lib.Text

/-!
# `Ghostd.Lib.Utf8`: strings that are bytes

A Go string is any sequence of bytes. Where bytes come out of an escape they need not be the UTF-8 of
a text, and a function that goes through the string by characters then sees the replacement
character for each byte that does not belong to one.
-/

set_option autoImplicit false

namespace Ghostd.Lib

/-- `utf8.RuneError`. -/
def runeError : Char := Char.ofNat 0xfffd

/-- A byte that continues a character, from a lowest to a highest one. -/
def continues (lo hi : Nat) (b : Nat) : Bool := lo ≤ b && b ≤ hi

/-- `utf8.DecodeRune`: the first character and its bytes. The second byte decides whether the sequence
is the shortest one for its character and no surrogate. -/
def decodeRune (bytes : List Nat) : Char × Nat :=
  let tail (b : Nat) : Bool := continues 0x80 0xbf b
  match bytes with
  | [] => (runeError, 0)
  | b₀ :: rest =>
    if b₀ < 0x80 then (Char.ofNat b₀, 1)
    else if b₀ < 0xe0 then
      match rest with
      | b₁ :: _ =>
        if 0xc2 ≤ b₀ && tail b₁ then (Char.ofNat (b₀ % 32 * 64 + b₁ % 64), 2) else (runeError, 1)
      | [] => (runeError, 1)
    else if b₀ < 0xf0 then
      match rest with
      | b₁ :: b₂ :: _ =>
        let lo := if b₀ = 0xe0 then 0xa0 else 0x80
        let hi := if b₀ = 0xed then 0x9f else 0xbf
        if continues lo hi b₁ && tail b₂ then (Char.ofNat (b₀ % 16 * 4096 + b₁ % 64 * 64 + b₂ % 64), 3)
        else (runeError, 1)
      | _ => (runeError, 1)
    else
      match rest with
      | b₁ :: b₂ :: b₃ :: _ =>
        let lo := if b₀ = 0xf0 then 0x90 else 0x80
        let hi := if b₀ = 0xf4 then 0x8f else 0xbf
        if b₀ ≤ 0xf4 && continues lo hi b₁ && tail b₂ && tail b₃ then
          (Char.ofNat (b₀ % 8 * 262144 + b₁ % 64 * 4096 + b₂ % 64 * 64 + b₃ % 64), 4)
        else (runeError, 1)
      | _ => (runeError, 1)

/-- The characters of a string. The first argument counts the bytes of the last one still to be
passed over. -/
def decodeFrom : Nat → List Nat → List Char
  | _, [] => []
  | skip + 1, _ :: rest => decodeFrom skip rest
  | 0, b :: rest =>
    let (c, width) := decodeRune (b :: rest)
    c :: decodeFrom (width - 1) rest

/-- The text that `range` finds in a string. -/
def decodeBytes (bytes : List Nat) : String := String.ofList (decodeFrom 0 bytes)

/-- `strings.TrimSuffix`. -/
def trimEnd (s tail : String) : String :=
  if endsWith s tail then String.ofList (s.toList.take (s.toList.length - tail.toList.length)) else s

example : decodeBytes (utf8Bytes "aé€😀") = "aé€😀" := by decide

example : decodeBytes [0x61, 0xc3, 0x62, 0xed, 0xa0, 0x80] =
    String.ofList ['a', runeError, 'b', runeError, runeError, runeError] := by decide

end Ghostd.Lib
