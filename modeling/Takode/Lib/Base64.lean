import Takode.Lib.JsString

/-!
# Base64

`toBase64` is `buffer.toString("base64")`; `fromBase64` is the lenient
`Buffer.from(text, "base64")`, which also reads the URL alphabet, skips every
other character and stops at the padding.
-/

namespace Takode

namespace Base64

/-- The padding character `=`. -/
def pad : UInt16 := 61

/-- The character of a six-bit value. -/
def char (n : Nat) : UInt16 :=
  if n < 26 then UInt16.ofNat (n + 65)
  else if n < 52 then UInt16.ofNat (n + 71)
  else if n < 62 then UInt16.ofNat (n - 4)
  else if n = 62 then 43 else 47

/-- The six-bit value of a character of either alphabet. -/
def value (c : UInt16) : Option Nat :=
  let n := c.toNat
  if 65 ≤ n ∧ n ≤ 90 then some (n - 65)
  else if 97 ≤ n ∧ n ≤ 122 then some (n - 71)
  else if 48 ≤ n ∧ n ≤ 57 then some (n + 4)
  else if n = 43 ∨ n = 45 then some 62
  else if n = 47 ∨ n = 95 then some 63
  else none

/-- The six-bit values a text carries, up to the padding. -/
def sextets : JsString → List Nat
  | [] => []
  | c :: rest =>
    if c = pad then []
    else
      match value c with
      | some n => n :: sextets rest
      | none => sextets rest

/-- The whole bytes of a list of six-bit values. -/
def pack : List Nat → Bytes
  | a :: b :: c :: d :: rest =>
    UInt8.ofNat (a * 4 + b / 16) :: UInt8.ofNat (b % 16 * 16 + c / 4)
      :: UInt8.ofNat (c % 4 * 64 + d) :: pack rest
  | [a, b, c] => [UInt8.ofNat (a * 4 + b / 16), UInt8.ofNat (b % 16 * 16 + c / 4)]
  | [a, b] => [UInt8.ofNat (a * 4 + b / 16)]
  | _ => []

end Base64

open Base64

/-- `buffer.toString("base64")`. -/
def toBase64 : Bytes → JsString
  | [] => []
  | [a] => [char (a.toNat / 4), char (a.toNat % 4 * 16), pad, pad]
  | [a, b] =>
    [char (a.toNat / 4), char (a.toNat % 4 * 16 + b.toNat / 16), char (b.toNat % 16 * 4), pad]
  | a :: b :: c :: rest =>
    char (a.toNat / 4) :: char (a.toNat % 4 * 16 + b.toNat / 16)
      :: char (b.toNat % 16 * 4 + c.toNat / 64) :: char (c.toNat % 64) :: toBase64 rest

/-- `Buffer.from(text, "base64")`. -/
def fromBase64 (text : JsString) : Bytes := pack (sextets text)

namespace Base64

private theorem value_char_fin : ∀ n : Fin 64, char n ≠ pad ∧ value (char n) = some n.val := by
  decide

theorem sextets_char {n : Nat} (small : n < 64) (rest : JsString) :
    sextets (char n :: rest) = n :: sextets rest := by
  obtain ⟨notPad, read⟩ := value_char_fin ⟨n, small⟩
  simp only [sextets]
  rw [if_neg notPad, read]

theorem sextets_pad (rest : JsString) : sextets (pad :: rest) = [] := by simp [sextets]

private theorem join (a : UInt8) : UInt8.ofNat a.toNat = a := UInt8.ofNat_toNat

end Base64

/-- Decoding undoes encoding. -/
@[simp] theorem fromBase64_toBase64 (bytes : Bytes) : fromBase64 (toBase64 bytes) = bytes := by
  unfold fromBase64
  induction bytes using toBase64.induct with
  | case1 => rfl
  | case2 a =>
    have ha := a.toNat_lt
    rw [toBase64, sextets_char (by omega), sextets_char (by omega), sextets_pad, pack]
    rw [show a.toNat / 4 * 4 + a.toNat % 4 * 16 / 16 = a.toNat by omega, Base64.join]
  | case3 a b =>
    have ha := a.toNat_lt
    have hb := b.toNat_lt
    rw [toBase64, sextets_char (by omega), sextets_char (by omega), sextets_char (by omega),
      sextets_pad, pack]
    rw [show a.toNat / 4 * 4 + (a.toNat % 4 * 16 + b.toNat / 16) / 16 = a.toNat by omega,
      show (a.toNat % 4 * 16 + b.toNat / 16) % 16 * 16 + b.toNat % 16 * 4 / 4 = b.toNat by omega,
      Base64.join, Base64.join]
  | case4 a b c rest ih =>
    have ha := a.toNat_lt
    have hb := b.toNat_lt
    have hc := c.toNat_lt
    rw [toBase64, sextets_char (by omega), sextets_char (by omega), sextets_char (by omega),
      sextets_char (by omega), pack, ih]
    rw [show a.toNat / 4 * 4 + (a.toNat % 4 * 16 + b.toNat / 16) / 16 = a.toNat by omega,
      show (a.toNat % 4 * 16 + b.toNat / 16) % 16 * 16
        + (b.toNat % 16 * 4 + c.toNat / 64) / 4 = b.toNat by omega,
      show (b.toNat % 16 * 4 + c.toNat / 64) % 4 * 64 + c.toNat % 64 = c.toNat by omega,
      Base64.join, Base64.join, Base64.join]

end Takode
