/-!
# `ReviewGate.Text.Base64` — bytes as text

Three bytes are four characters of six bits. Reading skips characters that are none of these.

## Contents
- `decode`: the bytes of a text, `none` if it ends inside a group.
- `encodeLines`: the text of bytes in lines of at most 76 characters.
-/

namespace ReviewGate.Text.Base64

/-- The characters in the order of their values. -/
def alphabet : List Char :=
  "ABCDEFGHIJKLMNOPQRSTUVWXYZabcdefghijklmnopqrstuvwxyz0123456789+/".toList

/-- The value of a character. -/
def value? (c : Char) : Option Nat := alphabet.findIdx? (· == c)

/-! ## Reading -/

/-- The bytes of a text. `size` characters of the present group have been read, `bits` being what
they leave over, and `pads` padding signs directly behind them. Padding that fills a group ends the
text. -/
def decodeFrom (size bits pads : Nat) : List Char → Option (List UInt8)
  | [] => if size = 0 then some [] else none
  | c :: rest =>
      if c = '=' then
        if 2 ≤ size then
          if 4 ≤ size + pads + 1 then some [] else decodeFrom size bits (pads + 1) rest
        else decodeFrom size bits pads rest
      else match value? c with
        | none => decodeFrom size bits pads rest
        | some v =>
            match size with
            | 0 => decodeFrom 1 v 0 rest
            | 1 => (decodeFrom 2 (v % 16) 0 rest).map (UInt8.ofNat (bits * 4 + v / 16) :: ·)
            | 2 => (decodeFrom 3 (v % 4) 0 rest).map (UInt8.ofNat (bits * 16 + v / 4) :: ·)
            | _ => (decodeFrom 0 0 0 rest).map (UInt8.ofNat (bits * 64 + v) :: ·)

/-- The bytes of a text. -/
def decode (cs : List Char) : Option (List UInt8) := decodeFrom 0 0 0 cs

/-! ## Writing -/

/-- The character of a value. -/
def charOf (n : Nat) : Char := (alphabet[n % 64]?).getD '='

/-- The text of bytes. -/
def encode : List UInt8 → List Char
  | [] => []
  | [a] =>
      let n := a.toNat * 16
      [charOf (n / 64), charOf n, '=', '=']
  | [a, b] =>
      let n := (a.toNat * 256 + b.toNat) * 4
      [charOf (n / 4096), charOf (n / 64), charOf n, '=']
  | a :: b :: c :: rest =>
      let n := (a.toNat * 256 + b.toNat) * 256 + c.toNat
      charOf (n / 262144) :: charOf (n / 4096) :: charOf (n / 64) :: charOf n :: encode rest

/-- The characters in lines of `width`, each with a newline at its end; at most `fuel` lines. -/
def chunks (width : Nat) : Nat → List Char → List Char
  | 0, _ => []
  | fuel + 1, cs =>
      if cs.isEmpty then []
      else cs.take width ++ '\n' :: chunks width fuel (cs.drop width)

/-- The text of bytes in lines. -/
def encodeLines (data : List UInt8) : List Char :=
  let cs := encode data
  chunks 76 cs.length cs

end ReviewGate.Text.Base64
