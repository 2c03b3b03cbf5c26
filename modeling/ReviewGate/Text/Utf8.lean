/-!
# `ReviewGate.Text.Utf8` — reading and writing UTF-8

A byte sequence is read strictly (`decode`, which refuses ill-formed input) or leniently
(`decodeLossy`, which puts one replacement character for each maximal ill-formed part).

## Contents
- `step`: reads one character or one ill-formed part.
- `Defect`: an ill-formed part, with its text.
- `decode`, `decodeLossy`: the two readers.
- `encode`: the writer.
-/

namespace ReviewGate.Text.Utf8

/-- What stands at the front of a byte sequence: a character of so many bytes, or an ill-formed
part of so many bytes. -/
inductive Lead
  | char (c : Char) (size : Nat)
  | bad (size : Nat)

/-- Is `b` a continuation byte? -/
def isContinuation (b : UInt8) : Bool := 0x80 ≤ b && b < 0xC0

/-- The continuation bits of a byte. -/
def tailBits (b : UInt8) : Nat := b.toNat % 64

/-- The least and greatest second byte that may follow the first byte `b`, with the number of
continuation bytes; `none` if `b` starts no character of several bytes. -/
def secondByte? (b : UInt8) : Option (UInt8 × UInt8 × Nat) :=
  if 0xC2 ≤ b && b ≤ 0xDF then some (0x80, 0xBF, 1)
  else if b == 0xE0 then some (0xA0, 0xBF, 2)
  else if b == 0xED then some (0x80, 0x9F, 2)
  else if 0xE1 ≤ b && b ≤ 0xEF then some (0x80, 0xBF, 2)
  else if b == 0xF0 then some (0x90, 0xBF, 3)
  else if b == 0xF4 then some (0x80, 0x8F, 3)
  else if 0xF1 ≤ b && b ≤ 0xF3 then some (0x80, 0xBF, 3)
  else none

/-- The front of the sequence that starts with `b` and goes on with `rest`. -/
def step (b : UInt8) (rest : List UInt8) : Lead :=
  if b < 0x80 then .char (Char.ofNat b.toNat) 1
  else match secondByte? b with
    | none => .bad 1
    | some (least, greatest, count) =>
        match rest with
        | [] => .bad 1
        | b₂ :: rest₂ =>
            if b₂ < least || greatest < b₂ then .bad 1
            else if count == 1 then .char (Char.ofNat (b.toNat % 32 * 64 + tailBits b₂)) 2
            else match rest₂ with
              | [] => .bad 2
              | b₃ :: rest₃ =>
                  if !isContinuation b₃ then .bad 2
                  else if count == 2 then
                    .char (Char.ofNat ((b.toNat % 16 * 64 + tailBits b₂) * 64 + tailBits b₃)) 3
                  else match rest₃ with
                    | [] => .bad 3
                    | b₄ :: _ =>
                        if !isContinuation b₄ then .bad 3
                        else .char (Char.ofNat
                          (((b.toNat % 8 * 64 + tailBits b₂) * 64 + tailBits b₃) * 64
                            + tailBits b₄)) 4

/-- The text of the bytes behind the next `skip`, with a replacement character for each
ill-formed part. -/
def decodeLossyFrom : Nat → List UInt8 → List Char
  | _, [] => []
  | skip + 1, _ :: rest => decodeLossyFrom skip rest
  | 0, b :: rest =>
      match step b rest with
      | .char c size => c :: decodeLossyFrom (size - 1) rest
      | .bad size => Char.ofNat 0xFFFD :: decodeLossyFrom (size - 1) rest

/-- Why a part is ill-formed. -/
inductive Reason
  | badStart
  | badContinuation
  | endOfData
deriving DecidableEq, Repr

/-- The name of a reason. -/
def Reason.text : Reason → String
  | .badStart => "invalid start byte"
  | .badContinuation => "invalid continuation byte"
  | .endOfData => "unexpected end of data"

/-- An ill-formed part of `size` bytes, the first of which is `first`. -/
structure Defect where
  first : UInt8
  position : Nat
  size : Nat
  reason : Reason
deriving DecidableEq, Repr

/-- What is said about an ill-formed part. -/
def Defect.message (d : Defect) : String :=
  let place :=
    if d.size == 1 then
      let digits := String.ofList [(d.first.toNat / 16).digitChar, (d.first.toNat % 16).digitChar]
      s!"byte 0x{digits} in position {d.position}"
    else s!"bytes in position {d.position}-{d.position + d.size - 1}"
  s!"'utf-8' codec can't decode " ++ s!"{place}: {d.reason.text}"

/-- The reason why the part that starts with `b`, which is followed by `rest`, is ill-formed. -/
def reasonOf (b : UInt8) (rest : List UInt8) (size : Nat) : Reason :=
  if (secondByte? b).isNone then .badStart
  else if rest.length + 1 == size then .endOfData
  else .badContinuation

/-- The text of the bytes behind the next `skip`, the first byte having the given position. -/
def decodeFrom (position : Nat) : Nat → List UInt8 → Except Defect (List Char)
  | _, [] => .ok []
  | skip + 1, _ :: rest => decodeFrom (position + 1) skip rest
  | 0, b :: rest =>
      match step b rest with
      | .char c size => (decodeFrom (position + 1) (size - 1) rest).map (c :: ·)
      | .bad size => .error ⟨b, position, size, reasonOf b rest size⟩

/-- The text of the bytes, with a replacement character for each ill-formed part. -/
def decodeLossy (bytes : List UInt8) : String := String.ofList (decodeLossyFrom 0 bytes)

/-- The text of the bytes, if they are UTF-8. -/
def decode (bytes : List UInt8) : Except Defect String :=
  (decodeFrom 0 0 bytes).map String.ofList

/-- The bytes of one character. -/
def encodeChar (c : Char) : List UInt8 :=
  let n := c.toNat
  let tail (k : Nat) : UInt8 := UInt8.ofNat (0x80 + n / Nat.pow 64 k % 64)
  if n < 0x80 then [UInt8.ofNat n]
  else if n < 0x800 then [UInt8.ofNat (0xC0 + n / 64), tail 0]
  else if n < 0x10000 then [UInt8.ofNat (0xE0 + n / 4096), tail 1, tail 0]
  else [UInt8.ofNat (0xF0 + n / 262144), tail 2, tail 1, tail 0]

/-- The bytes of a text. -/
def encode (s : String) : List UInt8 := s.toList.flatMap encodeChar

end ReviewGate.Text.Utf8
