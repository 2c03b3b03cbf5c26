import ReviewGate.Text.Lines
import ReviewGate.Text.Utf8

/-!
# `ReviewGate.Proofs.Text.Ascii` — ASCII texts in files

## Contents
- `decode_encode`: an ASCII text is got back from its bytes.
- `unifyNewlines_eq`: a text without returns has its newlines already.
-/

namespace ReviewGate.Text

namespace Utf8

variable {c : Char} (hc : c.toNat < 128)
include hc

theorem encodeChar_of_ascii : encodeChar c = [UInt8.ofNat c.toNat] := by
  unfold encodeChar
  rw [if_pos hc]

theorem step_of_ascii (rest : List UInt8) : step (UInt8.ofNat c.toNat) rest = .char c 1 := by
  have hvalue : (UInt8.ofNat c.toNat).toNat = c.toNat :=
    UInt8.toNat_ofNat_of_lt' (Nat.lt_trans hc (by decide))
  have hlow : UInt8.ofNat c.toNat < 0x80 := by
    rw [UInt8.lt_iff_toNat_lt, hvalue]
    exact hc
  rw [step, if_pos hlow, hvalue, Char.ofNat_toNat]

omit hc in
theorem decodeFrom_encode {cs : List Char} (hcs : ∀ c ∈ cs, c.toNat < 128) (position : Nat) :
    decodeFrom position 0 (cs.flatMap encodeChar) = .ok cs := by
  induction cs generalizing position with
  | nil => rfl
  | cons c cs ih =>
      obtain ⟨hc, hcs⟩ := List.forall_mem_cons.mp hcs
      rw [List.flatMap_cons, encodeChar_of_ascii hc, List.singleton_append, decodeFrom,
        step_of_ascii hc]
      dsimp only
      rw [ih hcs]
      rfl

omit hc in
/-- **An ASCII text is got back from its bytes.** -/
theorem decode_encode {s : String} (hs : ∀ c ∈ s.toList, c.toNat < 128) :
    decode (encode s) = .ok s := by
  unfold decode encode
  rw [decodeFrom_encode hs]
  exact congrArg Except.ok String.ofList_toList

end Utf8

theorem unifyNewlines_eq {cs : List Char} (hcs : ∀ c ∈ cs, c ≠ '\r') : unifyNewlines cs = cs := by
  induction cs with
  | nil => rfl
  | cons c cs ih =>
      obtain ⟨hc, hcs⟩ := List.forall_mem_cons.mp hcs
      rw [unifyNewlines, ih hcs]
      · exact fun _ h => absurd h hc
      · exact hc

end ReviewGate.Text
