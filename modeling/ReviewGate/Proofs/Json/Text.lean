import Mathlib.Data.List.Basic
import ReviewGate.Proofs.Json.Number

/-!
# `ReviewGate.Proofs.Json.Text` — texts are read back

A text is read in two steps. First every character and escape up to the closing mark becomes a
UTF-16 unit, then the units are joined. A character is written so that the first step gives its
units (`readUnits_escapeChar`), and the second step joins the units of characters, of which none is
half a pair, to these characters (`joinUnits_unitsOf`).

## Contents
- `unitsOf`, `joinUnits_unitsOf`: the UTF-16 units of characters.
- `hexUnit?_hexDigits`, `readUnits_escapeUnit`: a unit as an escape.
- `readUnits_escapeChar`, `readString_quoteChars`: what is written is read back.
- `isWritten_quoteChars`: the characters that a text is written with.
-/

namespace ReviewGate.Json

/-! ## Units -/

/-- The UTF-16 units of a character. -/
def unitsOf (c : Char) : List Nat :=
  if c.toNat < 0x10000 then [c.toNat]
  else [0xD800 + (c.toNat - 0x10000) / 0x400, 0xDC00 + (c.toNat - 0x10000) % 0x400]

/-- No character is half a pair. -/
theorem char_range (c : Char) :
    c.toNat < 0xD800 ∨ 0xDFFF < c.toNat ∧ c.toNat < 0x110000 := c.valid

theorem joinUnits_cons {n : Nat} (hn : isHighUnit n = false) (units : List Nat) :
    joinUnits (n :: units) = unitChar n :: joinUnits units := by
  cases units with
  | nil => rfl
  | cons m units =>
      rw [joinUnits, hn, Bool.false_and, if_neg (by decide)]

/-- **The units of characters are joined to the characters.** -/
theorem joinUnits_unitsOf (cs : List Char) : joinUnits (cs.flatMap unitsOf) = cs := by
  induction cs with
  | nil => rfl
  | cons c cs ih =>
      have hrange := char_range c
      rw [List.flatMap_cons]
      by_cases hc : c.toNat < 0x10000
      · have hhigh : isHighUnit c.toNat = false := by
          simp only [isHighUnit, Bool.and_eq_false_iff, decide_eq_false_iff_not]
          omega
        have hlow : isLowUnit c.toNat = false := by
          simp only [isLowUnit, Bool.and_eq_false_iff, decide_eq_false_iff_not]
          omega
        rw [unitsOf, if_pos hc, List.singleton_append, joinUnits_cons hhigh, ih, unitChar, hhigh,
          hlow, Bool.or_self, if_neg (by decide), Char.ofNat_toNat]
      · obtain ⟨high, hhigh_def⟩ : ∃ n, n = (c.toNat - 0x10000) / 0x400 := ⟨_, rfl⟩
        obtain ⟨low, hlow_def⟩ : ∃ n, n = (c.toNat - 0x10000) % 0x400 := ⟨_, rfl⟩
        have hhigh : isHighUnit (0xD800 + high) = true := by
          simp only [isHighUnit, Bool.and_eq_true, decide_eq_true_eq]
          omega
        have hlow : isLowUnit (0xDC00 + low) = true := by
          simp only [isLowUnit, Bool.and_eq_true, decide_eq_true_eq]
          omega
        have hvalue : 0x10000 + (0xD800 + high - 0xD800) * 0x400 + (0xDC00 + low - 0xDC00)
            = c.toNat := by
          omega
        rw [unitsOf, if_neg hc, ← hhigh_def, ← hlow_def, List.cons_append, List.singleton_append,
          joinUnits, hhigh, hlow, Bool.and_self, if_pos rfl, hvalue, Char.ofNat_toNat, ih]

/-! ## Escapes -/

theorem hexValue?_digitChar {n : Nat} (hn : n < 16) : hexValue? n.digitChar = some n := by
  have hall : ∀ n < 16, hexValue? n.digitChar = some n := by decide
  exact hall n hn

/-- Four hexadecimal digits are enough for a unit. -/
theorem hexUnit?_hexDigits {n : Nat} (hn : n < 0x10000) :
    ∃ a b c d, hexDigits 4 n = [a, b, c, d] ∧ hexUnit? a b c d = some n := by
  refine ⟨_, _, _, _, rfl, ?_⟩
  rw [hexUnit?, hexValue?_digitChar (by omega), hexValue?_digitChar (by omega),
    hexValue?_digitChar (by omega), hexValue?_digitChar (by omega)]
  show some _ = some n
  congr 1
  omega

theorem readUnits_escapeUnit (read : List Nat) {n : Nat} (hn : n < 0x10000) (rest : List Char) :
    readUnits read (escapeUnit n ++ rest) = readUnits (n :: read) rest := by
  obtain ⟨a, b, c, d, hdigits, hvalue⟩ := hexUnit?_hexDigits hn
  rw [escapeUnit, hdigits]
  show readUnits read ('\\' :: 'u' :: a :: b :: c :: d :: rest) = _
  rw [readUnits, hvalue]

/-- **A character is written so that its units are read.** -/
theorem readUnits_escapeChar (read : List Nat) (c : Char) (rest : List Char) :
    readUnits read (escapeChar c ++ rest) = readUnits ((unitsOf c).reverse ++ read) rest := by
  unfold escapeChar
  by_cases hquote : c = '"'
  · subst hquote
    rfl
  by_cases hslash : c = '\\'
  · subst hslash
    rfl
  by_cases hnewline : c = '\n'
  · subst hnewline
    rfl
  by_cases hreturn : c = '\r'
  · subst hreturn
    rfl
  by_cases htab : c = '\t'
  · subst htab
    rfl
  by_cases hbackspace : c = Char.ofNat 8
  · subst hbackspace
    rfl
  by_cases hfeed : c = Char.ofNat 12
  · subst hfeed
    rfl
  rw [if_neg hquote, if_neg hslash, if_neg hnewline, if_neg hreturn, if_neg htab,
    if_neg hbackspace, if_neg hfeed]
  have hrange := char_range c
  dsimp only
  by_cases hplain : 32 ≤ c.toNat ∧ c.toNat < 127
  · rw [if_pos hplain, unitsOf, if_pos (by omega)]
    show readUnits read (c :: rest) = readUnits (c.toNat :: read) rest
    rw [readUnits, if_neg (by omega)]
    · exact fun h => hquote h
    · exact fun _ _ _ _ _ h => absurd h hslash
    · exact fun _ _ h => absurd h hslash
  · rw [if_neg hplain]
    by_cases hc : c.toNat < 0x10000
    · rw [if_pos hc, unitsOf, if_pos hc]
      exact readUnits_escapeUnit read hc rest
    · rw [if_neg hc, unitsOf, if_neg hc, List.append_assoc,
        readUnits_escapeUnit read (by omega), readUnits_escapeUnit _ (by omega)]
      rfl

theorem readUnits_escapeChars (read : List Nat) (cs rest : List Char) :
    readUnits read (cs.flatMap escapeChar ++ '"' :: rest)
      = some (read.reverse ++ cs.flatMap unitsOf, rest) := by
  induction cs generalizing read with
  | nil =>
      rw [List.flatMap_nil, List.flatMap_nil, List.append_nil]
      rfl
  | cons c cs ih =>
      rw [List.flatMap_cons, List.flatMap_cons, List.append_assoc, readUnits_escapeChar, ih,
        List.reverse_append, List.reverse_reverse, List.append_assoc]

/-- **A text that is written is read back.** -/
theorem readString_escapeChars (cs rest : List Char) :
    readString (cs.flatMap escapeChar ++ '"' :: rest) = some (cs, rest) := by
  rw [readString, readUnits_escapeChars, List.reverse_nil, List.nil_append]
  show some (joinUnits (cs.flatMap unitsOf), rest) = some (cs, rest)
  rw [joinUnits_unitsOf]

/-! ## The characters of a text -/

theorem isWritten_escapeUnit {n : Nat} : ∀ c ∈ escapeUnit n, IsWritten c := by
  have hhex : ∀ k < 16, IsWritten k.digitChar := by decide
  unfold escapeUnit
  rw [List.forall_mem_cons, List.forall_mem_cons]
  refine ⟨by decide, by decide, ?_⟩
  intro c hc
  simp only [hexDigits, List.nil_append, List.mem_append, List.mem_singleton] at hc
  obtain ((rfl | rfl) | rfl) | rfl := hc
  all_goals exact hhex _ (Nat.mod_lt _ (by decide))

theorem isWritten_escapeChar (c : Char) : ∀ d ∈ escapeChar c, IsWritten d := by
  unfold escapeChar
  by_cases hshort : c = '"' ∨ c = '\\' ∨ c = '\n' ∨ c = '\r' ∨ c = '\t' ∨ c = Char.ofNat 8 ∨
      c = Char.ofNat 12
  · obtain rfl | rfl | rfl | rfl | rfl | rfl | rfl := hshort
    all_goals exact isWritten_of_all (by decide)
  · simp only [not_or] at hshort
    obtain ⟨h₁, h₂, h₃, h₄, h₅, h₆, h₇⟩ := hshort
    rw [if_neg h₁, if_neg h₂, if_neg h₃, if_neg h₄, if_neg h₅, if_neg h₆, if_neg h₇]
    dsimp only
    by_cases hplain : 32 ≤ c.toNat ∧ c.toNat < 127
    · rw [if_pos hplain, List.forall_mem_singleton]
      exact Or.inr hplain
    · rw [if_neg hplain]
      split
      · exact isWritten_escapeUnit
      · rw [List.forall_mem_append]
        exact ⟨isWritten_escapeUnit, isWritten_escapeUnit⟩

theorem isWritten_quoteChars (cs : List Char) : ∀ c ∈ quoteChars cs, IsWritten c := by
  unfold quoteChars
  rw [List.cons_append, List.forall_mem_cons, List.forall_mem_append, List.forall_mem_singleton]
  refine ⟨by decide, ?_, by decide⟩
  intro d hd
  obtain ⟨c, -, hd⟩ := List.mem_flatMap.mp hd
  exact isWritten_escapeChar c d hd

end ReviewGate.Json
