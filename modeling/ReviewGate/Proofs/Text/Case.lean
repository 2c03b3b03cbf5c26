import Mathlib.Data.List.Basic
import ReviewGate.Text.Case

/-!
# `ReviewGate.Proofs.Text.Case` — lower case on both sides of a slash

The lower case of a letter can depend on the letters around it: a capital sigma at the end of a word
has a form of its own. A slash ends every word. So a path is put into lower case name by name, and
no other character becomes a slash.

## Contents
- `meetsCased_append_slash`: a look along a text does not go beyond a slash.
- `lower_append_slash`: the lower case of a path, and `slash_not_mem_lower`: of a name.
- `toList_append_slash`, `toLower_append_slash`: paths as strings.
-/

namespace ReviewGate.Text

open Case

/-- A slash is not passed over and has no case. -/
theorem meetsCased_append_slash (cs rest : List Char) :
    meetsCased (cs ++ '/' :: rest) = meetsCased cs := by
  induction cs with
  | nil =>
      have hpassed : inRanges caseIgnorableRanges '/'.toNat = false := by decide
      have hcased : inRanges casedRanges '/'.toNat = false := by decide
      show (if inRanges caseIgnorableRanges '/'.toNat then meetsCased rest
        else inRanges casedRanges '/'.toNat) = false
      rw [hpassed, hcased]
      rfl
  | cons c cs ih => rw [List.cons_append, meetsCased, meetsCased, ih]

/-- What stands before a slash does not count behind it. -/
theorem lowerFrom_behind_slash (before above cs : List Char) :
    lowerFrom (before ++ '/' :: above) cs = lowerFrom before cs := by
  induction cs generalizing before with
  | nil => rfl
  | cons c cs ih =>
      rw [lowerFrom, lowerFrom, meetsCased_append_slash, ← List.cons_append, ih]

theorem lowerFrom_append_slash (before front back : List Char) :
    lowerFrom before (front ++ '/' :: back)
      = lowerFrom before front ++ '/' :: lowerFrom [] back := by
  induction front generalizing before with
  | nil =>
      show '/' :: lowerFrom ('/' :: before) back = '/' :: lowerFrom [] back
      rw [← List.nil_append ('/' :: before), lowerFrom_behind_slash]
  | cons c front ih =>
      rw [List.cons_append, lowerFrom, lowerFrom, meetsCased_append_slash, ih, List.append_assoc]

/-- **A path is put into lower case on both sides of a slash.** -/
theorem lower_append_slash (front back : List Char) :
    lower (front ++ '/' :: back) = lower front ++ '/' :: lower back :=
  lowerFrom_append_slash [] front back

theorem toList_append_slash (front back : String) :
    (front ++ "/" ++ back).toList = front.toList ++ '/' :: back.toList := by
  simp [String.toList_append]

theorem toList_toLower (s : String) : (toLower s).toList = lower s.toList := String.toList_ofList

theorem toLower_append_slash (front back : String) :
    toLower (front ++ "/" ++ back) = toLower front ++ "/" ++ toLower back := by
  rw [← String.toList_inj, toList_toLower, toList_append_slash, toList_append_slash,
    lower_append_slash, toList_toLower, toList_toLower]

/-! ## Names -/

theorem toNat_ofNat_of_ne_zero {n : Nat} (h : (Char.ofNat n).toNat ≠ 0) :
    (Char.ofNat n).toNat = n := by
  by_cases hvalid : n.isValidChar
  · have hchar : Char.ofNat n = Char.ofNatAux n hvalid := dif_pos hvalid
    rw [hchar]
    rfl
  · have hchar : Char.ofNat n = ⟨0, Or.inl (by decide)⟩ := dif_neg hvalid
    rw [hchar] at h
    exact absurd rfl h

/-- Beyond ASCII no run leads to a slash. -/
theorem ne_slash_of_shiftByRuns {n m : Nat} (h : shiftByRuns lowerRuns n = some m) :
    Char.ofNat m ≠ '/' := by
  have hruns : ∀ run ∈ lowerRuns, '/'.toNat < run.1 + run.2.2.2 := by decide +kernel
  obtain ⟨⟨first, last, step, shift⟩, hfind, rfl⟩ := Option.map_eq_some_iff.mp h
  have hbeyond : '/'.toNat < first + shift := hruns _ (List.mem_of_find?_eq_some hfind)
  have hfirst := List.find?_some hfind
  simp only [Bool.and_eq_true, decide_eq_true_iff] at hfirst
  intro hslash
  have hvalue : (n + shift).toNat = '/'.toNat := by
    rw [← hslash, toNat_ofNat_of_ne_zero]
    rw [hslash]
    decide
  omega

theorem slash_not_mem_lowerChar {c : Char} (hc : c ≠ '/') : '/' ∉ lowerChar c := by
  have hascii : ∀ n < 128, Char.ofNat n ≠ '/' → (Char.ofNat n).toLower ≠ '/' := by decide +kernel
  unfold lowerChar
  split
  · next hlow =>
    have hlower := hascii c.toNat hlow
    rw [Char.ofNat_toNat] at hlower
    exact fun h => hlower hc (List.mem_singleton.mp h).symm
  · split
    · decide
    · intro h
      cases hruns : shiftByRuns lowerRuns c.toNat with
      | none =>
          rw [hruns] at h
          exact hc (List.mem_singleton.mp h).symm
      | some m =>
          rw [hruns] at h
          exact ne_slash_of_shiftByRuns hruns (List.mem_singleton.mp h).symm

/-- **A name has no slash in lower case either.** -/
theorem slash_not_mem_lower {cs : List Char} (h : '/' ∉ cs) : '/' ∉ lower cs := by
  suffices hfrom : ∀ before, '/' ∉ lowerFrom before cs from hfrom []
  induction cs with
  | nil => exact fun _ => List.not_mem_nil
  | cons c cs ih =>
      intro before
      have hc : c ≠ '/' := fun heq => h (heq ▸ List.mem_cons_self)
      rw [lowerFrom, List.mem_append, not_or]
      refine ⟨?_, ih (List.not_mem_of_not_mem_cons h) _⟩
      split
      · split <;> decide
      · exact slash_not_mem_lowerChar hc

end ReviewGate.Text
