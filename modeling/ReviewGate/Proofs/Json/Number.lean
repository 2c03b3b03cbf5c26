import ReviewGate.Json.Reader
import ReviewGate.Json.Writer
import ReviewGate.Proofs.Number.Decimal
import ReviewGate.Proofs.Number.Digits

/-!
# `ReviewGate.Proofs.Json.Number` — numbers are read back

A number ends where no more of its characters follow (`EndsNumber`), and every character that the
writer puts behind a value ends it. Before that point an integer is its digits, and a double is
one of the four layouts of `renderDecimal`. The digits before and behind the point, taken together,
and the exponent tell the same decimal in all four, and the decimal reads back as the double.

## Contents
- `EndsNumber`, `spanDigits_append`: where digits end.
- `readWhole_append`, `readPlaces_append`, `readPower_renderExponent`: the parts of a number.
- `readMagnitude_digitsOf`: integers.
- `readMagnitude_of_parts`, `readMagnitude_renderDecimal`: doubles.
- `readScalar_int`, `readScalar_float`: both with their signs.
-/

namespace ReviewGate.Json

open Number

/-! ## Where a number ends -/

/-- No character of a number stands at the front. -/
def EndsNumber (cs : List Char) : Prop :=
  ∀ c ∈ cs.head?, c.isDigit = false ∧ c ≠ '.' ∧ c ≠ 'e' ∧ c ≠ 'E'

theorem endsNumber_cons {c : Char} {cs : List Char}
    (h : c.isDigit = false ∧ c ≠ '.' ∧ c ≠ 'e' ∧ c ≠ 'E') : EndsNumber (c :: cs) := by
  intro d hd
  rw [List.head?_cons, Option.mem_some_iff] at hd
  exact hd ▸ h

/-- Digits are read up to the first character that is none. -/
theorem spanDigits_append {ds rest : List Char} (hds : ∀ c ∈ ds, c.isDigit = true)
    (hrest : ∀ c ∈ rest.head?, c.isDigit = false) : spanDigits (ds ++ rest) = (ds, rest) := by
  rw [spanDigits, List.span_eq_takeWhile_dropWhile, List.takeWhile_append_of_pos hds,
    List.dropWhile_append_of_pos hds]
  cases rest with
  | nil => simp
  | cons c rest =>
      have hc : ¬c.isDigit = true := by
        rw [hrest c (by simp)]
        decide
      rw [List.takeWhile_cons_of_neg hc, List.dropWhile_cons_of_neg hc, List.append_nil]

theorem digitsValue_eq (ds : List Char) : digitsValue ds = Nat.ofDigitChars 10 ds 0 :=
  ofDigits_eq_ofDigitChars ds

theorem digitsValue_digitsOf (n : Nat) : digitsValue (digitsOf n) = n := by
  rw [digitsValue_eq]
  exact Nat.ofDigitChars_ten_toDigits

/-- Zeros in front of digits count for nothing. -/
theorem digitsValue_zeros_append (n : Nat) (ds : List Char) :
    digitsValue (List.replicate n '0' ++ ds) = digitsValue ds := by
  rw [digitsValue_eq, digitsValue_eq, Nat.ofDigitChars_append, Nat.ofDigitChars_replicate_zero,
    Nat.mul_zero]

/-- Each zero behind digits multiplies by ten. -/
theorem digitsValue_append_zeros (ds : List Char) (n : Nat) :
    digitsValue (ds ++ List.replicate n '0') = 10 ^ n * digitsValue ds := by
  rw [digitsValue_eq, digitsValue_eq, Nat.ofDigitChars_append, Nat.ofDigitChars_replicate_zero]

/-! ## The parts of a number -/

/-- Digits that do not start with a zero are read as they stand. -/
theorem readWhole_append {ds rest : List Char} (hne : ds ≠ []) (hds : ∀ c ∈ ds, c.isDigit = true)
    (hzero : ds.head? ≠ some '0') (hrest : ∀ c ∈ rest.head?, c.isDigit = false) :
    readWhole (ds ++ rest) = some (ds, rest) := by
  obtain ⟨d, ds, rfl⟩ := List.exists_cons_of_ne_nil hne
  have hd : d ≠ '0' := fun h => hzero (by rw [h, List.head?_cons])
  have hspan := spanDigits_append hds hrest
  rw [List.cons_append] at hspan ⊢
  rw [readWhole]
  · rw [hspan]
  · intro _ h
    exact hd (List.cons_eq_cons.mp h).1

/-- A point with digits behind it. -/
theorem readPlaces_append {ds rest : List Char} (hne : ds ≠ []) (hds : ∀ c ∈ ds, c.isDigit = true)
    (hrest : ∀ c ∈ rest.head?, c.isDigit = false) :
    readPlaces ('.' :: (ds ++ rest)) = (ds, rest) := by
  rw [readPlaces, spanDigits_append hds hrest]
  cases ds with
  | nil => exact absurd rfl hne
  | cons d ds => rfl

theorem readPlaces_of_ne_point {cs : List Char} (h : ∀ c ∈ cs.head?, c ≠ '.') :
    readPlaces cs = ([], cs) := by
  unfold readPlaces
  split
  next rest => exact absurd rfl (h '.' (by simp))
  next => rfl

theorem readPower_of_endsNumber {cs : List Char} (h : EndsNumber cs) :
    readPower cs = (none, cs) := by
  cases cs with
  | nil => rfl
  | cons c rest =>
      obtain ⟨-, -, he, hE⟩ := h c (by simp)
      rw [readPower, if_neg]
      simp [he, hE]

/-- An exponent is its sign and the digits of its size, two at least. -/
theorem renderExponent_eq (e : Int) :
    ∃ body, renderExponent e = 'e' :: (if e < 0 then '-' else '+') :: body ∧ body ≠ [] ∧
      (∀ c ∈ body, c.isDigit = true) ∧ digitsValue body = e.natAbs := by
  have hdigits : ∀ c ∈ digitsOf e.natAbs, c.isDigit = true := fun c => isDigit_of_mem_digitsOf
  refine ⟨_, rfl, ?_⟩
  split
  · have hvalue := digitsValue_zeros_append 1 (digitsOf e.natAbs)
    rw [digitsValue_digitsOf] at hvalue
    exact ⟨List.cons_ne_nil _ _, List.forall_mem_cons.mpr ⟨by decide, hdigits⟩, hvalue⟩
  · exact ⟨digitsOf_ne_nil _, hdigits, digitsValue_digitsOf _⟩

/-- An integer is its sign and its size. -/
theorem ite_neg_natAbs (n : Int) :
    (if decide (n < 0) = true then -(n.natAbs : Int) else n.natAbs) = n := by
  by_cases hneg : n < 0
  · rw [decide_eq_true hneg, if_pos rfl]
    omega
  · rw [decide_eq_false hneg, if_neg (by decide)]
    omega

/-- The exponent that is written is read back. -/
theorem readPower_renderExponent (e : Int) {rest : List Char}
    (hrest : ∀ c ∈ rest.head?, c.isDigit = false) :
    readPower (renderExponent e ++ rest) = (some e, rest) := by
  obtain ⟨body, hform, hne, hbody, hvalue⟩ := renderExponent_eq e
  have hspan := spanDigits_append hbody hrest
  have hsign : readSign ((if e < 0 then '-' else '+') :: (body ++ rest))
      = (decide (e < 0), body ++ rest) := by
    by_cases hneg : e < 0
    · rw [if_pos hneg, decide_eq_true hneg, readSign]
    · rw [if_neg hneg, decide_eq_false hneg, readSign]
  obtain ⟨d, ds, hcons⟩ := List.exists_cons_of_ne_nil hne
  rw [hform, List.cons_append, List.cons_append, readPower, if_pos (by decide), hsign]
  dsimp only
  rw [hspan]
  conv_rhs => rw [← ite_neg_natAbs e, ← hvalue]
  rw [hcons]

/-- A point with a zero behind it. -/
theorem readPlaces_zero {rest : List Char} (hrest : EndsNumber rest) :
    readPlaces ('.' :: (['0'] ++ rest)) = (['0'], rest) :=
  readPlaces_append (List.cons_ne_nil _ _) (List.forall_mem_singleton.mpr (by decide))
    fun c hc => (hrest c hc).1

/-! ## Integers -/

theorem readWhole_digitsOf (n : Nat) {rest : List Char}
    (hrest : ∀ c ∈ rest.head?, c.isDigit = false) :
    readWhole (digitsOf n ++ rest) = some (digitsOf n, rest) := by
  by_cases hn : n = 0
  · rw [hn]
    rfl
  · exact readWhole_append (digitsOf_ne_nil n) (fun c => isDigit_of_mem_digitsOf)
      (head?_digitsOf hn) hrest

/-- **The digits of an integer are read back.** -/
theorem readMagnitude_digitsOf (negative : Bool) {n : Nat}
    (hn : (digitsOf n).length ≤ maxIntDigits) {rest : List Char} (hrest : EndsNumber rest) :
    readMagnitude negative (digitsOf n ++ rest)
      = .ok (.int (if negative then -(n : Int) else n), rest) := by
  have hwhole := readWhole_digitsOf n fun c hc => (hrest c hc).1
  have hplaces := readPlaces_of_ne_point fun c hc => (hrest c hc).2.1
  rw [readMagnitude, hwhole]
  simp only [hplaces, readPower_of_endsNumber hrest, List.isEmpty_nil, Option.isNone_none,
    Bool.and_self, if_true, Nat.not_lt.mpr hn, if_false, digitsValue_digitsOf]

/-! ## Doubles -/

/-- A number with a point or an exponent is the double nearest to the decimal that it spells. -/
theorem readMagnitude_of_parts (negative : Bool) {cs whole places behind after rest : List Char}
    {power : Option Int} (hwhole : readWhole cs = some (whole, behind))
    (hplaces : readPlaces behind = (places, after)) (hpower : readPower after = (power, rest))
    (hfloat : places ≠ [] ∨ power.isSome = true) :
    readMagnitude negative cs = .ok (.float (Binary64.nearest negative
      (digitsValue (whole ++ places) * 10 ^ (power.getD 0 - places.length))), rest) := by
  have htest : (places.isEmpty && power.isNone) = false := by
    cases power with
    | none =>
        have hne := hfloat.resolve_right (by decide)
        rw [List.isEmpty_eq_false_iff.mpr hne]
        rfl
    | some e => exact Bool.and_false _
  rw [readMagnitude, hwhole]
  simp only [hplaces, hpower, htest, Bool.false_eq_true, if_false, Binary64.ofDecimal_eq_nearest]

theorem head?_not_digit {c : Char} (hc : c.isDigit = false) (cs : List Char) :
    ∀ d ∈ (c :: cs).head?, d.isDigit = false := by
  intro d hd
  rw [List.head?_cons, Option.mem_some_iff] at hd
  rw [← hd]
  exact hc

section

variable {rest : List Char} (hrest : EndsNumber rest) (negative : Bool) {d : Nat} (hd : d ≠ 0)
include hrest hd

/-- All digits stand before the point, with zeros behind them. -/
theorem readMagnitude_whole (n : Nat) :
    readMagnitude negative (digitsOf d ++ List.replicate n '0' ++ ['.', '0'] ++ rest)
      = .ok (.float (Binary64.nearest negative (d * 10 ^ (n : ℤ))), rest) := by
  have hwhole : readWhole (digitsOf d ++ List.replicate n '0' ++ (['.', '0'] ++ rest))
      = some (digitsOf d ++ List.replicate n '0', ['.', '0'] ++ rest) := by
    refine readWhole_append (List.append_ne_nil_of_left_ne_nil (digitsOf_ne_nil d) _) ?_ ?_
      (head?_not_digit (by decide) _)
    · exact List.forall_mem_append.mpr ⟨fun c => isDigit_of_mem_digitsOf, isDigit_zeros n⟩
    · rw [List.head?_append_of_ne_nil _ (digitsOf_ne_nil d)]
      exact head?_digitsOf hd
  -- the zero behind the point is one more zero behind the digits
  have hvalue := digitsValue_append_zeros (digitsOf d) (n + 1)
  rw [List.replicate_succ', ← List.append_assoc, digitsValue_digitsOf] at hvalue
  rw [List.append_assoc, readMagnitude_of_parts negative hwhole (readPlaces_zero hrest)
    (readPower_of_endsNumber hrest) (Or.inl (List.cons_ne_nil _ _)), hvalue]
  have hpow : ((10 ^ (n + 1) * d : Nat) : ℚ)
      * 10 ^ ((none : Option Int).getD 0 - (['0'].length : ℤ)) = d * 10 ^ (n : ℤ) := by
    rw [Option.getD_none, List.length_singleton, zpow_natCast, pow_succ]
    push_cast
    norm_num
    ring
  rw [hpow]

/-- The point stands between the digits. -/
theorem readMagnitude_split {w : Nat} (hw : 0 < w) (hlength : w < (digitsOf d).length) :
    readMagnitude negative ((digitsOf d).take w ++ '.' :: (digitsOf d).drop w ++ rest)
      = .ok (.float (Binary64.nearest negative (d * 10 ^ (-((digitsOf d).length - w : Nat) : ℤ))),
          rest) := by
  have htake : (digitsOf d).take w ≠ [] := by
    rw [Ne, List.take_eq_nil_iff]
    rintro (h | h)
    · omega
    · exact digitsOf_ne_nil d h
  have hdrop : (digitsOf d).drop w ≠ [] := by
    rw [Ne, List.drop_eq_nil_iff]
    omega
  have hhead : ((digitsOf d).take w).head? ≠ some '0' := by
    rw [List.head?_take, if_neg (by omega)]
    exact head?_digitsOf hd
  have hwhole : readWhole ((digitsOf d).take w ++ ('.' :: ((digitsOf d).drop w ++ rest)))
      = some ((digitsOf d).take w, '.' :: ((digitsOf d).drop w ++ rest)) :=
    readWhole_append htake (fun c hc => isDigit_of_mem_digitsOf (List.mem_of_mem_take hc)) hhead
      (head?_not_digit (by decide) _)
  have hplaces : readPlaces ('.' :: ((digitsOf d).drop w ++ rest)) = ((digitsOf d).drop w, rest) :=
    readPlaces_append hdrop (fun c hc => isDigit_of_mem_digitsOf (List.mem_of_mem_drop hc))
      fun c hc => (hrest c hc).1
  rw [List.append_assoc, List.cons_append, readMagnitude_of_parts negative hwhole hplaces
    (readPower_of_endsNumber hrest) (Or.inl hdrop), List.take_append_drop, digitsValue_digitsOf,
    Option.getD_none, List.length_drop, zero_sub]

omit hd in
/-- All digits stand behind the point, with zeros in front of them. -/
theorem readMagnitude_fraction (n : Nat) :
    readMagnitude negative ('0' :: '.' :: (List.replicate n '0' ++ digitsOf d) ++ rest)
      = .ok (.float (Binary64.nearest negative (d * 10 ^ (-(n + (digitsOf d).length : Nat) : ℤ))),
          rest) := by
  have hne : List.replicate n '0' ++ digitsOf d ≠ [] :=
    List.append_ne_nil_of_right_ne_nil _ (digitsOf_ne_nil d)
  have hdigits : ∀ c ∈ List.replicate n '0' ++ digitsOf d, c.isDigit = true :=
    List.forall_mem_append.mpr ⟨isDigit_zeros n, fun c => isDigit_of_mem_digitsOf⟩
  have hplaces : readPlaces ('.' :: (List.replicate n '0' ++ digitsOf d ++ rest))
      = (List.replicate n '0' ++ digitsOf d, rest) :=
    readPlaces_append hne hdigits fun c hc => (hrest c hc).1
  have hvalue : digitsValue (['0'] ++ (List.replicate n '0' ++ digitsOf d)) = d := by
    rw [← List.append_assoc, ← List.replicate_one, ← List.replicate_add,
      digitsValue_zeros_append, digitsValue_digitsOf]
  have hwhole : readWhole ('0' :: '.' :: (List.replicate n '0' ++ digitsOf d ++ rest))
      = some (['0'], '.' :: (List.replicate n '0' ++ digitsOf d ++ rest)) := rfl
  rw [List.cons_append, List.cons_append, readMagnitude_of_parts negative hwhole hplaces
    (readPower_of_endsNumber hrest) (Or.inl hne), hvalue, Option.getD_none, List.length_append,
    List.length_replicate, zero_sub]

/-- One digit stands before the point, and there is an exponent. -/
theorem readMagnitude_scientific (e : Int) :
    readMagnitude negative ((match digitsOf d with
        | [] => []
        | [c] => [c]
        | c :: places => c :: '.' :: places) ++ renderExponent e ++ rest)
      = .ok (.float (Binary64.nearest negative (d * 10 ^ (e - ((digitsOf d).length - 1 : Nat)))),
          rest) := by
  have hpower := readPower_renderExponent e fun c hc => (hrest c hc).1
  have hexponent : ∃ tail, renderExponent e ++ rest = 'e' :: tail := ⟨_, rfl⟩
  have hvalue := digitsValue_digitsOf d
  have hzero := head?_digitsOf hd
  have hdigits : ∀ c ∈ digitsOf d, c.isDigit = true := fun c => isDigit_of_mem_digitsOf
  obtain ⟨tail, htail⟩ := hexponent
  have hends : ∀ c ∈ (renderExponent e ++ rest).head?, c.isDigit = false := by
    rw [htail]
    exact head?_not_digit (by decide) _
  rw [List.append_assoc]
  match hform : digitsOf d with
  | [] => exact absurd hform (digitsOf_ne_nil d)
  | [c] =>
      rw [hform] at hvalue hzero hdigits
      have hwhole : readWhole ([c] ++ (renderExponent e ++ rest))
          = some ([c], renderExponent e ++ rest) :=
        readWhole_append (by simp) hdigits hzero hends
      have hplaces : readPlaces (renderExponent e ++ rest) = ([], renderExponent e ++ rest) := by
        refine readPlaces_of_ne_point ?_
        rw [htail]
        simp
      rw [readMagnitude_of_parts negative hwhole hplaces hpower (Or.inr rfl), List.append_nil,
        hvalue]
      rfl
  | c :: p :: places =>
      rw [hform] at hvalue hzero hdigits
      have hwhole : readWhole ([c] ++ ('.' :: (p :: places ++ (renderExponent e ++ rest))))
          = some ([c], '.' :: (p :: places ++ (renderExponent e ++ rest))) :=
        readWhole_append (by simp) (fun x hx => hdigits x (by simp_all)) hzero
          (head?_not_digit (by decide) _)
      have hplaces : readPlaces ('.' :: (p :: places ++ (renderExponent e ++ rest)))
          = (p :: places, renderExponent e ++ rest) :=
        readPlaces_append (by simp) (fun x hx => hdigits x (List.mem_cons_of_mem _ hx)) hends
      show readMagnitude negative ([c] ++ ('.' :: (p :: places ++ (renderExponent e ++ rest)))) = _
      rw [readMagnitude_of_parts negative hwhole hplaces hpower (Or.inr rfl), List.singleton_append,
        hvalue]
      rfl

/-- **The digits of a double are read back in each of the four layouts.** -/
theorem readMagnitude_renderDecimal (style : DecimalStyle) (k : Int) :
    readMagnitude negative (renderDecimal style d k ++ rest)
      = .ok (.float (Binary64.nearest negative (d * 10 ^ k)), rest) := by
  have hlength : 0 < (digitsOf d).length := List.length_pos_of_ne_nil (digitsOf_ne_nil d)
  unfold renderDecimal
  dsimp only
  split
  · split
    next hk =>
      rw [readMagnitude_whole hrest negative hd, Int.toNat_of_nonneg hk]
    next hk =>
      split
      next hlead =>
        have hplaces :
            (-((digitsOf d).length - ((k + (digitsOf d).length - 1).toNat + 1) : Nat) : ℤ) = k := by
          omega
        rw [readMagnitude_split hrest negative hd (by omega) (by omega), hplaces]
      next hlead =>
        have hplaces :
            (-((-(k + (digitsOf d).length - 1) - 1).toNat + (digitsOf d).length : Nat) : ℤ) = k := by
          omega
        rw [readMagnitude_fraction hrest negative, hplaces]
  · have hlead : k + (digitsOf d).length - 1 - ((digitsOf d).length - 1 : Nat) = k := by omega
    conv_rhs => rw [← hlead]
    exact readMagnitude_scientific hrest negative hd _

end

/-! ## Numbers with their signs -/

/-- A character that JSON text is made of: a printable one of ASCII, or a newline. -/
def IsWritten (c : Char) : Prop := c = '\n' ∨ 32 ≤ c.toNat ∧ c.toNat < 127

instance (c : Char) : Decidable (IsWritten c) := inferInstanceAs (Decidable (_ ∨ _ ∧ _))

/-- A text that is given is gone through character by character. -/
theorem isWritten_of_all {cs : List Char} (h : (cs.all fun c => decide (IsWritten c)) = true) :
    ∀ c ∈ cs, IsWritten c :=
  fun c hc => of_decide_eq_true (List.all_eq_true.mp h c hc)

theorem isWritten_of_isDigit {c : Char} (h : c.isDigit = true) : IsWritten c := by
  obtain ⟨hlow, hhigh⟩ := toNat_of_isDigit h
  right
  omega

theorem isWritten_of_mem_digitsOf {n : Nat} {c : Char} (hc : c ∈ digitsOf n) : IsWritten c :=
  isWritten_of_isDigit (isDigit_of_mem_digitsOf hc)

theorem isWritten_renderExponent (e : Int) : ∀ c ∈ renderExponent e, IsWritten c := by
  obtain ⟨body, hform, -, hbody, -⟩ := renderExponent_eq e
  have hsign : IsWritten (if e < 0 then '-' else '+') := by
    split <;> decide
  rw [hform, List.forall_mem_cons, List.forall_mem_cons]
  exact ⟨by decide, hsign, fun c hc => isWritten_of_isDigit (hbody c hc)⟩

theorem isWritten_renderDecimal (style : DecimalStyle) (d : Nat) (k : Int) :
    ∀ c ∈ renderDecimal style d k, IsWritten c := by
  have hdigits : ∀ c ∈ digitsOf d, IsWritten c := fun c => isWritten_of_mem_digitsOf
  have hzeros : ∀ n, ∀ c ∈ List.replicate n '0', IsWritten c := fun n c hc =>
    isWritten_of_isDigit (isDigit_zeros n c hc)
  have hpoint : IsWritten '.' := by decide
  unfold renderDecimal
  dsimp only
  split
  · split
    · rw [List.forall_mem_append, List.forall_mem_append]
      exact ⟨⟨hdigits, hzeros _⟩, isWritten_of_all (by decide)⟩
    · split
      · rw [List.forall_mem_append, List.forall_mem_cons]
        exact ⟨fun c hc => hdigits c (List.mem_of_mem_take hc), hpoint,
          fun c hc => hdigits c (List.mem_of_mem_drop hc)⟩
      · rw [List.forall_mem_cons, List.forall_mem_cons, List.forall_mem_append]
        exact ⟨by decide, hpoint, hzeros _, hdigits⟩
  · rw [List.forall_mem_append]
    refine ⟨?_, isWritten_renderExponent _⟩
    match hform : digitsOf d with
    | [] => exact fun c hc => absurd hc List.not_mem_nil
    | [c] =>
        rw [hform] at hdigits
        exact hdigits
    | c :: p :: places =>
        rw [hform, List.forall_mem_cons] at hdigits
        show ∀ x ∈ c :: '.' :: p :: places, IsWritten x
        rw [List.forall_mem_cons, List.forall_mem_cons]
        exact ⟨hdigits.1, hpoint, hdigits.2⟩

/-- A number starts with a digit. -/
theorem head?_renderDecimal (style : DecimalStyle) (d : Nat) (k : Int) :
    ∃ c cs, renderDecimal style d k = c :: cs ∧ c.isDigit = true := by
  obtain ⟨c, cs, hform⟩ := List.exists_cons_of_ne_nil (digitsOf_ne_nil d)
  have hc : c.isDigit = true := isDigit_of_mem_digitsOf (n := d) (hform ▸ List.mem_cons_self)
  unfold renderDecimal
  rw [hform]
  dsimp only
  split
  · split
    · exact ⟨c, _, rfl, hc⟩
    · split
      · exact ⟨c, _, rfl, hc⟩
      · exact ⟨'0', _, rfl, by decide⟩
  · cases cs with
    | nil => exact ⟨c, _, rfl, hc⟩
    | cons p places => exact ⟨c, _, rfl, hc⟩

/-- Characters behind a minus sign, if there is one. -/
def signed (negative : Bool) (cs : List Char) : List Char :=
  (if negative then ['-'] else []) ++ cs

theorem ne_of_isDigit {c d : Char} (hc : c.isDigit = true) (hd : d.isDigit = false) : c ≠ d := by
  rintro rfl
  exact Bool.false_ne_true (hd.symm.trans hc)

theorem ne_of_isDigit_or_minus {c d : Char} (hc : c.isDigit = true ∨ c = '-')
    (hd : d.isDigit = false ∧ d ≠ '-') : c ≠ d := by
  obtain hc | rfl := hc
  · exact ne_of_isDigit hc hd.1
  · exact hd.2.symm

/-- What starts with a digit or a minus sign is no word. -/
theorem readScalar_of_head {c : Char} (hc : c.isDigit = true ∨ c = '-') (rest : List Char) :
    readScalar (c :: rest) = readNumber (c :: rest) := by
  have hother : ∀ d : Char, (d.isDigit = false ∧ d ≠ '-') → d ≠ c := fun d hd =>
    (ne_of_isDigit_or_minus hc hd).symm
  have hwords : ∀ w ∈ words, readWord w.1.toList (c :: rest) = none := by
    simp [words, readWord, hother 'n' (by decide), hother 't' (by decide), hother 'f' (by decide),
      hother 'N' (by decide), hother 'I' (by decide)]
  unfold readScalar
  split
  next found hfound =>
    obtain ⟨⟨word, d⟩, hmem, hword⟩ := List.exists_of_findSome?_eq_some hfound
    have hnone : readWord word.toList (c :: rest) = none := hwords _ hmem
    dsimp only at hword
    rw [hnone] at hword
    cases hword
  next => rfl

/-- A number with its sign. -/
theorem readScalar_signed (negative : Bool) {c : Char} (hc : c.isDigit = true) (rest : List Char) :
    readScalar (signed negative (c :: rest)) = readMagnitude negative (c :: rest) := by
  cases negative with
  | false =>
      have hminus : c ≠ '-' := ne_of_isDigit hc (by decide)
      show readScalar (c :: rest) = _
      rw [readScalar_of_head (Or.inl hc), readNumber]
      intro cs h
      exact hminus (List.cons_eq_cons.mp h).1
  | true =>
      have hinfinity : c ≠ 'I' := ne_of_isDigit hc (by decide)
      have hword : readWord "Infinity".toList (c :: rest) = none := by
        simp [readWord, List.isPrefixOf, hinfinity.symm]
      show readScalar ('-' :: c :: rest) = _
      rw [readScalar_of_head (Or.inr rfl), readNumber, hword]

/-! ## Both kinds of numbers -/

theorem toList_toString_int (n : Int) :
    (toString n).toList = signed (decide (n < 0)) (digitsOf n.natAbs) := by
  cases n with
  | ofNat m => exact Nat.toList_repr
  | negSucc m =>
      show ("-" ++ (m + 1).repr).toList = _
      rw [String.toList_append, Nat.toList_repr, decide_eq_true (Int.negSucc_lt_zero m)]
      rfl

/-- **An integer that is written is read back.** -/
theorem readScalar_int {n : Int} (hn : (digitsOf n.natAbs).length ≤ maxIntDigits) {rest : List Char}
    (hrest : EndsNumber rest) :
    readScalar ((toString n).toList ++ rest) = .ok (.int n, rest) := by
  obtain ⟨c, cs, hform⟩ := List.exists_cons_of_ne_nil (digitsOf_ne_nil n.natAbs)
  have hc : c.isDigit = true := isDigit_of_mem_digitsOf (n := n.natAbs) (hform ▸ List.mem_cons_self)
  have hread := readMagnitude_digitsOf (decide (n < 0)) hn hrest
  rw [hform, List.cons_append] at hread
  rw [toList_toString_int, signed, List.append_assoc, hform]
  refine (readScalar_signed _ hc _).trans (hread.trans ?_)
  rw [ite_neg_natAbs]

/-- The text of a finite double. -/
theorem toList_floatText (negative : Bool) (m : Nat) (q : Int) :
    ∃ digits, (floatText (.finite negative m q)).toList = signed negative digits ∧
      (∀ c ∈ digits, IsWritten c) ∧ ∃ c cs, digits = c :: cs ∧ c.isDigit = true := by
  refine ⟨_, String.toList_ofList, ?_⟩
  split
  · exact ⟨isWritten_of_all (by decide), '0', _, rfl, by decide⟩
  · exact ⟨isWritten_renderDecimal _ _ _, head?_renderDecimal _ _ _⟩

/-- **A double that is written is read back.** -/
theorem readScalar_float {x : Binary64} (hx : x.Canonical) {rest : List Char}
    (hrest : EndsNumber rest) :
    readScalar ((floatText x).toList ++ rest) = .ok (.float x, rest) := by
  cases x with
  | nan => rfl
  | infinite negative => cases negative <;> rfl
  | finite negative m q =>
      have hform : (floatText (.finite negative m q)).toList
          = signed negative (if m = 0 then ['0', '.', '0']
            else renderDecimal .general (Binary64.shortestDigits m q).1
              (Binary64.shortestDigits m q).2) := String.toList_ofList
      rw [hform]
      obtain ⟨rfl, rfl⟩ | hrep := hx
      · have hwhole : readWhole ('0' :: '.' :: (['0'] ++ rest))
            = some (['0'], '.' :: (['0'] ++ rest)) := rfl
        have hread := readMagnitude_of_parts negative hwhole (readPlaces_zero hrest)
          (readPower_of_endsNumber hrest) (Or.inl (List.cons_ne_nil _ _))
        rw [if_pos rfl, signed, List.append_assoc]
        refine (readScalar_signed negative (c := '0') (by decide) _).trans (hread.trans ?_)
        have hzero : digitsValue (['0'] ++ ['0']) = 0 := by decide
        rw [hzero, Nat.cast_zero, zero_mul]
        rfl
      · have hback := Binary64.nearest_shortestDigits hrep
        have hread := readMagnitude_renderDecimal hrest negative
          (Binary64.shortestDigits_ne_zero hrep) .general (Binary64.shortestDigits m q).2
        obtain ⟨c, cs, hhead, hc⟩ := head?_renderDecimal .general (Binary64.shortestDigits m q).1
          (Binary64.shortestDigits m q).2
        rw [Binary64.nearest_withSign, hback, hhead] at hread
        rw [if_neg hrep.ne_zero, signed, List.append_assoc, hhead]
        exact (readScalar_signed negative hc _).trans hread

end ReviewGate.Json
