import ReviewGate.Proofs.Json.RoundTrip

/-!
# `ReviewGate.Proofs.Json.Locality` — the text that a value is read from

Reading a value takes a text off the front, and this text alone decides what is read: whatever else
stands behind it, as long as no number is carried on, the same value is read (`Spells`). The readers
of strings and numbers come first; the values, items and members follow in one induction on the
fuel. The text of a value begins and ends with a mark, a digit, a sign or the outer letter of a
word, never with whitespace.

## Contents
- `readUnits_spelled`, `readString_spelled`: strings.
- `readWhole_spelled`, `readPlaces_spelled`, `readPower_spelled`, `readMagnitude_spelled`: numbers.
- `Begins`, `Ends`, `Spells`, `SpellsItems`, `SpellsMembers`: texts with what they are read as.
- `ReadsSpelled`, `readsSpelled`: the readers take such texts off the front.
- `exists_spells_of_parse`: a text that is read is a value between whitespace.
-/

namespace ReviewGate.Json

open Number

/-! ## Strings -/

/-- What is read up to the closing mark does not depend on what stands behind the mark. -/
theorem readUnits_spelled {read units : List Nat} {cs rest : List Char}
    (h : readUnits read cs = some (units, rest)) :
    ∃ text, cs = text ++ '"' :: rest ∧
      ∀ tail, readUnits read (text ++ '"' :: tail) = some (units, tail) := by
  induction read, cs using readUnits.induct with
  | case1 read => cases h
  | case2 read behind =>
      obtain ⟨rfl, rfl⟩ := Prod.mk.inj (Option.some.inj h)
      exact ⟨[], rfl, fun _ => rfl⟩
  | case3 read a b c d behind n hn ih =>
      rw [readUnits, hn] at h
      obtain ⟨text, rfl, htext⟩ := ih h
      refine ⟨'\\' :: 'u' :: a :: b :: c :: d :: text, rfl, fun tail => ?_⟩
      show readUnits read ('\\' :: 'u' :: a :: b :: c :: d :: (text ++ '"' :: tail)) = _
      rw [readUnits, hn]
      exact htext tail
  | case4 read a b c d behind hn =>
      rw [readUnits, hn] at h
      cases h
  | case5 read c behind hunit target htarget ih =>
      rw [readUnits, htarget] at h
      · obtain ⟨text, rfl, htext⟩ := ih h
        refine ⟨'\\' :: c :: text, rfl, fun tail => ?_⟩
        have hu : c ≠ 'u' := by
          rintro rfl
          cases htarget
        show readUnits read ('\\' :: c :: (text ++ '"' :: tail)) = _
        rw [readUnits, htarget]
        · exact htext tail
        · exact fun _ _ _ _ _ h => absurd h hu
      · exact hunit
  | case6 read c behind hunit htarget =>
      rw [readUnits, htarget] at h
      · cases h
      · exact hunit
  | case7 read c behind hquote hunit hescape hcontrol =>
      rw [readUnits, if_pos hcontrol] at h
      · cases h
      · exact hquote
      · exact hunit
      · exact hescape
  | case8 read c behind hquote hunit hescape hcontrol ih =>
      rw [readUnits, if_neg hcontrol] at h
      · obtain ⟨text, rfl, htext⟩ := ih h
        have hslash : c ≠ '\\' := by
          rintro rfl
          cases text with
          | nil => exact hescape _ _ rfl rfl
          | cons d text => exact hescape _ _ rfl rfl
        refine ⟨c :: text, rfl, fun tail => ?_⟩
        show readUnits read (c :: (text ++ '"' :: tail)) = _
        rw [readUnits, if_neg hcontrol]
        · exact htext tail
        · exact hquote
        · exact fun _ _ _ _ _ h => absurd h hslash
        · exact fun _ _ h => absurd h hslash
      · exact hquote
      · exact hunit
      · exact hescape

theorem readString_spelled {cs name rest : List Char} (h : readString cs = some (name, rest)) :
    ∃ text, cs = text ++ '"' :: rest ∧
      ∀ tail, readString (text ++ '"' :: tail) = some (name, tail) := by
  obtain ⟨⟨units, rest⟩, hunits, hname⟩ := Option.map_eq_some_iff.mp h
  obtain ⟨rfl, rfl⟩ := Prod.mk.inj hname
  obtain ⟨text, hform, htext⟩ := readUnits_spelled hunits
  refine ⟨text, hform, fun tail => ?_⟩
  rw [readString, htext tail]
  rfl

/-! ## Numbers -/

/-- Digits at the front are taken off up to the first character that is none. -/
theorem spanDigits_spelled {cs ds rest : List Char} (h : spanDigits cs = (ds, rest)) :
    cs = ds ++ rest ∧ ∀ c ∈ ds, c.isDigit = true := by
  rw [spanDigits, List.span_eq_takeWhile_dropWhile] at h
  obtain ⟨rfl, rfl⟩ := Prod.mk.inj h
  exact ⟨List.takeWhile_append_dropWhile.symm, fun c hc =>
    List.all_eq_true.mp List.all_takeWhile c hc⟩

/-- The digits before the point are read again wherever no digit carries them on. -/
theorem readWhole_spelled {cs whole rest : List Char} (h : readWhole cs = some (whole, rest)) :
    cs = whole ++ rest ∧ ∀ tail, (∀ c ∈ tail.head?, c.isDigit = false) →
      readWhole (whole ++ tail) = some (whole, tail) := by
  obtain ⟨hne, hdigits⟩ := readWhole_digits h
  unfold readWhole at h
  split at h
  · obtain ⟨rfl, rfl⟩ := Prod.mk.inj (Option.some.inj h)
    exact ⟨rfl, fun _ _ => rfl⟩
  next hzero =>
    split at h
    · cases h
    next ds after _ hspan =>
      obtain ⟨rfl, rfl⟩ := Prod.mk.inj (Option.some.inj h)
      obtain ⟨hform, -⟩ := spanDigits_spelled hspan
      refine ⟨hform, fun tail htail => readWhole_append hne hdigits ?_ htail⟩
      -- digits that start with a zero are read one at a time
      intro hhead
      obtain ⟨ds, rfl⟩ := List.head?_eq_some_iff.mp hhead
      exact hzero _ hform

theorem getLast?_digits {ds : List Char} (hne : ds ≠ []) (hdigits : ∀ c ∈ ds, c.isDigit = true)
    (cs : List Char) : ∀ c ∈ (cs ++ ds).getLast?, c.isDigit = true := by
  rw [List.getLast?_append_of_ne_nil _ hne]
  exact fun c hc => hdigits c (List.mem_of_getLast? hc)

/-- The text is nothing or the places of a number with the point before them. -/
structure SpellsPlaces (text places : List Char) : Prop where
  ends : ∀ c ∈ text.getLast?, c.isDigit = true
  head : ∀ {tail}, (∀ c ∈ tail.head?, c.isDigit = false) →
    ∀ c ∈ (text ++ tail).head?, c.isDigit = false
  read : ∀ {tail}, (∀ c ∈ tail.head?, c.isDigit = false ∧ c ≠ '.') →
    readPlaces (text ++ tail) = (places, tail)

theorem spellsPlaces_nil : SpellsPlaces [] [] where
  ends := fun _ hc => nomatch hc
  head := fun htail => htail
  read := fun htail => readPlaces_of_ne_point fun c hc => (htail c hc).2

theorem exists_spellsPlaces {cs places rest : List Char} (h : readPlaces cs = (places, rest)) :
    ∃ text, cs = text ++ rest ∧ SpellsPlaces text places := by
  unfold readPlaces at h
  split at h
  · split at h
    · obtain ⟨rfl, rfl⟩ := Prod.mk.inj h
      exact ⟨[], rfl, spellsPlaces_nil⟩
    next ds after hne hspan =>
      obtain ⟨rfl, rfl⟩ := Prod.mk.inj h
      obtain ⟨rfl, hdigits⟩ := spanDigits_spelled hspan
      exact ⟨'.' :: ds, rfl, getLast?_digits hne hdigits ['.'],
        fun _ => head?_not_digit (by decide) _,
        fun htail => readPlaces_append hne hdigits fun c hc => (htail c hc).1⟩
  · obtain ⟨rfl, rfl⟩ := Prod.mk.inj h
    exact ⟨[], rfl, spellsPlaces_nil⟩

/-- A sign in front of digits is taken off, whatever stands behind them. -/
theorem readSign_spelled {cs ds rest : List Char} {negative : Bool}
    (h : readSign cs = (negative, ds ++ rest)) (hne : ds ≠ [])
    (hdigits : ∀ c ∈ ds, c.isDigit = true) :
    ∃ sign, cs = sign ++ (ds ++ rest) ∧
      ∀ tail, readSign (sign ++ (ds ++ tail)) = (negative, ds ++ tail) := by
  unfold readSign at h
  split at h
  · obtain ⟨rfl, rfl⟩ := Prod.mk.inj h
    exact ⟨['-'], rfl, fun _ => rfl⟩
  · obtain ⟨rfl, rfl⟩ := Prod.mk.inj h
    exact ⟨['+'], rfl, fun _ => rfl⟩
  · obtain ⟨rfl, rfl⟩ := Prod.mk.inj h
    refine ⟨[], rfl, fun tail => ?_⟩
    obtain ⟨d, ds, rfl⟩ := List.exists_cons_of_ne_nil hne
    have hd := hdigits d List.mem_cons_self
    show readSign (d :: (ds ++ tail)) = _
    rw [readSign]
    · rfl
    · exact fun _ h => ne_of_isDigit hd (by decide) (List.cons_eq_cons.mp h).1
    · exact fun _ h => ne_of_isDigit hd (by decide) (List.cons_eq_cons.mp h).1

/-- The text is nothing or the exponent of a number. -/
structure SpellsPower (text : List Char) (power : Option Int) : Prop where
  ends : ∀ c ∈ text.getLast?, c.isDigit = true
  head : ∀ {tail}, EndsNumber tail → ∀ c ∈ (text ++ tail).head?, c.isDigit = false ∧ c ≠ '.'
  read : ∀ {tail}, EndsNumber tail → readPower (text ++ tail) = (power, tail)

theorem spellsPower_nil : SpellsPower [] none where
  ends := fun _ hc => nomatch hc
  head := fun htail c hc => ⟨(htail c hc).1, (htail c hc).2.1⟩
  read := readPower_of_endsNumber

theorem exists_spellsPower {cs rest : List Char} {power : Option Int}
    (h : readPower cs = (power, rest)) : ∃ text, cs = text ++ rest ∧ SpellsPower text power := by
  unfold readPower at h
  split at h
  next c behind =>
    split at h
    next hletter =>
      dsimp only at h
      split at h
      · obtain ⟨rfl, rfl⟩ := Prod.mk.inj h
        exact ⟨[], rfl, spellsPower_nil⟩
      next ds after hne hspan =>
        obtain ⟨rfl, rfl⟩ := Prod.mk.inj h
        obtain ⟨hbody, hdigits⟩ := spanDigits_spelled hspan
        obtain ⟨sign, hform, hsign⟩ := readSign_spelled (Prod.ext rfl hbody) hne hdigits
        refine ⟨c :: sign ++ ds, ?_, getLast?_digits hne hdigits _, fun _ d hd => ?_,
          fun {tail} htail => ?_⟩
        · rw [hform, List.append_assoc, List.cons_append]
        · obtain rfl : c = d := Option.some.inj hd
          rw [Bool.or_eq_true, beq_iff_eq, beq_iff_eq] at hletter
          obtain rfl | rfl := hletter <;> decide
        · have hspan := spanDigits_append hdigits fun d hd => (htail d hd).1
          obtain ⟨d, ds, rfl⟩ := List.exists_cons_of_ne_nil hne
          rw [List.append_assoc, List.cons_append, readPower, if_pos hletter, hsign tail]
          dsimp only
          rw [hspan]
    · obtain ⟨rfl, rfl⟩ := Prod.mk.inj h
      exact ⟨[], rfl, spellsPower_nil⟩
  · obtain ⟨rfl, rfl⟩ := Prod.mk.inj h
    exact ⟨[], rfl, spellsPower_nil⟩

theorem forall_getLast?_append {p : Char → Prop} {cs ds : List Char}
    (hcs : ∀ c ∈ cs.getLast?, p c) (hds : ∀ c ∈ ds.getLast?, p c) :
    ∀ c ∈ (cs ++ ds).getLast?, p c := by
  cases ds with
  | nil => rwa [List.append_nil]
  | cons d ds => rwa [List.getLast?_append_of_ne_nil _ (List.cons_ne_nil d ds)]

/-- **The digits of a number are read again wherever no number is carried on.** -/
theorem readMagnitude_spelled {negative : Bool} {cs rest : List Char} {d : Document}
    (h : readMagnitude negative cs = .ok (d, rest)) :
    ∃ c ds, cs = c :: ds ++ rest ∧ c.isDigit = true ∧
      (∀ last ∈ (c :: ds).getLast?, last.isDigit = true) ∧
      ∀ tail, EndsNumber tail → readMagnitude negative (c :: ds ++ tail) = .ok (d, tail) := by
  unfold readMagnitude at h
  split at h
  · cases h
  next whole behind hwhole =>
    dsimp only at h
    obtain ⟨hne, hdigits⟩ := readWhole_digits hwhole
    obtain ⟨rfl, hwholes⟩ := readWhole_spelled hwhole
    obtain ⟨places, after, hplaces⟩ : ∃ places after, readPlaces behind = (places, after) :=
      ⟨_, _, rfl⟩
    obtain ⟨power, last, hpower⟩ : ∃ power last, readPower after = (power, last) := ⟨_, _, rfl⟩
    rw [hplaces] at h
    dsimp only at h
    rw [hpower] at h
    dsimp only at h
    obtain ⟨point, rfl, hpoint⟩ := exists_spellsPlaces hplaces
    obtain ⟨letter, rfl, hletter⟩ := exists_spellsPower hpower
    obtain rfl : last = rest := by
      split at h
      · split at h
        · cases h
        · exact (Prod.mk.inj (Except.ok.inj h)).2
      · exact (Prod.mk.inj (Except.ok.inj h)).2
    obtain ⟨c, ds, rfl⟩ := List.exists_cons_of_ne_nil hne
    refine ⟨c, ds ++ (point ++ letter), ?_, hdigits c List.mem_cons_self, ?_, fun tail htail => ?_⟩
    · simp only [List.cons_append, List.append_assoc]
    · exact forall_getLast?_append (getLast?_digits hne hdigits [])
        (forall_getLast?_append hpoint.ends hletter.ends)
    · have hhead := hletter.head htail
      have hwhole' := hwholes _ (hpoint.head fun c hc => (hhead c hc).1)
      have hform : c :: (ds ++ (point ++ letter)) ++ tail
          = c :: ds ++ (point ++ (letter ++ tail)) := by
        simp only [List.cons_append, List.append_assoc]
      rw [hform, readMagnitude, hwhole']
      dsimp only
      rw [hpoint.read hhead]
      dsimp only
      rw [hletter.read htail]
      dsimp only
      split at h
      next htest =>
        rw [if_pos htest]
        split at h
        · cases h
        next hlength => rw [if_neg hlength, ← (Prod.mk.inj (Except.ok.inj h)).1]
      next htest => rw [if_neg htest, ← (Prod.mk.inj (Except.ok.inj h)).1]

/-! ## Values -/

/-- A value can begin with the character. -/
def Begins (c : Char) : Prop := c.isDigit = true ∨ c ∈ "\"[\x7b-ntfNI".toList

/-- A value can end with the character. -/
def Ends (c : Char) : Prop := c.isDigit = true ∨ c ∈ "\"]\x7dleNy".toList

instance (c : Char) : Decidable (Begins c) := inferInstanceAs (Decidable (_ ∨ _))

instance (c : Char) : Decidable (Ends c) := inferInstanceAs (Decidable (_ ∨ _))

/-- The text is read as the value, whatever stands behind it as long as no number is carried on. -/
structure Spells (text : List Char) (d : Document) : Prop where
  begins : ∃ c cs, text = c :: cs ∧ Begins c
  ends : ∀ c ∈ text.getLast?, Ends c
  read : ∀ fuel tail, text.length ≤ fuel → EndsNumber tail →
    readValue fuel (text ++ tail) = .ok (d, tail)

/-- The text is read as the items of a list, the closing bracket included. -/
structure SpellsItems (text : List Char) (items : List Document) : Prop where
  starts : Starts text
  ends : ∃ cs, text = cs ++ [']']
  read : ∀ fuel tail, text.length ≤ fuel → readItems fuel (text ++ tail) = .ok (items, tail)

/-- The text is read as the members of an object, the closing brace included. -/
structure SpellsMembers (text : List Char) (entries : List (Document × Document)) : Prop where
  starts : ∃ cs, text = '"' :: cs
  ends : ∃ cs, text = cs ++ ['\x7d']
  read : ∀ fuel tail, text.length ≤ fuel → readMembers fuel (text ++ tail) = .ok (entries, tail)

/-- The text is read as a member of an object, behind which the brace closes or members follow. -/
structure SpellsMember (text : List Char) (entry : Document × Document) : Prop where
  starts : ∃ cs, text = '"' :: cs
  last : ∀ {fuel tail after}, text.length ≤ fuel → EndsNumber tail →
    skipGap tail = '\x7d' :: after → readMembers (fuel + 1) (text ++ tail) = .ok ([entry], after)
  more : ∀ {fuel tail rest entries after}, text.length ≤ fuel → EndsNumber tail →
    skipGap tail = ',' :: rest → readMembers fuel (skipGap rest) = .ok (entries, after) →
    readMembers (fuel + 1) (text ++ tail) = .ok (entry :: entries, after)

/-- What a value begins with neither is skipped nor closes a list. -/
theorem Spells.starts {text : List Char} {d : Document} (h : Spells text d) : Starts text := by
  obtain ⟨c, cs, rfl, hdigit | hmark⟩ := h.begins
  · obtain ⟨hgap, hclose, -⟩ := not_mark_of_isDigit (Or.inl hdigit)
    exact ⟨c, cs, rfl, hgap, hclose⟩
  · have hmarks : "\"[\x7b-ntfNI".toList.all (fun c => decide (isGap c = false ∧ c ≠ ']')) := by
      decide
    exact ⟨c, cs, rfl, of_decide_eq_true (List.all_eq_true.mp hmarks c hmark)⟩

theorem ends_of_getLast? {text : List Char} {last : Char} (h : text.getLast? = some last)
    (hlast : Ends last) : ∀ c ∈ text.getLast?, Ends c := fun _ hc =>
  Option.some.inj (h.symm.trans (Option.mem_def.mp hc)) ▸ hlast

/-! ### Scalars -/

theorem Spells.of_readScalar {text : List Char} {d : Document}
    (hbegins : ∃ c cs, text = c :: cs ∧ Begins c ∧ c ≠ '"' ∧ c ≠ '[' ∧ c ≠ '\x7b')
    (hends : ∀ c ∈ text.getLast?, Ends c)
    (hread : ∀ tail, EndsNumber tail → readScalar (text ++ tail) = .ok (d, tail)) :
    Spells text d := by
  obtain ⟨c, cs, rfl, hc, hmarks⟩ := hbegins
  refine ⟨⟨c, cs, rfl, hc⟩, hends, fun fuel tail hfuel htail => ?_⟩
  have hpos : 0 < fuel := lt_of_lt_of_le (Nat.succ_pos _) hfuel
  rw [List.cons_append, readValue_scalar hmarks hpos]
  exact hread tail htail

theorem spells_of_mem_words : ∀ w ∈ words, Spells w.1.toList w.2 := by
  simp only [words, List.forall_mem_cons]
  refine ⟨.of_readScalar ⟨_, _, rfl, by decide⟩ (ends_of_getLast? rfl (by decide)) fun _ _ => rfl,
    .of_readScalar ⟨_, _, rfl, by decide⟩ (ends_of_getLast? rfl (by decide)) fun _ _ => rfl,
    .of_readScalar ⟨_, _, rfl, by decide⟩ (ends_of_getLast? rfl (by decide)) fun _ _ => rfl,
    .of_readScalar ⟨_, _, rfl, by decide⟩ (ends_of_getLast? rfl (by decide)) fun _ _ => rfl,
    .of_readScalar ⟨_, _, rfl, by decide⟩ (ends_of_getLast? rfl (by decide)) fun _ _ => rfl,
    fun _ h => absurd h List.not_mem_nil⟩

theorem begins_signed (negative : Bool) {c : Char} (hc : c.isDigit = true) (cs : List Char) :
    ∃ d ds, signed negative (c :: cs) = d :: ds ∧ Begins d ∧ d ≠ '"' ∧ d ≠ '[' ∧ d ≠ '\x7b' := by
  obtain ⟨d, ds, hform, hd⟩ := head_signed negative hc cs
  obtain ⟨-, -, hmarks⟩ := not_mark_of_isDigit hd
  refine ⟨d, ds, hform, ?_, hmarks⟩
  obtain hdigit | rfl := hd
  · exact Or.inl hdigit
  · decide

/-- A number with its sign. -/
theorem exists_spells_signed {negative : Bool} {cs rest : List Char} {d : Document}
    (h : readMagnitude negative cs = .ok (d, rest)) :
    ∃ text, signed negative cs = text ++ rest ∧ Spells text d := by
  obtain ⟨c, ds, rfl, hc, hends, hread⟩ := readMagnitude_spelled h
  have hform : ∀ tail, signed negative (c :: ds ++ tail) = signed negative (c :: ds) ++ tail :=
    fun tail => (List.append_assoc ..).symm
  refine ⟨signed negative (c :: ds), hform rest, .of_readScalar (begins_signed negative hc ds) ?_
    fun tail htail => ?_⟩
  · rw [signed, List.getLast?_append_of_ne_nil _ (List.cons_ne_nil c ds)]
    exact fun last hlast => Or.inl (hends last hlast)
  · rw [← hform, List.cons_append, readScalar_signed negative hc]
    exact hread tail htail

theorem eq_append_of_readWord {word cs after : List Char} (h : readWord word cs = some after) :
    cs = word ++ after := by
  unfold readWord at h
  split at h
  next hbegins =>
    obtain ⟨behind, rfl⟩ := List.isPrefixOf_iff_prefix.mp hbegins
    rw [← Option.some.inj h, List.drop_left]
  next => cases h

theorem exists_spells_of_readScalar {cs rest : List Char} {d : Document}
    (h : readScalar cs = .ok (d, rest)) : ∃ text, cs = text ++ rest ∧ Spells text d := by
  unfold readScalar at h
  split at h
  next found hfound =>
    obtain ⟨w, hw, hread⟩ := List.exists_of_findSome?_eq_some hfound
    obtain ⟨after, hafter, rfl⟩ := Option.map_eq_some_iff.mp hread
    obtain ⟨rfl, rfl⟩ := Prod.mk.inj (Except.ok.inj h)
    exact ⟨_, eq_append_of_readWord hafter, spells_of_mem_words w hw⟩
  · unfold readNumber at h
    split at h
    · split at h
      next behind after hafter =>
        obtain ⟨rfl, rfl⟩ := Prod.mk.inj (Except.ok.inj h)
        exact ⟨"-Infinity".toList, congrArg ('-' :: ·) (eq_append_of_readWord hafter),
          .of_readScalar ⟨_, _, rfl, by decide⟩ (ends_of_getLast? rfl (by decide)) fun _ _ => rfl⟩
      · exact exists_spells_signed h
    · exact exists_spells_signed h

theorem spells_text {quoted name : List Char}
    (h : ∀ tail, readString (quoted ++ '"' :: tail) = some (name, tail)) :
    Spells ('"' :: (quoted ++ ['"'])) (.text (String.ofList name)) := by
  refine ⟨⟨_, _, rfl, by decide⟩, ?_, fun fuel tail hfuel _ => ?_⟩
  · rw [← List.cons_append]
    exact ends_of_getLast? List.getLast?_concat (by decide)
  · obtain ⟨fuel, rfl⟩ := Nat.exists_eq_add_of_lt (lt_of_lt_of_le (Nat.succ_pos _) hfuel)
    rw [Nat.zero_add, List.cons_append, List.append_assoc, List.singleton_append, readValue, h tail]

/-! ### Lists and objects -/

theorem exists_gap (cs : List Char) :
    ∃ gap, cs = gap ++ skipGap cs ∧ ∀ c ∈ gap, isGap c = true :=
  ⟨cs.takeWhile isGap, List.takeWhile_append_dropWhile.symm, fun c hc =>
    List.all_eq_true.mp List.all_takeWhile c hc⟩

/-- No number is carried on over whitespace or a mark behind it. -/
theorem endsNumber_gap_append {gap cs : List Char} (hgap : ∀ c ∈ gap, isGap c = true)
    (hcs : EndsNumber cs) : EndsNumber (gap ++ cs) := by
  cases gap with
  | nil => exact hcs
  | cons c gap =>
      have hc := hgap c List.mem_cons_self
      simp only [isGap, Bool.or_eq_true, beq_iff_eq] at hc
      refine endsNumber_cons ?_
      obtain ((rfl | rfl) | rfl) | rfl := hc <;> decide

section

variable {text more gap gap' : List Char} (hgap : ∀ c ∈ gap, isGap c = true)
  (hgap' : ∀ c ∈ gap', isGap c = true)
include hgap

theorem skipGap_gap_cons {c : Char} (hc : isGap c = false) (cs : List Char) :
    skipGap (gap ++ c :: cs) = c :: cs := by
  rw [skipGap_append hgap, skipGap_cons hc]

theorem spells_list_nil : Spells ('[' :: (gap ++ [']'])) (.list []) := by
  refine ⟨⟨_, _, rfl, by decide⟩, ?_, fun fuel tail hfuel _ => ?_⟩
  · rw [← List.cons_append]
    exact ends_of_getLast? List.getLast?_concat (by decide)
  · obtain ⟨fuel, rfl⟩ := Nat.exists_eq_add_of_lt (lt_of_lt_of_le (Nat.succ_pos _) hfuel)
    rw [Nat.zero_add, List.cons_append, List.append_assoc, List.singleton_append, readValue,
      skipGap_gap_cons hgap (by decide)]
    rfl

theorem SpellsItems.single {d : Document} (h : Spells text d) :
    SpellsItems (text ++ (gap ++ [']'])) [d] := by
  refine ⟨h.starts.append _, ⟨_, (List.append_assoc ..).symm⟩, fun fuel tail hfuel => ?_⟩
  simp only [List.length_append, List.length_singleton] at hfuel
  obtain ⟨fuel, rfl⟩ := Nat.exists_eq_succ_of_ne_zero (n := fuel) (by omega)
  have hvalue := h.read fuel (gap ++ ']' :: tail) (by omega)
    (endsNumber_gap_append hgap (endsNumber_cons (by decide)))
  rw [List.append_assoc, List.append_assoc, List.singleton_append]
  exact readItems_last hvalue (skipGap_gap_cons hgap (by decide) tail)

include hgap' in
theorem SpellsItems.cons {d : Document} {items : List Document} (h : Spells text d)
    (hmore : SpellsItems more items) :
    SpellsItems (text ++ (gap ++ ',' :: (gap' ++ more))) (d :: items) := by
  obtain ⟨cs, hends⟩ := hmore.ends
  refine ⟨h.starts.append _, ⟨text ++ (gap ++ ',' :: (gap' ++ cs)), ?_⟩, fun fuel tail hfuel => ?_⟩
  · rw [hends]
    simp only [List.append_assoc, List.cons_append]
  · simp only [List.length_append, List.length_cons] at hfuel
    obtain ⟨fuel, rfl⟩ := Nat.exists_eq_succ_of_ne_zero (n := fuel) (by omega)
    have hvalue := h.read fuel (gap ++ ',' :: (gap' ++ (more ++ tail))) (by omega)
      (endsNumber_gap_append hgap (endsNumber_comma _))
    have hitems : readItems fuel (skipGap (gap' ++ (more ++ tail))) = .ok (items, tail) := by
      rw [skipGap_append hgap', hmore.starts.skipGap]
      exact hmore.read fuel tail (by omega)
    simp only [List.append_assoc, List.cons_append]
    exact readItems_more hvalue (skipGap_gap_cons hgap (by decide) _) hitems

theorem SpellsItems.bracket {items : List Document} (h : SpellsItems text items) :
    Spells ('[' :: (gap ++ text)) (.list items) := by
  obtain ⟨cs, hends⟩ := h.ends
  refine ⟨⟨_, _, rfl, by decide⟩, ?_, fun fuel tail hfuel _ => ?_⟩
  · rw [hends, ← List.append_assoc, ← List.cons_append]
    exact ends_of_getLast? List.getLast?_concat (by decide)
  · simp only [List.length_append, List.length_cons] at hfuel
    obtain ⟨fuel, rfl⟩ := Nat.exists_eq_succ_of_ne_zero (n := fuel) (by omega)
    rw [List.cons_append, List.append_assoc]
    refine readValue_list (h.starts.append tail) ?_ (h.read fuel tail (by omega))
    rw [skipGap_append hgap, h.starts.skipGap]

theorem spells_map_nil : Spells ('\x7b' :: (gap ++ ['\x7d'])) (.map []) := by
  refine ⟨⟨_, _, rfl, by decide⟩, ?_, fun fuel tail hfuel _ => ?_⟩
  · rw [← List.cons_append]
    exact ends_of_getLast? List.getLast?_concat (by decide)
  · obtain ⟨fuel, rfl⟩ := Nat.exists_eq_add_of_lt (lt_of_lt_of_le (Nat.succ_pos _) hfuel)
    rw [Nat.zero_add, List.cons_append, List.append_assoc, List.singleton_append, readValue,
      skipGap_gap_cons hgap (by decide)]
    rfl

include hgap' in
/-- A member is its name, a colon and its value, with whitespace around the colon. -/
theorem SpellsMember.of_parts {name : List Char} {d : Document} {quoted : List Char}
    (hname : ∀ tail, readString (quoted ++ '"' :: tail) = some (name, tail)) (h : Spells text d) :
    SpellsMember ('"' :: (quoted ++ '"' :: (gap ++ ':' :: (gap' ++ text))))
      (.text (String.ofList name), d) := by
  have hcolon : ∀ tail, skipGap (gap ++ ':' :: tail) = ':' :: tail :=
    skipGap_gap_cons hgap (by decide)
  have hform : ∀ tail, '"' :: (quoted ++ '"' :: (gap ++ ':' :: (gap' ++ text))) ++ tail
      = '"' :: (quoted ++ '"' :: (gap ++ ':' :: (gap' ++ (text ++ tail)))) := fun tail => by
    simp only [List.cons_append, List.append_assoc]
  have hvalue : ∀ fuel tail,
      ('"' :: (quoted ++ '"' :: (gap ++ ':' :: (gap' ++ text)))).length ≤ fuel →
      EndsNumber tail → readValue fuel (skipGap (gap' ++ (text ++ tail))) = .ok (d, tail) := by
    intro fuel tail hfuel htail
    simp only [List.length_append, List.length_cons] at hfuel
    rw [skipGap_append hgap', h.starts.skipGap]
    exact h.read fuel tail (by omega) htail
  refine ⟨⟨_, rfl⟩, fun hfuel htail hclose => ?_, fun hfuel htail hcomma hmore => ?_⟩
  · rw [hform]
    exact readMembers_last (hname _) (hcolon _) (hvalue _ _ hfuel htail) hclose
  · rw [hform]
    exact readMembers_more (hname _) (hcolon _) (hvalue _ _ hfuel htail) hcomma hmore

theorem SpellsMembers.single {entry : Document × Document} (h : SpellsMember text entry) :
    SpellsMembers (text ++ (gap ++ ['\x7d'])) [entry] := by
  obtain ⟨cs, hstarts⟩ := h.starts
  refine ⟨⟨cs ++ (gap ++ ['\x7d']), by rw [hstarts, List.cons_append]⟩,
    ⟨_, (List.append_assoc ..).symm⟩, fun fuel tail hfuel => ?_⟩
  simp only [List.length_append, List.length_singleton] at hfuel
  obtain ⟨fuel, rfl⟩ := Nat.exists_eq_succ_of_ne_zero (n := fuel) (by omega)
  rw [List.append_assoc, List.append_assoc, List.singleton_append]
  exact h.last (by omega) (endsNumber_gap_append hgap (endsNumber_cons (by decide)))
    (skipGap_gap_cons hgap (by decide) tail)

include hgap' in
theorem SpellsMembers.cons {entry : Document × Document} {entries : List (Document × Document)}
    (h : SpellsMember text entry) (hmore : SpellsMembers more entries) :
    SpellsMembers (text ++ (gap ++ ',' :: (gap' ++ more))) (entry :: entries) := by
  obtain ⟨cs, hstarts⟩ := h.starts
  obtain ⟨ds, hends⟩ := hmore.ends
  obtain ⟨es, hquote⟩ := hmore.starts
  refine ⟨⟨cs ++ (gap ++ ',' :: (gap' ++ more)), by rw [hstarts, List.cons_append]⟩,
    ⟨text ++ (gap ++ ',' :: (gap' ++ ds)), ?_⟩, fun fuel tail hfuel => ?_⟩
  · rw [hends]
    simp only [List.append_assoc, List.cons_append]
  · simp only [List.length_append, List.length_cons] at hfuel
    obtain ⟨fuel, rfl⟩ := Nat.exists_eq_succ_of_ne_zero (n := fuel) (by omega)
    have hentries : readMembers fuel (skipGap (gap' ++ (more ++ tail))) = .ok (entries, tail) := by
      have hskip : skipGap (more ++ tail) = more ++ tail := by
        rw [hquote]
        exact skipGap_cons (by decide) _
      rw [skipGap_append hgap', hskip]
      exact hmore.read fuel tail (by omega)
    simp only [List.append_assoc, List.cons_append]
    exact h.more (by omega) (endsNumber_gap_append hgap (endsNumber_comma _))
      (skipGap_gap_cons hgap (by decide) _) hentries

theorem SpellsMembers.brace {entries : List (Document × Document)}
    (h : SpellsMembers text entries) :
    Spells ('\x7b' :: (gap ++ text)) (.map (Document.collect entries)) := by
  obtain ⟨cs, hends⟩ := h.ends
  refine ⟨⟨_, _, rfl, by decide⟩, ?_, fun fuel tail hfuel _ => ?_⟩
  · rw [hends, ← List.append_assoc, ← List.cons_append]
    exact ends_of_getLast? List.getLast?_concat (by decide)
  · simp only [List.length_append, List.length_cons] at hfuel
    obtain ⟨fuel, rfl⟩ := Nat.exists_eq_succ_of_ne_zero (n := fuel) (by omega)
    obtain ⟨es, hquote⟩ := h.starts
    have hmembers := h.read fuel tail (by omega)
    rw [List.cons_append, List.append_assoc]
    rw [hquote, List.cons_append] at hmembers ⊢
    exact readValue_map (skipGap_gap_cons hgap (by decide) _) hmembers

end

/-- What the three readers give, for a given fuel. -/
structure ReadsSpelled (fuel : Nat) : Prop where
  value : ∀ {cs rest d}, readValue fuel cs = .ok (d, rest) →
    ∃ text, cs = text ++ rest ∧ Spells text d
  items : ∀ {cs rest items}, readItems fuel cs = .ok (items, rest) →
    ∃ text, cs = text ++ rest ∧ SpellsItems text items
  members : ∀ {cs rest entries}, readMembers fuel cs = .ok (entries, rest) →
    ∃ text, cs = text ++ rest ∧ SpellsMembers text entries

section

variable {fuel : Nat} (h : ReadsSpelled fuel)
include h

theorem ReadsSpelled.succ_value {cs rest : List Char} {d : Document}
    (hread : readValue (fuel + 1) cs = .ok (d, rest)) :
    ∃ text, cs = text ++ rest ∧ Spells text d := by
  unfold readValue at hread
  -- the cases are those of the reader: no fuel, no text, a text, a list, an object, a scalar
  split at hread
  next heq => cases heq
  next => cases hread
  next heq =>
    split at hread
    next hstring =>
      obtain ⟨rfl, rfl⟩ := Prod.mk.inj (Except.ok.inj hread)
      obtain ⟨quoted, rfl, hquoted⟩ := readString_spelled hstring
      exact ⟨'"' :: (quoted ++ ['"']), by simp, spells_text hquoted⟩
    next => cases hread
  next behind heq =>
    obtain rfl := Nat.succ.inj heq
    obtain ⟨gap, hbehind, hgap⟩ := exists_gap behind
    split at hread
    next hclose =>
      obtain ⟨rfl, rfl⟩ := Prod.mk.inj (Except.ok.inj hread)
      refine ⟨'[' :: (gap ++ [']']), ?_, spells_list_nil hgap⟩
      rw [hbehind, hclose]
      simp
    next =>
      obtain ⟨⟨items, after⟩, hitems, hread⟩ := bind_eq_ok.mp hread
      obtain ⟨rfl, rfl⟩ := Prod.mk.inj (Except.ok.inj hread)
      obtain ⟨text, htext, hspells⟩ := h.items hitems
      refine ⟨'[' :: (gap ++ text), ?_, hspells.bracket hgap⟩
      rw [hbehind, htext]
      simp
  next behind heq =>
    obtain rfl := Nat.succ.inj heq
    obtain ⟨gap, hbehind, hgap⟩ := exists_gap behind
    split at hread
    next hclose =>
      obtain ⟨rfl, rfl⟩ := Prod.mk.inj (Except.ok.inj hread)
      refine ⟨'\x7b' :: (gap ++ ['\x7d']), ?_, spells_map_nil hgap⟩
      rw [hbehind, hclose]
      simp
    next =>
      obtain ⟨⟨entries, after⟩, hentries, hread⟩ := bind_eq_ok.mp hread
      obtain ⟨rfl, rfl⟩ := Prod.mk.inj (Except.ok.inj hread)
      obtain ⟨text, htext, hspells⟩ := h.members hentries
      refine ⟨'\x7b' :: (gap ++ text), ?_, hspells.brace hgap⟩
      rw [hbehind, htext]
      simp
  next => exact exists_spells_of_readScalar hread

theorem ReadsSpelled.succ_items {cs rest : List Char} {items : List Document}
    (hread : readItems (fuel + 1) cs = .ok (items, rest)) :
    ∃ text, cs = text ++ rest ∧ SpellsItems text items := by
  rw [readItems] at hread
  obtain ⟨⟨item, tail⟩, hitem, hread⟩ := bind_eq_ok.mp hread
  obtain ⟨text, htext, hspells⟩ := h.value hitem
  obtain ⟨gap, htail, hgap⟩ := exists_gap tail
  dsimp only at hread
  split at hread
  next hclose =>
    obtain ⟨rfl, rfl⟩ := Prod.mk.inj (Except.ok.inj hread)
    refine ⟨text ++ (gap ++ [']']), ?_, .single hgap hspells⟩
    rw [htext, htail, hclose]
    simp
  next behind hcomma =>
    obtain ⟨⟨more, after⟩, hmore, hread⟩ := bind_eq_ok.mp hread
    obtain ⟨rfl, rfl⟩ := Prod.mk.inj (Except.ok.inj hread)
    obtain ⟨others, hothers, hitems⟩ := h.items hmore
    obtain ⟨gap₁, hbehind, hgap₁⟩ := exists_gap behind
    refine ⟨text ++ (gap ++ ',' :: (gap₁ ++ others)), ?_, .cons hgap hgap₁ hspells hitems⟩
    rw [htext, htail, hcomma, hbehind, hothers]
    simp
  next => cases hread

theorem ReadsSpelled.succ_members {cs rest : List Char} {entries : List (Document × Document)}
    (hread : readMembers (fuel + 1) cs = .ok (entries, rest)) :
    ∃ text, cs = text ++ rest ∧ SpellsMembers text entries := by
  unfold readMembers at hread
  dsimp only at hread
  split at hread
  next behind =>
    split at hread
    next => cases hread
    next name named hname =>
      obtain ⟨quoted, rfl, hquoted⟩ := readString_spelled hname
      obtain ⟨gap, hnamed, hgap⟩ := exists_gap named
      split at hread
      next valued hcolon =>
        obtain ⟨⟨value, tail⟩, hvalue, hread⟩ := bind_eq_ok.mp hread
        obtain ⟨text, htext, hspells⟩ := h.value hvalue
        obtain ⟨gap₁, hvalued, hgap₁⟩ := exists_gap valued
        obtain ⟨gap₂, htail, hgap₂⟩ := exists_gap tail
        have hmember := SpellsMember.of_parts hgap hgap₁ hquoted hspells
        dsimp only at hread
        split at hread
        next hclose =>
          obtain ⟨rfl, rfl⟩ := Prod.mk.inj (Except.ok.inj hread)
          refine ⟨_, ?_, .single hgap₂ hmember⟩
          rw [hnamed, hcolon, hvalued, htext, htail, hclose]
          simp
        next following hcomma =>
          obtain ⟨⟨more, after⟩, hmore, hread⟩ := bind_eq_ok.mp hread
          obtain ⟨rfl, rfl⟩ := Prod.mk.inj (Except.ok.inj hread)
          obtain ⟨others, hothers, hentries⟩ := h.members hmore
          obtain ⟨gap₃, hfollowing, hgap₃⟩ := exists_gap following
          refine ⟨_, ?_, .cons hgap₂ hgap₃ hmember hentries⟩
          rw [hnamed, hcolon, hvalued, htext, htail, hcomma, hfollowing, hothers]
          simp
        next => cases hread
      next => cases hread
  next => cases hread

end

/-- **Reading takes off the front a text that alone decides what is read.** -/
theorem readsSpelled (fuel : Nat) : ReadsSpelled fuel := by
  induction fuel with
  | zero =>
      refine ⟨?_, ?_, ?_⟩
      · intro cs rest d hread
        cases hread
      · intro cs rest items hread
        cases hread
      · intro cs rest entries hread
        cases hread
  | succ fuel ih => exact ⟨ih.succ_value, ih.succ_items, ih.succ_members⟩

/-- **A text that is read is the text of a value with whitespace around it.** -/
theorem exists_spells_of_parse {s : String} {d : Document} (h : parse s = .ok d) :
    ∃ gap text gap', s.toList = gap ++ (text ++ gap') ∧ (∀ c ∈ gap, isGap c = true) ∧
      (∀ c ∈ gap', isGap c = true) ∧ Spells text d := by
  obtain ⟨⟨value, rest⟩, hvalue, h⟩ := bind_eq_ok.mp h
  obtain ⟨gap, hform, hgap⟩ := exists_gap s.toList
  obtain ⟨gap', hrest, hgap'⟩ := exists_gap rest
  obtain ⟨text, htext, hspells⟩ := (readsSpelled _).value hvalue
  dsimp only at h
  split at h
  next hempty =>
    obtain rfl := Except.ok.inj h
    rw [List.isEmpty_iff] at hempty
    refine ⟨gap, text, gap', ?_, hgap, hgap', hspells⟩
    rw [hempty, List.append_nil] at hrest
    rw [hform, htext, hrest]
  next => cases h

/-- The text of a value is read as the value. -/
theorem Spells.parseChars {text : List Char} {d : Document} (h : Spells text d) :
    parseChars text = .ok d := by
  have hskip := h.starts.skipGap []
  have hread := h.read (text.length + 1) [] (Nat.le_succ _) (fun _ hc => nomatch hc)
  rw [List.append_nil] at hskip hread
  rw [Json.parseChars, hskip, hread]
  rfl

end ReviewGate.Json
