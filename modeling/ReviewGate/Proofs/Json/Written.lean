import ReviewGate.Proofs.Document.Entries
import ReviewGate.Proofs.Json.Text

/-!
# `ReviewGate.Proofs.Json.Written` — texts with what they are read as

A text is the text of a value if it is read as the value, whatever stands behind it as long as no
number is carried on (`Written`). The texts of items and members are known by what is read up to the
bracket behind them (`WrittenItems`, `WrittenMembers`). The lemmas below build the text of a value
from the texts of its parts, in the indented form.

Reading needs as much fuel as the text has characters. A part is shorter than the whole by the
brackets at least, so each step down leaves enough.

## Contents
- `skipGap_append`, `skipGap_cons`: whitespace between tokens.
- `Written`, `WrittenItems`, `WrittenMembers`: texts with what they are read as.
- `written_null`, `written_bool`, `written_int`, `written_float`, `written_text`: scalars.
- `WrittenItems.single`, `WrittenItems.cons`, `WrittenItems.bracket`: lists.
- `WrittenMembers.single`, `WrittenMembers.cons`, `WrittenMembers.brace`: objects.
-/

namespace ReviewGate.Json

open Number

/-! ## Whitespace between tokens -/

theorem skipGap_append {gap : List Char} (hgap : ∀ c ∈ gap, isGap c = true) (cs : List Char) :
    skipGap (gap ++ cs) = skipGap cs :=
  List.dropWhile_append_of_pos hgap

theorem skipGap_cons {c : Char} (hc : isGap c = false) (cs : List Char) :
    skipGap (c :: cs) = c :: cs := by
  rw [skipGap, List.dropWhile_cons_of_neg]
  rw [hc]
  decide

theorem toList_newLine (depth : Nat) :
    (newLine depth).toList = '\n' :: List.replicate (2 * depth) ' ' := String.toList_ofList

theorem eq_of_mem_newLine {depth : Nat} {c : Char} (hc : c ∈ (newLine depth).toList) :
    c = '\n' ∨ c = ' ' := by
  rw [toList_newLine, List.mem_cons] at hc
  exact hc.imp_right List.eq_of_mem_replicate

theorem isGap_of_mem_newLine {depth : Nat} : ∀ c ∈ (newLine depth).toList, isGap c = true := by
  intro c hc
  obtain rfl | rfl := eq_of_mem_newLine hc <;> decide

theorem isWritten_newLine {depth : Nat} : ∀ c ∈ (newLine depth).toList, IsWritten c := by
  intro c hc
  obtain rfl | rfl := eq_of_mem_newLine hc <;> decide

theorem endsNumber_newLine (depth : Nat) (cs : List Char) :
    EndsNumber ((newLine depth).toList ++ cs) := by
  rw [toList_newLine]
  exact endsNumber_cons (by decide)

/-! ## Texts with what they are read as -/

/-- The text starts with a character that neither is skipped nor closes a list. -/
def Starts (text : List Char) : Prop :=
  ∃ c cs, text = c :: cs ∧ isGap c = false ∧ c ≠ ']'

theorem Starts.append {text : List Char} (h : Starts text) (rest : List Char) :
    Starts (text ++ rest) := by
  obtain ⟨c, cs, rfl, hgap, hclose⟩ := h
  exact ⟨c, cs ++ rest, rfl, hgap, hclose⟩

theorem Starts.skipGap {text : List Char} (h : Starts text) (rest : List Char) :
    skipGap (text ++ rest) = text ++ rest := by
  obtain ⟨c, cs, rfl, hgap, -⟩ := h
  exact skipGap_cons hgap _

/-- The text is the text of a value. -/
structure Written (text : List Char) (d : Document) : Prop where
  starts : Starts text
  written : ∀ c ∈ text, IsWritten c
  read : ∀ fuel rest, text.length ≤ fuel → EndsNumber rest →
    readValue fuel (text ++ rest) = .ok (d, rest)

/-- The text is the text of the items of a list. -/
structure WrittenItems (text : List Char) (items : List Document) : Prop where
  starts : Starts text
  written : ∀ c ∈ text, IsWritten c
  read : ∀ fuel tail after, text.length < fuel → EndsNumber tail → skipGap tail = ']' :: after →
    readItems fuel (text ++ tail) = .ok (items, after)

/-- The text is the text of the members of an object. -/
structure WrittenMembers (text : List Char) (entries : List (Document × Document)) : Prop where
  starts : ∃ cs, text = '"' :: cs
  written : ∀ c ∈ text, IsWritten c
  read : ∀ fuel tail after, text.length < fuel → EndsNumber tail → skipGap tail = '\x7d' :: after →
    readMembers fuel (text ++ tail) = .ok (entries, after)

/-! ## Scalars -/

/-- A word or a number is read as one if it starts with no mark of the other values. -/
theorem readValue_scalar {c : Char} {cs : List Char} (hc : c ≠ '"' ∧ c ≠ '[' ∧ c ≠ '\x7b')
    {fuel : Nat} (hfuel : 0 < fuel) : readValue fuel (c :: cs) = readScalar (c :: cs) := by
  obtain ⟨fuel, rfl⟩ := Nat.exists_eq_add_of_lt hfuel
  rw [Nat.zero_add, readValue]
  · exact List.cons_ne_nil c cs
  · exact fun _ h => hc.1 (List.cons_eq_cons.mp h).1
  · exact fun _ h => hc.2.1 (List.cons_eq_cons.mp h).1
  · exact fun _ h => hc.2.2 (List.cons_eq_cons.mp h).1

/-- A text that is read as a scalar is the text of it. -/
theorem Written.of_readScalar {text : List Char} {d : Document}
    (hstarts : ∃ c cs, text = c :: cs ∧
      isGap c = false ∧ c ≠ ']' ∧ c ≠ '"' ∧ c ≠ '[' ∧ c ≠ '\x7b')
    (hwritten : ∀ c ∈ text, IsWritten c)
    (hread : ∀ rest, EndsNumber rest → readScalar (text ++ rest) = .ok (d, rest)) :
    Written text d := by
  obtain ⟨c, cs, rfl, hgap, hclose, hmarks⟩ := hstarts
  refine ⟨⟨c, cs, rfl, hgap, hclose⟩, hwritten, ?_⟩
  intro fuel rest hfuel hrest
  have hpos : 0 < fuel := lt_of_lt_of_le (Nat.succ_pos _) hfuel
  rw [List.cons_append, readValue_scalar hmarks hpos]
  exact hread rest hrest

theorem written_null : Written "null".toList .null :=
  .of_readScalar ⟨_, _, rfl, by decide⟩ (isWritten_of_all (by decide)) fun _ _ => rfl

theorem written_bool (b : Bool) : Written (if b then "true" else "false").toList (.bool b) := by
  cases b with
  | true =>
      exact .of_readScalar ⟨_, _, rfl, by decide⟩ (isWritten_of_all (by decide)) fun _ _ => rfl
  | false =>
      exact .of_readScalar ⟨_, _, rfl, by decide⟩ (isWritten_of_all (by decide)) fun _ _ => rfl

/-- A number starts with no mark of the other values. -/
theorem not_mark_of_isDigit {c : Char} (hc : c.isDigit = true ∨ c = '-') :
    isGap c = false ∧ c ≠ ']' ∧ c ≠ '"' ∧ c ≠ '[' ∧ c ≠ '\x7b' := by
  have hother : ∀ d : Char, (d.isDigit = false ∧ d ≠ '-') → c ≠ d := fun d =>
    ne_of_isDigit_or_minus hc
  have hgap : isGap c = false := by
    simp only [isGap, Bool.or_eq_false_iff, beq_eq_false_iff_ne]
    exact ⟨⟨⟨hother ' ' (by decide), hother '\n' (by decide)⟩, hother '\r' (by decide)⟩,
      hother '\t' (by decide)⟩
  exact ⟨hgap, hother ']' (by decide), hother '"' (by decide), hother '[' (by decide),
    hother '\x7b' (by decide)⟩

theorem head_signed (negative : Bool) {c : Char} (hc : c.isDigit = true) (cs : List Char) :
    ∃ d ds, signed negative (c :: cs) = d :: ds ∧ (d.isDigit = true ∨ d = '-') := by
  cases negative with
  | false => exact ⟨c, cs, rfl, Or.inl hc⟩
  | true => exact ⟨'-', c :: cs, rfl, Or.inr rfl⟩

theorem isWritten_signed (negative : Bool) {cs : List Char} (hcs : ∀ c ∈ cs, IsWritten c) :
    ∀ c ∈ signed negative cs, IsWritten c := by
  unfold signed
  rw [List.forall_mem_append]
  refine ⟨?_, hcs⟩
  cases negative with
  | false => exact List.forall_mem_nil _
  | true => exact List.forall_mem_singleton.mpr (by decide)

theorem written_int {n : Int} (hn : (digitsOf n.natAbs).length ≤ maxIntDigits) :
    Written (toString n).toList (.int n) := by
  obtain ⟨c, cs, hdigits⟩ := List.exists_cons_of_ne_nil (digitsOf_ne_nil n.natAbs)
  have hc : c.isDigit = true :=
    isDigit_of_mem_digitsOf (n := n.natAbs) (hdigits ▸ List.mem_cons_self)
  obtain ⟨d, ds, hform, hd⟩ := head_signed (decide (n < 0)) hc cs
  refine .of_readScalar ⟨d, ds, ?_, not_mark_of_isDigit hd⟩ ?_ fun _ => readScalar_int hn
  · rw [toList_toString_int, hdigits, hform]
  · rw [toList_toString_int]
    exact isWritten_signed _ fun c => isWritten_of_mem_digitsOf

theorem written_float {x : Binary64} (hx : x.Canonical) :
    Written (floatText x).toList (.float x) := by
  cases x with
  | nan =>
      exact .of_readScalar ⟨_, _, rfl, by decide⟩ (isWritten_of_all (by decide))
        fun _ => readScalar_float hx
  | infinite negative =>
      cases negative with
      | true =>
          exact .of_readScalar ⟨_, _, rfl, by decide⟩ (isWritten_of_all (by decide))
            fun _ => readScalar_float hx
      | false =>
          exact .of_readScalar ⟨_, _, rfl, by decide⟩ (isWritten_of_all (by decide))
            fun _ => readScalar_float hx
  | finite negative m q =>
      obtain ⟨digits, hform, hwritten, c, cs, hcons, hc⟩ := toList_floatText negative m q
      obtain ⟨d, ds, hhead, hd⟩ := head_signed negative hc cs
      refine .of_readScalar ⟨d, ds, ?_, not_mark_of_isDigit hd⟩ ?_ fun _ => readScalar_float hx
      · rw [hform, hcons, hhead]
      · rw [hform]
        exact isWritten_signed negative hwritten

theorem written_text (s : String) : Written (quote s).toList (.text s) := by
  have hform : (quote s).toList = '"' :: (s.toList.flatMap escapeChar ++ ['"']) :=
    String.toList_ofList
  refine ⟨⟨_, _, hform, by decide⟩, ?_, ?_⟩
  · rw [hform]
    exact isWritten_quoteChars s.toList
  · intro fuel rest hfuel hrest
    rw [hform] at hfuel ⊢
    obtain ⟨fuel, rfl⟩ := Nat.exists_eq_add_of_lt (lt_of_lt_of_le (Nat.succ_pos _) hfuel)
    rw [Nat.zero_add, List.cons_append, List.append_assoc, List.singleton_append, readValue,
      readString_escapeChars]
    show Except.ok (Document.text (String.ofList s.toList), rest) = _
    rw [String.ofList_toList]

/-! ## Lists -/

section

variable {fuel : Nat} {cs tail rest after : List Char} {d : Document} {items : List Document}

theorem readItems_last (hvalue : readValue fuel cs = .ok (d, tail))
    (hclose : skipGap tail = ']' :: after) : readItems (fuel + 1) cs = .ok ([d], after) := by
  simp only [readItems, hvalue, bind, Except.bind, hclose]
  rfl

theorem readItems_more (hvalue : readValue fuel cs = .ok (d, tail))
    (hcomma : skipGap tail = ',' :: rest)
    (hmore : readItems fuel (skipGap rest) = .ok (items, after)) :
    readItems (fuel + 1) cs = .ok (d :: items, after) := by
  simp only [readItems, hvalue, bind, Except.bind, hcomma, hmore]
  rfl

theorem readValue_list (hstarts : Starts cs) (hskip : skipGap rest = cs)
    (hitems : readItems fuel cs = .ok (items, after)) :
    readValue (fuel + 1) ('[' :: rest) = .ok (.list items, after) := by
  obtain ⟨c, cs, rfl, -, hc⟩ := hstarts
  rw [readValue, hskip]
  split
  next hclose => exact absurd (List.cons_eq_cons.mp hclose).1 hc
  next =>
    rw [hitems]
    rfl

end

theorem endsNumber_comma (cs : List Char) : EndsNumber (',' :: cs) := endsNumber_cons (by decide)

theorem WrittenItems.single {text : List Char} {d : Document} (h : Written text d) :
    WrittenItems text [d] := by
  refine ⟨h.starts, h.written, ?_⟩
  intro fuel tail after hfuel htail hclose
  obtain ⟨fuel, rfl⟩ := Nat.exists_eq_add_of_lt (Nat.zero_lt_of_lt hfuel)
  rw [Nat.zero_add] at hfuel ⊢
  exact readItems_last (h.read fuel tail (Nat.lt_succ_iff.mp hfuel) htail) hclose

theorem WrittenItems.cons {text others : List Char} {d : Document} {items : List Document}
    (h : Written text d) (hitems : WrittenItems others items) (depth : Nat) :
    WrittenItems (text ++ ',' :: ((newLine depth).toList ++ others)) (d :: items) := by
  refine ⟨h.starts.append _, ?_, ?_⟩
  · rw [List.forall_mem_append, List.forall_mem_cons, List.forall_mem_append]
    exact ⟨h.written, by decide, isWritten_newLine, hitems.written⟩
  · intro fuel tail after hfuel htail hclose
    obtain ⟨fuel, rfl⟩ := Nat.exists_eq_add_of_lt (Nat.zero_lt_of_lt hfuel)
    rw [Nat.zero_add] at hfuel ⊢
    simp only [List.length_append, List.length_cons] at hfuel
    rw [List.append_assoc, List.cons_append, List.append_assoc]
    refine readItems_more (h.read fuel _ (by omega) (endsNumber_comma _))
      (skipGap_cons (by decide) _) ?_
    rw [skipGap_append isGap_of_mem_newLine, hitems.starts.skipGap]
    exact hitems.read fuel tail after (by omega) htail hclose

/-- A list with items. -/
theorem WrittenItems.bracket {inner : List Char} {items : List Document}
    (h : WrittenItems inner items) (depth : Nat) :
    Written ('[' :: ((newLine (depth + 1)).toList ++ (inner ++ ((newLine depth).toList ++ [']']))))
      (.list items) := by
  refine ⟨⟨_, _, rfl, by decide⟩, ?_, ?_⟩
  · rw [List.forall_mem_cons, List.forall_mem_append, List.forall_mem_append,
      List.forall_mem_append, List.forall_mem_singleton]
    exact ⟨by decide, isWritten_newLine, h.written, isWritten_newLine, by decide⟩
  · intro fuel rest hfuel hrest
    obtain ⟨fuel, rfl⟩ := Nat.exists_eq_add_of_lt (lt_of_lt_of_le (Nat.succ_pos _) hfuel)
    rw [Nat.zero_add] at hfuel ⊢
    simp only [List.length_append, List.length_cons] at hfuel
    rw [List.cons_append, List.append_assoc, List.append_assoc, List.append_assoc]
    have hclose : skipGap ((newLine depth).toList ++ ([']'] ++ rest)) = ']' :: rest := by
      rw [skipGap_append isGap_of_mem_newLine]
      exact skipGap_cons (by decide) _
    refine readValue_list (h.starts.append _) ?_
      (h.read fuel _ rest (by omega) (endsNumber_newLine depth _) hclose)
    rw [skipGap_append isGap_of_mem_newLine, h.starts.skipGap]

/-! ## Objects -/

section

variable {fuel : Nat} {cs tail rest after : List Char} {name : List Char} {d : Document}
  {entries : List (Document × Document)}

theorem readMembers_last {named behind : List Char} (hname : readString cs = some (name, named))
    (hcolon : skipGap named = ':' :: behind)
    (hvalue : readValue fuel (skipGap behind) = .ok (d, tail))
    (hclose : skipGap tail = '\x7d' :: after) :
    readMembers (fuel + 1) ('"' :: cs) = .ok ([(.text (String.ofList name), d)], after) := by
  simp only [readMembers, hname, hcolon, hvalue, bind, Except.bind, hclose]
  rfl

theorem readMembers_more {named behind : List Char} (hname : readString cs = some (name, named))
    (hcolon : skipGap named = ':' :: behind)
    (hvalue : readValue fuel (skipGap behind) = .ok (d, tail))
    (hcomma : skipGap tail = ',' :: rest)
    (hmore : readMembers fuel (skipGap rest) = .ok (entries, after)) :
    readMembers (fuel + 1) ('"' :: cs)
      = .ok ((.text (String.ofList name), d) :: entries, after) := by
  simp only [readMembers, hname, hcolon, hvalue, bind, Except.bind, hcomma, hmore]
  rfl

theorem readValue_map (hskip : skipGap rest = '"' :: cs)
    (hmembers : readMembers fuel ('"' :: cs) = .ok (entries, after)) :
    readValue (fuel + 1) ('\x7b' :: rest) = .ok (.map (Document.collect entries), after) := by
  rw [readValue, hskip]
  split
  next hclose => exact absurd (List.cons_eq_cons.mp hclose).1 (by decide)
  next =>
    rw [hmembers]
    rfl

end

/-- The text of a name with its mark behind. -/
theorem toList_quote (name : String) (cs : List Char) :
    (quote name).toList ++ cs = '"' :: (name.toList.flatMap escapeChar ++ '"' :: cs) := by
  have hform : (quote name).toList = '"' :: name.toList.flatMap escapeChar ++ ['"'] :=
    String.toList_ofList
  rw [hform, List.append_assoc, List.singleton_append, List.cons_append]

theorem skipGap_colon {text : List Char} (h : Starts text) (cs : List Char) :
    skipGap (' ' :: (text ++ cs)) = text ++ cs := by
  have hblank : ∀ c ∈ [' '], isGap c = true := List.forall_mem_singleton.mpr (by decide)
  rw [← List.singleton_append, skipGap_append hblank, h.skipGap]

theorem WrittenMembers.single {text : List Char} {d : Document} (name : String)
    (h : Written text d) :
    WrittenMembers ((quote name).toList ++ ':' :: ' ' :: text) [(.text name, d)] := by
  refine ⟨⟨_, toList_quote _ _⟩, ?_, ?_⟩
  · rw [List.forall_mem_append, List.forall_mem_cons, List.forall_mem_cons]
    exact ⟨(written_text name).written, by decide, by decide, h.written⟩
  · intro fuel tail after hfuel htail hclose
    obtain ⟨fuel, rfl⟩ := Nat.exists_eq_add_of_lt (Nat.zero_lt_of_lt hfuel)
    rw [Nat.zero_add] at hfuel ⊢
    simp only [List.length_append, List.length_cons] at hfuel
    have hvalue := h.read fuel tail (by omega) htail
    rw [← skipGap_colon h.starts] at hvalue
    have hmembers := readMembers_last (readString_escapeChars name.toList _)
      (skipGap_cons (by decide) _) hvalue hclose
    rw [String.ofList_toList] at hmembers
    rw [List.append_assoc, toList_quote]
    exact hmembers

theorem WrittenMembers.cons {text others : List Char} {d : Document}
    {entries : List (Document × Document)} (name : String) (h : Written text d)
    (hentries : WrittenMembers others entries) (depth : Nat) :
    WrittenMembers
      ((quote name).toList ++ ':' :: ' ' :: (text ++ ',' :: ((newLine depth).toList ++ others)))
      ((.text name, d) :: entries) := by
  refine ⟨⟨_, toList_quote _ _⟩, ?_, ?_⟩
  · rw [List.forall_mem_append, List.forall_mem_cons, List.forall_mem_cons, List.forall_mem_append,
      List.forall_mem_cons, List.forall_mem_append]
    exact ⟨(written_text name).written, by decide, by decide, h.written, by decide,
      isWritten_newLine, hentries.written⟩
  · intro fuel tail after hfuel htail hclose
    obtain ⟨fuel, rfl⟩ := Nat.exists_eq_add_of_lt (Nat.zero_lt_of_lt hfuel)
    rw [Nat.zero_add] at hfuel ⊢
    simp only [List.length_append, List.length_cons] at hfuel
    have hvalue := h.read fuel (',' :: ((newLine depth).toList ++ (others ++ tail))) (by omega)
      (endsNumber_comma _)
    rw [← skipGap_colon h.starts] at hvalue
    have hmore : readMembers fuel (skipGap ((newLine depth).toList ++ (others ++ tail)))
        = .ok (entries, after) := by
      obtain ⟨cs, hstarts⟩ := hentries.starts
      have hskip : skipGap (others ++ tail) = others ++ tail := by
        rw [hstarts]
        exact skipGap_cons (by decide) _
      rw [skipGap_append isGap_of_mem_newLine, hskip]
      exact hentries.read fuel tail after (by omega) htail hclose
    have hmembers := readMembers_more (readString_escapeChars name.toList _)
      (skipGap_cons (by decide) _) hvalue (skipGap_cons (by decide) _) hmore
    rw [String.ofList_toList] at hmembers
    rw [List.append_assoc, toList_quote]
    simp only [List.cons_append, List.append_assoc]
    exact hmembers

/-- An object with members whose names are distinct. -/
theorem WrittenMembers.brace {inner : List Char} {entries : List (Document × Document)}
    (h : WrittenMembers inner entries) (hcollect : Document.collect entries = entries)
    (depth : Nat) :
    Written ('\x7b' :: ((newLine (depth + 1)).toList
      ++ (inner ++ ((newLine depth).toList ++ ['\x7d'])))) (.map entries) := by
  refine ⟨⟨_, _, rfl, by decide⟩, ?_, ?_⟩
  · rw [List.forall_mem_cons, List.forall_mem_append, List.forall_mem_append,
      List.forall_mem_append, List.forall_mem_singleton]
    exact ⟨by decide, isWritten_newLine, h.written, isWritten_newLine, by decide⟩
  · intro fuel rest hfuel hrest
    obtain ⟨fuel, rfl⟩ := Nat.exists_eq_add_of_lt (lt_of_lt_of_le (Nat.succ_pos _) hfuel)
    rw [Nat.zero_add] at hfuel ⊢
    simp only [List.length_append, List.length_cons] at hfuel
    rw [List.cons_append, List.append_assoc, List.append_assoc, List.append_assoc]
    have hclose : skipGap ((newLine depth).toList ++ (['\x7d'] ++ rest)) = '\x7d' :: rest := by
      rw [skipGap_append isGap_of_mem_newLine]
      exact skipGap_cons (by decide) _
    have hmembers := h.read fuel _ rest (by omega) (endsNumber_newLine depth _) hclose
    obtain ⟨cs, hstarts⟩ := h.starts
    rw [hstarts] at hmembers ⊢
    have hskip : skipGap ((newLine (depth + 1)).toList
        ++ ('"' :: cs ++ ((newLine depth).toList ++ (['\x7d'] ++ rest))))
        = '"' :: cs ++ ((newLine depth).toList ++ (['\x7d'] ++ rest)) := by
      rw [skipGap_append isGap_of_mem_newLine]
      exact skipGap_cons (by decide) _
    have hvalue := readValue_map hskip hmembers
    rw [hcollect] at hvalue
    exact hvalue

end ReviewGate.Json
