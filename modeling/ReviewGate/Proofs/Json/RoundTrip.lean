import Mathlib.Data.List.Induction
import ReviewGate.Proofs.Document.Spelling
import ReviewGate.Proofs.Json.Written
import ReviewGate.Proofs.Sequence

/-!
# `ReviewGate.Proofs.Json.RoundTrip` — documents are read back

A document that JSON can hold (`Normal`) is written as a text that is read back as the same
document. The proof is one induction on the document, which puts the texts of its parts together.
The other way round, whatever text is read, the document is one that JSON can hold, so it can be
written and read again.

## Contents
- `Normal`: the documents that JSON can hold.
- `exists_written`: every such document has a text.
- `exists_parseChars_indented`: the text of a document is read back.
- `ReadsNormal`, `normal_of_parse`: only such documents are read.
-/

namespace ReviewGate.Json

open Number

/-- The documents that JSON can hold: integers are not too long to be read, the names of an object
are distinct texts, and doubles are as arithmetic gives them. -/
inductive Normal : Document → Prop
  | null : Normal .null
  | bool (b : Bool) : Normal (.bool b)
  | int {n : Int} (hlength : (digitsOf n.natAbs).length ≤ maxIntDigits) : Normal (.int n)
  | float {x : Binary64} (hx : x.Canonical) : Normal (.float x)
  | text (s : String) : Normal (.text s)
  | list {items : List Document} (hitems : ∀ d ∈ items, Normal d) : Normal (.list items)
  | map {entries : List (Document × Document)} (hkeys : Document.TextKeys entries)
      (hvalues : ∀ e ∈ entries, Normal e.2) : Normal (.map entries)

/-- What stands under a name in an object is such a document too. -/
theorem Normal.of_lookup {name : String} {entries : List (Document × Document)} {d : Document}
    (h : Normal (.map entries)) (hlookup : Document.lookup name entries = some d) : Normal d := by
  cases h with
  | map hkeys hvalues =>
      obtain ⟨e, he, rfl⟩ := Option.map_eq_some_iff.mp hlookup
      exact hvalues e (List.mem_of_find?_eq_some he)

/-! ## Documents -/

/-- An integer that is not too long has a text. -/
theorem intText_eq_ok {n : Int} (h : (digitsOf n.natAbs).length ≤ maxIntDigits) :
    intText n = .ok (toString n) :=
  if_pos (Document.spellable_int_iff.mpr h)

theorem exists_writtenItems (depth : Nat) {items : List Document} (hne : items ≠ [])
    (h : ∀ d ∈ items, ∃ text, indentedAt depth d = .ok text ∧ Written text.toList d) :
    ∃ text, itemsAt depth items = .ok text ∧ WrittenItems text.toList items := by
  induction items with
  | nil => exact absurd rfl hne
  | cons d rest ih =>
      obtain ⟨first, hfirst, hwritten⟩ := h d List.mem_cons_self
      cases rest with
      | nil =>
          refine ⟨first, ?_, .single hwritten⟩
          rw [itemsAt]
          exact hfirst
      | cons d' rest =>
          obtain ⟨others, hothers, hmore⟩ := ih (List.cons_ne_nil _ _)
            fun d hd => h d (List.mem_cons_of_mem _ hd)
          refine ⟨first ++ "," ++ newLine depth ++ others, ?_, ?_⟩
          · rw [itemsAt, hfirst, hothers]
            · rfl
            · exact List.cons_ne_nil _ _
          · have hform : (first ++ "," ++ newLine depth ++ others).toList
                = first.toList ++ ',' :: ((newLine depth).toList ++ others.toList) := by
              simp [String.toList_append]
            rw [hform]
            exact .cons hwritten hmore depth

theorem exists_writtenMembers (depth : Nat) {entries : List (Document × Document)}
    (hne : entries ≠ []) (hkeys : Document.UnderTexts entries)
    (h : ∀ e ∈ entries, ∃ text, indentedAt depth e.2 = .ok text ∧ Written text.toList e.2) :
    ∃ text, membersAt depth entries = .ok text ∧ WrittenMembers text.toList entries := by
  induction entries with
  | nil => exact absurd rfl hne
  | cons entry rest ih =>
      obtain ⟨⟨name, d, rfl⟩, hrest⟩ := Document.underTexts_cons.mp hkeys
      obtain ⟨value, hvalue, hwritten⟩ := h _ List.mem_cons_self
      cases rest with
      | nil =>
          refine ⟨quote name ++ ": " ++ value, ?_, ?_⟩
          · rw [membersAt, hvalue]
            rfl
          · have hform : (quote name ++ ": " ++ value).toList
                = (quote name).toList ++ ':' :: ' ' :: value.toList := by
              simp [String.toList_append]
            rw [hform]
            exact .single name hwritten
      | cons entry' rest =>
          obtain ⟨others, hothers, hmore⟩ := ih (List.cons_ne_nil _ _) hrest
            fun e he => h e (List.mem_cons_of_mem _ he)
          refine ⟨quote name ++ ": " ++ value ++ "," ++ newLine depth ++ others, ?_, ?_⟩
          · rw [membersAt, hvalue, hothers]
            · rfl
            · exact List.cons_ne_nil _ _
          · have hform : (quote name ++ ": " ++ value ++ "," ++ newLine depth ++ others).toList
                = (quote name).toList ++ ':' :: ' ' ::
                  (value.toList ++ ',' :: ((newLine depth).toList ++ others.toList)) := by
              simp [String.toList_append]
            rw [hform]
            exact .cons name hwritten hmore depth

/-- An empty list, and an empty object. -/
theorem written_list_nil : Written "[]".toList (.list []) := by
  refine ⟨⟨_, _, rfl, by decide⟩, isWritten_of_all (by decide), ?_⟩
  intro fuel rest hfuel _
  obtain ⟨fuel, rfl⟩ := Nat.exists_eq_add_of_lt (lt_of_lt_of_le (Nat.succ_pos _) hfuel)
  rw [Nat.zero_add]
  rfl

theorem written_map_nil : Written "\x7b\x7d".toList (.map []) := by
  refine ⟨⟨_, _, rfl, by decide⟩, isWritten_of_all (by decide), ?_⟩
  intro fuel rest hfuel _
  obtain ⟨fuel, rfl⟩ := Nat.exists_eq_add_of_lt (lt_of_lt_of_le (Nat.succ_pos _) hfuel)
  rw [Nat.zero_add]
  rfl

/-- **Every document that JSON can hold has a text that is read back.** -/
theorem exists_written {d : Document} (h : Normal d) (depth : Nat) :
    ∃ text, indentedAt depth d = .ok text ∧ Written text.toList d := by
  induction h generalizing depth with
  | null => exact ⟨_, rfl, written_null⟩
  | bool b => exact ⟨_, rfl, written_bool b⟩
  | int hlength => exact ⟨_, intText_eq_ok hlength, written_int hlength⟩
  | float hx => exact ⟨_, rfl, written_float hx⟩
  | text s => exact ⟨_, rfl, written_text s⟩
  | @list items hitems ih =>
      by_cases hne : items = []
      · subst hne
        exact ⟨_, rfl, written_list_nil⟩
      · obtain ⟨inner, hinner, hwritten⟩ := exists_writtenItems (depth + 1) hne
          fun d hd => ih d hd (depth + 1)
        refine ⟨"[" ++ newLine (depth + 1) ++ inner ++ newLine depth ++ "]", ?_, ?_⟩
        · rw [indentedAt, hinner]
          · rfl
          · exact hne
        · have hform : ("[" ++ newLine (depth + 1) ++ inner ++ newLine depth ++ "]").toList
              = '[' :: ((newLine (depth + 1)).toList
                ++ (inner.toList ++ ((newLine depth).toList ++ [']']))) := by
            simp [String.toList_append]
          rw [hform]
          exact hwritten.bracket depth
  | @map entries hkeys hvalues ih =>
      by_cases hne : entries = []
      · subst hne
        exact ⟨_, rfl, written_map_nil⟩
      · obtain ⟨inner, hinner, hwritten⟩ := exists_writtenMembers (depth + 1) hne hkeys.texts
          fun e he => ih e he (depth + 1)
        refine ⟨"\x7b" ++ newLine (depth + 1) ++ inner ++ newLine depth ++ "\x7d", ?_, ?_⟩
        · rw [indentedAt, hinner]
          · rfl
          · exact hne
        · have hform : ("\x7b" ++ newLine (depth + 1) ++ inner ++ newLine depth ++ "\x7d").toList
              = '\x7b' :: ((newLine (depth + 1)).toList
                ++ (inner.toList ++ ((newLine depth).toList ++ ['\x7d']))) := by
            simp [String.toList_append]
          rw [hform]
          exact hwritten.brace hkeys.collect_eq depth

/-- **Writing a document and reading its text gives the document again**, whatever whitespace stands
behind it. -/
theorem exists_parseChars_indented {d : Document} (h : Normal d) :
    ∃ text, indented d = .ok text ∧ (∀ c ∈ text.toList, IsWritten c) ∧
      ∀ gap : List Char, (∀ c ∈ gap, isGap c = true) →
        parseChars (text.toList ++ gap) = .ok d := by
  obtain ⟨text, htext, hwritten⟩ := exists_written h 0
  refine ⟨text, htext, hwritten.written, ?_⟩
  intro gap hgap
  have hend : EndsNumber gap := by
    intro c hc
    have hblank := hgap c (List.mem_of_mem_head? hc)
    simp only [isGap, Bool.or_eq_true, beq_iff_eq] at hblank
    obtain ((rfl | rfl) | rfl) | rfl := hblank <;> decide
  have hskip : skipGap gap = [] := by
    have happend := skipGap_append hgap []
    rwa [List.append_nil] at happend
  rw [parseChars, hwritten.starts.skipGap, hwritten.read _ gap (by simp; omega) hend]
  show (if (skipGap gap).isEmpty = true then Except.ok d else Except.error Fault.malformed) = _
  rw [hskip]
  rfl

/-! ## What is read -/

theorem digitsValue_lt {ds : List Char} (hds : ∀ c ∈ ds, c.isDigit = true) :
    digitsValue ds < 10 ^ ds.length := by
  rw [digitsValue_eq]
  induction ds using List.reverseRecOn with
  | nil => exact Nat.one_pos
  | append_singleton ds c ih =>
      rw [List.forall_mem_append, List.forall_mem_singleton] at hds
      have hc : c.toNat - '0'.toNat ≤ 9 := Nat.sub_le_of_le_add (toNat_of_isDigit hds.2).2
      have hlt := ih hds.1
      rw [Nat.ofDigitChars_append, Nat.ofDigitChars_cons, Nat.ofDigitChars_nil, List.length_append,
        List.length_singleton, pow_succ]
      omega

/-- What is read before the point of a number are digits. -/
theorem readWhole_digits {cs whole rest : List Char} (h : readWhole cs = some (whole, rest)) :
    whole ≠ [] ∧ ∀ c ∈ whole, c.isDigit = true := by
  unfold readWhole at h
  split at h
  · obtain ⟨rfl, -⟩ := Prod.mk.inj (Option.some.inj h)
    exact ⟨by decide, List.forall_mem_singleton.mpr (by decide)⟩
  · split at h
    · cases h
    next ds after hne hspan =>
      obtain ⟨rfl, rfl⟩ := Prod.mk.inj (Option.some.inj h)
      rw [spanDigits, List.span_eq_takeWhile_dropWhile] at hspan
      obtain ⟨rfl, -⟩ := Prod.mk.inj hspan
      refine ⟨hne, ?_⟩
      exact fun c hc => List.all_eq_true.mp (List.all_takeWhile) c hc

theorem normal_of_readMagnitude {negative : Bool} {cs rest : List Char} {d : Document}
    (h : readMagnitude negative cs = .ok (d, rest)) : Normal d := by
  unfold readMagnitude at h
  split at h
  · cases h
  next whole behind hwhole =>
    obtain ⟨hne, hdigits⟩ := readWhole_digits hwhole
    dsimp only at h
    split at h
    · split at h
      · cases h
      next hlength =>
        obtain ⟨rfl, -⟩ := Prod.mk.inj (Except.ok.inj h)
        refine .int (le_trans ?_ (Nat.not_lt.mp hlength))
        have habs :
            (if negative = true then -(digitsValue whole : Int) else digitsValue whole).natAbs
              = digitsValue whole := by
          split <;> omega
        rw [habs]
        exact (Nat.length_toDigits_le_iff (by decide) (List.length_pos_of_ne_nil hne)).mpr
          (digitsValue_lt hdigits)
    · obtain ⟨rfl, -⟩ := Prod.mk.inj (Except.ok.inj h)
      rw [Binary64.ofDecimal_eq_nearest]
      exact .float (Binary64.canonical_nearest ..)

theorem normal_of_readNumber {cs rest : List Char} {d : Document}
    (h : readNumber cs = .ok (d, rest)) : Normal d := by
  unfold readNumber at h
  split at h
  · split at h
    · obtain ⟨rfl, -⟩ := Prod.mk.inj (Except.ok.inj h)
      exact .float trivial
    · exact normal_of_readMagnitude h
  · exact normal_of_readMagnitude h

theorem normal_of_mem_words : ∀ w ∈ words, Normal w.2 := by
  simp only [words, List.forall_mem_cons]
  exact ⟨.null, .bool true, .bool false, .float trivial, .float trivial,
    fun _ h => absurd h List.not_mem_nil⟩

theorem normal_of_readScalar {cs rest : List Char} {d : Document}
    (h : readScalar cs = .ok (d, rest)) : Normal d := by
  unfold readScalar at h
  split at h
  next found hfound =>
    obtain ⟨w, hw, hread⟩ := List.exists_of_findSome?_eq_some hfound
    obtain ⟨after, -, rfl⟩ := Option.map_eq_some_iff.mp hread
    obtain ⟨rfl, -⟩ := Prod.mk.inj (Except.ok.inj h)
    exact normal_of_mem_words w hw
  · exact normal_of_readNumber h

/-- What the three readers give, for a given fuel. -/
structure ReadsNormal (fuel : Nat) : Prop where
  value : ∀ {cs rest d}, readValue fuel cs = .ok (d, rest) → Normal d
  items : ∀ {cs rest items}, readItems fuel cs = .ok (items, rest) → ∀ d ∈ items, Normal d
  members : ∀ {cs rest entries}, readMembers fuel cs = .ok (entries, rest) →
    Document.UnderTexts entries ∧ ∀ e ∈ entries, Normal e.2

section

variable {fuel : Nat} (h : ReadsNormal fuel)
include h

theorem ReadsNormal.succ_value {cs rest : List Char} {d : Document}
    (hread : readValue (fuel + 1) cs = .ok (d, rest)) : Normal d := by
  unfold readValue at hread
  -- the cases are those of the reader: no fuel, no text, a text, a list, an object, a scalar
  split at hread
  next heq => cases heq
  next => cases hread
  next heq =>
    split at hread
    · obtain ⟨rfl, -⟩ := Prod.mk.inj (Except.ok.inj hread)
      exact .text _
    · cases hread
  next heq =>
    obtain rfl := Nat.succ.inj heq
    split at hread
    · obtain ⟨rfl, -⟩ := Prod.mk.inj (Except.ok.inj hread)
      exact .list fun d hd => absurd hd List.not_mem_nil
    · obtain ⟨⟨items, after⟩, hitems, hread⟩ := bind_eq_ok.mp hread
      obtain ⟨rfl, -⟩ := Prod.mk.inj (Except.ok.inj hread)
      exact .list (h.items hitems)
  next heq =>
    obtain rfl := Nat.succ.inj heq
    split at hread
    · obtain ⟨rfl, -⟩ := Prod.mk.inj (Except.ok.inj hread)
      exact .map Document.textKeys_nil fun e he => absurd he List.not_mem_nil
    · obtain ⟨⟨entries, after⟩, hentries, hread⟩ := bind_eq_ok.mp hread
      obtain ⟨rfl, -⟩ := Prod.mk.inj (Except.ok.inj hread)
      obtain ⟨htexts, hvalues⟩ := h.members hentries
      exact .map (Document.textKeys_collect htexts)
        fun e he => hvalues e (Document.mem_of_mem_collect htexts he)
  next => exact normal_of_readScalar hread

theorem ReadsNormal.succ_items {cs rest : List Char} {items : List Document}
    (hread : readItems (fuel + 1) cs = .ok (items, rest)) : ∀ d ∈ items, Normal d := by
  rw [readItems] at hread
  obtain ⟨⟨item, tail⟩, hitem, hread⟩ := bind_eq_ok.mp hread
  have hnormal := h.value hitem
  dsimp only at hread
  split at hread
  · obtain ⟨rfl, -⟩ := Prod.mk.inj (Except.ok.inj hread)
    exact List.forall_mem_singleton.mpr hnormal
  · obtain ⟨⟨more, after⟩, hmore, hread⟩ := bind_eq_ok.mp hread
    obtain ⟨rfl, -⟩ := Prod.mk.inj (Except.ok.inj hread)
    exact List.forall_mem_cons.mpr ⟨hnormal, h.items hmore⟩
  · cases hread

theorem ReadsNormal.succ_members {cs rest : List Char} {entries : List (Document × Document)}
    (hread : readMembers (fuel + 1) cs = .ok (entries, rest)) :
    Document.UnderTexts entries ∧ ∀ e ∈ entries, Normal e.2 := by
  unfold readMembers at hread
  dsimp only at hread
  split at hread
  · split at hread
    · cases hread
    · split at hread
      · obtain ⟨⟨value, tail⟩, hvalue, hread⟩ := bind_eq_ok.mp hread
        have hnormal := h.value hvalue
        dsimp only at hread
        split at hread
        · obtain ⟨rfl, -⟩ := Prod.mk.inj (Except.ok.inj hread)
          exact ⟨List.forall_mem_singleton.mpr ⟨_, rfl⟩, List.forall_mem_singleton.mpr hnormal⟩
        · obtain ⟨⟨more, after⟩, hmore, hread⟩ := bind_eq_ok.mp hread
          obtain ⟨rfl, -⟩ := Prod.mk.inj (Except.ok.inj hread)
          obtain ⟨htexts, hvalues⟩ := h.members hmore
          exact ⟨List.forall_mem_cons.mpr ⟨⟨_, rfl⟩, htexts⟩,
            List.forall_mem_cons.mpr ⟨hnormal, hvalues⟩⟩
        · cases hread
      · cases hread
  · cases hread

end

theorem readsNormal (fuel : Nat) : ReadsNormal fuel := by
  induction fuel with
  | zero =>
      refine ⟨?_, ?_, ?_⟩
      · intro cs rest d hread
        cases hread
      · intro cs rest items hread
        cases hread
      · intro cs rest entries hread
        cases hread
  | succ fuel ih => exact ⟨ih.succ_value, ih.succ_items, ih.succ_members⟩

/-- **Only documents that JSON can hold are read.** -/
theorem normal_of_parse {s : String} {d : Document} (h : parse s = .ok d) : Normal d := by
  obtain ⟨⟨value, rest⟩, hvalue, h⟩ := bind_eq_ok.mp h
  dsimp only at h
  split at h
  · obtain rfl := Except.ok.inj h
    exact (readsNormal _).value hvalue
  · cases h

end ReviewGate.Json
