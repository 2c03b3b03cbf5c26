import Mathlib.Computability.Language
import Mathlib.Data.List.TakeWhile
import ReviewGate.Regex.Match

/-!
# `ReviewGate.Proofs.Regex.Language` — where a plain pattern occurs

A pattern without anchors, groups and tests stands for a set of texts, whatever is around it. It is
run with a continuation, and the order in which it tries its ways of matching decides which match is
found, but not whether there is one: it succeeds exactly if it can read some text of its language
behind which the continuation succeeds (`Node.run_isSome_iff`). So a plain pattern occurs in a text
exactly if a text of its language stands in it.

## Contents
- `Node.isPlain`, `Node.language`: plain patterns and what they stand for.
- `Node.mem_language_loop_one`, `holds_blank`: repetitions without an upper bound, and whitespace.
- `Place.ahead`: the places further on.
- `tried`, `mem_tried`, `repeatOne_isSome_iff`: repetitions of a set of characters.
- `Node.run_isSome_iff`: what a plain pattern does.
- `Node.char`, `Node.mem_language_chars_append`: patterns for fixed characters.
- `occurs_iff`: where a plain pattern occurs.
-/

namespace ReviewGate.Regex

/-- Does the node read one character? -/
def Node.isOne : Node → Bool
  | .one _ => true
  | _ => false

/-- Nodes without anchors, groups and tests; repetitions are of one character, and may give back. -/
def Node.isPlain : Node → Bool
  | .empty | .one _ => true
  | .seq a b | .alt a b => a.isPlain && b.isPlain
  | .loop _ _ greed body => body.isOne && greed != .possessive
  | _ => false

/-- The texts that a plain node reads. -/
def Node.language : Node → Language Char
  | .empty => 1
  | .one s => {u | ∃ c, s.holds c = true ∧ u = [c]}
  | .seq a b => a.language * b.language
  | .alt a b => a.language + b.language
  | .loop least most _ body =>
      {u | ∃ n, least ≤ n ∧ (∀ m ∈ most, n ≤ m) ∧ u ∈ body.language ^ n}
  | _ => 0

section

variable {s : CharClass} {u : List Char}

theorem Node.mem_language_one :
    u ∈ (Node.one s).language ↔ ∃ c, s.holds c = true ∧ u = [c] := Iff.rfl

theorem Node.mem_language_seq {a b : Node} :
    u ∈ (Node.seq a b).language ↔ ∃ v ∈ a.language, ∃ w ∈ b.language, v ++ w = u := Iff.rfl

theorem Node.mem_language_alt {a b : Node} :
    u ∈ (Node.alt a b).language ↔ u ∈ a.language ∨ u ∈ b.language := Iff.rfl

theorem Node.mem_language_loop {least : Nat} {most : Option Nat} {greed : Greed} {body : Node} :
    u ∈ (Node.loop least most greed body).language ↔
      ∃ n, least ≤ n ∧ (∀ m ∈ most, n ≤ m) ∧ u ∈ body.language ^ n := Iff.rfl

/-- Characters of a set, one after the other. -/
theorem Node.mem_language_one_pow {n : Nat} :
    u ∈ (Node.one s).language ^ n ↔ u.length = n ∧ ∀ c ∈ u, s.holds c = true := by
  induction n generalizing u with
  | zero =>
      rw [pow_zero, Language.mem_one, List.length_eq_zero_iff]
      exact ⟨fun h => ⟨h, h ▸ List.forall_mem_nil _⟩, And.left⟩
  | succ n ih =>
      rw [pow_succ', Language.mem_mul]
      constructor
      · rintro ⟨a, ha, b, hb, rfl⟩
        obtain ⟨c, hc, rfl⟩ := mem_language_one.mp ha
        obtain ⟨rfl, hall⟩ := ih.mp hb
        exact ⟨rfl, List.forall_mem_cons.mpr ⟨hc, hall⟩⟩
      · rintro ⟨hlength, hall⟩
        cases u with
        | nil => exact nomatch hlength
        | cons c rest =>
            obtain ⟨hc, hrest⟩ := List.forall_mem_cons.mp hall
            exact ⟨[c], mem_language_one.mpr ⟨c, hc, rfl⟩, rest,
              ih.mpr ⟨Nat.succ.inj hlength, hrest⟩, rfl⟩

/-- Characters of a set, at least so many of them. -/
theorem Node.mem_language_loop_one {least : Nat} {greed : Greed} :
    u ∈ (Node.loop least none greed (.one s)).language ↔
      least ≤ u.length ∧ ∀ c ∈ u, s.holds c = true := by
  rw [mem_language_loop]
  simp only [mem_language_one_pow]
  constructor
  · rintro ⟨n, hn, -, rfl, hall⟩
    exact ⟨hn, hall⟩
  · rintro ⟨hlength, hall⟩
    exact ⟨u.length, hlength, fun m hm => absurd hm (Option.not_mem_none m), rfl, hall⟩

end

theorem holds_blank (c : Char) :
    CharClass.holds ⟨false, [.category .blank false false], .exact⟩ c = Text.isBlank c := by
  simp [CharClass.holds, ClassItem.holds, Category.holds, Fold.image]

/-! ## Places further on -/

namespace Place

/-- The place `n` characters further on. -/
def ahead (p : Place) (n : Nat) : Place :=
  { p with
    before := (p.after.take n).reverse ++ p.before
    after := p.after.drop n
    position := p.position + n }

@[simp]
theorem ahead_zero (p : Place) : p.ahead 0 = p := rfl

theorem ahead_ahead (p : Place) (m n : Nat) : (p.ahead m).ahead n = p.ahead (m + n) := by
  simp only [ahead, List.drop_drop, List.take_add, List.reverse_append, List.append_assoc,
    Nat.add_assoc]

end Place

/-- Reading one character of a set moves one place on. -/
theorem readOne_eq_some_iff {s : CharClass} {p q : Place} :
    readOne s p = some q ↔ ∃ c rest, p.after = c :: rest ∧ s.holds c = true ∧ q = p.ahead 1 := by
  obtain ⟨before, after, position, groups⟩ := p
  cases after with
  | nil => simp [readOne]
  | cons c rest =>
      by_cases h : s.holds c = true
      · simp only [readOne, if_pos h, Option.some.injEq]
        constructor
        · rintro rfl
          exact ⟨c, rest, rfl, h, rfl⟩
        · rintro ⟨_, _, _, _, rfl⟩
          rfl
      · simp [readOne, h]

/-! ## Repetitions of a set -/

/-- How many characters of the set stand in front. -/
def countFront (s : CharClass) (cs : List Char) : Nat := (cs.takeWhile s.holds).length

/-- The places reached along characters of a set, the last first. -/
theorem placesAlong_eq (s : CharClass) (limit : Nat) (p : Place) (places : List Place) :
    placesAlong s limit p places
      = ((List.range (min limit (countFront s p.after))).map fun i => p.ahead (i + 1)).reverse
          ++ places := by
  induction limit generalizing p places with
  | zero => simp [placesAlong]
  | succ limit ih =>
      rw [placesAlong]
      cases h : readOne s p with
      | none =>
          have hnone : countFront s p.after = 0 := by
            unfold countFront
            cases hafter : p.after with
            | nil => rfl
            | cons c rest =>
                have hc : ¬ s.holds c = true := fun hc => by
                  rw [readOne_eq_some_iff.mpr ⟨c, rest, hafter, hc, rfl⟩] at h
                  exact nomatch h
                rw [List.takeWhile_cons, if_neg hc]
                rfl
          simp [hnone]
      | some q =>
          obtain ⟨c, rest, hafter, hc, rfl⟩ := readOne_eq_some_iff.mp h
          have hcount : countFront s p.after = countFront s (p.ahead 1).after + 1 := by
            rw [hafter, show (p.ahead 1).after = rest by simp [Place.ahead, hafter], countFront,
              List.takeWhile_cons, if_pos hc]
            rfl
          simp only [ih]
          rw [hcount, Nat.add_min_add_right, List.range_succ_eq_map]
          simp [Place.ahead_ahead, Nat.add_comm 1]

theorem countFront_le_length (s : CharClass) (cs : List Char) : countFront s cs ≤ cs.length :=
  (List.takeWhile_prefix _).length_le

/-- The greatest number of characters that a repetition may read of so many. -/
def loopLimit (most : Option Nat) (length : Nat) : Nat :=
  match most with
  | some n => min n length
  | none => length

theorem le_loopLimit_iff {most : Option Nat} {n length : Nat} (h : n ≤ length) :
    n ≤ loopLimit most length ↔ ∀ m ∈ most, n ≤ m := by
  cases most with
  | none => simpa [loopLimit] using h
  | some m => simpa [loopLimit] using fun _ => h

/-- The places that a repetition tries, the last first. -/
def tried (s : CharClass) (least : Nat) (most : Option Nat) (p : Place) : List Place :=
  let places := placesAlong s (loopLimit most p.after.length) p [p]
  places.take (places.length - least)

/-- A repetition tries the places behind enough characters of the set. -/
theorem mem_tried {s : CharClass} {least : Nat} {most : Option Nat} {p q : Place} :
    q ∈ tried s least most p ↔
      ∃ n, least ≤ n ∧ (∀ m ∈ most, n ≤ m) ∧ n ≤ countFront s p.after ∧ q = p.ahead n := by
  have hplaces : placesAlong s (loopLimit most p.after.length) p [p]
      = ((List.range (min (loopLimit most p.after.length) (countFront s p.after) + 1)).map
          p.ahead).reverse := by
    rw [placesAlong_eq, List.range_succ_eq_map]
    simp [Function.comp_def]
  have hreach : ∀ n, n ≤ min (loopLimit most p.after.length) (countFront s p.after) ↔
      (∀ m ∈ most, n ≤ m) ∧ n ≤ countFront s p.after := fun n =>
    Nat.le_min.trans (and_congr_left fun hcount =>
      le_loopLimit_iff (hcount.trans (countFront_le_length s p.after)))
  rw [tried, hplaces, List.mem_take_iff_getElem]
  generalize min (loopLimit most p.after.length) (countFront s p.after) = reach at hreach
  simp only [List.length_reverse, List.length_map, List.length_range, List.getElem_reverse,
    List.getElem_map, List.getElem_range]
  constructor
  · rintro ⟨i, hi, rfl⟩
    obtain ⟨hmost, hcount⟩ := (hreach (reach + 1 - 1 - i)).mp (by omega)
    exact ⟨_, by omega, hmost, hcount, rfl⟩
  · rintro ⟨n, hleast, hmost, hcount, rfl⟩
    have hn : n ≤ reach := (hreach n).mpr ⟨hmost, hcount⟩
    refine ⟨reach - n, by omega, congrArg p.ahead ?_⟩
    omega

/-- **A repetition succeeds exactly if the continuation does behind enough characters**, in whatever
order it tries. -/
theorem repeatOne_isSome_iff {s : CharClass} {least : Nat} {most : Option Nat} {greed : Greed}
    (hgreed : greed ≠ .possessive) {p : Place} {k : Continuation} :
    (repeatOne s least most greed p k).isSome = true ↔
      ∃ n, least ≤ n ∧ (∀ m ∈ most, n ≤ m) ∧ n ≤ countFront s p.after ∧
        (k (p.ahead n)).isSome = true := by
  have htried : (∃ q ∈ tried s least most p, (k q).isSome = true) ↔ ∃ n, least ≤ n ∧
      (∀ m ∈ most, n ≤ m) ∧ n ≤ countFront s p.after ∧ (k (p.ahead n)).isSome = true := by
    simp only [mem_tried]
    constructor
    · rintro ⟨_, ⟨n, hleast, hmost, hcount, rfl⟩, hk⟩
      exact ⟨n, hleast, hmost, hcount, hk⟩
    · rintro ⟨n, hleast, hmost, hcount, hk⟩
      exact ⟨_, ⟨n, hleast, hmost, hcount, rfl⟩, hk⟩
  rw [← htried]
  cases greed with
  | greedy => exact List.findSome?_isSome_iff
  | lazy =>
      show ((tried s least most p).reverse.findSome? k).isSome = true ↔ _
      rw [List.findSome?_isSome_iff]
      simp only [List.mem_reverse]
  | possessive => exact absurd rfl hgreed

/-! ## Plain patterns -/

/-- A number of characters of the set stand in front, or: a text of such characters does. -/
theorem le_countFront_iff {s : CharClass} {cs : List Char} {n : Nat} :
    n ≤ countFront s cs ↔ ∃ u, u <+: cs ∧ u.length = n ∧ ∀ c ∈ u, s.holds c = true := by
  constructor
  · intro h
    have hfront : cs.takeWhile s.holds <+: cs := List.takeWhile_prefix _
    refine ⟨(cs.takeWhile s.holds).take n, (List.take_prefix _ _).trans hfront,
      List.length_take_of_le h, fun c hc => ?_⟩
    exact List.mem_takeWhile_imp (List.mem_of_mem_take hc)
  · rintro ⟨u, ⟨rest, rfl⟩, rfl, hall⟩
    rw [countFront, List.takeWhile_append_of_pos hall, List.length_append]
    exact Nat.le_add_right _ _

theorem readOne_bind_isSome_iff {s : CharClass} {p : Place} {k : Continuation} :
    ((readOne s p).bind k).isSome = true ↔
      ∃ c, [c] <+: p.after ∧ s.holds c = true ∧ (k (p.ahead 1)).isSome = true := by
  constructor
  · intro h
    cases hread : readOne s p with
    | none =>
        rw [hread] at h
        exact nomatch h
    | some q =>
        obtain ⟨c, rest, hafter, hc, rfl⟩ := readOne_eq_some_iff.mp hread
        rw [hread] at h
        exact ⟨c, ⟨rest, hafter.symm⟩, hc, h⟩
  · rintro ⟨c, ⟨rest, hafter⟩, hc, hk⟩
    rw [readOne_eq_some_iff.mpr ⟨c, rest, hafter.symm, hc, rfl⟩]
    exact hk

/-- Texts in a row are in front exactly if the first is, and the second behind it. -/
theorem append_isPrefix_iff {u v cs : List Char} :
    u ++ v <+: cs ↔ u <+: cs ∧ v <+: cs.drop u.length := by
  constructor
  · rintro ⟨rest, rfl⟩
    refine ⟨⟨v ++ rest, by rw [List.append_assoc]⟩, rest, ?_⟩
    rw [List.append_assoc, List.drop_left]
  · rintro ⟨⟨rest, rfl⟩, hv⟩
    rw [List.drop_left] at hv
    exact List.prefix_append_right_inj u |>.mpr hv

/-- **A plain pattern succeeds exactly if the continuation does behind some text of its language.** -/
theorem Node.run_isSome_iff {n : Node} (hn : n.isPlain = true) {p : Place} {k : Continuation} :
    (n.run p k).isSome = true ↔
      ∃ u, u <+: p.after ∧ u ∈ n.language ∧ (k (p.ahead u.length)).isSome = true := by
  induction n generalizing p k with
  | empty =>
      constructor
      · exact fun h => ⟨[], List.nil_prefix, rfl, h⟩
      · rintro ⟨u, -, rfl, hk⟩
        exact hk
  | one s =>
      rw [Node.run, readOne_bind_isSome_iff]
      constructor
      · rintro ⟨c, hfront, hc, hk⟩
        exact ⟨[c], hfront, mem_language_one.mpr ⟨c, hc, rfl⟩, hk⟩
      · rintro ⟨u, hfront, hmem, hk⟩
        obtain ⟨c, hc, rfl⟩ := mem_language_one.mp hmem
        exact ⟨c, hfront, hc, hk⟩
  | seq a b iha ihb =>
      obtain ⟨ha, hb⟩ := Bool.and_eq_true_iff.mp hn
      rw [Node.run, iha ha]
      constructor
      · rintro ⟨u, hu, humem, hk⟩
        obtain ⟨v, hv, hvmem, hk⟩ := (ihb hb).mp hk
        refine ⟨u ++ v, append_isPrefix_iff.mpr ⟨hu, hv⟩,
          mem_language_seq.mpr ⟨u, humem, v, hvmem, rfl⟩, ?_⟩
        rwa [List.length_append, ← Place.ahead_ahead]
      · rintro ⟨_, hw, hmem, hk⟩
        obtain ⟨u, humem, v, hvmem, rfl⟩ := mem_language_seq.mp hmem
        obtain ⟨hu, hv⟩ := append_isPrefix_iff.mp hw
        rw [List.length_append, ← Place.ahead_ahead] at hk
        exact ⟨u, hu, humem, (ihb hb).mpr ⟨v, hv, hvmem, hk⟩⟩
  | alt a b iha ihb =>
      obtain ⟨ha, hb⟩ := Bool.and_eq_true_iff.mp hn
      have hrun : (Node.alt a b).run p k = (a.run p k).or (b.run p k) := by
        rw [Node.run]
        cases a.run p k <;> rfl
      rw [hrun, Option.isSome_or, Bool.or_eq_true, iha ha, ihb hb, ← exists_or]
      refine exists_congr fun u => ?_
      rw [mem_language_alt, or_and_right, and_or_left]
  | loop least most greed body ih =>
      obtain ⟨hone, hgreed⟩ := Bool.and_eq_true_iff.mp hn
      cases body with
      | one s =>
          have hrun : (Node.loop least most greed (.one s)).run p k
              = repeatOne s least most greed p k := by
            cases greed <;> rfl
          rw [hrun, repeatOne_isSome_iff (by simpa using hgreed)]
          constructor
          · rintro ⟨n, hleast, hmost, hcount, hk⟩
            obtain ⟨u, hu, rfl, hall⟩ := le_countFront_iff.mp hcount
            exact ⟨u, hu, mem_language_loop.mpr
              ⟨_, hleast, hmost, mem_language_one_pow.mpr ⟨rfl, hall⟩⟩, hk⟩
          · rintro ⟨u, hu, hmem, hk⟩
            obtain ⟨n, hleast, hmost, hpow⟩ := mem_language_loop.mp hmem
            obtain ⟨rfl, hall⟩ := mem_language_one_pow.mp hpow
            exact ⟨_, hleast, hmost, le_countFront_iff.mpr ⟨u, hu, rfl, hall⟩, hk⟩
      | _ => exact nomatch hone
  | _ => exact nomatch hn

/-! ## Nodes in a row -/

/-- The node that reads the given character. -/
def Node.char (c : Char) : Node := .one ⟨false, [.char c], .exact⟩

theorem Node.mem_language_char {c : Char} {u : List Char} :
    u ∈ (Node.char c).language ↔ u = [c] := by
  have hholds : ∀ d, CharClass.holds ⟨false, [.char c], .exact⟩ d = true ↔ d = c := fun d => by
    simp [CharClass.holds, ClassItem.holds, Fold.image]
  rw [Node.char, mem_language_one]
  simp only [hholds, exists_eq_left]

theorem Node.mem_language_ofList_cons {n : Node} {ns : List Node} {u : List Char} :
    u ∈ (Node.ofList (n :: ns)).language ↔
      ∃ v ∈ n.language, ∃ w ∈ (Node.ofList ns).language, v ++ w = u := by
  cases ns with
  | nil =>
      constructor
      · exact fun h => ⟨u, h, [], Language.nil_mem_one, List.append_nil u⟩
      · rintro ⟨v, hv, w, rfl, rfl⟩
        rwa [List.append_nil]
  | cons m rest => exact mem_language_seq

/-- Nodes for single characters, and others behind them. -/
theorem Node.mem_language_chars_append {cs : List Char} {ns : List Node} {u : List Char} :
    u ∈ (Node.ofList (cs.map Node.char ++ ns)).language ↔
      ∃ w ∈ (Node.ofList ns).language, u = cs ++ w := by
  induction cs generalizing u with
  | nil => simp
  | cons c rest ih =>
      rw [List.map_cons, List.cons_append, mem_language_ofList_cons]
      constructor
      · rintro ⟨v, hv, w, hw, rfl⟩
        obtain rfl := mem_language_char.mp hv
        obtain ⟨behind, hbehind, rfl⟩ := ih.mp hw
        exact ⟨behind, hbehind, rfl⟩
      · rintro ⟨w, hw, rfl⟩
        exact ⟨[c], mem_language_char.mpr rfl, rest ++ w, ih.mpr ⟨w, hw, rfl⟩, rfl⟩

/-- Nodes for the characters of a text stand for the text. -/
theorem Node.mem_language_chars {cs u : List Char} :
    u ∈ (Node.ofList (cs.map Node.char)).language ↔ u = cs := by
  have hone : ∀ w, w ∈ (Node.ofList []).language ↔ w = [] := fun w => Language.mem_one w
  rw [← List.append_nil (cs.map Node.char), mem_language_chars_append]
  simp only [hone, exists_eq_left, List.append_nil]

/-! ## Occurrences -/

variable {n : Node} (hn : n.isPlain = true)
include hn

/-- A plain pattern matches at a place exactly if a text of its language stands in front. -/
theorem matchAt?_isSome_iff {p : Place} :
    (matchAt? n p).isSome = true ↔ ∃ u, u <+: p.after ∧ u ∈ n.language := by
  rw [matchAt?, Option.isSome_map, Node.run_isSome_iff hn]
  simp

theorem searchFrom_isSome_iff {before cs : List Char} {position : Nat} :
    (searchFrom n before position cs).isSome = true ↔ ∃ u, u <:+: cs ∧ u ∈ n.language := by
  induction cs generalizing before position with
  | nil =>
      rw [searchFrom, matchAt?_isSome_iff hn]
      simp
  | cons c cs ih =>
      have hform : (searchFrom n before position (c :: cs)).isSome = true ↔
          (matchAt? n ⟨before, c :: cs, position, []⟩).isSome = true ∨
            (searchFrom n (c :: before) (position + 1) cs).isSome = true := by
        rw [searchFrom]
        cases matchAt? n ⟨before, c :: cs, position, []⟩ <;> simp
      rw [hform, matchAt?_isSome_iff hn, ih, ← exists_or]
      refine exists_congr fun u => ?_
      rw [List.infix_cons_iff, or_and_right]

/-- **A plain pattern occurs in a text exactly if a text of its language stands in it.** -/
theorem occurs_iff {cs : List Char} :
    occurs n cs = true ↔ ∃ u, u <:+: cs ∧ u ∈ n.language :=
  searchFrom_isSome_iff hn

end ReviewGate.Regex
