import Mathlib.Algebra.BigOperators.Group.List.Basic
import Mathlib.Data.List.Forall2
import ReviewGate.Glob.Brace
import ReviewGate.Proofs.Path

/-!
# `ReviewGate.Proofs.Glob.Braces` — the texts that a glob with braces stands for

A glob is written as a run of items, each a character or a group of alternatives with commas between
them. The reader looks for a series behind each opening brace first, but a series is closed before
any comma, so it finds none in front of a group. It then takes the alternatives one by one, and each
item becomes one part. What the parts stand for are the texts with one alternative chosen in each
group.

## Contents
- `Item`, `Item.written`, `textsOf`: a glob as it is written, and its texts.
- `IsPlain`, `IsTextOver`, `Item.IsOver`: groups of two or more alternatives, none of them empty.
- `ClosesFirst`, `readSeries_eq_none`: a group is no series.
- `readChoice_group`, `readParts_written`: what is read.
- `expand_written`: the texts, in order.
- `written`, `Chosen`, `mem_textsOf_withSlashes`, `length_textsOf_withSlashes`: the texts of a glob
  of segments.
-/

namespace ReviewGate.Glob

open Text

/-! ## Globs as they are written -/

/-- An item of a glob: a character, or a group of alternatives in braces. -/
inductive Item
  | char (c : Char)
  | group (alternatives : List (List Char))
deriving DecidableEq, Repr

/-- The item as it is written. -/
def Item.written : Item → List Char
  | .char c => [c]
  | .group alternatives => '\x7b' :: (List.intercalate [','] alternatives ++ ['\x7d'])

/-- What may be chosen for the item. -/
def Item.texts : Item → List (List Char)
  | .char c => [[c]]
  | .group alternatives => alternatives

/-- The texts of a run of items, in the order in which they are tried. -/
def textsOf : List Item → List (List Char)
  | [] => [[]]
  | item :: rest => item.texts.flatMap fun first => (textsOf rest).map (first ++ ·)

/-- The characters have no part in how braces are read. -/
def IsPlain (c : Char) : Prop := c ∉ ['\\', '$', '\x7b', ',', '\x7d']

instance (c : Char) : Decidable (IsPlain c) := inferInstanceAs (Decidable (_ ∉ _))

/-- The text is not empty and has the given characters only. -/
def IsTextOver (allowed : Char → Prop) (text : List Char) : Prop :=
  text ≠ [] ∧ ∀ c ∈ text, allowed c

-- by the characters of the text, and not by trying all characters
instance (allowed : Char → Prop) [DecidablePred allowed] (text : List Char) :
    Decidable (IsTextOver allowed text) :=
  @instDecidableAnd _ _ _ (List.decidableBAll allowed text)

/-- The item is of the given characters: one of them, or two alternatives or more, none of them
empty. -/
def Item.IsOver (allowed : Char → Prop) : Item → Prop
  | .char c => allowed c
  | .group alternatives =>
      2 ≤ alternatives.length ∧ ∀ text ∈ alternatives, IsTextOver allowed text

instance (allowed : Char → Prop) [DecidablePred allowed] : DecidablePred (Item.IsOver allowed)
  | .char c => inferInstanceAs (Decidable (allowed c))
  | .group _ => inferInstanceAs (Decidable (_ ∧ _))

theorem Item.IsOver.mono {allowed allowed' : Char → Prop} (hall : ∀ c, allowed c → allowed' c)
    {item : Item} (h : item.IsOver allowed) : item.IsOver allowed' := by
  cases item with
  | char c => exact hall c h
  | group alternatives =>
      refine ⟨h.1, fun text htext => ?_⟩
      obtain ⟨hne, hchars⟩ := h.2 text htext
      exact ⟨hne, fun c hc => hall c (hchars c hc)⟩

/-- What is chosen for an item is not empty, and of its characters. -/
theorem Item.IsOver.of_mem_texts {allowed : Char → Prop} {item : Item} (h : item.IsOver allowed)
    {text : List Char} (htext : text ∈ item.texts) : IsTextOver allowed text := by
  cases item with
  | char c =>
      obtain rfl := List.mem_singleton.mp htext
      exact ⟨List.cons_ne_nil _ _, fun d hd => List.mem_singleton.mp hd ▸ h⟩
  | group alternatives => exact h.2 text htext

theorem mem_textsOf_cons {item : Item} {rest : List Item} {text : List Char} :
    text ∈ textsOf (item :: rest) ↔
      ∃ first ∈ item.texts, ∃ more ∈ textsOf rest, text = first ++ more := by
  simp only [textsOf, List.mem_flatMap, List.mem_map, eq_comm]

/-- The texts of two runs of items, one behind the other. -/
theorem textsOf_append (front rest : List Item) :
    textsOf (front ++ rest)
      = (textsOf front).flatMap fun first => (textsOf rest).map (first ++ ·) := by
  induction front with
  | nil => simp [textsOf]
  | cons item front ih =>
      simp [textsOf, ih, List.flatMap_assoc, List.map_flatMap, List.flatMap_map, Function.comp_def]

theorem mem_textsOf_append {front rest : List Item} {text : List Char} :
    text ∈ textsOf (front ++ rest) ↔
      ∃ first ∈ textsOf front, ∃ more ∈ textsOf rest, text = first ++ more := by
  simp only [textsOf_append, List.mem_flatMap, List.mem_map, eq_comm]

theorem length_textsOf_append (front rest : List Item) :
    (textsOf (front ++ rest)).length = (textsOf front).length * (textsOf rest).length := by
  simp [textsOf_append, List.length_flatMap, List.map_const']

theorem forall_mem_of_mem_textsOf {allowed : Char → Prop} {items : List Item}
    (h : ∀ item ∈ items, item.IsOver allowed) {text : List Char} (htext : text ∈ textsOf items) :
    ∀ c ∈ text, allowed c := by
  induction items generalizing text with
  | nil =>
      obtain rfl := List.mem_singleton.mp htext
      exact fun c hc => absurd hc List.not_mem_nil
  | cons item rest ih =>
      obtain ⟨first, hfirst, more, hmore, rfl⟩ := mem_textsOf_cons.mp htext
      intro c hc
      rcases List.mem_append.mp hc with hc | hc
      · exact ((h item (List.mem_cons_self ..)).of_mem_texts hfirst).2 c hc
      · exact ih (fun i hi => h i (List.mem_cons_of_mem _ hi)) hmore c hc

/-- Only without items the text is empty. -/
theorem ne_nil_of_mem_textsOf {allowed : Char → Prop} {items : List Item} (hne : items ≠ [])
    (h : ∀ item ∈ items, item.IsOver allowed) {text : List Char} (htext : text ∈ textsOf items) :
    text ≠ [] := by
  obtain ⟨item, rest, rfl⟩ := List.exists_cons_of_ne_nil hne
  obtain ⟨first, hfirst, more, -, rfl⟩ := mem_textsOf_cons.mp htext
  exact List.append_ne_nil_of_left_ne_nil
    ((h item (List.mem_cons_self ..)).of_mem_texts hfirst).1 more

/-! ## A group is no series -/

/-- A closing brace stands before the first comma. -/
def ClosesFirst (cs : List Char) : Prop :=
  ∃ inside after, cs = inside ++ '\x7d' :: after ∧ ',' ∉ inside

theorem ClosesFirst.append {read rest : List Char} (h : ClosesFirst rest) (hread : ',' ∉ read) :
    ClosesFirst (read ++ rest) := by
  obtain ⟨inside, after, rfl, hinside⟩ := h
  exact ⟨read ++ inside, after, (List.append_assoc ..).symm, List.not_mem_append hread hinside⟩

theorem not_closesFirst {text : List Char} (h : '\x7d' ∉ text) (rest : List Char) :
    ¬ ClosesFirst (text ++ ',' :: rest) := by
  rintro ⟨inside, after, heq, hinside⟩
  rcases List.append_eq_append_iff.mp heq with ⟨more, rfl, hrest⟩ | ⟨more, rfl, hrest⟩
  · cases more with
    | nil => cases hrest
    | cons c more =>
        obtain rfl : ',' = c := (List.cons.inj hrest).1
        exact hinside (List.mem_append_right _ (List.mem_cons_self ..))
  · cases more with
    | nil => cases hrest
    | cons c more =>
        obtain rfl : '\x7d' = c := (List.cons.inj hrest).1
        exact h (List.mem_append_right _ (List.mem_cons_self ..))

/-- A number has no comma. -/
theorem exists_of_readIndex {cs sign rest : List Char} {n : Int}
    (h : readIndex cs = some (sign, n, rest)) : ∃ read, cs = read ++ rest ∧ ',' ∉ read := by
  have hdigits : ∀ body : List Char, ',' ∉ body.takeWhile isDigit := fun body hcomma =>
    absurd (List.all_eq_true.mp List.all_takeWhile _ hcomma) (by decide)
  have hbody : ∀ body : List Char,
      body = body.takeWhile isDigit ++ body.drop (body.takeWhile isDigit).length := fun body =>
    (List.prefix_iff_eq_append.mp (List.takeWhile_prefix _)).symm
  unfold readIndex at h
  split at h
  next negative body hsign =>
  obtain ⟨-, h⟩ := Option.ite_none_left_eq_some.mp h
  obtain ⟨-, -, rfl⟩ : _ ∧ _ ∧ _ = rest := by simpa using h
  split at hsign
  · obtain ⟨-, rfl⟩ := Prod.mk.inj hsign
    exact ⟨'-' :: _, congrArg _ (hbody _), by simpa using hdigits _⟩
  · obtain ⟨-, rfl⟩ := Prod.mk.inj hsign
    exact ⟨_, hbody _, hdigits _⟩

theorem closesFirst_of_readStep {cs rest : List Char} {step : Nat}
    (h : readStep cs = some (step, rest)) : ClosesFirst cs := by
  unfold readStep at h
  split at h
  · exact ⟨[], _, rfl, List.not_mem_nil⟩
  · split at h
    · next hindex =>
      obtain ⟨read, rfl, hread⟩ := exists_of_readIndex hindex
      exact ⟨'.' :: '.' :: read, _, rfl, by simpa using hread⟩
    · cases h
  · cases h

theorem closesFirst_of_readNumbers {cs : List Char} {found : Part × List Char}
    (h : readNumbers cs = some found) : ClosesFirst cs := by
  obtain ⟨⟨_, _, afterFirst⟩, hfirst, hdots⟩ := Option.bind_eq_some_iff.mp h
  obtain ⟨first, rfl, hcomma⟩ := exists_of_readIndex hfirst
  refine ClosesFirst.append ?_ hcomma
  dsimp only at hdots
  split at hdots
  · obtain ⟨⟨_, _, afterLast⟩, hlast, hclose⟩ := Option.bind_eq_some_iff.mp hdots
    obtain ⟨last, rfl, hcomma⟩ := exists_of_readIndex hlast
    obtain ⟨⟨_, _⟩, hstep, -⟩ := Option.bind_eq_some_iff.mp hclose
    have hread : ',' ∉ '.' :: '.' :: last := by simpa using hcomma
    exact (closesFirst_of_readStep hstep).append hread
  · cases hdots

theorem closesFirst_of_readLetters {cs : List Char} {found : Part × List Char}
    (h : readLetters cs = some found) : ClosesFirst cs := by
  unfold readLetters at h
  split at h
  · next a b cs =>
    split at h
    · next hletters =>
      obtain ⟨_, hstep, -⟩ := Option.map_eq_some_iff.mp h
      have hletter : ∀ c : Char, c.isAlpha = true → ',' ≠ c := by
        rintro _ hc rfl
        cases hc
      obtain ⟨ha, hb⟩ := Bool.and_eq_true_iff.mp hletters
      have hread : ',' ∉ [a, '.', '.', b] := by simp [hletter a ha, hletter b hb]
      exact (closesFirst_of_readStep hstep).append hread
    · cases h
  · cases h

theorem closesFirst_of_readSeries {cs rest : List Char} {part : Part}
    (h : readSeries cs = some (part, rest)) : ClosesFirst cs := by
  unfold readSeries at h
  split at h
  · next found hnumbers =>
    exact closesFirst_of_readNumbers hnumbers
  · exact closesFirst_of_readLetters h

theorem readSeries_eq_none {text : List Char} (h : '\x7d' ∉ text) (rest : List Char) :
    readSeries (text ++ ',' :: rest) = none := by
  refine Option.eq_none_iff_forall_not_mem.mpr fun found hfound => ?_
  exact not_closesFirst h rest (closesFirst_of_readSeries hfound)

/-! ## What is read -/

/-- The part that an item is read as. -/
def Item.part : Item → Part
  | .char c => .char c
  | .group alternatives => .choice (alternatives.map (·.map .char))

theorem isPlain_iff {c : Char} :
    IsPlain c ↔ c ≠ '\\' ∧ c ≠ '$' ∧ c ≠ '\x7b' ∧ c ≠ ',' ∧ c ≠ '\x7d' := by
  simp only [IsPlain, List.mem_cons, List.not_mem_nil, or_false, not_or]

/-- A plain character is one part. -/
theorem readParts_cons {c : Char} (h : IsPlain c) (fuel depth : Nat) (start : Bool)
    (rest : List Char) :
    readParts (fuel + 1) depth start false (c :: rest)
      = (readParts fuel depth false false rest).map fun (parts, after) =>
          (.char c :: parts, after) := by
  obtain ⟨hslash, hdollar, hopen, hcomma, hclose⟩ := isPlain_iff.mp h
  simp [readParts, hslash, hdollar, hopen, hcomma, hclose]

/-- Inside braces, plain characters are read up to a comma or a closing brace. -/
theorem readParts_text {text : List Char} (h : ∀ c ∈ text, IsPlain c) {stop : Char}
    (hstop : stop = ',' ∨ stop = '\x7d') (rest : List Char) {fuel : Nat}
    (hfuel : text.length < fuel) (depth : Nat) (start : Bool) :
    readParts fuel (depth + 1) start false (text ++ stop :: rest)
      = some (text.map .char, stop :: rest) := by
  induction text generalizing fuel start with
  | nil =>
      obtain ⟨fuel, rfl⟩ := Nat.exists_eq_add_one.mpr hfuel
      rcases hstop with rfl | rfl <;> rfl
  | cons c text ih =>
      obtain ⟨fuel, rfl⟩ := Nat.exists_eq_add_one.mpr (Nat.zero_lt_of_lt hfuel)
      rw [List.cons_append, readParts_cons (h c (List.mem_cons_self ..)),
        ih (fun d hd => h d (List.mem_cons_of_mem _ hd)) (Nat.lt_of_succ_lt_succ hfuel)]
      rfl

/-- One alternative is read, up to the comma or the closing brace behind it. -/
theorem readChoice_text {text : List Char} (h : IsTextOver IsPlain text)
    {stop : Char} (hstop : stop = ',' ∨ stop = '\x7d') (rest : List Char) {fuel : Nat}
    (hfuel : text.length < fuel) (depth : Nat) (start comma : Bool) (slots : List (List Part)) :
    readChoice (fuel + 1) (depth + 1) start comma slots [] true (text ++ stop :: rest)
      = readChoice fuel (depth + 1) false comma slots (text.map .char) false (stop :: rest) := by
  obtain ⟨hne, hplain⟩ := h
  obtain ⟨c, cs, rfl⟩ := List.exists_cons_of_ne_nil hne
  obtain ⟨-, -, -, hcomma, hclose⟩ := isPlain_iff.mp (hplain c (List.mem_cons_self ..))
  have hread := readParts_text hplain hstop rest hfuel depth false
  rw [List.cons_append] at hread ⊢
  simp only [readChoice, hcomma, hclose, if_false, hread, List.nil_append]

/-- **The alternatives of a group are read in order**, up to its closing brace. -/
theorem readChoice_group {text : List Char} {more : List (List Char)}
    (h : ∀ t ∈ text :: more, IsTextOver IsPlain t) {comma : Bool}
    (hcomma : comma = true ∨ more ≠ []) (rest : List Char) {fuel : Nat}
    (hfuel : (List.intercalate [','] (text :: more)).length + 1 < fuel) (depth : Nat) (start : Bool)
    (slots : List (List Part)) :
    readChoice fuel (depth + 1) start comma slots [] true
        (List.intercalate [','] (text :: more) ++ '\x7d' :: rest)
      = some ([.choice (slots.reverse ++ (text :: more).map (·.map .char))], rest) := by
  -- on the alternatives behind the first; from the second on a comma has been read
  induction more generalizing text comma fuel start slots with
  | nil =>
      obtain rfl : comma = true := hcomma.resolve_right fun h => h rfl
      have htext := h text (List.mem_cons_self ..)
      rw [List.intercalate_singleton] at hfuel ⊢
      obtain ⟨fuel, rfl⟩ : ∃ n, fuel = n + 1 + 1 := ⟨fuel - 2, by omega⟩
      rw [readChoice_text htext (Or.inr rfl) rest (by omega)]
      simp [readChoice]
  | cons next more ih =>
      have htext := h text (List.mem_cons_self ..)
      have hlength : 0 < text.length := List.length_pos_iff.mpr htext.1
      rw [List.intercalate_cons_cons] at hfuel ⊢
      simp only [List.length_append, List.length_singleton] at hfuel
      obtain ⟨fuel, rfl⟩ : ∃ n, fuel = n + 1 + 1 := ⟨fuel - 2, by omega⟩
      rw [List.append_assoc, List.append_assoc, List.singleton_append,
        readChoice_text htext (Or.inl rfl) _ (by omega)]
      have hrest := ih (fun t ht => h t (List.mem_cons_of_mem _ ht)) (Or.inl rfl)
        (by omega : _ < fuel) false (text.map .char :: slots)
      simp [readChoice, hrest]

/-- A choice behind an opening brace. -/
theorem readParts_of_readChoice {body rest : List Char} {here : List Part} {fuel depth : Nat}
    {start : Bool} (hseries : readSeries body = none)
    (hchoice : readChoice fuel (depth + 1) start false [] [] true body = some (here, rest)) :
    readParts (fuel + 1) depth start false ('\x7b' :: body) =
      (readParts fuel depth false false rest).map fun (parts, after) => (here ++ parts, after) := by
  simp [readParts, hseries, hchoice]

/-- A group outside braces is one part: it has a comma, so it is no series and needs no other
brace. -/
theorem readParts_group {alternatives : List (List Char)}
    (h : (Item.group alternatives).IsOver IsPlain) (rest : List Char) {fuel : Nat}
    (hfuel : (List.intercalate [','] alternatives).length + 1 < fuel) (start : Bool) :
    readParts (fuel + 1) 0 start false ((Item.group alternatives).written ++ rest) =
      (readParts fuel 0 false false rest).map fun (parts, after) =>
        ((Item.group alternatives).part :: parts, after) := by
  obtain ⟨htwo, hplain⟩ := h
  obtain ⟨first, second, more, rfl⟩ :
      ∃ first second more, alternatives = first :: second :: more := by
    match alternatives, htwo with
    | first :: second :: more, _ => exact ⟨first, second, more, rfl⟩
  have hseries : readSeries (List.intercalate [','] (first :: second :: more) ++ '\x7d' :: rest)
      = none := by
    have hclose : '\x7d' ∉ first := fun hmem =>
      (isPlain_iff.mp ((hplain first (List.mem_cons_self ..)).2 _ hmem)).2.2.2.2 rfl
    rw [List.intercalate_cons_cons, List.append_assoc, List.append_assoc]
    exact readSeries_eq_none hclose _
  have hmore : false = true ∨ second :: more ≠ [] := Or.inr (List.cons_ne_nil _ _)
  have hchoice := readChoice_group hplain hmore rest hfuel 0 start []
  have hwritten : (Item.group (first :: second :: more)).written ++ rest
      = '\x7b' :: (List.intercalate [','] (first :: second :: more) ++ '\x7d' :: rest) := by
    simp [Item.written]
  rw [hwritten, readParts_of_readChoice hseries hchoice]
  rfl

/-- **Each item is read as one part.** -/
theorem readParts_written {items : List Item} (h : ∀ item ∈ items, item.IsOver IsPlain)
    {fuel : Nat} (hfuel : (items.flatMap Item.written).length < fuel) (start : Bool) :
    readParts fuel 0 start false (items.flatMap Item.written) = some (items.map Item.part, []) := by
  -- an item costs one step here, and inside a group no more steps than it has characters
  induction items generalizing fuel start with
  | nil =>
      obtain ⟨fuel, rfl⟩ := Nat.exists_eq_add_one.mpr hfuel
      rfl
  | cons item rest ih =>
      obtain ⟨fuel, rfl⟩ := Nat.exists_eq_add_one.mpr (Nat.zero_lt_of_lt hfuel)
      have hitem := h item (List.mem_cons_self ..)
      have hrest (hfuel : _ < fuel) := ih (fun i hi => h i (List.mem_cons_of_mem _ hi)) hfuel false
      rw [List.flatMap_cons] at hfuel ⊢
      cases item with
      | char c =>
          simp only [Item.written, List.length_append, List.length_singleton] at hfuel
          rw [Item.written, List.singleton_append, readParts_cons hitem, hrest (by omega)]
          rfl
      | group alternatives =>
          simp only [Item.written, List.length_append, List.length_cons, List.length_nil] at hfuel
          rw [readParts_group hitem _ (by omega), hrest (by omega)]
          rfl

/-! ## What it stands for -/

theorem expandParts_map_char (text : List Char) : expandParts (text.map .char) = [text] := by
  induction text with
  | nil => rfl
  | cons c text ih => simp [expandParts, expandPart, ih]

theorem countParts_map_char (text : List Char) : countParts (text.map .char) = 1 := by
  induction text with
  | nil => rfl
  | cons c text ih => simp [countParts, countPart, ih]

theorem expandPart_part (item : Item) : expandPart item.part = item.texts := by
  cases item with
  | char c => rfl
  | group alternatives =>
      show expandChoice _ = alternatives
      induction alternatives with
      | nil => rfl
      | cons text more ih =>
          rw [List.map_cons, expandChoice, expandParts_map_char, ih, List.singleton_append]

theorem countPart_part (item : Item) : countPart item.part = item.texts.length := by
  cases item with
  | char c => rfl
  | group alternatives =>
      show countChoice _ = alternatives.length
      induction alternatives with
      | nil => rfl
      | cons text more ih =>
          rw [List.map_cons, countChoice, countParts_map_char, ih, List.length_cons, Nat.add_comm]

theorem expandParts_part (items : List Item) :
    expandParts (items.map Item.part) = textsOf items := by
  induction items with
  | nil => rfl
  | cons item rest ih => rw [List.map_cons, expandParts, expandPart_part, ih, textsOf]

theorem countParts_part (items : List Item) :
    countParts (items.map Item.part) = (textsOf items).length := by
  induction items with
  | nil => rfl
  | cons item rest ih =>
      rw [List.map_cons, countParts, countPart_part, ih, textsOf, List.length_flatMap]
      simp [List.map_const']

theorem dropTrailingEmpty_eq_self {texts : List (List Char)} (hne : texts ≠ [])
    (h : ∀ text ∈ texts, text ≠ []) : dropTrailingEmpty texts = texts := by
  have hkept : (texts.reverse.dropWhile List.isEmpty).reverse = texts := by
    obtain ⟨last, front, hreverse⟩ := List.exists_cons_of_ne_nil (List.reverse_ne_nil_iff.mpr hne)
    have hlast : last ≠ [] := h last (List.mem_reverse.mp (hreverse ▸ List.mem_cons_self ..))
    rw [hreverse, List.dropWhile_cons_of_neg (by simpa using hlast), ← hreverse,
      List.reverse_reverse]
  rw [dropTrailingEmpty, hkept]
  split
  · exact absurd rfl hne
  · rfl

theorem textsOf_ne_nil {allowed : Char → Prop} {items : List Item}
    (h : ∀ item ∈ items, item.IsOver allowed) : textsOf items ≠ [] := by
  induction items with
  | nil => exact List.cons_ne_nil _ _
  | cons item rest ih =>
      obtain ⟨more, hmore⟩ :=
        List.exists_mem_of_ne_nil _ (ih fun i hi => h i (List.mem_cons_of_mem _ hi))
      obtain ⟨first, hfirst⟩ : ∃ first, first ∈ item.texts := by
        have hitem := h item (List.mem_cons_self ..)
        cases item with
        | char c => exact ⟨_, List.mem_singleton_self _⟩
        | group alternatives =>
            exact List.exists_mem_of_length_pos (Nat.zero_lt_of_lt hitem.1)
      exact List.ne_nil_of_mem (mem_textsOf_cons.mpr ⟨first, hfirst, more, hmore, rfl⟩)

/-- **A glob stands for its texts**, in the order in which the alternatives are written, unless they
are too many. -/
theorem expand_written {items : List Item} (hne : items ≠ [])
    (h : ∀ item ∈ items, item.IsOver IsPlain)
    (hcount : (textsOf items).length ≤ maxExpansions) :
    expand (items.flatMap Item.written) = some (textsOf items) := by
  have hfuel : (items.flatMap Item.written).length
      < 3 * (items.flatMap Item.written).length + 3 := by
    omega
  rw [expand, readParts_written h hfuel true]
  simp only [countParts_part, expandParts_part, if_neg (Nat.not_lt.mpr hcount)]
  rw [dropTrailingEmpty_eq_self (textsOf_ne_nil h) fun _ => ne_nil_of_mem_textsOf hne h]

/-! ## Segments -/

/-- Segments with a slash between neighbours, as one run of items. -/
def withSlashes (segments : List (List Item)) : List Item := List.intercalate [.char '/'] segments

/-- The segments as they are written. -/
def written (segments : List (List Item)) : List Char :=
  Path.ofComponents (segments.map (·.flatMap Item.written))

/-- The texts are chosen for the segments, with one alternative of each group. -/
def Chosen (segments : List (List Item)) (texts : List (List Char)) : Prop :=
  List.Forall₂ (fun s text => text ∈ textsOf s) segments texts

theorem flatMap_withSlashes (segments : List (List Item)) :
    (withSlashes segments).flatMap Item.written = written segments := by
  unfold withSlashes written Path.ofComponents
  induction segments with
  | nil => rfl
  | cons s rest ih =>
      by_cases hrest : rest = []
      · simp [hrest]
      · have hwritten : rest.map (·.flatMap Item.written) ≠ [] := by simpa using hrest
        rw [List.map_cons, intercalate_cons _ _ hrest, intercalate_cons _ _ hwritten,
          List.flatMap_append, List.flatMap_cons, ih]
        rfl

/-- The texts of a written glob are the chosen ones with slashes between them. -/
theorem mem_textsOf_withSlashes {segments : List (List Item)} {text : List Char} :
    text ∈ textsOf (withSlashes segments) ↔
      ∃ texts, Chosen segments texts ∧ text = Path.ofComponents texts := by
  unfold withSlashes Chosen Path.ofComponents
  induction segments generalizing text with
  | nil => simp [textsOf]
  | cons s rest ih =>
      by_cases hrest : rest = []
      · subst hrest
        simp [List.forall₂_cons_left_iff]
      · have hfull : ∀ {texts}, Chosen rest texts → texts ≠ [] := by
          rintro _ h rfl
          exact hrest (List.forall₂_nil_right_iff.mp h)
        rw [intercalate_cons _ _ hrest, mem_textsOf_append]
        simp only [mem_textsOf_cons, Item.texts, ih, List.mem_singleton, exists_eq_left,
          List.forall₂_cons_left_iff]
        constructor
        · rintro ⟨first, hfirst, _, ⟨_, ⟨texts, htexts, rfl⟩, rfl⟩, rfl⟩
          exact ⟨_, ⟨first, texts, hfirst, htexts, rfl⟩, (intercalate_cons _ _ (hfull htexts)).symm⟩
        · rintro ⟨_, ⟨first, texts, hfirst, htexts, rfl⟩, rfl⟩
          exact ⟨first, hfirst, _, ⟨_, ⟨texts, htexts, rfl⟩, rfl⟩,
            intercalate_cons _ _ (hfull htexts)⟩

/-- As many texts as there are choices. -/
theorem length_textsOf_withSlashes (segments : List (List Item)) :
    (textsOf (withSlashes segments)).length
      = (segments.map fun s => (textsOf s).length).prod := by
  unfold withSlashes
  induction segments with
  | nil => rfl
  | cons s rest ih =>
      by_cases hrest : rest = []
      · simp [hrest]
      · rw [intercalate_cons _ _ hrest, length_textsOf_append, List.map_cons, List.prod_cons, ← ih]
        simp [textsOf, Item.texts]

end ReviewGate.Glob
