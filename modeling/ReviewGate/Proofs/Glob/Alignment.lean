import ReviewGate.Diff.ChangedFile
import ReviewGate.Proofs.Glob.Braces
import ReviewGate.Proofs.Path

/-!
# `ReviewGate.Proofs.Glob.Alignment` — globs cover paths segment by segment

A glob without braces is read as a list of segments, one for each of its texts, and tried against
the names of a path. Behind a star each end of the name is tried, and behind `**` each end of the
path, so a try succeeds exactly where some run can be left out. Several `**` in a row are read as
one, which leaves out the same runs. Three things stand apart: a `**` that is last asks for a slash
behind the path, nothing but a dot covers the dot of a hidden name, and behind `**` the line break at
the end of a path is tried as if it were a name. Without them, a glob covers a path exactly if its
texts are aligned with the names.

With braces a glob stands for several such lists of texts, and one of them has to be aligned.

## Contents
- `CoversText`, `Aligned`: what it is to cover a name and a path.
- `matchPieces_iff_coversText`: a text and a name.
- `EndsInName`, `align_anyNames`, `align_iff_aligned`: segments and names.
- `BareTexts`, `covers_eq_align`, `BareTexts.coversPath_eq_align`,
  `BareTexts.coversPath_iff_aligned`: a glob without braces.
- `IsWritten`, `IsWritten.bareTexts`: globs as they are written, and what is chosen for them.
- `matchesPath_iff_aligned`: globs and paths.
-/

namespace ReviewGate.Glob

open Text

/-! ## Segments and names -/

/-- The text covers the name: a star any run of characters, a question mark any one, and every other
character itself. -/
inductive CoversText : List Char → List Char → Prop
  | nil : CoversText [] []
  | star (run : List Char) {text rest : List Char} (h : CoversText text rest) :
      CoversText ('*' :: text) (run ++ rest)
  | any (c : Char) {text rest : List Char} (h : CoversText text rest) :
      CoversText ('?' :: text) (c :: rest)
  | char {c : Char} {text rest : List Char} (hstar : c ≠ '*') (hany : c ≠ '?')
      (h : CoversText text rest) : CoversText (c :: text) (c :: rest)

/-- The texts are aligned with the names: two stars with any number of names, and every other text
with one name that it covers. -/
inductive Aligned : List (List Char) → List (List Char) → Prop
  | nil : Aligned [] []
  | across (skipped : List (List Char)) {texts names : List (List Char)} (h : Aligned texts names) :
      Aligned (['*', '*'] :: texts) (skipped ++ names)
  | within {text name : List Char} {texts names : List (List Char)} (hone : text ≠ ['*', '*'])
      (hname : CoversText text name) (h : Aligned texts names) :
      Aligned (text :: texts) (name :: names)

/-- The piece that a character of a segment is. -/
def pieceOf (c : Char) : Piece :=
  if c = '*' then .star else if c = '?' then .any else .char c

theorem coversText_star_iff {text name : List Char} :
    CoversText ('*' :: text) name ↔ ∃ rest, rest <:+ name ∧ CoversText text rest := by
  constructor
  · intro h
    cases h with
    | star run h => exact ⟨_, List.suffix_append run _, h⟩
    | char hstar => exact absurd rfl hstar
  · rintro ⟨rest, ⟨run, rfl⟩, h⟩
    exact .star run h

theorem coversText_any_iff {text name : List Char} :
    CoversText ('?' :: text) name ↔ ∃ c rest, name = c :: rest ∧ CoversText text rest := by
  constructor
  · intro h
    cases h with
    | any c h => exact ⟨c, _, rfl, h⟩
    | char _ hany => exact absurd rfl hany
  · rintro ⟨c, rest, rfl, h⟩
    exact .any c h

theorem coversText_char_iff {c : Char} (hstar : c ≠ '*') (hany : c ≠ '?') {text name : List Char} :
    CoversText (c :: text) name ↔ ∃ rest, name = c :: rest ∧ CoversText text rest := by
  constructor
  · intro h
    cases h with
    | star => exact absurd rfl hstar
    | any => exact absurd rfl hany
    | char _ _ h => exact ⟨_, rfl, h⟩
  · rintro ⟨rest, rfl, h⟩
    exact .char hstar hany h

theorem anySuffix_eq_true_iff {rest : List Char → Bool} {cs : List Char} :
    anySuffix rest cs = true ↔ ∃ back, back <:+ cs ∧ rest back = true := by
  induction cs with
  | nil => simp [anySuffix]
  | cons c cs ih => simp [anySuffix, List.suffix_cons_iff, or_and_right, exists_or, ih]

/-- **The pieces of a text cover what the text covers.** -/
theorem matchPieces_iff_coversText {text name : List Char} :
    matchPieces (text.map pieceOf) name = true ↔ CoversText text name := by
  induction text generalizing name with
  | nil =>
      rw [List.map_nil, matchPieces, List.isEmpty_iff]
      constructor
      · rintro rfl
        exact .nil
      · rintro ⟨⟩
        rfl
  | cons c text ih =>
      rw [List.map_cons]
      by_cases hstar : c = '*'
      · subst hstar
        show anySuffix (matchPieces (text.map pieceOf)) name = true ↔ _
        simp only [anySuffix_eq_true_iff, coversText_star_iff, ih]
      by_cases hany : c = '?'
      · subst hany
        show matchPieces (.any :: text.map pieceOf) name = true ↔ _
        cases name with
        | nil => simp [matchPieces, coversText_any_iff]
        | cons d name => simp [matchPieces, coversText_any_iff, ih]
      · have hpiece : pieceOf c = .char c := by rw [pieceOf, if_neg hstar, if_neg hany]
        rw [hpiece, coversText_char_iff hstar hany]
        cases name with
        | nil => simp [matchPieces]
        | cons d name => simp [matchPieces, ih]

/-! ## Segments and paths -/

/-- The segment of a text. -/
def segmentFor (text : List Char) : Segment := segmentOf (text.map pieceOf)

theorem pieceOf_eq_star {c : Char} (h : pieceOf c = .star) : c = '*' := by
  unfold pieceOf at h
  split at h
  · assumption
  · split at h <;> cases h

theorem segmentFor_eq_name {text : List Char} (h : text ≠ ['*', '*']) :
    segmentFor text = .name (text.map pieceOf) := by
  unfold segmentFor segmentOf
  split
  · next hstars =>
    obtain ⟨c, rest, rfl, hc, hrest⟩ := List.map_eq_cons_iff.mp hstars
    obtain ⟨d, rest, rfl, hd, hnil⟩ := List.map_eq_cons_iff.mp hrest
    obtain rfl := List.map_eq_nil_iff.mp hnil
    rw [pieceOf_eq_star hc, pieceOf_eq_star hd] at h
    exact absurd rfl h
  · rfl

theorem anyNamesThen_eq_true_iff {rest : List (List Char) → Bool} {names : List (List Char)}
    (h : ∀ name ∈ names, isHidden name = false) :
    anyNamesThen rest names = true ↔ ∃ back, back <:+ names ∧ rest back = true := by
  induction names with
  | nil => simp [anyNamesThen]
  | cons name names ih =>
      have hrest := ih fun n hn => h n (List.mem_cons_of_mem _ hn)
      simp [anyNamesThen, h name (List.mem_cons_self ..), List.suffix_cons_iff, or_and_right,
        exists_or, hrest]

/-- The last of the segments covers one name. -/
def EndsInName (segments : List Segment) : Prop := ∃ pieces, segments.getLast? = some (.name pieces)

theorem EndsInName.tail {s : Segment} {rest : List Segment} (h : EndsInName (s :: rest))
    (hne : rest ≠ []) : EndsInName rest := by
  obtain ⟨pieces, hlast⟩ := h
  obtain ⟨next, rest, rfl⟩ := List.exists_cons_of_ne_nil hne
  exact ⟨pieces, by rw [← List.getLast?_cons_cons, hlast]⟩

theorem EndsInName.ne_nil {segments : List Segment} (h : EndsInName segments) : segments ≠ [] := by
  rintro rfl
  obtain ⟨_, hlast⟩ := h
  cases hlast

theorem EndsInName.of_anyNames {rest : List Segment} (h : EndsInName (.anyNames :: rest)) :
    EndsInName rest := by
  refine h.tail ?_
  rintro rfl
  obtain ⟨_, hlast⟩ := h
  cases hlast

theorem mergeAnyNames_name (pieces : List Piece) (rest : List Segment) :
    mergeAnyNames (.name pieces :: rest) = .name pieces :: mergeAnyNames rest := by
  rw [mergeAnyNames]
  exact nofun

theorem mergeAnyNames_anyNames_name (pieces : List Piece) (rest : List Segment) :
    mergeAnyNames (.anyNames :: .name pieces :: rest)
      = .anyNames :: .name pieces :: mergeAnyNames rest := by
  rw [mergeAnyNames, mergeAnyNames_name]
  exact nofun

theorem mergeAnyNames_anyNames_anyNames (rest : List Segment) :
    mergeAnyNames (.anyNames :: .anyNames :: rest) = mergeAnyNames (.anyNames :: rest) := by
  rw [mergeAnyNames]

/-- The last segment stays. -/
theorem getLast?_mergeAnyNames (segments : List Segment) :
    (mergeAnyNames segments).getLast? = segments.getLast? := by
  fun_induction mergeAnyNames segments with
  | case1 rest ih => rw [ih, List.getLast?_cons_cons]
  | case2 s rest _ ih => rw [List.getLast?_cons, ih, List.getLast?_cons]
  | case3 => rfl

theorem EndsInName.merged {segments : List Segment} (h : EndsInName segments) :
    EndsInName (mergeAnyNames segments) := by
  obtain ⟨pieces, hlast⟩ := h
  exact ⟨pieces, (getLast?_mergeAnyNames segments).trans hlast⟩

theorem endsInBreak_of_suffix {back names : List (List Char)} (hback : back <:+ names)
    (hnames : ∀ name ∈ names, isHidden name = false) (h : endsInBreak names = false) :
    endsInBreak back = false := by
  obtain ⟨front, rfl⟩ := hback
  have hfront : (front ++ back).all (!isHidden ·) = true :=
    List.all_eq_true.mpr fun name hname => by rw [hnames name hname]; rfl
  rw [endsInBreak, hfront, Bool.true_and] at h
  rw [endsInBreak, Bool.and_eq_false_iff]
  refine Or.inr ?_
  cases back with
  | nil => rfl
  | cons name rest =>
      rwa [List.getLast?_append_of_ne_nil front (List.cons_ne_nil name rest)] at h

/-- Any number of names and then the others: several `**` in a row are as good as one. -/
theorem align_anyNames {closed : Bool} {segments : List Segment} (h : EndsInName segments)
    {names : List (List Char)} (hnames : ∀ name ∈ names, isHidden name = false)
    (hbreak : endsInBreak names = false) :
    align closed (mergeAnyNames (.anyNames :: segments)) names = true ↔
      ∃ back, back <:+ names ∧ align closed (mergeAnyNames segments) back = true := by
  induction segments generalizing names with
  | nil => exact absurd rfl h.ne_nil
  | cons s rest ih =>
      cases s with
      | name pieces =>
          rw [mergeAnyNames_anyNames_name, mergeAnyNames_name, align, hbreak, Bool.and_false,
            Bool.false_and, Bool.or_false, anyNamesThen_eq_true_iff hnames]
          exact nofun
      | anyNames =>
          -- what two of them leave out, one after the other, one of them leaves out
          rw [mergeAnyNames_anyNames_anyNames]
          constructor
          · exact fun hall => ⟨names, List.suffix_refl names, hall⟩
          · rintro ⟨back, hback, hrest⟩
            rw [ih h.of_anyNames (fun n hn => hnames n (hback.subset hn))
              (endsInBreak_of_suffix hback hnames hbreak)] at hrest
            obtain ⟨back', hback', hrest⟩ := hrest
            exact (ih h.of_anyNames hnames hbreak).mpr ⟨back', hback'.trans hback, hrest⟩

theorem aligned_nil_iff {names : List (List Char)} : Aligned [] names ↔ names = [] := by
  constructor
  · rintro ⟨⟩
    rfl
  · rintro rfl
    exact .nil

theorem aligned_across_iff {texts names : List (List Char)} :
    Aligned (['*', '*'] :: texts) names ↔ ∃ back, back <:+ names ∧ Aligned texts back := by
  constructor
  · intro h
    cases h with
    | across skipped h => exact ⟨_, List.suffix_append skipped _, h⟩
    | within hone => exact absurd rfl hone
  · rintro ⟨back, ⟨skipped, rfl⟩, h⟩
    exact .across skipped h

theorem aligned_within_iff {text : List Char} (hone : text ≠ ['*', '*'])
    {texts names : List (List Char)} :
    Aligned (text :: texts) names ↔
      ∃ name rest, names = name :: rest ∧ CoversText text name ∧ Aligned texts rest := by
  constructor
  · intro h
    cases h with
    | across => exact absurd rfl hone
    | within _ hname h => exact ⟨_, _, rfl, hname, h⟩
  · rintro ⟨name, rest, rfl, hname, h⟩
    exact .within hone hname h

theorem endsInName_map_segmentFor {texts : List (List Char)} (hne : texts ≠ [])
    (hlast : texts.getLast? ≠ some ['*', '*']) : EndsInName (texts.map segmentFor) := by
  obtain ⟨last, hsome⟩ := Option.isSome_iff_exists.mp (List.getLast?_isSome.mpr hne)
  refine ⟨last.map pieceOf, ?_⟩
  rw [List.getLast?_map, hsome, Option.map_some,
    segmentFor_eq_name fun hstars => hlast (hsome.trans (congrArg some hstars))]

/-- **The segments of texts are aligned as the texts are**, if no name starts with a dot and the last
does not end in a line break. -/
theorem align_iff_aligned {closed : Bool} {texts names : List (List Char)}
    (hlast : texts.getLast? ≠ some ['*', '*']) (hnames : ∀ name ∈ names, isHidden name = false)
    (hbreak : endsInBreak names = false) :
    align closed (mergeAnyNames (texts.map segmentFor)) names = true ↔ Aligned texts names := by
  induction texts generalizing names with
  | nil => rw [List.map_nil, mergeAnyNames, align, List.isEmpty_iff, aligned_nil_iff]
  | cons text texts ih =>
      have hrest : texts.getLast? ≠ some ['*', '*'] := by
        intro h
        apply hlast
        rw [List.getLast?_cons, h]
        rfl
      by_cases hone : text = ['*', '*']
      · subst hone
        have hne : texts ≠ [] := fun hnil => hlast (hnil ▸ rfl)
        have hends := endsInName_map_segmentFor hne hrest
        rw [List.map_cons, aligned_across_iff, show segmentFor ['*', '*'] = .anyNames from rfl,
          align_anyNames hends hnames hbreak]
        refine exists_congr fun back => and_congr_right fun hback => ?_
        exact ih hrest (fun n hn => hnames n (hback.subset hn))
          (endsInBreak_of_suffix hback hnames hbreak)
      · rw [List.map_cons, segmentFor_eq_name hone, mergeAnyNames_name, aligned_within_iff hone]
        cases names with
        | nil => simp [align]
        | cons name names =>
            have hbehind := ih hrest (fun n hn => hnames n (List.mem_cons_of_mem _ hn))
              (endsInBreak_of_suffix (List.suffix_cons name names) hnames hbreak)
            simp [align, coversName, hnames name (List.mem_cons_self ..),
              matchPieces_iff_coversText, hbehind]

/-! ## Paths -/

/-- The token that a character of a glob is. -/
def tokenOf (c : Char) : Token := if c = '/' then .slash else .piece (pieceOf c)

/-- Without sets and backslashes each character is one token. -/
theorem tokens_eq_map {cs : List Char} (h : ∀ c ∈ cs, c ≠ '[' ∧ c ≠ '\\') :
    tokens cs.length cs = cs.map tokenOf := by
  induction cs with
  | nil => rfl
  | cons c cs ih =>
      obtain ⟨hset, hescape⟩ := h c (List.mem_cons_self ..)
      have hrest := ih fun d hd => h d (List.mem_cons_of_mem _ hd)
      simp only [List.length_cons, List.map_cons, tokens, hrest, hset, hescape, if_false, tokenOf,
        pieceOf]
      split_ifs <;> rfl

/-- The runs between slashes are the texts between them. -/
theorem splitTokens_map (cs : List Char) :
    splitTokens (cs.map tokenOf) = (cs.splitOn '/').map (·.map pieceOf) := by
  induction cs with
  | nil => rfl
  | cons c cs ih =>
      rw [List.map_cons, List.splitOn_cons_eq_if_modifyHead]
      by_cases hslash : c = '/'
      · rw [tokenOf, if_pos hslash, if_pos (beq_iff_eq.mpr hslash), splitTokens, ih]
        rfl
      · rw [tokenOf, if_neg hslash, if_neg (by simpa using hslash), splitTokens, ih]
        obtain ⟨text, texts, htexts⟩ := List.exists_cons_of_ne_nil (List.splitOn_ne_nil '/' cs)
        rw [htexts]
        rfl

/-- The texts of a glob without braces, sets and backslashes, the last of which covers one name. -/
structure BareTexts (texts : List (List Char)) : Prop where
  ne_nil : texts ≠ []
  bare : ∀ text ∈ texts, IsTextOver (fun c => c ≠ '/' ∧ c ≠ '[' ∧ c ≠ '\\') text
  last : texts.getLast? ≠ some ['*', '*']

/-- The texts are got back as the runs between slashes. -/
theorem BareTexts.splitTokens_tokens {texts : List (List Char)} (h : BareTexts texts) :
    splitTokens (tokens (Path.ofComponents texts).length (Path.ofComponents texts))
      = texts.map (·.map pieceOf) := by
  have hchars : ∀ c ∈ Path.ofComponents texts, c ≠ '[' ∧ c ≠ '\\' := by
    intro c hc
    rcases Path.mem_ofComponents hc with rfl | ⟨text, htext, hc⟩
    · decide
    · exact ((h.bare text htext).2 c hc).2
  have hslash : ∀ text ∈ texts, '/' ∉ text := fun text htext hmem =>
    ((h.bare text htext).2 _ hmem).1 rfl
  rw [tokens_eq_map hchars, splitTokens_map, Path.ofComponents,
    List.splitOn_intercalate '/' hslash h.ne_nil]

/-- The glob of texts has their segments, and no slash before or behind them. -/
theorem BareTexts.ofChars_eq {texts : List (List Char)} (h : BareTexts texts) :
    ofChars (Path.ofComponents texts) = ⟨false, mergeAnyNames (texts.map segmentFor), false⟩ := by
  have hfull : ∀ run ∈ texts.map (·.map pieceOf), run.isEmpty = false := by
    intro run hrun
    obtain ⟨text, htext, rfl⟩ := List.mem_map.mp hrun
    simpa using (h.bare text htext).1
  have hblank : ∀ run? : Option (List Piece), (∀ run ∈ run?, run.isEmpty = false) →
      (run?.map List.isEmpty).getD false = false := by
    intro run? hrun
    cases run? with
    | none => rfl
    | some run => exact hrun run rfl
  have hfilter : (texts.map (·.map pieceOf)).filter (!·.isEmpty) = texts.map (·.map pieceOf) :=
    List.filter_eq_self.mpr fun run hrun => by rw [hfull run hrun]; rfl
  simp only [ofChars, h.splitTokens_tokens, hfilter]
  rw [hblank _ fun run hrun => hfull run (List.mem_of_mem_head? hrun),
    hblank _ fun run hrun => hfull run (List.mem_of_getLast? hrun), List.map_map]
  simp only [Bool.and_false]
  rfl

/-- Where the last segment covers one name, the segments decide. -/
theorem covers_eq_align {segments : List Segment} (h : EndsInName segments) {r : Route}
    (hr : r.rooted = false) :
    (Glob.mk false segments false).covers r = align r.closed segments r.names := by
  unfold covers
  match segments, h with
  | [], h => exact absurd rfl h.ne_nil
  | [.anyNames], h => exact absurd rfl h.of_anyNames.ne_nil
  | .anyNames :: s :: rest, h => simp
  | .name pieces :: rest, h => simp [hr]

/-- The route of a path none of whose names is empty. -/
theorem route_of_names {path : List Char} (h : ∀ name ∈ Path.components path, Path.IsName name) :
    (Route.ofChars path).rooted = false ∧ (Route.ofChars path).names = Path.components path := by
  have hinner := Path.inner_iff.mpr h
  refine ⟨beq_false_of_ne hinner.relative, List.filter_eq_self.mpr fun name hname => ?_⟩
  simpa using (h name hname).1

/-- The name is not empty and not hidden. -/
def IsVisible (name : List Char) : Prop := name ≠ [] ∧ name.head? ≠ some '.'

instance (name : List Char) : Decidable (IsVisible name) := inferInstanceAs (Decidable (_ ∧ _))

theorem IsVisible.isName {name : List Char} (h : IsVisible name) : Path.IsName name := by
  refine ⟨h.1, ?_, ?_⟩ <;> rintro rfl <;> exact h.2 rfl

theorem IsVisible.not_hidden {name : List Char} (h : IsVisible name) : isHidden name = false := by
  unfold isHidden
  split
  · exact absurd rfl h.2
  · rfl

/-- A glob without braces is tried segment by segment on the names of the path. -/
theorem BareTexts.coversPath_eq_align {texts : List (List Char)} (h : BareTexts texts)
    {path : List Char} (hpath : ∀ name ∈ Path.components path, Path.IsName name) :
    coversPath path (Path.ofComponents texts)
      = align (Route.ofChars path).closed (mergeAnyNames (texts.map segmentFor))
          (Path.components path) := by
  obtain ⟨hrooted, hnames⟩ := route_of_names hpath
  have hsome : Path.ofComponents texts ≠ [] :=
    Path.ofComponents_ne_nil h.ne_nil fun text ht => (h.bare text (List.mem_of_mem_head? ht)).1
  have hends := (endsInName_map_segmentFor h.ne_nil h.last).merged
  rw [coversPath, if_neg (by simpa using hsome), h.ofChars_eq, covers_eq_align hends hrooted,
    hnames]

/-- **A glob without braces covers a path exactly if its texts are aligned with the names.** -/
theorem BareTexts.coversPath_iff_aligned {texts : List (List Char)} (h : BareTexts texts)
    {path : List Char} (hpath : ∀ name ∈ Path.components path, IsVisible name)
    (hbreak : endsInBreak (Path.components path) = false) :
    coversPath path (Path.ofComponents texts) = true ↔ Aligned texts (Path.components path) := by
  rw [h.coversPath_eq_align fun name hname => (hpath name hname).isName,
    align_iff_aligned h.last (fun name hname => (hpath name hname).not_hidden) hbreak]

/-! ## Written globs -/

/-- A character that stands in a segment: no slash, and nothing that opens a set. -/
def IsSegmentChar (c : Char) : Prop := IsPlain c ∧ c ≠ '/' ∧ c ≠ '['

instance (c : Char) : Decidable (IsSegmentChar c) := inferInstanceAs (Decidable (_ ∧ _))

/-- A glob is written from the segments, which have an item each. The last of them does not stand
for two stars, and there are not too many choices. -/
structure IsWritten (segments : List (List Item)) : Prop where
  ne_nil : segments ≠ []
  segment : ∀ s ∈ segments, s ≠ [] ∧ ∀ item ∈ s, item.IsOver IsSegmentChar
  last : ∀ s ∈ segments.getLast?, ['*', '*'] ∉ textsOf s
  few : (segments.map fun s => (textsOf s).length).prod ≤ maxExpansions

section

variable {segments : List (List Item)} {texts : List (List Char)}

/-- Each text is chosen for a segment. -/
theorem Chosen.exists_segment (h : Chosen segments texts) {text : List Char}
    (htext : text ∈ texts) : ∃ s ∈ segments, text ∈ textsOf s := by
  induction h with
  | nil => exact absurd htext List.not_mem_nil
  | @cons s _ segments _ hs _ ih =>
      rcases List.mem_cons.mp htext with rfl | htext
      · exact ⟨s, List.mem_cons_self .., hs⟩
      · obtain ⟨s, hmem, hs⟩ := ih htext
        exact ⟨s, List.mem_cons_of_mem _ hmem, hs⟩

/-- The last text is chosen for the last segment. -/
theorem Chosen.exists_last (h : Chosen segments texts) {text : List Char}
    (hlast : texts.getLast? = some text) : ∃ s ∈ segments.getLast?, text ∈ textsOf s := by
  obtain ⟨front, rfl⟩ := List.getLast?_eq_some_iff.mp hlast
  have hreverse := List.forall₂_reverse_iff.mpr h
  rw [List.reverse_append, List.reverse_singleton, List.singleton_append,
    List.forall₂_cons_right_iff] at hreverse
  obtain ⟨s, rest, hs, -, hsegments⟩ := hreverse
  refine ⟨s, ?_, hs⟩
  rw [List.getLast?_eq_head?_reverse, hsegments]
  rfl

/-- The slashes between segments are items as good as theirs. -/
theorem IsWritten.isOver_withSlashes (h : IsWritten segments) :
    withSlashes segments ≠ [] ∧ ∀ item ∈ withSlashes segments, item.IsOver IsPlain := by
  obtain ⟨hne, hsegment, -, -⟩ := h
  unfold withSlashes
  induction segments with
  | nil => exact absurd rfl hne
  | cons s rest ih =>
      obtain ⟨⟨hitem, hover⟩, hsegment⟩ := List.forall_mem_cons.mp hsegment
      have hplain : ∀ item ∈ s, item.IsOver IsPlain := fun item hi =>
        (hover item hi).mono fun _ hc => hc.1
      by_cases hrest : rest = []
      · subst hrest
        rw [List.intercalate_singleton]
        exact ⟨hitem, hplain⟩
      · rw [intercalate_cons _ _ hrest]
        refine ⟨by simp, ?_⟩
        intro item hi
        rcases List.mem_append.mp hi with hi | hi
        · exact hplain item hi
        · rcases List.mem_cons.mp hi with rfl | hi
          · show IsPlain '/'
            decide
          · exact (ih hrest hsegment).2 item hi

/-- What is chosen for the segments of a written glob. -/
theorem IsWritten.bareTexts (h : IsWritten segments) (hchosen : Chosen segments texts) :
    BareTexts texts := by
  refine ⟨?_, ?_, ?_⟩
  · rintro rfl
    exact h.ne_nil (List.forall₂_nil_right_iff.mp hchosen)
  · intro text htext
    obtain ⟨s, hs, hmem⟩ := hchosen.exists_segment htext
    obtain ⟨hne, hover⟩ := h.segment s hs
    refine ⟨ne_nil_of_mem_textsOf hne hover hmem, ?_⟩
    intro c hc
    obtain ⟨hplain, hslash, hset⟩ := forall_mem_of_mem_textsOf hover hmem c hc
    exact ⟨hslash, hset, (isPlain_iff.mp hplain).1⟩
  · intro hstars
    obtain ⟨s, hs, hmem⟩ := hchosen.exists_last hstars
    exact h.last s hs hmem

end

/-- **A glob covers a path exactly if, for some choice of alternatives, its segments can be aligned
with the names of the path.** There is always an answer; the path has no empty name and none that
starts with a dot, and it does not end in a line break. -/
theorem matchesPath_iff_aligned {segments : List (List Item)} (h : IsWritten segments)
    {pattern path : String} (hpattern : pattern.toList = written segments)
    (hpath : ∀ name ∈ Path.components path.toList, IsVisible name)
    (hbreak : endsInBreak (Path.components path.toList) = false) :
    ∃ b, matchesPath path pattern = .ok b ∧
      (b = true ↔ ∃ texts, Chosen segments texts ∧ Aligned texts (Path.components path.toList)) := by
  obtain ⟨hne, hover⟩ := h.isOver_withSlashes
  have hcount : (textsOf (withSlashes segments)).length ≤ maxExpansions := by
    rw [length_textsOf_withSlashes]
    exact h.few
  have hexpand : expand pattern.toList = some (textsOf (withSlashes segments)) := by
    rw [hpattern, ← flatMap_withSlashes, expand_written hne hover hcount]
  have hcovers : ∀ texts, Chosen segments texts →
      (coversPath path.toList (Path.ofComponents texts) = true ↔
        Aligned texts (Path.components path.toList)) := by
    intro texts hchosen
    exact (h.bareTexts hchosen).coversPath_iff_aligned hpath hbreak
  refine ⟨(textsOf (withSlashes segments)).any (coversPath path.toList), ?_, ?_⟩
  · rw [matchesPath, matchesGlob, hexpand]
  · rw [List.any_eq_true]
    constructor
    · rintro ⟨text, htext, hmatch⟩
      obtain ⟨texts, hchosen, rfl⟩ := mem_textsOf_withSlashes.mp htext
      exact ⟨texts, hchosen, (hcovers texts hchosen).mp hmatch⟩
    · rintro ⟨texts, hchosen, haligned⟩
      exact ⟨_, mem_textsOf_withSlashes.mpr ⟨texts, hchosen, rfl⟩,
        (hcovers texts hchosen).mpr haligned⟩

/-- A directory is chosen, and `**` covers two names. -/
example : (matchesPath "src/lib/core/web/index.ts" "src/\x7bapp,lib\x7d/**/*.ts").toOption
    = some true := by
  decide +kernel

/-- Behind `**` the line break is tried, and there a question mark covers it. -/
example : (matchesPath "ab\n" "**/?").toOption = some true := by decide +kernel

end ReviewGate.Glob
