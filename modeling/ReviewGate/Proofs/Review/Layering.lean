import ReviewGate.Context.Imports
import ReviewGate.Proofs.Regex.FindAll
import ReviewGate.Proofs.Review.PrivateKey

/-!
# `ReviewGate.Proofs.Review.Layering` — which imports the layering check sees

Two patterns read the imports of a package. The context collector reads whole declarations, one name
or a list of names between parentheses (`declarations`). The layering check reads lines: from the
beginning of a line that starts with the word, over the whitespace behind the word, to the end of
the line reached (`IsImport`). So the check sees what stands on such a line (`OnImportLine`), among
it every name on the first line of a declaration that begins its line (`Leads`). It does not see the
names of a list that stand on the lines below.

## Contents
- `IsImport`, `importLineNode`, `mem_places_importLineNode`: what the check reads as an import.
- `IsImportAt`, `isImportAt_of_mem_importLines`, `exists_mem_importLines`: the imports of a text.
- `OnImportLine`: names that stand on a line with an import.
- `declarations`, `declaredNames`, `mem_importsOf_go_iff`: what the collector reads.
- `Leads`, `onImportLine_of_leads`: names on the first lines of declarations.
- `layerPattern`, `matching_layer_of_infix`: the names of the layers that handlers must not import.
- `layer_imports_caught`: what the check reports; `layer_imports_caught_sample`: an import that it
  sees; `grouped_import_missed`: one that it does not see.
-/

namespace ReviewGate

open Diff Regex Text Context

/-! ## Import lines -/

/-- Whitespace or none. -/
def blanksNode : Node := .loop 0 none .greedy (.one ⟨false, [.category .blank false false], .exact⟩)

/-- The rest of a line. -/
def restNode : Node := .loop 0 none .greedy (.one ⟨true, [.char '\n'], .exact⟩)

/-- An import without the ends of its line. -/
def importBody : List Node :=
  blanksNode :: ("import".toList.map Node.char ++ [gapNode, restNode])

/-- The pattern of a line that imports something, as a node. -/
def importLineNode : Node :=
  .ofList (.anchor .lineStart :: (importBody ++ [.anchor .lineEnd]))

theorem importNode_eq : importNode = .ok importLineNode :=
  eq_ok_of_toOption (by decide +kernel)

/-- What the check reads as an import: the word, whitespace behind it, and the rest of the line that
the whitespace leads to; blank lines in front belong to it. -/
def IsImport (line : List Char) : Prop :=
  ∃ gap gap' rest, (∀ c ∈ gap, isBlank c = true) ∧ IsGap gap' ∧ '\n' ∉ rest ∧
    line = gap ++ ("import".toList ++ (gap' ++ rest))

theorem mem_language_blanksNode {u : List Char} :
    u ∈ blanksNode.language ↔ ∀ c ∈ u, isBlank c = true := by
  simp only [blanksNode, Node.mem_language_loop_one, holds_blank, Nat.zero_le, true_and]

theorem mem_language_restNode {u : List Char} : u ∈ restNode.language ↔ '\n' ∉ u := by
  have hholds : ∀ c, CharClass.holds ⟨true, [.char '\n'], .exact⟩ c = true ↔ c ≠ '\n' := fun c => by
    simp [CharClass.holds, ClassItem.holds, Fold.image]
  simp only [restNode, Node.mem_language_loop_one, hholds, Nat.zero_le, true_and]
  exact ⟨fun hall hmem => hall _ hmem rfl, fun hnone c hc h => hnone (h ▸ hc)⟩

theorem mem_language_importBody {u : List Char} :
    u ∈ (Node.ofList importBody).language ↔ IsImport u := by
  rw [importBody, Node.mem_language_ofList_cons]
  simp only [Node.mem_language_chars_append, Node.mem_language_ofList_cons, mem_language_blanksNode,
    mem_language_gapNode]
  constructor
  · rintro ⟨gap, hgap, _, ⟨_, ⟨gap', hgap', _, ⟨rest, hrest, _, rfl, rfl⟩, rfl⟩, rfl⟩, rfl⟩
    rw [List.append_nil]
    exact ⟨gap, gap', rest, hgap, hgap', mem_language_restNode.mp hrest, rfl⟩
  · rintro ⟨gap, gap', rest, hgap, hgap', hrest, rfl⟩
    exact ⟨gap, hgap, _, ⟨_, ⟨gap', hgap', _, ⟨rest, mem_language_restNode.mpr hrest, _, rfl, rfl⟩,
      rfl⟩, by rw [List.append_nil]⟩, rfl⟩

/-- The pattern leads from the beginning of a line over an import to the end of a line. -/
theorem mem_places_importLineNode {p q : Place} :
    q ∈ importLineNode.places p ↔ Anchor.lineStart.holds p = true ∧
      ∃ line, IsImport line ∧ line <+: p.after ∧ q = p.ahead line.length ∧
        Anchor.lineEnd.holds q = true := by
  have hanchor : ∀ (a : Anchor) (r s : Place),
      s ∈ (Node.anchor a).places r ↔ a.holds r = true ∧ s = r := fun a r s => by
    rw [Node.places]
    split
    next h => simp [h]
    next h => simp [h]
  have hlast : Node.ofList [.anchor .lineEnd] = .anchor .lineEnd := rfl
  rw [importLineNode, Node.mem_places_ofList_cons]
  simp only [Node.mem_places_ofList_append, hlast, hanchor,
    Node.mem_places_of_isPlain (n := Node.ofList importBody) rfl, mem_language_importBody]
  constructor
  · rintro ⟨_, ⟨hstart, rfl⟩, _, ⟨line, hfront, hline, rfl⟩, hend, rfl⟩
    exact ⟨hstart, line, hline, hfront, rfl, hend⟩
  · rintro ⟨hstart, line, hline, hfront, rfl, hend⟩
    exact ⟨p, ⟨hstart, rfl⟩, _, ⟨line, hfront, hline, rfl⟩, hend, rfl⟩

theorem importLineNode_moves : importLineNode.Moves where
  flat := rfl
  moves := by
    intro p q hq
    obtain ⟨-, line, ⟨gap, gap', rest, -, -, -, hform⟩, -, rfl, -⟩ :=
      mem_places_importLineNode.mp hq
    have hlength := congrArg List.length hform
    have hword : "import".toList.length = 6 := rfl
    rw [List.length_append, List.length_append, hword] at hlength
    show p.position < p.position + line.length
    omega

/-- The text is an import of a whole text: it begins at the beginning of a line, and ends at the end
of one. -/
def IsImportAt (content line : List Char) : Prop :=
  IsImport line ∧ ∃ before after, content = before ++ (line ++ after) ∧
    (∀ c ∈ before.getLast?, c = '\n') ∧ ∀ c ∈ after.head?, c = '\n'

theorem lineStart_holds_iff {p : Place} :
    Anchor.lineStart.holds p = true ↔ ∀ c ∈ p.before.head?, c = '\n' := by
  cases hbefore : p.before with
  | nil => simp [Anchor.holds, hbefore]
  | cons c rest => simp [Anchor.holds, hbefore]

theorem lineEnd_holds_iff {p : Place} :
    Anchor.lineEnd.holds p = true ↔ ∀ c ∈ p.after.head?, c = '\n' := by
  cases hafter : p.after with
  | nil => simp [Anchor.holds, hafter]
  | cons c rest => simp [Anchor.holds, hafter]

theorem mem_importLines {content line : String} :
    line ∈ importLines content ↔ ∃ m ∈ findAll importLineNode content.toList,
      String.ofList m.chars = line := by
  rw [importLines, importNode_eq]
  exact List.mem_map

/-- The beginning of a text, and what stands behind it. -/
theorem ahead_start (before after : List Char) :
    (Place.start (before ++ after)).ahead before.length
      = ⟨before.reverse, after, before.length, []⟩ := by
  simp [Place.start, Place.ahead]

/-- **What the check reads is an import of the text.** -/
theorem isImportAt_of_mem_importLines {content line : String} (h : line ∈ importLines content) :
    IsImportAt content.toList line.toList := by
  obtain ⟨m, hm, rfl⟩ := mem_importLines.mp h
  obtain ⟨i, l, hil, -, hplaces, hlast, hchars⟩ :=
    exists_slices_of_mem_findAll importLineNode_moves hm
  obtain ⟨hstart, text, himport, ⟨after, hafter⟩, hend, hlineEnd⟩ :=
    mem_places_importLineNode.mp hplaces
  have hl : l = text.length := by
    have hposition : m.last.position = 0 + (i + l) := congrArg Place.position hlast
    rw [hend] at hposition
    have hsame : 0 + i + text.length = 0 + (i + l) := hposition
    omega
  have hdrop : content.toList.drop i = text ++ after := hafter.symm
  have htext : m.chars = text := by rw [hchars, hdrop, hl, List.take_left]
  rw [String.toList_ofList, htext]
  refine ⟨himport, content.toList.take i, after, ?_, ?_, ?_⟩
  · rw [← hdrop, List.take_append_drop]
  · rw [lineStart_holds_iff] at hstart
    intro c hc
    refine hstart c ?_
    show c ∈ ((content.toList.take i).reverse ++ []).head?
    rwa [List.append_nil, List.head?_reverse]
  · rw [lineEnd_holds_iff, hend] at hlineEnd
    intro c hc
    refine hlineEnd c ?_
    show c ∈ ((content.toList.drop i).drop text.length).head?
    rwa [hdrop, List.drop_left]

/-- A slice that begins before a part of the text and ends behind it holds the part. -/
theorem infix_take_drop {before part after : List Char} {i l : Nat} (hi : i ≤ before.length)
    (hl : before.length + part.length ≤ i + l) :
    part <:+: ((before ++ (part ++ after)).drop i).take l := by
  obtain ⟨r, hr⟩ : ∃ r, l = (before.drop i ++ part).length + r := by
    refine ⟨l - (before.drop i ++ part).length, ?_⟩
    rw [List.length_append, List.length_drop]
    omega
  rw [List.drop_append_of_le_length hi, ← List.append_assoc, hr, List.take_length_add_append]
  exact ⟨_, _, rfl⟩

/-- **Every import line of the text is part of one that the check reads**, which may have begun
earlier. -/
theorem exists_mem_importLines {content : String} {line : List Char} (hline : '\n' ∉ line)
    (h : IsImportAt content.toList line) :
    ∃ read ∈ importLines content, line <:+: read.toList := by
  obtain ⟨himport, before, after, hform, hbefore, hafter⟩ := h
  have hplace : (Place.start content.toList).ahead before.length
      = ⟨before.reverse, line ++ after, before.length, []⟩ := by
    rw [hform, ahead_start]
  have hmatch : (matchAt? importLineNode
      ((Place.start content.toList).ahead before.length)).isSome = true := by
    rw [hplace]
    refine matchAt?_isSome_of_mem_places importLineNode_moves.flat
      (mem_places_importLineNode.mpr ⟨?_, line, himport, List.prefix_append _ _, rfl, ?_⟩)
    · rw [lineStart_holds_iff]
      show ∀ c ∈ before.reverse.head?, c = '\n'
      rwa [List.head?_reverse]
    · rw [lineEnd_holds_iff]
      show ∀ c ∈ ((line ++ after).drop line.length).head?, c = '\n'
      rwa [List.drop_left]
  have hle : before.length ≤ content.toList.length := by
    rw [hform, List.length_append]
    exact Nat.le_add_right _ _
  obtain ⟨m, hm, hfrom, hto⟩ := exists_covering_of_matchAt? importLineNode_moves hle hmatch
  obtain ⟨i, l, hil, hfirst, hplaces, hlast, hchars⟩ :=
    exists_slices_of_mem_findAll importLineNode_moves hm
  obtain ⟨-, _, -, -, -, hlineEnd⟩ := mem_places_importLineNode.mp hplaces
  have hi : m.first.position = 0 + i := congrArg Place.position hfirst
  have hend : m.last.position = 0 + (i + l) := congrArg Place.position hlast
  -- a match ends at the end of a line, so not within this one
  have hwhole : before.length + line.length ≤ i + l := by
    by_contra hshort
    obtain ⟨k, hk⟩ : ∃ k, i + l = before.length + k := ⟨i + l - before.length, by omega⟩
    have hklt : k < line.length := by omega
    obtain ⟨c, cs, hc⟩ := List.exists_cons_of_ne_nil fun h : line.drop k = [] =>
      absurd (List.drop_eq_nil_iff.mp h) (Nat.not_le.mpr hklt)
    have hnext : m.last.after.head? = some c := by
      have hdrop : m.last.after = content.toList.drop (i + l) := congrArg Place.after hlast
      rw [hdrop, hform, hk, List.drop_length_add_append, List.drop_append_of_le_length hklt.le, hc]
      rfl
    have hbreak := lineEnd_holds_iff.mp hlineEnd c hnext
    exact hline (hbreak ▸ List.mem_of_mem_drop (hc ▸ List.mem_cons_self))
  refine ⟨_, mem_importLines.mpr ⟨m, hm, rfl⟩, ?_⟩
  rw [String.toList_ofList, hchars, hform]
  exact infix_take_drop (by omega) hwhole

/-- The text of a name in an import. -/
def quoted (name : String) : List Char := '"' :: (name.toList ++ ['"'])

/-- The name stands on a line that begins with an import. -/
def OnImportLine (content name : String) : Prop :=
  ∃ line, '\n' ∉ line ∧ IsImportAt content.toList line ∧ quoted name <:+: line

/-! ## Declarations -/

/-- The pattern of a declaration. -/
def declarationPattern : String := "import\\s+(?:\"([^\"]+)\"|\\(\\s*([\\s\\S]*?)\\s*\\))"

/-- The declarations that the collector reads in a text. -/
def declarations (content : String) : List Match :=
  matchesOf false declarationPattern content.toList

/-- The names that a declaration lists. -/
def declaredNames (m : Match) : List (List Char) :=
  match m.group? 1 with
  | some name => [name]
  | none => quotedNames ((m.group? 2).getD [])

theorem packageImports_eq (content : String) :
    packageImports content.toList = (declarations content).flatMap declaredNames := by
  refine congrArg (List.flatMap · (declarations content)) (funext fun m => ?_)
  unfold declaredNames
  cases m.group? 1 <;> rfl

/-- The collector's imports are the names that the declarations list. -/
theorem mem_importsOf_go_iff {content name : String} :
    name ∈ importsOf "go" content ↔
      ∃ m ∈ declarations content, name.toList ∈ declaredNames m := by
  have hscript : scriptLanguages.contains "go" = false := by decide
  have hmodule : ("go" == "python") = false := by decide
  unfold importsOf
  rw [hscript, hmodule]
  simp only [Bool.false_eq_true, if_false, beq_self_eq_true, if_true, packageImports_eq,
    List.mem_map, List.mem_flatMap]
  constructor
  · rintro ⟨_, ⟨m, hm, hname⟩, rfl⟩
    exact ⟨m, hm, String.toList_ofList.symm ▸ hname⟩
  · rintro ⟨m, hm, hname⟩
    exact ⟨_, ⟨m, hm, hname⟩, String.ofList_toList⟩

/-- The word and the whitespace behind it. -/
def declarationHead : List Node := "import".toList.map Node.char ++ [gapNode]

/-- A name between quotation marks, or a list between parentheses. -/
def declarationTail : Node :=
  .alt
    (.ofList [.char '"', .group 1 (.loop 1 none .greedy (.one ⟨true, [.char '"'], .exact⟩)),
      .char '"'])
    (.ofList [.char '(', blanksNode, .group 2 (.loop 0 none .lazy
        (.one ⟨false, [.category .blank false false, .category .blank true false], .exact⟩)),
      blanksNode, .char ')'])

/-- The pattern of a declaration as a node. -/
def declarationNode : Node := .ofList (declarationHead ++ [declarationTail])

theorem compile_declaration :
    compileWith { multiLine := false } declarationPattern.toList = .ok declarationNode :=
  eq_ok_of_toOption (by decide +kernel)

theorem declarations_eq (content : String) :
    declarations content = findAll declarationNode content.toList := by
  rw [declarations, matchesOf, compile_declaration]

/-- A declaration begins with the word and whitespace. -/
theorem exists_of_mem_places_declarationNode {p q : Place} (hq : q ∈ declarationNode.places p) :
    ∃ gap behind j, IsGap gap ∧ p.after = "import".toList ++ gap ++ behind ∧
      q.bare = (p.ahead (("import".toList ++ gap).length + j)).bare := by
  obtain ⟨r, hr, hq⟩ := Node.mem_places_ofList_append.mp hq
  obtain ⟨head, hfront, hhead, rfl⟩ := (Node.mem_places_of_isPlain rfl).mp hr
  obtain ⟨_, hgap, rfl⟩ := Node.mem_language_chars_append.mp hhead
  obtain ⟨behind, hbehind⟩ := hfront
  obtain ⟨j, -, hj⟩ := Node.ahead_of_mem_places (n := declarationTail) rfl hq
  rw [Place.ahead_ahead] at hj
  exact ⟨_, behind, j, mem_language_gapNode.mp hgap, hbehind.symm, hj⟩

theorem declarationNode_moves : declarationNode.Moves where
  flat := rfl
  moves := by
    intro p q hq
    obtain ⟨gap, behind, j, -, -, hj⟩ := exists_of_mem_places_declarationNode hq
    have hposition : q.position = p.position + (("import".toList ++ gap).length + j) :=
      congrArg Place.position hj
    have hword : "import".toList.length = 6 := rfl
    rw [List.length_append, hword] at hposition
    omega

/-- Does nothing but whitespace stand before the match on its line? -/
def beginsLine (m : Match) : Bool := (m.first.before.takeWhile (· != '\n')).all isBlank

/-- The match up to the end of its first line. -/
def firstLine (m : Match) : List Char := m.chars.takeWhile (· != '\n')

/-- The declaration begins its line and lists the name, which stands on that line. -/
structure Leads (m : Match) (name : String) : Prop where
  listed : name.toList ∈ declaredNames m
  begins : beginsLine m = true
  first : quoted name <:+: firstLine m

instance (m : Match) (name : String) : Decidable (Leads m name) :=
  decidable_of_iff
    (name.toList ∈ declaredNames m ∧ beginsLine m = true ∧ quoted name <:+: firstLine m)
    ⟨fun ⟨hlisted, hbegins, hfirst⟩ => ⟨hlisted, hbegins, hfirst⟩,
      fun h => ⟨h.listed, h.begins, h.first⟩⟩

/-- Behind a line stands a line break or nothing. -/
theorem eq_newline_of_mem_head? {cs : List Char} :
    ∀ c ∈ (cs.dropWhile (· != '\n')).head?, c = '\n' := by
  intro c hc
  have hstop := List.head?_dropWhile_not (· != '\n') cs
  rw [Option.mem_def.mp hc] at hstop
  simpa using hstop

theorem newline_not_mem_takeWhile (cs : List Char) : '\n' ∉ cs.takeWhile (· != '\n') := fun h => by
  simpa using List.mem_takeWhile_imp h

/-- **A name on the first line of a declaration that begins it stands on an import line.** -/
theorem onImportLine_of_leads {content name : String} {m : Match}
    (hm : m ∈ declarations content) (h : Leads m name) : OnImportLine content name := by
  rw [declarations_eq] at hm
  obtain ⟨i, l, -, hfirst, hplaces, -, hchars⟩ :=
    exists_slices_of_mem_findAll declarationNode_moves hm
  obtain ⟨gap, behind, -, hgap, hafter, -⟩ := exists_of_mem_places_declarationNode hplaces
  have hdrop : content.toList.drop i = "import".toList ++ gap ++ behind := hafter
  have hbefore : m.first.before = (content.toList.take i).reverse ++ [] :=
    congrArg Place.before hfirst
  rw [List.append_nil] at hbefore
  -- the rest of the line on which the declaration begins
  obtain ⟨line, hline⟩ : ∃ line, line = (content.toList.drop i).takeWhile (· != '\n') := ⟨_, rfl⟩
  have hname : quoted name <:+: line := by
    have hfront : firstLine m <+: line := by
      obtain ⟨rest, hrest⟩ : firstLine m <+: content.toList.drop i :=
        (List.takeWhile_prefix _).trans (hchars ▸ List.take_prefix _ _)
      have hwithin : ∀ c ∈ firstLine m, (c != '\n') = true := fun c hc =>
        List.mem_takeWhile_imp (p := (· != '\n')) hc
      rw [hline, ← hrest, List.takeWhile_append_of_pos hwithin]
      exact List.prefix_append _ _
    exact h.first.trans hfront.isInfix
  have hform : line = "import".toList ++ (gap ++ behind.takeWhile (· != '\n')) := by
    rw [hdrop, List.takeWhile_append] at hline
    split at hline
    · rw [hline, List.append_assoc]
    · -- the whitespace behind the word would reach the next line, and the name with it
      have hquote : '"' ∈ "import".toList ++ gap :=
        (List.takeWhile_prefix _).subset (hline ▸ hname.subset List.mem_cons_self)
      rcases List.mem_append.mp hquote with hword | hblank
      · exact absurd hword (by decide)
      · exact absurd (hgap.2 _ hblank) (by decide)
  have hindent : ∀ c ∈ (m.first.before.takeWhile (· != '\n')).reverse, isBlank c = true :=
    fun c hc => List.all_eq_true.mp h.begins c (List.mem_reverse.mp hc)
  refine ⟨(m.first.before.takeWhile (· != '\n')).reverse ++ line, ?_, ⟨?_, ?_⟩, ?_⟩
  · rw [List.mem_append, List.mem_reverse, hline]
    exact not_or.mpr ⟨newline_not_mem_takeWhile _, newline_not_mem_takeWhile _⟩
  · exact ⟨_, gap, _, hindent, hgap, newline_not_mem_takeWhile _, congrArg _ hform⟩
  · refine ⟨(m.first.before.dropWhile (· != '\n')).reverse,
      (content.toList.drop i).dropWhile (· != '\n'), ?_, ?_, eq_newline_of_mem_head?⟩
    · rw [List.append_assoc, ← List.append_assoc, ← List.reverse_append,
        List.takeWhile_append_dropWhile, hline, List.takeWhile_append_dropWhile, hbefore,
        List.reverse_reverse, List.take_append_drop]
    · rw [List.getLast?_reverse]
      exact eq_newline_of_mem_head?
  · exact hname.trans (List.suffix_append _ _).isInfix

/-! ## Layers -/

/-- The pattern of the check. -/
def layerPattern : String := "/dal\\b|/repository\\b|config\\.MysqlCli|gorm\\."

/-- A word at whose end a word ends. -/
def layerNameNode (word : String) : Node :=
  .ofList (word.toList.map Node.char ++ [.anchor (.wordEdge false)])

/-- The pattern as a node. -/
def layerNode : Node :=
  .alt (layerNameNode "/dal") (.alt (layerNameNode "/repository")
    (.alt (wordNode "config.MysqlCli") (wordNode "gorm.")))

theorem compile_layer : compileWith { ignoreCase := false } layerPattern.toList = .ok layerNode :=
  eq_ok_of_toOption (by decide +kernel)

/-- The last segments of packages for data access. -/
def layerNames : List String := ["/dal", "/repository"]

/-- Does the last segment of the name say that it is a package for data access? -/
def NamesDataLayer (name : String) : Prop := ∃ word ∈ layerNames, word.toList <:+ name.toList

theorem mem_places_layerNameNode {word : String}
    (hplain : (Node.ofList (word.toList.map Node.char)).isPlain = true) {p : Place}
    (hfront : word.toList <+: p.after)
    (hedge : Anchor.holds (.wordEdge false) (p.ahead word.toList.length) = true) :
    p.ahead word.toList.length ∈ (layerNameNode word).places p := by
  have hword : p.ahead word.toList.length ∈ (Node.ofList (word.toList.map Node.char)).places p :=
    (Node.mem_places_of_isPlain hplain).mpr
      ⟨word.toList, hfront, Node.mem_language_chars.mpr rfl, rfl⟩
  refine Node.mem_places_ofList_append.mpr ⟨_, hword, ?_⟩
  show _ ∈ (Node.anchor (.wordEdge false)).places _
  rw [Node.places, if_pos hedge]
  exact List.mem_singleton.mpr rfl

/-- The pattern leads over such a segment if a quotation mark stands behind it. -/
theorem exists_mem_places_layerNode {word : String} (hword : word ∈ layerNames)
    (before after : List Char) (position : Nat) :
    ∃ q, q ∈ layerNode.places ⟨before, word.toList ++ '"' :: after, position, []⟩ := by
  simp only [layerNode, Node.places, List.mem_append]
  simp only [layerNames, List.mem_cons, List.not_mem_nil, or_false] at hword
  obtain rfl | rfl := hword
  · exact ⟨_, Or.inl (mem_places_layerNameNode rfl (List.prefix_append _ _) rfl)⟩
  · exact ⟨_, Or.inr (Or.inl (mem_places_layerNameNode rfl (List.prefix_append _ _) rfl))⟩

/-- A name of a package for data access is found between quotation marks. -/
theorem matching_layer_of_infix {name line : String} (hname : NamesDataLayer name)
    (hline : quoted name <:+: line.toList) : matching layerPattern line = true := by
  obtain ⟨word, hword, front, hfront⟩ := hname
  obtain ⟨before, after, hform⟩ := hline
  unfold matching Pattern.ofRegex
  rw [compile_layer]
  show (searchFrom layerNode [] 0 line.toList).isSome = true
  rw [searchFrom_isSome_iff_exists]
  have hplace : line.toList = before ++ '"' :: front ++ (word.toList ++ '"' :: after) := by
    rw [← hform, quoted, ← hfront]
    simp
  refine ⟨(before ++ '"' :: front).length, ?_, ?_⟩
  · rw [hplace]
    exact (List.prefix_append _ _).length_le
  · show (matchAt? layerNode ((Place.start line.toList).ahead _)).isSome = true
    rw [hplace, ahead_start]
    obtain ⟨q, hq⟩ := exists_mem_places_layerNode hword (before ++ '"' :: front).reverse after
      (before ++ '"' :: front).length
    exact matchAt?_isSome_of_mem_places rfl hq

/-! ## What the check reports -/

/-- The check for handlers. -/
def layerCheck : Check := architectureChecks.head (List.cons_ne_nil _ _)

theorem checks_architectureBoundary :
    Specialist.architectureBoundary.checks = layerCheck :: architectureChecks.tail := rfl

/-- No other check of the specialist has its id. -/
theorem eq_layerCheck {c : Check} (hc : c ∈ Specialist.architectureBoundary.checks)
    (hid : c.ruleId = layerCheck.ruleId) : c = layerCheck := by
  have hothers : ∀ c ∈ architectureChecks.tail, c.ruleId ≠ layerCheck.ruleId := by decide +kernel
  rw [checks_architectureBoundary] at hc
  exact (List.mem_cons.mp hc).resolve_right fun htail => hothers c htail hid

theorem guard_layerCheck_iff {r : Routed} : layerCheck.guard r = true ↔ r.kind = .handler := by
  show [FileKind.handler].contains r.kind = true ↔ _
  rw [List.contains_iff_mem, List.mem_singleton]

/-- What the check reports: an import line that names a layer. -/
theorem mem_findings_layerCheck {f : ChangedFile} {content : String} {x : Finding} :
    x ∈ layerCheck.findings "architecture-boundary" f content ↔
      ∃ line ∈ importLines content, matching layerPattern line = true ∧
        x = layerCheck.finding "architecture-boundary" f.path 1 (some (strip line)) := by
  show x ∈ (importLines content).filterMap _ ↔ _
  rw [List.mem_filterMap]
  refine exists_congr fun line => and_congr_right fun _ => ?_
  show (if matching layerPattern line = true then some _ else none) = some x ↔ _
  split
  next h => simp [h, eq_comm]
  next h => simp [h]

/-- The finding says that the handler depends on data access. -/
structure IsLayerFinding (x : Finding) (f : ChangedFile) : Prop where
  ruleId : x.ruleId = .text "arch-handler-direct-data-access"
  severity : x.severity = .warning
  file : x.file = .text f.path
  line : x.line = .int 1

/-- **Imports of data access that stand on import lines are caught.** Every name that a declaration
lists on its first line, if the declaration begins that line, is an import of the collector and
stands on an import line. Where the specialist for the architecture finds no more than its limit
allows,
* it succeeds if the hard rules can be evaluated;
* if it succeeds, then each handler has a finding for every import of the collector whose last
  segment is that of a package for data access, if the import stands on an import line;
* and a finding under the id of the check comes from a hard rule with that id, or an import of a
  handler's text matches the pattern of the check. -/
theorem layer_imports_caught {p : Policy} {routed : List Routed} {contents : Contents}
    (hcap : ((p.report .architectureBoundary routed contents).length : Int)
      ≤ (p.agents .architectureBoundary).maxFindings) :
    (∀ content, ∀ m ∈ declarations content, ∀ name, Leads m name →
      name ∈ importsOf "go" content ∧ OnImportLine content name) ∧
    (p.Evaluates .architectureBoundary routed contents →
      ∃ found, specialistFindings p "architecture-boundary" routed contents = .ok found) ∧
    ∀ found, specialistFindings p "architecture-boundary" routed contents = .ok found →
      (∀ r ∈ routed, r.kind = .handler → ∀ name ∈ importsOf "go" (contents r.file.path),
        NamesDataLayer name → OnImportLine (contents r.file.path) name →
          ∃ x ∈ found, IsLayerFinding x r.file) ∧
      ∀ x ∈ found, x.ruleId = .text "arch-handler-direct-data-access" →
        (∃ rule ∈ p.hardRules, rule.id = "arch-handler-direct-data-access") ∨
          ∃ r ∈ routed, r.kind = .handler ∧ IsLayerFinding x r.file ∧
            ∃ line, IsImportAt (contents r.file.path).toList line.toList ∧
              matching layerPattern line = true := by
  have hrun : ∀ found, specialistFindings p "architecture-boundary" routed contents = .ok found ↔
      p.Evaluates .architectureBoundary routed contents ∧
        found = p.report .architectureBoundary routed contents := fun found => by
    rw [← takeSigned_of_length_le hcap]
    exact specialistFindings_eq_ok_iff (s := .architectureBoundary)
  refine ⟨fun content m hm name h => ⟨mem_importsOf_go_iff.mpr ⟨m, hm, h.listed⟩,
    onImportLine_of_leads hm h⟩, fun hev => ⟨_, (hrun _).mpr ⟨hev, rfl⟩⟩, fun found hfound => ?_⟩
  obtain ⟨-, rfl⟩ := (hrun found).mp hfound
  refine ⟨?_, ?_⟩
  · intro r hr hkind name _ hlayer ⟨line, hline, hat, hname⟩
    obtain ⟨read, hread, hpart⟩ := exists_mem_importLines hline hat
    have hfinding : layerCheck.finding "architecture-boundary" r.file.path 1 (some (strip read))
        ∈ layerCheck.findings "architecture-boundary" r.file (contents r.file.path) :=
      mem_findings_layerCheck.mpr
        ⟨read, hread, matching_layer_of_infix hlayer (hname.trans hpart), rfl⟩
    have hcheck : layerCheck ∈ Specialist.architectureBoundary.checks :=
      checks_architectureBoundary ▸ List.mem_cons_self
    refine ⟨_, List.mem_append_left _ (mem_runChecks.mpr
      ⟨r, hr, layerCheck, hcheck, guard_layerCheck_iff.mpr hkind, hfinding⟩), ?_⟩
    exact ⟨rfl, rfl, rfl, rfl⟩
  · intro x hx hid
    rcases List.mem_append.mp hx with hcheck | hrule
    · obtain ⟨r, hr, c, hc, hguard, hx⟩ := mem_runChecks.mp hcheck
      obtain ⟨_, _, hown⟩ := c.finding_of_mem hx
      rw [hown] at hid
      obtain rfl := eq_layerCheck hc (Document.text.inj hid)
      obtain ⟨line, hline, hmatch, rfl⟩ := mem_findings_layerCheck.mp hx
      exact Or.inr ⟨r, hr, guard_layerCheck_iff.mp hguard, ⟨rfl, rfl, rfl, rfl⟩, line,
        isImportAt_of_mem_importLines hline, hmatch⟩
    · obtain ⟨r, -, hrule⟩ := List.mem_flatMap.mp hrule
      obtain ⟨rule, hmem, hrule⟩ := List.mem_flatMap.mp hrule
      obtain ⟨_, rfl⟩ := rule.finding_of_mem_report hrule
      exact Or.inl ⟨rule, (mem_rulesOf.mp hmem).1, Document.text.inj hid⟩

/-- A handler to which a line is added. -/
def handlerFile : ChangedFile where
  path := "biz/handler/user.go"
  status := .modified
  hunks := [⟨"@@ -1 +1,2 @@", 1, 1, 1, 2, " package handler\n+"⟩]
  patch := "@@ -1 +1,2 @@\n package handler\n+"

/-- A single import is caught. -/
theorem layer_imports_caught_sample :
    let content := "package handler\n\nimport \"example.com/app/dal\"\n"
    "example.com/app/dal" ∈ importsOf "go" content ∧
      ∃ found, specialistFindings rulelessPolicy "architecture-boundary"
          [Routed.ofFile handlerFile] (fun _ => content) = .ok found ∧
        ∃ x ∈ found, IsLayerFinding x handlerFile := by
  intro content
  have hleads : ∃ m ∈ declarations content, Leads m "example.com/app/dal" := by decide +kernel
  have hcap : ((rulelessPolicy.report .architectureBoundary [Routed.ofFile handlerFile]
      fun _ => content).length : Int)
      ≤ (rulelessPolicy.agents .architectureBoundary).maxFindings := by decide +kernel
  obtain ⟨hagree, hruns, hcaught⟩ := layer_imports_caught hcap
  obtain ⟨m, hm, hleads⟩ := hleads
  obtain ⟨hname, hline⟩ := hagree content m hm _ hleads
  obtain ⟨found, hfound⟩ := hruns ((rulelessPolicy_evaluable [handlerFile]).evaluates
    fun r hr => List.mem_singleton.mpr (congrArg Routed.file (List.mem_singleton.mp hr)))
  exact ⟨hname, found, hfound, (hcaught found hfound).1 _ (List.mem_singleton.mpr rfl)
    (by decide +kernel) _ hname ⟨"/dal", by decide, by decide⟩ hline⟩

/-- A list with one import begins its line, and the import stands on the next one. The collector
reads it, and nothing is reported. -/
theorem grouped_import_missed :
    let content := "package handler\n\nimport (\n\t\"example.com/app/dal\"\n)\n"
    parseFiles [] [.ofFields [("filename", .text handlerFile.path), ("status", .text "modified"),
        ("patch", .text handlerFile.patch)]] = .ok [handlerFile] ∧
      (Routed.ofFile handlerFile).kind = .handler ∧
      "example.com/app/dal" ∈ importsOf "go" content ∧ NamesDataLayer "example.com/app/dal" ∧
      (rulelessPolicy.agents .architectureBoundary).enabled = true ∧
      ((rulelessPolicy.report .architectureBoundary [Routed.ofFile handlerFile]
          fun _ => content).length : Int)
        ≤ (rulelessPolicy.agents .architectureBoundary).maxFindings ∧
      specialistFindings rulelessPolicy "architecture-boundary" [Routed.ofFile handlerFile]
        (fun _ => content) = .ok [] := by
  intro content
  refine ⟨eq_ok_of_toOption (by decide +kernel), by decide +kernel, by decide +kernel,
    ⟨"/dal", by decide, by decide⟩, by decide +kernel, by decide +kernel, ?_⟩
  have hlength : (specialistFindings rulelessPolicy "architecture-boundary"
      [Routed.ofFile handlerFile] fun _ => content).toOption.map List.length = some 0 := by
    decide +kernel
  obtain ⟨found, hfound, hnone⟩ := exists_eq_ok_of_map hlength
  rw [hfound, List.length_eq_zero_iff.mp hnone]

end ReviewGate
