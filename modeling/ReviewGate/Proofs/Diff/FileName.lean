import ReviewGate.Proofs.Diff.GitRoundTrip

/-!
# `ReviewGate.Proofs.Diff.FileName` — file names with blanks in git diffs

Git writes a path without quotation marks also where blanks are in it. In the title nothing tells
then where a path ends; on the line of a side, a tab behind the path does. Neither is heeded when a
git diff is read. A name told by the new side keeps the tab, and a name taken from the title is the
word behind its third blank.

So a name is read as it is only if it has no blank. That suffices where a side tells it, and where
the other path of the title has no blank either; a file that was renamed from a path with a blank,
and not changed, keeps its name by accident only.

## Contents
- `UnquotedPath`, `NamedChange`, `NamedDiff`: files in a diff, under names that may have blanks.
- `wordAt`, `titleName`, `NamedDiff.nameRead`: the name that is read.
- `ofTitle_namedDiff`, `foldl_push_words`, `foldl_push_sides`: titles, and lines of metadata.
- `NamedDiff.nameRead_eq_iff`, `unquoted_names_read`: which names are got back.
-/

namespace ReviewGate.Diff

open Text

/-! ## Files under names with blanks -/

/-- The characters of paths that git writes without quotation marks: printable ASCII but quotes and
backslashes. -/
def isUnquoted (c : Char) : Bool := ' ' ≤ c && c ≤ '~' && c != '"' && c != '\\'

/-- A path that git writes without quotation marks. -/
structure UnquotedPath where
  text : String
  unquoted : text.toList.all isUnquoted = true

namespace UnquotedPath

/-- Is there a blank in the path? -/
def HasBlank (p : UnquotedPath) : Prop := ' ' ∈ p.text.toList

instance (p : UnquotedPath) : Decidable p.HasBlank :=
  inferInstanceAs (Decidable (' ' ∈ p.text.toList))

/-- The path on the line of a side, where a tab ends a path with blanks. -/
def ended (p : UnquotedPath) : String := p.text ++ if p.HasBlank then "\t" else ""

end UnquotedPath

/-- What happened to a file. Modes are those before and after, if they differ. -/
inductive NamedChange
  | added (mode : LineText) (path : UnquotedPath)
  | removed (mode : LineText) (path : UnquotedPath)
  | modified (modes : Option (LineText × LineText)) (path : UnquotedPath)
  | renamed (modes : Option (LineText × LineText)) (percent : Nat) (old new : UnquotedPath)

namespace NamedChange

/-- The first path of the title. -/
def oldPath : NamedChange → UnquotedPath
  | added _ path | removed _ path | modified _ path => path
  | renamed _ _ old _ => old

/-- The second path of the title, by which the file is known: a removed file has one path only. -/
def path : NamedChange → UnquotedPath
  | added _ path | removed _ path | modified _ path => path
  | renamed _ _ _ new => new

/-- The file before the change. -/
def before? : NamedChange → Option UnquotedPath
  | added _ _ => none
  | c => some c.oldPath

/-- The file after the change. -/
def after? : NamedChange → Option UnquotedPath
  | removed _ _ => none
  | c => some c.path

/-- The status of the file. -/
def status : NamedChange → FileStatus
  | added _ _ => .added
  | removed _ _ => .removed
  | modified _ _ => .modified
  | renamed _ _ _ _ => .renamed

/-- The lines about modes, each with its word and what follows it. -/
def modeNotes : Option (LineText × LineText) → List (String × String)
  | none => []
  | some (old, new) => [("old mode ", old.text), ("new mode ", new.text)]

/-- The lines about the change. -/
def notes : NamedChange → List (String × String)
  | added mode _ => [("new file mode ", mode.text)]
  | removed mode _ => [("deleted file mode ", mode.text)]
  | modified modes _ => modeNotes modes
  | renamed modes percent old new =>
      modeNotes modes ++ [("similarity index ", percent.repr ++ "%"), ("rename from ", old.text),
        ("rename to ", new.text)]

end NamedChange

/-- A file in a diff. -/
structure NamedDiff where
  change : NamedChange
  objects : Option LineText
  sides : Sides
  patch : List String
  unbroken : ∀ l ∈ patch, Unbroken l
  marked : ∀ l ∈ patch, ∃ mark ∈ patchMarks, startsWith l mark = true
  headed : ∀ l ∈ patch.head?, startsWith l "@@" = true

/-- A side of a change: the path on that side behind its letter, as `write` writes it, or no file. -/
def sideName (letter : String) (write : UnquotedPath → String) : Option UnquotedPath → String
  | none => "/dev/null"
  | some path => letter ++ write path

/-- The lines about the sides. -/
def sideNotes (old new : Option UnquotedPath) : Sides → List (String × String)
  | .untold => []
  | .binary => [("Binary files ", sideName "a/" UnquotedPath.text old ++ " and " ++
      sideName "b/" UnquotedPath.text new ++ " differ")]
  | .named => [("--- ", sideName "a/" UnquotedPath.ended old),
      ("+++ ", sideName "b/" UnquotedPath.ended new)]

namespace NamedDiff

variable (d : NamedDiff)

/-- The line that names the file. -/
def title : String := "diff --git a/" ++ d.change.oldPath.text ++ " b/" ++ d.change.path.text

/-- The lines of metadata. -/
def notes : List (String × String) :=
  d.change.notes ++ (d.objects.map fun o => ("index ", o.text)).toList ++
    sideNotes d.change.before? d.change.after? d.sides

/-- All lines. -/
def lines : List String := d.title :: (d.notes.map (fun n => n.1 ++ n.2) ++ d.patch)

/-- The lines as a text, each with a newline at its end. -/
def text : String := String.join (d.lines.map (· ++ "\n"))

end NamedDiff

/-! ## The name that is read -/

/-- The word behind the `n`-th blank of a text. -/
def wordAt (n : Nat) (s : String) : String := String.ofList ((s.toList.splitOn ' ')[n]?.getD [])

/-- The name taken from a title: the first word of the second path, or a word of the first. -/
def titleName (old new : UnquotedPath) : String :=
  if old.HasBlank then dropStart (wordAt 1 old.text) "b/" else wordAt 0 new.text

/-- Does a side tell the name? -/
def NamedDiff.IsTold (d : NamedDiff) : Prop := d.sides = .named ∧ d.change.after?.isSome = true

instance (d : NamedDiff) : Decidable d.IsTold := inferInstanceAs (Decidable (_ ∧ _))

/-- The name that is read. -/
def NamedDiff.nameRead (d : NamedDiff) : String :=
  if d.IsTold then d.change.path.ended else titleName d.change.oldPath d.change.path

/-- The record that is read. -/
def NamedDiff.record (d : NamedDiff) : Document :=
  .ofFields [("filename", .text d.nameRead), ("status", .text d.change.status.name),
    ("patch", .text (joinLines d.patch))]

/-! ## Titles -/

/-- What has no separator is read into the first piece. -/
theorem splitOn_append_of_not_mem {c : Char} {front : List Char} (h : c ∉ front) (cs : List Char) :
    (front ++ cs).splitOn c = (cs.splitOn c).modifyHead (front ++ ·) := by
  obtain ⟨first, later, hsplit⟩ := List.exists_cons_of_ne_nil (List.splitOn_ne_nil c cs)
  induction front with
  | nil => simp [hsplit]
  | cons d front ih =>
      rw [List.mem_cons, not_or] at h
      have hd : ¬ (d == c) = true := fun hd => h.1 (beq_iff_eq.mp hd).symm
      rw [List.cons_append, List.splitOn_cons_eq_if_modifyHead, if_neg hd, ih h.2, hsplit]
      rfl

/-- The first separator ends the first piece, and a second one follows. -/
theorem exists_splitOn_of_mem {c : Char} {cs : List Char} (h : c ∈ cs) :
    ∃ first second later, cs.splitOn c = first :: second :: later := by
  obtain ⟨front, back, rfl, hfront⟩ := List.eq_append_cons_of_mem h
  obtain ⟨second, later, hsplit⟩ := List.exists_cons_of_ne_nil (List.splitOn_ne_nil c back)
  exact ⟨front, second, later, by
    rw [List.splitOn_append_cons_self_of_not_mem hfront, hsplit]⟩

/-- The words of a title are those of its front and of its two paths. -/
theorem splitOn_namedTitle (d : NamedDiff) :
    d.title.toList.splitOn ' ' = ["diff".toList, "--git".toList] ++
      (d.change.oldPath.text.toList.splitOn ' ').modifyHead ("a/".toList ++ ·) ++
      (d.change.path.text.toList.splitOn ' ').modifyHead ("b/".toList ++ ·) := by
  have htitle : d.title.toList = "diff".toList ++ ' ' :: ("--git".toList ++ ' ' ::
      (("a/".toList ++ d.change.oldPath.text.toList) ++ ' ' ::
        ("b/".toList ++ d.change.path.text.toList))) := by
    have hfront : "diff --git a/".toList
        = "diff".toList ++ ' ' :: ("--git".toList ++ ' ' :: "a/".toList) := by decide
    have hbetween : " b/".toList = ' ' :: "b/".toList := by decide
    unfold NamedDiff.title
    simp only [String.toList_append, hfront, hbetween, List.append_assoc, List.cons_append]
  rw [htitle, List.splitOn_append_cons_self_of_not_mem (by decide),
    List.splitOn_append_cons_self_of_not_mem (by decide), List.splitOn_append_cons_self,
    splitOn_append_of_not_mem (by decide), splitOn_append_of_not_mem (by decide)]
  rfl

/-- **A title gives the word behind its third blank.** -/
theorem ofTitle_namedDiff (d : NamedDiff) :
    Section.ofTitle d.title = some ⟨titleName d.change.oldPath d.change.path, "modified", []⟩ := by
  have hstart : startsWith d.title "diff --git " = true := by
    have hfront : "diff --git a/" = "diff --git " ++ "a/" := by decide
    refine startsWith_iff_exists.mpr
      ⟨"a/" ++ d.change.oldPath.text ++ " b/" ++ d.change.path.text, ?_⟩
    unfold NamedDiff.title
    simp only [hfront, String.append_assoc]
  obtain ⟨word, later, hnew⟩ :=
    List.exists_cons_of_ne_nil (List.splitOn_ne_nil ' ' d.change.path.text.toList)
  have hwords := splitOn_namedTitle d
  simp only [Section.ofTitle, hstart, if_true]
  rw [hwords, hnew]
  by_cases hblank : d.change.oldPath.HasBlank
  · -- the third blank is in the first path
    obtain ⟨first, second, rest, hold⟩ := exists_splitOn_of_mem hblank
    rw [titleName, if_pos hblank, wordAt, hold]
    rfl
  · have hfirst : dropStart (String.ofList ("b/".toList ++ word)) "b/" = String.ofList word := by
      rw [String.ofList_append, String.ofList_toList, dropStart_append]
    rw [titleName, if_neg hblank, wordAt, hnew, List.splitOn_eq_singleton hblank]
    exact congrArg (fun name => some (Section.mk name "modified" [])) hfirst

/-! ## Lines of metadata -/

/-- The status after a line that starts with a word. -/
def statusAfter (word status : String) : String :=
  if word = "new file mode " then "added"
  else if word = "deleted file mode " then "removed"
  else if word = "rename from " ∨ word = "rename to " then "renamed"
  else status

/-- A line with a known word tells at most a status; only that of the new side tells a name. -/
theorem readMetadata_word {word : String} (h : word ∈ metadataWords) (hnew : word ≠ "+++ ")
    (s : Section) (value : String) :
    readMetadata s (word ++ value) = some { s with status := statusAfter word s.status } := by
  have hside : startsWith word "+++ " = false := by
    have hall : ∀ word ∈ metadataWords, word ≠ "+++ " → startsWith word "+++ " = false := by decide
    exact hall word h hnew
  rw [readMetadata_append (settlesMetadata_of_mem h) hside]
  simp only [metadataWords, List.mem_cons, List.not_mem_nil, or_false] at h
  rcases h with rfl | rfl | rfl | rfl | rfl | rfl | rfl | rfl | rfl | rfl | rfl
  any_goals rfl
  exact absurd rfl hnew

theorem push_of_readMetadata {s t : Section} (hs : s.patch = []) {line : String}
    (h : readMetadata s line = some t) : s.push line = t := by
  simp [Section.push, hs, h]

/-- Lines of metadata in front of a patch tell a status. -/
theorem foldl_push_words {notes : List (String × String)}
    (h : ∀ n ∈ notes, n.1 ∈ metadataWords ∧ n.1 ≠ "+++ ") {s : Section} (hs : s.patch = []) :
    (notes.map fun n => n.1 ++ n.2).foldl Section.push s
      = { s with status := notes.foldl (fun status n => statusAfter n.1 status) s.status } := by
  induction notes generalizing s with
  | nil => rfl
  | cons n rest ih =>
      obtain ⟨hword, hnew⟩ := h n (List.mem_cons_self ..)
      have hrest : ∀ m ∈ rest, m.1 ∈ metadataWords ∧ m.1 ≠ "+++ " :=
        fun m hm => h m (List.mem_cons_of_mem _ hm)
      rw [List.map_cons, List.foldl_cons,
        push_of_readMetadata hs (readMetadata_word hword hnew s n.2), ih hrest (by exact hs),
        List.foldl_cons]

theorem NamedChange.foldl_statusAfter (c : NamedChange) :
    c.notes.foldl (fun status n => statusAfter n.1 status) "modified" = c.status.name := by
  cases c with
  | added mode path | removed mode path => rfl
  | modified modes path | renamed modes percent old new => cases modes <;> rfl

theorem NamedChange.after?_cases (c : NamedChange) : c.after? = none ∨ c.after? = some c.path := by
  cases c with
  | removed mode path => exact Or.inl rfl
  | added mode path | modified modes path | renamed modes percent old new => exact Or.inr rfl

theorem readMetadata_newSide_path (s : Section) (p : UnquotedPath) :
    readMetadata s ("+++ " ++ ("b/" ++ p.ended)) = some { s with filename := p.ended } := by
  -- a path on the new side has its letter in front, so it is not the path of no file
  have hne : ("b/" ++ p.ended == "/dev/null") = false := by
    refine beq_false_of_ne fun h => ?_
    have hletter : startsWith ("b/" ++ p.ended) "/" = false := by
      rw [startsWith_append (by decide)]
      decide
    rw [h] at hletter
    exact absurd hletter (by decide)
  rw [readMetadata_newSide, hne, dropStart_append]
  rfl

/-- The lines about the sides tell a name if there is a new side. -/
theorem foldl_push_sides (d : NamedDiff) {s : Section} (hs : s.patch = []) :
    ((sideNotes d.change.before? d.change.after? d.sides).map fun n => n.1 ++ n.2).foldl
        Section.push s
      = { s with filename := if d.IsTold then d.change.path.ended else s.filename } := by
  cases hsides : d.sides with
  | untold =>
      have htold : ¬ d.IsTold := fun h => nomatch hsides.symm.trans h.1
      rw [if_neg htold]
      rfl
  | binary =>
      have htold : ¬ d.IsTold := fun h => nomatch hsides.symm.trans h.1
      have hword : "Binary files " ∈ metadataWords ∧ "Binary files " ≠ "+++ " := by decide
      rw [if_neg htold]
      exact foldl_push_words (fun n hn => List.mem_singleton.mp hn ▸ hword) hs
  | named =>
      -- the old side tells nothing, and the new one tells its path
      have hword : "--- " ∈ metadataWords ∧ "--- " ≠ "+++ " := by decide
      have hold : ∀ value, s.push ("--- " ++ value) = s := fun value =>
        push_of_readMetadata hs (readMetadata_word hword.1 hword.2 s value)
      show (s.push ("--- " ++ _)).push ("+++ " ++ _) = _
      rw [hold]
      rcases d.change.after?_cases with hnone | hsome
      · have htold : ¬ d.IsTold := fun h => absurd h.2 (by simp [hnone])
        rw [if_neg htold, hnone]
        exact push_of_readMetadata hs (readMetadata_newSide s "/dev/null")
      · have htold : d.IsTold := ⟨hsides, by rw [hsome]; rfl⟩
        rw [if_pos htold, hsome]
        exact push_of_readMetadata hs (readMetadata_newSide_path s d.change.path)

/-! ## Sections -/

/-- The section that is read. -/
def NamedDiff.section (d : NamedDiff) : Section where
  filename := d.nameRead
  status := d.change.status.name
  patch := d.patch.reverse

theorem NamedDiff.record_section (d : NamedDiff) : d.section.record = d.record := by
  simp [Section.record, NamedDiff.section, NamedDiff.record]

/-- The words that lines about a change start with. -/
def changeWords : List String :=
  ["new file mode ", "deleted file mode ", "old mode ", "new mode ", "similarity index ",
   "rename from ", "rename to "]

theorem NamedChange.word_mem {c : NamedChange} {n : String × String} (h : n ∈ c.notes) :
    n.1 ∈ changeWords := by
  have hall : (c.notes.map (·.1)).all changeWords.contains = true := by
    cases c with
    | added mode path | removed mode path => rfl
    | modified modes path | renamed modes percent old new => cases modes <;> rfl
  exact List.contains_iff_mem.mp (List.all_eq_true.mp hall n.1 (List.mem_map_of_mem h))

/-- Neither the lines about a change nor that about the objects tell a name. -/
theorem word_of_mem_notes {c : NamedChange} {objects : Option LineText} {n : String × String}
    (h : n ∈ c.notes ++ (objects.map fun o => ("index ", o.text)).toList) :
    n.1 ∈ metadataWords ∧ n.1 ≠ "+++ " := by
  have hwords : ∀ word ∈ "index " :: changeWords, word ∈ metadataWords ∧ word ≠ "+++ " := by decide
  refine hwords n.1 ?_
  rcases List.mem_append.mp h with hchange | hobject
  · exact List.mem_cons_of_mem _ (NamedChange.word_mem hchange)
  · obtain ⟨o, -, rfl⟩ := Option.map_eq_some_iff.mp (Option.mem_toList.mp hobject)
    exact List.mem_cons_self ..

/-- The lines below a title make its section. -/
theorem NamedDiff.foldl_push_lines (d : NamedDiff) :
    (d.notes.map (fun n => n.1 ++ n.2) ++ d.patch).foldl Section.push
      ⟨titleName d.change.oldPath d.change.path, "modified", []⟩ = d.section := by
  have hstatus : (d.change.notes ++ (d.objects.map fun o => ("index ", o.text)).toList).foldl
      (fun status n => statusAfter n.1 status) "modified" = d.change.status.name := by
    rw [List.foldl_append, d.change.foldl_statusAfter]
    cases d.objects <;> rfl
  rw [List.foldl_append, NamedDiff.notes, List.map_append, List.foldl_append,
    foldl_push_words (fun _ h => word_of_mem_notes h) rfl, hstatus, foldl_push_sides d rfl,
    foldl_push_patch d.headed rfl]
  rfl

/-! ## Lines without breaks -/

theorem UnquotedPath.unbroken (p : UnquotedPath) : Unbroken p.text := by
  intro c hc
  have hunquoted : isUnquoted c = true := List.all_eq_true.mp p.unquoted c hc
  simp only [isUnquoted, Bool.and_eq_true, decide_eq_true_eq] at hunquoted
  obtain ⟨⟨⟨hlow, hhigh⟩, _⟩, _⟩ := hunquoted
  exact isBreak_eq_false (UInt32.le_iff_toNat_le.mp hlow) (UInt32.le_iff_toNat_le.mp hhigh)

theorem UnquotedPath.unbroken_ended (p : UnquotedPath) : Unbroken p.ended := by
  refine p.unbroken.append ?_
  split <;> decide

theorem unbroken_sideName {letter : String} (h : Unbroken letter) {write : UnquotedPath → String}
    (hwrite : ∀ p, Unbroken (write p)) (side : Option UnquotedPath) :
    Unbroken (sideName letter write side) := by
  cases side with
  | none =>
      show Unbroken "/dev/null"
      decide
  | some path => exact h.append (hwrite path)

theorem NamedChange.unbroken {c : NamedChange} {n : String × String} (h : n ∈ c.notes) :
    Unbroken n.2 := by
  have hmodes : ∀ modes, ∀ m ∈ modeNotes modes, Unbroken m.2 := by
    intro modes m hm
    cases modes with
    | none => exact absurd hm List.not_mem_nil
    | some modes =>
        rcases List.mem_pair.mp hm with rfl | rfl
        · exact modes.1.unbroken
        · exact modes.2.unbroken
  cases c with
  | added mode path | removed mode path =>
      rw [List.mem_singleton.mp h]
      exact mode.unbroken
  | modified modes path => exact hmodes modes n h
  | renamed modes percent old new =>
      rcases List.mem_append.mp h with hmode | hrename
      · exact hmodes modes n hmode
      · simp only [List.mem_cons, List.not_mem_nil, or_false] at hrename
        rcases hrename with rfl | rfl | rfl
        · exact (unbroken_repr percent).append (by decide)
        · exact old.unbroken
        · exact new.unbroken

theorem known_of_mem_sideNotes {sides : Sides} {old new : Option UnquotedPath}
    {n : String × String} (h : n ∈ sideNotes old new sides) :
    n.1 ∈ metadataWords ∧ Unbroken n.2 := by
  obtain ⟨hbinary, hold, hnew⟩ : "Binary files " ∈ metadataWords ∧ "--- " ∈ metadataWords ∧
      "+++ " ∈ metadataWords := by decide
  obtain ⟨ha, hb⟩ : Unbroken "a/" ∧ Unbroken "b/" := by decide
  cases sides with
  | untold => exact absurd h List.not_mem_nil
  | binary =>
      rw [List.mem_singleton.mp h]
      exact ⟨hbinary, (((unbroken_sideName ha UnquotedPath.unbroken old).append (by decide)).append
        (unbroken_sideName hb UnquotedPath.unbroken new)).append (by decide)⟩
  | named =>
      rcases List.mem_pair.mp h with rfl | rfl
      · exact ⟨hold, unbroken_sideName ha UnquotedPath.unbroken_ended old⟩
      · exact ⟨hnew, unbroken_sideName hb UnquotedPath.unbroken_ended new⟩

theorem NamedDiff.known_of_mem_notes {d : NamedDiff} {n : String × String} (h : n ∈ d.notes) :
    n.1 ∈ metadataWords ∧ Unbroken n.2 := by
  rcases List.mem_append.mp h with hfront | hside
  · refine ⟨(word_of_mem_notes hfront).1, ?_⟩
    rcases List.mem_append.mp hfront with hchange | hobject
    · exact NamedChange.unbroken hchange
    · obtain ⟨o, -, rfl⟩ := Option.map_eq_some_iff.mp (Option.mem_toList.mp hobject)
      exact o.unbroken
  · exact known_of_mem_sideNotes hside

theorem NamedDiff.unbroken_of_mem_lines {d : NamedDiff} {l : String} (h : l ∈ d.lines) :
    Unbroken l := by
  have hwords : ∀ word ∈ metadataWords, Unbroken word := by decide
  rcases List.mem_cons.mp h with rfl | hbelow
  · have hfront : Unbroken "diff --git a/" := by decide
    have hbetween : Unbroken " b/" := by decide
    exact ((hfront.append d.change.oldPath.unbroken).append hbetween).append d.change.path.unbroken
  rcases List.mem_append.mp hbelow with hnote | hpatch
  · obtain ⟨n, hn, rfl⟩ := List.mem_map.mp hnote
    obtain ⟨hword, hvalue⟩ := known_of_mem_notes hn
    exact (hwords n.1 hword).append hvalue
  · exact d.unbroken l hpatch

/-- The lines of a file end the section in front of them and open that of the file. -/
theorem NamedDiff.sectionsFrom_lines (d : NamedDiff) (current : Option Section)
    (rest : List String) :
    sectionsFrom current (d.lines ++ rest)
      = current.toList ++ sectionsFrom (some d.section) rest := by
  have hbelow : ∀ l ∈ d.notes.map (fun n => n.1 ++ n.2) ++ d.patch, Section.ofTitle l = none := by
    intro l hl
    rcases List.mem_append.mp hl with hnote | hpatch
    · obtain ⟨n, hn, rfl⟩ := List.mem_map.mp hnote
      exact ofTitle_of_word (known_of_mem_notes hn).1 n.2
    · exact ofTitle_of_marked (d.marked l hpatch)
  rw [NamedDiff.lines, sectionsFrom_cons_append (ofTitle_namedDiff d) hbelow, foldl_push_lines]

/-- The records of files under names that may have blanks. -/
theorem splitGitDiff_namedDiffs (ds : List NamedDiff) :
    splitGitDiff (String.join (ds.map NamedDiff.text)) = ds.map NamedDiff.record := by
  have hunbroken : ∀ l ∈ ds.flatMap NamedDiff.lines, Unbroken l := by
    intro l hl
    obtain ⟨d, -, hd⟩ := List.mem_flatMap.mp hl
    exact NamedDiff.unbroken_of_mem_lines hd
  have htext : String.join (ds.map NamedDiff.text)
      = String.join ((ds.flatMap NamedDiff.lines).map (· ++ "\n")) :=
    join_join_ended NamedDiff.lines ds
  rw [splitGitDiff, sections, htext, breakLines_join_ended hunbroken,
    sectionsFrom_flatMap_of NamedDiff.sectionsFrom_lines ds none]
  show (ds.map NamedDiff.section).map Section.record = _
  rw [List.map_map]
  exact List.map_congr_left fun d _ => d.record_section

/-! ## Names that are got back -/

theorem UnquotedPath.ended_eq_iff (p : UnquotedPath) : p.ended = p.text ↔ ¬ p.HasBlank := by
  unfold UnquotedPath.ended
  split
  · next hblank =>
    refine iff_of_false (fun h => ?_) (not_not_intro hblank)
    have hlength := congrArg String.length h
    have htab : "\t".length = 1 := rfl
    rw [String.length_append] at hlength
    omega
  · next hblank => exact iff_of_true (String.append_empty) hblank

theorem blank_not_mem_wordAt (n : Nat) (s : String) : ' ' ∉ (wordAt n s).toList := by
  rw [wordAt, String.toList_ofList]
  cases hword : (s.toList.splitOn ' ')[n]? with
  | none => exact List.not_mem_nil
  | some word => exact not_mem_of_mem_splitOn (List.mem_of_getElem? hword)

theorem wordAt_zero_eq_iff (s : String) : wordAt 0 s = s ↔ ' ' ∉ s.toList := by
  constructor
  · intro h hblank
    rw [← h] at hblank
    exact blank_not_mem_wordAt 0 s hblank
  · intro h
    rw [wordAt, List.splitOn_eq_singleton h]
    exact String.ofList_toList

theorem mem_of_mem_dropStart {s start : String} {c : Char} (h : c ∈ (dropStart s start).toList) :
    c ∈ s.toList := by
  unfold dropStart at h
  split at h
  · rw [String.toList_ofList] at h
    exact List.mem_of_mem_drop h
  · exact h

/-- **A name is read as it is exactly if it has no blank and stands where it is looked for**: on the
line of a side, behind a path without blanks, or by accident in the path that it is behind. -/
theorem NamedDiff.nameRead_eq_iff (d : NamedDiff) :
    d.nameRead = d.change.path.text ↔ ¬ d.change.path.HasBlank ∧
      (d.IsTold ∨ ¬ d.change.oldPath.HasBlank ∨
        dropStart (wordAt 1 d.change.oldPath.text) "b/" = d.change.path.text) := by
  unfold NamedDiff.nameRead
  split
  · next htold =>
    rw [d.change.path.ended_eq_iff]
    exact (and_iff_left (Or.inl htold)).symm
  · next htold =>
    unfold titleName
    split
    · next hold =>
      -- the word is one of the first path, and words have no blanks
      have hword : dropStart (wordAt 1 d.change.oldPath.text) "b/" = d.change.path.text →
          ¬ d.change.path.HasBlank := by
        intro h
        unfold UnquotedPath.HasBlank
        rw [← h]
        exact fun hblank => blank_not_mem_wordAt 1 _ (mem_of_mem_dropStart hblank)
      constructor
      · exact fun h => ⟨hword h, Or.inr (Or.inr h)⟩
      · rintro ⟨-, h | h | h⟩
        · exact absurd h htold
        · exact absurd hold h
        · exact h
    · next hold =>
      rw [wordAt_zero_eq_iff]
      exact (and_iff_left (Or.inr (Or.inl hold))).symm

/-- **File names in a git diff are got back exactly where no blank is in the way.** Each section gives
one record, with the status and the patch of its file. The name is that told by the new side, and
from a path with blanks it keeps the tab; without a new side it is a word of the title. So it is the
path exactly if the path has no blank and a side tells it, or the other path has no blank either, or
the word taken from that path happens to be it. -/
theorem unquoted_names_read (ds : List NamedDiff) :
    splitGitDiff (String.join (ds.map NamedDiff.text)) = ds.map NamedDiff.record ∧
      ∀ d : NamedDiff, d.nameRead = d.change.path.text ↔ ¬ d.change.path.HasBlank ∧
        (d.IsTold ∨ ¬ d.change.oldPath.HasBlank ∨
          dropStart (wordAt 1 d.change.oldPath.text) "b/" = d.change.path.text) :=
  ⟨splitGitDiff_namedDiffs ds, NamedDiff.nameRead_eq_iff⟩

/-- A file `my notes.md` that was modified, one that was removed, and one that a file got its name
from. -/
def blankNames : List NamedDiff :=
  [{ change := .modified none ⟨"my notes.md", by decide⟩
     objects := some ⟨"83db48f..bf269f4 100644", by decide⟩
     sides := .named
     patch := ["@@ -1 +1 @@", "-a", "+b"]
     unbroken := by decide
     marked := by decide
     headed := by decide },
   { change := .removed ⟨"100755", by decide⟩ ⟨"my notes.md", by decide⟩
     objects := some ⟨"83db48f..0000000", by decide⟩
     sides := .named
     patch := ["@@ -1 +0,0 @@", "-a"]
     unbroken := by decide
     marked := by decide
     headed := by decide },
   { change := .renamed none 100 ⟨"notes.md", by decide⟩ ⟨"my notes.md", by decide⟩
     objects := none
     sides := .untold
     patch := []
     unbroken := unbroken_nil
     marked := marked_nil
     headed := headed_nil }]

/-- None of the three is read as `my notes.md`: one keeps the tab, one is the second word of the
title's first path and one is the first word of its second. -/
theorem blank_names_misread :
    String.join (blankNames.map NamedDiff.text) =
      "diff --git a/my notes.md b/my notes.md\nindex 83db48f..bf269f4 100644\n" ++
      "--- a/my notes.md\t\n+++ b/my notes.md\t\n@@ -1 +1 @@\n-a\n+b\n" ++
      "diff --git a/my notes.md b/my notes.md\ndeleted file mode 100755\n" ++
      "index 83db48f..0000000\n--- a/my notes.md\t\n+++ /dev/null\n@@ -1 +0,0 @@\n-a\n" ++
      "diff --git a/notes.md b/my notes.md\nsimilarity index 100%\nrename from notes.md\n" ++
      "rename to my notes.md\n" ∧
    (splitGitDiff (String.join (blankNames.map NamedDiff.text))).map (·.field "filename")
      = [.ok (.text "my notes.md\t"), .ok (.text "notes.md"), .ok (.text "my")] := by
  have hnames : blankNames.map NamedDiff.nameRead = ["my notes.md\t", "notes.md", "my"] := by
    decide +kernel
  refine ⟨by decide +kernel, ?_⟩
  rw [splitGitDiff_namedDiffs, List.map_map]
  calc blankNames.map (fun d => d.record.field "filename")
      = (blankNames.map NamedDiff.nameRead).map fun name => .ok (.text name) := by
        rw [List.map_map]
        rfl
    _ = _ := by
        rw [hnames]
        rfl

end ReviewGate.Diff
