import ReviewGate.Proofs.Diff.GitRendering

/-!
# `ReviewGate.Proofs.Diff.GitRoundTrip` — a written git diff is read back

Every line is told by how it starts. A title starts as no other line does, so the sections of the
text are the files. Within a section the lines in front of the header of the patch start as metadata
do, and each has its effect on the section. The header starts as no metadata do and opens the patch;
from there on nothing is taken for metadata, even if the file's own text looks like it.

## Contents
- `splitOn_title`, `ofTitle_title`, `ofTitle_of_word`, `ofTitle_of_marked`: which lines are titles.
- `readMetadata_append`, `readMetadata_render`, `readMetadata_of_header`: which are metadata.
- `foldl_push_render`, `foldl_push_of_patch`, `foldl_push_patch`: lines pushed on a section.
- `Change.foldl_effect`, `Sides.foldl_effect`: what the metadata of a file say.
- `sectionsFrom_append`, `sectionsFrom_cons_append`, `sectionsFrom_flatMap_of`: sections from lines.
- `git_diff_round_trip`: records from the text.
-/

namespace ReviewGate.Diff

open Text

/-! ## Unbroken lines -/

theorem PlainPath.unbroken (p : PlainPath) : Unbroken p.text := by
  intro c hc
  have hplain : isPlain c = true := List.all_eq_true.mp p.plain c hc
  simp only [isPlain, Bool.and_eq_true, decide_eq_true_eq] at hplain
  obtain ⟨⟨⟨hlow, hhigh⟩, _⟩, _⟩ := hplain
  have hlow' : 33 ≤ c.toNat := UInt32.le_iff_toNat_le.mp hlow
  have hhigh' : c.toNat ≤ 126 := UInt32.le_iff_toNat_le.mp hhigh
  exact isBreak_eq_false (by omega) (by omega)

theorem unbroken_sideText {letter : String} (h : Unbroken letter) (side : Option PlainPath) :
    Unbroken (sideText letter side) := by
  cases side with
  | none =>
      show Unbroken "/dev/null"
      decide
  | some path => exact h.append path.unbroken

/-- What lines of metadata start with. -/
def metadataWords : List String :=
  ["new file mode ", "deleted file mode ", "old mode ", "new mode ", "similarity index ",
   "rename from ", "rename to ", "index ", "Binary files ", "--- ", "+++ "]

theorem Metadata.word_mem (m : Metadata) : m.word ∈ metadataWords := by
  cases m <;> simp only [word, metadataWords, List.mem_cons, true_or, or_true]

theorem Metadata.unbroken (m : Metadata) : Unbroken m.render := by
  have hwords : ∀ word ∈ metadataWords, Unbroken word := by decide
  have hword : Unbroken m.word := hwords m.word m.word_mem
  have hvalue : Unbroken m.value := by
    cases m with
    | newFile mode | deletedFile mode | oldMode mode | newMode mode => exact mode.unbroken
    | similarity percent => exact (unbroken_repr percent).append (by decide)
    | renameFrom path | renameTo path => exact path.unbroken
    | index objects => exact objects.unbroken
    | binary old new =>
        have hold : Unbroken (sideText "a/" old) := unbroken_sideText (by decide) old
        have hnew : Unbroken (sideText "b/" new) := unbroken_sideText (by decide) new
        exact ((hold.append (by decide)).append hnew).append (by decide)
    | oldSide path | newSide path => exact unbroken_sideText (by decide) path
  exact hword.append hvalue

/-! ## Titles -/

/-- A line that starts otherwise is no title. -/
theorem ofTitle_append {front : String} (hlong : startsWith "diff --git " front = false)
    (hshort : startsWith front "diff --git " = false) (t : String) :
    Section.ofTitle (front ++ t) = none := by
  have hstart : startsWith (front ++ t) "diff --git " = false := by
    rw [startsWith_append fun h => absurd h (Bool.eq_false_iff.mp hlong), hshort]
  rw [Section.ofTitle, hstart]
  rfl

theorem ofTitle_of_word {word : String} (h : word ∈ metadataWords) (t : String) :
    Section.ofTitle (word ++ t) = none := by
  have hwords : ∀ word ∈ metadataWords, startsWith "diff --git " word = false ∧
      startsWith word "diff --git " = false := by decide
  obtain ⟨hlong, hshort⟩ := hwords word h
  exact ofTitle_append hlong hshort t

theorem ofTitle_render (m : Metadata) : Section.ofTitle m.render = none :=
  ofTitle_of_word m.word_mem m.value

theorem ofTitle_of_marked {line : String}
    (h : ∃ mark ∈ patchMarks, startsWith line mark = true) : Section.ofTitle line = none := by
  have hmarks : ∀ mark ∈ patchMarks, startsWith "diff --git " mark = false ∧
      startsWith mark "diff --git " = false := by decide
  obtain ⟨mark, hmark, hline⟩ := h
  obtain ⟨t, rfl⟩ := startsWith_iff_exists.mp hline
  obtain ⟨hlong, hshort⟩ := hmarks mark hmark
  exact ofTitle_append hlong hshort t

theorem blank_not_mem_append {letter : String} (h : ' ' ∉ letter.toList) (p : PlainPath) :
    ' ' ∉ (letter ++ p.text).toList := by
  intro hmem
  rw [String.toList_append, List.mem_append] at hmem
  rcases hmem with hletter | hpath
  · exact h hletter
  · have hplain : isPlain ' ' = true := List.all_eq_true.mp p.plain ' ' hpath
    exact absurd hplain (by decide)

/-- Paths have no blanks, so a title has four parts. -/
theorem splitOn_title (d : FileDiff) :
    d.title.toList.splitOn ' ' = ["diff".toList, "--git".toList,
      ("a/" ++ d.change.oldPath.text).toList, ("b/" ++ d.change.newPath.text).toList] := by
  have hpieces : ∀ cs ∈ ["diff".toList, "--git".toList, ("a/" ++ d.change.oldPath.text).toList,
      ("b/" ++ d.change.newPath.text).toList], ' ' ∉ cs := by
    have hletters : ' ' ∉ "a/".toList ∧ ' ' ∉ "b/".toList := by decide
    simp only [List.forall_mem_cons]
    exact ⟨by decide, by decide, blank_not_mem_append hletters.1 _,
      blank_not_mem_append hletters.2 _, nofun⟩
  rw [← List.splitOn_intercalate ' ' hpieces (List.cons_ne_nil _ _)]
  unfold FileDiff.title
  simp [List.intercalate_cons_cons]

/-- **A title gives its second path.** -/
theorem ofTitle_title (d : FileDiff) :
    Section.ofTitle d.title = some ⟨d.change.newPath.text, "modified", []⟩ := by
  have hstart : startsWith d.title "diff --git " = true := by
    refine startsWith_iff_exists.mpr
      ⟨"a/" ++ d.change.oldPath.text ++ " b/" ++ d.change.newPath.text, ?_⟩
    apply String.toList_injective
    unfold FileDiff.title
    simp
  have hname : dropStart (String.ofList ("b/" ++ d.change.newPath.text).toList) "b/"
      = d.change.newPath.text := by
    rw [String.ofList_toList, dropStart_append]
  simp only [Section.ofTitle, hstart, splitOn_title, if_true]
  exact congrArg (fun name => some (Section.mk name "modified" [])) hname

/-! ## Metadata -/

/-- The starts that tell metadata. -/
def metadataStarts : List String :=
  ["new file", "deleted file", "rename from", "rename to", "index ", "similarity index", "old mode",
   "new mode", "Binary files", "--- ", "+++ "]

/-- Is it settled, for each start, whether a line with this text at its front has it? -/
def SettlesMetadata (front : String) : Prop :=
  ∀ start ∈ metadataStarts, startsWith start front = true → startsWith front start = true

instance (front : String) : Decidable (SettlesMetadata front) :=
  inferInstanceAs (Decidable (∀ start ∈ metadataStarts, _ → _))

theorem settlesMetadata_of_mem {word : String} (h : word ∈ metadataWords) :
    SettlesMetadata word := by
  have hall : ∀ word ∈ metadataWords, SettlesMetadata word := by decide
  exact hall word h

/-- A line with a known start says what the start says. Only the name of the new side is read from
what follows. -/
theorem readMetadata_append {front : String} (h : SettlesMetadata front)
    (hnew : startsWith front "+++ " = false) (s : Section) (t : String) :
    readMetadata s (front ++ t) = readMetadata s front := by
  have hsame : ∀ start ∈ metadataStarts, startsWith (front ++ t) start = startsWith front start :=
    fun start hstart => startsWith_append (h start hstart) t
  simp only [metadataStarts, List.forall_mem_cons] at hsame
  simp [readMetadata, hsame, hnew]

theorem readMetadata_newSide (s : Section) (name : String) :
    readMetadata s ("+++ " ++ name)
      = if name == "/dev/null" then some s else some { s with filename := dropStart name "b/" } := by
  have hword : ∀ start ∈ metadataStarts, startsWith "+++ " start = (start == "+++ ") := by decide
  have hline : ∀ start ∈ metadataStarts,
      startsWith ("+++ " ++ name) start = (start == "+++ ") := by
    intro start hstart
    rw [startsWith_append (settlesMetadata_of_mem (by decide) start hstart), hword start hstart]
  simp only [metadataStarts, List.forall_mem_cons] at hline
  simp [readMetadata, hline, dropStart_append]

/-- **A line of metadata has its effect.** -/
theorem readMetadata_render (s : Section) (m : Metadata) :
    readMetadata s m.render = some (m.effect s) := by
  have hsettled : SettlesMetadata m.word := settlesMetadata_of_mem m.word_mem
  cases m with
  | newSide side =>
      show readMetadata s ("+++ " ++ sideText "b/" side) = _
      rw [readMetadata_newSide]
      cases side with
      | none => rfl
      | some path =>
          -- a path on the new side has its letter in front, so it is not the path of no file
          have hletter : startsWith ("b/" ++ path.text) "/" = false := by
            rw [startsWith_append (by decide)]
            decide
          have hne : ("b/" ++ path.text == "/dev/null") = false := by
            refine beq_false_of_ne fun h => ?_
            rw [h] at hletter
            exact absurd hletter (by decide)
          show (if ("b/" ++ path.text == "/dev/null") = true then some s
            else some { s with filename := dropStart ("b/" ++ path.text) "b/" }) = _
          rw [hne, dropStart_append]
          rfl
  | _ =>
      -- nothing is read from behind the word
      have hword := readMetadata_append hsettled (by simp only [Metadata.word]; decide) s
      rw [Metadata.render, hword]
      simp only [Metadata.word]
      rfl

theorem readMetadata_of_header {line : String} (h : startsWith line "@@" = true) (s : Section) :
    readMetadata s line = none := by
  obtain ⟨t, rfl⟩ := startsWith_iff_exists.mp h
  rw [readMetadata_append (by decide) (by decide)]
  rfl

/-! ## Lines pushed on a section -/

theorem Metadata.patch_effect (m : Metadata) (s : Section) : (m.effect s).patch = s.patch := by
  cases m with
  | newSide side => cases side <;> rfl
  | _ => rfl

/-- In front of a patch, lines of metadata have their effects. -/
theorem foldl_push_render (ms : List Metadata) {s : Section} (hs : s.patch = []) :
    (ms.map Metadata.render).foldl Section.push s = ms.foldl (fun s m => m.effect s) s := by
  induction ms generalizing s with
  | nil => rfl
  | cons m ms ih =>
      have hpush : s.push m.render = m.effect s := by
        rw [Section.push, hs]
        simp [readMetadata_render]
      have hpatch : (m.effect s).patch = [] := by
        rw [m.patch_effect, hs]
      rw [List.map_cons, List.foldl_cons, List.foldl_cons, hpush, ih hpatch]

/-- **Behind the first line of a patch nothing is metadata.** -/
theorem foldl_push_of_patch (ls : List String) {s : Section} (hs : s.patch ≠ []) :
    ls.foldl Section.push s = { s with patch := ls.reverse ++ s.patch } := by
  induction ls generalizing s with
  | nil => rfl
  | cons l ls ih =>
      have hpush : s.push l = { s with patch := l :: s.patch } := by
        have hopen : s.patch.isEmpty = false := by
          simpa using hs
        simp [Section.push, hopen]
      rw [List.foldl_cons, hpush, ih (List.cons_ne_nil _ _), List.reverse_cons, List.append_assoc]
      rfl

/-- The lines of a patch are kept as they are, whatever they look like below the first. -/
theorem foldl_push_patch {ls : List String} (hheaded : ∀ l ∈ ls.head?, startsWith l "@@" = true)
    {s : Section} (hs : s.patch = []) :
    ls.foldl Section.push s = { s with patch := ls.reverse } := by
  cases ls with
  | nil =>
      cases s
      exact congrArg _ hs
  | cons header ls =>
      -- the header is the one line that must not look like metadata, and does not
      have hpush : s.push header = { s with patch := [header] } := by
        have hheader : readMetadata s header = none := readMetadata_of_header (hheaded header rfl) s
        simp [Section.push, hs, hheader]
      rw [List.foldl_cons, hpush, foldl_push_of_patch ls (List.cons_ne_nil _ _),
        List.reverse_cons]

/-! ## What metadata say -/

/-- The lines about a change give its status. -/
theorem Change.foldl_effect (c : Change) (name : String) :
    c.metadata.foldl (fun s m => m.effect s) ⟨name, "modified", []⟩ = ⟨name, c.status.name, []⟩ := by
  have hmodes : ∀ (modes : Option (LineText × LineText)) (s : Section),
      (modeLines modes).foldl (fun s m => m.effect s) s = s := by
    intro modes s
    cases modes <;> rfl
  cases c with
  | added mode path | removed mode path => rfl
  | modified modes path => exact hmodes modes _
  | renamed modes percent old new =>
      show (modeLines modes ++ _).foldl _ _ = _
      rw [List.foldl_append, hmodes]
      rfl

/-- The lines about the sides give the second path of the title once more, or no name. -/
theorem Sides.foldl_effect (sides : Sides) (c : Change) (status : String) :
    (sides.metadata c.before? c.after?).foldl (fun s m => m.effect s)
      ⟨c.newPath.text, status, []⟩ = ⟨c.newPath.text, status, []⟩ := by
  cases sides with
  | untold | binary => rfl
  | named => cases c <;> rfl

/-- For a removed file the second path of the title is the old one. -/
theorem Change.path_eq_newPath (c : Change) : c.path = c.newPath := by
  cases c <;> rfl

/-! ## Sections -/

/-- The section of a file. -/
def FileDiff.section (d : FileDiff) : Section where
  filename := d.change.path.text
  status := d.change.status.name
  patch := d.patch.reverse

theorem FileDiff.record_section (d : FileDiff) : d.section.record = d.record := by
  simp [Section.record, FileDiff.section, FileDiff.record]

/-- The lines below a title make its section. -/
theorem foldl_push_lines (d : FileDiff) :
    (d.metadata.map Metadata.render ++ d.patch).foldl Section.push
      ⟨d.change.newPath.text, "modified", []⟩ = d.section := by
  have hobjects : ∀ s : Section,
      ((d.objects.map Metadata.index).toList).foldl (fun s m => m.effect s) s = s := by
    intro s
    cases d.objects <;> rfl
  have hmetadata : d.metadata.foldl (fun s m => m.effect s) ⟨d.change.newPath.text, "modified", []⟩
      = ⟨d.change.newPath.text, d.change.status.name, []⟩ := by
    rw [FileDiff.metadata, List.foldl_append, List.foldl_append, d.change.foldl_effect, hobjects,
      d.sides.foldl_effect]
  rw [List.foldl_append, foldl_push_render _ rfl, hmetadata, foldl_push_patch d.headed rfl,
    FileDiff.section, d.change.path_eq_newPath]

/-- Lines that are no titles are pushed on the open section. -/
theorem sectionsFrom_append {ls : List String} (h : ∀ l ∈ ls, Section.ofTitle l = none)
    (s : Section) (rest : List String) :
    sectionsFrom (some s) (ls ++ rest) = sectionsFrom (some (ls.foldl Section.push s)) rest := by
  induction ls generalizing s with
  | nil => rfl
  | cons l ls ih =>
      have hl : Section.ofTitle l = none := h l (List.mem_cons_self ..)
      have hls : ∀ k ∈ ls, Section.ofTitle k = none := fun k hk => h k (List.mem_cons_of_mem _ hk)
      rw [List.cons_append, sectionsFrom, hl]
      exact ih hls (s.push l)

/-- A title ends the section in front of it and opens one, to which the lines below it belong. -/
theorem sectionsFrom_cons_append {title : String} {opened : Section}
    (htitle : Section.ofTitle title = some opened) {ls : List String}
    (hls : ∀ l ∈ ls, Section.ofTitle l = none) (current : Option Section) (rest : List String) :
    sectionsFrom current ((title :: ls) ++ rest)
      = current.toList ++ sectionsFrom (some (ls.foldl Section.push opened)) rest := by
  rw [List.cons_append, sectionsFrom, htitle]
  exact congrArg (current.toList ++ ·) (sectionsFrom_append hls opened rest)

/-- Where the lines of each item end the section in front of them and open that of the item, the
sections are those of the items. -/
theorem sectionsFrom_flatMap_of {α : Type} {lines : α → List String} {opened : α → Section}
    (h : ∀ x current rest, sectionsFrom current (lines x ++ rest)
      = current.toList ++ sectionsFrom (some (opened x)) rest)
    (xs : List α) (current : Option Section) :
    sectionsFrom current (xs.flatMap lines) = current.toList ++ xs.map opened := by
  induction xs generalizing current with
  | nil =>
      show current.toList = _
      rw [List.map_nil, List.append_nil]
  | cons x xs ih =>
      rw [List.flatMap_cons, h, ih]
      rfl

/-- A file's lines end the section in front of them and open the section of the file. -/
theorem sectionsFrom_lines (d : FileDiff) (current : Option Section) (rest : List String) :
    sectionsFrom current (d.lines ++ rest)
      = current.toList ++ sectionsFrom (some d.section) rest := by
  have hbelow : ∀ l ∈ d.metadata.map Metadata.render ++ d.patch, Section.ofTitle l = none := by
    intro l hl
    rcases List.mem_append.mp hl with hmetadata | hpatch
    · obtain ⟨m, _, rfl⟩ := List.mem_map.mp hmetadata
      exact ofTitle_render m
    · exact ofTitle_of_marked (d.marked l hpatch)
  rw [FileDiff.lines, sectionsFrom_cons_append (ofTitle_title d) hbelow, foldl_push_lines]

/-- **The sections of written files are those of the files.** -/
theorem sectionsFrom_flatMap (ds : List FileDiff) (current : Option Section) :
    sectionsFrom current (ds.flatMap FileDiff.lines)
      = current.toList ++ ds.map FileDiff.section :=
  sectionsFrom_flatMap_of sectionsFrom_lines ds current

/-! ## Records -/

theorem FileDiff.mem_lines {d : FileDiff} {l : String} :
    l ∈ d.lines ↔ l = d.title ∨ (∃ m ∈ d.metadata, m.render = l) ∨ l ∈ d.patch := by
  rw [FileDiff.lines, List.mem_cons, List.mem_append, List.mem_map]

theorem FileDiff.unbroken_of_mem_lines {d : FileDiff} {l : String} (hl : l ∈ d.lines) :
    Unbroken l := by
  rcases FileDiff.mem_lines.mp hl with rfl | ⟨m, _, rfl⟩ | hpatch
  · have hfront : Unbroken "diff --git a/" := by decide
    have hbetween : Unbroken " b/" := by decide
    have hold : Unbroken d.change.oldPath.text := d.change.oldPath.unbroken
    have hnew : Unbroken d.change.newPath.text := d.change.newPath.unbroken
    exact ((hfront.append hold).append hbetween).append hnew
  · exact m.unbroken
  · exact d.unbroken l hpatch

theorem FileDiff.ne_empty_of_mem_lines {d : FileDiff} {l : String} (hl : l ∈ d.lines) :
    l ≠ "" := by
  have hfront : ∀ front t : String, front ≠ "" → front ++ t ≠ "" := by
    intro front t hfront h
    exact hfront (String.append_eq_empty_iff.mp h).1
  rcases FileDiff.mem_lines.mp hl with rfl | ⟨m, _, rfl⟩ | hpatch
  · simp [FileDiff.title]
  · have hwords : ∀ word ∈ metadataWords, word ≠ "" := by decide
    exact hfront m.word m.value (hwords m.word m.word_mem)
  · have hmarks : ∀ mark ∈ patchMarks, mark ≠ "" := by decide
    obtain ⟨mark, hmark, hstart⟩ := d.marked l hpatch
    obtain ⟨t, rfl⟩ := startsWith_iff_exists.mp hstart
    exact hfront mark t (hmarks mark hmark)

/-- The texts of the files are the text of their lines. -/
theorem join_text (ds : List FileDiff) :
    String.join (ds.map FileDiff.text)
      = String.join ((ds.flatMap FileDiff.lines).map (· ++ "\n")) :=
  join_join_ended FileDiff.lines ds

/-- **A written git diff is read back**: one record per file, in order, each with the path, the
status and the patch of its file. The last newline may be missing. -/
theorem git_diff_round_trip (ds : List FileDiff) :
    splitGitDiff (String.join (ds.map FileDiff.text)) = ds.map FileDiff.record ∧
    splitGitDiff (joinLines (ds.flatMap FileDiff.lines)) = ds.map FileDiff.record := by
  have hunbroken : ∀ l ∈ ds.flatMap FileDiff.lines, Unbroken l := by
    intro l hl
    obtain ⟨d, _, hd⟩ := List.mem_flatMap.mp hl
    exact FileDiff.unbroken_of_mem_lines hd
  have hlast : ∀ l ∈ (ds.flatMap FileDiff.lines).getLast?, l ≠ "" := by
    intro l hl
    obtain ⟨d, _, hd⟩ := List.mem_flatMap.mp (List.mem_of_getLast? hl)
    exact FileDiff.ne_empty_of_mem_lines hd
  have hrecords : (sectionsFrom none (ds.flatMap FileDiff.lines)).map Section.record
      = ds.map FileDiff.record := by
    rw [sectionsFrom_flatMap]
    show (ds.map FileDiff.section).map Section.record = _
    rw [List.map_map]
    exact List.map_congr_left fun d _ => d.record_section
  constructor
  · rw [splitGitDiff, sections, join_text, breakLines_join_ended hunbroken, hrecords]
  · rw [splitGitDiff, sections, breakLines_joinLines hunbroken hlast, hrecords]

/-- A renamed file whose changed lines look like metadata. -/
def sampleRename : FileDiff where
  change := .renamed none 90 ⟨"q/old.sql", by decide⟩ ⟨"q/new.sql", by decide⟩
  objects := some ⟨"83db48f..bf269f4", by decide⟩
  sides := .named
  patch := ["@@ -1 +1 @@", "--- a comment", "+++ counter"]
  unbroken := by decide
  marked := by decide
  headed := by decide

/-- A removed file that is binary. -/
def sampleRemoval : FileDiff where
  change := .removed ⟨"100644", by decide⟩ ⟨"logo.bin", by decide⟩
  objects := none
  sides := .binary
  patch := []
  unbroken := by decide
  marked := by decide
  headed := by decide

/-- The text of the two files. -/
def sampleDiff : String :=
  "diff --git a/q/old.sql b/q/new.sql\nsimilarity index 90%\nrename from q/old.sql\n" ++
  "rename to q/new.sql\nindex 83db48f..bf269f4\n--- a/q/old.sql\n+++ b/q/new.sql\n" ++
  "@@ -1 +1 @@\n--- a comment\n+++ counter\n" ++
  "diff --git a/logo.bin b/logo.bin\ndeleted file mode 100644\n" ++
  "Binary files a/logo.bin and /dev/null differ\n"

/-- The lines that look like metadata stay in the patch, and the removed file keeps its old path. -/
theorem git_diff_round_trip_sample :
    splitGitDiff sampleDiff
      = [.ofFields [("filename", .text "q/new.sql"), ("status", .text "renamed"),
          ("patch", .text "@@ -1 +1 @@\n--- a comment\n+++ counter")],
        .ofFields [("filename", .text "logo.bin"), ("status", .text "removed"),
          ("patch", .text "")]] := by
  have htext : sampleDiff = String.join ([sampleRename, sampleRemoval].map FileDiff.text) := by
    decide +kernel
  have hpatch : joinLines sampleRename.patch = "@@ -1 +1 @@\n--- a comment\n+++ counter" := by
    decide +kernel
  rw [htext, (git_diff_round_trip [sampleRename, sampleRemoval]).1, ← hpatch]
  rfl

end ReviewGate.Diff
