import ReviewGate.Proofs.Diff.Record
import ReviewGate.Proofs.Glob.Alignment

/-!
# `ReviewGate.Proofs.Diff.Ignored` — assets are left out at any depth

The built-in globs are the names of lock files and, for each suffix of an asset, `**/*.` with the
suffix behind it. Such a glob leaves out any number of names and then covers one that ends in the
suffix. Neither `**` nor `*` covers a dot at the start of a name, and in front of the suffix the
glob has nothing else. So an asset in any directory is covered, unless its path has a hidden name;
then none of the built-in globs covers it, and the given ones decide.

## Contents
- `align_anyNames_name`: any number of names and then one.
- `lockFiles`, `assetGlob`, `assetSuffixes`, `defaultIgnore_eq`: the built-in globs.
- `assetPath`, `IsAsset`, `AllVisible`: the paths of assets.
- `coversPath_assetGlob`, `coversPath_lockFile`, `IsAsset.any_defaultIgnore_iff`: assets and
  built-in globs.
- `isIgnored_eq`: built-in globs and given ones.
- `parseFiles_ignored`, `path_ne_of_isIgnored`: files that are left out.
- `visible_assets_ignored`; `visible_assets_ignored_sample`: a bundle two directories down;
  `hidden_asset_kept`: an image in a hidden directory, and one with a hidden name.
-/

namespace ReviewGate

/-! ## Any number of names and then one -/

namespace Glob

theorem align_anyNames_name (closed : Bool) {pieces : List Piece}
    (hbreak : coversName pieces ['\n'] = false) (front : List (List Char)) (last : List Char) :
    align closed [.anyNames, .name pieces] (front ++ [last]) = true ↔
      (∀ name ∈ front, isHidden name = false) ∧ coversName pieces last = true := by
  have hform : ∀ names, align closed [.anyNames, .name pieces] names
      = anyNamesThen (align closed [.name pieces]) names := by
    intro names
    have hnever : align closed [.name pieces] [['\n']] = false := by
      rw [align, hbreak, Bool.false_and]
    rw [align, hnever, Bool.and_false, Bool.or_false]
    exact List.cons_ne_nil _ _
  rw [hform]
  induction front with
  | nil => simp [anyNamesThen, align]
  | cons name front ih =>
      -- one name is not all of them, so `**` has to leave it out
      have hmore : align closed [.name pieces] (name :: (front ++ [last])) = false := by
        simp [align]
      rw [List.cons_append, anyNamesThen, hmore, Bool.false_or, Bool.and_eq_true,
        Bool.not_eq_true', List.forall_mem_cons, and_assoc]
      exact and_congr_right fun _ => ih

/-- A text without stars and question marks covers itself. -/
theorem coversText_self {text : List Char} (h : ∀ c ∈ text, c ≠ '*' ∧ c ≠ '?') :
    CoversText text text := by
  induction text with
  | nil => exact .nil
  | cons c text ih =>
      obtain ⟨⟨hstar, hany⟩, hrest⟩ := List.forall_mem_cons.mp h
      exact .char hstar hany (ih hrest)

end Glob

namespace Diff

open Glob Text

/-! ## Built-in globs -/

/-- The names of lock files. -/
def lockFiles : List String := ["package-lock.json", "yarn.lock", "pnpm-lock.yaml"]

/-- The glob for assets with the given suffix. -/
def assetGlob (suffix : String) : String := "**/*." ++ suffix

/-- The suffixes of assets. -/
def assetSuffixes : List String :=
  ["min.js", "min.css", "map", "png", "jpg", "gif", "ico", "woff", "woff2", "ttf", "eot", "svg",
   "pdf"]

theorem defaultIgnore_eq : defaultIgnore = lockFiles ++ assetSuffixes.map assetGlob := by decide

theorem toList_assetGlob (suffix : String) :
    (assetGlob suffix).toList = '*' :: '*' :: '/' :: '*' :: '.' :: suffix.toList := by
  rw [assetGlob, String.toList_append]
  rfl

theorem assetGlob_mem_iff {suffix : String} :
    assetGlob suffix ∈ defaultIgnore ↔ suffix ∈ assetSuffixes := by
  have hlock : assetGlob suffix ∉ lockFiles := by
    have hhead : ∀ name ∈ lockFiles, name.toList.head? ≠ some '*' := by decide
    intro hmem
    exact hhead _ hmem (by rw [toList_assetGlob]; rfl)
  rw [defaultIgnore_eq, List.mem_append, or_iff_right hlock, List.mem_map]
  constructor
  · rintro ⟨s, hs, heq⟩
    have hlist := congrArg String.toList heq
    rw [toList_assetGlob, toList_assetGlob] at hlist
    simp only [List.cons.injEq, true_and] at hlist
    exact String.toList_inj.mp hlist ▸ hs
  · exact fun h => ⟨suffix, h, rfl⟩

/-- A character of a suffix. -/
def IsSuffixChar (c : Char) : Prop := c.isAlphanum = true ∨ c = '.'

instance (c : Char) : Decidable (IsSuffixChar c) := inferInstanceAs (Decidable (_ ∨ _))

theorem IsSuffixChar.ne {c d : Char} (h : IsSuffixChar c) (hd : ¬ IsSuffixChar d) : c ≠ d :=
  fun heq => hd (heq ▸ h)

theorem suffix_isTextOver : ∀ suffix ∈ assetSuffixes, IsTextOver IsSuffixChar suffix.toList := by
  decide

/-- The texts of the glob for assets. -/
def assetTexts (suffix : String) : List (List Char) := [['*', '*'], '*' :: '.' :: suffix.toList]

theorem ofComponents_assetTexts (suffix : String) :
    Path.ofComponents (assetTexts suffix) = (assetGlob suffix).toList := by
  rw [toList_assetGlob, assetTexts, Path.ofComponents, List.intercalate_cons_cons,
    List.intercalate_singleton]
  rfl

theorem bareTexts_assetTexts {suffix : String} (h : suffix ∈ assetSuffixes) :
    BareTexts (assetTexts suffix) := by
  obtain ⟨hne, hchars⟩ := suffix_isTextOver suffix h
  refine ⟨List.cons_ne_nil _ _, ?_, ?_⟩
  · have hsuffix : ∀ c ∈ suffix.toList, c ≠ '/' ∧ c ≠ '[' ∧ c ≠ '\\' := fun c hc =>
      ⟨(hchars c hc).ne (by decide), (hchars c hc).ne (by decide), (hchars c hc).ne (by decide)⟩
    rw [assetTexts, List.forall_mem_cons, List.forall_mem_singleton]
    exact ⟨by decide, List.cons_ne_nil _ _, by simpa using hsuffix⟩
  · simp [assetTexts]

/-! ## Assets and built-in globs -/

/-- The path of an asset: the names of directories, and a stem with a suffix. -/
def assetPath (names : List (List Char)) (stem : List Char) (suffix : String) : List Char :=
  Path.ofComponents (names ++ [stem ++ '.' :: suffix.toList])

/-- The parts make up the path of an asset: the directories have names, the stem is not empty, and
there is a built-in glob for the suffix. -/
structure IsAsset (names : List (List Char)) (stem : List Char) (suffix : String) : Prop where
  below : names ≠ []
  isName : ∀ name ∈ names, Path.IsName name ∧ '/' ∉ name
  isStem : stem ≠ [] ∧ '/' ∉ stem
  builtIn : assetGlob suffix ∈ defaultIgnore

/-- No name of the path starts with a dot. -/
def AllVisible (names : List (List Char)) (stem : List Char) : Prop :=
  ∀ name ∈ names ++ [stem], isHidden name = false

instance (names : List (List Char)) (stem : List Char) : Decidable (AllVisible names stem) :=
  inferInstanceAs (Decidable (∀ name ∈ names ++ [stem], isHidden name = false))

section

variable {names : List (List Char)} {stem : List Char} {suffix : String}

theorem isHidden_append {name : List Char} (h : name ≠ []) (rest : List Char) :
    isHidden (name ++ rest) = isHidden name := by
  obtain ⟨c, cs, rfl⟩ := List.exists_cons_of_ne_nil h
  by_cases hc : c = '.'
  · rw [hc]
    rfl
  · simp [isHidden, hc]

theorem IsAsset.components (h : IsAsset names stem suffix) :
    Path.components (assetPath names stem suffix) = names ++ [stem ++ '.' :: suffix.toList] := by
  have hsuffix : '/' ∉ suffix.toList := fun hmem =>
    absurd ((suffix_isTextOver suffix (assetGlob_mem_iff.mp h.builtIn)).2 _ hmem) (by decide)
  refine List.splitOn_intercalate '/' ?_ (by simp)
  intro name hname
  rcases List.mem_append.mp hname with hname | hname
  · exact (h.isName name hname).2
  · rw [List.mem_singleton.mp hname]
    simpa using ⟨h.isStem.2, hsuffix⟩

theorem IsAsset.isName_components (h : IsAsset names stem suffix) :
    ∀ name ∈ Path.components (assetPath names stem suffix), Path.IsName name := by
  obtain ⟨hne, -⟩ := suffix_isTextOver suffix (assetGlob_mem_iff.mp h.builtIn)
  rw [h.components]
  intro name hname
  rcases List.mem_append.mp hname with hname | hname
  · exact (h.isName name hname).1
  · -- no name of three characters is empty, one dot or two
    have hthree : 3 ≤ name.length := by
      have hstem := List.length_pos_iff.mpr h.isStem.1
      have hlength := List.length_pos_iff.mpr hne
      rw [List.mem_singleton.mp hname, List.length_append, List.length_cons]
      omega
    refine ⟨?_, ?_, ?_⟩ <;> rintro rfl <;> exact absurd hthree (by decide)

/-- A star covers no dot at the start of a name, and in front of the suffix everything else. -/
theorem coversName_asset {text : List Char} (htext : ∀ c ∈ text, c ≠ '*' ∧ c ≠ '?')
    (hstem : stem ≠ []) :
    coversName (('*' :: text).map pieceOf) (stem ++ text) = !isHidden stem := by
  have hcovers : matchPieces (('*' :: text).map pieceOf) (stem ++ text) = true :=
    matchPieces_iff_coversText.mpr (.star stem (coversText_self htext))
  rw [coversName, hcovers, isHidden_append hstem]
  show (!(true && isHidden stem) && true) = !isHidden stem
  rw [Bool.true_and, Bool.and_true]

/-- The dot in front of a suffix keeps the glob from a line break. -/
theorem coversName_asset_break (other : String) :
    coversName (('*' :: '.' :: other.toList).map pieceOf) ['\n'] = false := rfl

/-- The segments of the glob for assets. -/
theorem mergeAnyNames_assetTexts (other : String) :
    mergeAnyNames ((assetTexts other).map segmentFor)
      = [.anyNames, .name (('*' :: '.' :: other.toList).map pieceOf)] := by
  have hlast : segmentFor ('*' :: '.' :: other.toList)
      = .name (('*' :: '.' :: other.toList).map pieceOf) :=
    segmentFor_eq_name (by simp)
  rw [assetTexts, List.map_cons, List.map_singleton, hlast,
    show segmentFor ['*', '*'] = .anyNames from rfl, mergeAnyNames_anyNames_name]
  rfl

theorem coversPath_assetGlob {other : String} (hother : other ∈ assetSuffixes) {path : List Char}
    (hpath : ∀ name ∈ Path.components path, Path.IsName name) :
    coversPath path (assetGlob other).toList
      = align (Route.ofChars path).closed
          [.anyNames, .name (('*' :: '.' :: other.toList).map pieceOf)] (Path.components path) := by
  rw [← ofComponents_assetTexts, (bareTexts_assetTexts hother).coversPath_eq_align hpath,
    mergeAnyNames_assetTexts]

/-- Where the glob for assets covers a path, no name of the path is hidden. -/
theorem not_isHidden_of_coversPath {other : String} (hother : other ∈ assetSuffixes)
    {path : List Char} (hpath : ∀ name ∈ Path.components path, Path.IsName name)
    (h : coversPath path (assetGlob other).toList = true) :
    ∀ name ∈ Path.components path, isHidden name = false := by
  rw [coversPath_assetGlob hother hpath] at h
  obtain hnil | ⟨front, last, hnames⟩ := List.eq_nil_or_concat (Path.components path)
  · exact absurd hnil (List.splitOn_ne_nil '/' path)
  rw [hnames, List.concat_eq_append] at h ⊢
  obtain ⟨hfront, hlast⟩ := (align_anyNames_name _ (coversName_asset_break other) ..).mp h
  rw [coversName, Bool.and_eq_true, Bool.not_eq_true'] at hlast
  rw [List.forall_mem_append, List.forall_mem_singleton]
  exact ⟨hfront, hlast.1⟩

/-- A lock file is one name. -/
theorem coversPath_lockFile {lock : String} (hlock : lock ∈ lockFiles) {path : List Char}
    (hpath : ∀ name ∈ Path.components path, Path.IsName name)
    (hlong : 1 < (Path.components path).length) : coversPath path lock.toList = false := by
  have hone : lock.toList ≠ ['*', '*'] := by
    have hnames : ∀ name ∈ lockFiles, name.toList ≠ ['*', '*'] := by decide
    exact hnames lock hlock
  have hbare : BareTexts [lock.toList] := by
    have htexts : ∀ name ∈ lockFiles,
        IsTextOver (fun c => c ≠ '/' ∧ c ≠ '[' ∧ c ≠ '\\') name.toList := by
      decide
    refine ⟨List.cons_ne_nil _ _, List.forall_mem_singleton.mpr (htexts lock hlock), ?_⟩
    simpa using hone
  have hform := hbare.coversPath_eq_align hpath
  rw [Path.ofComponents, List.intercalate_singleton, List.map_singleton, segmentFor_eq_name hone,
    mergeAnyNames_name] at hform
  obtain ⟨first, rest, hnames⟩ := List.exists_cons_of_length_pos (Nat.zero_lt_of_lt hlong)
  rw [hnames] at hform hlong
  obtain ⟨second, more, rfl⟩ := List.exists_cons_of_length_pos (Nat.lt_of_succ_lt_succ hlong)
  rw [hform]
  simp [mergeAnyNames, align]

/-- **The built-in globs cover an asset exactly if no name of its path is hidden.** -/
theorem IsAsset.any_defaultIgnore_iff (h : IsAsset names stem suffix) :
    (defaultIgnore.any fun g => coversPath (assetPath names stem suffix) g.toList) = true ↔
      AllVisible names stem := by
  have hlong : 1 < (Path.components (assetPath names stem suffix)).length := by
    have hbelow := List.length_pos_iff.mpr h.below
    rw [h.components, List.length_append, List.length_singleton]
    omega
  have hstart : isHidden (stem ++ '.' :: suffix.toList) = isHidden stem :=
    isHidden_append h.isStem.1 _
  rw [List.any_eq_true, AllVisible, List.forall_mem_append, List.forall_mem_singleton]
  constructor
  · rintro ⟨g, hg, hcovers⟩
    rw [defaultIgnore_eq, List.mem_append, List.mem_map] at hg
    rcases hg with hlock | ⟨other, hother, rfl⟩
    · rw [coversPath_lockFile hlock h.isName_components hlong] at hcovers
      exact nomatch hcovers
    · have hvisible := not_isHidden_of_coversPath hother h.isName_components hcovers
      rwa [h.components, List.forall_mem_append, List.forall_mem_singleton, hstart] at hvisible
  · rintro ⟨hnames, hvisible⟩
    have hsuffix := assetGlob_mem_iff.mp h.builtIn
    refine ⟨assetGlob suffix, h.builtIn, ?_⟩
    rw [coversPath_assetGlob hsuffix h.isName_components, h.components]
    refine (align_anyNames_name _ (coversName_asset_break suffix) ..).mpr ⟨hnames, ?_⟩
    have hplain : ∀ c ∈ '.' :: suffix.toList, c ≠ '*' ∧ c ≠ '?' := by
      refine List.forall_mem_cons.mpr ⟨by decide, fun c hc => ?_⟩
      have hchar := (suffix_isTextOver suffix hsuffix).2 c hc
      exact ⟨hchar.ne (by decide), hchar.ne (by decide)⟩
    rw [coversName_asset hplain h.isStem.1, hvisible]
    rfl

/-! ## Built-in globs and given ones -/

theorem coveredByAny_append {path : String} {globs : List String}
    (hglobs : ∀ g ∈ globs, expand g.toList = some [g.toList]) (more : List Document) :
    coveredByAny (.text path) (globs.map .text ++ more)
      = if globs.any fun g => coversPath path.toList g.toList then .ok true
        else coveredByAny (.text path) more := by
  induction globs with
  | nil => rfl
  | cons g rest ih =>
      obtain ⟨hg, hrest⟩ := List.forall_mem_cons.mp hglobs
      have hmatch : matchesDocument (.text path) (.text g)
          = .ok (coversPath path.toList g.toList) := by
        simp [matchesDocument, matchesGlob, hg]
      rw [List.map_cons, List.cons_append, coveredByAny, hmatch, ok_bind, ih hrest, List.any_cons]
      cases coversPath path.toList g.toList <;> rfl

/-- The built-in globs come first, and none of them fails. -/
theorem isIgnored_eq (path : String) (globs : List Document) :
    isIgnored (.text path) globs
      = if defaultIgnore.any fun g => coversPath path.toList g.toList then .ok true
        else coveredByAny (.text path) globs :=
  coveredByAny_append (by decide +kernel) globs

end

/-! ## Files that are left out -/

/-- A record whose file is ignored gives no file. -/
theorem ofRecord_ignored {ignore : List Document} {path : String}
    (h : isIgnored (.text path) ignore = .ok true) {entries : List (Document × Document)}
    (hname : Document.lookup "filename" entries = some (.text path)) :
    ChangedFile.ofRecord ignore (.map entries) = .ok none := by
  simp only [ChangedFile.ofRecord, Document.field, hname, Option.getD_some, ok_bind, h]
  split <;> rfl

theorem parseFiles_append (ignore xs ys : List Document) :
    parseFiles ignore (xs ++ ys)
      = (do return (← parseFiles ignore xs) ++ (← parseFiles ignore ys)) := by
  unfold parseFiles
  rw [List.mapM_append]
  cases xs.mapM (ChangedFile.ofRecord ignore) with
  | error fault => rfl
  | ok read =>
      cases ys.mapM (ChangedFile.ofRecord ignore) with
      | error fault => rfl
      | ok more => exact congrArg Except.ok (List.filterMap_append ..)

/-- Without the record of a file that is ignored the files are the same. -/
theorem parseFiles_ignored {ignore : List Document} {path : String}
    (h : isIgnored (.text path) ignore = .ok true) {entries : List (Document × Document)}
    (hname : Document.lookup "filename" entries = some (.text path))
    (before after : List Document) :
    parseFiles ignore (before ++ .map entries :: after) = parseFiles ignore (before ++ after) := by
  have hnone : parseFiles ignore [.map entries] = .ok [] := by
    rw [parseFiles, List.mapM_cons, ofRecord_ignored h hname]
    rfl
  have hbehind : parseFiles ignore (.map entries :: after) = parseFiles ignore after := by
    rw [← List.singleton_append, parseFiles_append, hnone, ok_bind]
    cases parseFiles ignore after <;> rfl
  rw [parseFiles_append, hbehind, ← parseFiles_append]

/-- No file that is ignored is kept. -/
theorem path_ne_of_isIgnored {ignore : List Document} {path : String}
    (h : isIgnored (.text path) ignore = .ok true) {records : List Document}
    {files : List ChangedFile} (hfiles : parseFiles ignore records = .ok files) {f : ChangedFile}
    (hf : f ∈ files) : f.path ≠ path := by
  rintro rfl
  obtain ⟨_, -, hof⟩ := exists_isOf_of_mem hfiles hf
  rw [hof.kept] at h
  exact nomatch h

/-! ## Assets -/

/-- **Assets are left out at any depth, unless their path has a hidden name.** For the path of an
asset in any directory, whatever globs are given:
* where neither a directory nor the stem starts with a dot, the file is ignored, a change with a
  record of it has the same files as without the record, and no change keeps it;
* where one does, no built-in glob covers the path, and the given globs decide. -/
theorem visible_assets_ignored {names : List (List Char)} {stem : List Char} {suffix path : String}
    (h : IsAsset names stem suffix) (hpath : path.toList = assetPath names stem suffix)
    (globs : List Document) :
    (AllVisible names stem →
      isIgnored (.text path) globs = .ok true ∧
      (∀ entries, Document.lookup "filename" entries = some (.text path) → ∀ before after,
        parseFiles globs (before ++ .map entries :: after) = parseFiles globs (before ++ after)) ∧
      ∀ records files, parseFiles globs records = .ok files → ∀ f ∈ files, f.path ≠ path) ∧
    (¬ AllVisible names stem →
      isIgnored (.text path) globs = coveredByAny (.text path) globs) := by
  have hbuiltIn := h.any_defaultIgnore_iff
  rw [← hpath] at hbuiltIn
  refine ⟨fun hvisible => ?_, fun hhidden => ?_⟩
  · have hignored : isIgnored (.text path) globs = .ok true := by
      rw [isIgnored_eq, if_pos (hbuiltIn.mpr hvisible)]
    exact ⟨hignored, fun _ hname => parseFiles_ignored hignored hname,
      fun _ _ hfiles _ => path_ne_of_isIgnored hignored hfiles⟩
  · rw [isIgnored_eq, if_neg fun hcovers => hhidden (hbuiltIn.mp hcovers)]

/-- The record of a file with one changed line. -/
def changedRecord (path : String) : List (Document × Document) :=
  [(.text "filename", .text path), (.text "status", .text "modified"),
    (.text "patch", .text "@@ -1 +1 @@\n-a\n+b")]

/-- A bundle two directories down is left out, and the script beside it is kept. -/
theorem visible_assets_ignored_sample :
    ∃ files, parseFiles [] [.map (changedRecord "web/static/app.min.js"),
        .map (changedRecord "web/static/app.js")] = .ok files ∧
      files.map (·.path) = ["web/static/app.js"] := by
  obtain ⟨-, hdropped, -⟩ := (@visible_assets_ignored ["web".toList, "static".toList] "app".toList
    "min.js" "web/static/app.min.js" ⟨by decide, by decide, by decide, by decide⟩ (by decide)
    []).1 (by decide)
  have hsame := hdropped (changedRecord "web/static/app.min.js") rfl []
    [.map (changedRecord "web/static/app.js")]
  rw [List.nil_append, List.nil_append] at hsame
  rw [hsame]
  exact exists_eq_ok_of_map (by decide +kernel)

/-- An image in a hidden directory, and one with a hidden name, are not ignored and are kept. -/
theorem hidden_asset_kept :
    (IsAsset [".github".toList] "logo".toList "png" ∧
      ".github/logo.png".toList = assetPath [".github".toList] "logo".toList "png" ∧
      isIgnored (.text ".github/logo.png") [] = .ok false) ∧
    (IsAsset ["img".toList] ".logo".toList "png" ∧
      "img/.logo.png".toList = assetPath ["img".toList] ".logo".toList "png" ∧
      isIgnored (.text "img/.logo.png") [] = .ok false) ∧
    ∃ files, parseFiles [] [.map (changedRecord ".github/logo.png"),
        .map (changedRecord "img/.logo.png")] = .ok files ∧
      files.map (·.path) = [".github/logo.png", "img/.logo.png"] := by
  refine ⟨⟨⟨by decide, by decide, by decide, by decide⟩, by decide,
      eq_ok_of_toOption (by decide +kernel)⟩,
    ⟨⟨by decide, by decide, by decide, by decide⟩, by decide,
      eq_ok_of_toOption (by decide +kernel)⟩, ?_⟩
  exact exists_eq_ok_of_map (by decide +kernel)

end Diff

end ReviewGate
