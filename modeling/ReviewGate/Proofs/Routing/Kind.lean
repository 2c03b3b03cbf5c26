import ReviewGate.Proofs.Text.Case
import ReviewGate.Proofs.Text.Search
import ReviewGate.Routing.Kind

/-!
# `ReviewGate.Proofs.Routing.Kind` — kinds of files and where the repository starts

A path is of the first kind of which it has a mark. A mark is the end of the file name, or a
directory of a certain name. What stands above has no part in either: a path below one more
directory has the marks that it had. But a directory is told by the slashes on both sides of its
name, and at the top of a repository there is none in front. So a path has one mark more below
another directory if its own top directory has one of the names (`Mark.leads`), and is then of
another kind unless that one comes later in the order of precedence.

## Contents
- `Mark`, `Mark.isOn`, `FileKind.marks`: the marks of kinds.
- `isTestPath_eq`, `find?_fits`: a path is classified by its marks.
- `Mark.isOn_below`: the marks of a path below a directory.
- `find?_or_eq`: the first of two kinds.
- `kind_below_directory`: the kind of a path below a directory; `kind_below_directory_sample`.
- `top_directory_misread`: handlers and tests at the top of a repository.
-/

namespace ReviewGate

open Text

/-! ## Marks -/

/-- What makes a path one of a kind. -/
inductive Mark
  /-- A directory of the name, below one whose name has the given end. -/
  | directory (above name : String)
  /-- The end of the file name. -/
  | ending (finish : String)
  /-- The name of a script with tests. -/
  | script
deriving DecidableEq, Repr

namespace Mark

/-- Is the mark on the path, which is in lower case? -/
def isOn (low : String) : Mark → Bool
  | .directory above name => contains low (above ++ "/" ++ (name ++ "/"))
  | .ending finish => endsWith low finish
  | .script => startsWith (baseName low) "test_" && endsWith (baseName low) ".py"

/-- The name of the directory that is the mark. -/
def directory? : Mark → Option String
  | .directory _ name => some name
  | _ => none

/-- Below the directory `d`, a path has the mark by the name of its top directory. -/
def leads (d top : String) : Mark → Bool
  | .directory above name => endsWith (toLower d) above && name == toLower top
  | _ => false

/-- The texts of the mark have no slashes. -/
def Plain : Mark → Prop
  | .directory above name => '/' ∉ above.toList ∧ '/' ∉ name.toList
  | .ending finish => '/' ∉ finish.toList
  | .script => True

instance (m : Mark) : Decidable m.Plain := by
  cases m
  · exact inferInstanceAs (Decidable (_ ∧ _))
  · exact inferInstanceAs (Decidable (_ ∉ _))
  · exact inferInstanceAs (Decidable True)

end Mark

namespace FileKind

/-- The marks of a kind. -/
def marks : FileKind → List Mark
  | .generated =>
      [.directory "" "generated", .directory "" "gen", .directory "biz" "model", .ending "_gen.go"]
  | .handler => [.directory "" "handler", .directory "" "handlers", .directory "" "api"]
  | .service => [.directory "" "service", .directory "" "services"]
  | .dal => [.directory "" "dal", .directory "" "repository", .directory "" "repos"]
  | .model => [.directory "" "model", .directory "" "models"]
  | .config =>
      [.directory "" "config", .ending "config.ts", .ending "config.go", .ending "config.py"]
  | .test =>
      [.directory "" "test", .directory "" "tests", .ending ".test.ts", .ending "_test.go",
        .ending "_test.py", .script]
  | .other => []

/-- The names of directories that make a file one of a kind. -/
def directoryNames : List String := all.flatMap fun k => k.marks.filterMap Mark.directory?

/-- Does the path have a mark of the kind? Every path can be one of no kind. -/
def fits (path : String) (k : FileKind) : Bool :=
  k.marks.any (Mark.isOn (toLower path)) || k == .other

/-- Below the directory `d`, a path has a mark of the kind by the name of its top directory. -/
def leads (d top : String) (k : FileKind) : Bool := k.marks.any (Mark.leads d top)

theorem plain_of_mem_marks (k : FileKind) : ∀ m ∈ k.marks, m.Plain := by
  cases k <;> decide

end FileKind

theorem isTestPath_eq (path : String) :
    isTestPath path = FileKind.test.marks.any (Mark.isOn (toLower path)) := by
  simp [isTestPath, FileKind.marks, Mark.isOn, Bool.or_assoc]

theorem classifyPath_eq (path : String) : classifyPath path =
    if FileKind.generated.fits path then .generated
    else if FileKind.handler.fits path then .handler
    else if FileKind.service.fits path then .service
    else if FileKind.dal.fits path then .dal
    else if FileKind.model.fits path then .model
    else if FileKind.config.fits path then .config
    else if FileKind.test.fits path then .test
    else .other := by
  have hnone (k : FileKind) (h : k ≠ .other) :
      k.fits path = k.marks.any (Mark.isOn (toLower path)) := by
    rw [FileKind.fits, beq_eq_false_iff_ne.mpr h, Bool.or_false]
  simp only [hnone, ne_eq, reduceCtorEq, not_false_eq_true, classifyPath, isTestPath_eq]
  simp [FileKind.marks, Mark.isOn, Bool.or_assoc]

/-- **A path is of the first kind of which it has a mark.** -/
theorem find?_fits (path : String) :
    FileKind.all.find? (FileKind.fits path) = some (classifyPath path) := by
  have hother : FileKind.other.fits path = true := rfl
  have hask (k : FileKind) (rest : List FileKind) : (k :: rest).find? (FileKind.fits path) =
      if k.fits path then some k else rest.find? (FileKind.fits path) := by
    rw [List.find?_cons]
    cases k.fits path <;> rfl
  -- both sides ask the same questions in the same order
  rw [classifyPath_eq, FileKind.all]
  simp only [hask, hother, if_true, apply_ite some]

/-! ## Below a directory -/

section

variable {d top : String} (hd : '/' ∉ d.toList) (htop : '/' ∉ top.toList) (rest : String)

/-- The last name of a path stays what it is below a directory. -/
theorem baseName_below (d path : String) : baseName (d ++ "/" ++ path) = baseName path := by
  unfold baseName
  rw [toList_append_slash, afterLast_append_cons]

include hd htop

/-- **A mark of a path below a directory** was on the path before, or is there by its top
directory. -/
theorem Mark.isOn_below {m : Mark} (hm : m.Plain) :
    m.isOn (toLower (d ++ "/" ++ (top ++ "/" ++ rest))) =
      (m.isOn (toLower (top ++ "/" ++ rest)) || m.leads d top) := by
  have hlow : '/' ∉ (toLower d).toList := toList_toLower d ▸ slash_not_mem_lower hd
  have htopLow : '/' ∉ (toLower top).toList := toList_toLower top ▸ slash_not_mem_lower htop
  rw [toLower_append_slash, Bool.eq_iff_iff, Bool.or_eq_true]
  cases m with
  | directory above name =>
      obtain ⟨habove, hname⟩ := hm
      have hplace : (name ++ "/").toList <+: (toLower (top ++ "/" ++ rest)).toList ↔
          name = toLower top := by
        have hend : (name ++ "/").toList = name.toList ++ '/' :: [] := String.toList_append
        rw [toLower_append_slash, toList_append_slash, hend,
          prefix_append_cons_iff _ hname htopLow, and_iff_left List.nil_prefix, String.toList_inj]
      simp only [isOn, leads, contains_iff, Bool.and_eq_true, endsWith_iff, beq_iff_eq, ← hplace]
      rw [toList_append_slash, toList_append_slash, infix_append_cons_iff _ habove hlow, or_comm]
  | ending finish =>
      have hfinish : '/' ∉ finish.toList := hm
      simp only [isOn, leads, endsWith_iff, Bool.false_eq_true, or_false]
      rw [toList_append_slash, suffix_append_cons_iff _ hfinish]
  | script =>
      simp only [isOn, leads, baseName_below, Bool.false_eq_true, or_false]

theorem FileKind.any_isOn_below (k : FileKind) :
    k.marks.any (Mark.isOn (toLower (d ++ "/" ++ (top ++ "/" ++ rest)))) =
      (k.marks.any (Mark.isOn (toLower (top ++ "/" ++ rest))) || k.leads d top) := by
  rw [Bool.eq_iff_iff, Bool.or_eq_true, leads, List.any_eq_true, List.any_eq_true,
    List.any_eq_true, ← exists_or]
  refine exists_congr fun m => ?_
  rw [← and_or_left, ← Bool.or_eq_true]
  refine and_congr_right fun hm => ?_
  rw [Mark.isOn_below hd htop rest (k.plain_of_mem_marks m hm)]

theorem FileKind.fits_below (k : FileKind) :
    k.fits (d ++ "/" ++ (top ++ "/" ++ rest)) =
      (k.leads d top || k.fits (top ++ "/" ++ rest)) := by
  rw [fits, fits, any_isOn_below hd htop, Bool.or_comm (List.any ..), Bool.or_assoc]

end

/-! ## The first kind -/

/-- To look for the first element of either kind, it is enough to know the first of one kind. -/
theorem find?_or_eq {α : Type} [BEq α] [LawfulBEq α] {p : α → Bool} {xs : List α} {a : α}
    (h : xs.find? p = some a) (q : α → Bool) :
    xs.find? (fun x => q x || p x) = xs.find? fun x => q x || x == a := by
  induction xs with
  | nil => rfl
  | cons x xs ih =>
      by_cases hx : p x = true
      · have hxa : x = a := by
          rw [List.find?_cons_of_pos hx] at h
          exact Option.some.inj h
        rw [List.find?_cons_of_pos (by rw [hx, Bool.or_true]),
          List.find?_cons_of_pos (by rw [hxa, beq_self_eq_true, Bool.or_true])]
      · rw [List.find?_cons_of_neg hx] at h
        have hxa : (x == a) = false :=
          beq_eq_false_iff_ne.mpr fun heq => hx (heq ▸ List.find?_some h)
        rw [List.find?_cons, List.find?_cons, hxa, Bool.eq_false_iff.mpr hx, ih h]

/-- A directory that is a mark of a kind has one of the names. -/
theorem not_leads_of_not_mem {top : String} (htop : toLower top ∉ FileKind.directoryNames)
    (d : String) (k : FileKind) : k.leads d top = false := by
  rw [FileKind.leads, List.any_eq_false]
  intro m hm hleads
  cases m with
  | directory above name =>
      simp only [Mark.leads, Bool.and_eq_true, beq_iff_eq] at hleads
      obtain ⟨-, rfl⟩ := hleads
      have hk : k ∈ FileKind.all := by cases k <;> decide
      exact htop (List.mem_flatMap.mpr ⟨k, hk, List.mem_filterMap.mpr ⟨_, hm, rfl⟩⟩)
  | ending finish => cases hleads
  | script => cases hleads

/-- **The kind of a path below one more directory**, whatever the directory is called. It is the
first kind that the path is of already or that its own top directory leads to, and the same goes for
tests. So a path keeps its kind unless its top directory has one of the names that kinds go by. -/
theorem kind_below_directory {d top : String} (hd : '/' ∉ d.toList) (htop : '/' ∉ top.toList)
    (rest : String) :
    let path := top ++ "/" ++ rest
    let below := d ++ "/" ++ path
    (toLower top ∉ FileKind.directoryNames →
        classifyPath below = classifyPath path ∧ isTestPath below = isTestPath path) ∧
      FileKind.all.find? (fun k => k.leads d top || k == classifyPath path)
        = some (classifyPath below) ∧
      isTestPath below = (isTestPath path || FileKind.test.leads d top) := by
  intro path below
  have hfirst : FileKind.all.find? (fun k => k.leads d top || k == classifyPath path)
      = some (classifyPath below) := by
    have hfits : FileKind.fits below = fun k => k.leads d top || k.fits path :=
      funext fun k => k.fits_below hd htop rest
    rw [← find?_or_eq (find?_fits path), ← hfits, find?_fits]
  have htest : isTestPath below = (isTestPath path || FileKind.test.leads d top) := by
    rw [isTestPath_eq, isTestPath_eq, FileKind.any_isOn_below hd htop]
  refine ⟨fun hname => ?_, hfirst, htest⟩
  have hleads := not_leads_of_not_mem hname d
  have hsame := List.find?_some hfirst
  rw [hleads, Bool.false_or, beq_iff_eq] at hsame
  rw [htest, hleads, Bool.or_false]
  exact ⟨hsame, rfl⟩

/-- A handler with tests, below a directory that is called as no kind is. -/
theorem kind_below_directory_sample :
    toLower "src" ∉ FileKind.directoryNames ∧
      classifyPath ("app" ++ "/" ++ ("src" ++ "/" ++ "Handlers/user_test.go"))
        = classifyPath ("src" ++ "/" ++ "Handlers/user_test.go") ∧
      isTestPath ("app" ++ "/" ++ ("src" ++ "/" ++ "Handlers/user_test.go"))
        = isTestPath ("src" ++ "/" ++ "Handlers/user_test.go") := by
  have hname : toLower "src" ∉ FileKind.directoryNames := by decide +kernel
  exact ⟨hname, (kind_below_directory (by decide) (by decide) "Handlers/user_test.go").1 hname⟩

/-- Handlers and tests in a directory at the top are taken for files of no kind, and below another
directory they are found. -/
theorem top_directory_misread :
    toLower "app" ∉ FileKind.directoryNames ∧
      classifyPath "handlers/user.go" = .other ∧
      classifyPath "app/handlers/user.go" = .handler ∧
      isTestPath "tests/helpers.ts" = false ∧ isTestPath "app/tests/helpers.ts" = true := by
  decide +kernel

end ReviewGate
