import ReviewGate.Context.Resolve
import ReviewGate.Proofs.Path

/-!
# `ReviewGate.Proofs.Context.Resolve` — imports stay in the repository

The path that an import names is normalised and loses its root. Three things can be left. Names that
lead down, and then every ending keeps the path an inner one. A path that leads up with its first
name, and then there are no candidates. Or no name at all, where the import names the root of the
repository itself: what is left is a dot or nothing, and an ending is put behind that. Behind
nothing, an ending with a slash makes an absolute path, which leaves the repository.

## Contents
- `LeadsToRoot`: an import that names the root.
- `inner_or_isOutside`, `importBase_of_leadsToRoot`: what is left of the path.
- `IsEnding`, `inner_append_ending`: endings.
- `candidates_below_root`, `root_import_leaves_repository`: the candidates of an import.
-/

namespace ReviewGate.Context

open ReviewGate.Path

/-- The import keeps no name: it names the root that paths are seen from. -/
def LeadsToRoot (language : String) (name fromFile : List Char) : Prop :=
  resolved (importPath language name fromFile) = []

instance (language : String) (name fromFile : List Char) :
    Decidable (LeadsToRoot language name fromFile) :=
  inferInstanceAs (Decidable (_ = []))

variable {language : String} {name fromFile : List Char}

/-! ## What is left of the path -/

/-- Only of the root a dot or nothing is left. -/
theorem importBase_of_leadsToRoot (h : LeadsToRoot language name fromFile) :
    importBase language name fromFile = ['.'] ∨ importBase language name fromFile = [] := by
  have hnone : resolved (importPath language name fromFile) = [] := h
  rw [importBase, dropWhile_normalize, if_pos hnone]
  split
  · exact Or.inl rfl
  · exact Or.inr rfl

/-- **A path with names leads down, or it is known to lead up.** -/
theorem inner_or_isOutside (h : ¬ LeadsToRoot language name fromFile) :
    Inner (importBase language name fromFile) ∨
      isOutside (importBase language name fromFile) = true := by
  have hsome : resolved (importPath language name fromFile) ≠ [] := h
  rw [importBase, dropWhile_normalize, if_neg hsome]
  rcases resolved_cases (importPath language name fromFile) with hdown | hup
  · exact Or.inl (inner_ofComponents h fun n hn => ⟨hdown n hn, (slash_not_mem_resolved hn).1⟩)
  · obtain ⟨rest, hrest⟩ := List.head?_eq_some_iff.mp hup
    rw [hrest]
    cases rest with
    | nil => exact Or.inr rfl
    | cons next rest =>
        refine Or.inr ?_
        simp [isOutside, ofComponents, List.intercalate_cons_cons]

/-! ## Endings -/

/-- An ending is nothing, makes the last name longer, or is one more name that leads down. -/
def IsEnding (ending : List Char) : Prop :=
  ending = [] ∨ ('/' ∉ ending ∧ 2 ≤ ending.length) ∨
    (ending.head? = some '/' ∧ Inner ending.tail)

instance (ending : List Char) : Decidable (IsEnding ending) :=
  inferInstanceAs (Decidable (_ ∨ _))

theorem isEnding_of_mem {ending : String} (h : ending ∈ endings language) :
    IsEnding ending.toList := by
  have hall : ∀ e ∈ endings language, IsEnding e.toList := by
    unfold endings
    split
    · decide
    split <;> decide
  exact hall ending h

theorem inner_append_ending {base ending : List Char} (h : Inner base) (hending : IsEnding ending) :
    Inner (base ++ ending) := by
  rcases hending with rfl | ⟨hone, hlong⟩ | ⟨hslash, hname⟩
  · rwa [List.append_nil]
  · exact h.append hone hlong
  · obtain ⟨rest, rfl⟩ := List.head?_eq_some_iff.mp hslash
    exact h.append_cons hname

/-! ## Candidates -/

theorem mem_candidates {name fromFile c : String} :
    c ∈ candidates language name fromFile ↔
      isOutside (importBase language name.toList fromFile.toList) = false ∧
        ∃ ending ∈ endings language,
          String.ofList (importBase language name.toList fromFile.toList ++ ending.toList) = c := by
  simp only [candidates]
  split
  · next houtside => simp [houtside]
  · next hinside =>
    rw [List.mem_map]
    exact (and_iff_right (Bool.eq_false_iff.mpr hinside)).symm

/-- Behind a dot or nothing, some ending does not make an inner path. -/
theorem exists_ending_not_inner (language : String) {base : List Char}
    (h : base = ['.'] ∨ base = []) :
    ∃ ending ∈ endings language, ¬ Inner (base ++ ending.toList) := by
  unfold endings
  split
  · exact ⟨"/index.ts", by decide, by rcases h with rfl | rfl <;> decide⟩
  split
  · exact ⟨"/__init__.py", by decide, by rcases h with rfl | rfl <;> decide⟩
  · exact ⟨"", by decide, by rcases h with rfl | rfl <;> decide⟩

/-- **Imports stay in the repository, but for those that name its root.** Whatever a text imports
and whatever file it is in, the candidates of an import that does not name the root are inner paths,
and seen from any directory they lead below it. An import that names the root has a candidate that
is no such path. -/
theorem candidates_below_root (language name fromFile : String) :
    (¬ LeadsToRoot language name.toList fromFile.toList →
      ∀ c ∈ candidates language name fromFile, Inner c.toList ∧ ∀ directory,
        rootOf (join directory c.toList) = rootOf directory ∧
        resolved (join directory c.toList) = resolved directory ++ components c.toList) ∧
    (LeadsToRoot language name.toList fromFile.toList →
      ∃ c ∈ candidates language name fromFile, ¬ Inner c.toList) := by
  constructor
  · intro hnames c hc
    obtain ⟨hinside, ending, hending, rfl⟩ := mem_candidates.mp hc
    have hbase := (inner_or_isOutside hnames).resolve_right (Bool.eq_false_iff.mp hinside)
    have hinner := inner_append_ending hbase (isEnding_of_mem hending)
    rw [String.toList_ofList]
    exact ⟨hinner, fun directory => ⟨hinner.rootOf_join directory, hinner.resolved_join directory⟩⟩
  · intro hroot
    have hbase := importBase_of_leadsToRoot hroot
    obtain ⟨ending, hending, hbad⟩ := exists_ending_not_inner language hbase
    have hinside : isOutside (importBase language name.toList fromFile.toList) = false := by
      rcases hbase with hdot | hnil
      · rw [hdot]
        rfl
      · rw [hnil]
        rfl
    refine ⟨_, mem_candidates.mpr ⟨hinside, ending, hending, rfl⟩, ?_⟩
    rwa [String.toList_ofList]

/-- An import that leads up and down again, seen from a directory outside. -/
theorem candidates_below_root_sample :
    ¬ LeadsToRoot "typescript" "../lib/db".toList "src/services/user.ts".toList ∧
      "src/lib/db/index.ts" ∈ candidates "typescript" "../lib/db" "src/services/user.ts" ∧
      resolved (join "../app".toList "src/lib/db/index.ts".toList)
        = ["..".toList, "app".toList, "src".toList, "lib".toList, "db".toList,
          "index.ts".toList] := by
  have hnames : ¬ LeadsToRoot "typescript" "../lib/db".toList "src/services/user.ts".toList := by
    decide +kernel
  have hc : "src/lib/db/index.ts" ∈ candidates "typescript" "../lib/db" "src/services/user.ts" := by
    decide +kernel
  obtain ⟨-, hbelow⟩ :=
    (candidates_below_root "typescript" "../lib/db" "src/services/user.ts").1 hnames _ hc
  exact ⟨hnames, hc, (hbelow "../app".toList).2.trans (by decide +kernel)⟩

/-- The import of `/` has an absolute candidate, which stays absolute seen from any directory. A file
at the root that imports its own package has a candidate that goes through `.`. -/
theorem root_import_leaves_repository :
    "/" ∈ importsOf "typescript" "import x from '/'\n" ∧ Inner "src/a.ts".toList ∧
      "/index.ts" ∈ candidates "typescript" "/" "src/a.ts" ∧ ¬ Inner "/index.ts".toList ∧
      join "repository".toList "/index.ts".toList = "/index.ts".toList ∧
      "." ∈ importsOf "python" "from . import x\n" ∧ Inner "main.py".toList ∧
      "./__init__.py" ∈ candidates "python" "." "main.py" ∧ ¬ Inner "./__init__.py".toList := by
  refine ⟨?_, ?_, ?_, ?_, rfl, ?_, ?_, ?_, ?_⟩ <;> decide +kernel

end ReviewGate.Context
