import ReviewGate.Proofs.Context.Gather

/-!
# `ReviewGate.Proofs.Context.Budget` — a budget is kept to the token

The texts that are gathered use up exactly what they cost, and no more than there was, also where
the budget is negative. No path is there twice: the paths of the change are distinct, and a
candidate that is there already ends the search for its import.

A file that did not fit stays out. What is left of the budget only shrinks, and the text of a path
is always the same, so the text that was too long for what was left then is too long for all that
is left later, also where an import leads back to it.

## Contents
- `gatherChanged`, `gather_eq`: the first of the two rounds.
- `Gathered.Barred`: what keeps a path out, and that no step ends it.
- `takeChanged_of_text`, `exists_sublist_takeChanged`: the changed files, in their order.
- `Gathered.Distinct`, `Gathered.Named`: what following imports keeps.
- `Overruns`, `KeepsBudget`, `gather_keeps_budget`: the budget.
-/

namespace ReviewGate.Context

open Diff

/-- The texts of the changed files alone. -/
def gatherChanged (fetch : Fetch) (budget : Int) (files : List ChangedFile) : Gathered :=
  files.foldl (Gathered.takeChanged fetch) ⟨[], [], budget, []⟩

theorem gather_eq (fetch : Fetch) (budget : Int) (files : List ChangedFile) :
    gather fetch budget files = (gatherChanged fetch budget files).changed.foldl
      (Gathered.takeImports fetch) (gatherChanged fetch budget files) := rfl

namespace Gathered

variable {fetch : Fetch} {budget : Int} {g : Gathered}

/-- The paths of the texts. -/
def paths (g : Gathered) : List String := g.all.map (·.path)

theorem has_eq_false_iff {path : String} : g.has path = false ↔ path ∉ g.paths := by
  unfold has paths
  rw [List.any_eq_false, List.mem_map, not_exists]
  exact forall_congr' fun t => by simp

/-- What the texts use of the budget is what they cost. -/
theorem Funded.spent_eq (h : Funded fetch budget g) : g.spent budget = g.cost := by
  have hbalance := h.balance
  unfold spent
  omega

/-- No more is used than there is, and nothing of a budget below zero. -/
theorem Funded.spent_le (h : Funded fetch budget g) : g.spent budget ≤ max budget 0 := by
  have hbalance := h.balance
  rcases h.solvent with hnone | hsolvent
  · have hcost : g.cost = 0 := by
      rw [cost, hnone]
      rfl
    unfold spent
    omega
  · unfold spent
    omega

/-! ## What did not fit stays out -/

/-- The path is not there, and its text does not fit into what is left. -/
structure Barred (fetch : Fetch) (path : String) (g : Gathered) : Prop where
  absent : path ∉ g.paths
  short : ∀ text, fetch path = some text → g.remaining < estimateTokens text

/-- A text that fits is of another path, and leaves less for the path that is kept out. -/
theorem Barred.add {path : String} (h : Barred fetch path g) {g' : Gathered} {t : FileText}
    (hall : ∀ u ∈ g'.all, u = t ∨ u ∈ g.all)
    (hremaining : g'.remaining = g.remaining - estimateTokens t.text)
    (htext : fetch t.path = some t.text) (hfits : (estimateTokens t.text : Int) ≤ g.remaining) :
    Barred fetch path g' := by
  have hother : t.path ≠ path := by
    rintro rfl
    exact absurd hfits (Int.not_le.mpr (h.short t.text htext))
  refine ⟨fun hpath => ?_, fun text hpath => ?_⟩
  · obtain ⟨u, hu, rfl⟩ := List.mem_map.mp hpath
    rcases hall u hu with rfl | hold
    · exact hother rfl
    · exact h.absent (List.mem_map_of_mem hold)
  · have hshort := h.short text hpath
    omega

theorem Barred.takeChanged {path : String} (h : Barred fetch path g) (f : ChangedFile) :
    Barred fetch path (g.takeChanged fetch f) := by
  obtain ⟨asked, hstep⟩ | ⟨text, asked, -, htext, hfits, hstep⟩ := takeChanged_cases fetch g f
  · rw [hstep]
    exact ⟨h.absent, h.short⟩
  · rw [hstep]
    refine h.add (t := textOf f.path text) (fun u hu => ?_) rfl htext hfits
    simp only [all, List.mem_append, List.mem_singleton] at hu ⊢
    tauto

theorem Barred.takeImport {path : String} (h : Barred fetch path g) (names : List String) :
    Barred fetch path (g.takeImport fetch names) := by
  obtain ⟨asked, hstep⟩ | ⟨found, text, asked, -, -, htext, hfits, hstep⟩ :=
    takeImport_cases fetch g names
  · rw [hstep]
    exact ⟨h.absent, h.short⟩
  · rw [hstep]
    refine h.add (t := textOf found text) (fun u hu => ?_) rfl htext hfits
    simp only [all, List.mem_append, List.mem_singleton] at hu ⊢
    tauto

theorem Barred.takeImports {path : String} (h : Barred fetch path g) (f : FileText) :
    Barred fetch path (g.takeImports fetch f) :=
  List.foldlRecOn _ _ h fun _ hg _ _ => hg.takeImport _

/-! ## The changed files -/

/-- A file that is there and not empty is taken exactly if it fits. -/
theorem takeChanged_of_text {f : ChangedFile} (hstatus : f.status ≠ .removed) {text : String}
    (htext : fetch f.path = some text) (hne : text ≠ "") :
    g.takeChanged fetch f =
      if g.remaining < estimateTokens text then g.ask f.path
      else ⟨g.changed ++ [textOf f.path text], g.imported, g.remaining - estimateTokens text,
        g.asked ++ [f.path]⟩ := by
  have hkept : (f.status == FileStatus.removed) = false := beq_false_of_ne hstatus
  have hsome : (text == "") = false := beq_false_of_ne hne
  simp only [takeChanged, hkept, htext, hsome, Bool.false_or, decide_eq_true_eq,
    Bool.false_eq_true, if_false]
  rfl

/-- The paths of the files that have not been removed. -/
def presentPaths (files : List ChangedFile) : List String :=
  (files.filter (·.status != .removed)).map (·.path)

/-- Changed files are taken in the order of the change, none of them removed, and the texts in front
of them stay. -/
theorem exists_sublist_takeChanged (fetch : Fetch) (files : List ChangedFile) (g : Gathered) :
    ∃ taken, (files.foldl (takeChanged fetch) g).changed.map (·.path)
        = g.changed.map (·.path) ++ taken ∧ taken.Sublist (presentPaths files) := by
  induction files generalizing g with
  | nil => exact ⟨[], (List.append_nil _).symm, List.Sublist.slnil⟩
  | cons f rest ih =>
      obtain ⟨taken, htaken, hsub⟩ := ih (g.takeChanged fetch f)
      have hrest : taken.Sublist (presentPaths (f :: rest)) :=
        hsub.trans (((List.sublist_cons_self f rest).filter _).map _)
      rw [List.foldl_cons, htaken]
      obtain ⟨asked, hstep⟩ | ⟨text, asked, hstatus, -, -, hstep⟩ := takeChanged_cases fetch g f
      · exact ⟨taken, by rw [hstep], hrest⟩
      · refine ⟨f.path :: taken, by rw [hstep, List.map_append, List.append_assoc]; rfl, ?_⟩
        have hpresent : presentPaths (f :: rest) = f.path :: presentPaths rest := by
          rw [presentPaths, List.filter_cons_of_pos (by simpa using hstatus), List.map_cons]
          rfl
        rw [hpresent]
        exact hsub.cons_cons f.path

theorem imported_takeChanged (g : Gathered) (f : ChangedFile) :
    (g.takeChanged fetch f).imported = g.imported := by
  obtain ⟨asked, hstep⟩ | ⟨text, asked, -, -, -, hstep⟩ := takeChanged_cases fetch g f <;> rw [hstep]

/-! ## The imports -/

/-- No path is there twice. -/
def Distinct (g : Gathered) : Prop := g.paths.Nodup

/-- A candidate that is there already is not taken again. -/
theorem Distinct.takeImport (h : g.Distinct) (names : List String) :
    (g.takeImport fetch names).Distinct := by
  obtain ⟨asked, hstep⟩ | ⟨path, text, asked, -, hnew, -, -, hstep⟩ := takeImport_cases fetch g names
  · rw [hstep]
    exact h
  · rw [hstep]
    have hpaths : (g.changed ++ (g.imported ++ [textOf path text])).map (·.path)
        = g.paths ++ [path] := by
      rw [← List.append_assoc, List.map_append]
      rfl
    unfold Distinct paths all
    rw [hpaths]
    exact List.nodup_append.mpr ⟨h, List.pairwise_singleton _ _, fun p hp q hq => by
      rw [List.mem_singleton.mp hq]
      rintro rfl
      exact has_eq_false_iff.mp hnew hp⟩

/-- The imported texts are of paths that an import of one of the files may mean. -/
def Named (files : List FileText) (g : Gathered) : Prop :=
  ∀ t ∈ g.imported, ∃ f ∈ files, ∃ name ∈ importsOf f.language f.text,
    t.path ∈ candidates f.language name f.path

theorem Named.takeImport {files : List FileText} (h : g.Named files) {f : FileText} (hf : f ∈ files)
    {name : String} (hname : name ∈ importsOf f.language f.text) :
    (g.takeImport fetch (candidates f.language name f.path)).Named files := by
  obtain ⟨asked, hstep⟩ | ⟨path, text, asked, hpath, -, -, -, hstep⟩ :=
    takeImport_cases fetch g (candidates f.language name f.path)
  · rw [hstep]
    exact h
  · rw [hstep]
    intro t ht
    rcases List.mem_append.mp ht with hold | hnew
    · exact h t hold
    · rw [List.mem_singleton.mp hnew]
      exact ⟨f, hf, name, hname, hpath⟩

end Gathered

/-! ## The budget -/

section

variable {fetch : Fetch} {budget : Int} {files : List ChangedFile}

/-- What following imports keeps holds of all that is gathered if it holds of the changed texts. -/
theorem gather_rec {motive : Gathered → Prop} (hchanged : motive (gatherChanged fetch budget files))
    (hstep : ∀ g, motive g → ∀ f ∈ (gatherChanged fetch budget files).changed,
      ∀ name ∈ importsOf f.language f.text,
        motive (g.takeImport fetch (candidates f.language name f.path))) :
    motive (gather fetch budget files) := by
  rw [gather_eq]
  refine List.foldlRecOn _ _ hchanged fun g hg f hf => ?_
  exact List.foldlRecOn _ _ hg fun k hk name hname => hstep k hk f hf name hname

theorem changed_gather :
    (gather fetch budget files).changed = (gatherChanged fetch budget files).changed :=
  gather_rec (motive := fun g => g.changed = (gatherChanged fetch budget files).changed) rfl
    fun g hg _ _ _ _ => (g.changed_takeImport _).trans hg

theorem sublist_gatherChanged :
    ((gatherChanged fetch budget files).changed.map (·.path)).Sublist
      (Gathered.presentPaths files) := by
  obtain ⟨taken, htaken, hsub⟩ :=
    Gathered.exists_sublist_takeChanged fetch files ⟨[], [], budget, []⟩
  rw [gatherChanged, htaken]
  exact hsub

theorem imported_gatherChanged : (gatherChanged fetch budget files).imported = [] :=
  List.foldlRecOn (motive := fun g : Gathered => g.imported = []) files _ rfl
    fun g hg f _ => (g.imported_takeChanged f).trans hg

theorem paths_gatherChanged :
    (gatherChanged fetch budget files).paths
      = (gatherChanged fetch budget files).changed.map (·.path) := by
  rw [Gathered.paths, Gathered.all, imported_gatherChanged, List.append_nil]

/-- A path that is not in the change is not among its texts. -/
theorem not_mem_paths_gatherChanged {path : String} (h : path ∉ files.map (·.path)) :
    path ∉ (gatherChanged fetch budget files).paths := by
  rw [paths_gatherChanged]
  intro hpath
  exact h ((List.filter_sublist.map _).subset (sublist_gatherChanged.subset hpath))

/-- A changed file has a text, and the files in front of it leave too little of the budget. -/
def Overruns (fetch : Fetch) (budget : Int) (files : List ChangedFile) (f : ChangedFile) : Prop :=
  ∃ before after text, files = before ++ f :: after ∧ f.status ≠ .removed ∧
    fetch f.path = some text ∧ text ≠ "" ∧
    (gatherChanged fetch budget before).remaining < estimateTokens text

/-- A changed file that did not fit is kept out for good. -/
theorem Overruns.barred (hdistinct : (files.map (·.path)).Nodup) {f : ChangedFile}
    (h : Overruns fetch budget files f) : (gather fetch budget files).Barred fetch f.path := by
  obtain ⟨before, after, text, rfl, -, htext, -, hshort⟩ := h
  have hfirst : f.path ∉ before.map (·.path) := by
    rw [List.map_append, List.map_cons] at hdistinct
    exact fun hbefore => (List.nodup_append.mp hdistinct).2.2 _ hbefore _ (List.mem_cons_self ..) rfl
  have hbefore : (gatherChanged fetch budget before).Barred fetch f.path :=
    ⟨not_mem_paths_gatherChanged hfirst, fun other hother => by
      rwa [Option.some.inj (hother.symm.trans htext)]⟩
  have hchanged : (gatherChanged fetch budget (before ++ f :: after)).Barred fetch f.path := by
    rw [gatherChanged, List.foldl_append]
    exact List.foldlRecOn _ _ hbefore fun _ hg k _ => hg.takeChanged k
  exact gather_rec hchanged fun _ hg _ _ _ _ => hg.takeImport _

/-- A changed file with a text is taken, or it did not fit. -/
theorem mem_changed_or_overruns {f : ChangedFile} (hf : f ∈ files) (hstatus : f.status ≠ .removed)
    {text : String} (htext : fetch f.path = some text) (hne : text ≠ "") :
    f.path ∈ (gather fetch budget files).changed.map (·.path) ∨ Overruns fetch budget files f := by
  obtain ⟨before, after, rfl⟩ := List.append_of_mem hf
  by_cases hshort : (gatherChanged fetch budget before).remaining < estimateTokens text
  · exact Or.inr ⟨before, after, text, rfl, hstatus, htext, hne, hshort⟩
  · refine Or.inl ?_
    -- the file is taken in its turn, and the files behind it leave it there
    obtain ⟨taken, htaken, -⟩ := Gathered.exists_sublist_takeChanged fetch after
      ((gatherChanged fetch budget before).takeChanged fetch f)
    rw [changed_gather, gatherChanged, List.foldl_append, List.foldl_cons, ← gatherChanged, htaken,
      Gathered.takeChanged_of_text hstatus htext hne, if_neg hshort, List.map_append]
    simp [Gathered.textOf]

/-- What a budget is for: how the texts that were gathered for changed files keep to it. -/
structure KeepsBudget (fetch : Fetch) (budget : Int) (files : List ChangedFile) (g : Gathered) :
    Prop where
  fetched : ∀ t ∈ g.all, fetch t.path = some t.text
  spent_eq : g.spent budget = (g.all.map fun t => (estimateTokens t.text : Int)).sum
  spent_le : g.spent budget ≤ max budget 0
  /-- No path is there twice, among the changed files, among the imports or across both. -/
  once : (g.all.map (·.path)).Nodup
  /-- The changed files come in their order, and none was removed. -/
  ordered : (g.changed.map (·.path)).Sublist ((files.filter (·.status != .removed)).map (·.path))
  named : ∀ t ∈ g.imported, ∃ f ∈ g.changed, ∃ name ∈ importsOf f.language f.text,
    t.path ∈ candidates f.language name f.path
  /-- Only what does not fit is left out. -/
  complete : ∀ f ∈ files, f.status ≠ .removed → ∀ text, fetch f.path = some text → text ≠ "" →
    f.path ∈ g.changed.map (·.path) ∨ Overruns fetch budget files f
  /-- What did not fit is not brought in by an import. -/
  left_out : ∀ f, Overruns fetch budget files f → f.path ∉ g.all.map (·.path)

/-- **Gathering keeps the budget exactly**, whatever the budget is, whatever texts there are and
whatever they import. -/
theorem gather_keeps_budget (hdistinct : (files.map (·.path)).Nodup) :
    KeepsBudget fetch budget files (gather fetch budget files) := by
  have hfunded : (gather fetch budget files).Funded fetch budget := funded_gather
  have hchanged : (gatherChanged fetch budget files).Distinct := by
    unfold Gathered.Distinct
    rw [paths_gatherChanged]
    exact (sublist_gatherChanged.trans (List.filter_sublist.map _)).nodup hdistinct
  have hnamed :
      (gatherChanged fetch budget files).Named (gatherChanged fetch budget files).changed := by
    unfold Gathered.Named
    rw [imported_gatherChanged]
    exact fun _ ht => absurd ht List.not_mem_nil
  refine ⟨hfunded.fetched, hfunded.spent_eq, hfunded.spent_le, ?_, ?_, ?_,
    fun f hf hstatus text htext hne => mem_changed_or_overruns hf hstatus htext hne,
    fun f h => (h.barred hdistinct).absent⟩
  · exact gather_rec (motive := Gathered.Distinct) hchanged fun _ hg _ _ _ _ => hg.takeImport _
  · rw [changed_gather]
    exact sublist_gatherChanged
  · rw [changed_gather]
    exact gather_rec (motive := Gathered.Named (gatherChanged fetch budget files).changed) hnamed
      fun _ hg _ hf _ hname => hg.takeImport hf hname

end

/-- Three files, the first of which imports the second and two that are not of the change. -/
def sampleTree : Fetch := fun path =>
  if path = "m/a.py" then some "from .b import *\nfrom .c import *\nfrom .d import *\n"
  else if path = "m/b.py" then some "'bbbbbbbbbbbbbbbbbb'"
  else if path = "m/c.py" then some "'c'"
  else if path = "m/d.py" then some "'dddddd'"
  else none

/-- The change of the first two files. -/
def sampleChange : List ChangedFile :=
  [⟨"m/a.py", .modified, [], ""⟩, ⟨"m/b.py", .modified, [], ""⟩]

/-- Of 15 tokens the first file takes 13. The second, which it imports, does not fit, and neither
does the last import behind the one that takes another token. -/
theorem gather_keeps_budget_sample :
    (sampleChange.map (·.path)).Nodup ∧
      KeepsBudget sampleTree 15 sampleChange (gather sampleTree 15 sampleChange) ∧
      (gather sampleTree 15 sampleChange).all.map (·.path) = ["m/a.py", "m/c.py"] ∧
      Overruns sampleTree 15 sampleChange ⟨"m/b.py", .modified, [], ""⟩ := by
  have hdistinct : (sampleChange.map (·.path)).Nodup := by decide
  refine ⟨hdistinct, gather_keeps_budget hdistinct, by decide +kernel, ?_⟩
  exact ⟨[_], [], "'bbbbbbbbbbbbbbbbbb'", rfl, nofun, rfl, by decide, by decide +kernel⟩

end ReviewGate.Context
