import ReviewGate.Proofs.Check.Run
import ReviewGate.Proofs.Document.Key
import ReviewGate.Proofs.Finding.Rank
import ReviewGate.Proofs.Loop

/-!
# `ReviewGate.Proofs.Review.Independence` — files are judged independently

A run goes through specialists, and for each of them first through its built-in checks over all
files and then through its hard rules over all files; the findings are merged and ranked together.
Still no file has a say in what is reported for another. Each finding carries the path of the one
file that it was found in, and the test for the paths of some files (`Finding.isIn`) can be moved
down through all stages: it commutes with ranking and merging because it reads only the key, and in
the loops it chooses files.

Only a limit can make files compete, so no specialist may reach its limit.

## Contents
- `Interleaving`: two lists mixed, each in its order.
- `Finding.isIn`: is the finding for one of the files?
- `filter_isIn_report`, `filter_bucket`: the test in the loops.
- `WithinCaps.of_interleaving`: limits that are not reached.
- `files_judged_independently`: a run over some of the files against a run over all.
-/

namespace ReviewGate

open Diff

/-! ## Mixed lists -/

/-- The third list holds the items of the first and those of the second, each in their order. -/
inductive Interleaving {α : Type} : List α → List α → List α → Prop
  | nil : Interleaving [] [] []
  | left {x : α} {xs ys zs : List α} : Interleaving xs ys zs → Interleaving (x :: xs) ys (x :: zs)
  | right {y : α} {xs ys zs : List α} : Interleaving xs ys zs → Interleaving xs (y :: ys) (y :: zs)

/-- A test that tells the two lists apart gets the first one back. -/
theorem Interleaving.filter_eq_left {α : Type} {q : α → Bool} {xs ys zs : List α}
    (h : Interleaving xs ys zs) (hxs : ∀ x ∈ xs, q x = true) (hys : ∀ y ∈ ys, q y = false) :
    zs.filter q = xs := by
  induction h with
  | nil => rfl
  | left _ ih =>
      rw [List.filter_cons_of_pos (hxs _ (List.mem_cons_self ..)),
        ih (fun x hx => hxs x (List.mem_cons_of_mem _ hx)) hys]
  | right _ ih =>
      have hfails := hys _ (List.mem_cons_self ..)
      rw [List.filter_cons_of_neg (by rw [hfails]; decide),
        ih hxs fun y hy => hys y (List.mem_cons_of_mem _ hy)]

/-! ## The paths of some files -/

/-- Is it the path of one of the files? -/
def isPathIn (files : List ChangedFile) (path : String) : Bool := files.any fun f => path == f.path

/-- Is the finding for one of the files? -/
def Finding.isIn (files : List ChangedFile) (x : Finding) : Bool :=
  files.any fun f => x.file.isText f.path

theorem Finding.isIn_of_file {files : List ChangedFile} {x : Finding} {path : String}
    (h : x.file = .text path) : x.isIn files = isPathIn files path := by
  unfold Finding.isIn isPathIn
  rw [h]
  rfl

/-- The test reads nothing but the key. -/
theorem Finding.isIn_eq_of_key {files : List ChangedFile} {x y : Finding} (h : x.key = y.key) :
    x.isIn files = y.isIn files := by
  have hfile : x.file.key? = y.file.key? := (List.cons.inj (List.cons.inj h).2).1
  have htext : ∀ path, x.file.isText path = y.file.isText path := by
    intro path
    rw [Bool.eq_iff_iff, isText_iff_key?, isText_iff_key?, hfile]
  simp only [Finding.isIn, htext]

/-! ## The test in the loops -/

section

variable {p : Policy} {s : Specialist} {contents : Contents} {files : List ChangedFile}

/-- What a specialist finds for some of the files that it sees. -/
theorem filter_isIn_report (routed : List Routed) :
    (p.report s routed contents).filter (Finding.isIn files)
      = p.report s (routed.filter fun r => isPathIn files r.file.path) contents := by
  have hchecks : ∀ r ∈ routed, ∀ x ∈ fileFindings s.name s.checks contents r,
      x.isIn files = isPathIn files r.file.path := by
    intro r _ x hx
    obtain ⟨c, _, _, hmem⟩ := mem_fileFindings.mp hx
    obtain ⟨line, evidence, rfl⟩ := Check.finding_of_mem hmem
    exact Finding.isIn_of_file rfl
  have hrules : ∀ r ∈ routed,
      ∀ x ∈ ((p.rulesOf s.name).flatMap fun rule =>
        rule.report p s.name r.file (contents r.file.path)),
      x.isIn files = isPathIn files r.file.path := by
    intro r _ x hx
    obtain ⟨rule, _, hmem⟩ := List.mem_flatMap.mp hx
    obtain ⟨line, rfl⟩ := rule.finding_of_mem_report hmem
    exact Finding.isIn_of_file rfl
  unfold Policy.report runChecks
  rw [List.filter_append, filter_flatMap_of_test hchecks, filter_flatMap_of_test hrules]

end

section

variable {p : Policy} {contents : Contents} {xs ys zs : List ChangedFile}
  (hmix : Interleaving xs ys zs) (hapart : ∀ f ∈ xs, ∀ g ∈ ys, f.path ≠ g.path)
include hmix hapart

/-- The files of a specialist, those of `xs` alone. -/
theorem filter_bucket (s : Specialist) :
    ((route zs).bucket s).filter (fun r => isPathIn xs r.file.path) = (route xs).bucket s := by
  have hxs : ∀ f ∈ xs, isPathIn xs f.path = true :=
    fun f hf => List.any_eq_true.mpr ⟨f, hf, beq_self_eq_true _⟩
  have hys : ∀ g ∈ ys, isPathIn xs g.path = false := by
    intro g hg
    refine List.any_eq_false.mpr fun f hf heq => ?_
    exact hapart f hf g hg (beq_iff_eq.mp heq).symm
  have hfiles : zs.filter ((fun r => isPathIn xs r.file.path) ∘ Routed.ofFile) = xs :=
    hmix.filter_eq_left hxs hys
  rw [bucket_route, bucket_route, List.filter_map, List.filter_comm, hfiles]

/-- A run over some of the files evaluates the rules on fewer files. -/
theorem Policy.Succeeds.of_interleaving (h : p.Succeeds (route zs) contents) :
    p.Succeeds (route xs) contents := by
  intro s hs r hr
  rw [← filter_bucket hmix hapart s] at hr
  exact h s hs r (List.mem_of_mem_filter hr)

/-- What a specialist finds in all files, for `xs` alone. -/
theorem filter_report_bucket (s : Specialist) :
    (p.report s ((route zs).bucket s) contents).filter (Finding.isIn xs)
      = p.report s ((route xs).bucket s) contents := by
  rw [filter_isIn_report, filter_bucket hmix hapart]

theorem filter_found_isIn :
    (p.found zs contents).filter (Finding.isIn xs) = p.found xs contents := by
  unfold Policy.found
  rw [List.filter_flatMap]
  exact List.flatMap_congr fun s _ => filter_report_bucket hmix hapart s

/-- A limit that is not reached with all files is not reached with some. -/
theorem Policy.WithinCaps.of_interleaving (hsucceeds : p.Succeeds (route zs) contents)
    (hcaps : p.WithinCaps zs contents) : p.WithinCaps xs contents := by
  intro s hs found hfound
  obtain ⟨_, rfl⟩ := uncappedFindings_eq_ok_iff.mp hfound
  have hall : (p.report s ((route zs).bucket s) contents).length ≤ (p.agents s).maxFindings :=
    hcaps s hs _ (uncappedFindings_eq_ok_iff.mpr ⟨hsucceeds s (mem_running.mpr hs), rfl⟩)
  have hfewer : (p.report s ((route xs).bucket s) contents).length
      ≤ (p.report s ((route zs).bucket s) contents).length := by
    rw [← filter_report_bucket hmix hapart s]
    exact List.length_filter_le _ _
  omega

end

/-! ## Two runs -/

/-- The test for the files can be moved to the findings before they are merged. -/
theorem filter_synthesize (files : List ChangedFile) (found : List Finding) (n : Int)
    (u : TokenUsage) :
    (synthesize found n u).findings.filter (Finding.isIn files)
      = (synthesize (found.filter (Finding.isIn files)) n u).findings := by
  show (rankFindings (dedupe found)).filter (Finding.isIn files)
    = rankFindings (dedupe (found.filter (Finding.isIn files)))
  rw [filter_rankFindings, filter_dedupe fun x y h => Finding.isIn_eq_of_key h]

/-- **Files are judged independently.** Let the files `zs` be `xs` and `ys` mixed, without a path in
common, and let no specialist that runs find more than its limit allows in them. Then
* a run over `zs` succeeds if globs and patterns do not fail on them;
* if it succeeds, so does the run over `xs`, and what this one reports is what the other reports for
  the files `xs`, in the same order. -/
theorem files_judged_independently {p : Policy} {contents : Contents}
    {xs ys zs : List ChangedFile} (hmix : Interleaving xs ys zs)
    (hapart : ∀ f ∈ xs, ∀ g ∈ ys, f.path ≠ g.path) (hcaps : p.WithinCaps zs contents)
    (usage : TokenUsage) :
    (p.Evaluable zs → ∃ a, analyze p (route zs) contents [] usage = .ok a) ∧
    ∀ a, analyze p (route zs) contents [] usage = .ok a →
      ∃ b, analyze p (route xs) contents [] usage = .ok b ∧
        a.findings.filter (Finding.isIn xs) = b.findings := by
  constructor
  · intro hev
    exact ⟨_, analyze_eq_ok_iff.mpr ⟨hev.succeeds_route, rfl⟩⟩
  · intro a ha
    obtain ⟨hsucceeds, rfl⟩ := analyze_eq_ok_iff.mp ha
    have hsucceeds' : p.Succeeds (route xs) contents := hsucceeds.of_interleaving hmix hapart
    have hcaps' : p.WithinCaps xs contents := hcaps.of_interleaving hmix hapart hsucceeds
    refine ⟨_, analyze_eq_ok_iff.mpr ⟨hsucceeds', rfl⟩, ?_⟩
    rw [List.append_nil, List.append_nil, reported_eq_found hsucceeds hcaps,
      reported_eq_found hsucceeds' hcaps', filter_synthesize, filter_found_isIn hmix hapart]

/-- A second file with a placeholder. -/
def sampleNeighbour : ChangedFile := { sampleFile with path := "store/order_test.go" }

theorem sampleNeighbour_evaluable : samplePolicy.Evaluable [sampleNeighbour, sampleFile] := by
  refine ⟨?_, ?_, samplePolicy_evaluable.pattern⟩
  · intro rule hrule f hf
    rw [List.mem_singleton.mp hrule]
    rcases List.mem_cons.mp hf with rfl | hf
    · exact exists_eq_ok (by decide +kernel)
    · exact samplePolicy_evaluable.scope sampleRule (List.mem_singleton.mpr rfl) f hf
  · intro entry hentry f hf
    rcases List.mem_cons.mp hf with rfl | hf
    · rw [List.mem_singleton.mp hentry]
      exact exists_eq_ok (by decide +kernel)
    · exact samplePolicy_evaluable.allowlist entry hentry f hf

theorem sampleNeighbour_withinCaps :
    samplePolicy.WithinCaps [sampleNeighbour, sampleFile] fun _ => "" := by
  intro s _ found hfound
  have hlength : ∀ s ∈ Specialist.all,
      ((uncappedFindings samplePolicy s.name ((route [sampleNeighbour, sampleFile]).bucket s)
        fun _ => "").toOption.map List.length).getD 0 ≤ 50 := by decide +kernel
  have hs := hlength s s.mem_all
  rw [hfound] at hs
  exact Int.ofNat_le.mpr hs

/-- The findings for the sample file are the same with a second file in front of it. -/
theorem files_judged_independently_sample :
    ∃ a b, analyze samplePolicy (route [sampleNeighbour, sampleFile]) (fun _ => "") [] .none
        = .ok a ∧
      analyze samplePolicy (route [sampleFile]) (fun _ => "") [] .none = .ok b ∧
      a.findings.filter (Finding.isIn [sampleFile]) = b.findings := by
  have hmix : Interleaving [sampleFile] [sampleNeighbour] [sampleNeighbour, sampleFile] :=
    .right (.left .nil)
  have hapart : ∀ f ∈ [sampleFile], ∀ g ∈ [sampleNeighbour], f.path ≠ g.path := by decide
  obtain ⟨hrun, hjudged⟩ :=
    files_judged_independently hmix hapart sampleNeighbour_withinCaps .none
  obtain ⟨a, ha⟩ := hrun sampleNeighbour_evaluable
  obtain ⟨b, hb, heq⟩ := hjudged a ha
  exact ⟨a, b, ha, hb, heq⟩

end ReviewGate
