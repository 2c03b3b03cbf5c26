import Mathlib.Algebra.BigOperators.Group.List.Basic
import Mathlib.Algebra.Ring.Int.Defs
import ReviewGate.Context.Gather

/-!
# `ReviewGate.Proofs.Context.Gather` — gathered texts are what was asked for and paid for

Each step of the gathering either takes nothing or takes one text that there is and that still fits.
So whatever the files import, every text is the one that its path has, the texts and what is left
make up the budget, and no more is spent than there was. The changed files come first: following
their imports adds nothing to them.

## Contents
- `Gathered.cost`, `Gathered.Funded`: the invariant.
- `takeChanged_cases`, `takeImport_cases`: what one step can do.
- `Gathered.Funded.add`, `Funded.takeChanged`, `Funded.takeImport`: the steps keep the invariant.
- `funded_gather`, `cost_gather_le`: the budget is kept.
- `Gathered.OfChange`, `changed_takeImports`, `ofChange_gather`: whose texts they are.
-/

namespace ReviewGate.Context

open Diff

namespace Gathered

/-- The tokens of a text. -/
def tokens (t : FileText) : Int := estimateTokens t.text

/-- The tokens of all texts. -/
def cost (g : Gathered) : Int := (g.all.map tokens).sum

/-- Every text is the one of its path, the budget is what the texts cost and what is left, and if
there are texts then it is not overdrawn. -/
structure Funded (fetch : Fetch) (budget : Int) (g : Gathered) : Prop where
  fetched : ∀ t ∈ g.all, fetch t.path = some t.text
  balance : g.cost + g.remaining = budget
  solvent : g.all = [] ∨ 0 ≤ g.remaining

variable {fetch : Fetch} {budget : Int} {g : Gathered}

/-! ## One step -/

/-- A changed file gives nothing, or its text, which there is and which fits. -/
theorem takeChanged_cases (fetch : Fetch) (g : Gathered) (f : ChangedFile) :
    (∃ asked, g.takeChanged fetch f = { g with asked }) ∨
      ∃ text asked, f.status ≠ .removed ∧ fetch f.path = some text ∧
        (estimateTokens text : Int) ≤ g.remaining ∧
        g.takeChanged fetch f =
          ⟨g.changed ++ [textOf f.path text], g.imported, g.remaining - estimateTokens text, asked⟩ := by
  unfold takeChanged
  split
  · exact Or.inl ⟨g.asked, rfl⟩
  next hremoved =>
  cases htext : fetch f.path with
  | none => exact Or.inl ⟨_, rfl⟩
  | some text =>
      simp only
      split
      · exact Or.inl ⟨_, rfl⟩
      next hfits =>
      simp only [Bool.or_eq_true, decide_eq_true_eq, not_or, Int.not_lt] at hfits
      exact Or.inr ⟨text, _, by simpa using hremoved, rfl, hfits.2, rfl⟩

/-- An import gives nothing, or the text of a candidate that is not there yet, which there is and
which fits. -/
theorem takeImport_cases (fetch : Fetch) (g : Gathered) (paths : List String) :
    (∃ asked, g.takeImport fetch paths = { g with asked }) ∨
      ∃ path text asked, path ∈ paths ∧ g.has path = false ∧ fetch path = some text ∧
        (estimateTokens text : Int) ≤ g.remaining ∧
        g.takeImport fetch paths =
          ⟨g.changed, g.imported ++ [textOf path text], g.remaining - estimateTokens text, asked⟩ := by
  induction paths generalizing g with
  | nil => exact Or.inl ⟨g.asked, rfl⟩
  | cons path rest ih =>
      -- asking for one candidate in vain leaves all texts as they are for the next one
      have hnext : (∃ asked, (g.ask path).takeImport fetch rest = { g with asked }) ∨
          ∃ next text asked, next ∈ path :: rest ∧ g.has next = false ∧ fetch next = some text ∧
            (estimateTokens text : Int) ≤ g.remaining ∧ (g.ask path).takeImport fetch rest =
              ⟨g.changed, g.imported ++ [textOf next text], g.remaining - estimateTokens text,
                asked⟩ := by
        rcases ih (g.ask path) with hnone | ⟨next, text, asked, hmem, hsome⟩
        · exact Or.inl hnone
        · exact Or.inr ⟨next, text, asked, List.mem_cons_of_mem _ hmem, hsome⟩
      rw [takeImport]
      split
      · exact Or.inl ⟨g.asked, rfl⟩
      next hnew =>
      cases htext : fetch path with
      | none => exact hnext
      | some text =>
          simp only
          split
          · exact hnext
          split
          · exact Or.inl ⟨_, rfl⟩
          next hfits =>
          exact Or.inr ⟨path, text, _, List.mem_cons_self .., by simpa using hnew, htext,
            Int.not_lt.mp hfits, rfl⟩

/-! ## The steps keep the invariant -/

/-- Asking for more paths changes nothing. -/
theorem Funded.asking (h : Funded fetch budget g) (asked : List String) :
    Funded fetch budget { g with asked } := ⟨h.fetched, h.balance, h.solvent⟩

/-- One more text that there is and that fits keeps the invariant. -/
theorem Funded.add (h : Funded fetch budget g) {g' : Gathered} {t : FileText}
    (hall : g'.all.Perm (t :: g.all)) (hremaining : g'.remaining = g.remaining - tokens t)
    (htext : fetch t.path = some t.text) (hfits : tokens t ≤ g.remaining) :
    Funded fetch budget g' := by
  have hcost : g'.cost = tokens t + g.cost := (hall.map tokens).sum_eq
  have hbalance := h.balance
  refine ⟨fun u hu => ?_, by omega, Or.inr (by omega)⟩
  rcases List.mem_cons.mp (hall.mem_iff.mp hu) with rfl | hold
  · exact htext
  · exact h.fetched u hold

theorem Funded.takeChanged (h : Funded fetch budget g) (f : ChangedFile) :
    Funded fetch budget (g.takeChanged fetch f) := by
  obtain ⟨asked, hstep⟩ | ⟨text, asked, -, htext, hfits, hstep⟩ := takeChanged_cases fetch g f
  · rw [hstep]
    exact h.asking asked
  · rw [hstep]
    refine h.add (t := textOf f.path text) ?_ rfl htext hfits
    rw [all, List.append_assoc]
    exact List.perm_middle

theorem Funded.takeImport (h : Funded fetch budget g) (paths : List String) :
    Funded fetch budget (g.takeImport fetch paths) := by
  obtain ⟨asked, hstep⟩ | ⟨path, text, asked, -, -, htext, hfits, hstep⟩ :=
    takeImport_cases fetch g paths
  · rw [hstep]
    exact h.asking asked
  · rw [hstep]
    refine h.add (t := textOf path text) ?_ rfl htext hfits
    rw [all, ← List.append_assoc]
    exact List.perm_append_singleton _ _

theorem Funded.takeImports (h : Funded fetch budget g) (f : FileText) :
    Funded fetch budget (g.takeImports fetch f) :=
  List.foldlRecOn _ _ h fun _ hg _ _ => hg.takeImport _

/-! ## Whose texts they are -/

/-- The changed texts are of files of the change that have not been removed. -/
def OfChange (files : List ChangedFile) (g : Gathered) : Prop :=
  ∀ t ∈ g.changed, ∃ f ∈ files, f.status ≠ .removed ∧ f.path = t.path

theorem OfChange.takeChanged {files : List ChangedFile} (h : g.OfChange files) {f : ChangedFile}
    (hf : f ∈ files) : (g.takeChanged fetch f).OfChange files := by
  obtain ⟨asked, hstep⟩ | ⟨text, asked, hkept, -, -, hstep⟩ := takeChanged_cases fetch g f
  · rw [hstep]
    exact h
  · rw [hstep]
    intro t ht
    rcases List.mem_append.mp ht with hold | hnew
    · exact h t hold
    · rw [List.mem_singleton.mp hnew]
      exact ⟨f, hf, hkept, rfl⟩

/-- Following imports adds no changed file. -/
theorem changed_takeImport (g : Gathered) (paths : List String) :
    (g.takeImport fetch paths).changed = g.changed := by
  obtain ⟨asked, hstep⟩ | ⟨path, text, asked, -, -, -, -, hstep⟩ := takeImport_cases fetch g paths <;>
    rw [hstep]

theorem changed_takeImports (g : Gathered) (f : FileText) :
    (g.takeImports fetch f).changed = g.changed :=
  List.foldlRecOn (motive := fun k : Gathered => k.changed = g.changed) _ _ rfl fun _ hk _ _ =>
    (changed_takeImport _ _).trans hk

end Gathered

/-! ## All steps -/

section

variable {fetch : Fetch} {budget : Int} {files : List ChangedFile}

/-- **What is gathered keeps the invariant**, whatever the files import. -/
theorem funded_gather : (gather fetch budget files).Funded fetch budget := by
  have hstart : Gathered.Funded fetch budget ⟨[], [], budget, []⟩ :=
    ⟨nofun, Int.zero_add budget, Or.inl rfl⟩
  have hchanged : (files.foldl (Gathered.takeChanged fetch) ⟨[], [], budget, []⟩).Funded
      fetch budget :=
    List.foldlRecOn files _ hstart fun _ hg f _ => hg.takeChanged f
  exact List.foldlRecOn _ _ hchanged fun _ hg f _ => hg.takeImports f

/-- The texts fit into the budget. -/
theorem cost_gather_le (h : (gather fetch budget files).all ≠ []) :
    (gather fetch budget files).cost ≤ budget := by
  have hfunded : (gather fetch budget files).Funded fetch budget := funded_gather
  have hbalance := hfunded.balance
  have hsolvent := hfunded.solvent.resolve_left h
  omega

/-- **The changed texts are of files of the change.** -/
theorem ofChange_gather : (gather fetch budget files).OfChange files := by
  have hstart : Gathered.OfChange files ⟨[], [], budget, []⟩ := fun _ h => absurd h List.not_mem_nil
  have hchanged : (files.foldl (Gathered.takeChanged fetch) ⟨[], [], budget, []⟩).OfChange files :=
    List.foldlRecOn files _ hstart fun _ hg _ hf => hg.takeChanged hf
  refine List.foldlRecOn _ _ hchanged fun g hg f _ => ?_
  unfold Gathered.OfChange
  rw [Gathered.changed_takeImports]
  exact hg

end

end ReviewGate.Context
