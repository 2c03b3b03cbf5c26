import Mathlib.Data.List.Forall2
import Mathlib.Data.List.Induction
import ReviewGate.Proofs.Diff.Record
import ReviewGate.Proofs.Policy.Merge
import ReviewGate.SoftRule.Check

/-!
# `ReviewGate.Proofs.SoftRule.Agenda` — what a model is asked about

Two loops go through the rules that concern files and keep one rule for each id. One tells which
rules are active, the other puts rules under their ids for the question to a model. Both keep the
first rule with an id, so they keep the same rules in the same order (`map_rulesById`). Both get the
rules by file, and there a path that occurs again takes its place with the same rules as before,
since nothing but the path decides which rules concern a file (`mem_byFile_iff`).

So a model is asked about the active rules and about the texts of the files that some rule concerns,
and it is asked exactly if there are such texts. What it is asked is one text with an entry for each
of these rules and then an entry for each of these files (`Presents`), so that text holds, in order,
what belongs to each of them (`Presents.holdsInOrder`).

## Contents
- `Rule.covers`, `ScopesAnswer`, `inScope`: rules and files.
- `filterM_eq_ok`, `rulesFor_eq`, `rulesByFile_eq`, `mem_byFile_iff`: the rules by file.
- `FirstOf`, `firstOf_firstById`, `map_rulesById`: one rule for each id.
- `HoldsInOrder`, `Presents`, `presents_ruleQuestion`: the text of a question.
- `agendaOf?_eq`: the rules and files to ask about.
- `Provider.asks_complete`: the calls for one question.
- `asked_in_scope`; `asked_in_scope_sample`: two rules with one id.
-/

namespace ReviewGate

open Diff

/-! ## Rules by file -/

/-- Does the scope of the rule cover the path? -/
def Rule.covers (r : Rule) (path : String) : Bool :=
  match Glob.matchesPath path r.scope with
  | .ok answer => answer
  | .error _ => false

/-- Whether the scope of a rule covers the path of a file can be told. -/
def ScopesAnswer (rules : List Rule) (files : List ChangedFile) : Prop :=
  ∀ f ∈ files, ∀ r ∈ rules, ∃ answer, Glob.matchesPath f.path r.scope = .ok answer

/-- Is the path that of a changed file, and does the scope of some rule cover it? -/
def inScope (rules : List Rule) (files : List ChangedFile) (path : String) : Bool :=
  files.any fun f => f.path == path && rules.any (·.covers path)

theorem Rule.matchesPath_eq_covers {r : Rule} {path : String}
    (h : ∃ answer, Glob.matchesPath path r.scope = .ok answer) :
    Glob.matchesPath path r.scope = .ok (r.covers path) := by
  obtain ⟨answer, hanswer⟩ := h
  rw [Rule.covers, hanswer]

theorem filterAuxM_eq_ok {ε α : Type} {test : α → Except ε Bool} {g : α → Bool} {xs : List α}
    (h : ∀ x ∈ xs, test x = .ok (g x)) (kept : List α) :
    xs.filterAuxM test kept = .ok ((xs.filter g).reverse ++ kept) := by
  induction xs generalizing kept with
  | nil => rfl
  | cons x rest ih =>
      obtain ⟨hx, hrest⟩ := List.forall_mem_cons.mp h
      rw [List.filterAuxM, hx, ok_bind, ih hrest]
      cases hg : g x <;> simp [hg]

/-- Where each test of a list has an answer, those with the answer yes are kept. -/
theorem filterM_eq_ok {ε α : Type} {test : α → Except ε Bool} {g : α → Bool} {xs : List α}
    (h : ∀ x ∈ xs, test x = .ok (g x)) : xs.filterM test = .ok (xs.filter g) := by
  rw [List.filterM, filterAuxM_eq_ok h, ok_bind, List.append_nil, List.reverse_reverse]
  rfl

section

variable {rules : List Rule} {files : List ChangedFile}

theorem rulesFor_eq {path : String}
    (h : ∀ r ∈ rules, ∃ answer, Glob.matchesPath path r.scope = .ok answer) :
    rulesFor rules path = .ok (rules.filter (·.covers path)) :=
  filterM_eq_ok fun r hr => Rule.matchesPath_eq_covers (h r hr)

/-- The files that rules concern, each with those rules. -/
def byFile (rules : List Rule) (files : List ChangedFile) : List (String × List Rule) :=
  mergeById (·.1) ((files.map fun f => (f.path, rules.filter (·.covers f.path))).filter
    fun (_, applicable) => !applicable.isEmpty)

theorem rulesByFile_eq (h : ScopesAnswer rules files) :
    rulesByFile rules files = .ok (byFile rules files) := by
  have hfiles : files.mapM (fun f => do return (f.path, ← rulesFor rules f.path))
      = Except.ok (files.map fun f => (f.path, rules.filter (·.covers f.path))) :=
    mapM_eq_ok fun f hf => by rw [rulesFor_eq (h f hf)]; rfl
  rw [rulesByFile, hfiles]
  rfl

/-- **A path stands there if it is of the change and a rule concerns it**, with all such rules. -/
theorem mem_byFile_iff {path : String} {applicable : List Rule} :
    (path, applicable) ∈ byFile rules files ↔
      (∃ f ∈ files, f.path = path) ∧ applicable = rules.filter (·.covers path) ∧
        applicable ≠ [] := by
  have hsound : ∀ {path applicable}, (path, applicable) ∈ byFile rules files →
      (∃ f ∈ files, f.path = path) ∧ applicable = rules.filter (·.covers path) ∧
        applicable ≠ [] := by
    intro path applicable hmem
    obtain ⟨hfound, hsome⟩ := List.mem_filter.mp (mem_of_mem_mergeById hmem)
    obtain ⟨f, hf, heq⟩ := List.mem_map.mp hfound
    obtain ⟨rfl, rfl⟩ := Prod.mk.inj heq
    exact ⟨⟨f, hf, rfl⟩, rfl, by simpa using hsome⟩
  refine ⟨hsound, ?_⟩
  rintro ⟨⟨f, hf, rfl⟩, rfl, hne⟩
  -- the path has a place in the merge, and what stands there is known
  have hkey : f.path ∈ (byFile rules files).map (·.1) := by
    refine mem_map_putAll [] _ (Or.inr ?_)
    refine List.mem_map.mpr ⟨_, List.mem_filter.mpr ⟨List.mem_map_of_mem hf, ?_⟩, rfl⟩
    simpa using hne
  obtain ⟨⟨path, applicable⟩, hmem, rfl⟩ := List.mem_map.mp hkey
  obtain ⟨-, rfl, -⟩ := hsound hmem
  exact hmem

theorem any_byFile (path : String) :
    ((byFile rules files).any fun e => e.1 == path) = inScope rules files path := by
  rw [Bool.eq_iff_iff, inScope, List.any_eq_true, List.any_eq_true]
  constructor
  · rintro ⟨⟨path', applicable⟩, hmem, hpath⟩
    obtain rfl := beq_iff_eq.mp hpath
    obtain ⟨⟨f, hf, rfl⟩, rfl, hne⟩ := mem_byFile_iff.mp hmem
    obtain ⟨r, hr⟩ := List.exists_mem_of_ne_nil _ hne
    obtain ⟨hr, hcovers⟩ := List.mem_filter.mp hr
    refine ⟨f, hf, ?_⟩
    rw [beq_self_eq_true, Bool.true_and, List.any_eq_true]
    exact ⟨r, hr, hcovers⟩
  · rintro ⟨f, hf, h⟩
    obtain ⟨hpath, hany⟩ := Bool.and_eq_true_iff.mp h
    obtain rfl := beq_iff_eq.mp hpath
    obtain ⟨r, hr, hcovers⟩ := List.any_eq_true.mp hany
    have hne : rules.filter (·.covers f.path) ≠ [] :=
      List.ne_nil_of_mem (List.mem_filter.mpr ⟨hr, hcovers⟩)
    exact ⟨_, mem_byFile_iff.mpr ⟨⟨f, hf, rfl⟩, rfl, hne⟩, beq_self_eq_true f.path⟩

/-- A rule stands there exactly if it concerns some changed file. -/
theorem mem_flatMap_byFile_iff {r : Rule} :
    r ∈ (byFile rules files).flatMap (·.2) ↔ r ∈ rules ∧ ∃ f ∈ files, r.covers f.path = true := by
  rw [List.mem_flatMap]
  constructor
  · rintro ⟨⟨path, applicable⟩, hmem, hr⟩
    obtain ⟨⟨f, hf, rfl⟩, rfl, -⟩ := mem_byFile_iff.mp hmem
    obtain ⟨hr, hcovers⟩ := List.mem_filter.mp hr
    exact ⟨hr, f, hf, hcovers⟩
  · rintro ⟨hr, f, hf, hcovers⟩
    have hmem : r ∈ rules.filter (·.covers f.path) := List.mem_filter.mpr ⟨hr, hcovers⟩
    exact ⟨_, mem_byFile_iff.mpr ⟨⟨f, hf, rfl⟩, rfl, List.ne_nil_of_mem hmem⟩, hmem⟩

end

/-! ## One rule for each id -/

/-- The rules `found` are some of `rules`, in order, one for each id. -/
structure FirstOf (rules found : List Rule) : Prop where
  sublist : found.Sublist rules
  nodup : (found.map (·.id)).Nodup
  ids : ∀ id, id ∈ found.map (·.id) ↔ id ∈ rules.map (·.id)

theorem firstById_concat (rules : List Rule) (r : Rule) :
    firstById (rules ++ [r])
      = if (firstById rules).any (·.id == r.id) then firstById rules
        else firstById rules ++ [r] := by
  rw [firstById, List.foldl_append]
  rfl

theorem any_id_iff {rules : List Rule} {id : String} :
    (rules.any (·.id == id)) = true ↔ id ∈ rules.map (·.id) := by
  rw [List.any_eq_true, List.mem_map]
  exact exists_congr fun r => and_congr_right fun _ => beq_iff_eq

theorem firstOf_firstById (rules : List Rule) : FirstOf rules (firstById rules) := by
  -- from the right, since one rule after the other is taken in
  induction rules using List.reverseRecOn with
  | nil => exact ⟨List.Sublist.refl _, List.nodup_nil, fun _ => Iff.rfl⟩
  | append_singleton rules r ih =>
      rw [firstById_concat]
      split
      next hany =>
        have hold : r.id ∈ rules.map (·.id) := (ih.ids _).mp (any_id_iff.mp hany)
        refine ⟨ih.sublist.trans (List.sublist_append_left ..), ih.nodup, fun k => ?_⟩
        rw [ih.ids, List.map_append, List.map_singleton, List.mem_append, List.mem_singleton]
        exact ⟨Or.inl, fun h => h.elim (fun hk => hk) fun hk => hk ▸ hold⟩
      next hany =>
        have hnew : r.id ∉ (firstById rules).map (·.id) := fun hmem => hany (any_id_iff.mpr hmem)
        refine ⟨ih.sublist.append_right [r], ?_, fun k => ?_⟩
        · rw [List.map_append, List.map_singleton, List.nodup_append]
          refine ⟨ih.nodup, by simp, fun k hk j hj hkj => hnew ?_⟩
          exact List.mem_singleton.mp hj ▸ hkj ▸ hk
        · simp only [List.map_append, List.mem_append, ih.ids]

/-- **Both loops keep the same rules**, in the same order. -/
theorem SoftRule.rulesById_eq (rules : List Rule) :
    rulesById rules = (firstById rules).map fun r => (r.id, r) := by
  induction rules using List.reverseRecOn with
  | nil => rfl
  | append_singleton rules r ih =>
      have hstep : rulesById (rules ++ [r]) = addRule (rulesById rules) r := by
        rw [rulesById, List.foldl_append]
        rfl
      have hany : ((firstById rules).map fun s => (s.id, s)).any (·.1 == r.id)
          = (firstById rules).any (·.id == r.id) := List.any_map
      rw [hstep, ih, addRule, hany, firstById_concat]
      split
      · rfl
      · rw [List.map_append, List.map_singleton]

theorem SoftRule.map_rulesById (rules : List Rule) :
    (rulesById rules).map (·.2) = firstById rules := by
  rw [rulesById_eq, List.map_map]
  exact List.map_id _

/-! ## The text of a question -/

/-- The pieces stand in the text one behind the other. -/
def HoldsInOrder : List String → String → Prop
  | [], _ => True
  | piece :: rest, text => ∃ before after, text = before ++ piece ++ after ∧ HoldsInOrder rest after

section

variable {pieces more : List String} {text : String}

theorem holdsInOrder_nil (text : String) : HoldsInOrder [] text := trivial

theorem HoldsInOrder.cons (h : HoldsInOrder pieces text) (before piece : String) :
    HoldsInOrder (piece :: pieces) (before ++ (piece ++ text)) :=
  ⟨before, text, String.append_assoc.symm, h⟩

theorem HoldsInOrder.prepend (h : HoldsInOrder pieces text) (before : String) :
    HoldsInOrder pieces (before ++ text) := by
  cases pieces with
  | nil => trivial
  | cons piece rest =>
      obtain ⟨front, after, rfl, hrest⟩ := h
      exact ⟨before ++ front, after, by simp only [String.append_assoc], hrest⟩

/-- Pieces of two texts are pieces of the two in a row. -/
theorem HoldsInOrder.append (h : HoldsInOrder pieces text) {behind : String}
    (hmore : HoldsInOrder more behind) : HoldsInOrder (pieces ++ more) (text ++ behind) := by
  induction pieces generalizing text with
  | nil => exact hmore.prepend text
  | cons piece rest ih =>
      obtain ⟨before, after, rfl, hrest⟩ := h
      exact ⟨before, after ++ behind, by simp only [String.append_assoc], ih hrest⟩

theorem HoldsInOrder.extend (h : HoldsInOrder pieces text) (behind : String) :
    HoldsInOrder pieces (text ++ behind) := by
  rw [← List.append_nil pieces]
  exact h.append (holdsInOrder_nil behind)

/-- Pieces of entries are pieces of the entries in a row, whatever stands between these. -/
theorem HoldsInOrder.intercalate {α : Type} {piecesOf : α → List String} {xs : List α}
    {entries : List String}
    (h : List.Forall₂ (fun x entry => HoldsInOrder (piecesOf x) entry) xs entries)
    (between : String) : HoldsInOrder (xs.flatMap piecesOf) (between.intercalate entries) := by
  induction h with
  | nil => trivial
  | @cons x entry xs entries hentry hentries ih =>
      rw [List.flatMap_cons]
      by_cases hlast : entries = []
      · subst hlast
        cases hentries
        rw [String.intercalate_singleton, List.flatMap_nil, List.append_nil]
        exact hentry
      · rw [String.intercalate_cons_of_ne_nil hlast]
        exact (hentry.extend between).append ih

end

/-- The entry tells of the rule: its id, how severe it is and its description, then what to check,
then where. -/
def Rule.IsEntry (r : Rule) (entry : String) : Prop :=
  entry = "- **" ++ r.id ++ "** [" ++ r.severity.name ++ "]: " ++ r.description ++ "\n  Check: " ++
    r.pattern ++ "\n  Applies to files matching: \x60" ++ r.scope ++ "\x60"

/-- What an entry holds of a rule, in order. -/
def Rule.pieces (r : Rule) : List String :=
  [r.id, r.severity.name, r.description, r.pattern, r.scope]

/-- The entry shows the file: its path, then its text in a fence with the language. -/
def FileText.IsEntry (f : FileText) (entry : String) : Prop :=
  entry = "### " ++ f.path ++ "\n\x60\x60\x60" ++ f.language ++ "\n" ++ f.text ++ "\n\x60\x60\x60"

/-- What an entry holds of a file, in order. -/
def FileText.pieces (f : FileText) : List String := [f.path, f.language, f.text]

/-- The text puts rules and files to a model: an entry for each rule, then an entry for each file, both
in order, then the files that are context only, if there are any, and the form of the answer. -/
def Presents (rules : List Rule) (files context : List FileText) (text : String) : Prop :=
  ∃ ruleEntries fileEntries contextEntries,
    List.Forall₂ Rule.IsEntry rules ruleEntries ∧
    List.Forall₂ FileText.IsEntry files fileEntries ∧
    List.Forall₂ FileText.IsEntry context contextEntries ∧
    text = "## Rules to Check\n" ++ "\n".intercalate ruleEntries ++
      "\n\n## Changed Files\n" ++ "\n\n".intercalate fileEntries ++ "\n\n" ++
      (if context.isEmpty then ""
        else "## Imported Files (context only, do not review these)\n" ++
          "\n\n".intercalate contextEntries ++ "\n\n") ++
      SoftRule.answerForm

theorem Rule.IsEntry.holdsInOrder {r : Rule} {entry : String} (h : r.IsEntry entry) :
    HoldsInOrder r.pieces entry := by
  rw [h]
  simp only [String.append_assoc]
  exact (((((holdsInOrder_nil _).cons _ r.scope).cons _ r.pattern).cons _ r.description).cons _
    r.severity.name).cons _ r.id

theorem FileText.IsEntry.holdsInOrder {f : FileText} {entry : String} (h : f.IsEntry entry) :
    HoldsInOrder f.pieces entry := by
  rw [h]
  simp only [String.append_assoc]
  exact (((holdsInOrder_nil _).cons _ f.text).cons _ f.language).cons _ f.path

/-- **A text that puts rules and files to a model holds them in order**: what belongs to the rules,
then what belongs to the files, then what belongs to the files that are context only. -/
theorem Presents.holdsInOrder {rules : List Rule} {files context : List FileText} {text : String}
    (h : Presents rules files context text) :
    HoldsInOrder (rules.flatMap Rule.pieces ++ files.flatMap FileText.pieces ++
      context.flatMap FileText.pieces) text := by
  obtain ⟨ruleEntries, fileEntries, contextEntries, hrules, hfiles, hcontext, rfl⟩ := h
  have hruleEntries : HoldsInOrder (rules.flatMap Rule.pieces) ("\n".intercalate ruleEntries) :=
    .intercalate (hrules.imp fun _ _ h => h.holdsInOrder) _
  have hshown {shown : List FileText} {entries : List String}
      (h : List.Forall₂ FileText.IsEntry shown entries) :
      HoldsInOrder (shown.flatMap FileText.pieces) ("\n\n".intercalate entries) :=
    .intercalate (h.imp fun _ _ h => h.holdsInOrder) _
  have hheaded := (hruleEntries.prepend "## Rules to Check\n").extend "\n\n## Changed Files\n"
  have hboth := hheaded.append (hshown hfiles)
  refine ((hboth.extend "\n\n").append ?_).extend _
  -- without context there is no section for it
  cases context with
  | nil => exact holdsInOrder_nil _
  | cons f rest => exact ((hshown hcontext).prepend _).extend _

/-- **A question presents its rules and files.** -/
theorem SoftRule.presents_ruleQuestion (rules : List Rule) (files context : List FileText) :
    Presents rules files context (ruleQuestion rules files context).user := by
  have hrule (r : Rule) : r.IsEntry (showRule r) := by
    have hscope : "\n" ++ "  Applies to files matching: \x60"
        = "\n  Applies to files matching: \x60" := by decide
    unfold Rule.IsEntry showRule
    rw [← hscope]
    simp only [toString, String.append_assoc]
  have hfile (f : FileText) : f.IsEntry (showFile f) := by
    have hfence : "\n" ++ "\x60\x60\x60" = "\n\x60\x60\x60" := by decide
    unfold FileText.IsEntry showFile fenced
    rw [← hfence]
    simp only [String.append_assoc]
  have hentries (shown : List FileText) :
      List.Forall₂ FileText.IsEntry shown (shown.map showFile) :=
    List.forall₂_map_right_iff.mpr (List.forall₂_same.mpr fun f _ => hfile f)
  have hrules : List.Forall₂ Rule.IsEntry rules (rules.map showRule) :=
    List.forall₂_map_right_iff.mpr (List.forall₂_same.mpr fun r _ => hrule r)
  exact ⟨_, _, _, hrules, hentries files, hentries context, rfl⟩

/-! ## The question -/

namespace SoftRule

variable {rules : List Rule} {files : List ChangedFile}

theorem activeRules_eq (h : ScopesAnswer rules files) :
    activeRules rules files = .ok (firstById ((byFile rules files).flatMap (·.2))) := by
  rw [activeRules, rulesByFile_eq h]
  rfl

/-- A model is asked about the active rules and the texts in scope, if there are such texts. -/
theorem agendaOf?_eq (h : ScopesAnswer rules files) (texts : List FileText) :
    agendaOf? rules files texts
      = .ok (if texts.filter (fun f => inScope rules files f.path) = [] then none
        else some ⟨firstById ((byFile rules files).flatMap (·.2)),
          texts.filter fun f => inScope rules files f.path⟩) := by
  simp only [agendaOf?, rulesByFile_eq h, ok_bind, any_byFile, map_rulesById, List.isEmpty_iff]
  split <;> rfl

theorem agendaOf?_eq_error {fault : Fault} (h : activeRules rules files = .error fault)
    (texts : List FileText) : agendaOf? rules files texts = .error fault := by
  unfold activeRules at h
  unfold agendaOf?
  cases hfound : rulesByFile rules files with
  | error found =>
      rw [hfound] at h
      obtain rfl : found = fault := Except.error.inj h
      rfl
  | ok found =>
      rw [hfound] at h
      exact nomatch h

end SoftRule

/-! ## The calls for one question -/

/-- All calls that `new` has are for the question, and there is one. -/
def AsksOnly (p : Provider) (q : Question) (new : List ModelEvent) : Prop :=
  ∀ p' q', .ask p' q' ∈ new ↔ p' = p ∧ q' = q

namespace Provider

variable (p : Provider) (q : Question)

theorem events_call (t : Talk) : (t.call p q).2.events = t.events ++ [.ask p q] := by
  unfold Talk.call
  dsimp only
  split <;> rfl

/-- Every call is for the same question. -/
theorem asks_completeWith (delays : List Nat) (t : Talk) :
    ∃ new, (p.completeWith q delays t).2.events = t.events ++ new ∧ AsksOnly p q new := by
  have hfirst : AsksOnly p q [.ask p q] := fun p' q' => by simp
  induction delays generalizing t with
  | nil =>
      refine ⟨[.ask p q], ?_, hfirst⟩
      rw [← events_call, completeWith]
      dsimp only
      cases (t.call p q).1.completion? p.vendor <;> rfl
  | cons seconds rest ih =>
      rw [completeWith]
      dsimp only
      cases (t.call p q).1.completion? p.vendor with
      | some c => exact ⟨_, events_call p q t, hfirst⟩
      | none =>
          obtain ⟨new, hnew, hasks⟩ := ih ((t.call p q).2.record (.pause seconds))
          refine ⟨[.ask p q, .pause seconds] ++ new, ?_, ?_⟩
          · refine hnew.trans ?_
            rw [Talk.record, events_call, List.append_assoc, List.append_assoc]
            rfl
          · intro p' q'
            simp [hasks p' q']

theorem asks_complete (t : Talk) :
    ∃ new, (p.complete q t).2.events = t.events ++ new ∧ AsksOnly p q new :=
  p.asks_completeWith q pauses t

end Provider

namespace SoftRule

variable {rules : List Rule} {files : List ChangedFile}

/-- What is asked in the pass: nothing without texts in scope, else one question. -/
theorem asks_checkSoftRules (h : ScopesAnswer rules files) (p : Provider)
    (texts context : List FileText) (t : Talk) :
    ∃ new, (checkSoftRules p rules files texts context t).2.events = t.events ++ new ∧
      ∀ p' q, .ask p' q ∈ new ↔
        texts.filter (fun f => inScope rules files f.path) ≠ [] ∧ p' = p ∧
          q = ruleQuestion (firstById ((byFile rules files).flatMap (·.2)))
            (texts.filter fun f => inScope rules files f.path) context := by
  unfold checkSoftRules
  rw [agendaOf?_eq h]
  generalize firstById ((byFile rules files).flatMap (·.2)) = active
  generalize texts.filter (fun f => inScope rules files f.path) = relevant
  by_cases hnone : relevant = []
  · rw [if_pos hnone]
    exact ⟨[], (List.append_nil _).symm, fun p' q => by simp [hnone]⟩
  · rw [if_neg hnone]
    obtain ⟨new, hnew, hasks⟩ := p.asks_complete (ruleQuestion active relevant context) t
    refine ⟨new, ?_, fun p' q => (hasks p' q).trans (and_iff_right hnone).symm⟩
    rw [← hnew]
    dsimp only
    split
    next heq => rw [heq]
    next heq => rw [heq]

/-- **A model is asked about exactly the rules and files in scope.** For all rules, changed files,
texts and talks:
* where the active rules cannot be told, the pass fails alike and nothing is asked;
* where they can, there is one active rule for each id that a rule with a changed file in its scope
  has, and it is itself such a rule. The model is called if and only if there are texts of changed
  files in the scope of a rule, and whenever it is called, it is asked the one question that
  presents the active rules and exactly these texts, both in their order. -/
theorem asked_in_scope (p : Provider) (rules : List Rule) (files : List ChangedFile)
    (texts context : List FileText) (t : Talk) :
    (∀ fault, activeRules rules files = .error fault →
      checkSoftRules p rules files texts context t = (.error fault, t)) ∧
    (ScopesAnswer rules files → ∃ active, activeRules rules files = .ok active ∧
      (active.map (·.id)).Nodup ∧
      (∀ id, id ∈ active.map (·.id) ↔
        ∃ r ∈ rules, r.id = id ∧ ∃ f ∈ files, r.covers f.path = true) ∧
      (∀ r ∈ active, r ∈ rules ∧ ∃ f ∈ files, r.covers f.path = true) ∧
      ∃ q new, q.system = instructions ∧
        Presents active (texts.filter fun f => inScope rules files f.path) context q.user ∧
        (checkSoftRules p rules files texts context t).2.events = t.events ++ new ∧
        ∀ p' q', .ask p' q' ∈ new ↔
          texts.filter (fun f => inScope rules files f.path) ≠ [] ∧ p' = p ∧ q' = q) := by
  refine ⟨fun fault hfault => ?_, fun h => ?_⟩
  · rw [checkSoftRules, agendaOf?_eq_error hfault]
  · have hfirst := firstOf_firstById ((byFile rules files).flatMap (·.2))
    obtain ⟨new, hnew, hasks⟩ := asks_checkSoftRules h p texts context t
    refine ⟨_, activeRules_eq h, hfirst.nodup, fun k => ?_, fun r hr => ?_, _, new, rfl,
      presents_ruleQuestion .., hnew, hasks⟩
    · rw [hfirst.ids, List.mem_map]
      constructor
      · rintro ⟨r, hr, rfl⟩
        obtain ⟨hr, hcovers⟩ := mem_flatMap_byFile_iff.mp hr
        exact ⟨r, hr, rfl, hcovers⟩
      · rintro ⟨r, hr, rfl, hcovers⟩
        exact ⟨r, mem_flatMap_byFile_iff.mpr ⟨hr, hcovers⟩, rfl⟩
    · exact mem_flatMap_byFile_iff.mp (hfirst.sublist.subset hr)

/-- Three rules, two of which have one id and different scopes. -/
def scopedRules : List Rule :=
  [⟨"close-files", "Close files.", "**/*.go", "open", .warning, .policy⟩,
   ⟨"close-files", "Close files.", "**/*.py", "open", .info, .policy⟩,
   ⟨"no-slang", "No slang.", "docs/**", "slang", .info, .policy⟩]

/-- Two files, one of which is there twice. -/
def scopedFiles : List ChangedFile :=
  ["lib/a.py", "lib/b.rb", "lib/a.py"].map fun path => ⟨path, .modified, [], ""⟩

/-- The texts of both files and of one that is not in the change. -/
def scopedTexts : List FileText :=
  [⟨"lib/b.rb", "b", "ruby"⟩, ⟨"lib/a.py", "a", "python"⟩, ⟨"lib/c.py", "c", "python"⟩]

/-- The model that is asked. -/
def scopedProvider : Provider := ⟨.openai, .text "m"⟩

/-- Of the rules with one id the second is active, and the model is asked about the one text in its
scope: the question holds the rule and then this text. -/
theorem asked_in_scope_sample :
    ScopesAnswer scopedRules scopedFiles ∧
      ∃ active, activeRules scopedRules scopedFiles = .ok active ∧
        active.map Rule.pieces
          = [["close-files", "info", "Close files.", "open", "**/*.py"]] ∧
        ∃ q, .ask scopedProvider q ∈ (checkSoftRules scopedProvider scopedRules scopedFiles
            scopedTexts [] ⟨[], []⟩).2.events ∧
          HoldsInOrder ["close-files", "info", "Close files.", "open", "**/*.py", "lib/a.py",
            "python", "a"] q.user := by
  have hbounded : ∀ r ∈ scopedRules, Glob.Bounded r.scope := by decide +kernel
  have hanswer : ScopesAnswer scopedRules scopedFiles :=
    fun f _ r hr => (hbounded r hr).exists_matchesPath f.path
  obtain ⟨active, hactive, -, -, -, q, new, -, hpresents, hnew, hasks⟩ :=
    (asked_in_scope scopedProvider scopedRules scopedFiles scopedTexts [] ⟨[], []⟩).2 hanswer
  have hpieces : active.map Rule.pieces
      = [["close-files", "info", "Close files.", "open", "**/*.py"]] := by
    have hread : (activeRules scopedRules scopedFiles).toOption.map (·.map Rule.pieces)
        = some [["close-files", "info", "Close files.", "open", "**/*.py"]] := by decide +kernel
    rw [hactive] at hread
    exact Option.some.inj hread
  have hrelevant : scopedTexts.filter (fun f => inScope scopedRules scopedFiles f.path)
      = [⟨"lib/a.py", "a", "python"⟩] := by decide +kernel
  rw [hrelevant] at hpresents hasks
  have hholds := hpresents.holdsInOrder
  rw [List.flatMap_def, hpieces] at hholds
  refine ⟨hanswer, active, hactive, hpieces, q, ?_, hholds⟩
  rw [hnew]
  exact List.mem_append_right _ ((hasks _ _).mpr ⟨List.cons_ne_nil _ _, rfl, rfl⟩)

end SoftRule

end ReviewGate
