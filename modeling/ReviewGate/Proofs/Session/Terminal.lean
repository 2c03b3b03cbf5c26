import ReviewGate.Proofs.Command.Task
import ReviewGate.Proofs.Number.Digits
import ReviewGate.Review.Markup
import ReviewGate.Session.Review

/-!
# `ReviewGate.Proofs.Session.Terminal` — what a terminal makes of a run

A terminal may refuse what it is given, and then the run fails. What it does with a text is its own
affair, except for one thing that it promises: it shows a line in which every style that begins also
ends, and which has no other marks (`Terminal.ShowsWellMarked`). The lines with which a run says that
it has posted, or what it would have posted, are of this kind whatever the review is. The lines about
findings are so only if the findings are: their files, titles and explanations and the lines of code
are printed as they are, and a bracket in one of them may be a mark.

## Contents
- `Run.run_print`, `Run.run_say_eq_ok`, `Run.run_forM_say`: what comes of printing.
- `Terminal.ShowsWellMarked`, `Terminal.ShowsFindings`: what a terminal shows.
- `wellMarked_posted`, `wellMarked_wouldPost`: lines about a review.
- `Finding.WithoutMarks`, `wellMarked_shadowLines`: lines about findings.
- `Terminal.ShowsWellMarked.showsFindings`: findings without marks are shown.
-/

namespace ReviewGate

open Diff

/-! ## Printing -/

namespace Run

/-- The terminal decides what comes of printing. It has been given the text in any case. -/
theorem run_print (p : Printed) (desk : Desk) :
    (print p).run desk = (desk.terminal p, { desk with printed := desk.printed ++ [p] }) :=
  run_lift (desk.terminal p) { desk with printed := desk.printed ++ [p] }

theorem run_say (text : String) (desk : Desk) :
    (say text).run desk
      = (desk.terminal (.line text), { desk with printed := desk.printed ++ [.line text] }) :=
  run_print (.line text) desk

/-- A line is said exactly if the terminal shows it. -/
theorem run_say_eq_ok {text : String} {desk desk' : Desk} :
    (say text).run desk = (.ok (), desk') ↔ desk.terminal (.line text) = .ok () ∧
      { desk with printed := desk.printed ++ [.line text] } = desk' := by
  rw [run_say, Prod.mk.injEq]

theorem run_say_of_plain {desk : Desk} (h : desk.terminal = .plain) (text : String) :
    (say text).run desk = (.ok (), { desk with printed := desk.printed ++ [.line text] }) :=
  run_say_eq_ok.mpr ⟨congrFun h (.line text), rfl⟩

/-- Lines are printed up to the first that the terminal refuses, and then the fault is its fault. -/
theorem run_forM_say (lines : List String) (desk : Desk) :
    (∀ line ∈ lines, desk.terminal (.line line) = .ok ()) ∧
        (∃ desk', (lines.forM say).run desk = (.ok (), desk') ∧ desk'.terminal = desk.terminal) ∨
      ∃ line ∈ lines, ∃ fault desk', desk.terminal (.line line) = .error fault ∧
        (lines.forM say).run desk = (.error fault, desk') := by
  induction lines generalizing desk with
  | nil => exact Or.inl ⟨nofun, desk, rfl, rfl⟩
  | cons line rest ih =>
      have hrun := run_bind (say line) (fun _ => rest.forM say) desk
      rw [run_say] at hrun
      cases hline : desk.terminal (.line line) with
      | error fault =>
          rw [hline] at hrun
          exact Or.inr ⟨line, List.mem_cons_self .., fault, _, hline, hrun⟩
      | ok shown =>
          rw [hline] at hrun
          rw [List.forall_mem_cons]
          obtain ⟨hrest, desk', hrun', hsame⟩ | ⟨refused, hmem, fault, desk', hfault, hrun'⟩ :=
            ih { desk with printed := desk.printed ++ [.line line] }
          · exact Or.inl ⟨⟨hline, hrest⟩, desk', hrun.trans hrun', hsame⟩
          · exact Or.inr
              ⟨refused, List.mem_cons_of_mem _ hmem, fault, desk', hfault, hrun.trans hrun'⟩

end Run

/-! ## What a terminal shows -/

namespace Terminal

/-- The terminal shows every line whose marks come in pairs. -/
def ShowsWellMarked (t : Terminal) : Prop := ∀ text, WellMarked text → t (.line text) = .ok ()

/-- The terminal shows the lines about the findings of an outcome. -/
def ShowsFindings (t : Terminal) (o : Outcome) : Prop :=
  ∀ line ∈ shadowLines o.analysis o.review.event o.files, t (.line line) = .ok ()

theorem showsWellMarked_plain : plain.ShowsWellMarked := fun _ _ => rfl

end Terminal

/-! ## Lines about a review -/

theorem IsUnmarked.append {front back : String} (hfront : IsUnmarked front)
    (hback : IsUnmarked back) : IsUnmarked (front ++ back) := by
  intro c hc
  rw [String.toList_append, List.mem_append] at hc
  exact hc.elim (hfront c) (hback c)

/-- A number is written without marks. -/
theorem isUnmarked_toString (n : Nat) : IsUnmarked (toString n) := by
  intro c hc
  have hmem : c ∈ Number.digitsOf n := by simpa [Number.digitsOf] using hc
  have hdigit := Number.isDigit_of_mem_digitsOf hmem
  constructor <;> rintro rfl <;> exact absurd hdigit (by decide)

theorem ReviewEvent.isUnmarked_name (e : ReviewEvent) : IsUnmarked e.name := by
  cases e <;> decide

theorem Severity.isUnmarked_label (s : Severity) : IsUnmarked s.label := by
  cases s <;> decide

theorem Severity.color_mem_styles (s : Severity) : s.color ∈ styles := by
  cases s <;> decide

/-- A style around a text without marks. -/
theorem wellMarked_styled {style : String} (hstyle : style ∈ styles) {text : String}
    (h : IsUnmarked text) : WellMarked (s!"[{style}]" ++ text ++ s!"[/{style}]") :=
  .styled hstyle (.unmarked h)

/-- The line that says that a review was posted. -/
theorem wellMarked_posted (e : ReviewEvent) (n : Nat) :
    WellMarked (s!"\n[green]Review posted: {e.name}. " ++ s!"{n} inline comment(s).[/green]") := by
  have hposted : IsUnmarked "Review posted: " := by decide
  have hstop : IsUnmarked ". " := by decide
  have hcomments : IsUnmarked " inline comment(s)." := by decide
  have htext := (((hposted.append e.isUnmarked_name).append hstop).append
    (isUnmarked_toString n)).append hcomments
  have hbreak : IsUnmarked "\n" := by decide
  have hgreen : "green" ∈ styles := by decide
  have hline := (WellMarked.unmarked hbreak).append (wellMarked_styled hgreen htext)
  have hopen : "\n" ++ ("[" ++ ("green" ++ ("]" ++ "Review posted: ")))
      = "\n[green]Review posted: " := by decide
  have hclose : " inline comment(s)." ++ ("[/" ++ ("green" ++ "]"))
      = " inline comment(s).[/green]" := by decide
  simpa only [toString, String.append_assoc, ← hopen, ← hclose] using hline

/-- The line that says what would have been posted. -/
theorem wellMarked_wouldPost (e : ReviewEvent) (n : Nat) :
    WellMarked (s!"[bold]Shadow review complete. {n} inline comment(s) " ++
      s!"would be posted as {e.name}.[/bold]") := by
  have hcomplete : IsUnmarked "Shadow review complete. " := by decide
  have hcomments : IsUnmarked " inline comment(s) " := by decide
  have hevent : IsUnmarked "would be posted as " := by decide
  have hstop : IsUnmarked "." := by decide
  have htext := ((((hcomplete.append (isUnmarked_toString n)).append hcomments).append
    hevent).append e.isUnmarked_name).append hstop
  have hbold : "bold" ∈ styles := by decide
  have hline := wellMarked_styled hbold htext
  have hopen : "[" ++ ("bold" ++ ("]" ++ "Shadow review complete. "))
      = "[bold]Shadow review complete. " := by decide
  have hclose : "." ++ ("[/" ++ ("bold" ++ "]")) = ".[/bold]" := by decide
  simpa only [toString, String.append_assoc, ← hopen, ← hclose] using hline

/-! ## Lines about findings -/

/-- Nothing that is printed of the finding could be a mark. -/
structure Finding.WithoutMarks (files : List ChangedFile) (x : Finding) : Prop where
  file : IsUnmarked x.file.plain
  line : IsUnmarked x.line.plain
  rule : IsUnmarked x.ruleId.plain
  code : IsUnmarked (x.code files)
  title : IsUnmarked x.title.plain
  explanation : IsUnmarked x.explanation.plain

section

variable {files : List ChangedFile} {x : Finding} (h : x.WithoutMarks files)
include h

/-- The line with the place of a finding. -/
theorem Finding.WithoutMarks.wellMarked_place :
    WellMarked (s!"[bold cyan]{x.file.plain}[/bold cyan]  line [bold]{x.line.plain}[/bold]  " ++
      s!"[{x.severity.color}]{x.severity.label}[/{x.severity.color}]  [dim]{x.ruleId.plain}[/dim]")
    := by
  have hcyan : "bold cyan" ∈ styles := by decide
  have hbold : "bold" ∈ styles := by decide
  have hdim : "dim" ∈ styles := by decide
  have hword : IsUnmarked "  line " := by decide
  have hblank : IsUnmarked "  " := by decide
  have hfile := (wellMarked_styled hcyan h.file).append (.unmarked hword)
  have hline := (wellMarked_styled hbold h.line).append (.unmarked hblank)
  have hseverity := (wellMarked_styled x.severity.color_mem_styles
    x.severity.isUnmarked_label).append (.unmarked hblank)
  have hall := ((hfile.append hline).append hseverity).append (wellMarked_styled hdim h.rule)
  have hopen : "[" ++ ("bold cyan" ++ "]") = "[bold cyan]" := by decide
  have hbetween : "[/" ++ ("bold cyan" ++ ("]" ++ ("  line " ++ ("[" ++ ("bold" ++ "]")))))
      = "[/bold cyan]  line [bold]" := by decide
  have hbehind : "[/" ++ ("bold" ++ ("]" ++ "  ")) = "[/bold]  " := by decide
  have hrule : "]" ++ ("  " ++ ("[" ++ ("dim" ++ "]"))) = "]  [dim]" := by decide
  have hclose : "[/" ++ ("dim" ++ "]") = "[/dim]" := by decide
  simpa only [toString, String.append_assoc, ← hopen, ← hbetween, ← hbehind, ← hrule, ← hclose]
    using hall

/-- The line with the code of a finding. -/
theorem Finding.WithoutMarks.wellMarked_code : WellMarked s!"  [dim]{x.code files}[/dim]" := by
  have hdim : "dim" ∈ styles := by decide
  have hblank : IsUnmarked "  " := by decide
  have hall := (WellMarked.unmarked hblank).append (wellMarked_styled hdim h.code)
  have hopen : "  " ++ ("[" ++ ("dim" ++ "]")) = "  [dim]" := by decide
  have hclose : "[/" ++ ("dim" ++ "]") = "[/dim]" := by decide
  simpa only [toString, String.append_assoc, ← hopen, ← hclose] using hall

/-- In the lines of a finding without marks the marks come in pairs. -/
theorem Finding.WithoutMarks.wellMarked : ∀ line ∈ x.shadowLines files, WellMarked line := by
  have hindented {text : String} (htext : IsUnmarked text) : WellMarked s!"  {text}" :=
    .unmarked (IsUnmarked.append (by decide) htext)
  intro line hline
  rw [Finding.shadowLines, List.mem_append, List.mem_append] at hline
  obtain (hline | hline) | hline := hline
  · rw [List.mem_singleton.mp hline]
    exact h.wellMarked_place
  · split at hline
    · exact absurd hline List.not_mem_nil
    · rw [List.mem_singleton.mp hline]
      exact h.wellMarked_code
  · simp only [List.mem_cons, List.not_mem_nil, or_false] at hline
    obtain rfl | rfl | rfl := hline
    · exact hindented h.title
    · exact hindented h.explanation
    · exact .unmarked (by decide)

end

/-- The sentence about findings has no marks. -/
theorem isUnmarked_summarize (xs : List Finding) : IsUnmarked (summarize xs) := by
  unfold summarize
  split
  · decide
  · have hcount (s : Severity) {word : String} (hword : IsUnmarked word) :
        IsUnmarked (toString (countSeverity xs s) ++ word) := (isUnmarked_toString _).append hword
    have hfound : IsUnmarked "Multi-agent review found " := by decide
    have hissues : IsUnmarked " issue(s): " := by decide
    have hfirst := (hfound.append (isUnmarked_toString xs.length)).append hissues
    exact ((hfirst.append (hcount .critical (by decide))).append
      (hcount .warning (by decide))).append (hcount .info (by decide))

/-- **Where no finding has marks, the marks in the lines about the findings come in pairs.** -/
theorem wellMarked_shadowLines {a : Analysis} (event : ReviewEvent) {files : List ChangedFile}
    (hfindings : ∀ x ∈ a.findings, x.WithoutMarks files) (hsummary : IsUnmarked a.summary) :
    ∀ line ∈ shadowLines a event files, WellMarked line := by
  have hbold : "bold" ∈ styles := by decide
  have hgreen : "green" ∈ styles := by decide
  unfold shadowLines
  split
  · have hnone : "[" ++ "green" ++ "]" ++ "Shadow mode: no findings." ++ ("[/" ++ "green" ++ "]")
        = "[green]Shadow mode: no findings.[/green]" := by decide
    have htext : IsUnmarked "Shadow mode: no findings." := by decide
    exact List.forall_mem_singleton.mpr (hnone ▸ wellMarked_styled hgreen htext)
  · rw [List.forall_mem_append, List.forall_mem_append, List.forall_mem_singleton,
      List.forall_mem_singleton, List.forall_mem_flatMap]
    refine ⟨⟨?_, fun x hx => (hfindings x hx).wellMarked⟩, ?_⟩
    · have hreview : IsUnmarked "Shadow review: " := by decide
      have hevent : IsUnmarked " finding(s), event " := by decide
      have htext := ((hreview.append (isUnmarked_toString a.findings.length)).append hevent).append
        event.isUnmarked_name
      have hbreak : WellMarked "\n" := .unmarked (by decide)
      have hall := (hbreak.append (wellMarked_styled hbold htext)).append hbreak
      have hopen : "\n" ++ ("[" ++ ("bold" ++ ("]" ++ "Shadow review: ")))
          = "\n[bold]Shadow review: " := by decide
      have hclose : "[/" ++ ("bold" ++ ("]" ++ "\n")) = "[/bold]\n" := by decide
      simpa only [toString, String.append_assoc, ← hopen, ← hclose] using hall
    · have hopen : "[" ++ ("bold" ++ "]") = "[bold]" := by decide
      have hclose : "[/" ++ ("bold" ++ "]") = "[/bold]" := by decide
      simpa only [toString, String.append_assoc, ← hopen, ← hclose]
        using wellMarked_styled hbold hsummary

/-- Findings without marks are shown on every terminal that keeps its promise. -/
theorem Terminal.ShowsWellMarked.showsFindings {t : Terminal} (h : t.ShowsWellMarked) {o : Outcome}
    (hfindings : ∀ x ∈ o.analysis.findings, x.WithoutMarks o.files)
    (hsummary : IsUnmarked o.analysis.summary) : t.ShowsFindings o := fun line hline =>
  h line (wellMarked_shadowLines _ hfindings hsummary line hline)

end ReviewGate
