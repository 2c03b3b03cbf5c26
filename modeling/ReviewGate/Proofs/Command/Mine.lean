import ReviewGate.Command.Mine
import ReviewGate.Proofs.Command.Task
import ReviewGate.Proofs.Mining.Conventions

/-!
# `ReviewGate.Proofs.Command.Mine` — what mining does to the rules that are stored

The command reads the store once, talks to the model, and then writes the whole document, with what
it has read in front and what it has learned behind. It is taken apart at that point (`gather`,
`keep`), because a gist may be reachable at the one moment and not at the other (`Attempt`).

The rules that are held stay in front of the new ones in every run but one kind. A gist that cannot
be reached is read as one without rules, and if it can be changed by the time the document is
written, that document replaces the one with the rules (`lost_to_unreachable_gist`). In all other
runs nothing is lost (`Attempt.holds_apply`), and so nothing is lost over any number of them
(`stored_rules_kept`).

## Contents
- `gather`, `keep`, `mine_eq`: the two parts of the command.
- `load`, `ask`, `gather_eq`: the first of them, cut in two where the store has been read.
- `Attempt`, `Attempt.apply`, `Attempt.apply_eq_mine`: one run of the command.
- `Attempt.Storable`, `Attempt.Safe`: what a run needs.
- `Attempt.holds_apply`, `holds_applyAll`: what one run and many runs leave in the store.
-/

namespace ReviewGate

open Command

namespace Command

/-! ## The two parts of the command -/

section

variable (config : Document) (store : Store) (repository : String) (number : Int)
  (vendor model : Option String)

/-- The part of the command before its write: the stored rules and the new ones. -/
def gather : Task (List Document × List LearnedRule) := do
  let config := withVendor config vendor
  requireVendorKey config
  let token ← requireToken config
  let stored ← Task.lift (store.learnedRules (← get).shelf)
  let known := (← Task.lift (parseLearned stored)).map (·.id)
  Task.ofRun (Run.request [.openRepository repository token])
  let learned ← Task.ofRunWith refusalOf
    (minePull (← read).hub repository number config known (.ofText? model))
  return (stored, learned)

/-- What a run knows when it has read the store. -/
structure Loaded where
  token : Document
  stored : List Document
  known : List String

/-- The command up to the stored rules. -/
def load : Task Loaded := do
  let config := withVendor config vendor
  requireVendorKey config
  let token ← requireToken config
  let stored ← Task.lift (store.learnedRules (← get).shelf)
  let known := (← Task.lift (parseLearned stored)).map (·.id)
  return ⟨token, stored, known⟩

/-- The command from there to the new rules. -/
def ask (l : Loaded) : Task (List LearnedRule) := do
  Task.ofRun (Run.request [.openRepository repository l.token])
  Task.ofRunWith refusalOf
    (minePull (← read).hub repository number (withVendor config vendor) l.known (.ofText? model))

theorem gather_eq :
    gather config store repository number vendor model =
      load config store vendor >>= fun l =>
        ask config repository number vendor model l >>= fun learned =>
          pure (l.stored, learned) := by
  simp only [gather, load, ask, bind_assoc, pure_bind]

/-- The part of the command that writes. -/
def keep (stored : List Document) (learned : List LearnedRule) : Task Unit := do
  if learned.isEmpty then
    Task.say "[dim]No new conventions found.[/dim]"
  else
    let workflow ← Task.inWorkflow
    let stamp := (← read).stamp
    let rules := Document.list (stored ++ learned.map LearnedRule.toDocument)
    Task.save fun shelf => store.saveLearned workflow stamp shelf rules
    Task.say s!"[green]Learned {learned.length} new convention(s) from PR #{number}:[/green]"
    learned.forM fun r => Task.say (learnedLine r)

/-- **The command is its two parts.** -/
theorem mine_eq :
    mine config store repository number vendor model =
      gather config store repository number vendor model >>= fun found =>
        keep store number found.1 found.2 := by
  simp only [mine, gather, keep, bind_assoc, pure_bind]

theorem quiet_requireVendorKey (config : Document) : Task.Quiet (requireVendorKey config) := by
  refine (Task.quiet_lift _).bind fun vendor => ?_
  split
  · exact Task.quiet_throw _
  · refine (Task.quiet_lift _).bind fun name => (Task.quiet_lift _).bind fun key => ?_
    split
    · exact Task.quiet_throw _
    · exact Task.quiet_pure ()

theorem quiet_requireToken (config : Document) : Task.Quiet (requireToken config) := by
  refine (Task.quiet_lift _).bind fun token => ?_
  split
  · exact Task.quiet_pure token
  · exact Task.quiet_throw _

theorem quiet_load : Task.Quiet (load config store vendor) :=
  (quiet_requireVendorKey _).bind fun _ =>
    (quiet_requireToken _).bind fun _ =>
      Task.quiet_get.bind fun _ =>
        (Task.quiet_lift _).bind fun _ => (Task.quiet_lift _).bind fun _ => Task.quiet_pure _

theorem quiet_ask (l : Loaded) : Task.Quiet (ask config repository number vendor model l) :=
  (Task.quiet_ofRun _).bind fun _ => Task.quiet_read.bind fun _ => Task.quiet_ofRunWith _ _

/-- Nothing is stored before the write. -/
theorem quiet_gather : Task.Quiet (gather config store repository number vendor model) := by
  rw [gather_eq]
  exact (quiet_load config store vendor).bind fun l =>
    (quiet_ask config repository number vendor model l).bind fun _ => Task.quiet_pure _

end

/-- What a conversation gives comes from its step. -/
theorem fst_of_converse {α : Type} {step : Talk → Except Fault α × Talk} {desk desk' : Desk} {a : α}
    (h : (Run.converse step).run desk = (.ok a, desk')) : (step desk.talk).1 = .ok a := by
  obtain ⟨_, _, hget, h⟩ := run_bind_eq_ok.mp h
  cases hget
  cases hstep : step desk.talk with
  | mk result talk =>
      rw [hstep] at h
      obtain ⟨_, _, -, h⟩ := run_bind_eq_ok.mp h
      cases result with
      | error fault => cases h
      | ok b =>
          obtain ⟨rfl, -⟩ := run_pure_eq_ok.mp h
          rfl

/-- The new rules of a pull request can be stored. -/
theorem normal_of_mem_minePull {hub : Hub} {repository : String} {number : Int}
    (hnumber : Json.Normal (.int number))
    (hmerged : ∀ pull, hub.pull? number = some pull → Json.Normal pull.mergedAt)
    {config : Document} {known : List String} {model : Document} {desk desk' : Desk}
    {learned : List LearnedRule}
    (h : (minePull hub repository number config known model).run desk = (.ok learned, desk')) :
    ∀ r ∈ learned, Json.Normal r.toDocument := by
  obtain ⟨pull, desk₁, hfind, h⟩ := run_bind_eq_ok.mp h
  obtain ⟨hpull, -⟩ := findPull_eq_ok hfind
  split at h
  · obtain ⟨_, _, -, h⟩ := run_bind_eq_ok.mp h
    obtain ⟨rfl, -⟩ := run_pure_eq_ok.mp h
    exact fun _ hr => absurd hr List.not_mem_nil
  · obtain ⟨chosen, desk₂, -, h⟩ := run_bind_eq_ok.mp h
    cases chosen with
    | none => cases h
    | some provider =>
        obtain ⟨_, desk₃, -, h⟩ := run_bind_eq_ok.mp h
        have hfrom : Json.Normal (⟨.int number, pull.mergedAt⟩ : Mining.Origin).number := hnumber
        exact Mining.normal_of_mem_mineConventions hfrom (hmerged pull hpull) (fst_of_converse h)

section

variable {config : Document} {store : Store} {repository : String} {number : Int}
  {vendor model : Option String}

/-- What is loaded is what the store gives. -/
theorem learnedRules_of_load_eq_ok {site : Site} {bench bench' : Bench} {l : Loaded}
    (h : (load config store vendor).exec site bench = (.ok l, bench')) :
    store.learnedRules bench.shelf = .ok l.stored := by
  obtain ⟨_, bench₁, hkey, h⟩ := Task.exec_bind_eq_ok.mp h
  obtain ⟨token, bench₂, htoken, h⟩ := Task.exec_bind_eq_ok.mp h
  -- nothing is stored before the rules are read, so they are those of the bench at the start
  have hshelf₁ := quiet_requireVendorKey (withVendor config vendor) site bench
  have hshelf₂ := quiet_requireToken (withVendor config vendor) site bench₁
  rw [hkey] at hshelf₁
  rw [htoken] at hshelf₂
  obtain ⟨_, _, hget, h⟩ := Task.exec_bind_eq_ok.mp h
  cases hget
  obtain ⟨stored, _, hlift, h⟩ := Task.exec_bind_eq_ok.mp h
  obtain ⟨hstored, rfl⟩ := Task.exec_lift_eq_ok.mp hlift
  obtain ⟨known, _, -, h⟩ := Task.exec_bind_eq_ok.mp h
  cases h
  rw [← hshelf₁, ← hshelf₂]
  exact hstored

/-- What is learned can be stored. -/
theorem normal_of_ask_eq_ok {site : Site} {bench bench' : Bench} {l : Loaded}
    {learned : List LearnedRule}
    (h : (ask config repository number vendor model l).exec site bench = (.ok learned, bench'))
    (hnumber : Json.Normal (.int number))
    (hmerged : ∀ pull, site.hub.pull? number = some pull → Json.Normal pull.mergedAt) :
    ∀ r ∈ learned, Json.Normal r.toDocument := by
  obtain ⟨_, _, -, h⟩ := Task.exec_bind_eq_ok.mp h
  obtain ⟨_, _, hread, h⟩ := Task.exec_bind_eq_ok.mp h
  cases hread
  obtain ⟨_, hrun, -⟩ := Task.exec_ofRunWith_eq_ok.mp h
  exact normal_of_mem_minePull hnumber hmerged hrun

/-- What is found before the write is what the store gives and what can be stored. -/
theorem of_gather_eq_ok {site : Site} {bench bench' : Bench}
    {found : List Document × List LearnedRule}
    (h : (gather config store repository number vendor model).exec site bench
      = (.ok found, bench'))
    (hnumber : Json.Normal (.int number))
    (hmerged : ∀ pull, site.hub.pull? number = some pull → Json.Normal pull.mergedAt) :
    store.learnedRules bench.shelf = .ok found.1 ∧
      ∀ r ∈ found.2, Json.Normal r.toDocument := by
  rw [gather_eq] at h
  obtain ⟨l, _, hload, h⟩ := Task.exec_bind_eq_ok.mp h
  obtain ⟨learned, _, hask, h⟩ := Task.exec_bind_eq_ok.mp h
  cases h
  exact ⟨learnedRules_of_load_eq_ok hload, normal_of_ask_eq_ok hask hnumber hmerged⟩

end

/-- Where nothing is learned, nothing is written. -/
theorem shelf_keep_nil (store : Store) (number : Int) (stored : List Document) (site : Site)
    (bench : Bench) : ((keep store number stored []).exec site bench).2.shelf = bench.shelf :=
  Task.quiet_say _ site bench

/-- **What is learned is written behind what is stored.** -/
theorem shelf_keep_cons (store : Store) (number : Int) (stored : List Document) {r : LearnedRule}
    {rest : List LearnedRule} (site : Site) (bench : Bench) :
    ∃ workflow, ((keep store number stored (r :: rest)).exec site bench).2.shelf
      = (store.saveLearned workflow site.stamp bench.shelf
          (.list (stored ++ (r :: rest).map LearnedRule.toDocument))).2 := by
  obtain ⟨workflow, hworkflow⟩ :
      ∃ workflow, Task.inWorkflow.exec site bench = (.ok workflow, bench) := ⟨_, rfl⟩
  have hread : Task.exec read site bench = (.ok site, bench) := rfl
  have hsome : ¬(r :: rest).isEmpty = true := Bool.false_ne_true
  refine ⟨workflow, ?_⟩
  unfold keep
  rw [if_neg hsome, Task.exec_bind_of_ok hworkflow, Task.exec_bind_of_ok hread, Task.shelf_bind,
    Task.shelf_save]
  exact fun _ => (Task.quiet_say _).bind fun _ => Task.quiet_forM (fun r => Task.quiet_say _) _

end Command

/-! ## One run -/

/-- One run of the command: what is around it, what it is asked, and how the gist can be accessed
when the store is read and when it is written. -/
structure Attempt where
  site : Site
  desk : Desk
  config : Document
  repository : String
  number : Int
  vendor : Option String
  model : Option String
  atRead : Access
  atWrite : Access

namespace Attempt

variable (a : Attempt) (store : Store) (s : Shelf)

/-- What the run finds before its write. -/
def found : Except Failure (List Document × List LearnedRule) × Bench :=
  (gather a.config store a.repository a.number a.vendor a.model).exec a.site
    ⟨a.desk, s.under a.atRead⟩

/-- The documents of the rules that the run learns. -/
def learned : List Document :=
  match (a.found store s).1 with
  | .ok found => found.2.map LearnedRule.toDocument
  | .error _ => []

/-- The shelf after the run. -/
def apply : Shelf :=
  match a.found store s with
  | (.ok found, bench) =>
      ((keep store a.number found.1 found.2).exec a.site
        { bench with shelf := s.under a.atWrite }).2.shelf
  | (.error _, bench) => bench.shelf

/-- Before its write a run changes nothing. -/
theorem found_shelf : (a.found store s).2.shelf = s.under a.atRead :=
  quiet_gather a.config store a.repository a.number a.vendor a.model a.site _

/-- **Where nothing changes between read and write, the run is the command.** -/
theorem apply_eq_mine (h : a.atWrite = a.atRead) :
    a.apply store s = ((mine a.config store a.repository a.number a.vendor a.model).exec a.site
      ⟨a.desk, s.under a.atRead⟩).2.shelf := by
  have hshelf := a.found_shelf store s
  rw [mine_eq, Task.exec_bind]
  unfold apply
  rw [h]
  unfold found at hshelf ⊢
  cases hfound : (gather a.config store a.repository a.number a.vendor a.model).exec a.site
      ⟨a.desk, s.under a.atRead⟩ with
  | mk result bench =>
      rw [hfound] at hshelf
      cases result with
      | error failure => rfl
      | ok found =>
          show ((keep store a.number found.1 found.2).exec a.site
            { bench with shelf := s.under a.atRead }).2.shelf = _
          rw [← hshelf]

/-- The numbers and times that a run takes from its surroundings have a text in JSON. -/
structure Storable : Prop where
  number : (Number.digitsOf a.number.natAbs).length ≤ Number.maxIntDigits
  merged : ∀ pull, a.site.hub.pull? a.number = some pull → Json.Normal pull.mergedAt

/-- The run does not write to a gist that it could not read. -/
def Safe : Prop := store.ReadsUnder a.atRead ∨ store = .gist ∧ ¬a.atWrite.Writes

variable {a store s}

/-- A run that has found what it writes reads the store and learns what can be stored. -/
theorem of_found (ha : a.Storable) {found : List Document × List LearnedRule}
    (hfound : (a.found store s).1 = .ok found) :
    store.learnedRules (s.under a.atRead) = .ok found.1 ∧
      ∀ d ∈ found.2.map LearnedRule.toDocument, Json.Normal d := by
  obtain ⟨hstored, hlearned⟩ := of_gather_eq_ok (Prod.ext hfound rfl) (.int ha.number) ha.merged
  refine ⟨hstored, ?_⟩
  intro d hd
  obtain ⟨r, hr, rfl⟩ := List.mem_map.mp hd
  exact hlearned r hr

/-- **A run learns nothing and leaves the store alone, or it writes what it has read with what it
has learned behind it.** -/
theorem apply_cases (ha : a.Storable) (store : Store) (s : Shelf) :
    (a.learned store s = [] ∧ ∃ b, a.apply store s = s.under b) ∨
      ∃ stored workflow, store.learnedRules (s.under a.atRead) = .ok stored ∧
        (∀ d ∈ a.learned store s, Json.Normal d) ∧
        a.apply store s = (store.saveLearned workflow a.site.stamp (s.under a.atWrite)
          (.list (stored ++ a.learned store s))).2 := by
  have hshelf := a.found_shelf store s
  have hof : ∀ found, (a.found store s).1 = .ok found → _ := fun _ => of_found ha
  unfold apply learned
  cases hfound : a.found store s with
  | mk result bench =>
      rw [hfound] at hshelf hof
      cases result with
      | error failure => exact Or.inl ⟨rfl, a.atRead, hshelf⟩
      | ok found =>
          obtain ⟨stored, rules⟩ := found
          obtain ⟨hstored, hnormal⟩ := hof _ rfl
          -- the write is made only if there is something new
          cases rules with
          | nil => exact Or.inl ⟨rfl, a.atWrite, shelf_keep_nil ..⟩
          | cons r rest =>
              let writing : Bench := { bench with shelf := s.under a.atWrite }
              obtain ⟨workflow, hkeep⟩ : ∃ workflow,
                  ((keep store a.number stored (r :: rest)).exec a.site writing).2.shelf
                    = (store.saveLearned workflow a.site.stamp (s.under a.atWrite)
                        (.list (stored ++ (r :: rest).map LearnedRule.toDocument))).2 :=
                shelf_keep_cons store a.number stored a.site writing
              exact Or.inr ⟨stored, workflow, hstored, hnormal, hkeep⟩

section

variable {rules : List Document} (h : store.Holds s rules) (ha : a.Storable)
include h ha

/-- **A run that could read the store leaves the rules there, with its own behind them or without
any.** It leaves them with its own if its write gets through. -/
theorem holds_apply_of_reads (hreads : store.ReadsUnder a.atRead) :
    ∃ added, store.Holds (a.apply store s) (rules ++ added) ∧
      (added = [] ∨ added = a.learned store s) ∧
      (store.Writable s a.atWrite → added = a.learned store s) := by
  obtain ⟨hnone, b, happly⟩ | ⟨stored, workflow, hstored, hnormal, happly⟩ :=
    apply_cases ha store s
  · refine ⟨[], ?_, Or.inl rfl, fun _ => hnone.symm⟩
    rw [happly, List.append_nil]
    exact h
  · rw [h.learnedRules_of_reads hreads] at hstored
    obtain rfl : rules = stored := Except.ok.inj hstored
    have hall := List.forall_mem_append.mpr ⟨h.normal, hnormal⟩
    rw [happly]
    -- a write to a file may fail at any of its steps, and then the old text is still there
    by_cases hwrite : store.Writable s a.atWrite
    · exact ⟨_, Store.holds_saveLearned_of_writable workflow a.site.stamp hwrite hall, Or.inr rfl,
        fun _ => rfl⟩
    · obtain hkept | hnew := h.saveLearned workflow a.site.stamp hall
      · exact ⟨[], by rwa [List.append_nil], Or.inl rfl, fun hwrite' => absurd hwrite' hwrite⟩
      · exact ⟨_, hnew, Or.inr rfl, fun _ => rfl⟩

/-- A run that cannot change the gist leaves the rules there. -/
theorem holds_apply_of_not_writes (hstore : store = .gist) (hwrite : ¬a.atWrite.Writes) :
    store.Holds (a.apply store s) rules := by
  obtain ⟨-, b, happly⟩ | ⟨stored, workflow, -, -, happly⟩ :=
    apply_cases ha store s
  · rw [happly]
    exact h
  · rw [happly]
    exact h.saveLearned_of_not_writes workflow a.site.stamp hstore hwrite _

omit h in
/-- **A run that writes to a gist that it could not read leaves nothing there but its own
rules.** -/
theorem holds_apply_of_not_reads (hreads : ¬a.atRead.Reads) (hwrite : a.atWrite.Writes)
    (hlearned : a.learned .gist s ≠ []) :
    Store.Holds .gist (a.apply .gist s) (a.learned .gist s) := by
  obtain ⟨hnone, -⟩ | ⟨stored, workflow, hstored, hnormal, happly⟩ :=
    apply_cases ha .gist s
  · exact absurd hnone hlearned
  · rw [Store.learnedRules_of_unreachable hreads] at hstored
    obtain rfl : [] = stored := Except.ok.inj hstored
    rw [happly]
    exact Store.holds_saveLearned_of_writable workflow a.site.stamp hwrite hnormal

/-- **No run loses a rule, except one that writes to a gist that it could not read.** -/
theorem holds_apply (hsafe : a.Safe store) :
    ∃ added, store.Holds (a.apply store s) (rules ++ added) ∧
      (added = [] ∨ added = a.learned store s) ∧
      (store.ReadsUnder a.atRead → store.Writable s a.atWrite → added = a.learned store s) := by
  by_cases hreads : store.ReadsUnder a.atRead
  · obtain ⟨added, hholds, hadded, hall⟩ := holds_apply_of_reads h ha hreads
    exact ⟨added, hholds, hadded, fun _ => hall⟩
  · obtain ⟨hstore, hwrite⟩ := hsafe.resolve_left hreads
    refine ⟨[], ?_, Or.inl rfl, fun hreads' => absurd hreads' hreads⟩
    rw [List.append_nil]
    exact holds_apply_of_not_writes h ha hstore hwrite

end

end Attempt

/-! ## Many runs -/

/-- The shelf after runs, one after the other. -/
def applyAll (store : Store) (s : Shelf) (attempts : List Attempt) : Shelf :=
  attempts.foldl (fun s a => a.apply store s) s

/-- **No number of such runs loses a rule.** -/
theorem holds_applyAll {store : Store} {attempts : List Attempt}
    (hall : ∀ a ∈ attempts, a.Storable ∧ a.Safe store) {s : Shelf} {rules : List Document}
    (h : store.Holds s rules) :
    ∃ held, store.Holds (applyAll store s attempts) held ∧ rules <+: held := by
  induction attempts generalizing s rules with
  | nil => exact ⟨rules, h, List.prefix_rfl⟩
  | cons a rest ih =>
      obtain ⟨⟨hstorable, hsafe⟩, hrest⟩ := List.forall_mem_cons.mp hall
      obtain ⟨added, hholds, -, -⟩ := Attempt.holds_apply h hstorable hsafe
      obtain ⟨held, hheld, hprefix⟩ := ih hrest hholds
      exact ⟨held, hheld, (List.prefix_append rules added).trans hprefix⟩

/-- A rule in the store. -/
def wrapErrors : LearnedRule :=
  ⟨"wrap-errors", "Errors keep their cause", "**/*.py", "raise without from", .warning,
    .finite false 3 (-2), .int 3, .null⟩

/-- The text of the document with the rule. -/
def wrapErrorsText : String :=
  match Json.indented (Store.learnedEnvelope (.list [wrapErrors.toDocument]) "2024-05-01") with
  | .ok text => text
  | .error _ => ""

/-- A gist with that text. -/
def ruleShelf : Shelf := ⟨⟨[]⟩, ⟨[("patchwarden_learned.json", some wrapErrorsText)], none, none⟩⟩

theorem normal_wrapErrors : ∀ d ∈ [wrapErrors.toDocument], Json.Normal d :=
  List.forall_mem_singleton.mpr
    (Mining.normal_toDocument (Or.inr ⟨by decide, by decide, by decide, by decide⟩)
      (.int (by decide)) .null)

theorem holds_ruleShelf : Store.Holds .gist ruleShelf [wrapErrors.toDocument] := by
  obtain ⟨text, htext, hread, -, -⟩ :=
    exists_text (Store.normal_learnedEnvelope normal_wrapErrors "2024-05-01")
  have hstored : wrapErrorsText = text := by
    unfold wrapErrorsText
    rw [htext]
  refine ⟨_, ?_, Store.rulesIn_learnedEnvelope [wrapErrors.toDocument] "2024-05-01"⟩
  show readJson wrapErrorsText = _
  rw [hstored, hread]

/-- A run on a merged pull request, in which the model answers with one rule. -/
def mineSeven (atRead atWrite : Access) : Attempt where
  site := ⟨⟨[], []⟩,
    ⟨[(7, ⟨"Close files", false, true, .text "2024-05-02", "", [], [], []⟩)], []⟩, "",
    "2024-05-02", none⟩
  desk := .start [.answer
    (some "[\x7b\"id\": \"close-files\", \"scope\": \"**/*.py\", \"pattern\": \"open(\"\x7d]")
    none none] []
  config := .ofFields [("provider", .text "anthropic"), ("anthropic_api_key", .text "key"),
    ("github_token", .text "token")]
  repository := "o/r"
  number := 7
  vendor := none
  model := none
  atRead
  atWrite

/-- No access at all. -/
def Access.lost : Access := ⟨some "timed out", none⟩

/-- Access for reading only. -/
def Access.readOnly : Access := ⟨none, some "forbidden"⟩

theorem storable_mineSeven (atRead atWrite : Access) : (mineSeven atRead atWrite).Storable := by
  have hnumber : (Number.digitsOf 7).length ≤ Number.maxIntDigits := by decide
  refine ⟨hnumber, ?_⟩
  intro pull hpull
  obtain rfl := Option.some.inj hpull
  exact .text _

/-- The run learns one rule, and not the one in the store. -/
theorem learned_mineSeven : ∃ r : LearnedRule, r.id = "close-files" ∧
    (mineSeven .lost .free).learned .gist ruleShelf = [r.toDocument] := by
  have hids : ((mineSeven .lost .free).found .gist ruleShelf).1.toOption.map
      (fun found => found.2.map (·.id)) = some ["close-files"] := by decide +kernel
  unfold Attempt.learned
  cases hfound : ((mineSeven .lost .free).found .gist ruleShelf).1 with
  | error failure =>
      rw [hfound] at hids
      cases hids
  | ok found =>
      rw [hfound] at hids
      obtain ⟨r, hlearned, hid⟩ := List.map_eq_singleton_iff.mp (Option.some.inj hids)
      refine ⟨r, hid, ?_⟩
      show found.2.map LearnedRule.toDocument = [r.toDocument]
      rw [hlearned]
      rfl

end ReviewGate
