import Mathlib.Data.List.Forall2
import ReviewGate.Proofs.Document.Key
import ReviewGate.Proofs.Document.Order
import ReviewGate.Proofs.Document.Plain
import ReviewGate.Proofs.Sequence
import ReviewGate.SoftRule.Answer

/-!
# `ReviewGate.Proofs.SoftRule.Answer` — what becomes of a model's answer

A model may answer anything, so each entry of an answer is looked at on its own. One that names no
rule, no file that was asked about, no line or no title is dropped, and every other gives a finding
(`findingOf?_of_isComplete`); neither depends on the entries beside it (`findingsOf_append`).

There is one exception. Files are looked up among those that are known and rules among those with a
severity, and a list or a mapping cannot be looked up at all. An entry that has one in such a place
(`IsStuck`) is not dropped: it takes the whole answer with it (`unreadable_file_stops_answer`).

## Contents
- `ruleIdIn`: the rule that an entry names.
- `isComplete`, `IsStuck`: entries that give a finding and entries that stop the answer.
- `Tells`, `findingOf?_of_isStuck`, `exists_findingOf?`: what becomes of one entry.
- `findingsOf_append`, `findingsOf_cases`: what becomes of an answer.
- `malformed_entries_dropped`: only stuck entries are not dropped.
-/

namespace ReviewGate.SoftRule

/-! ## Entries -/

/-- The rule that an entry names, under either name. -/
def ruleIdIn (entry : Document) : Document :=
  (entry.fieldIn "rule_id").orElse (entry.fieldIn "ruleId")

/-- Does the value name a severity? -/
def namesSeverity (d : Document) : Bool := Severity.all.any fun s => d.isText s.name

/-- Does the entry have a rule, a known file, a line and a title? -/
def isComplete (known : List String) (entry : Document) : Bool :=
  (ruleIdIn entry).truthy && known.any (entry.fieldIn "file").isText &&
    isLine (entry.fieldIn "line") && (entry.fieldIn "title").truthy

/-- The entry names a rule, and its file can be no key; or it is complete without a severity, and its
rule can be no key. -/
def IsStuck (known : List String) (entry : Document) : Prop :=
  (ruleIdIn entry).truthy = true ∧
    ((entry.fieldIn "file").key? = none ∨
      isComplete known entry = true ∧ namesSeverity (entry.fieldIn "severity") = false ∧
        (ruleIdIn entry).key? = none)

/-- The finding says what the entry says. Its severity is the one that the entry names; if the entry
names none, it is that of the rule, or a warning. -/
structure Tells (severities : Severities) (entry : Document) (x : Finding) : Prop where
  ruleId : x.ruleId = .text (ruleIdIn entry).plain
  file : x.file = entry.fieldIn "file"
  line : x.line = entry.fieldIn "line"
  title : x.title = .text (entry.fieldIn "title").plain
  ownSeverity : ∀ s : Severity, entry.fieldIn "severity" = .text s.name → x.severity = s
  ruleSeverity : namesSeverity (entry.fieldIn "severity") = false → x.severity = .warning ∨
    ∃ id, ruleIdIn entry = .text id ∧ severities.lookup id = some x.severity

variable (known : List String) (severities : Severities) {entry : Document}

theorem findingOf?_eq (entry : Document) :
    findingOf? known severities entry = (do
      if !(ruleIdIn entry).truthy then return none
      if !(← isKnown known (entry.fieldIn "file")) then return none
      if !isLine (entry.fieldIn "line") || !(entry.fieldIn "title").truthy then return none
      return some {
        ruleId := .text (ruleIdIn entry).plain
        severity := ← severityOf severities (ruleIdIn entry) (entry.fieldIn "severity")
        file := entry.fieldIn "file"
        line := entry.fieldIn "line"
        title := .text (entry.fieldIn "title").plain
        explanation := .text ((entry.fieldIn "explanation").orElse (entry.fieldIn "title")).plain
        suggestion := (entry.fieldIn "suggestion").orElse .null
        category := .text "semantic"
        agent := .text "semantic-agent"
        evidence := .null }) := by
  cases entry <;> rfl

/-! ## Look-ups -/

theorem isKnown_of_key?_none {path : Document} (h : path.key? = none) :
    isKnown known path = .error .wrongKind := by
  unfold isKnown Document.keyOf
  rw [h]
  rfl

/-- A file that can be looked up is known if its name is that of a known one. -/
theorem isKnown_of_key?_some {path : Document} {k : Document.Key} (h : path.key? = some k) :
    isKnown known path = .ok (known.any path.isText) := by
  unfold isKnown Document.keyOf
  rw [h]
  cases k with
  | text s =>
      obtain rfl := isText_iff.mp (isText_iff_key?.mpr h)
      exact congrArg Except.ok List.contains_eq_any_beq
  | _ =>
      -- a value with another key is no text
      have hno : known.any path.isText = false := by
        rw [List.any_eq_false]
        intro s _ hs
        rw [isText_iff_key?, h] at hs
        cases hs
      rw [hno]
      rfl

theorem severityOf_name (id : Document) (s : Severity) :
    severityOf severities id (.text s.name) = .ok s := by
  cases s <;> rfl

/-- Without a severity of its own, an entry has that of its rule. -/
theorem severityOf_of_unnamed {d : Document} (h : namesSeverity d = false) (id : Document) :
    severityOf severities id d = severityUnder severities id := by
  unfold severityOf
  split
  · next name =>
    split
    · next s hs =>
      have hfind : Severity.all.find? (fun t => t.name == name) = some s := hs
      have htest := List.find?_some hfind
      have hname : s.name = name := beq_iff_eq.mp htest
      have hnames : namesSeverity (.text name) = true := by
        rw [← hname]
        cases s <;> rfl
      rw [hnames] at h
      cases h
    · rfl
  · rfl

theorem eq_name_of_namesSeverity {d : Document} (h : namesSeverity d = true) :
    ∃ s : Severity, d = .text s.name := by
  obtain ⟨s, -, hs⟩ := List.any_eq_true.mp h
  exact ⟨s, isText_iff.mp hs⟩

theorem severityUnder_of_key?_none {id : Document} (h : id.key? = none) :
    severityUnder severities id = .error .wrongKind := by
  unfold severityUnder Document.keyOf
  rw [h]
  rfl

/-- A rule that can be looked up has a severity, that in the table or that of a warning. -/
theorem exists_severityUnder {id : Document} {k : Document.Key} (h : id.key? = some k) :
    ∃ s, severityUnder severities id = .ok s ∧
      (s = .warning ∨ ∃ name, id = .text name ∧ severities.lookup name = some s) := by
  unfold severityUnder Document.keyOf
  rw [h]
  cases k with
  | text name =>
      obtain rfl := isText_iff.mp (isText_iff_key?.mpr h)
      refine ⟨_, rfl, ?_⟩
      cases hlookup : severities.lookup name with
      | none => exact .inl rfl
      | some s => exact .inr ⟨name, rfl, hlookup⟩
  | _ => exact ⟨_, rfl, .inl rfl⟩

/-! ## One entry -/

/-- **A stuck entry is not dropped.** -/
theorem findingOf?_of_isStuck (h : IsStuck known entry) :
    findingOf? known severities entry = .error .wrongKind := by
  obtain ⟨hrule, hfile | ⟨hcomplete, hseverity, hkey⟩⟩ := h
  · rw [findingOf?_eq, isKnown_of_key?_none known hfile, hrule]
    rfl
  · unfold isComplete at hcomplete
    simp only [Bool.and_eq_true] at hcomplete
    obtain ⟨⟨⟨-, hfile⟩, hline⟩, htitle⟩ := hcomplete
    obtain ⟨path, -, hpath⟩ := List.any_eq_true.mp hfile
    rw [findingOf?_eq, isKnown_of_key?_some known (isText_iff_key?.mp hpath), hrule, hfile, hline,
      htitle, severityOf_of_unnamed severities hseverity, severityUnder_of_key?_none severities hkey]
    rfl

/-- An entry that is neither complete nor stuck is dropped. -/
theorem findingOf?_of_incomplete (hstuck : ¬IsStuck known entry)
    (hcomplete : isComplete known entry = false) :
    findingOf? known severities entry = .ok none := by
  rw [findingOf?_eq]
  cases hrule : (ruleIdIn entry).truthy with
  | false => rfl
  | true =>
      cases hfile : (entry.fieldIn "file").key? with
      | none => exact absurd ⟨hrule, .inl hfile⟩ hstuck
      | some k =>
          rw [isKnown_of_key?_some known hfile]
          unfold isComplete at hcomplete
          rw [hrule, Bool.true_and] at hcomplete
          cases hknown : known.any (entry.fieldIn "file").isText with
          | false => rfl
          | true =>
              rw [hknown, Bool.true_and] at hcomplete
              -- line and title are tested together, after the file has been looked up
              have hmissing : (!isLine (entry.fieldIn "line") ||
                  !(entry.fieldIn "title").truthy) = true := by
                rw [← Bool.not_and, hcomplete]
                rfl
              show (if (!isLine _ || !Document.truthy _) = true then _ else _) = _
              rw [if_pos hmissing]
              rfl

/-- **A complete entry gives a finding that says what it says**, unless it is stuck. -/
theorem findingOf?_of_isComplete (hstuck : ¬IsStuck known entry)
    (hcomplete : isComplete known entry = true) :
    ∃ x, findingOf? known severities entry = .ok (some x) ∧ Tells severities entry x := by
  have hparts := hcomplete
  unfold isComplete at hparts
  simp only [Bool.and_eq_true] at hparts
  obtain ⟨⟨⟨hrule, hfile⟩, hline⟩, htitle⟩ := hparts
  obtain ⟨path, -, hpath⟩ := List.any_eq_true.mp hfile
  obtain ⟨severity, hseverity, hown, hunder⟩ :
      ∃ v, severityOf severities (ruleIdIn entry) (entry.fieldIn "severity") = .ok v ∧
        (∀ s : Severity, entry.fieldIn "severity" = .text s.name → v = s) ∧
        (namesSeverity (entry.fieldIn "severity") = false → v = .warning ∨
          ∃ id, ruleIdIn entry = .text id ∧ severities.lookup id = some v) := by
    cases hnames : namesSeverity (entry.fieldIn "severity") with
    | true =>
        obtain ⟨s, hs⟩ := eq_name_of_namesSeverity hnames
        refine ⟨s, by rw [hs, severityOf_name], fun t ht => ?_, nofun⟩
        rw [hs] at ht
        cases s <;> cases t <;> simp_all [Severity.name]
    | false =>
        -- the rule is looked up only now, and only a stuck entry has one that cannot be
        cases hkey : (ruleIdIn entry).key? with
        | none => exact absurd ⟨hrule, .inr ⟨hcomplete, hnames, hkey⟩⟩ hstuck
        | some k =>
            obtain ⟨v, hv, hlookup⟩ := exists_severityUnder severities hkey
            refine ⟨v, by rw [severityOf_of_unnamed severities hnames, hv], fun t ht => ?_,
              fun _ => hlookup⟩
            rw [ht] at hnames
            cases t <;> cases hnames
  rw [findingOf?_eq, isKnown_of_key?_some known (isText_iff_key?.mp hpath), hrule, hfile, hline,
    htitle, hseverity]
  exact ⟨_, rfl, ⟨rfl, rfl, rfl, rfl, hown, hunder⟩⟩

/-- An entry that is not stuck gives a finding if it is complete and nothing if it is not. -/
theorem exists_findingOf? (hstuck : ¬IsStuck known entry) :
    ∃ first, findingOf? known severities entry = .ok first ∧
      List.Forall₂ (Tells severities) ([entry].filter (isComplete known)) first.toList := by
  cases hcomplete : isComplete known entry with
  | false =>
      have hnone : [entry].filter (isComplete known) = [] :=
        List.filter_cons_of_neg (Bool.not_eq_true _ ▸ hcomplete)
      rw [hnone]
      exact ⟨none, findingOf?_of_incomplete known severities hstuck hcomplete, .nil⟩
  | true =>
      obtain ⟨x, hx, htells⟩ := findingOf?_of_isComplete known severities hstuck hcomplete
      have hone : [entry].filter (isComplete known) = [entry] := List.filter_cons_of_pos hcomplete
      rw [hone]
      exact ⟨some x, hx, .cons htells .nil⟩

/-! ## An answer -/

/-- **The findings of entries are those of the first ones followed by those of the others.** -/
theorem findingsOf_append (xs ys : List Document) :
    findingsOf known severities (.list (xs ++ ys)) = (do
      let first ← findingsOf known severities (.list xs)
      let others ← findingsOf known severities (.list ys)
      return first ++ others) := by
  unfold findingsOf
  dsimp only
  rw [List.mapM_append]
  cases xs.mapM (findingOf? known severities) with
  | error fault => rfl
  | ok first =>
      cases ys.mapM (findingOf? known severities) with
      | error fault => rfl
      | ok others => exact congrArg Except.ok List.filterMap_append

theorem findingsOf_cons (entries : List Document) :
    findingsOf known severities (.list (entry :: entries)) = (do
      let first ← findingOf? known severities entry
      let others ← findingsOf known severities (.list entries)
      return first.toList ++ others) := by
  unfold findingsOf
  dsimp only
  rw [List.mapM_cons]
  cases findingOf? known severities entry with
  | error fault => rfl
  | ok first =>
      cases entries.mapM (findingOf? known severities) with
      | error fault => cases first <;> rfl
      | ok others => cases first <;> rfl

/-- **The complete entries of an answer give its findings, in order.** Where there are none, it is
because of a stuck entry. -/
theorem findingsOf_cases (entries : List Document) :
    ((∀ e ∈ entries, ¬IsStuck known e) ∧ ∃ found,
      findingsOf known severities (.list entries) = .ok found ∧
        List.Forall₂ (Tells severities) (entries.filter (isComplete known)) found) ∨
    (∃ e ∈ entries, IsStuck known e) ∧
      findingsOf known severities (.list entries) = .error .wrongKind := by
  induction entries with
  | nil => exact .inl ⟨fun _ he => absurd he List.not_mem_nil, [], rfl, .nil⟩
  | cons entry rest ih =>
      rw [findingsOf_cons]
      by_cases hstuck : IsStuck known entry
      · rw [findingOf?_of_isStuck known severities hstuck]
        exact .inr ⟨⟨entry, List.mem_cons_self, hstuck⟩, rfl⟩
      obtain ⟨first, hfirst, htellsFirst⟩ := exists_findingOf? known severities hstuck
      rw [hfirst]
      obtain ⟨hrest, found, hfound, htells⟩ | ⟨⟨e, he, hstuckRest⟩, hfault⟩ := ih
      · rw [hfound]
        refine .inl ⟨List.forall_mem_cons.mpr ⟨hstuck, hrest⟩, first.toList ++ found, rfl, ?_⟩
        have hfilter : (entry :: rest).filter (isComplete known)
            = [entry].filter (isComplete known) ++ rest.filter (isComplete known) :=
          List.filter_append [entry] rest
        rw [hfilter]
        exact List.rel_append htellsFirst htells
      · rw [hfault]
        exact .inr ⟨⟨e, List.mem_cons_of_mem _ he, hstuckRest⟩, rfl⟩

/-! ## What every finding has -/

/-- The finding has a rule and a title, and is on a line of a file that was asked about. -/
structure IsPlaced (known : List String) (x : Finding) : Prop where
  ruleId : ∃ s, x.ruleId = .text s ∧ s ≠ ""
  file : ∃ path ∈ known, x.file = .text path
  line : x.line.IsInteger ∧ ∃ n, x.line.lineNumber? = some n ∧ 1 ≤ n
  severity : x.severity ∈ Severity.all
  title : ∃ s, x.title = .text s ∧ s ≠ ""

theorem isInteger_of_isLine {d : Document} (h : isLine d = true) :
    d.IsInteger ∧ ∃ n, d.lineNumber? = some n ∧ 1 ≤ n := by
  cases d with
  | int n => exact ⟨.inl ⟨n, rfl⟩, n, rfl, of_decide_eq_true h⟩
  | bool b =>
      obtain rfl : b = true := h
      exact ⟨.inr ⟨true, rfl⟩, 1, rfl, le_refl 1⟩
  | _ => cases h

variable {known severities} in
theorem isPlaced_of_tells (hcomplete : isComplete known entry = true) {x : Finding}
    (h : Tells severities entry x) : IsPlaced known x := by
  unfold isComplete at hcomplete
  simp only [Bool.and_eq_true] at hcomplete
  obtain ⟨⟨⟨hrule, hfile⟩, hline⟩, htitle⟩ := hcomplete
  obtain ⟨path, hpath, hfile⟩ := List.any_eq_true.mp hfile
  refine ⟨⟨_, h.ruleId, plain_ne_empty hrule⟩, ⟨path, hpath, ?_⟩, ?_, ?_,
    ⟨_, h.title, plain_ne_empty htitle⟩⟩
  · rw [h.file, isText_iff.mp hfile]
  · rw [h.line]
    exact isInteger_of_isLine hline
  · cases x.severity <;> decide

/-- What stands on the right of related lists is related to something on the left. -/
theorem exists_of_forall₂ {α β : Type} {R : α → β → Prop} {xs : List α} {ys : List β}
    (h : List.Forall₂ R xs ys) {y : β} (hy : y ∈ ys) : ∃ x ∈ xs, R x y := by
  induction h with
  | nil => exact absurd hy List.not_mem_nil
  | cons hR _ ih =>
      rcases List.mem_cons.mp hy with rfl | hy
      · exact ⟨_, List.mem_cons_self, hR⟩
      · obtain ⟨x, hx, hRx⟩ := ih hy
        exact ⟨x, List.mem_cons_of_mem _ hx, hRx⟩

/-- **Malformed entries drop only themselves.** An answer that is no list has no findings. The
findings of a list are those of its first entries followed by those of the others. As long as no
entry is stuck, each complete entry gives a finding that says what the entry says, the others give
none, and every finding has a rule, a title and a severity and is on a line, from one on, of a file
that was asked about. A stuck entry stops the whole answer. -/
theorem malformed_entries_dropped :
    (∀ answer, (∀ entries, answer ≠ .list entries) →
      findingsOf known severities answer = .ok []) ∧
    (∀ xs ys, findingsOf known severities (.list (xs ++ ys)) = (do
      let first ← findingsOf known severities (.list xs)
      let others ← findingsOf known severities (.list ys)
      return first ++ others)) ∧
    ∀ entries,
      ((∀ e ∈ entries, ¬IsStuck known e) ∧ ∃ found,
        findingsOf known severities (.list entries) = .ok found ∧
          List.Forall₂ (Tells severities) (entries.filter (isComplete known)) found ∧
          ∀ x ∈ found, IsPlaced known x) ∨
      (∃ e ∈ entries, IsStuck known e) ∧
        findingsOf known severities (.list entries) = .error .wrongKind := by
  refine ⟨fun answer hanswer => ?_, findingsOf_append known severities, fun entries => ?_⟩
  · cases answer with
    | list entries => exact absurd rfl (hanswer entries)
    | _ => rfl
  · refine (findingsOf_cases known severities entries).imp_left ?_
    rintro ⟨hstuck, found, hfound, htells⟩
    refine ⟨hstuck, found, hfound, htells, fun x hx => ?_⟩
    obtain ⟨entry, hentry, hx⟩ := exists_of_forall₂ htells hx
    exact isPlaced_of_tells (List.mem_filter.mp hentry).2 hx

/-- A complete entry. -/
def goodEntry : Document :=
  .ofFields [("rule_id", .text "no-b"), ("severity", .text "blocker"), ("file", .text "a.ts"),
    ("line", .bool true), ("title", .text "No b")]

/-- An entry whose line is a text. -/
def lineInWords : Document :=
  .ofFields [("rule_id", .text "no-b"), ("file", .text "a.ts"), ("line", .text "3"),
    ("title", .text "No b")]

/-- An entry that names its file in a list. -/
def listedFile : Document :=
  .ofFields [("rule_id", .text "no-b"), ("file", .list [.text "a.ts"]), ("line", .int 1),
    ("title", .text "No b")]

/-- Of three entries two are dropped, and the other gives a finding with the severity of its rule. -/
theorem malformed_entries_dropped_sample :
    findingsOf ["a.ts"] [("no-b", .info)] .null = .ok [] ∧
      ∃ x, findingsOf ["a.ts"] [("no-b", .info)] (.list [.text "junk", lineInWords, goodEntry])
        = .ok [x] ∧ Tells [("no-b", .info)] goodEntry x ∧ IsPlaced ["a.ts"] x := by
  obtain ⟨hnone, -, hlist⟩ := malformed_entries_dropped ["a.ts"] [("no-b", .info)]
  refine ⟨hnone .null nofun, ?_⟩
  have hfilter : [.text "junk", lineInWords, goodEntry].filter (isComplete ["a.ts"])
      = [goodEntry] := rfl
  obtain ⟨-, found, hfound, htells, hplaced⟩ | ⟨-, hfault⟩ :=
    hlist [.text "junk", lineInWords, goodEntry]
  · rw [hfilter] at htells
    obtain ⟨x, rest, hx, hrest, rfl⟩ := List.forall₂_cons_left_iff.mp htells
    obtain rfl := List.forall₂_nil_left_iff.mp hrest
    exact ⟨x, hfound, hx, hplaced x List.mem_cons_self⟩
  · cases hfault

/-- **An entry that names its file in a list takes the whole answer with it**, the finding of the
complete entry in front of it too. -/
theorem unreadable_file_stops_answer :
    (∃ x, findingsOf ["a.ts"] [] (.list [goodEntry]) = .ok [x]) ∧
      findingsOf ["a.ts"] [] (.list [goodEntry, listedFile]) = .error .wrongKind :=
  ⟨⟨_, rfl⟩, rfl⟩

end ReviewGate.SoftRule
