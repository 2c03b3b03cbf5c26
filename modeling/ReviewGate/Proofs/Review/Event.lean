import ReviewGate.Proofs.Finding.Synthesis
import ReviewGate.Proofs.Review.Gate

/-!
# `ReviewGate.Proofs.Review.Event` — what merging does to the event

`ReviewGate.Proofs.Review.Gate` decides the event of a run, in which a key stands for one severity.
Here the findings are any findings, and several with one key may differ in severity. The merge keeps
the gravest of them, whatever the policy thinks of its severity. A policy blocks on a set of
severities, and the set need not contain the graver ones with the less grave: one that blocks on
warnings alone lets a critical finding pass. So a finding on which the policy blocks can be merged
into one on which it does not.

That is all that can happen. The merge turns a request for changes into a comment exactly if every
blocking finding is outranked under its key (`Enforcement.Misses`), and there are findings to which
this happens exactly if the policy lets something pass that is graver than what it blocks on
(`Enforcement.exists_misses_iff`).

## Contents
- `exists_topOf`, `exists_mem_dedupe_severity_iff`: the severities that a merge keeps.
- `Enforcement.Misses`, `Enforcement.BlocksUpward`: when a merge matters, and when it cannot.
- `decideEvent_congr`: what an event depends on.
- `decideEvent_synthesize`: the event before and after the merge.
-/

namespace ReviewGate

/-! ## The severities that a merge keeps -/

/-- Above each finding there is one with its key that none outranks. -/
theorem exists_topOf {xs : List Finding} {x : Finding} (hx : x ∈ xs) :
    ∃ y ∈ xs, y.key = x.key ∧ x.severity.rank ≤ y.severity.rank ∧ y.TopOf xs := by
  obtain ⟨y, hy, hkey, hrank⟩ := exists_mem_dedupe hx
  exact ⟨y, mem_of_mem_dedupe hy, hkey, hrank, y.topOf_of_mem_dedupe hy⟩

/-- **The severities of the kept findings are those of the findings that none outranks.** -/
theorem exists_mem_dedupe_severity_iff (P : Severity → Prop) (xs : List Finding) :
    (∃ y ∈ dedupe xs, P y.severity) ↔ ∃ x ∈ xs, x.TopOf xs ∧ P x.severity := by
  constructor
  · rintro ⟨y, hy, hP⟩
    exact ⟨y, mem_of_mem_dedupe hy, y.topOf_of_mem_dedupe hy, hP⟩
  · rintro ⟨x, hx, htop, hP⟩
    -- seen through key and severity a finding that none outranks is kept
    have hkept : (x.key, x.severity) ∈ (dedupe xs).map fun y => (y.key, y.severity) :=
      (mem_map_dedupe fun _ _ _ _ => Prod.mk_inj).mpr ⟨x, hx, htop, rfl⟩
    obtain ⟨y, hy, heq⟩ := List.mem_map.mp hkept
    obtain ⟨-, hsev⟩ := Prod.mk.inj heq
    exact ⟨y, hy, hsev ▸ hP⟩

theorem synthesize_findings_eq_nil {xs : List Finding} {passes : Int} {usage : TokenUsage} :
    (synthesize xs passes usage).findings = [] ↔ xs = [] := by
  simp only [List.eq_nil_iff_forall_not_mem, mem_synthesize]
  constructor
  · intro h x hx
    obtain ⟨y, hy, -⟩ := exists_mem_dedupe hx
    exact h y hy
  · exact fun h y hy => h y (mem_of_mem_dedupe hy)

/-! ## When a merge matters -/

/-- The policy enforces and blocks on some of the findings, but each finding on which it blocks is
outranked by another one with its key. -/
structure Enforcement.Misses (e : Enforcement) (xs : List Finding) : Prop where
  enforces : e.mode = "enforce"
  blocking : ∃ x ∈ xs, x.severity ∈ e.blockOn
  outranked : ∀ x ∈ xs, x.severity ∈ e.blockOn →
    ∃ z ∈ xs, z.key = x.key ∧ x.severity.rank < z.severity.rank

/-- With each severity on which it blocks the policy blocks on the graver ones. -/
def Enforcement.BlocksUpward (e : Enforcement) : Prop :=
  ∀ s ∈ e.blockOn, ∀ t : Severity, s.rank < t.rank → t ∈ e.blockOn

section

variable {e : Enforcement} {xs ys : List Finding}

/-- A finding is outranked exactly if it is not at the top. -/
theorem Finding.not_topOf {x : Finding} :
    ¬ x.TopOf xs ↔ ∃ z ∈ xs, z.key = x.key ∧ x.severity.rank < z.severity.rank := by
  simp only [Finding.TopOf, not_forall, Nat.not_le, exists_prop]

/-- A policy that blocks upward blocks on what a blocking finding is merged into. -/
theorem Enforcement.BlocksUpward.not_misses (h : e.BlocksUpward) : ¬ e.Misses xs := by
  intro hmiss
  obtain ⟨x, hx, hblock⟩ := hmiss.blocking
  obtain ⟨y, hy, hkey, hrank, htop⟩ := exists_topOf hx
  have hy' : y.severity ∈ e.blockOn := by
    rcases Nat.lt_or_eq_of_le hrank with hlt | heq
    · exact h _ hblock _ hlt
    · exact Severity.rank_injective heq ▸ hblock
  exact Finding.not_topOf.mpr (hmiss.outranked y hy hy') htop

/-- **A policy that enforces misses some findings exactly if it does not block upward.** -/
theorem Enforcement.exists_misses_iff :
    (∃ xs, e.Misses xs) ↔ e.mode = "enforce" ∧ ¬ e.BlocksUpward := by
  constructor
  · rintro ⟨xs, hmiss⟩
    exact ⟨hmiss.enforces, fun hup => hup.not_misses hmiss⟩
  · rintro ⟨henforce, hup⟩
    simp only [Enforcement.BlocksUpward, not_forall] at hup
    obtain ⟨s, hs, t, hlt, ht⟩ := hup
    -- one remark twice, with the severity that blocks and with the graver one that does not
    refine ⟨[remarkOn s "b" "", remarkOn t "b" ""], henforce,
      ⟨_, List.mem_cons_self .., hs⟩, fun x hx hblock => ?_⟩
    rcases List.mem_pair.mp hx with rfl | rfl
    · exact ⟨_, List.mem_cons_of_mem _ (List.mem_cons_self ..), rfl, hlt⟩
    · exact absurd hblock ht

/-! ## The event -/

/-- An event depends on whether there are findings and whether they block. -/
theorem decideEvent_congr (hnil : xs = [] ↔ ys = [])
    (hblock : decideEvent e xs = .requestChanges ↔ decideEvent e ys = .requestChanges) :
    decideEvent e xs = decideEvent e ys := by
  have happrove : decideEvent e xs = .approve ↔ decideEvent e ys = .approve := by
    rw [decideEvent_eq_approve, decideEvent_eq_approve, hnil]
  cases hxs : decideEvent e xs <;> cases hys : decideEvent e ys <;> simp_all

/-- The merged findings lead to a request for changes if one that none outranks blocks. -/
theorem decideEvent_synthesize_eq_requestChanges {passes : Int} {usage : TokenUsage} :
    decideEvent e (synthesize xs passes usage).findings = .requestChanges ↔
      e.mode = "enforce" ∧ ∃ x ∈ xs, x.TopOf xs ∧ x.severity ∈ e.blockOn := by
  rw [decideEvent_eq_requestChanges]
  simp only [mem_synthesize]
  rw [exists_mem_dedupe_severity_iff (· ∈ e.blockOn)]

/-- Some blocking finding is at the top unless all are missed. -/
theorem Enforcement.exists_topOf_of_not_misses (hmiss : ¬ e.Misses xs)
    (henforce : e.mode = "enforce") {x : Finding} (hx : x ∈ xs) (hblock : x.severity ∈ e.blockOn) :
    ∃ y ∈ xs, y.TopOf xs ∧ y.severity ∈ e.blockOn := by
  by_contra hnone
  refine hmiss ⟨henforce, ⟨x, hx, hblock⟩, fun y hy hy' => Finding.not_topOf.mp fun htop => ?_⟩
  exact hnone ⟨y, hy, htop, hy'⟩

end

/-- **The event before and after the merge.** For any findings and any policy the merged findings
lead to the same event as the findings themselves, unless each blocking finding is outranked under
its key: then the findings lead to a request for changes, and merged they lead to a comment. So a
policy that enforces requests changes wherever a blocking finding is not outranked, and merging
changes the event of no findings at all if the policy blocks upward. -/
theorem decideEvent_synthesize (e : Enforcement) (xs : List Finding) (passes : Int)
    (usage : TokenUsage) :
    (¬ e.Misses xs →
      decideEvent e (synthesize xs passes usage).findings = decideEvent e xs) ∧
    (e.Misses xs →
      decideEvent e xs = .requestChanges ∧
        decideEvent e (synthesize xs passes usage).findings = .comment) ∧
    (e.mode = "enforce" → ∀ x ∈ xs, x.severity ∈ e.blockOn → x.TopOf xs →
      decideEvent e (synthesize xs passes usage).findings = .requestChanges) ∧
    (e.BlocksUpward →
      decideEvent e (synthesize xs passes usage).findings = decideEvent e xs) := by
  have hsame : ¬ e.Misses xs →
      decideEvent e (synthesize xs passes usage).findings = decideEvent e xs := by
    intro hmiss
    refine decideEvent_congr synthesize_findings_eq_nil ?_
    rw [decideEvent_synthesize_eq_requestChanges, decideEvent_eq_requestChanges]
    refine and_congr_right fun henforce => ⟨?_, ?_⟩
    · rintro ⟨x, hx, -, hblock⟩
      exact ⟨x, hx, hblock⟩
    · rintro ⟨x, hx, hblock⟩
      exact Enforcement.exists_topOf_of_not_misses hmiss henforce hx hblock
  refine ⟨hsame, fun hmiss => ⟨?_, ?_⟩, fun henforce x hx hblock htop => ?_,
    fun hup => hsame hup.not_misses⟩
  · exact decideEvent_eq_requestChanges.mpr ⟨hmiss.enforces, hmiss.blocking⟩
  · -- there is something to comment on, and nothing at the top blocks
    obtain ⟨x, hx, -⟩ := hmiss.blocking
    cases hevent : decideEvent e (synthesize xs passes usage).findings with
    | comment => rfl
    | approve =>
        have hnil := synthesize_findings_eq_nil.mp (decideEvent_eq_approve.mp hevent)
        exact absurd (hnil ▸ hx) List.not_mem_nil
    | requestChanges =>
        obtain ⟨-, y, hy, htop, hblock⟩ := decideEvent_synthesize_eq_requestChanges.mp hevent
        exact absurd htop (Finding.not_topOf.mpr (hmiss.outranked y hy hblock))
  · exact decideEvent_synthesize_eq_requestChanges.mpr ⟨henforce, x, hx, htop, hblock⟩

/-- A policy that blocks on warnings alone. -/
def warningGate : Enforcement := ⟨"enforce", [.warning], true, 3⟩

/-- A warning and a critical finding with one key. -/
def outrankedRemarks : List Finding :=
  [remarkOn .critical "b" "first", remarkOn .warning "b" "second"]

/-- The warning is merged into the critical finding, on which the policy does not block. -/
theorem outranked_warning_missed :
    (∃ x ∈ outrankedRemarks, x.severity ∈ warningGate.blockOn) ∧
      decideEvent warningGate outrankedRemarks = .requestChanges ∧
      decideEvent warningGate (synthesize outrankedRemarks 1 .none).findings = .comment := by
  have hkept : dedupe outrankedRemarks = [remarkOn .critical "b" "first"] := rfl
  have hmerged : (synthesize outrankedRemarks 1 .none).findings
      = [remarkOn .critical "b" "first"] := by
    show rankFindings (dedupe outrankedRemarks) = _
    rw [hkept]
    exact List.mergeSort_singleton _
  refine ⟨⟨remarkOn .warning "b" "second", ?_, ?_⟩, rfl, ?_⟩
  · exact List.mem_cons_of_mem _ (List.mem_cons_self ..)
  · exact List.mem_cons_self ..
  · rw [hmerged]
    rfl

/-- Under another title the warning is not outranked, and the policy requests changes; where it also
blocks on critical findings it does so for any of these. -/
theorem decideEvent_synthesize_sample :
    decideEvent warningGate
        (synthesize [remarkOn .critical "a" "", remarkOn .warning "b" ""] 1 .none).findings
      = .requestChanges ∧
    decideEvent ⟨"enforce", [.critical, .warning], true, 3⟩
        (synthesize outrankedRemarks 1 .none).findings = .requestChanges := by
  obtain ⟨-, -, htop, -⟩ := decideEvent_synthesize warningGate
    [remarkOn .critical "a" "", remarkOn .warning "b" ""] 1 .none
  obtain ⟨-, -, -, hup⟩ := decideEvent_synthesize ⟨"enforce", [.critical, .warning], true, 3⟩
    outrankedRemarks 1 .none
  refine ⟨htop rfl (remarkOn .warning "b" "") ?_ ?_ ?_, (hup ?_).trans rfl⟩
  · exact List.mem_cons_of_mem _ (List.mem_cons_self ..)
  · exact List.mem_cons_self ..
  · intro z hz hkey
    rcases List.mem_pair.mp hz with rfl | rfl
    · exact absurd hkey (by decide)
    · exact Nat.le_refl _
  · -- what is graver than a warning is critical, and nothing is graver than that
    intro s hs t hlt
    cases t <;> cases s <;> simp_all [Severity.rank]

end ReviewGate
