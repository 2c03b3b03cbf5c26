import Mathlib.Data.List.Induction
import ReviewGate.Proofs.Finding.Rank
import ReviewGate.Proofs.Loop

/-!
# `ReviewGate.Proofs.Finding.Synthesis` — which record stands in which slot

`ReviewGate.Proofs.Finding.Dedupe` tells which findings a merge keeps; here is where they stand. A
slot is opened by the first finding with a key and never moves, so the keys of the kept findings are
the keys of all findings, each where it first occurs (`map_key_dedupe`). What stands in the slot is
the first of the gravest with the key (`exists_split_of_mem_dedupe`). The two facts together leave no
choice, so they are a specification of the merge (`MergedFrom`).

Ranking is a stable sort by severity, file and line (`RankedFrom`). A ranked list has one finding
for each key and is in order, so nothing is left to merge or to move when it comes along again.

## Contents
- `map_key_dedupe`: the slots.
- `exists_split_of_gravest?`, `exists_split_of_mem_dedupe`: what stands in a slot.
- `dedupe_eq_self`, `synthesize_findings_again`: a second time changes nothing.
- `MergedFrom`, `RankedFrom`: what merging and ranking are.
- `findings_merged_and_ranked`: what they give.
-/

namespace ReviewGate

/-! ## Slots -/

/-- A finding opens a slot at the end if its key is new, and leaves the slots as they are if not. -/
theorem map_key_keepGraver (x : Finding) (kept : List Finding) :
    (keepGraver x kept).map Finding.key
      = if x.key ∈ kept.map Finding.key then kept.map Finding.key
        else kept.map Finding.key ++ [x.key] := by
  induction kept with
  | nil => rfl
  | cons y rest ih =>
      by_cases hk : y.key = x.key
      · have hmem : x.key ∈ (y :: rest).map Finding.key := hk ▸ List.mem_cons_self
        have hg : (y.graver x).key = y.key := by
          rcases graver_eq_or y x with h | h <;> rw [h]
          exact hk.symm
        rw [keepGraver_cons_of_key hk, if_pos hmem, List.map_cons, List.map_cons, hg]
      · rw [keepGraver_cons_of_ne hk, List.map_cons, ih]
        by_cases hmem : x.key ∈ rest.map Finding.key
        · have hold : x.key ∈ (y :: rest).map Finding.key := List.mem_cons_of_mem _ hmem
          rw [if_pos hmem, if_pos hold, List.map_cons]
        · have hnew : x.key ∉ (y :: rest).map Finding.key :=
            List.not_mem_cons_of_ne_of_not_mem (Ne.symm hk) hmem
          rw [if_neg hmem, if_neg hnew, List.map_cons, List.cons_append]

theorem dedupe_concat (xs : List Finding) (x : Finding) :
    dedupe (xs ++ [x]) = keepGraver x (dedupe xs) :=
  List.foldl_concat ..

/-- **A merge has one slot for each key, in the order in which the keys first occur.** -/
theorem map_key_dedupe (xs : List Finding) :
    (dedupe xs).map Finding.key = (xs.map Finding.key).eraseDups := by
  -- from the right, since a merge takes in one finding after the other
  induction xs using List.reverseRecOn with
  | nil => rfl
  | append_singleton xs x ih =>
      rw [dedupe_concat, map_key_keepGraver, ih, List.map_append, List.map_singleton]
      by_cases hmem : x.key ∈ xs.map Finding.key
      · rw [if_pos (List.mem_eraseDups.mpr hmem), eraseDups_concat_of_mem hmem]
      · rw [if_neg fun h => hmem (List.mem_eraseDups.mp h), eraseDups_concat_of_not_mem hmem]

/-! ## What stands in a slot -/

/-- No finding in front of the gravest is as grave, and none behind it is graver. -/
theorem exists_split_of_gravest? {xs : List Finding} {y : Finding} (h : gravest? xs = some y) :
    ∃ before after, xs = before ++ y :: after ∧
      (∀ z ∈ before, z.severity.rank < y.severity.rank) ∧
      ∀ z ∈ after, z.severity.rank ≤ y.severity.rank := by
  induction xs using List.reverseRecOn generalizing y with
  | nil => cases h
  | append_singleton xs x ih =>
      cases hxs : gravest? xs with
      | none =>
          cases xs with
          | nil =>
              obtain rfl := Option.some.inj h
              exact ⟨[], [], rfl, nofun, nofun⟩
          | cons => cases hxs
      | some g =>
          -- `g` is the gravest so far, and only a graver one takes its place
          obtain rfl : g.graver x = y := Option.some.inj ((gravest?_append hxs [x]).symm.trans h)
          by_cases hlt : g.severity.rank < x.severity.rank
          · -- the last finding is graver than all in front of it
            rw [Finding.graver, if_pos hlt]
            refine ⟨xs, [], rfl, fun z hz => ?_, nofun⟩
            exact Nat.lt_of_le_of_lt (rank_le_gravest? hxs hz) hlt
          · obtain ⟨before, after, hsplit, hbefore, hafter⟩ := ih hxs
            rw [Finding.graver, if_neg hlt]
            refine ⟨before, after ++ [x], ?_, hbefore, fun z hz => ?_⟩
            · rw [hsplit, List.append_assoc, List.cons_append]
            · rcases List.mem_append.mp hz with hz | hz
              · exact hafter z hz
              · obtain rfl := List.mem_singleton.mp hz
                exact Nat.not_lt.mp hlt

/-- **What a merge keeps is the first of the gravest findings with its key.** -/
theorem exists_split_of_mem_dedupe {xs : List Finding} {y : Finding} (h : y ∈ dedupe xs) :
    ∃ before after, xs = before ++ y :: after ∧
      (∀ z ∈ before, z.key = y.key → z.severity.rank < y.severity.rank) ∧
      ∀ z ∈ after, z.key = y.key → z.severity.rank ≤ y.severity.rank := by
  obtain ⟨before, after, hsplit, hbefore, hafter⟩ :=
    exists_split_of_gravest? (mem_dedupe_iff.mp h)
  -- a split of the findings with the key comes from a split of all
  obtain ⟨front, rest, rfl, hfront, hrest⟩ := List.filter_eq_append_iff.mp hsplit
  obtain ⟨middle, back, rfl, hmiddle, -, hback⟩ := List.filter_eq_cons_iff.mp hrest
  refine ⟨front ++ middle, back, (List.append_assoc ..).symm, fun z hz hkey => ?_,
    fun z hz hkey => ?_⟩
  · have hpass : decide (z.key = y.key) = true := decide_eq_true hkey
    rcases List.mem_append.mp hz with hz | hz
    · exact hbefore z (hfront ▸ List.mem_filter.mpr ⟨hz, hpass⟩)
    · exact absurd hpass (hmiddle z hz)
  · exact hafter z (hback ▸ List.mem_filter.mpr ⟨hz, decide_eq_true hkey⟩)

/-! ## A second time -/

/-- A finding with a new key is kept behind the others. -/
theorem keepGraver_of_not_mem {x : Finding} {kept : List Finding}
    (h : x.key ∉ kept.map Finding.key) : keepGraver x kept = kept ++ [x] := by
  induction kept with
  | nil => rfl
  | cons y rest ih =>
      obtain ⟨hy, hrest⟩ := not_or.mp fun hmem => h (List.mem_cons.mpr hmem)
      rw [keepGraver_cons_of_ne (Ne.symm hy), ih hrest, List.cons_append]

/-- Findings with different keys are merged into themselves. -/
theorem dedupe_eq_self {xs : List Finding} (h : (xs.map Finding.key).Nodup) : dedupe xs = xs := by
  induction xs using List.reverseRecOn with
  | nil => rfl
  | append_singleton xs x ih =>
      rw [List.map_append, List.map_singleton, List.nodup_append] at h
      obtain ⟨hxs, -, hnew⟩ := h
      rw [dedupe_concat, ih hxs]
      exact keepGraver_of_not_mem fun hmem => hnew _ hmem _ (List.mem_singleton.mpr rfl) rfl

theorem pairwise_precedes_rankFindings (xs : List Finding) :
    (rankFindings xs).Pairwise fun x y => x.precedes y = true :=
  List.pairwise_mergeSort Finding.precedes_trans Finding.precedes_total xs

/-- **The findings of an analysis are merged and ranked into themselves.** -/
theorem synthesize_findings_again (xs : List Finding) (passes passes' : Int)
    (usage usage' : TokenUsage) :
    (synthesize (synthesize xs passes usage).findings passes' usage').findings
      = (synthesize xs passes usage).findings := by
  have hkeys : ((rankFindings (dedupe xs)).map Finding.key).Nodup :=
    ((rankFindings_perm _).map _).nodup_iff.mpr (nodup_key_dedupe xs)
  show rankFindings (dedupe (rankFindings (dedupe xs))) = rankFindings (dedupe xs)
  rw [dedupe_eq_self hkeys]
  exact List.mergeSort_of_pairwise (pairwise_precedes_rankFindings _)

/-! ## Merging and ranking -/

/-- The findings `kept` are those of `xs` merged: one for each key, where the key first occurs, and
that is the first of the gravest with the key. -/
structure MergedFrom (xs kept : List Finding) : Prop where
  keys : kept.map Finding.key = (xs.map Finding.key).eraseDups
  firstGravest : ∀ y ∈ kept, ∃ before after, xs = before ++ y :: after ∧
    (∀ z ∈ before, z.key = y.key → z.severity.rank < y.severity.rank) ∧
    ∀ z ∈ after, z.key = y.key → z.severity.rank ≤ y.severity.rank

/-- The findings `ranked` are those of `xs` in order, and findings of `xs` that stand in order there
keep the order in which they stand. -/
structure RankedFrom (xs ranked : List Finding) : Prop where
  perm : ranked.Perm xs
  inOrder : ranked.Pairwise Finding.InOrder
  stable : ∀ ys : List Finding, ys.Sublist xs → ys.Pairwise Finding.InOrder → ys.Sublist ranked

theorem mergedFrom_dedupe (xs : List Finding) : MergedFrom xs (dedupe xs) where
  keys := map_key_dedupe xs
  firstGravest _ hy := exists_split_of_mem_dedupe hy

theorem rankedFrom_rankFindings {xs : List Finding} (htyped : ∀ x ∈ xs, x.WellTyped) :
    RankedFrom xs (rankFindings xs) where
  perm := rankFindings_perm xs
  inOrder := by
    -- the test that sorts is the order only for findings with typed fields
    refine (pairwise_precedes_rankFindings xs).imp_of_mem fun {x y} hx hy hprecedes => ?_
    have hmem : ∀ {z}, z ∈ rankFindings xs → z ∈ xs := (rankFindings_perm xs).mem_iff.mp
    exact (Finding.precedes_iff_inOrder (htyped x (hmem hx)) (htyped y (hmem hy))).mp hprecedes
  stable ys hsub hys := by
    refine List.sublist_mergeSort Finding.precedes_trans Finding.precedes_total ?_ hsub
    refine hys.imp_of_mem fun {x y} hx hy hinOrder => ?_
    exact (Finding.precedes_iff_inOrder (htyped x (hsub.subset hx))
      (htyped y (hsub.subset hy))).mpr hinOrder

/-- **Findings are merged and ranked.** A merge keeps one finding for each key, in the order in which
the keys first occur, and for each key the first of the gravest findings with it. Ranking, of
findings as they come or merged, is a stable sort by severity, file and line. The findings of an
analysis, analysed again, are the same and have the same summary. -/
theorem findings_merged_and_ranked {xs : List Finding} (htyped : ∀ x ∈ xs, x.WellTyped)
    (passes passes' : Int) (usage usage' : TokenUsage) :
    MergedFrom xs (dedupe xs) ∧ RankedFrom xs (rankFindings xs) ∧
      RankedFrom (dedupe xs) (synthesize xs passes usage).findings ∧
      (synthesize (synthesize xs passes usage).findings passes' usage').findings
        = (synthesize xs passes usage).findings ∧
      (synthesize (synthesize xs passes usage).findings passes' usage').summary
        = (synthesize xs passes usage).summary := by
  have hagain := synthesize_findings_again xs passes passes' usage usage'
  refine ⟨mergedFrom_dedupe xs, rankedFrom_rankFindings htyped, ?_, hagain, ?_⟩
  · exact rankedFrom_rankFindings fun x hx => htyped x (mem_of_mem_dedupe hx)
  · exact congrArg summarize hagain

/-- A remark on the second line of a file. -/
def remarkOn (severity : Severity) (title explanation : String) : Finding :=
  ⟨.text "no-b", severity, .text "a.py", .int 2, .text title, .text explanation, .null, .null,
    .null, .null⟩

theorem wellTyped_remarkOn (severity : Severity) (title explanation : String) :
    (remarkOn severity title explanation).WellTyped :=
  ⟨⟨_, rfl⟩, ⟨_, rfl⟩, Or.inl ⟨_, rfl⟩, ⟨_, rfl⟩, ⟨_, rfl⟩⟩

/-- A remark that comes four times, now graver and now less grave, with another one between. -/
def repeatedRemarks : List Finding :=
  [remarkOn .warning "b" "first", remarkOn .critical "c" "other", remarkOn .critical "b" "second",
    remarkOn .info "b" "third", remarkOn .critical "b" "fourth"]

/-- Of the repeated remark the first of the critical ones is kept, in the slot in front. -/
theorem findings_merged_and_ranked_sample :
    MergedFrom repeatedRemarks [remarkOn .critical "b" "second", remarkOn .critical "c" "other"] ∧
      RankedFrom [remarkOn .critical "b" "second", remarkOn .critical "c" "other"]
        (synthesize repeatedRemarks 6 .none).findings ∧
      (synthesize (synthesize repeatedRemarks 6 .none).findings 1 .none).summary
        = (synthesize repeatedRemarks 6 .none).summary := by
  have htyped : ∀ x ∈ repeatedRemarks, x.WellTyped := by
    simp [repeatedRemarks, wellTyped_remarkOn]
  have hkept : dedupe repeatedRemarks
      = [remarkOn .critical "b" "second", remarkOn .critical "c" "other"] := rfl
  obtain ⟨hmerged, -, hranked, -, hsummary⟩ := findings_merged_and_ranked htyped 6 1 .none .none
  rw [hkept] at hmerged hranked
  exact ⟨hmerged, hranked, hsummary⟩

end ReviewGate
