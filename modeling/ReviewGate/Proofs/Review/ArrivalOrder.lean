import ReviewGate.Proofs.Check.Run
import ReviewGate.Proofs.Finding.Rank
import ReviewGate.Proofs.Loop
import ReviewGate.Proofs.Review.Comment

/-!
# `ReviewGate.Proofs.Review.ArrivalOrder` — the order in which findings arrive

A merge keeps the first of equally grave findings with one key, and ranking leaves findings with one
place in the order in which they came. So which explanation is shown, and which of two findings on
one line comes first, does depend on the order of arrival. Nothing else does.

What is left out of a finding when only its rule, file, line, title and severity are looked at
(`Finding.identity`) is what the merge may exchange, and what is left out when only severity, file
and line are looked at (`Finding.spot`) is what ranking may exchange. The summary, the event, the
outputs and the places of the comments are read off the sequence of spots.

## Contents
- `Finding.identity`, `Finding.spot`: what a finding is, and where it stands.
- `map_spot_synthesize`: the spots of an analysis.
- `summarize_eq_of_spots`, `map_place_inlineComments`, …: what is read off the spots.
- `AlikeAnalyses`, `Alike`: analyses and reviews that differ in nothing else.
- `arrival_order_immaterial`: two orders of arrival.
-/

namespace ReviewGate

open Diff

/-! ## Findings -/

namespace Finding

/-- What the finding is: rule, file, line, title and severity. -/
def identity (x : Finding) : Document × Document × Option Int × Document × Severity :=
  (x.ruleId, x.file, x.line.lineNumber?, x.title, x.severity)

/-- Where the finding stands: severity, file and line. -/
def spot (x : Finding) : Severity × Document × Option Int :=
  (x.severity, x.file, x.line.lineNumber?)

variable {x y : Finding}

/-- The identity and the key of a finding have the same parts. -/
theorem WellTyped.exists_parts (hx : x.WellTyped) : ∃ rule file n title,
    x.identity = (.text rule, .text file, some n, .text title, x.severity) ∧
      x.key = [some (.text rule), some (.text file), some (.int n), some (.text title)] := by
  obtain ⟨rule, hrule⟩ := hx.ruleId
  obtain ⟨file, hfile⟩ := hx.file
  obtain ⟨n, hn, hkey, _⟩ := hx.line.exists_int
  obtain ⟨title, htitle⟩ := hx.title
  refine ⟨rule, file, n, title, ?_, ?_⟩
  · rw [identity, hrule, hfile, hn, htitle]
  · rw [key, hrule, hfile, hkey, htitle]
    rfl

theorem identity_eq_iff (hx : x.WellTyped) (hy : y.WellTyped) :
    x.identity = y.identity ↔ x.key = y.key ∧ x.severity = y.severity := by
  obtain ⟨rule, file, n, title, hidentity, hkey⟩ := hx.exists_parts
  obtain ⟨rule', file', n', title', hidentity', hkey'⟩ := hy.exists_parts
  simp only [hidentity, hkey, hidentity', hkey', Prod.mk.injEq, List.cons.injEq,
    Option.some.injEq, Document.text.injEq, Document.Key.text.injEq, Document.Key.int.injEq,
    and_true, and_assoc]

/-- The place of a finding, from what the finding is. -/
def placeOf (i : Document × Document × Option Int × Document × Severity) :
    ℕᵒᵈ ×ₗ Document.OrderKey ×ₗ Document.OrderKey :=
  toLex (OrderDual.toDual i.2.2.2.2.rank,
    toLex (i.2.1.orderKey, (Document.int (i.2.2.1.getD 0)).orderKey))

theorem place_eq_placeOf (hx : x.WellTyped) : x.place = placeOf x.identity := by
  obtain ⟨n, hn, _, horder⟩ := hx.line.exists_int
  simp only [place, placeOf, identity, hn, horder, Option.getD_some]

theorem spot_eq_of_place (hx : x.WellTyped) (hy : y.WellTyped) (h : x.place = y.place) :
    x.spot = y.spot := by
  obtain ⟨hsev, hfiles, hlines⟩ := place_eq_iff.mp h
  obtain ⟨file, hfile⟩ := hx.file
  obtain ⟨file', hfile'⟩ := hy.file
  obtain ⟨n, hn, _, horder⟩ := hx.line.exists_int
  obtain ⟨m, hm, _, horder'⟩ := hy.line.exists_int
  rw [hfile, hfile'] at hfiles
  rw [horder, horder'] at hlines
  have hsame : file = file' := Document.orderKey_text_injective hfiles
  have hnumber : n = m := Document.orderKey_int_injective hlines
  rw [spot, spot, hsev, hfile, hfile', hn, hm, hsame, hnumber]

end Finding

/-! ## The findings of an analysis -/

section

variable {xs ys : List Finding} (hperm : xs.Perm ys) (htyped : ∀ x ∈ xs, x.WellTyped)
include htyped

theorem wellTyped_of_mem_dedupe {x : Finding} (hx : x ∈ dedupe xs) : x.WellTyped :=
  htyped x (mem_of_mem_dedupe hx)

include hperm

/-- Merging keeps the same findings, up to what is left out of their identity. -/
theorem perm_identity_dedupe :
    ((dedupe xs).map Finding.identity).Perm ((dedupe ys).map Finding.identity) :=
  perm_map_dedupe (fun x hx y hy => Finding.identity_eq_iff (htyped x hx) (htyped y hy)) hperm

theorem perm_identity_synthesize (n : Int) (u : TokenUsage) :
    ((synthesize xs n u).findings.map Finding.identity).Perm
      ((synthesize ys n u).findings.map Finding.identity) := by
  refine ((rankFindings_perm _).map _).trans ((perm_identity_dedupe hperm htyped).trans ?_)
  exact ((rankFindings_perm _).map _).symm

/-- **The spots of the ranked findings** come in one order. -/
theorem map_spot_synthesize (n : Int) (u : TokenUsage) :
    (synthesize xs n u).findings.map Finding.spot
      = (synthesize ys n u).findings.map Finding.spot := by
  have htyped' : ∀ y ∈ ys, y.WellTyped := fun y hy => htyped y (hperm.mem_iff.mpr hy)
  have hplaces : ∀ {zs : List Finding}, (∀ z ∈ zs, z.WellTyped) →
      (dedupe zs).map Finding.place
        = ((dedupe zs).map Finding.identity).map Finding.placeOf := by
    intro zs hzs
    rw [List.map_map]
    exact List.map_congr_left fun x hx =>
      Finding.place_eq_placeOf (wellTyped_of_mem_dedupe hzs hx)
  have hmerged : ((dedupe xs).map Finding.place).Perm ((dedupe ys).map Finding.place) := by
    rw [hplaces htyped, hplaces htyped']
    exact (perm_identity_dedupe hperm htyped).map _
  refine map_eq_of_determined (map_place_rankFindings hmerged) fun x hx y hy h => ?_
  have hx' : x ∈ dedupe xs := (rankFindings_perm _).mem_iff.mp hx
  have hy' : y ∈ dedupe ys := (rankFindings_perm _).mem_iff.mp hy
  exact Finding.spot_eq_of_place (wellTyped_of_mem_dedupe htyped hx')
    (wellTyped_of_mem_dedupe htyped' hy') h

end

/-! ## What is read off the spots -/

section

variable {xs ys : List Finding} (h : xs.map Finding.spot = ys.map Finding.spot)
include h

theorem length_eq_of_spots : xs.length = ys.length := by
  have hlength := congrArg List.length h
  rwa [List.length_map, List.length_map] at hlength

theorem map_severity_eq_of_spots : xs.map Finding.severity = ys.map Finding.severity := by
  have hsev := congrArg (List.map Prod.fst) h
  rwa [List.map_map, List.map_map] at hsev

theorem isEmpty_eq_of_spots : xs.isEmpty = ys.isEmpty := by
  rw [Bool.eq_iff_iff, List.isEmpty_iff, List.isEmpty_iff, ← List.length_eq_zero_iff,
    ← List.length_eq_zero_iff, length_eq_of_spots h]

theorem countSeverity_eq_of_spots (s : Severity) : countSeverity xs s = countSeverity ys s := by
  have hcount : ∀ zs : List Finding,
      countSeverity zs s = (zs.map Finding.severity).countP (· == s) := by
    intro zs
    rw [List.countP_map, List.countP_eq_length_filter]
    rfl
  rw [hcount, hcount, map_severity_eq_of_spots h]

theorem summarize_eq_of_spots : summarize xs = summarize ys := by
  simp only [summarize, isEmpty_eq_of_spots h, length_eq_of_spots h,
    countSeverity_eq_of_spots h]

theorem decideEvent_eq_of_spots (e : Enforcement) : decideEvent e xs = decideEvent e ys := by
  have hany : ∀ zs : List Finding, (zs.any fun x => e.blockOn.contains x.severity)
      = (zs.map Finding.severity).any fun s => e.blockOn.contains s := by
    intro zs
    rw [List.any_map]
    rfl
  unfold decideEvent
  rw [isEmpty_eq_of_spots h, hany, hany, map_severity_eq_of_spots h]

end

/-- Where a comment stands. -/
def InlineComment.anchor (c : InlineComment) : Document × Nat := (c.path, c.position)

/-- Where a comment on a finding with the given spot stands, if its line has a position. -/
def anchorOf (files : List ChangedFile) (spot : Severity × Document × Option Int) :
    Option (Document × Nat) := do
  return (spot.2.1, ← (← fileAt? files spot.2.1).positionOf? (← spot.2.2))

theorem anchor_inline? (files : List ChangedFile) (x : Finding) :
    (x.inline? files).map InlineComment.anchor = anchorOf files x.spot := by
  unfold Finding.inline? lineToPosition anchorOf Finding.spot
  cases fileAt? files x.file with
  | none => rfl
  | some f =>
      cases x.line.lineNumber? with
      | none => rfl
      | some n =>
          show ((f.positionOf? n).map _).map _ = (f.positionOf? n).bind _
          cases f.positionOf? n <;> rfl

theorem map_anchor_inlineComments (files : List ChangedFile) (limit : Int) (xs : List Finding) :
    (inlineComments files limit xs).map InlineComment.anchor
      = ((xs.map Finding.spot).filterMap (anchorOf files)).take limit.toNat := by
  have hanchors : (xs.filterMap (Finding.inline? files)).map InlineComment.anchor
      = (xs.map Finding.spot).filterMap (anchorOf files) := by
    rw [List.map_filterMap, List.filterMap_map]
    exact List.filterMap_congr fun x _ => anchor_inline? files x
  rw [inlineComments, List.map_take, hanchors]

/-! ## Reviews -/

/-- Two analyses are alike: they differ at most in which of several equal findings they hold and in
how findings with one spot are ordered. -/
structure AlikeAnalyses (a b : Analysis) : Prop where
  spots : a.findings.map Finding.spot = b.findings.map Finding.spot
  identities : (a.findings.map Finding.identity).Perm (b.findings.map Finding.identity)
  summary : a.summary = b.summary

/-- Two analyses are alike, and so are the reviews that tell of them. -/
structure Alike (a b : Analysis) (r s : Review) : Prop extends AlikeAnalyses a b where
  event : r.event = s.event
  outputs : runOutputs a r.event = runOutputs b s.event
  comments : r.comments.map InlineComment.anchor = s.comments.map InlineComment.anchor

theorem alikeAnalyses_synthesize {xs ys : List Finding} (hperm : xs.Perm ys)
    (htyped : ∀ x ∈ xs, x.WellTyped) (passes : Int) (usage : TokenUsage) :
    AlikeAnalyses (synthesize xs passes usage) (synthesize ys passes usage) where
  spots := map_spot_synthesize hperm htyped passes usage
  identities := perm_identity_synthesize hperm htyped passes usage
  summary := summarize_eq_of_spots (map_spot_synthesize hperm htyped passes usage)

/-- What reviews say beyond the texts of the findings is read off the spots. -/
theorem AlikeAnalyses.reviews {a b : Analysis} (h : AlikeAnalyses a b)
    (husage : a.usage = b.usage) {files : List ChangedFile} {e : Enforcement} {r s : Review}
    (hr : r.comments = inlineComments files e.maxComments a.findings)
    (hs : s.comments = inlineComments files e.maxComments b.findings)
    (hevent : r.event = decideEvent e a.findings) (hevent' : s.event = decideEvent e b.findings) :
    Alike a b r s := by
  have hsame : r.event = s.event := by
    rw [hevent, hevent', decideEvent_eq_of_spots h.spots]
  refine { h with event := hsame, outputs := ?_, comments := ?_ }
  · unfold runOutputs
    rw [length_eq_of_spots h.spots, countSeverity_eq_of_spots h.spots,
      countSeverity_eq_of_spots h.spots, hsame, husage]
  · rw [hr, hs, map_anchor_inlineComments, map_anchor_inlineComments, h.spots]

/-- **The order in which findings arrive is immaterial** to all that is alike in two reviews: the
sequence of severities, files and lines, the findings up to explanation and origin, the summary, the
event, the outputs and the places of the comments. It is immaterial, too, where the number of a line
cannot be written and there is no review. -/
theorem arrival_order_immaterial {xs ys : List Finding} (hperm : xs.Perm ys)
    (htyped : ∀ x ∈ xs, x.WellTyped) (files : List ChangedFile) (e : Enforcement) (passes : Int)
    (usage : TokenUsage) :
    AlikeAnalyses (synthesize xs passes usage) (synthesize ys passes usage) ∧
      ((∀ x ∈ xs, x.line.spellable = true) →
        ∃ r s, Review.ofAnalysis (synthesize xs passes usage) files e = .ok r ∧
          Review.ofAnalysis (synthesize ys passes usage) files e = .ok s ∧
          Alike (synthesize xs passes usage) (synthesize ys passes usage) r s) ∧
      ((∃ x ∈ xs, x.line.spellable = false) →
        Review.ofAnalysis (synthesize xs passes usage) files e = .error .badNumber ∧
          Review.ofAnalysis (synthesize ys passes usage) files e = .error .badNumber) := by
  have htyped' : ∀ y ∈ ys, y.WellTyped := fun y hy => htyped y (hperm.mem_iff.mpr hy)
  have halike := alikeAnalyses_synthesize hperm htyped passes usage
  refine ⟨halike, fun hlines => ?_, ?_⟩
  · have hlines' : ∀ y ∈ ys, y.line.spellable = true := fun y hy => hlines y (hperm.mem_iff.mpr hy)
    obtain ⟨r, hr, hcomments, hevent, -⟩ := exists_review_synthesize htyped hlines files e passes usage
    obtain ⟨s, hs, hcomments', hevent', -⟩ :=
      exists_review_synthesize htyped' hlines' files e passes usage
    exact ⟨r, s, hr, hs, halike.reviews rfl hcomments hcomments' hevent hevent'⟩
  · rintro ⟨x, hx, hline⟩
    exact ⟨no_review_synthesize htyped hx hline files e passes usage,
      no_review_synthesize htyped' (hperm.mem_iff.mp hx) hline files e passes usage⟩

/-- Two remarks with one key and a third on their line, whose number is given as a truth value. -/
def sampleRemarks : List Finding :=
  let remark := sampleRule.finding "security" sampleFile.path 1
  [remark, { remark with explanation := .text "No." },
    { remark with ruleId := .text "other", line := .bool true }]

/-- The remarks, forwards and backwards. -/
theorem arrival_order_immaterial_sample :
    ∃ r s, Review.ofAnalysis (synthesize sampleRemarks 6 .none) [sampleFile] .default = .ok r ∧
      Review.ofAnalysis (synthesize sampleRemarks.reverse 6 .none) [sampleFile] .default = .ok s ∧
      Alike (synthesize sampleRemarks 6 .none) (synthesize sampleRemarks.reverse 6 .none) r s := by
  have htyped : ∀ x ∈ sampleRemarks, x.WellTyped := by
    simp only [sampleRemarks, List.forall_mem_cons]
    exact ⟨⟨⟨_, rfl⟩, ⟨_, rfl⟩, Or.inl ⟨_, rfl⟩, ⟨_, rfl⟩, ⟨_, rfl⟩⟩,
      ⟨⟨_, rfl⟩, ⟨_, rfl⟩, Or.inl ⟨_, rfl⟩, ⟨_, rfl⟩, ⟨_, rfl⟩⟩,
      ⟨⟨_, rfl⟩, ⟨_, rfl⟩, Or.inr ⟨_, rfl⟩, ⟨_, rfl⟩, ⟨_, rfl⟩⟩, nofun⟩
  exact (arrival_order_immaterial (List.reverse_perm _).symm htyped [sampleFile] .default 6
    .none).2.1 (by decide +kernel)

end ReviewGate
