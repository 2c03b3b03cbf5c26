import Mathlib.Data.List.Nodup
import ReviewGate.Proofs.Loop
import ReviewGate.Proofs.Policy.Merge

/-!
# `ReviewGate.Proofs.Policy.Layers` — rules that come in layers

The layers of a merge are put one behind the other, so a merge of layers is the merge of one list,
and where one layer ends and the next begins does not matter. Two things about an id come from
different places of the list: its slot from the first rule with it, and its rule from the last. Both
have an algebra of their own. Slots are first occurrences, and the first occurrences of two parts
together are those of the whole (`eraseDups_append_eraseDups`); the last rule of two parts is the
last of the second, or of the first if the second has none (`lastOf_append`). Since slots and rules
make up a merge (`eq_of_itemOf`), merges compose (`mergeById_mergeById_append`).

## Contents
- `lastOf`: the last item under a key.
- `map_mergeById`, `lastOf_mergeById`, `mergeById_mergeById_append`: slots and rules of a merge.
- `LastWins`, `lastWins_iff`: what a merge is.
- `Policy.Layered`, `rules_merged_in_layers`: the rules of a loaded policy.
-/

namespace ReviewGate

section

variable {α : Type} {key : α → String}

/-! ## The last item under a key -/

/-- The last item under the key `k`. -/
def lastOf (key : α → String) (k : String) (items : List α) : Option α := itemOf key k items.reverse

/-- The last item of two parts is the last of the second part, if it has one. -/
theorem lastOf_append (k : String) (xs ys : List α) :
    lastOf key k (xs ++ ys) = (lastOf key k ys).or (lastOf key k xs) := by
  rw [lastOf, List.reverse_append, itemOf_append]
  rfl

theorem lastOf_map {β : Type} (f : β → α) (k : String) (xs : List β) :
    lastOf key k (xs.map f) = (lastOf (fun x => key (f x)) k xs).map f := by
  rw [lastOf, ← List.map_reverse, itemOf, List.find?_map]
  rfl

theorem lastOf_eq_none {k : String} {xs : List α} (h : k ∉ xs.map key) :
    lastOf key k xs = none := by
  refine itemOf_eq_none fun hmem => h ?_
  rwa [List.map_reverse, List.mem_reverse] at hmem

/-- No item behind the last one has the key. -/
theorem lastOf_eq_some_iff {k : String} {xs : List α} {x : α} :
    lastOf key k xs = some x ↔
      key x = k ∧ ∃ before after, xs = before ++ x :: after ∧ ∀ y ∈ after, key y ≠ k := by
  simp only [lastOf, itemOf, List.find?_eq_some_iff_append, decide_eq_true_iff,
    Bool.not_eq_true', decide_eq_false_iff_not]
  refine and_congr_right fun _ => ?_
  -- what stands in front of the item from the back stands behind it
  constructor
  · rintro ⟨after, before, hsplit, hafter⟩
    refine ⟨before.reverse, after.reverse, ?_, fun y hy => hafter y (List.mem_reverse.mp hy)⟩
    rw [← List.reverse_reverse xs, hsplit]
    simp
  · rintro ⟨before, after, rfl, hafter⟩
    refine ⟨after.reverse, before.reverse, by simp, fun y hy => hafter y (List.mem_reverse.mp hy)⟩

/-! ## Slots and items of a merge -/

/-- **A merge has one slot for each key, in the order in which the keys first occur.** -/
theorem map_mergeById (xs : List α) : (mergeById key xs).map key = (xs.map key).eraseDups := by
  -- from the right, since a merge takes in one item after the other
  induction xs using List.reverseRecOn with
  | nil => rfl
  | append_singleton xs x ih =>
      have hmem : key x ∈ (mergeById key xs).map key ↔ key x ∈ xs.map key := by
        rw [ih, List.mem_eraseDups]
      have hput : mergeById key (xs ++ [x]) = putById key x (mergeById key xs) :=
        mergeById_append xs [x]
      rw [hput, List.map_append, List.map_singleton]
      by_cases hx : key x ∈ xs.map key
      · rw [map_putById_of_mem (hmem.mpr hx), eraseDups_concat_of_mem hx, ih]
      · rw [putById_of_not_mem fun h => hx (hmem.mp h), eraseDups_concat_of_not_mem hx,
          List.map_append, List.map_singleton, ih]

/-- Where no key is repeated, the item under a key is the last one. -/
theorem lastOf_eq_itemOf {items : List α} (hnd : (items.map key).Nodup) (k : String) :
    lastOf key k items = itemOf key k items := by
  cases hitem : itemOf key k items with
  | none =>
      refine lastOf_eq_none fun hmem => ?_
      obtain ⟨x, hx, rfl⟩ := List.mem_map.mp hmem
      exact absurd ((itemOf_of_mem hnd hx).symm.trans hitem) (by simp)
  | some x =>
      obtain ⟨hx, rfl⟩ := mem_of_itemOf hitem
      have hnd' : (items.reverse.map key).Nodup := by
        rwa [List.map_reverse, List.nodup_reverse]
      exact itemOf_of_mem hnd' (List.mem_reverse.mpr hx)

theorem lastOf_mergeById (k : String) (xs : List α) :
    lastOf key k (mergeById key xs) = lastOf key k xs :=
  (lastOf_eq_itemOf (nodup_mergeById xs) k).trans (itemOf_mergeById k xs)

/-- **Merges compose.** Two parts may be merged on their own, and what comes out merged again. -/
theorem mergeById_mergeById_append (xs ys : List α) :
    mergeById key (mergeById key xs ++ mergeById key ys) = mergeById key (xs ++ ys) := by
  refine eq_of_itemOf ?_ (nodup_mergeById _) fun k => ?_
  · rw [map_mergeById, map_mergeById, List.map_append, List.map_append, map_mergeById,
      map_mergeById, eraseDups_append_eraseDups]
  · have hparts : lastOf key k (mergeById key xs ++ mergeById key ys)
        = lastOf key k (xs ++ ys) := by
      rw [lastOf_append, lastOf_append, lastOf_mergeById, lastOf_mergeById]
    rw [itemOf_mergeById, itemOf_mergeById]
    exact hparts

/-! ## What a merge is -/

/-- The items `merged` are those of `xs` merged: one for each key, where the key first occurs, and
that is the last with the key. -/
structure LastWins (key : α → String) (xs merged : List α) : Prop where
  keys : merged.map key = (xs.map key).eraseDups
  last : ∀ x ∈ merged, ∃ before after, xs = before ++ x :: after ∧ ∀ y ∈ after, key y ≠ key x

/-- The item under a key is the last with it. -/
theorem LastWins.itemOf_eq {xs merged : List α} (h : LastWins key xs merged) (k : String) :
    itemOf key k merged = lastOf key k xs := by
  cases hitem : itemOf key k merged with
  | none =>
      refine (lastOf_eq_none fun hmem => ?_).symm
      -- a key that occurs has a slot, and in the slot stands an item under the key
      rw [← List.mem_eraseDups, ← h.keys, List.mem_map] at hmem
      obtain ⟨x, hx, hk⟩ := hmem
      exact List.find?_eq_none.mp hitem x hx (decide_eq_true hk)
  | some x =>
      obtain ⟨hx, rfl⟩ := mem_of_itemOf hitem
      exact (lastOf_eq_some_iff.mpr ⟨rfl, h.last x hx⟩).symm

theorem lastWins_mergeById (xs : List α) : LastWins key xs (mergeById key xs) where
  keys := map_mergeById xs
  last x hx := by
    have hitem : itemOf key (key x) (mergeById key xs) = some x :=
      itemOf_of_mem (nodup_mergeById xs) hx
    rw [itemOf_mergeById] at hitem
    exact (lastOf_eq_some_iff.mp hitem).2

/-- **Slots and last items leave no choice.** -/
theorem lastWins_iff {xs merged : List α} : LastWins key xs merged ↔ merged = mergeById key xs := by
  constructor
  · intro h
    have hkeys : merged.map key = (mergeById key xs).map key :=
      h.keys.trans (map_mergeById xs).symm
    refine eq_of_itemOf hkeys (hkeys ▸ nodup_mergeById xs) fun k => ?_
    exact (h.itemOf_eq k).trans ((lastWins_mergeById xs).itemOf_eq k).symm
  · rintro rfl
    exact lastWins_mergeById xs

end

/-! ## The rules of a policy -/

/-- The rules of the policy are those of a stored policy, of learned rules and of a configuration in
layers: merged, so that the rule under an id is the last configured one with the id, if none is
configured the last learned one with enough confidence, and otherwise the last stored one. Hard
rules are not learned. -/
structure Policy.Layered (p : Policy) (config : RepoConfig) (learned : List LearnedRule)
    (stored : Option Snapshot) : Prop where
  softMerged : LastWins Rule.id
    ((stored.map (·.softRules)).getD [] ++ confidentRules learned ++ config.softRules) p.softRules
  softRule : ∀ id, itemOf Rule.id id p.softRules =
    ((lastOf Rule.id id config.softRules).or
      ((lastOf LearnedRule.id id
        (learned.filter fun r => leastConfidence.le r.confidence)).map LearnedRule.toRule)).or
      (lastOf Rule.id id ((stored.map (·.softRules)).getD []))
  hardMerged : LastWins HardRule.id
    ((stored.map (·.hardRules)).getD [] ++ config.hardRules) p.hardRules
  hardRule : ∀ id, itemOf HardRule.id id p.hardRules =
    (lastOf HardRule.id id config.hardRules).or
      (lastOf HardRule.id id ((stored.map (·.hardRules)).getD []))

theorem mergePolicy_layered (config : RepoConfig) (learned : List LearnedRule)
    (stored : Option Snapshot) (mode : Option String) :
    (mergePolicy config (confidentRules learned) stored mode).Layered config learned stored where
  softMerged := lastWins_mergeById _
  softRule id := by
    show itemOf Rule.id id (mergeById Rule.id _) = _
    rw [(lastWins_mergeById _).itemOf_eq, lastOf_append, lastOf_append, confidentRules, lastOf_map,
      Option.or_assoc]
    rfl
  hardMerged := lastWins_mergeById _
  hardRule id := by
    show itemOf HardRule.id id (mergeById HardRule.id _) = _
    rw [(lastWins_mergeById _).itemOf_eq, lastOf_append]

/-- **Rules are merged in layers.** Whatever the layers and the keys of their items, a merge holds
each key that occurs once, where it occurs first, with the last item under it, and there is no other
such list; wherever the layers are cut in two, the merges of the two parts merge into the merge of
all. So a loaded policy has the rules that come last in the order of a stored policy, learned rules
and the configuration. -/
theorem rules_merged_in_layers {config : Document} {learned : List Document} {snapshot : Document}
    {mode : Option String} {p : Policy} (hload : loadPolicy config learned snapshot mode = .ok p) :
    (∀ (α : Type) (key : α → String) (layers : List (List α)) (merged : List α),
      LastWins key layers.flatten merged ↔ merged = mergeById key layers.flatten) ∧
    (∀ (α : Type) (key : α → String) (first rest : List (List α)),
      mergeById key (mergeById key first.flatten ++ mergeById key rest.flatten)
        = mergeById key (first ++ rest).flatten) ∧
    ∃ c l s, RepoConfig.ofDocument config = .ok c ∧ parseLearned learned = .ok l ∧
      Snapshot.ofDocument? snapshot = .ok s ∧ p.Layered c l s := by
  obtain ⟨c, l, s, hc, hl, hs, rfl⟩ := loadPolicy_eq_ok.mp hload
  refine ⟨fun α key layers merged => lastWins_iff, fun α key first rest => ?_,
    c, l, s, hc, hl, hs, mergePolicy_layered c l s mode⟩
  rw [List.flatten_append]
  exact mergeById_mergeById_append _ _

/-- The document of a rule with an id and what it asks for. -/
def ruleFields (id pattern : String) : List (String × Document) :=
  [("id", .text id), ("scope", .text "**/*.py"), ("pattern", .text pattern)]

/-- A stored policy with two soft rules. -/
def layeredSnapshot : Document :=
  .ofFields
    [("soft_rules", .list [.ofFields (ruleFields "wrap-errors" "stored"),
        .ofFields (ruleFields "log-errors" "stored")]),
      ("hard_rules", .list [])]

/-- Learned rules, one of them twice and one with too little confidence. -/
def layeredLearned : List Document :=
  [.ofFields (("confidence", .float leastConfidence) :: ruleFields "close-files" "learned"),
    .ofFields (("confidence", .float leastConfidence) :: ruleFields "wrap-errors" "learned"),
    .ofFields (("confidence", .float leastConfidence) :: ruleFields "wrap-errors" "learned again"),
    .ofFields (ruleFields "log-errors" "learned")]

/-- A configuration with one soft rule. -/
def layeredConfig : Document :=
  .ofFields [("soft_rules", .list [.ofFields (ruleFields "close-files" "configured")])]

/-- Of each rule the last counts: the configured one, then the one learned last with enough
confidence, then the stored one. -/
theorem rules_merged_in_layers_sample :
    ∃ p, loadPolicy layeredConfig layeredLearned layeredSnapshot none = .ok p ∧
      p.softRules.map (fun r => (r.id, r.pattern))
        = [("wrap-errors", "learned again"), ("log-errors", "stored"),
          ("close-files", "configured")] := by
  obtain ⟨p, hp⟩ : ∃ p, loadPolicy layeredConfig layeredLearned layeredSnapshot none = .ok p :=
    exists_eq_ok (by decide +kernel)
  obtain ⟨hmerge, -, c, l, s, hc, hl, hs, hlayered⟩ := rules_merged_in_layers hp
  -- what is read for the three layers of soft rules
  have hconfigured : (RepoConfig.ofDocument layeredConfig).map (·.softRules)
      = .ok [⟨"close-files", "", "**/*.py", "configured", .warning, .seed⟩] := by rfl
  have hlearned : (parseLearned layeredLearned).map confidentRules
      = .ok [⟨"close-files", "", "**/*.py", "learned", .warning, .learned⟩,
        ⟨"wrap-errors", "", "**/*.py", "learned", .warning, .learned⟩,
        ⟨"wrap-errors", "", "**/*.py", "learned again", .warning, .learned⟩] := by rfl
  have hstored : (Snapshot.ofDocument? layeredSnapshot).map
        (fun s => (s.map (·.softRules)).getD [])
      = .ok [⟨"wrap-errors", "", "**/*.py", "stored", .warning, .policy⟩,
        ⟨"log-errors", "", "**/*.py", "stored", .warning, .policy⟩] := by rfl
  rw [hc] at hconfigured
  rw [hl] at hlearned
  rw [hs] at hstored
  have hsoft : p.softRules = mergeById Rule.id
      [(s.map (·.softRules)).getD [], confidentRules l, c.softRules].flatten :=
    (hmerge Rule Rule.id _ p.softRules).mp (by simpa using hlayered.softMerged)
  rw [(Except.ok.inj hstored : (s.map (·.softRules)).getD [] = _), Except.ok.inj hlearned,
    (Except.ok.inj hconfigured : c.softRules = _)] at hsoft
  refine ⟨p, hp, ?_⟩
  rw [hsoft]
  rfl

end ReviewGate
