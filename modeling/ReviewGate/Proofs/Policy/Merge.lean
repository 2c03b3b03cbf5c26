import ReviewGate.Policy.Merge
import ReviewGate.Proofs.Sequence

/-!
# `ReviewGate.Proofs.Policy.Merge` — rules merged by id

A merge is known by two things: the order of its keys and the item under each key. `putById` keeps
the order and changes one item, so both are easy to follow through a fold, and two lists without
repeated keys that agree on both are the same list (`eq_of_itemOf`). That is how `mergeById_again`
is proved: merging a layer a second time onto a merge that already holds it changes neither.

## Contents
- `itemOf`: the item under a key.
- `putAll`: a merge onto items already there, with its keys and items.
- `nodup_mergeById`, `mem_of_mem_mergeById`, `itemOf_mergeById`, `filter_mergeById`,
  `mergeById_again`.
- `loadPolicy_eq_ok`, `loadPolicy_of_ofDocument`, `nodup_hardRules`: what a loaded policy is made of.
- `sampleConfig`, `samplePolicy`: a small policy.
-/

namespace ReviewGate

section

variable {α : Type} {key : α → String}

/-- The first item under the key `k`. -/
def itemOf (key : α → String) (k : String) (items : List α) : Option α :=
  items.find? fun x => decide (key x = k)

theorem itemOf_cons (k : String) (x : α) (items : List α) :
    itemOf key k (x :: items) = if key x = k then some x else itemOf key k items := by
  by_cases h : key x = k <;> simp [itemOf, h]

theorem itemOf_append (k : String) (xs ys : List α) :
    itemOf key k (xs ++ ys) = (itemOf key k xs).or (itemOf key k ys) :=
  List.find?_append

theorem itemOf_eq_none {k : String} {items : List α} (h : k ∉ items.map key) :
    itemOf key k items = none := by
  rw [itemOf, List.find?_eq_none]
  intro x hx hk
  exact h (List.mem_map.mpr ⟨x, hx, of_decide_eq_true hk⟩)

theorem mem_of_itemOf {k : String} {items : List α} {x : α} (h : itemOf key k items = some x) :
    x ∈ items ∧ key x = k :=
  ⟨List.mem_of_find?_eq_some h, of_decide_eq_true (List.find?_some h :)⟩

/-- Without repeated keys an item is the one under its key. -/
theorem itemOf_of_mem {items : List α} (hnd : (items.map key).Nodup) {x : α} (hx : x ∈ items) :
    itemOf key (key x) items = some x := by
  induction items with
  | nil => exact absurd hx List.not_mem_nil
  | cons y rest ih =>
      rw [List.map_cons, List.nodup_cons] at hnd
      rw [itemOf_cons]
      rcases List.mem_cons.mp hx with rfl | hrest
      · exact if_pos rfl
      · have hne : key y ≠ key x := fun heq => hnd.1 (heq ▸ List.mem_map_of_mem hrest)
        rw [if_neg hne]
        exact ih hnd.2 hrest

/-- Without repeated keys there is one item under a key at most. -/
theorem filter_eq_itemOf {items : List α} (hnd : (items.map key).Nodup) (k : String) :
    items.filter (fun x => key x == k) = (itemOf key k items).toList := by
  induction items with
  | nil => rfl
  | cons y rest ih =>
      rw [List.map_cons, List.nodup_cons] at hnd
      rw [itemOf_cons, List.filter_cons, ih hnd.2]
      by_cases hk : key y = k
      · rw [if_pos hk, if_pos (beq_iff_eq.mpr hk), itemOf_eq_none (hk ▸ hnd.1)]
        rfl
      · rw [if_neg hk, if_neg fun h => hk (beq_iff_eq.mp h)]

/-- Without repeated keys the order of the keys and the items under them make up the list. -/
theorem eq_of_itemOf {xs ys : List α} (hkeys : xs.map key = ys.map key) (hnd : (xs.map key).Nodup)
    (hitems : ∀ k, itemOf key k xs = itemOf key k ys) : xs = ys := by
  induction xs generalizing ys with
  | nil => exact (List.map_eq_nil_iff.mp hkeys.symm).symm
  | cons x rest ih =>
      obtain ⟨y, ys, rfl, hy, hrest⟩ := List.map_eq_cons_iff.mp hkeys.symm
      rw [List.map_cons, List.nodup_cons] at hnd
      -- the first items have one key, so each is the item under it
      have hxy : x = y := by
        have h := hitems (key x)
        rw [itemOf_cons, itemOf_cons, if_pos rfl, if_pos hy] at h
        exact Option.some.inj h
      have htail : rest = ys := by
        refine ih hrest.symm hnd.2 fun k => ?_
        -- behind the first items their key does not occur, and other keys pass them by
        by_cases hk : key x = k
        · rw [itemOf_eq_none (hk ▸ hnd.1), itemOf_eq_none (hk ▸ hrest ▸ hnd.1)]
        · have h := hitems k
          rwa [itemOf_cons, itemOf_cons, if_neg hk, if_neg (hy ▸ hk)] at h
      rw [hxy, htail]

/-! ## One item put in -/

theorem itemOf_putById (k : String) (x : α) (items : List α) :
    itemOf key k (putById key x items) = if key x = k then some x else itemOf key k items := by
  induction items with
  | nil => exact itemOf_cons k x []
  | cons y rest ih =>
      rw [putById]
      by_cases hy : key y = key x
      · rw [if_pos hy, itemOf_cons, itemOf_cons, hy]
        by_cases hk : key x = k
        · rw [if_pos hk, if_pos hk]
        · rw [if_neg hk, if_neg hk, if_neg hk]
      · rw [if_neg hy, itemOf_cons, itemOf_cons, ih]
        by_cases hk : key x = k
        · rw [if_pos hk, if_pos hk, if_neg (hk ▸ hy)]
        · rw [if_neg hk, if_neg hk]

theorem map_putById_of_mem {x : α} {items : List α} (h : key x ∈ items.map key) :
    (putById key x items).map key = items.map key := by
  induction items with
  | nil => exact absurd h List.not_mem_nil
  | cons y rest ih =>
      rw [putById]
      by_cases hy : key y = key x
      · rw [if_pos hy, List.map_cons, List.map_cons, hy]
      · rw [if_neg hy, List.map_cons, List.map_cons, ih]
        exact (List.mem_cons.mp h).resolve_left fun hx => hy hx.symm

theorem putById_of_not_mem {x : α} {items : List α} (h : key x ∉ items.map key) :
    putById key x items = items ++ [x] := by
  induction items with
  | nil => rfl
  | cons y rest ih =>
      rw [List.map_cons, List.mem_cons, not_or] at h
      rw [putById, if_neg fun hy => h.1 hy.symm, ih h.2]
      rfl

theorem nodup_putById {x : α} {items : List α} (h : (items.map key).Nodup) :
    ((putById key x items).map key).Nodup := by
  by_cases hx : key x ∈ items.map key
  · rw [map_putById_of_mem hx]
    exact h
  · rw [putById_of_not_mem hx, List.map_append, List.nodup_append]
    refine ⟨h, by simp, ?_⟩
    intro k hk j hj hkj
    exact hx (List.mem_singleton.mp hj ▸ hkj ▸ hk)

theorem mem_putById {x y : α} {items : List α} (h : y ∈ putById key x items) :
    y = x ∨ y ∈ items := by
  induction items with
  | nil => exact Or.inl (List.mem_singleton.mp h)
  | cons z rest ih =>
      rw [putById] at h
      split at h
      · exact (List.mem_cons.mp h).imp_right fun hr => List.mem_cons_of_mem z hr
      · rcases List.mem_cons.mp h with rfl | hr
        · exact Or.inr (List.mem_cons_self ..)
        · exact (ih hr).imp_right fun hr => List.mem_cons_of_mem z hr

/-! ## Many items put in -/

/-- The merge of `xs` onto items already there. -/
def putAll (key : α → String) (merged xs : List α) : List α :=
  xs.foldl (fun merged x => putById key x merged) merged

theorem mergeById_append (xs ys : List α) :
    mergeById key (xs ++ ys) = putAll key (mergeById key xs) ys :=
  List.foldl_append

/-- The last item with the key counts. -/
theorem itemOf_putAll (k : String) (merged xs : List α) :
    itemOf key k (putAll key merged xs)
      = (itemOf key k xs.reverse).or (itemOf key k merged) := by
  induction xs generalizing merged with
  | nil => rfl
  | cons x rest ih =>
      show itemOf key k (putAll key (putById key x merged) rest) = _
      rw [ih, itemOf_putById, List.reverse_cons]
      by_cases hk : key x = k <;> simp [itemOf, List.find?_append, hk]

theorem nodup_putAll {merged : List α} (xs : List α) (h : (merged.map key).Nodup) :
    ((putAll key merged xs).map key).Nodup := by
  induction xs generalizing merged with
  | nil => exact h
  | cons x rest ih => exact ih (nodup_putById h)

theorem mem_of_mem_putAll {merged xs : List α} {y : α} (h : y ∈ putAll key merged xs) :
    y ∈ merged ∨ y ∈ xs := by
  induction xs generalizing merged with
  | nil => exact Or.inl h
  | cons x rest ih =>
      rcases ih h with hm | hr
      · exact (mem_putById hm).symm.imp_right fun hx => List.mem_cons.mpr (Or.inl hx)
      · exact Or.inr (List.mem_cons_of_mem x hr)

theorem mem_map_putAll (merged xs : List α) {k : String}
    (h : k ∈ merged.map key ∨ k ∈ xs.map key) : k ∈ (putAll key merged xs).map key := by
  induction xs generalizing merged with
  | nil => exact h.resolve_right List.not_mem_nil
  | cons x rest ih =>
      have hput : k ∈ merged.map key ∨ k = key x → k ∈ (putById key x merged).map key := by
        by_cases hx : key x ∈ merged.map key
        · rw [map_putById_of_mem hx]
          exact fun h => h.elim id fun hk => hk ▸ hx
        · rw [putById_of_not_mem hx, List.map_append, List.mem_append]
          exact fun h => h.imp_right fun hk => List.mem_singleton.mpr hk
      refine ih (putById key x merged) ?_
      rcases h with hm | hx
      · exact Or.inl (hput (Or.inl hm))
      · exact (List.mem_cons.mp hx).imp_left fun hk => hput (Or.inr hk)

/-- Items whose keys are there already do not change the order of the keys. -/
theorem map_putAll {merged xs : List α} (h : ∀ x ∈ xs, key x ∈ merged.map key) :
    (putAll key merged xs).map key = merged.map key := by
  induction xs generalizing merged with
  | nil => rfl
  | cons x rest ih =>
      have hx := map_putById_of_mem (h x (List.mem_cons_self ..))
      refine (ih fun y hy => ?_).trans hx
      rw [hx]
      exact h y (List.mem_cons_of_mem x hy)

theorem putAll_of_nodup {merged xs : List α} (h : ((merged ++ xs).map key).Nodup) :
    putAll key merged xs = merged ++ xs := by
  induction xs generalizing merged with
  | nil => exact (List.append_nil merged).symm
  | cons x rest ih =>
      rw [List.append_cons] at h ⊢
      have hx : key x ∉ merged.map key := by
        rw [List.map_append, List.map_append, List.append_assoc, List.nodup_append] at h
        exact fun hm => h.2.2 _ hm _ (List.mem_cons_self ..) rfl
      show putAll key (putById key x merged) rest = _
      rw [putById_of_not_mem hx]
      exact ih h

/-- Putting the same items in a second time changes nothing. -/
theorem putAll_putAll {merged : List α} (xs : List α) (h : (merged.map key).Nodup) :
    putAll key (putAll key merged xs) xs = putAll key merged xs := by
  have hkeys : (putAll key (putAll key merged xs) xs).map key = (putAll key merged xs).map key :=
    map_putAll fun x hx => mem_map_putAll merged xs (Or.inr (List.mem_map_of_mem hx))
  refine eq_of_itemOf hkeys (nodup_putAll _ (nodup_putAll _ h)) fun k => ?_
  rw [itemOf_putAll, itemOf_putAll]
  cases itemOf key k xs.reverse <;> rfl

/-! ## Merges -/

/-- **A merge has no key twice.** -/
theorem nodup_mergeById (xs : List α) : ((mergeById key xs).map key).Nodup :=
  nodup_putAll xs List.nodup_nil

theorem mem_of_mem_mergeById {xs : List α} {x : α} (h : x ∈ mergeById key xs) : x ∈ xs :=
  (mem_of_mem_putAll h).resolve_left List.not_mem_nil

/-- A merge has the last item under every key. -/
theorem itemOf_mergeById (k : String) (xs : List α) :
    itemOf key k (mergeById key xs) = itemOf key k xs.reverse :=
  (itemOf_putAll k [] xs).trans (Option.or_none ..)

/-- **Under every key a merge has the last item with it, and no other.** -/
theorem filter_mergeById (k : String) (xs : List α) :
    (mergeById key xs).filter (fun x => key x == k) = (itemOf key k xs.reverse).toList := by
  rw [filter_eq_itemOf (nodup_mergeById xs), itemOf_mergeById]

/-- **A merge absorbs its last layer.** With the merge in place of the first layers, merging the
last one again gives the same items in the same order. -/
theorem mergeById_again (xs ys : List α) :
    mergeById key (mergeById key (xs ++ ys) ++ ys) = mergeById key (xs ++ ys) := by
  have hself : mergeById key (mergeById key (xs ++ ys)) = mergeById key (xs ++ ys) :=
    putAll_of_nodup (nodup_mergeById (xs ++ ys))
  rw [mergeById_append, hself, mergeById_append]
  exact putAll_putAll ys (nodup_mergeById xs)

end

/-! ## Loaded policies -/

/-- A loaded policy is the merge of a configuration, learned rules and a stored policy, each read
on its own. -/
theorem loadPolicy_eq_ok {config : Document} {learned : List Document} {snapshot : Document}
    {mode : Option String} {p : Policy} :
    loadPolicy config learned snapshot mode = .ok p ↔
      ∃ c l s, RepoConfig.ofDocument config = .ok c ∧ parseLearned learned = .ok l ∧
        Snapshot.ofDocument? snapshot = .ok s ∧ mergePolicy c (confidentRules l) s mode = p := by
  simp only [loadPolicy, bind_eq_ok]
  constructor
  · rintro ⟨c, hc, l, hl, s, hs, h⟩
    exact ⟨c, l, s, hc, hl, hs, Except.ok.inj h⟩
  · rintro ⟨c, l, s, hc, hl, hs, rfl⟩
    exact ⟨c, hc, l, hl, s, hs, rfl⟩

/-- Without learned rules and a snapshot the configuration alone makes the policy. -/
theorem loadPolicy_of_ofDocument {config : Document} {c : RepoConfig}
    (h : RepoConfig.ofDocument config = .ok c) (mode : Option String) :
    loadPolicy config [] .null mode = .ok (mergePolicy c [] none mode) :=
  loadPolicy_eq_ok.mpr ⟨c, [], none, h, rfl, rfl, rfl⟩

/-- **The hard rules of a loaded policy have different ids.** -/
theorem nodup_hardRules {config : Document} {learned : List Document} {snapshot : Document}
    {mode : Option String} {p : Policy} (h : loadPolicy config learned snapshot mode = .ok p) :
    (p.hardRules.map (·.id)).Nodup := by
  obtain ⟨c, l, s, _, _, _, rfl⟩ := loadPolicy_eq_ok.mp h
  exact nodup_mergeById _

/-! ## A small policy -/

/-- A configuration with one hard rule, against placeholders, which does not count in `vendor`. -/
def sampleConfig : Document :=
  .ofFields
    [("hard_rules", .list [.ofFields
        [("id", .text "no-placeholder"), ("description", .text "Placeholder"),
          ("scope", .text "**/*.go"), ("pattern", .text "TODO")]]),
      ("allowlist", .list [.ofFields [("path", .text "vendor/**")]]),
      ("enforcement", .ofFields [("mode", .text "enforce")])]

/-- The rule against placeholders. -/
def sampleRule : HardRule where
  id := "no-placeholder"
  description := "Placeholder"
  scope := "**/*.go"
  pattern := "TODO"
  severity := .critical
  source := .seed
  category := .any
  demand := .forbid
  target := .addedLines
  message := .null
  newCodeOnly := true

/-- The policy of the configuration. -/
def samplePolicy : Policy where
  softRules := []
  hardRules := [sampleRule]
  allowlist := [⟨"vendor/**", none, .null⟩]
  ignore := []
  settings := ⟨3, .null, 50000⟩
  enforcement := ⟨"enforce", [.critical], true, 3⟩
  agents := fun _ => .default

theorem loadPolicy_sampleConfig : loadPolicy sampleConfig [] .null none = .ok samplePolicy := by
  have hconfig : RepoConfig.ofDocument sampleConfig = .ok
      ⟨[], [sampleRule], [], samplePolicy.allowlist, samplePolicy.settings,
        samplePolicy.enforcement, samplePolicy.agents⟩ := by rfl
  exact loadPolicy_of_ofDocument hconfig none

end ReviewGate
