import ReviewGate.Proofs.Regex.Language

/-!
# `ReviewGate.Proofs.Regex.Places` — where a pattern leads

Backtracking with a continuation is a search through a list. A pattern without tests of what lies
around and without references leads from a place to a list of places, in the order in which it tries
them (`Node.places`), and running it gives the first of them at which the continuation succeeds
(`Node.run_eq_findSome?`). So a match of the pattern ends at one of these places, and there is a
match wherever there is such a place. Anchors and groups are covered; for a plain pattern the places
are those behind the texts of its language (`Node.mem_places_of_isPlain`).

## Contents
- `Node.isFlat`, `Node.places`: patterns with the places that they lead to.
- `Node.run_eq_findSome?`: a run is a search through the places.
- `Node.mem_places_of_isPlain`, `Node.mem_places_ofList_append`: the places of plain patterns, and
  of patterns in a row.
- `Place.bare`, `Node.ahead_of_mem_places`: a pattern leads on in the text.
- `last_mem_places_of_matchAt?`, `matchAt?_isSome_of_mem_places`: matches.
-/

namespace ReviewGate.Regex

/-- Nodes without tests of what lies around and without references; repetitions are of one
character, and may give back. -/
def Node.isFlat : Node → Bool
  | .empty | .one _ | .anchor _ => true
  | .seq a b | .alt a b => a.isFlat && b.isFlat
  | .group _ body => body.isFlat
  | .loop _ _ greed body => body.isOne && greed != .possessive
  | _ => false

/-- The places that a flat node leads to, in the order in which it tries them. -/
def Node.places : Node → Place → List Place
  | .empty, p => [p]
  | .one s, p => (readOne s p).toList
  | .anchor a, p => if a.holds p then [p] else []
  | .seq a b, p => (a.places p).flatMap b.places
  | .alt a b, p => a.places p ++ b.places p
  | .group index body, p => (body.places p).map fun q => q.capture index p
  | .loop least most .lazy (.one s), p => (tried s least most p).reverse
  | .loop least most _ (.one s), p => tried s least most p
  | _, _ => []

/-- A search through lists in a row goes through one after the other. -/
theorem findSome?_flatMap {α β γ : Type} (xs : List α) (f : α → List β) (k : β → Option γ) :
    (xs.flatMap f).findSome? k = xs.findSome? fun x => (f x).findSome? k := by
  induction xs with
  | nil => rfl
  | cons x rest ih =>
      rw [List.flatMap_cons, List.findSome?_append, ih, List.findSome?_cons]
      cases (f x).findSome? k <;> rfl

/-- **Running a node is searching through its places.** -/
theorem Node.run_eq_findSome? {n : Node} (hn : n.isFlat = true) (p : Place) (k : Continuation) :
    n.run p k = (n.places p).findSome? k := by
  induction n generalizing p k with
  | empty => exact (List.findSome?_singleton ..).symm
  | one s =>
      rw [run, places]
      cases readOne s p with
      | none => rfl
      | some q => exact (List.findSome?_singleton ..).symm
  | anchor a =>
      rw [run, places]
      split
      · exact (List.findSome?_singleton ..).symm
      · rfl
  | seq a b iha ihb =>
      obtain ⟨ha, hb⟩ := Bool.and_eq_true_iff.mp hn
      rw [run, places, iha ha, findSome?_flatMap]
      exact congrArg (List.findSome? · _) (funext fun q => ihb hb q k)
  | alt a b iha ihb =>
      obtain ⟨ha, hb⟩ := Bool.and_eq_true_iff.mp hn
      rw [run, places, List.findSome?_append, iha ha, ihb hb]
      cases (a.places p).findSome? k <;> rfl
  | group index body ih =>
      rw [run, places, ih hn, List.findSome?_map]
      rfl
  | loop least most greed body ih =>
      obtain ⟨hone, hgreed⟩ := Bool.and_eq_true_iff.mp hn
      cases body with
      | one s =>
          cases greed with
          | greedy => rfl
          | lazy => rfl
          | possessive => exact absurd hgreed (by decide)
      | _ => exact absurd hone Bool.false_ne_true
  | _ => exact absurd hn Bool.false_ne_true

/-! ## Plain patterns and patterns in a row -/

theorem Node.isFlat_of_isPlain {n : Node} (hn : n.isPlain = true) : n.isFlat = true := by
  induction n with
  | seq a b iha ihb =>
      obtain ⟨ha, hb⟩ := Bool.and_eq_true_iff.mp hn
      exact Bool.and_eq_true_iff.mpr ⟨iha ha, ihb hb⟩
  | alt a b iha ihb =>
      obtain ⟨ha, hb⟩ := Bool.and_eq_true_iff.mp hn
      exact Bool.and_eq_true_iff.mpr ⟨iha ha, ihb hb⟩
  | empty | one s => rfl
  | loop least most greed body _ => exact hn
  | _ => exact nomatch hn

/-- **A plain pattern leads to the places behind the texts of its language.** -/
theorem Node.mem_places_of_isPlain {n : Node} (hn : n.isPlain = true) {p q : Place} :
    q ∈ n.places p ↔ ∃ u, u <+: p.after ∧ u ∈ n.language ∧ q = p.ahead u.length := by
  classical
  -- a continuation that succeeds at one place tells whether the place is reached
  have hplace : ∀ r : Place, (if q = r then some r else none).isSome = true ↔ q = r := fun r => by
    by_cases h : q = r <;> simp [h]
  have hrun := Node.run_isSome_iff hn (p := p) (k := fun r => if q = r then some r else none)
  rw [Node.run_eq_findSome? (isFlat_of_isPlain hn), List.findSome?_isSome_iff] at hrun
  simp only [hplace, exists_eq_right'] at hrun
  exact hrun

theorem Node.mem_places_ofList_cons {n : Node} {ns : List Node} {p q : Place} :
    q ∈ (Node.ofList (n :: ns)).places p ↔ ∃ r ∈ n.places p, q ∈ (Node.ofList ns).places r := by
  cases ns with
  | nil =>
      have hempty : ∀ r : Place, q ∈ (Node.ofList []).places r ↔ r = q := fun r =>
        List.mem_singleton.trans eq_comm
      simp only [hempty, exists_eq_right]
      rfl
  | cons m rest => exact List.mem_flatMap

/-- Nodes in a row lead over the first of them and then over the others. -/
theorem Node.mem_places_ofList_append {ns ms : List Node} {p q : Place} :
    q ∈ (Node.ofList (ns ++ ms)).places p ↔
      ∃ r ∈ (Node.ofList ns).places p, q ∈ (Node.ofList ms).places r := by
  induction ns generalizing p with
  | nil =>
      have hempty : ∀ r : Place, r ∈ (Node.ofList []).places p ↔ r = p := fun r =>
        List.mem_singleton
      simp only [hempty, exists_eq_left]
      rfl
  | cons n rest ih =>
      rw [List.cons_append, mem_places_ofList_cons]
      simp only [ih, mem_places_ofList_cons]
      constructor
      · rintro ⟨r, hr, s, hs, hq⟩
        exact ⟨s, ⟨r, hr, hs⟩, hq⟩
      · rintro ⟨s, ⟨r, hr, hs⟩, hq⟩
        exact ⟨r, hr, s, hs, hq⟩

/-! ## Places on the way -/

/-- The place without what the groups have read. -/
def Place.bare (p : Place) : Place := { p with groups := [] }

/-- **A flat pattern leads on in the text**, whatever its groups read on the way. -/
theorem Node.ahead_of_mem_places {n : Node} (hn : n.isFlat = true) {p q : Place}
    (hq : q ∈ n.places p) : ∃ j ≤ p.after.length, q.bare = (p.ahead j).bare := by
  have hplain : ∀ {n : Node} {p q : Place}, n.isPlain = true → q ∈ n.places p →
      ∃ j ≤ p.after.length, q.bare = (p.ahead j).bare := by
    intro n p q hn hq
    obtain ⟨u, hu, -, rfl⟩ := (Node.mem_places_of_isPlain hn).mp hq
    exact ⟨u.length, hu.length_le, rfl⟩
  induction n generalizing p q with
  | empty => exact hplain rfl hq
  | one s => exact hplain rfl hq
  | anchor a =>
      rw [places] at hq
      split at hq
      · exact ⟨0, Nat.zero_le _, congrArg Place.bare (List.mem_singleton.mp hq)⟩
      · exact absurd hq List.not_mem_nil
  | seq a b iha ihb =>
      obtain ⟨ha, hb⟩ := Bool.and_eq_true_iff.mp hn
      obtain ⟨r, hr, hq⟩ := List.mem_flatMap.mp hq
      obtain ⟨i, hi, hfirst⟩ := iha ha hr
      obtain ⟨j, hj, hsecond⟩ := ihb hb hq
      have hafter : r.after = p.after.drop i := congrArg Place.after hfirst
      rw [hafter, List.length_drop] at hj
      refine ⟨i + j, by omega, hsecond.trans ?_⟩
      rw [← Place.ahead_ahead]
      exact congrArg (Place.ahead · j) hfirst
  | alt a b iha ihb =>
      obtain ⟨ha, hb⟩ := Bool.and_eq_true_iff.mp hn
      exact (List.mem_append.mp hq).elim (iha ha) (ihb hb)
  | group index body ih =>
      obtain ⟨r, hr, rfl⟩ := List.mem_map.mp hq
      show ∃ j ≤ p.after.length, r.bare = (p.ahead j).bare
      exact ih hn hr
  | loop least most greed body _ => exact hplain (n := .loop least most greed body) hn hq
  | _ => exact nomatch hn

/-! ## Matches -/

/-- A match of a flat pattern ends at a place that the pattern leads to. -/
theorem last_mem_places_of_matchAt? {n : Node} (hn : n.isFlat = true) {p : Place} {m : Match}
    (h : matchAt? n p = some m) : m.first = p ∧ m.last ∈ n.places p.bare := by
  obtain ⟨q, hq, rfl⟩ := Option.map_eq_some_iff.mp h
  rw [Node.run_eq_findSome? hn] at hq
  obtain ⟨r, hr, hsome⟩ := List.exists_of_findSome?_eq_some hq
  exact ⟨rfl, Option.some.inj hsome ▸ hr⟩

/-- There is a match wherever a flat pattern leads anywhere. -/
theorem matchAt?_isSome_of_mem_places {n : Node} (hn : n.isFlat = true) {p q : Place}
    (hq : q ∈ n.places p.bare) : (matchAt? n p).isSome = true := by
  rw [matchAt?, Option.isSome_map]
  show (n.run p.bare some).isSome = true
  rw [Node.run_eq_findSome? hn, List.findSome?_isSome_iff]
  exact ⟨q, hq, rfl⟩

end ReviewGate.Regex
