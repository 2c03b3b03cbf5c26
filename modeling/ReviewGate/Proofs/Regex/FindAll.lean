import ReviewGate.Proofs.Regex.Places

/-!
# `ReviewGate.Proofs.Regex.FindAll` — all matches in a text

The matches in a text are found from left to right, each from the end of the one before. A pattern
that always reads something (`Node.Moves`) is never stuck at a place, so the search comes to the end
of the text. Every match found is a part of the text that the pattern leads over
(`exists_slices_of_mem_findAll`), and every place with a match lies within a match found, which may
have begun earlier (`exists_covering_of_matchAt?`).

## Contents
- `searchFrom_eq_some_iff`, `searchFrom_isSome_iff_exists`: the first match.
- `Node.Moves`, `findFrom_succ`: patterns that read something, and a step of the search for them.
- `exists_covering`, `exists_covering_of_matchAt?`: no place with a match is left out.
- `exists_matchAt?_of_mem_findFrom`, `exists_slices_of_mem_findAll`: nothing else is found.
-/

namespace ReviewGate.Regex

/-! ## The first match -/

/-- **The first match is at the first place that has one.** -/
theorem searchFrom_eq_some_iff {n : Node} {before cs : List Char} {position : Nat} {m : Match} :
    searchFrom n before position cs = some m ↔
      ∃ j ≤ cs.length, matchAt? n ((⟨before, cs, position, []⟩ : Place).ahead j) = some m ∧
        ∀ i < j, matchAt? n ((⟨before, cs, position, []⟩ : Place).ahead i) = none := by
  induction cs generalizing before position with
  | nil =>
      rw [searchFrom]
      constructor
      · exact fun h => ⟨0, Nat.le_refl 0, h, fun i hi => absurd hi (Nat.not_lt_zero i)⟩
      · rintro ⟨j, hj, h, -⟩
        obtain rfl := Nat.le_zero.mp hj
        exact h
  | cons c cs ih =>
      have hnext : ∀ j, (⟨before, c :: cs, position, []⟩ : Place).ahead (j + 1)
          = (⟨c :: before, cs, position + 1, []⟩ : Place).ahead j := fun j => by
        rw [Nat.add_comm j, ← Place.ahead_ahead]
        rfl
      rw [searchFrom]
      cases hhere : matchAt? n ⟨before, c :: cs, position, []⟩ with
      | some found =>
          constructor
          · intro h
            exact ⟨0, Nat.zero_le _, hhere.trans h, fun i hi => absurd hi (Nat.not_lt_zero i)⟩
          · rintro ⟨j, -, h, hnone⟩
            cases j with
            | zero => exact hhere.symm.trans h
            | succ j =>
                exact absurd (hhere.symm.trans (hnone 0 (Nat.succ_pos j))) (Option.some_ne_none _)
      | none =>
          show searchFrom n (c :: before) (position + 1) cs = some m ↔ _
          rw [ih]
          constructor
          · rintro ⟨j, hj, h, hnone⟩
            refine ⟨j + 1, Nat.succ_le_succ hj, (hnext j) ▸ h, fun i hi => ?_⟩
            cases i with
            | zero => exact hhere
            | succ i => exact (hnext i) ▸ hnone i (Nat.lt_of_succ_lt_succ hi)
          · rintro ⟨j, hj, h, hnone⟩
            cases j with
            | zero => exact absurd (h.symm.trans hhere) (Option.some_ne_none _)
            | succ j =>
                refine ⟨j, Nat.le_of_succ_le_succ hj, (hnext j) ▸ h, fun i hi => ?_⟩
                exact (hnext i) ▸ hnone (i + 1) (Nat.succ_lt_succ hi)

/-- Somewhere there is a match exactly if there is one at some place. -/
theorem searchFrom_isSome_iff_exists {n : Node} {before cs : List Char} {position : Nat} :
    (searchFrom n before position cs).isSome = true ↔
      ∃ j ≤ cs.length,
        (matchAt? n ((⟨before, cs, position, []⟩ : Place).ahead j)).isSome = true := by
  constructor
  · intro h
    obtain ⟨m, hm⟩ := Option.isSome_iff_exists.mp h
    obtain ⟨j, hj, hmatch, -⟩ := searchFrom_eq_some_iff.mp hm
    exact ⟨j, hj, Option.isSome_iff_exists.mpr ⟨m, hmatch⟩⟩
  · rintro ⟨j, hj, hmatch⟩
    -- the first such place is the one that the search stops at
    induction j using Nat.strongRecOn with
    | ind j ih =>
        by_cases hearlier : ∃ i < j, (matchAt? n
            ((⟨before, cs, position, []⟩ : Place).ahead i)).isSome = true
        · obtain ⟨i, hi, hmatch⟩ := hearlier
          exact ih i hi (by omega) hmatch
        · obtain ⟨m, hm⟩ := Option.isSome_iff_exists.mp hmatch
          refine Option.isSome_iff_exists.mpr ⟨m, searchFrom_eq_some_iff.mpr ⟨j, hj, hm, ?_⟩⟩
          exact fun i hi => Option.not_isSome_iff_eq_none.mp fun h => hearlier ⟨i, hi, h⟩

/-! ## All matches -/

/-- The node is flat and reads at least one character. -/
structure Node.Moves (n : Node) : Prop where
  flat : n.isFlat = true
  moves : ∀ {p q}, q ∈ n.places p → p.position < q.position

/-- A match of such a node starts at its place and ends further on in the text. -/
theorem Node.Moves.exists_ahead {n : Node} (hn : n.Moves) {p : Place} {m : Match}
    (h : matchAt? n p = some m) :
    m.first = p ∧ ∃ l, 0 < l ∧ l ≤ p.after.length ∧ m.last.bare = p.bare.ahead l := by
  obtain ⟨hfirst, hlast⟩ := last_mem_places_of_matchAt? hn.flat h
  obtain ⟨l, hl, hahead⟩ := Node.ahead_of_mem_places hn.flat hlast
  have hposition : m.last.position = p.position + l := congrArg Place.position hahead
  have hmoves : p.position < m.last.position := hn.moves (p := p.bare) hlast
  exact ⟨hfirst, l, by omega, hl, hahead⟩

section

variable {n : Node} (hn : n.Moves)
include hn

/-- Behind the first match the others are found from its end. -/
theorem findFrom_succ (fuel : Nat) (p : Place) :
    (searchFrom n p.before p.position p.after = none ∧ findFrom n (fuel + 1) false p = []) ∨
      ∃ m i l, i + l ≤ p.after.length ∧ 0 < l ∧
        matchAt? n (p.bare.ahead i) = some m ∧
        (∀ k < i, matchAt? n (p.bare.ahead k) = none) ∧
        m.first = p.bare.ahead i ∧ m.last.bare = p.bare.ahead (i + l) ∧
        findFrom n (fuel + 1) false p = m :: findFrom n fuel false m.last := by
  rw [findFrom]
  simp only [Bool.false_eq_true, if_false]
  cases hsearch : searchFrom n p.before p.position p.after with
  | none => exact Or.inl ⟨rfl, rfl⟩
  | some m =>
      obtain ⟨i, hi, hmatch, hnone⟩ := searchFrom_eq_some_iff.mp hsearch
      obtain ⟨hfirst, l, hpos, hl, hlast⟩ := hn.exists_ahead hmatch
      have hlength : (p.bare.ahead i).after.length = p.after.length - i := List.length_drop
      have hend : m.last.bare = p.bare.ahead (i + l) := by
        rw [hlast, ← Place.ahead_ahead]
        rfl
      have hmoved : (m.last.position == m.first.position) = false := by
        have hposition : m.last.position = p.position + (i + l) := congrArg Place.position hend
        have hstart : m.first.position = p.position + i := congrArg Place.position hfirst
        rw [beq_eq_false_iff_ne]
        omega
      refine Or.inr ⟨m, i, l, ?_, hpos, hmatch, hnone, hfirst, hend, ?_⟩
      · have hl' : l ≤ p.after.length - i := hlength ▸ hl
        omega
      · show m :: findFrom n fuel (m.last.position == m.first.position) m.last = _
        rw [hmoved]

/-- A place with a match lies within a match found, if there is fuel up to the end of the text. -/
theorem exists_covering {fuel : Nat} {p : Place} (hfuel : p.after.length < fuel) {j : Nat}
    (hj : j ≤ p.after.length) (hmatch : (matchAt? n (p.bare.ahead j)).isSome = true) :
    ∃ m ∈ findFrom n fuel false p,
      m.first.position ≤ p.position + j ∧ p.position + j < m.last.position := by
  induction fuel generalizing p j with
  | zero => exact absurd hfuel (Nat.not_lt_zero _)
  | succ fuel ih =>
      obtain ⟨hnone, -⟩ | ⟨m, i, l, hil, hpos, -, hbefore, hfirst, hlast, hrest⟩ :=
        findFrom_succ hn fuel p
      · have hsome := searchFrom_isSome_iff_exists.mpr ⟨j, hj, hmatch⟩
        rw [hnone] at hsome
        exact nomatch hsome
      · have hij : i ≤ j := by
          by_contra hlt
          rw [hbefore j (by omega)] at hmatch
          exact nomatch hmatch
        have hstart : m.first.position = p.position + i := congrArg Place.position hfirst
        have hend : m.last.position = p.position + (i + l) := congrArg Place.position hlast
        rw [hrest]
        by_cases hin : j < i + l
        · exact ⟨m, List.mem_cons_self, by omega, by omega⟩
        · -- the place is behind the first match, so it is found from the end of that
          have hafter : m.last.after.length = p.after.length - (i + l) := by
            rw [← List.length_drop]
            exact congrArg (·.after.length) hlast
          have hplace : m.last.bare.ahead (j - (i + l)) = p.bare.ahead j := by
            rw [hlast, Place.ahead_ahead]
            exact congrArg p.bare.ahead (by omega)
          obtain ⟨m', hm', hle, hlt⟩ := ih (p := m.last) (j := j - (i + l)) (by omega) (by omega)
            (hplace ▸ hmatch)
          exact ⟨m', List.mem_cons_of_mem _ hm', by omega, by omega⟩

/-- What is found is a match at its place. -/
theorem exists_matchAt?_of_mem_findFrom {fuel : Nat} {p : Place} {m : Match}
    (hm : m ∈ findFrom n fuel false p) :
    ∃ i ≤ p.after.length, matchAt? n (p.bare.ahead i) = some m := by
  induction fuel generalizing p with
  | zero => exact absurd hm List.not_mem_nil
  | succ fuel ih =>
      obtain ⟨-, hnil⟩ | ⟨m', i, l, hil, -, hmatch, -, -, hlast, hrest⟩ :=
        findFrom_succ hn fuel p
      · rw [hnil] at hm
        exact absurd hm List.not_mem_nil
      · rw [hrest] at hm
        obtain rfl | hm := List.mem_cons.mp hm
        · exact ⟨i, by omega, hmatch⟩
        · obtain ⟨k, hk, hmatch⟩ := ih hm
          have hafter : m'.last.after.length = p.after.length - (i + l) := by
            rw [← List.length_drop]
            exact congrArg (·.after.length) hlast
          rw [hlast, Place.ahead_ahead] at hmatch
          exact ⟨i + l + k, by omega, hmatch⟩

/-- **Every place with a match lies within a match found.** -/
theorem exists_covering_of_matchAt? {cs : List Char} {j : Nat} (hj : j ≤ cs.length)
    (hmatch : (matchAt? n ((Place.start cs).ahead j)).isSome = true) :
    ∃ m ∈ findAll n cs, m.first.position ≤ j ∧ j < m.last.position := by
  have hfuel : (Place.start cs).after.length < 2 * cs.length + 2 := by
    show cs.length < _
    omega
  obtain ⟨m, hm, hle, hlt⟩ := exists_covering hn hfuel hj hmatch
  exact ⟨m, hm, by simpa [Place.start] using hle, by simpa [Place.start] using hlt⟩

/-- **Every match found is a match at its place**, so it is a part of the text. -/
theorem exists_slices_of_mem_findAll {cs : List Char} {m : Match} (hm : m ∈ findAll n cs) :
    ∃ i l, i + l ≤ cs.length ∧ m.first = (Place.start cs).ahead i ∧
      m.last ∈ n.places ((Place.start cs).ahead i) ∧ m.last.bare = (Place.start cs).ahead (i + l) ∧
      m.chars = (cs.drop i).take l := by
  obtain ⟨i, hi, hmatch⟩ := exists_matchAt?_of_mem_findFrom hn hm
  obtain ⟨hfirst, l, -, hl, hlast⟩ := hn.exists_ahead hmatch
  obtain ⟨-, hplaces⟩ := last_mem_places_of_matchAt? hn.flat hmatch
  have hend : m.last.bare = (Place.start cs).ahead (i + l) := by
    rw [hlast, ← Place.ahead_ahead]
    rfl
  have hlength : l ≤ cs.length - i := by
    rw [← List.length_drop]
    exact hl
  refine ⟨i, l, ?_, hfirst, hplaces, hend, ?_⟩
  · have hi' : i ≤ cs.length := hi
    omega
  · have hposition : m.last.position = (0 + (i + l)) := congrArg Place.position hend
    rw [Match.chars, Place.since, hfirst, hposition]
    show (cs.drop i).take (0 + (i + l) - (0 + i)) = _
    congr 1
    omega

end

end ReviewGate.Regex
