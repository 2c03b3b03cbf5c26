/-!
# `ReviewGate.Proofs.Sequence` — operations that can fail, one after the other

## Contents
- `eq_ok_of_toOption`, `exists_eq_ok_of_map`, `exists_eq_ok`: an answer read off the optional answer.
- `ok_bind`, `bind_eq_ok`, `exists_bind_iff`, `exists_bind_pure_iff`: an operation and what follows
  it.
- `mapM_eq_ok`, `exists_mapM_eq_ok`, `mapM_eq_ok_iff`: a list of operations succeeds if each of them
  does.
- `mapM_eq_error`: where there is one fault, it fails with that.
- `exists_mem_of_mapM`, `exists_of_mapM_eq_ok`: it only succeeds with their answers.
- `of_mem_filterM`: what a test that can fail keeps.
-/

namespace ReviewGate

variable {ε α β : Type}

theorem eq_ok_of_toOption {x : Except ε α} {a : α} (h : x.toOption = some a) : x = .ok a := by
  cases x with
  | error e => exact nomatch h
  | ok b => exact congrArg Except.ok (Option.some.inj h)

theorem exists_eq_ok_of_map {x : Except ε α} {f : α → β} {b : β} (h : x.toOption.map f = some b) :
    ∃ a, x = .ok a ∧ f a = b := by
  obtain ⟨a, ha, hb⟩ := Option.map_eq_some_iff.mp h
  exact ⟨a, eq_ok_of_toOption ha, hb⟩

theorem exists_eq_ok {x : Except ε α} (h : x.toOption.isSome = true) : ∃ a, x = .ok a :=
  ⟨_, eq_ok_of_toOption (Option.some_get h).symm⟩

theorem ok_bind (a : α) (k : α → Except ε β) : (Except.ok a >>= k) = k a := rfl

theorem bind_eq_ok {x : Except ε α} {k : α → Except ε β} {b : β} :
    (x >>= k) = .ok b ↔ ∃ a, x = .ok a ∧ k a = .ok b := by
  cases x with
  | error e => exact ⟨nofun, fun ⟨_, h, _⟩ => nomatch h⟩
  | ok a =>
      constructor
      · exact fun h => ⟨a, rfl, h⟩
      · rintro ⟨_, ha, h⟩
        exact Except.ok.inj ha ▸ h

/-- An operation and what follows it succeed if both do, where its answer does not matter to whether
the second one does. -/
theorem exists_bind_iff {x : Except ε α} {k : α → Except ε β} {p : Prop}
    (h : ∀ a, (∃ b, k a = .ok b) ↔ p) : (∃ b, (x >>= k) = .ok b) ↔ (∃ a, x = .ok a) ∧ p := by
  constructor
  · rintro ⟨b, hb⟩
    obtain ⟨a, ha, hk⟩ := bind_eq_ok.mp hb
    exact ⟨⟨a, ha⟩, (h a).mp ⟨b, hk⟩⟩
  · rintro ⟨⟨a, ha⟩, hp⟩
    obtain ⟨b, hb⟩ := (h a).mpr hp
    exact ⟨b, bind_eq_ok.mpr ⟨a, ha, hb⟩⟩

theorem exists_bind_pure_iff {x : Except ε α} {f : α → β} :
    (∃ b, (x >>= fun a => pure (f a)) = .ok b) ↔ ∃ a, x = .ok a :=
  (exists_bind_iff fun a => iff_of_true ⟨f a, rfl⟩ trivial).trans (and_iff_left trivial)

theorem mapM_eq_ok {f : α → Except ε β} {g : α → β} {xs : List α} (h : ∀ x ∈ xs, f x = .ok (g x)) :
    xs.mapM f = .ok (xs.map g) := by
  induction xs with
  | nil => rfl
  | cons x rest ih =>
      rw [List.mapM_cons, h x (List.mem_cons_self ..),
        ih fun y hy => h y (List.mem_cons_of_mem _ hy)]
      rfl

theorem exists_mapM_eq_ok {f : α → Except ε β} {xs : List α} (h : ∀ x ∈ xs, ∃ y, f x = .ok y) :
    ∃ ys, xs.mapM f = .ok ys := by
  induction xs with
  | nil => exact ⟨[], rfl⟩
  | cons x rest ih =>
      obtain ⟨y, hy⟩ := h x (List.mem_cons_self ..)
      obtain ⟨ys, hys⟩ := ih fun z hz => h z (List.mem_cons_of_mem _ hz)
      rw [List.mapM_cons, hy, hys]
      exact ⟨y :: ys, rfl⟩

/-- Where no operation fails in another way, one that fails makes the list of them fail. -/
theorem mapM_eq_error {f : α → Except ε β} {fault : ε} {xs : List α}
    (h : ∀ x ∈ xs, (∃ y, f x = .ok y) ∨ f x = .error fault) {x : α} (hx : x ∈ xs)
    (hfault : f x = .error fault) : xs.mapM f = .error fault := by
  induction xs with
  | nil => exact absurd hx List.not_mem_nil
  | cons z rest ih =>
      obtain ⟨hz, hrest⟩ := List.forall_mem_cons.mp h
      rw [List.mapM_cons]
      rcases hz with ⟨y, hy⟩ | hz
      · rcases List.mem_cons.mp hx with rfl | hx
        · rw [hy] at hfault
          cases hfault
        · rw [hy, ok_bind, ih hrest hx]
          rfl
      · rw [hz]
        rfl

/-- Where `g` tells the answer of each operation that succeeds, a list of operations succeeds exactly
if each of them does, and the answers are those that `g` tells. -/
theorem mapM_eq_ok_iff {f : α → Except ε β} {g : α → β} (hg : ∀ x y, f x = .ok y → y = g x)
    {xs : List α} {ys : List β} :
    xs.mapM f = .ok ys ↔ (∀ x ∈ xs, f x = .ok (g x)) ∧ ys = xs.map g := by
  constructor
  · intro h
    have hall : ∀ x ∈ xs, f x = .ok (g x) := by
      induction xs generalizing ys with
      | nil => exact fun x hx => absurd hx List.not_mem_nil
      | cons x rest ih =>
          rw [List.mapM_cons] at h
          obtain ⟨z, hz, h⟩ := bind_eq_ok.mp h
          obtain ⟨zs, hzs, _⟩ := bind_eq_ok.mp h
          intro y hy
          rcases List.mem_cons.mp hy with rfl | hrest
          · exact hg y z hz ▸ hz
          · exact ih hzs y hrest
    rw [mapM_eq_ok hall] at h
    exact ⟨hall, (Except.ok.inj h).symm⟩
  · rintro ⟨hall, rfl⟩
    exact mapM_eq_ok hall

/-- Each operation of a list that succeeds has succeeded, and its answer is among the answers. -/
theorem exists_mem_of_mapM {f : α → Except ε β} {xs : List α} {ys : List β}
    (h : xs.mapM f = .ok ys) {x : α} (hx : x ∈ xs) : ∃ y ∈ ys, f x = .ok y := by
  induction xs generalizing ys with
  | nil => exact absurd hx List.not_mem_nil
  | cons x' rest ih =>
      rw [List.mapM_cons] at h
      obtain ⟨y, hy, h⟩ := bind_eq_ok.mp h
      obtain ⟨zs, hrest, h⟩ := bind_eq_ok.mp h
      obtain rfl : y :: zs = ys := Except.ok.inj h
      rcases List.mem_cons.mp hx with rfl | hmem
      · exact ⟨y, List.mem_cons_self, hy⟩
      · obtain ⟨z, hz, hfz⟩ := ih hrest hmem
        exact ⟨z, List.mem_cons_of_mem _ hz, hfz⟩

theorem exists_eq_ok_of_mapM {f : α → Except ε β} {xs : List α} {ys : List β}
    (h : xs.mapM f = .ok ys) {x : α} (hx : x ∈ xs) : ∃ y, f x = .ok y := by
  obtain ⟨y, -, hy⟩ := exists_mem_of_mapM h hx
  exact ⟨y, hy⟩

/-- Every answer of a list of operations is the answer of one of them. -/
theorem exists_of_mapM_eq_ok {f : α → Except ε β} {xs : List α} {ys : List β}
    (h : xs.mapM f = .ok ys) {y : β} (hy : y ∈ ys) : ∃ x ∈ xs, f x = .ok y := by
  induction xs generalizing ys with
  | nil =>
      have hnil : ys = [] := (Except.ok.inj h).symm
      exact absurd (hnil ▸ hy) List.not_mem_nil
  | cons x rest ih =>
      rw [List.mapM_cons] at h
      obtain ⟨z, hz, h⟩ := bind_eq_ok.mp h
      obtain ⟨zs, hzs, h⟩ := bind_eq_ok.mp h
      have hys : ys = z :: zs := (Except.ok.inj h).symm
      rcases List.mem_cons.mp (hys ▸ hy) with rfl | hrest
      · exact ⟨x, List.mem_cons_self .., hz⟩
      · obtain ⟨w, hw, hfw⟩ := ih hzs hrest
        exact ⟨w, List.mem_cons_of_mem _ hw, hfw⟩

/-- What the tests of a list keep, behind what was kept before, is of the list and has passed. -/
theorem of_mem_filterAuxM {p : α → Except ε Bool} {xs kept ys : List α}
    (h : xs.filterAuxM p kept = .ok ys) {y : α} (hy : y ∈ ys) :
    y ∈ kept ∨ (y ∈ xs ∧ p y = .ok true) := by
  induction xs generalizing kept with
  | nil =>
      obtain rfl := Except.ok.inj h
      exact Or.inl hy
  | cons x rest ih =>
      obtain ⟨passed, hpassed, h⟩ := bind_eq_ok.mp h
      rcases ih h with hkept | ⟨hrest, hy⟩
      · cases passed with
        | false => exact Or.inl hkept
        | true =>
            rcases List.mem_cons.mp hkept with rfl | hkept
            · exact Or.inr ⟨List.mem_cons_self, hpassed⟩
            · exact Or.inl hkept
      · exact Or.inr ⟨List.mem_cons_of_mem _ hrest, hy⟩

/-- What the tests of a list keep is of the list and has passed. -/
theorem of_mem_filterM {p : α → Except ε Bool} {xs ys : List α} (h : xs.filterM p = .ok ys) {y : α}
    (hy : y ∈ ys) : y ∈ xs ∧ p y = .ok true := by
  obtain ⟨found, hfound, h⟩ := bind_eq_ok.mp h
  obtain rfl := Except.ok.inj h
  exact (of_mem_filterAuxM hfound (List.mem_reverse.mp hy)).resolve_left List.not_mem_nil

end ReviewGate
