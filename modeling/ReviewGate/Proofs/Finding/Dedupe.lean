import Mathlib.Data.List.Nodup
import ReviewGate.Finding.Synthesis

/-!
# `ReviewGate.Proofs.Finding.Dedupe` — which findings a merge keeps

`dedupe` goes through the findings once and replaces a kept finding whenever a graver one with its
key comes along. Seen from outside there is no replacing: for each key the result holds one
finding, the gravest of those with the key, and the first of them if several are equally grave.

That view has two halves. A test that depends on the key alone commutes with `dedupe`
(`filter_dedupe`), so the findings with one key can be looked at alone; and on findings with one key
`dedupe` is a maximum (`dedupe_of_key`). `mem_dedupe_iff` puts the halves together, and everything
else here is read off it.

## Contents
- `Finding.graver`, `gravest?`: the graver of two findings, the gravest of several.
- `filter_dedupe`, `dedupe_of_key`, `mem_dedupe_iff`: the view.
- `exists_withKey_dedupe_append`: what further findings can change.
- `exists_severity_dedupe`: severities survive where the key determines them.
- `nodup_key_dedupe`, `perm_map_dedupe`: the merge and the order in which findings come.
- `rankFindings_perm`, `mem_synthesize`: ranking and synthesizing lose nothing.
-/

namespace ReviewGate

/-! ## The gravest finding -/

/-- The graver of two findings, the first if they are equally grave. -/
def Finding.graver (x y : Finding) : Finding := if x.severity.rank < y.severity.rank then y else x

/-- The gravest of several findings, the first of them if several are equally grave. -/
def gravest? : List Finding → Option Finding
  | [] => none
  | x :: rest => some (rest.foldl Finding.graver x)

theorem Severity.rank_injective : Function.Injective Severity.rank := by
  intro s t h
  cases s <;> cases t <;> simp_all [Severity.rank]

theorem rank_graver (x y : Finding) :
    (x.graver y).severity.rank = max x.severity.rank y.severity.rank := by
  unfold Finding.graver
  split <;> omega

theorem graver_eq_or (x y : Finding) : x.graver y = x ∨ x.graver y = y := by
  unfold Finding.graver
  by_cases h : x.severity.rank < y.severity.rank
  · exact Or.inr (if_pos h)
  · exact Or.inl (if_neg h)

theorem foldl_graver_mem (x : Finding) (xs : List Finding) :
    xs.foldl Finding.graver x ∈ x :: xs := by
  induction xs generalizing x with
  | nil => exact List.mem_singleton.mpr rfl
  | cons y rest ih =>
      rw [List.foldl_cons]
      rcases graver_eq_or x y with h | h
      · rw [h]
        rcases List.mem_cons.mp (ih x) with hx | hr
        · exact List.mem_cons.mpr (Or.inl hx)
        · exact List.mem_cons.mpr (Or.inr (List.mem_cons_of_mem y hr))
      · rw [h]
        exact List.mem_cons_of_mem x (ih y)

theorem rank_le_foldl_graver {x y : Finding} {xs : List Finding} (hy : y ∈ x :: xs) :
    y.severity.rank ≤ (xs.foldl Finding.graver x).severity.rank := by
  induction xs generalizing x y with
  | nil => rw [List.mem_singleton.mp hy]; exact Nat.le_refl _
  | cons z rest ih =>
      rw [List.foldl_cons]
      -- the running finding only gets graver
      have hz := rank_graver x z
      have hhead : (x.graver z).severity.rank
          ≤ (rest.foldl Finding.graver (x.graver z)).severity.rank :=
        ih (List.mem_cons_self ..)
      rcases List.mem_cons.mp hy with rfl | hy'
      · omega
      · rcases List.mem_cons.mp hy' with rfl | hr
        · omega
        · exact ih (List.mem_cons_of_mem _ hr)

theorem gravest?_mem {xs : List Finding} {y : Finding} (h : gravest? xs = some y) : y ∈ xs := by
  cases xs with
  | nil => exact absurd h (by simp [gravest?])
  | cons x rest => exact Option.some.inj h ▸ foldl_graver_mem x rest

theorem rank_le_gravest? {xs : List Finding} {x y : Finding} (h : gravest? xs = some y)
    (hx : x ∈ xs) : x.severity.rank ≤ y.severity.rank := by
  cases xs with
  | nil => exact absurd hx List.not_mem_nil
  | cons z rest => exact Option.some.inj h ▸ rank_le_foldl_graver hx

theorem gravest?_isSome {xs : List Finding} {x : Finding} (hx : x ∈ xs) :
    ∃ y, gravest? xs = some y := by
  cases xs with
  | nil => exact absurd hx List.not_mem_nil
  | cons z rest => exact ⟨_, rfl⟩

/-- A finding that none is graver than stays the gravest. -/
theorem foldl_graver_eq_self {x : Finding} {xs : List Finding}
    (h : ∀ y ∈ xs, y.severity.rank ≤ x.severity.rank) : xs.foldl Finding.graver x = x := by
  induction xs with
  | nil => rfl
  | cons y rest ih =>
      have hy : y.severity.rank ≤ x.severity.rank := h y (List.mem_cons_self ..)
      rw [List.foldl_cons, Finding.graver, if_neg (Nat.not_lt.mpr hy)]
      exact ih fun z hz => h z (List.mem_cons_of_mem _ hz)

/-- Among equally grave findings the first is the gravest. -/
theorem gravest?_eq_head? {xs : List Finding} {s : Severity} (h : ∀ x ∈ xs, x.severity = s) :
    gravest? xs = xs.head? := by
  cases xs with
  | nil => rfl
  | cons x rest =>
      have hx : x.severity = s := h x (List.mem_cons_self ..)
      have hrest : ∀ y ∈ rest, y.severity.rank ≤ x.severity.rank := by
        intro y hy
        have hy' : y.severity = s := h y (List.mem_cons_of_mem _ hy)
        exact Nat.le_of_eq (by rw [hx, hy'])
      rw [gravest?, foldl_graver_eq_self hrest]
      rfl

/-- Further findings compete with the gravest of the first ones. -/
theorem gravest?_append {xs : List Finding} {x : Finding} (h : gravest? xs = some x)
    (ys : List Finding) : gravest? (xs ++ ys) = some (ys.foldl Finding.graver x) := by
  cases xs with
  | nil => exact absurd h (by simp [gravest?])
  | cons y rest =>
      have hx : rest.foldl Finding.graver y = x := Option.some.inj h
      rw [List.cons_append, gravest?, List.foldl_append, hx]

/-! ## The view of `dedupe` -/

/-- What `keepGraver` puts in place of a kept finding with the key is the graver of the two. -/
theorem keepGraver_cons_of_key {x y : Finding} (h : y.key = x.key) (kept : List Finding) :
    keepGraver x (y :: kept) = y.graver x :: kept := by
  rw [keepGraver, if_pos h]
  rfl

theorem keepGraver_cons_of_ne {x y : Finding} (h : y.key ≠ x.key) (kept : List Finding) :
    keepGraver x (y :: kept) = y :: keepGraver x kept := by
  rw [keepGraver, if_neg h]

/-- A test that depends on the key alone sees `x` come in if `x` passes it, and nothing if not. -/
theorem filter_keepGraver {p : Finding → Bool} (hp : ∀ x y, x.key = y.key → p x = p y)
    (x : Finding) (kept : List Finding) :
    (keepGraver x kept).filter p
      = if p x then keepGraver x (kept.filter p) else kept.filter p := by
  induction kept with
  | nil => cases hx : p x <;> simp [keepGraver, hx]
  | cons y rest ih =>
      by_cases hk : y.key = x.key
      · -- `y` and what is put in its place have one key, so they pass or fail together
        have hy : p y = p x := hp y x hk
        have hg : p (y.graver x) = p x := by
          rcases graver_eq_or y x with h | h <;> rw [h]
          exact hy
        rw [keepGraver_cons_of_key hk, List.filter_cons, List.filter_cons, hg, hy]
        cases p x
        · rfl
        · exact (keepGraver_cons_of_key hk _).symm
      · rw [keepGraver_cons_of_ne hk, List.filter_cons, List.filter_cons, ih]
        cases hx : p x <;> cases hy : p y <;> simp [keepGraver_cons_of_ne hk]

/-- **A test of keys commutes with merging.** -/
theorem filter_dedupe {p : Finding → Bool} (hp : ∀ x y, x.key = y.key → p x = p y)
    (xs : List Finding) : (dedupe xs).filter p = dedupe (xs.filter p) := by
  -- the fold and the filter go in step, whatever is kept at the start
  have hfold : ∀ kept : List Finding,
      (xs.foldl (fun kept x => keepGraver x kept) kept).filter p
        = (xs.filter p).foldl (fun kept x => keepGraver x kept) (kept.filter p) := by
    induction xs with
    | nil => intro kept; rfl
    | cons x rest ih =>
        intro kept
        rw [List.foldl_cons, ih, filter_keepGraver hp, List.filter_cons]
        cases p x <;> rfl
  exact hfold []

/-- **Findings with one key are merged into the gravest.** -/
theorem dedupe_of_key {xs : List Finding} {k : List (Option Document.Key)}
    (h : ∀ x ∈ xs, x.key = k) : dedupe xs = (gravest? xs).toList := by
  cases xs with
  | nil => rfl
  | cons x rest =>
      -- all along one finding is kept
      have hfold : ∀ (ys : List Finding) (y : Finding), y.key = k → (∀ z ∈ ys, z.key = k) →
          ys.foldl (fun kept z => keepGraver z kept) [y] = [ys.foldl Finding.graver y] := by
        intro ys
        induction ys with
        | nil => intro y _ _; rfl
        | cons z ys ih =>
            intro y hy hys
            have hz : z.key = k := hys z (List.mem_cons_self ..)
            have hkey : (y.graver z).key = k := by
              rcases graver_eq_or y z with h | h <;> rw [h] <;> assumption
            rw [List.foldl_cons, keepGraver_cons_of_key (hy.trans hz.symm),
              ih _ hkey fun w hw => hys w (List.mem_cons_of_mem _ hw)]
            rfl
      exact hfold rest x (h x (List.mem_cons_self ..)) fun z hz => h z (List.mem_cons_of_mem _ hz)

/-- The findings with the key `k`. -/
def withKey (k : List (Option Document.Key)) (xs : List Finding) : List Finding :=
  xs.filter fun x => decide (x.key = k)

theorem mem_withKey {k : List (Option Document.Key)} {xs : List Finding} {x : Finding} :
    x ∈ withKey k xs ↔ x ∈ xs ∧ x.key = k := by
  simp [withKey]

/-- **The view.** With each key the merge keeps one finding, the gravest. -/
theorem withKey_dedupe (k : List (Option Document.Key)) (xs : List Finding) :
    withKey k (dedupe xs) = (gravest? (withKey k xs)).toList := by
  rw [withKey, filter_dedupe fun x y h => by rw [h]]
  exact dedupe_of_key fun x hx => (mem_withKey.mp hx).2

theorem mem_dedupe_iff {xs : List Finding} {y : Finding} :
    y ∈ dedupe xs ↔ gravest? (withKey y.key xs) = some y := by
  have hmem : y ∈ dedupe xs ↔ y ∈ withKey y.key (dedupe xs) := by simp [mem_withKey]
  rw [hmem, withKey_dedupe, Option.mem_toList]

theorem withKey_append (k : List (Option Document.Key)) (xs ys : List Finding) :
    withKey k (xs ++ ys) = withKey k xs ++ withKey k ys := List.filter_append ..

/-- **Further findings take away none and weaken none.** With the key of a kept finding one finding
is kept, at least as grave; it is the same one unless a further finding with the key is graver. -/
theorem exists_withKey_dedupe_append {xs : List Finding} {x : Finding} (hx : x ∈ dedupe xs)
    (ys : List Finding) :
    ∃ y, withKey x.key (dedupe (xs ++ ys)) = [y] ∧ x.severity.rank ≤ y.severity.rank ∧
      ((∀ z ∈ ys, z.key = x.key → z.severity.rank ≤ x.severity.rank) → y = x) := by
  have hgravest : gravest? (withKey x.key (xs ++ ys))
      = some ((withKey x.key ys).foldl Finding.graver x) := by
    rw [withKey_append]
    exact gravest?_append (mem_dedupe_iff.mp hx) _
  refine ⟨(withKey x.key ys).foldl Finding.graver x, ?_, ?_, fun hle => ?_⟩
  · rw [withKey_dedupe, hgravest]
    rfl
  · exact rank_le_foldl_graver (List.mem_cons_self ..)
  · refine foldl_graver_eq_self fun z hz => ?_
    obtain ⟨hmem, hkey⟩ := mem_withKey.mp hz
    exact hle z hmem hkey

theorem mem_of_mem_dedupe {xs : List Finding} {y : Finding} (h : y ∈ dedupe xs) : y ∈ xs :=
  (mem_withKey.mp (gravest?_mem (mem_dedupe_iff.mp h))).1

/-- Each finding is represented by a kept one with its key that is at least as grave. -/
theorem exists_mem_dedupe {xs : List Finding} {x : Finding} (hx : x ∈ xs) :
    ∃ y ∈ dedupe xs, y.key = x.key ∧ x.severity.rank ≤ y.severity.rank := by
  have hmem : x ∈ withKey x.key xs := mem_withKey.mpr ⟨hx, rfl⟩
  obtain ⟨y, hy⟩ := gravest?_isSome hmem
  have hkey : y.key = x.key := (mem_withKey.mp (gravest?_mem hy)).2
  exact ⟨y, mem_dedupe_iff.mpr (hkey ▸ hy), hkey, rank_le_gravest? hy hmem⟩

/-- **Where the key determines the severity, a merge loses and invents none.** -/
theorem exists_severity_dedupe {xs : List Finding}
    (hdet : ∀ x ∈ xs, ∀ y ∈ xs, x.key = y.key → x.severity = y.severity)
    (P : Severity → Prop) :
    (∃ y ∈ dedupe xs, P y.severity) ↔ ∃ x ∈ xs, P x.severity := by
  constructor
  · rintro ⟨y, hy, hP⟩
    exact ⟨y, mem_of_mem_dedupe hy, hP⟩
  · rintro ⟨x, hx, hP⟩
    obtain ⟨y, hy, hkey, _⟩ := exists_mem_dedupe hx
    exact ⟨y, hy, hdet y (mem_of_mem_dedupe hy) x hx hkey ▸ hP⟩

/-! ## The order of arrival -/

/-- Kept findings differ in their keys. -/
theorem nodup_key_dedupe (xs : List Finding) : ((dedupe xs).map Finding.key).Nodup := by
  rw [List.nodup_iff_count_le_one]
  intro k
  have hcount : ((dedupe xs).map Finding.key).count k = (withKey k (dedupe xs)).length := by
    rw [List.count, List.countP_map, List.countP_eq_length_filter, withKey]
    refine congrArg List.length (List.filter_congr fun x _ => ?_)
    show (x.key == k) = decide (x.key = k)
    rw [Bool.eq_iff_iff, beq_iff_eq, decide_eq_true_iff]
  rw [hcount, withKey_dedupe]
  cases gravest? (withKey k xs) with
  | none => exact Nat.zero_le _
  | some x => exact Nat.le_refl _

/-- Among the findings with its key, none of `xs` is graver than `x`. -/
def Finding.TopOf (xs : List Finding) (x : Finding) : Prop :=
  ∀ z ∈ xs, z.key = x.key → z.severity.rank ≤ x.severity.rank

theorem Finding.topOf_of_mem_dedupe {xs : List Finding} {x : Finding} (h : x ∈ dedupe xs) :
    x.TopOf xs := by
  intro z hz hkey
  exact rank_le_gravest? (mem_dedupe_iff.mp h) (mem_withKey.mpr ⟨hz, hkey⟩)

section

variable {β : Type} {g : Finding → β} {xs ys : List Finding}
  (hdet : ∀ x ∈ xs, ∀ y ∈ xs, g x = g y ↔ x.key = y.key ∧ x.severity = y.severity)
include hdet

/-- Seen through key and severity, the kept findings are those that none with their key is graver
than. -/
theorem mem_map_dedupe {i : β} :
    i ∈ (dedupe xs).map g ↔ ∃ x ∈ xs, x.TopOf xs ∧ g x = i := by
  rw [List.mem_map]
  constructor
  · rintro ⟨x, hx, hi⟩
    exact ⟨x, mem_of_mem_dedupe hx, x.topOf_of_mem_dedupe hx, hi⟩
  · rintro ⟨x, hx, htop, hi⟩
    obtain ⟨y, hy, hkey, hrank⟩ := exists_mem_dedupe hx
    have hle : y.severity.rank ≤ x.severity.rank := htop y (mem_of_mem_dedupe hy) hkey
    have hsev : y.severity = x.severity := Severity.rank_injective (Nat.le_antisymm hle hrank)
    exact ⟨y, hy, ((hdet y (mem_of_mem_dedupe hy) x hx).mpr ⟨hkey, hsev⟩).trans hi⟩

theorem nodup_map_dedupe : ((dedupe xs).map g).Nodup := by
  have hnd := nodup_key_dedupe xs
  refine List.Nodup.map_on (fun x hx y hy h => ?_) (List.Nodup.of_map _ hnd)
  have hkey : x.key = y.key :=
    ((hdet x (mem_of_mem_dedupe hx) y (mem_of_mem_dedupe hy)).mp h).1
  exact List.inj_on_of_nodup_map hnd hx hy hkey

/-- **The merge does not depend on the order in which findings come**, seen through key and
severity. -/
theorem perm_map_dedupe (hperm : xs.Perm ys) :
    ((dedupe xs).map g).Perm ((dedupe ys).map g) := by
  have hdet' : ∀ x ∈ ys, ∀ y ∈ ys, g x = g y ↔ x.key = y.key ∧ x.severity = y.severity :=
    fun x hx y hy => hdet x (hperm.mem_iff.mpr hx) y (hperm.mem_iff.mpr hy)
  refine (List.perm_ext_iff_of_nodup (nodup_map_dedupe hdet) (nodup_map_dedupe hdet')).mpr ?_
  intro i
  rw [mem_map_dedupe hdet, mem_map_dedupe hdet']
  simp only [hperm.mem_iff, Finding.TopOf]

end

/-! ## Ranking -/

theorem rankFindings_perm (xs : List Finding) : (rankFindings xs).Perm xs :=
  List.mergeSort_perm xs _

theorem mem_synthesize {xs : List Finding} {n : Int} {u : TokenUsage} {x : Finding} :
    x ∈ (synthesize xs n u).findings ↔ x ∈ dedupe xs :=
  (rankFindings_perm (dedupe xs)).mem_iff

end ReviewGate
