import ReviewGate.Proofs.Check.BuiltIn
import ReviewGate.Proofs.Loop

/-!
# `ReviewGate.Proofs.Check.Order` — the order in which checks report

`runChecks` drops the checks whose guard keeps a file out and cuts the rest into groups. A group of
checks of added lines reports line by line, any other check after check. Nothing is lost or reported
twice by that, and the order can be told without the groups. Every finding has an origin, a check
and the place of what the check reports. Two origins belong to one run of checks if all checks
between them that concern the file look at added lines (`SameRun`); then the place counts before the
check, and otherwise the check before the place (`Origin.Before`).

The proof numbers the checks and evaluates the groups with the numbers (`taggedFindings`).
Forgetting the origins gives the findings back, and of the order there are three cases: within a
group of checks of added lines, within another one, and between two groups, which are apart because
there are never two groups of checks of added lines side by side.

## Contents
- `flag_eq_of_mem_splitBy`, `apart_of_splitBy`, `mem_of_between`: a list cut where a flag changes.
- `Check.findingAt?`, `Origin`, `SameRun`, `Origin.Before`: where findings come from.
- `taggedFindings`, `mem_taggedFindings`, `pairwise_taggedFindings`: findings with their origins.
- `perm_runChecks`, `checks_report_in_order`: what grouping does to the findings.
-/

namespace ReviewGate

open Diff

/-! ## A list cut where a flag changes -/

section

variable {α : Type} {flag : α → Bool}

/-- Within a piece the flag does not change. -/
theorem flag_eq_of_mem_splitBy {xs g : List α}
    (hg : g ∈ xs.splitBy fun a b => flag a == flag b) {a b : α} (ha : a ∈ g) (hb : b ∈ g) :
    flag a = flag b := by
  have hchain : g.IsChain fun a b => flag a = flag b :=
    (List.isChain_of_mem_splitBy hg).imp fun a b h => beq_iff_eq.mp h
  have hpair : (g.map flag).Pairwise (· = ·) := ((List.isChain_map flag).mpr hchain).pairwise
  exact hpair.forall_of_forall (fun _ _ => rfl) (List.mem_map_of_mem ha) (List.mem_map_of_mem hb)

/-- Between a piece and the next one it does. -/
theorem isChain_flag_splitBy (xs : List α) :
    (xs.splitBy fun a b => flag a == flag b).IsChain fun g h =>
      ∀ a ∈ g, ∀ b ∈ h, flag a ≠ flag b := by
  refine (List.isChain_getLast_head_splitBy _ xs).imp_of_mem_imp fun g h hg hh hcut a ha b hb => ?_
  obtain ⟨hne, hne', hcut⟩ := hcut
  rw [flag_eq_of_mem_splitBy hg ha (List.getLast_mem hne),
    flag_eq_of_mem_splitBy hh hb (List.head_mem hne')]
  exact fun heq => by simp [heq] at hcut

variable {num : α → Nat}

/-- Between members of two pieces one is not flagged, where the list is in the order of numbers. -/
theorem pairwise_apart {xs : List α} {gs : List (List α)} (hsub : ∀ e ∈ gs.flatten, e ∈ xs)
    (hsorted : gs.flatten.Pairwise fun a b => num a < num b) (hne : ∀ g ∈ gs, g ≠ [])
    (hchange : gs.IsChain fun g h => ∀ a ∈ g, ∀ b ∈ h, flag a ≠ flag b) :
    gs.Pairwise fun g h => ∀ a ∈ g, ∀ b ∈ h,
      num a < num b ∧ ∃ e ∈ xs, num a ≤ num e ∧ num e ≤ num b ∧ flag e = false := by
  induction gs with
  | nil => exact List.Pairwise.nil
  | cons g rest ih =>
      rw [List.flatten_cons, List.pairwise_append] at hsorted
      obtain ⟨-, hrest, hless⟩ := hsorted
      refine List.pairwise_cons.mpr ⟨fun g' hg' a ha b hb => ?_, ih ?_ hrest ?_ hchange.tail⟩
      · have hb' : b ∈ rest.flatten := List.mem_flatten.mpr ⟨g', hg', hb⟩
        have ha' : a ∈ (g :: rest).flatten := List.mem_append.mpr (Or.inl ha)
        refine ⟨hless a ha b hb', ?_⟩
        by_cases hflag : flag a = true
        · -- `a` is flagged, so nothing in the next piece is
          cases rest with
          | nil => exact absurd hg' List.not_mem_nil
          | cons h rest =>
              have hnext := (List.isChain_cons_cons.mp hchange).1
              have hoff : ∀ e ∈ h, flag e = false := fun e he =>
                Bool.eq_false_iff.mpr fun hon => hnext a ha e he (hflag.trans hon.symm)
              rcases List.mem_cons.mp hg' with rfl | hlater
              · exact ⟨b, hsub b (List.mem_append.mpr (Or.inr hb')),
                  Nat.le_of_lt (hless a ha b hb'), Nat.le_refl _, hoff b hb⟩
              · obtain ⟨e, he⟩ := List.exists_mem_of_ne_nil h
                  (hne h (List.mem_cons_of_mem _ (List.mem_cons_self ..)))
                have he' : e ∈ (h :: rest).flatten := List.mem_append.mpr (Or.inl he)
                have heb : num e < num b :=
                  (List.pairwise_append.mp hrest).2.2 e he b
                    (List.mem_flatten.mpr ⟨g', hlater, hb⟩)
                exact ⟨e, hsub e (List.mem_append.mpr (Or.inr he')),
                  Nat.le_of_lt (hless a ha e he'), Nat.le_of_lt heb, hoff e he⟩
        · exact ⟨a, hsub a ha', Nat.le_refl _, Nat.le_of_lt (hless a ha b hb'),
            Bool.eq_false_iff.mpr hflag⟩
      · exact fun e he => hsub e (List.mem_append.mpr (Or.inr he))
      · exact fun h hh => hne h (List.mem_cons_of_mem _ hh)

/-- What lies between two members of a piece is a member of it. -/
theorem mem_of_between {gs : List (List α)} {g : List α} (hg : g ∈ gs)
    (hsorted : gs.flatten.Pairwise fun a b => num a < num b) {a b e : α} (ha : a ∈ g) (hb : b ∈ g)
    (he : e ∈ gs.flatten) (hae : num a ≤ num e) (heb : num e ≤ num b) : e ∈ g := by
  obtain ⟨front, back, rfl⟩ := List.append_of_mem hg
  rw [List.flatten_append, List.flatten_cons, List.pairwise_append] at hsorted
  obtain ⟨-, hrest, hfront⟩ := hsorted
  rw [List.flatten_append, List.flatten_cons, List.mem_append, List.mem_append] at he
  rcases he with hef | he | heback
  · exact absurd (hfront e hef a (List.mem_append.mpr (Or.inl ha))) (Nat.not_lt.mpr hae)
  · exact he
  · exact absurd ((List.pairwise_append.mp hrest).2.2 b hb e heback) (Nat.not_lt.mpr heb)

end

/-! ## Where findings come from -/

/-- What a check of added lines reports of a line. -/
def Check.lineFinding? (c : Check) (specialist : String) (f : ChangedFile) (line : ChangedLine) :
    Option Finding :=
  match c.trigger with
  | .addedLine pattern =>
      if pattern line.text then
        some (c.finding specialist f.path line.number (some (Text.strip line.text)))
      else none
  | _ => none

/-- What the check reports at a place: of the added line that stands there, or, if it does not look
at added lines, in the list of its findings. -/
def Check.findingAt? (c : Check) (specialist : String) (f : ChangedFile) (content : String)
    (place : Nat) : Option Finding :=
  if c.trigger.isAddedLine then f.addedLines[place]?.bind (c.lineFinding? specialist f)
  else (c.findings specialist f content)[place]?

/-- Where a finding for a file comes from: the number of a check and a place. -/
structure Origin where
  check : Nat
  place : Nat
deriving DecidableEq, Repr

/-- What is reported at an origin, if there is such a check and it concerns the file. -/
def Origin.finding? (o : Origin) (specialist : String) (checks : List Check) (contents : Contents)
    (r : Routed) : Option Finding :=
  (checks[o.check]?.filter (·.guard r)).bind fun c =>
    c.findingAt? specialist r.file (contents r.file.path) o.place

/-- The checks that concern the file, from one number to the other, all look at added lines. -/
def SameRun (checks : List Check) (r : Routed) (i j : Nat) : Prop :=
  ∀ k c, min i j ≤ k → k ≤ max i j → checks[k]? = some c → c.guard r = true →
    c.trigger.isAddedLine = true

/-- In one run of checks of added lines the place counts before the check, and otherwise the check
before the place. -/
def Origin.Before (checks : List Check) (r : Routed) (o o' : Origin) : Prop :=
  (SameRun checks r o.check o'.check ∧
    (o.place < o'.place ∨ (o.place = o'.place ∧ o.check < o'.check))) ∨
  (¬ SameRun checks r o.check o'.check ∧
    (o.check < o'.check ∨ (o.check = o'.check ∧ o.place < o'.place)))

/-! ## Findings with their origins -/

/-- The checks that concern the file, with their numbers. -/
def numberedChecks (checks : List Check) (r : Routed) : List (Check × Nat) :=
  checks.zipIdx.filter fun c => c.1.guard r

/-- Does the check look at added lines? -/
def looksAtLines (c : Check × Nat) : Bool := c.1.trigger.isAddedLine

/-- The groups of `groupChecks`, with numbers. -/
def numberedGroups (checks : List Check) (r : Routed) : List (List (Check × Nat)) :=
  (numberedChecks checks r).splitBy fun a b => looksAtLines a == looksAtLines b

/-- The findings of `lineFindings`, with their origins. -/
def taggedLines (specialist : String) (f : ChangedFile) (group : List (Check × Nat)) :
    List (Origin × Finding) :=
  f.addedLines.zipIdx.flatMap fun line => group.filterMap fun c =>
    (c.1.lineFinding? specialist f line.1).map fun x => (⟨c.2, line.2⟩, x)

/-- The findings of a check, with their origins. -/
def taggedCheck (specialist : String) (f : ChangedFile) (content : String) (c : Check × Nat) :
    List (Origin × Finding) :=
  (c.1.findings specialist f content).zipIdx.map fun x => (⟨c.2, x.2⟩, x.1)

/-- The findings of `groupFindings`, with their origins. -/
def taggedGroup (specialist : String) (f : ChangedFile) (content : String)
    (group : List (Check × Nat)) : List (Origin × Finding) :=
  if group.all looksAtLines then taggedLines specialist f group
  else group.flatMap (taggedCheck specialist f content)

/-- The findings of `fileFindings`, with their origins. -/
def taggedFindings (specialist : String) (checks : List Check) (contents : Contents) (r : Routed) :
    List (Origin × Finding) :=
  (numberedGroups checks r).flatMap (taggedGroup specialist r.file (contents r.file.path))

section

variable {specialist : String} {f : ChangedFile} {content : String} {checks : List Check}
  {contents : Contents} {r : Routed}

theorem mem_numberedChecks {c : Check × Nat} :
    c ∈ numberedChecks checks r ↔ checks[c.2]? = some c.1 ∧ c.1.guard r = true := by
  rw [numberedChecks, List.mem_filter, List.mem_zipIdx_iff_getElem?]

theorem pairwise_zipIdx {α : Type} (xs : List α) : xs.zipIdx.Pairwise fun a b => a.2 < b.2 := by
  refine List.pairwise_map.mp ?_
  rw [List.zipIdx_map_snd]
  exact List.pairwise_lt_range' 1

theorem pairwise_numberedChecks : (numberedChecks checks r).Pairwise fun a b => a.2 < b.2 :=
  (pairwise_zipIdx checks).filter _

theorem flatten_numberedGroups : (numberedGroups checks r).flatten = numberedChecks checks r :=
  List.flatten_splitBy _ _

/-! ### Forgetting the origins -/

theorem map_fst_numberedChecks :
    (numberedChecks checks r).map Prod.fst = checks.filter (·.guard r) := by
  conv_rhs => rw [← List.zipIdx_map_fst 0 checks, List.filter_map]
  rfl

theorem map_fst_numberedGroups :
    (numberedGroups checks r).map (List.map Prod.fst)
      = groupChecks (checks.filter (·.guard r)) := by
  refine (List.splitBy_eq_iff.mpr ⟨?_, ?_, ?_, ?_⟩).symm
  · rw [← List.map_flatten, flatten_numberedGroups, map_fst_numberedChecks]
  · intro hnil
    obtain ⟨group, hgroup, hmap⟩ := List.mem_map.mp hnil
    exact List.ne_nil_of_mem_splitBy hgroup (List.map_eq_nil_iff.mp hmap)
  · intro checks' hmem
    obtain ⟨group, hgroup, rfl⟩ := List.mem_map.mp hmem
    exact (List.isChain_map _).mpr (List.isChain_of_mem_splitBy hgroup)
  · refine (List.isChain_map _).mpr ((List.isChain_getLast_head_splitBy _ _).imp ?_)
    rintro g h ⟨hg, hh, hcut⟩
    refine ⟨mt List.map_eq_nil_iff.mp hg, mt List.map_eq_nil_iff.mp hh, ?_⟩
    rw [List.getLast_map, List.head_map]
    exact hcut

theorem map_snd_taggedLines (group : List (Check × Nat)) :
    (taggedLines specialist f group).map Prod.snd
      = lineFindings (group.map Prod.fst) specialist f := by
  have hlines : lineFindings (group.map Prod.fst) specialist f
      = (f.addedLines.zipIdx.map Prod.fst).flatMap fun line =>
          (group.map Prod.fst).filterMap fun c => c.lineFinding? specialist f line := by
    rw [List.zipIdx_map_fst]
    rfl
  rw [hlines, taggedLines, List.map_flatMap, List.flatMap_map]
  refine List.flatMap_congr fun line _ => ?_
  rw [List.map_filterMap, List.filterMap_map]
  refine List.filterMap_congr fun c _ => ?_
  rw [Option.map_map]
  exact Option.map_id_apply

theorem map_snd_taggedGroup (group : List (Check × Nat)) :
    (taggedGroup specialist f content group).map Prod.snd
      = groupFindings specialist f content (group.map Prod.fst) := by
  have hall_map : (group.map Prod.fst).all (·.trigger.isAddedLine) = group.all looksAtLines :=
    List.all_map
  unfold taggedGroup groupFindings
  rw [hall_map]
  by_cases hall : group.all looksAtLines = true
  · rw [if_pos hall, if_pos hall, map_snd_taggedLines]
  · rw [if_neg hall, if_neg hall, List.map_flatMap, List.flatMap_map]
    refine List.flatMap_congr fun c _ => ?_
    rw [taggedCheck, List.map_map]
    exact List.zipIdx_map_fst 0 _

/-- **Without the origins the findings are those of the file.** -/
theorem map_snd_taggedFindings :
    (taggedFindings specialist checks contents r).map Prod.snd
      = fileFindings specialist checks contents r := by
  rw [taggedFindings, fileFindings, ← map_fst_numberedGroups, List.map_flatMap, List.flatMap_map]
  exact List.flatMap_congr fun group _ => map_snd_taggedGroup group

/-! ### What is tagged -/

theorem mem_taggedLines {group : List (Check × Nat)} {o : Origin} {x : Finding} :
    (o, x) ∈ taggedLines specialist f group ↔
      ∃ c, (c, o.check) ∈ group ∧
        f.addedLines[o.place]?.bind (c.lineFinding? specialist f) = some x := by
  simp only [taggedLines, List.mem_flatMap, List.mem_filterMap, Option.map_eq_some_iff,
    List.mem_zipIdx_iff_getElem?, Option.bind_eq_some_iff]
  constructor
  · rintro ⟨line, hline, c, hc, y, hy, heq⟩
    obtain ⟨rfl, rfl⟩ := Prod.mk.inj heq
    exact ⟨c.1, hc, line.1, hline, hy⟩
  · rintro ⟨c, hc, line, hline, hx⟩
    exact ⟨(line, o.place), hline, (c, o.check), hc, x, hx, rfl⟩

theorem mem_taggedCheck {c : Check × Nat} {o : Origin} {x : Finding} :
    (o, x) ∈ taggedCheck specialist f content c ↔
      c.2 = o.check ∧ (c.1.findings specialist f content)[o.place]? = some x := by
  simp only [taggedCheck, List.mem_map, List.mem_zipIdx_iff_getElem?]
  constructor
  · rintro ⟨y, hy, heq⟩
    obtain ⟨rfl, rfl⟩ := Prod.mk.inj heq
    exact ⟨rfl, hy⟩
  · rintro ⟨hc, hx⟩
    exact ⟨(x, o.place), hx, by rw [hc]⟩

/-- In a group what a check reports at a place is tagged with the check and the place. -/
theorem mem_taggedGroup {group : List (Check × Nat)}
    (hsame : ∀ a ∈ group, ∀ b ∈ group, looksAtLines a = looksAtLines b) {o : Origin} {x : Finding} :
    (o, x) ∈ taggedGroup specialist f content group ↔
      ∃ c, (c, o.check) ∈ group ∧ c.findingAt? specialist f content o.place = some x := by
  unfold taggedGroup
  by_cases hall : group.all looksAtLines = true
  · rw [if_pos hall, mem_taggedLines]
    refine exists_congr fun c => and_congr_right fun hc => ?_
    have hline : c.trigger.isAddedLine = true := List.all_eq_true.mp hall _ hc
    rw [Check.findingAt?, if_pos hline]
  · rw [if_neg hall]
    -- one check does not look at added lines, so none does
    have hnone : ∀ c ∈ group, ¬ c.1.trigger.isAddedLine = true := by
      intro c hc hline
      exact hall (List.all_eq_true.mpr fun b hb => (hsame b hb c hc).trans hline)
    simp only [List.mem_flatMap, mem_taggedCheck]
    constructor
    · rintro ⟨c, hc, hnumber, hx⟩
      refine ⟨c.1, ?_, ?_⟩
      · rw [← hnumber]
        exact hc
      · rw [Check.findingAt?, if_neg (hnone c hc)]
        exact hx
    · rintro ⟨c, hc, hx⟩
      rw [Check.findingAt?, if_neg (hnone _ hc)] at hx
      exact ⟨(c, o.check), hc, rfl, hx⟩

/-- **What is reported at an origin is tagged with it**, and nothing else is. -/
theorem mem_taggedFindings {o : Origin} {x : Finding} :
    (o, x) ∈ taggedFindings specialist checks contents r ↔
      o.finding? specialist checks contents r = some x := by
  have hgroups : (o, x) ∈ taggedFindings specialist checks contents r ↔
      ∃ c, (c, o.check) ∈ (numberedGroups checks r).flatten ∧
        c.findingAt? specialist r.file (contents r.file.path) o.place = some x := by
    simp only [taggedFindings, List.mem_flatMap, List.mem_flatten]
    constructor
    · rintro ⟨group, hgroup, hx⟩
      obtain ⟨c, hc, hx⟩ := (mem_taggedGroup fun a ha b hb =>
        flag_eq_of_mem_splitBy hgroup ha hb).mp hx
      exact ⟨c, ⟨group, hgroup, hc⟩, hx⟩
    · rintro ⟨c, ⟨group, hgroup, hc⟩, hx⟩
      exact ⟨group, hgroup, (mem_taggedGroup fun a ha b hb =>
        flag_eq_of_mem_splitBy hgroup ha hb).mpr ⟨c, hc, hx⟩⟩
  rw [hgroups, flatten_numberedGroups, Origin.finding?, Option.bind_eq_some_iff]
  simp only [mem_numberedChecks, Option.filter_eq_some_iff]

/-! ### The order -/

/-- In a group of checks of added lines the lines come in order, and for each line the checks. -/
theorem pairwise_taggedLines {group : List (Check × Nat)}
    (hsorted : group.Pairwise fun a b => a.2 < b.2) :
    (taggedLines specialist f group).Pairwise fun a b =>
      a.1.place < b.1.place ∨ (a.1.place = b.1.place ∧ a.1.check < b.1.check) := by
  refine List.pairwise_flatMap.mpr ⟨fun line _ => ?_, (pairwise_zipIdx _).imp ?_⟩
  · refine List.pairwise_filterMap.mpr (hsorted.imp fun hlt x hx y hy => ?_)
    obtain ⟨_, -, rfl⟩ := Option.map_eq_some_iff.mp hx
    obtain ⟨_, -, rfl⟩ := Option.map_eq_some_iff.mp hy
    exact Or.inr ⟨rfl, hlt⟩
  · intro line line' hlt x hx y hy
    obtain ⟨_, -, hx⟩ := List.mem_filterMap.mp hx
    obtain ⟨_, -, hy⟩ := List.mem_filterMap.mp hy
    obtain ⟨_, -, rfl⟩ := Option.map_eq_some_iff.mp hx
    obtain ⟨_, -, rfl⟩ := Option.map_eq_some_iff.mp hy
    exact Or.inl hlt

/-- In another group the checks come in order, and for each check what it reports. -/
theorem pairwise_flatMap_taggedCheck {group : List (Check × Nat)}
    (hsorted : group.Pairwise fun a b => a.2 < b.2) :
    (group.flatMap (taggedCheck specialist f content)).Pairwise fun a b =>
      a.1.check < b.1.check ∨ (a.1.check = b.1.check ∧ a.1.place < b.1.place) := by
  refine List.pairwise_flatMap.mpr ⟨fun c _ => ?_, hsorted.imp ?_⟩
  · refine List.pairwise_map.mpr ((pairwise_zipIdx _).imp fun hlt => ?_)
    exact Or.inr ⟨rfl, hlt⟩
  · rintro c d hlt ⟨o, x⟩ hx ⟨o', y⟩ hy
    obtain ⟨hc, -⟩ := mem_taggedCheck.mp hx
    obtain ⟨hd, -⟩ := mem_taggedCheck.mp hy
    exact Or.inl (hc ▸ hd ▸ hlt)

/-- Two checks belong to one run if those between them that concern the file look at lines. -/
theorem sameRun_iff {i j : Nat} (hij : i ≤ j) :
    SameRun checks r i j ↔
      ∀ c ∈ numberedChecks checks r, i ≤ c.2 → c.2 ≤ j → looksAtLines c = true := by
  rw [SameRun, Nat.min_eq_left hij, Nat.max_eq_right hij]
  constructor
  · intro h c hc hic hcj
    obtain ⟨hget, hguard⟩ := mem_numberedChecks.mp hc
    exact h c.2 c.1 hic hcj hget hguard
  · intro h k c hik hkj hget hguard
    exact h (c, k) (mem_numberedChecks.mpr ⟨hget, hguard⟩) hik hkj

theorem SameRun.symm {i j : Nat} (h : SameRun checks r i j) : SameRun checks r j i := by
  intro k c hmin hmax
  rw [Nat.min_comm] at hmin
  rw [Nat.max_comm] at hmax
  exact h k c hmin hmax

/-- A check in a run looks at added lines. -/
theorem SameRun.looksAtLines_left {i j : Nat} (h : SameRun checks r i j) {c : Check}
    (hc : (c, i) ∈ numberedChecks checks r) : c.trigger.isAddedLine = true := by
  obtain ⟨hget, hguard⟩ := mem_numberedChecks.mp hc
  exact h i c (Nat.min_le_left i j) (Nat.le_max_left i j) hget hguard

/-- The checks of a group of checks of added lines belong to one run. -/
theorem sameRun_of_mem_group {group : List (Check × Nat)} (hgroup : group ∈ numberedGroups checks r)
    (hall : ∀ c ∈ group, looksAtLines c = true) {a b : Check × Nat} (ha : a ∈ group)
    (hb : b ∈ group) : SameRun checks r a.2 b.2 := by
  have hsorted : (numberedGroups checks r).flatten.Pairwise fun a b => a.2 < b.2 :=
    flatten_numberedGroups ▸ pairwise_numberedChecks
  have hordered : ∀ a ∈ group, ∀ b ∈ group, a.2 ≤ b.2 → SameRun checks r a.2 b.2 := by
    intro a ha b hb hab
    refine (sameRun_iff hab).mpr fun c hc hac hcb => hall c ?_
    exact mem_of_between hgroup hsorted ha hb (flatten_numberedGroups ▸ hc) hac hcb
  rcases Nat.le_total a.2 b.2 with hab | hba
  · exact hordered a ha b hb hab
  · exact (hordered b hb a ha hba).symm

/-- **Within a group the findings are in order.** -/
theorem pairwise_taggedGroup {group : List (Check × Nat)}
    (hgroup : group ∈ numberedGroups checks r) :
    (taggedGroup specialist f content group).Pairwise fun a b => a.1.Before checks r b.1 := by
  have hsorted : (numberedGroups checks r).flatten.Pairwise fun a b => a.2 < b.2 :=
    flatten_numberedGroups ▸ pairwise_numberedChecks
  have hgroup_sorted : group.Pairwise fun a b => a.2 < b.2 :=
    (List.pairwise_flatten.mp hsorted).1 group hgroup
  unfold taggedGroup
  by_cases hall : group.all looksAtLines = true
  · rw [if_pos hall]
    refine (pairwise_taggedLines hgroup_sorted).imp_of_mem ?_
    rintro ⟨o, x⟩ ⟨o', y⟩ hx hy hbefore
    obtain ⟨c, hc, -⟩ := mem_taggedLines.mp hx
    obtain ⟨d, hd, -⟩ := mem_taggedLines.mp hy
    exact Or.inl ⟨sameRun_of_mem_group hgroup (List.all_eq_true.mp hall) hc hd, hbefore⟩
  · rw [if_neg hall]
    refine (pairwise_flatMap_taggedCheck hgroup_sorted).imp_of_mem ?_
    rintro ⟨o, x⟩ ⟨o', y⟩ hx - hbefore
    refine Or.inr ⟨fun hrun => hall (List.all_eq_true.mpr fun b hb => ?_), hbefore⟩
    -- the check of the first finding would look at added lines, and with it the group
    obtain ⟨c, hc, hx⟩ := List.mem_flatMap.mp hx
    obtain ⟨hnumber, -⟩ := mem_taggedCheck.mp hx
    have hmem : (c.1, o.check) ∈ numberedChecks checks r := by
      rw [← hnumber, ← flatten_numberedGroups]
      exact List.mem_flatten.mpr ⟨group, hgroup, hc⟩
    exact (flag_eq_of_mem_splitBy hgroup hb hc).trans (hrun.looksAtLines_left hmem)

/-- **The findings are in order.** -/
theorem pairwise_taggedFindings :
    (taggedFindings specialist checks contents r).Pairwise fun a b => a.1.Before checks r b.1 := by
  refine List.pairwise_flatMap.mpr ⟨fun group hgroup => pairwise_taggedGroup hgroup, ?_⟩
  -- between two groups the checks count, since a check that looks elsewhere is in between
  have happart : (numberedGroups checks r).Pairwise fun g h => ∀ a ∈ g, ∀ b ∈ h,
      a.2 < b.2 ∧ ∃ e ∈ numberedChecks checks r, a.2 ≤ e.2 ∧ e.2 ≤ b.2 ∧ looksAtLines e = false :=
    pairwise_apart (fun e he => flatten_numberedGroups ▸ he)
      (flatten_numberedGroups ▸ pairwise_numberedChecks)
      (fun _ hg => List.ne_nil_of_mem_splitBy hg) (isChain_flag_splitBy _)
  refine happart.imp_of_mem ?_
  rintro g h hg hh hbetween ⟨o, x⟩ hx ⟨o', y⟩ hy
  obtain ⟨c, hc, -⟩ := (mem_taggedGroup fun a ha b hb => flag_eq_of_mem_splitBy hg ha hb).mp hx
  obtain ⟨d, hd, -⟩ := (mem_taggedGroup fun a ha b hb => flag_eq_of_mem_splitBy hh ha hb).mp hy
  obtain ⟨hlt, e, he, hle, hge, hoff⟩ := hbetween _ hc _ hd
  refine Or.inr ⟨fun hrun => ?_, Or.inl hlt⟩
  have hon := (sameRun_iff (Nat.le_of_lt hlt)).mp hrun e he hle hge
  exact Bool.false_ne_true (hoff.symm.trans hon)

/-! ## Checks together and alone -/

theorem runChecks_singleton :
    runChecks specialist checks [r] contents = fileFindings specialist checks contents r :=
  List.flatMap_singleton ..

/-- A check on its own reports what it finds, if it concerns the file. -/
theorem fileFindings_singleton (c : Check) :
    fileFindings specialist [c] contents r
      = if c.guard r then c.findings specialist r.file (contents r.file.path) else [] := by
  unfold fileFindings
  by_cases hguard : c.guard r = true
  · have hgroups : groupChecks ([c].filter (·.guard r)) = [[c]] := by
      rw [List.filter_cons, if_pos hguard]
      rfl
    rw [if_pos hguard, hgroups, List.flatMap_singleton, groupFindings, List.flatMap_singleton]
    by_cases hline : [c].all (·.trigger.isAddedLine) = true
    · have hc : c.trigger.isAddedLine = true :=
        List.all_eq_true.mp hline c (List.mem_singleton.mpr rfl)
      rw [if_pos hline, Check.findings_of_isAddedLine hc]
    · rw [if_neg hline]
  · rw [if_neg hguard, List.filter_cons, if_neg hguard]
    rfl

/-- The findings of a group are those of its checks. -/
theorem perm_groupFindings (group : List Check) :
    (groupFindings specialist f content group).Perm
      (group.flatMap fun c => c.findings specialist f content) := by
  unfold groupFindings
  by_cases hall : group.all (·.trigger.isAddedLine) = true
  · rw [if_pos hall]
    have hlines : ∀ cs : List Check, lineFindings cs specialist f
        = f.addedLines.flatMap fun line => cs.flatMap fun c =>
            (c.lineFinding? specialist f line).toList := by
      intro cs
      simp only [← List.filterMap_eq_flatMap_toList]
      rfl
    have hchecks : (group.flatMap fun c => c.findings specialist f content)
        = group.flatMap fun c => f.addedLines.flatMap fun line =>
            (c.lineFinding? specialist f line).toList := by
      refine List.flatMap_congr fun c hc => ?_
      rw [Check.findings_of_isAddedLine (List.all_eq_true.mp hall c hc), hlines]
      simp only [List.flatMap_singleton]
    rw [hlines, hchecks]
    exact perm_flatMap_comm _ _ _
  · rw [if_neg hall]

/-- **Together the checks report what each of them reports alone.** -/
theorem perm_runChecks :
    (runChecks specialist checks [r] contents).Perm
      (checks.flatMap fun c => runChecks specialist [c] [r] contents) := by
  simp only [runChecks_singleton, fileFindings_singleton]
  rw [flatMap_ite_nil, fileFindings]
  have hflatten : (checks.filter (·.guard r)).flatMap
        (fun c => c.findings specialist r.file (contents r.file.path))
      = (groupChecks (checks.filter (·.guard r))).flatMap fun group =>
          group.flatMap fun c => c.findings specialist r.file (contents r.file.path) := by
    conv_lhs => rw [← flatten_groupChecks (checks.filter (·.guard r)), List.flatten_eq_flatMap,
      List.flatMap_assoc]
    rfl
  rw [hflatten]
  exact List.Perm.flatMap_left _ fun group _ => perm_groupFindings group

end

/-- The findings `tagged` are those of the checks for a file, each with its origin, in the order of
origins. -/
structure TaggedInOrder (specialist : String) (checks : List Check) (contents : Contents)
    (r : Routed) (tagged : List (Origin × Finding)) : Prop where
  findings : tagged.map Prod.snd = runChecks specialist checks [r] contents
  complete : ∀ o x, (o, x) ∈ tagged ↔ o.finding? specialist checks contents r = some x
  ordered : tagged.Pairwise fun a b => a.1.Before checks r b.1

/-- **Grouping only orders the findings.** Whatever the checks, the files and their texts, the
findings come file by file; for each file those of all checks together are those of each check
alone, in another order; and each of them has an origin of its own, in the order of which they come:
in a run of checks of added lines by line and then by check, and otherwise by check. The texts are
given before the checks are evaluated, so a guard may depend on the text of the file as well. -/
theorem checks_report_in_order (specialist : String) (checks : List Check) (routed : List Routed)
    (contents : Contents) :
    runChecks specialist checks routed contents
        = (routed.flatMap fun r => runChecks specialist checks [r] contents) ∧
      ∀ r : Routed,
        (runChecks specialist checks [r] contents).Perm
          (checks.flatMap fun c => runChecks specialist [c] [r] contents) ∧
        ∃ tagged, TaggedInOrder specialist checks contents r tagged := by
  refine ⟨?_, fun r => ⟨perm_runChecks, taggedFindings specialist checks contents r, ?_, ?_, ?_⟩⟩
  · simp only [runChecks_singleton]
    rfl
  · rw [map_snd_taggedFindings, runChecks_singleton]
  · exact fun o x => mem_taggedFindings
  · exact pairwise_taggedFindings

end ReviewGate
