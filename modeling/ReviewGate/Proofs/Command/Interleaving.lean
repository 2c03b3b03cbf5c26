import Mathlib.Data.List.Count
import Mathlib.Logic.Function.Basic
import ReviewGate.Proofs.Command.Mine
import ReviewGate.Proofs.Store.Sharing

/-!
# `ReviewGate.Proofs.Command.Interleaving` — two runs of mining at the same time

Nothing keeps two runs of the command apart. Each reads the stored rules, asks the model, and then
writes the whole document from what it has read; the other one may do the same in between. The
command is cut at these three points (`load`, `ask`, `keep`), and a schedule says which run goes
next.

As long as no run has written, whatever was read is what is stored at the start (`Scene.Reads`, with
its step and its run lemma). A run has written at its third step, so every schedule falls apart into
a part of which this holds, the last step of one run, and the rest, which belongs to the other run
alone (`exists_split`). What that one has read by then decides what is left.

## Contents
- `Stage`, `Attempt.part`, `shelf_alone`: the three steps of a run.
- `Side`, `Scene`, `interleave`: two runs and a schedule.
- `Stage.Reads`, `Scene.Reads`, `Scene.Reads.steps`: the invariant.
- `shows_interleave`, `stored_after_two_runs`: what is stored at the end.
- `lost_to_overlapping_run`: two runs of which one takes the rule of the other away.
-/

namespace ReviewGate

open Command

/-! ## The steps of a run -/

/-- How far a run has come, with what it has found or why it has failed. A run that has failed is
carried on without effect. -/
inductive Stage
  | ready
  | loaded (found : Except Failure Loaded)
  | asked (found : Except Failure (List Document × List LearnedRule))
  | done (learned : List LearnedRule)

namespace Stage

/-- The number of steps that the run has taken. -/
def rank : Stage → Nat
  | .ready => 0
  | .loaded _ => 1
  | .asked _ => 2
  | .done _ => 3

theorem eq_ready {stage : Stage} (h : stage.rank = 0) : stage = .ready := by
  cases stage with
  | ready => rfl
  | loaded found => cases h
  | asked found => cases h
  | done learned => cases h

/-- The rules that a run has learned by the time it is done. -/
def rules : Stage → List LearnedRule
  | .done learned => learned
  | .ready | .loaded _ | .asked _ => []

/-- The documents of the rules that a run has learned. -/
def learned (stage : Stage) : List Document := stage.rules.map LearnedRule.toDocument

end Stage

namespace Attempt

variable (a : Attempt) (store : Store)

/-- The next step of the run. -/
def part : Stage → Bench → Stage × Bench
  | .ready, bench =>
      let (found, bench) := (load a.config store a.vendor).exec a.site
        { bench with shelf := bench.shelf.under a.atRead }
      (.loaded found, bench)
  | .loaded (.ok l), bench =>
      let (learned, bench) := (ask a.config a.repository a.number a.vendor a.model l).exec a.site
        bench
      (.asked (learned.map (l.stored, ·)), bench)
  | .loaded (.error failure), bench => (.asked (.error failure), bench)
  | .asked (.ok (stored, learned)), bench =>
      let (_, bench) := (keep store a.number stored learned).exec a.site
        { bench with shelf := bench.shelf.under a.atWrite }
      (.done learned, bench)
  | .asked (.error _), bench => (.done [], bench)
  | .done learned, bench => (.done learned, bench)

theorem rank_part (stage : Stage) (bench : Bench) (h : stage.rank ≤ 2) :
    (a.part store stage bench).1.rank = stage.rank + 1 := by
  cases stage with
  | ready => rfl
  | loaded found => cases found <;> rfl
  | asked found => cases found <;> rfl
  | done learned => exact absurd h (show ¬3 ≤ 2 by decide)

/-- **Three steps without another run in between are the run.** -/
theorem shelf_alone (s : Shelf) :
    let first := a.part store .ready ⟨a.desk, s⟩
    let second := a.part store first.1 first.2
    (a.part store second.1 second.2).2.shelf = a.apply store s := by
  have hload := quiet_load a.config store a.vendor a.site ⟨a.desk, s.under a.atRead⟩
  unfold apply found
  rw [gather_eq, Task.exec_bind]
  unfold part
  dsimp only
  cases hfirst : (load a.config store a.vendor).exec a.site ⟨a.desk, s.under a.atRead⟩ with
  | mk result bench =>
      rw [hfirst] at hload
      cases result with
      | error failure => rfl
      | ok l =>
          have hask := quiet_ask a.config a.repository a.number a.vendor a.model l a.site bench
          dsimp only
          rw [Task.exec_bind]
          cases hsecond : (ask a.config a.repository a.number a.vendor a.model l).exec a.site
              bench with
          | mk result bench' =>
              rw [hsecond] at hask
              cases result with
              | error failure => rfl
              | ok learned =>
                  have hshelf : bench'.shelf = s.under a.atRead := hask.trans hload
                  dsimp only [Except.map]
                  rw [hshelf]
                  rfl

end Attempt

/-! ## Two runs -/

/-- The one run and the other. -/
inductive Side
  | left
  | right
deriving DecidableEq, Repr

namespace Side

/-- The other run. -/
def other : Side → Side
  | .left => .right
  | .right => .left

theorem other_ne (i : Side) : i.other ≠ i := by cases i <;> decide

theorem eq_of_ne_other {i j : Side} (h : j ≠ i.other) : j = i := by
  cases i <;> cases j <;> first | rfl | exact absurd rfl h

theorem count_add_count_other (schedule : List Side) (i : Side) :
    schedule.count i + schedule.count i.other = schedule.length := by
  induction schedule with
  | nil => rfl
  | cons j schedule ih =>
      rw [List.length_cons]
      by_cases hj : j = i.other
      · rw [hj, List.count_cons_self, List.count_cons_of_ne i.other_ne]
        omega
      · rw [eq_of_ne_other hj, List.count_cons_self, List.count_cons_of_ne (Ne.symm i.other_ne)]
        omega

end Side

/-- Two runs that share a shelf. -/
structure Scene where
  shelf : Shelf
  desk : Side → Desk
  stage : Side → Stage

namespace Scene

variable (attempt : Side → Attempt) (store : Store)

/-- The scene before either run has begun. -/
def start (s : Shelf) : Scene := ⟨s, fun i => (attempt i).desk, fun _ => .ready⟩

/-- The scene after the next step of a run. -/
def step (x : Scene) (i : Side) : Scene :=
  let (stage, bench) := (attempt i).part store (x.stage i) ⟨x.desk i, x.shelf⟩
  ⟨bench.shelf, Function.update x.desk i bench.desk, Function.update x.stage i stage⟩

/-- The scene after the steps of a schedule. -/
def steps (x : Scene) (schedule : List Side) : Scene := schedule.foldl (step attempt store) x

theorem steps_append (x : Scene) (front back : List Side) :
    x.steps attempt store (front ++ back)
      = (x.steps attempt store front).steps attempt store back := List.foldl_append

/-- What the run has learned by the time it is done. -/
def learned (x : Scene) (i : Side) : List Document := (x.stage i).learned

end Scene

/-- Two runs carried out in the order of a schedule, which names the run that goes next. -/
def interleave (attempt : Side → Attempt) (store : Store) (s : Shelf) (schedule : List Side) :
    Scene := (Scene.start attempt s).steps attempt store schedule

/-! ## One step -/

/-- What the run has read are the rules, and what it has learned can be stored. -/
def Stage.Reads (rules : List Document) : Stage → Prop
  | .loaded (.ok l) => l.stored = rules
  | .asked (.ok (stored, learned)) => stored = rules ∧ ∀ r ∈ learned, Json.Normal r.toDocument
  | .ready | .loaded (.error _) | .asked (.error _) | .done _ => True

namespace Attempt

section

variable {a : Attempt} {store : Store} {stage : Stage} {rules : List Document}
  (hstage : stage.Reads rules) (bench : Bench)
include hstage

/-- **Before its write a run stores nothing**, and what it reads is what the store shows. -/
theorem part_of_rank_le (ha : a.Storable) (hreads : store.ReadsUnder a.atRead)
    (hshows : stage = .ready → store.Shows bench.shelf rules) (hrank : stage.rank ≤ 1) :
    (∃ b, (a.part store stage bench).2.shelf = bench.shelf.under b) ∧
      (a.part store stage bench).1.Reads rules := by
  have hself : bench.shelf = bench.shelf.under
      ⟨bench.shelf.gist.unreachable, bench.shelf.gist.locked⟩ := rfl
  cases stage with
  | ready =>
      let reading : Bench := { bench with shelf := bench.shelf.under a.atRead }
      have hquiet := quiet_load a.config store a.vendor a.site reading
      have hpart : a.part store .ready bench
          = (.loaded ((load a.config store a.vendor).exec a.site reading).1,
            ((load a.config store a.vendor).exec a.site reading).2) := rfl
      rw [hpart]
      refine ⟨⟨a.atRead, hquiet⟩, ?_⟩
      cases hload : (load a.config store a.vendor).exec a.site reading with
      | mk result bench' =>
          cases result with
          | error failure => exact trivial
          | ok l =>
              have hstored := learnedRules_of_load_eq_ok hload
              rw [(hshows rfl).learnedRules_of_reads hreads] at hstored
              exact (Except.ok.inj hstored).symm
  | loaded found =>
      cases found with
      | error failure => exact ⟨⟨_, hself⟩, trivial⟩
      | ok l =>
          have hquiet := quiet_ask a.config a.repository a.number a.vendor a.model l a.site bench
          have hpart : a.part store (.loaded (.ok l)) bench
              = (.asked (((ask a.config a.repository a.number a.vendor a.model l).exec a.site
                  bench).1.map (l.stored, ·)),
                ((ask a.config a.repository a.number a.vendor a.model l).exec a.site
                  bench).2) := rfl
          rw [hpart]
          refine ⟨⟨_, hquiet.trans hself⟩, ?_⟩
          cases hask : (ask a.config a.repository a.number a.vendor a.model l).exec a.site
              bench with
          | mk result bench' =>
              cases result with
              | error failure => exact trivial
              | ok learned => exact ⟨hstage, normal_of_ask_eq_ok hask (.int ha.number) ha.merged⟩
  | asked found => exact absurd hrank (show ¬2 ≤ 1 by decide)
  | done learned => exact absurd hrank (show ¬3 ≤ 1 by decide)

/-- **With its write a run is done.** If it has learned nothing, the store is left alone; otherwise
it shows what the run has read with what it has learned behind it. -/
theorem part_of_rank_eq (hrank : stage.rank = 2) (hwrite : store.Writable bench.shelf a.atWrite)
    (hrules : ∀ d ∈ rules, Json.Normal d) :
    ∃ learned, (a.part store stage bench).1 = .done learned ∧
      (learned = [] → ∃ b, (a.part store stage bench).2.shelf = bench.shelf.under b) ∧
      (learned ≠ [] → store.Shows (a.part store stage bench).2.shelf
        (rules ++ learned.map LearnedRule.toDocument)) ∧
      ∀ b, store.Writable bench.shelf b → store.Writable (a.part store stage bench).2.shelf b := by
  have hself : bench.shelf = bench.shelf.under
      ⟨bench.shelf.gist.unreachable, bench.shelf.gist.locked⟩ := rfl
  cases stage with
  | ready => cases hrank
  | loaded found => cases hrank
  | done learned => cases hrank
  | asked found =>
      cases found with
      | error failure => exact ⟨[], rfl, fun _ => ⟨_, hself⟩, fun h => absurd rfl h, fun _ => id⟩
      | ok found =>
          obtain ⟨stored, learned⟩ := found
          obtain ⟨rfl, hlearned⟩ := hstage
          let writing : Bench := { bench with shelf := bench.shelf.under a.atWrite }
          refine ⟨learned, rfl, ?_⟩
          have hshelf : (a.part store (.asked (.ok (stored, learned))) bench).2.shelf
              = ((keep store a.number stored learned).exec a.site writing).2.shelf := rfl
          rw [hshelf]
          cases learned with
          | nil =>
              rw [shelf_keep_nil]
              exact ⟨fun _ => ⟨_, rfl⟩, fun h => absurd rfl h,
                fun b => (Store.writable_under_iff a.atWrite).mpr⟩
          | cons r rest =>
              have hall : ∀ d ∈ stored ++ (r :: rest).map LearnedRule.toDocument, Json.Normal d :=
                List.forall_mem_append.mpr ⟨hrules, List.forall_mem_map.mpr hlearned⟩
              obtain ⟨workflow, hkeep⟩ := shelf_keep_cons store a.number stored a.site writing
              rw [hkeep]
              exact ⟨fun h => absurd h (List.cons_ne_nil _ _),
                fun _ => Store.shows_saveLearned hwrite hall workflow a.site.stamp,
                fun b => hwrite.saveLearned hall workflow a.site.stamp⟩

end

end Attempt

/-! ## Until a run writes -/

/-- The store shows the rules and can be written to, and each run has read the rules that are given
for it; for one that is yet to read, these are the ones that the store shows. -/
structure Scene.Reads (attempt : Side → Attempt) (store : Store) (shown : List Document)
    (base : Side → List Document) (x : Scene) : Prop where
  shows : store.Shows x.shelf shown
  writable : ∀ i, store.Writable x.shelf (attempt i).atWrite
  reads : ∀ i, (x.stage i).Reads (base i)
  fresh : ∀ i, x.stage i = .ready → base i = shown
  normal : ∀ i, ∀ d ∈ base i, Json.Normal d

section

variable {attempt : Side → Attempt} {store : Store} {shown : List Document}
  {base : Side → List Document} {x : Scene}

theorem Scene.stage_step_of_ne {i j : Side} (h : j ≠ i) :
    (x.step attempt store i).stage j = x.stage j := Function.update_of_ne h ..

theorem Scene.stage_step_self (i : Side) :
    (x.step attempt store i).stage i
      = ((attempt i).part store (x.stage i) ⟨x.desk i, x.shelf⟩).1 := Function.update_self ..

variable (hx : x.Reads attempt store shown base)
include hx

/-- **The invariant is kept by steps before the write.** -/
theorem Scene.Reads.step (hstorable : ∀ i, (attempt i).Storable)
    (hreads : ∀ i, store.ReadsUnder (attempt i).atRead) {i : Side}
    (hrank : (x.stage i).rank ≤ 1) : (x.step attempt store i).Reads attempt store shown base := by
  have hready : x.stage i = .ready → store.Shows x.shelf (base i) := by
    intro h
    rw [hx.fresh i h]
    exact hx.shows
  obtain ⟨⟨b, hshelf⟩, hpart⟩ := Attempt.part_of_rank_le (hx.reads i) ⟨x.desk i, x.shelf⟩
    (hstorable i) (hreads i) hready hrank
  have hshelf' : (x.step attempt store i).shelf = x.shelf.under b := hshelf
  have hnext := (attempt i).rank_part store (x.stage i) ⟨x.desk i, x.shelf⟩ (by omega)
  refine ⟨?_, fun j => ?_, fun j => ?_, fun j hj => ?_, hx.normal⟩
  · rw [hshelf', Store.shows_under_iff]
    exact hx.shows
  · rw [hshelf', Store.writable_under_iff]
    exact hx.writable j
  · by_cases hji : j = i
    · subst hji
      rw [stage_step_self]
      exact hpart
    · rw [stage_step_of_ne hji]
      exact hx.reads j
  · by_cases hji : j = i
    · subst hji
      rw [stage_step_self] at hj
      rw [hj] at hnext
      cases hnext
    · rw [stage_step_of_ne hji] at hj
      exact hx.fresh j hj

/-- **The write of a run**: afterwards the store shows what the run has read with what it has
learned behind it, or, if it has learned nothing, what it showed before. -/
theorem Scene.Reads.write {i : Side} (hrank : (x.stage i).rank = 2) :
    let y := x.step attempt store i
    (∃ learned, y.stage i = .done learned) ∧
      (y.learned i = [] → store.Shows y.shelf shown) ∧
      (y.learned i ≠ [] → store.Shows y.shelf (base i ++ y.learned i)) ∧
      ∀ j, store.Writable y.shelf (attempt j).atWrite := by
  obtain ⟨learned, hdone, hnone, hsome, hwritable⟩ := Attempt.part_of_rank_eq (hx.reads i)
    ⟨x.desk i, x.shelf⟩ hrank (hx.writable i) (hx.normal i)
  have hstage : (x.step attempt store i).stage i = .done learned :=
    (stage_step_self i).trans hdone
  have hlearned : (x.step attempt store i).learned i = learned.map LearnedRule.toDocument := by
    rw [Scene.learned, hstage]
    rfl
  dsimp only
  rw [hlearned]
  refine ⟨⟨learned, hstage⟩, fun h => ?_, fun h => hsome ?_, fun j => hwritable _ (hx.writable j)⟩
  · obtain ⟨b, hshelf⟩ := hnone (List.map_eq_nil_iff.mp h)
    have hshelf' : (x.step attempt store i).shelf = x.shelf.under b := hshelf
    rw [hshelf', Store.shows_under_iff]
    exact hx.shows
  · rintro rfl
    exact h rfl

variable (hstorable : ∀ i, (attempt i).Storable)
  (hreads : ∀ i, store.ReadsUnder (attempt i).atRead)
include hstorable hreads

/-- **The invariant is kept as long as no run takes its third step.** -/
theorem Scene.Reads.steps {schedule : List Side}
    (hcount : ∀ i ∈ schedule, (x.stage i).rank + schedule.count i ≤ 2) :
    (x.steps attempt store schedule).Reads attempt store shown base ∧
      (∀ i, ((x.steps attempt store schedule).stage i).rank
        = (x.stage i).rank + schedule.count i) ∧
      ∀ i ∉ schedule, (x.steps attempt store schedule).stage i = x.stage i := by
  induction schedule generalizing x with
  | nil => exact ⟨hx, fun _ => rfl, fun _ _ => rfl⟩
  | cons i schedule ih =>
      have hfirst := hcount i (List.mem_cons_self ..)
      rw [List.count_cons_self] at hfirst
      have hrank : (x.stage i).rank ≤ 1 := by omega
      have hnext : ((x.step attempt store i).stage i).rank = (x.stage i).rank + 1 := by
        rw [stage_step_self]
        exact (attempt i).rank_part store _ _ (by omega)
      have hranks (j : Side) : ((x.step attempt store i).stage j).rank + schedule.count j
          = (x.stage j).rank + (i :: schedule).count j := by
        by_cases hji : j = i
        · subst hji
          rw [hnext, List.count_cons_self]
          omega
        · rw [stage_step_of_ne hji, List.count_cons_of_ne (Ne.symm hji)]
      have hrest : ∀ j ∈ schedule,
          ((x.step attempt store i).stage j).rank + schedule.count j ≤ 2 := by
        intro j hj
        rw [hranks]
        exact hcount j (List.mem_cons_of_mem _ hj)
      obtain ⟨hreads', hrank', hsame⟩ := ih (hx.step hstorable hreads hrank) hrest
      refine ⟨hreads', fun j => (hrank' j).trans (hranks j), fun j hj => ?_⟩
      obtain ⟨hji, hj⟩ := not_or.mp (mt List.mem_cons.mpr hj)
      exact (hsame j hj).trans (stage_step_of_ne hji)

end

/-! ## What is stored at the end -/

section

variable {attempt : Side → Attempt} {store : Store} {shown initial : List Document}
  {base : Side → List Document} {x : Scene} (hstorable : ∀ i, (attempt i).Storable)
  (hreads : ∀ i, store.ReadsUnder (attempt i).atRead)
include hstorable hreads

/-- The steps that are left of a run, taken in a row. -/
theorem Scene.Reads.rest (hx : x.Reads attempt store shown base) {i : Side} {m : Nat}
    (hrank : (x.stage i).rank + m = 2) :
    let final := x.steps attempt store (List.replicate m i ++ [i])
    (∃ learned, final.stage i = .done learned) ∧
      (final.learned i = [] → store.Shows final.shelf shown) ∧
      (final.learned i ≠ [] → store.Shows final.shelf (base i ++ final.learned i)) ∧
      ∀ j ≠ i, final.stage j = x.stage j := by
  have hcount : ∀ j ∈ List.replicate m i,
      (x.stage j).rank + (List.replicate m i).count j ≤ 2 := by
    intro j hj
    rw [List.eq_of_mem_replicate hj, List.count_replicate_self, hrank]
  obtain ⟨hy, hranks, hsame⟩ := hx.steps hstorable hreads hcount
  have hlast := hranks i
  rw [List.count_replicate_self, hrank] at hlast
  obtain ⟨hdone, hnone, hsome, -⟩ := hy.write hlast
  rw [Scene.steps_append]
  refine ⟨hdone, hnone, hsome, fun j hj => ?_⟩
  have hnot : j ∉ List.replicate m i := fun hmem => hj (List.eq_of_mem_replicate hmem)
  exact (stage_step_of_ne hj).trans (hsame j hnot)

omit hstorable hreads in
/-- What the other run has learned is stored when it is done. The one run has read it, if it is yet
to begin, and otherwise what was stored before. -/
theorem Scene.Reads.after_write (hx : x.Reads attempt store initial fun _ => initial) {i : Side}
    (hrank : (x.stage i.other).rank = 2) :
    let y := x.step attempt store i.other
    (∃ learned, y.stage i.other = .done learned) ∧ y.stage i = x.stage i ∧
      y.Reads attempt store (initial ++ y.learned i.other) fun _ =>
        if (x.stage i).rank = 0 then initial ++ y.learned i.other else initial := by
  obtain ⟨⟨learned, hdone⟩, hnone, hsome, hwritable⟩ := hx.write hrank
  have hstage : (x.step attempt store i.other).stage i = x.stage i :=
    stage_step_of_ne (Ne.symm i.other_ne)
  generalize x.step attempt store i.other = y at *
  have hshows : store.Shows y.shelf (initial ++ y.learned i.other) := by
    by_cases hempty : y.learned i.other = []
    · rw [hempty, List.append_nil]
      exact hnone hempty
    · exact hsome hempty
  refine ⟨⟨learned, hdone⟩, hstage, hshows, hwritable, fun j => ?_, fun j hj => ?_, fun _ => ?_⟩
  · by_cases hji : j = i.other
    · rw [hji, hdone]
      exact trivial
    · rw [Side.eq_of_ne_other hji, hstage]
      split
      next hzero =>
        rw [Stage.eq_ready hzero]
        exact trivial
      next => exact hx.reads i
  · by_cases hji : j = i.other
    · rw [hji, hdone] at hj
      cases hj
    · rw [Side.eq_of_ne_other hji, hstage] at hj
      rw [hj]
      rfl
  · split
    · exact hshows.normal
    · exact hx.normal i

/-- **When the first run has written, the rest belongs to the other one.** -/
theorem Scene.Reads.shows_of_last (hx : x.Reads attempt store initial fun _ => initial)
    {last : Side} {m : Nat} (hother : (x.stage last.other).rank = 2)
    (hlast : (x.stage last).rank + m = 2) :
    let final := x.steps attempt store (last.other :: (List.replicate m last ++ [last]))
    (∀ i, ∃ learned, final.stage i = .done learned) ∧
      (final.learned last = [] → store.Shows final.shelf (initial ++ final.learned last.other)) ∧
      (final.learned last ≠ [] → store.Shows final.shelf
        ((if (x.stage last).rank = 0 then initial ++ final.learned last.other else initial)
          ++ final.learned last)) := by
  obtain ⟨hdone, hstage, hy⟩ := hx.after_write hother
  rw [← hstage] at hlast
  obtain ⟨hdone', hnone, hsome, hsame⟩ := hy.rest hstorable hreads hlast
  have hkept := hsame last.other last.other_ne
  have hlearned : ((x.step attempt store last.other).steps attempt store
      (List.replicate m last ++ [last])).learned last.other
        = (x.step attempt store last.other).learned last.other := congrArg Stage.learned hkept
  rw [← hlearned] at hnone hsome
  refine ⟨fun i => ?_, hnone, hsome⟩
  by_cases hi : i = last.other
  · subst hi
    exact hdone.imp fun _ h => hkept.trans h
  · rw [Side.eq_of_ne_other hi]
    exact hdone'

end

/-- The run takes its first step when the other one has taken its last. -/
def Side.Waits (i : Side) (schedule : List Side) : Prop := List.replicate 3 i.other <+: schedule

instance (i : Side) (schedule : List Side) : Decidable (i.Waits schedule) :=
  inferInstanceAs (Decidable (_ <+: _))

/-- A schedule of two runs: the last step of the one, and behind it only steps of the other. -/
theorem exists_split {schedule : List Side} (hall : ∀ i, schedule.count i = 3) :
    ∃ front last m, schedule = front ++ last.other :: (List.replicate m last ++ [last]) ∧
      front.count last.other = 2 ∧ front.count last + m = 2 := by
  cases hreverse : schedule.reverse with
  | nil =>
      obtain rfl := List.reverse_eq_nil_iff.mp hreverse
      exact absurd (hall .left) (by decide)
  | cons last rest =>
      have hother : last.other ∈ rest := by
        have hmem : last.other ∈ schedule.reverse := by
          rw [List.mem_reverse, ← List.count_pos_iff, hall]
          decide
        rw [hreverse] at hmem
        exact (List.mem_cons.mp hmem).resolve_left last.other_ne
      -- the reversed schedule is looked at up to the first step of the other run
      obtain ⟨behind, before, rfl, hnot⟩ := List.eq_append_cons_of_mem hother
      have hbehind : behind = List.replicate behind.length last :=
        List.eq_replicate_of_mem fun i hi => Side.eq_of_ne_other fun heq => hnot (heq ▸ hi)
      have hschedule : schedule
          = before.reverse ++ last.other :: (List.replicate behind.length last ++ [last]) := by
        rw [← List.reverse_reverse schedule, hreverse, List.reverse_cons, List.reverse_append,
          List.reverse_cons, hbehind, List.reverse_replicate, List.length_replicate]
        simp only [List.append_assoc, List.cons_append, List.nil_append]
      have hrest : last.other ∉ List.replicate behind.length last ++ [last] := by
        rw [← hbehind, List.mem_append, List.mem_singleton]
        exact not_or.mpr ⟨hnot, last.other_ne⟩
      have hleft := hall last.other
      have hright := hall last
      rw [hschedule, List.count_append, List.count_cons_self,
        List.count_eq_zero_of_not_mem hrest] at hleft
      rw [hschedule, List.count_append, List.count_cons_of_ne last.other_ne, List.count_append,
        List.count_replicate_self, List.count_singleton_self] at hright
      exact ⟨before.reverse, last, behind.length, hschedule, by omega, by omega⟩

/-- The last run has waited if it takes none of its steps before the last one of the other run. -/
theorem waits_iff {schedule front : List Side} {last : Side} {m : Nat}
    (hschedule : schedule = front ++ last.other :: (List.replicate m last ++ [last]))
    (hother : front.count last.other = 2) (hlast : front.count last + m = 2) :
    last.Waits schedule ↔ front.count last = 0 := by
  have hfront : front <+: schedule := hschedule ▸ List.prefix_append ..
  constructor
  · intro hwaits
    by_contra hsome
    -- three steps of the other run would be among those before its last one
    have hlength : 3 ≤ front.length := by
      rw [← Side.count_add_count_other front last]
      omega
    have hprefix : List.replicate 3 last.other <+: front :=
      List.prefix_of_prefix_length_le hwaits hfront (by rwa [List.length_replicate])
    have hcount := hprefix.sublist.count_le last.other
    rw [List.count_replicate_self, hother] at hcount
    omega
  · intro hzero
    have hall : front = List.replicate front.length last.other := by
      refine List.eq_replicate_of_mem fun i hi => ?_
      by_contra hne
      exact List.count_eq_zero.mp hzero (Side.eq_of_ne_other hne ▸ hi)
    rw [← Side.count_add_count_other front last, hzero, hother] at hall
    rw [hschedule, hall]
    exact ⟨_, rfl⟩

section

variable {attempt : Side → Attempt} {store : Store} {s : Shelf} {initial : List Document}
  (hshows : store.Shows s initial) (hstorable : ∀ i, (attempt i).Storable)
  (hreads : ∀ i, store.ReadsUnder (attempt i).atRead)
  (hwrites : ∀ i, store.Writable s (attempt i).atWrite)
include hshows hstorable hreads hwrites

/-- **What is stored depends on what the last run has read.** Where the other run is done before the
last one takes its first step, that is what the other one has stored; otherwise it is what was
stored at the start. -/
theorem shows_interleave {schedule front : List Side} {last : Side} {m : Nat}
    (hschedule : schedule = front ++ last.other :: (List.replicate m last ++ [last]))
    (hother : front.count last.other = 2) (hlast : front.count last + m = 2) :
    let final := interleave attempt store s schedule
    (∀ i, ∃ learned, final.stage i = .done learned) ∧
      (final.learned last = [] → store.Shows final.shelf (initial ++ final.learned last.other)) ∧
      (final.learned last ≠ [] → store.Shows final.shelf
        ((if front.count last = 0 then initial ++ final.learned last.other else initial)
          ++ final.learned last)) := by
  have hstart : (Scene.start attempt s).Reads attempt store initial fun _ => initial :=
    ⟨hshows, hwrites, fun _ => trivial, fun _ _ => rfl, fun _ => hshows.normal⟩
  have hrank (i : Side) : ((Scene.start attempt s).stage i).rank = 0 := rfl
  have hfront : ∀ i ∈ front, ((Scene.start attempt s).stage i).rank + front.count i ≤ 2 := by
    intro i _
    by_cases hi : i = last.other
    · rw [hrank, hi, hother]
    · rw [hrank, Side.eq_of_ne_other hi]
      omega
  obtain ⟨hx, hranks, -⟩ := hstart.steps hstorable hreads hfront
  have hother' := hranks last.other
  have hlast' := hranks last
  rw [hrank, Nat.zero_add] at hother' hlast'
  rw [hother] at hother'
  rw [← hlast'] at hlast ⊢
  unfold interleave
  rw [hschedule, Scene.steps_append]
  exact hx.shows_of_last hstorable hreads hother' hlast

/-- **Two runs of mining at the same time.** In whichever order the two runs take their steps, each
of them comes to its end, and the store shows the rules from the start with the new rules of the one
and then of the other behind them, if the run that writes last has waited for the other one or has
learned nothing. Otherwise the rules of the other one are lost: the store shows the rules from the
start with those of the last run alone. -/
theorem stored_after_two_runs {schedule : List Side} (hall : ∀ i, schedule.count i = 3) :
    let final := interleave attempt store s schedule
    (∀ i, ∃ learned, final.stage i = .done learned) ∧
      ∃ last, schedule.getLast? = some last ∧
        (last.Waits schedule ∨ final.learned last = [] → store.Shows final.shelf
          (initial ++ final.learned last.other ++ final.learned last)) ∧
        (¬last.Waits schedule → final.learned last ≠ [] → store.Shows final.shelf
          (initial ++ final.learned last)) := by
  obtain ⟨front, last, m, hschedule, hother, hlast⟩ := exists_split hall
  obtain ⟨hdone, hnone, hsome⟩ :=
    shows_interleave hshows hstorable hreads hwrites hschedule hother hlast
  have hend : schedule.getLast? = some last := by
    rw [hschedule, List.getLast?_append, List.getLast?_cons, List.getLast?_concat]
    rfl
  have hwaits : last.Waits schedule ↔ front.count last = 0 := waits_iff hschedule hother hlast
  refine ⟨hdone, last, hend, fun h => ?_, fun hlate hlearned => ?_⟩
  · by_cases hempty : (interleave attempt store s schedule).learned last = []
    · rw [hempty, List.append_nil]
      exact hnone hempty
    · have hshown := hsome hempty
      rw [if_pos (hwaits.mp (h.resolve_right hempty))] at hshown
      exact hshown
  · have hshown := hsome hlearned
    rw [if_neg (mt hwaits.mpr hlate)] at hshown
    exact hshown

end

/-! ## Two runs that overlap -/

/-- Two runs on one pull request, in which the model answers with different rules. -/
def rivals : Side → Attempt
  | .left => mineSeven .free .free
  | .right => { mineSeven .free .free with
      desk := .start [.answer
        (some <| "[\x7b\"id\": \"name-threads\", \"scope\": \"**/*.py\", " ++
          "\"pattern\": \"Thread(\"\x7d]")
        none none] [] }

theorem storable_rivals (i : Side) : (rivals i).Storable := by
  have hseven := storable_mineSeven .free .free
  cases i with
  | left => exact hseven
  | right => exact ⟨hseven.number, hseven.merged⟩

theorem readsUnder_rivals (i : Side) : Store.ReadsUnder .gist (rivals i).atRead := by
  cases i <;> exact fun _ => rfl

theorem writable_rivals (s : Shelf) (i : Side) : Store.Writable .gist s (rivals i).atWrite := by
  cases i <;> exact ⟨rfl, rfl⟩

/-- The one run waits for the other, and both leave their rules behind the one that is there. -/
theorem stored_after_two_runs_sample :
    let final := interleave rivals .gist ruleShelf [.left, .left, .left, .right, .right, .right]
    Store.Shows .gist final.shelf
      ([wrapErrors.toDocument] ++ final.learned .left ++ final.learned .right) := by
  have hall : ∀ i, List.count i [Side.left, .left, .left, .right, .right, .right] = 3 := by
    intro i
    cases i <;> decide
  obtain ⟨-, last, hlast, hkept, -⟩ := stored_after_two_runs holds_ruleShelf.shows storable_rivals
    readsUnder_rivals (writable_rivals ruleShelf) hall
  obtain rfl := Option.some.inj hlast
  exact hkept (Or.inl (by decide))

/-- Both runs read before either writes. -/
def overlap : List Side := [.left, .right, .left, .right, .left, .right]

/-- A shelf with nothing on it. -/
def bareShelf : Shelf := ⟨⟨[]⟩, .empty⟩

theorem count_overlap (i : Side) : overlap.count i = 3 := by cases i <;> decide

theorem rules_rivals :
    ((interleave rivals .gist bareShelf overlap).stage .left).rules.map (·.id) = ["close-files"] ∧
    ((interleave rivals .gist bareShelf overlap).stage .right).rules.map (·.id)
      = ["name-threads"] := by
  decide +kernel

/-- A rule can be told by its document. -/
theorem id_eq_of_toDocument_eq {r r' : LearnedRule} (h : r.toDocument = r'.toDocument) :
    r.id = r'.id := by
  -- the first field of the document is the id
  have hfirst := (List.cons_eq_cons.mp (Document.map.inj h)).1
  exact Document.text.inj (Prod.mk.inj hfirst).2

/-- Two runs that share a store with free access, each of which learns a rule of its own, and one of
the rules is not in the store when both are done. -/
theorem lost_to_overlapping_run :
    Store.Shows .gist bareShelf [] ∧ (∀ i, (rivals i).Storable) ∧
      (∀ i, Store.ReadsUnder .gist (rivals i).atRead) ∧
      (∀ i, Store.Writable .gist bareShelf (rivals i).atWrite) ∧ (∀ i, overlap.count i = 3) ∧
      let final := interleave rivals .gist bareShelf overlap
      (∀ i, ∃ learned, final.stage i = .done learned) ∧
        (∃ r r' : LearnedRule, final.learned .left = [r.toDocument] ∧
          final.learned .right = [r'.toDocument] ∧ r.id ≠ r'.id) ∧
        ¬∃ held, Store.Shows .gist final.shelf held ∧ ∀ i, ∀ d ∈ final.learned i, d ∈ held := by
  have hshows : Store.Shows .gist bareShelf [] := rfl
  refine ⟨hshows, storable_rivals, readsUnder_rivals, writable_rivals bareShelf, count_overlap, ?_⟩
  have hsplit : overlap = [.left, .right, .left, .right] ++
      Side.right.other :: (List.replicate 0 .right ++ [.right]) := rfl
  obtain ⟨hdone, -, hlost⟩ := shows_interleave hshows storable_rivals readsUnder_rivals
    (writable_rivals bareShelf) hsplit rfl rfl
  obtain ⟨hleft, hright⟩ := rules_rivals
  obtain ⟨r, hr, hid⟩ := List.map_eq_singleton_iff.mp hleft
  obtain ⟨r', hr', hid'⟩ := List.map_eq_singleton_iff.mp hright
  have hlearned : (interleave rivals .gist bareShelf overlap).learned .left = [r.toDocument] :=
    congrArg (List.map LearnedRule.toDocument) hr
  have hlearned' : (interleave rivals .gist bareShelf overlap).learned .right = [r'.toDocument] :=
    congrArg (List.map LearnedRule.toDocument) hr'
  have hne : r.id ≠ r'.id := by
    rw [hid, hid']
    decide
  refine ⟨hdone, ⟨r, r', hlearned, hlearned', hne⟩, ?_⟩
  rintro ⟨held, hheld, hall⟩
  have hshown := hlost (by rw [hlearned']; exact List.cons_ne_nil _ _)
  rw [hlearned'] at hshown
  have hmem : r.toDocument ∈ held := hall .left _ (hlearned ▸ List.mem_singleton.mpr rfl)
  rw [← hshown.unique hheld] at hmem
  exact hne (id_eq_of_toDocument_eq (List.mem_singleton.mp hmem))

end ReviewGate
