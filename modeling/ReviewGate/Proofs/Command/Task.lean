import ReviewGate.Command.Task
import ReviewGate.Session.Review

/-!
# `ReviewGate.Proofs.Command.Task` — commands one step after the other

A command and a run are alike in that a step may fail, and that what it has changed until then
stays. So a sequence succeeds exactly if its steps do, each where the one before has left off
(`run_bind_eq_ok`). What a step does not touch it does not touch when it fails either, so for the
shelf all outcomes are looked at (`Quiet`).

## Contents
- `run_bind`, `run_bind_eq_ok`, `run_pure_eq_ok`: steps that change a state and can fail.
- `Run.run_lift`, `Run.run_lift_eq_ok`, `findPull_eq_ok`: steps that change nothing.
- `Command.Task.exec`: a command carried out.
- `Command.Task.Quiet`: commands that leave the shelf alone.
-/

namespace ReviewGate

section

variable {ε σ α β : Type}

theorem run_bind (x : ExceptT ε (StateM σ) α) (k : α → ExceptT ε (StateM σ) β) (s : σ) :
    (x >>= k).run s = match x.run s with
      | (.ok a, s') => (k a).run s'
      | (.error e, s') => (.error e, s') := by
  show (match x.run s with
    | (result, s') => ExceptT.bindCont k result s') = _
  cases x.run s with
  | mk result s' => cases result <;> rfl

/-- **A sequence succeeds exactly if its steps do.** -/
theorem run_bind_eq_ok {x : ExceptT ε (StateM σ) α} {k : α → ExceptT ε (StateM σ) β} {s s' : σ}
    {b : β} :
    (x >>= k).run s = (.ok b, s') ↔ ∃ a s₁, x.run s = (.ok a, s₁) ∧ (k a).run s₁ = (.ok b, s') := by
  rw [run_bind]
  cases x.run s with
  | mk result s₁ =>
      cases result with
      | error e =>
          constructor
          · intro h
            cases h
          · rintro ⟨a, s₂, h, -⟩
            cases h
      | ok a =>
          constructor
          · exact fun h => ⟨a, s₁, rfl, h⟩
          · rintro ⟨a', s₂, h, hk⟩
            cases h
            exact hk

theorem run_pure_eq_ok {a b : α} {s s' : σ} :
    (pure a : ExceptT ε (StateM σ) α).run s = (.ok b, s') ↔ a = b ∧ s = s' := by
  constructor
  · intro h
    cases h
    exact ⟨rfl, rfl⟩
  · rintro ⟨rfl, rfl⟩
    rfl

end

theorem Run.run_lift {α : Type} (result : Except Fault α) (desk : Desk) :
    (Run.lift result).run desk = (result, desk) := by
  cases result <;> rfl

theorem Run.run_lift_eq_ok {α : Type} {result : Except Fault α} {desk desk' : Desk} {a : α} :
    (Run.lift result).run desk = (.ok a, desk') ↔ result = .ok a ∧ desk = desk' := by
  rw [Run.run_lift, Prod.mk.injEq]

theorem findPull_eq_ok {hub : Hub} {repository : String} {number : Int} {desk desk' : Desk}
    {pull : Pull} (h : (findPull hub repository number).run desk = (.ok pull, desk')) :
    hub.pull? number = some pull ∧ desk = desk' := by
  unfold findPull at h
  cases hfound : hub.pull? number with
  | none =>
      rw [hfound] at h
      cases h
  | some found =>
      rw [hfound] at h
      obtain ⟨rfl, hdesk⟩ := run_pure_eq_ok.mp h
      exact ⟨rfl, hdesk⟩

namespace Command.Task

variable {α β : Type}

/-- What comes of a command and of the bench. -/
def exec (x : Task α) (site : Site) (bench : Bench) : Except Failure α × Bench :=
  (x.run site).run bench

theorem exec_bind_eq_ok {x : Task α} {k : α → Task β} {site : Site} {bench bench' : Bench} {b : β} :
    (x >>= k).exec site bench = (.ok b, bench') ↔
      ∃ a bench₁, x.exec site bench = (.ok a, bench₁) ∧ (k a).exec site bench₁ = (.ok b, bench') :=
  run_bind_eq_ok

theorem exec_bind (x : Task α) (k : α → Task β) (site : Site) (bench : Bench) :
    (x >>= k).exec site bench = match x.exec site bench with
      | (.ok a, bench') => (k a).exec site bench'
      | (.error e, bench') => (.error e, bench') := by
  have hrun := run_bind (x.run site) (fun a => (k a).run site) bench
  unfold exec
  cases hx : (x.run site).run bench with
  | mk result bench' =>
      rw [hx] at hrun
      cases result <;> exact hrun

/-- A step that succeeds is followed by the others. -/
theorem exec_bind_of_ok {x : Task α} {site : Site} {bench bench' : Bench} {a : α}
    (h : x.exec site bench = (.ok a, bench')) (k : α → Task β) :
    (x >>= k).exec site bench = (k a).exec site bench' := by
  rw [exec_bind, h]

theorem exec_ofResult_eq_ok {failure : Fault → Failure} {result : Except Fault α} {site : Site}
    {bench bench' : Bench} {a : α} :
    (ofResult failure result).exec site bench = (.ok a, bench') ↔
      result = .ok a ∧ bench = bench' := by
  cases result with
  | error fault =>
      constructor
      · intro h
        cases h
      · rintro ⟨h, -⟩
        cases h
  | ok b =>
      constructor
      · intro h
        cases h
        exact ⟨rfl, rfl⟩
      · rintro ⟨h, rfl⟩
        cases h
        rfl

theorem exec_lift_eq_ok {result : Except Fault α} {site : Site} {bench bench' : Bench} {a : α} :
    (lift result).exec site bench = (.ok a, bench') ↔ result = .ok a ∧ bench = bench' :=
  exec_ofResult_eq_ok

theorem exec_ofRunWith_eq_ok {failure : Fault → Failure} {run : Run α} {site : Site}
    {bench bench' : Bench} {a : α} :
    (ofRunWith failure run).exec site bench = (.ok a, bench') ↔
      ∃ desk, run.run bench.desk = (.ok a, desk) ∧ bench' = { bench with desk } := by
  have hform : (ofRunWith failure run).exec site bench
      = (ofResult failure (run.run bench.desk).1).exec site
          { bench with desk := (run.run bench.desk).2 } := rfl
  rw [hform, exec_ofResult_eq_ok]
  constructor
  · rintro ⟨hresult, rfl⟩
    exact ⟨(run.run bench.desk).2, Prod.ext hresult rfl, rfl⟩
  · rintro ⟨desk, hrun, rfl⟩
    rw [hrun]
    exact ⟨rfl, rfl⟩

/-! ## Commands that leave the shelf alone -/

/-- Whatever comes of the command, the shelf is what it was. -/
def Quiet (x : Task α) : Prop := ∀ site bench, (x.exec site bench).2.shelf = bench.shelf

theorem Quiet.bind {x : Task α} {k : α → Task β} (hx : Quiet x) (hk : ∀ a, Quiet (k a)) :
    Quiet (x >>= k) := by
  intro site bench
  have hshelf := hx site bench
  rw [exec_bind]
  cases hresult : x.exec site bench with
  | mk result bench' =>
      rw [hresult] at hshelf
      cases result with
      | error e => exact hshelf
      | ok a => exact (hk a site bench').trans hshelf

theorem quiet_pure (a : α) : Quiet (pure a) := fun _ _ => rfl

theorem quiet_throw (f : Failure) : Quiet (throw f : Task α) := fun _ _ => rfl

theorem quiet_get : Quiet get := fun _ _ => rfl

theorem quiet_read : Quiet read := fun _ _ => rfl

theorem quiet_ofResult (failure : Fault → Failure) (result : Except Fault α) :
    Quiet (ofResult failure result) := by
  cases result with
  | error fault => exact quiet_throw _
  | ok a => exact quiet_pure a

theorem quiet_lift (result : Except Fault α) : Quiet (lift result) := quiet_ofResult _ _

theorem quiet_ofRunWith (failure : Fault → Failure) (run : Run α) :
    Quiet (ofRunWith failure run) := fun site bench =>
  quiet_ofResult failure (run.run bench.desk).1 site { bench with desk := (run.run bench.desk).2 }

theorem quiet_ofRun (run : Run α) : Quiet (ofRun run) := quiet_ofRunWith failureOf run

theorem quiet_say (text : String) : Quiet (say text) := quiet_ofRun (Run.say text)

theorem quiet_forM {f : α → Task Unit} (hf : ∀ a, Quiet (f a)) (as : List α) :
    Quiet (as.forM f) := by
  induction as with
  | nil => exact quiet_pure ()
  | cons a as ih => exact (hf a).bind fun _ => ih

/-- What a quiet rest of a command leaves on the shelf is what was there before it. -/
theorem shelf_bind {x : Task α} {k : α → Task β} (hk : ∀ a, Quiet (k a)) (site : Site)
    (bench : Bench) : ((x >>= k).exec site bench).2.shelf = (x.exec site bench).2.shelf := by
  rw [exec_bind]
  cases x.exec site bench with
  | mk result bench' =>
      cases result with
      | error e => rfl
      | ok a => exact hk a site bench'

/-- A change of the store is there whether or not it was found to have a fault. -/
theorem shelf_save (change : Shelf → Except Fault (Option String) × Shelf) (site : Site)
    (bench : Bench) : ((save change).exec site bench).2.shelf = (change bench.shelf).2 := by
  have hform : (save change).exec site bench
      = (lift (change bench.shelf).1 >>= fun _ => pure ()).exec site
          { bench with shelf := (change bench.shelf).2 } := rfl
  rw [hform, shelf_bind fun _ => quiet_pure (), quiet_lift]

end Command.Task

end ReviewGate
