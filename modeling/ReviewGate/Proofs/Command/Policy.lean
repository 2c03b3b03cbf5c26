import ReviewGate.Command.Policy
import ReviewGate.Proofs.Command.Task
import ReviewGate.Proofs.Policy.Config

/-!
# `ReviewGate.Proofs.Command.Policy` — what is said about a bad configuration

A configuration that violates a contract is the user's mistake, and every command that needs the
policy says so in words, as wrong usage. That is what becomes of all configurations that cannot be
accepted, as long as a number stands where one is read, a list or the like where ids are gone
through, and a mapping where the settings of specialists are looked up (`RepoConfig.Regular`). Where
something else stands there, nobody checks it, and the command ends with a fault that is not
explained (`null_limit_unreported`).

## Contents
- `Task.exec_policy_of_violated`: a violated contract as a command tells it.
- `Reported`: a configuration is accepted, or its fault is told to the user.
- `regular_configuration_reported`: what becomes of configurations.
-/

namespace ReviewGate

open Command

/-- A violated contract is all that a command which needs the policy tells, and it changes
nothing. -/
theorem Command.Task.exec_policy_of_violated {config : Document} {cause : PolicyFault}
    (h : RepoConfig.ofDocument config = .error (.policy cause)) {store : Store} {bench : Bench}
    {learned : List Document} (hlearned : store.learnedRules bench.shelf = .ok learned)
    {snapshot : Option Document} (hsnapshot : store.snapshot? bench.shelf = .ok snapshot)
    (mode : Option String) (site : Site) :
    (Task.policy config store mode).exec site bench =
      (.error (.usage s!"Invalid policy configuration: {cause.message}"), bench) := by
  have hget : Task.exec get site bench = (.ok bench, bench) := rfl
  have hload : loadPolicy config learned (snapshot.getD .null) mode = .error (.policy cause) := by
    rw [loadPolicy, h]
    rfl
  unfold Task.policy
  rw [Task.exec_bind_of_ok hget,
    Task.exec_bind_of_ok (Task.exec_lift_eq_ok.mpr ⟨hlearned, rfl⟩),
    Task.exec_bind_of_ok (Task.exec_lift_eq_ok.mpr ⟨hsnapshot, rfl⟩), hload]
  rfl

/-- The configuration is accepted, or it violates a contract and every command that needs the policy
tells which, whatever store it can read. -/
def Reported (config : Document) : Prop :=
  (∃ c, RepoConfig.ofDocument config = .ok c) ∨
    ∃ cause, RepoConfig.ofDocument config = .error (.policy cause) ∧
      ∀ (store : Store) (mode : Option String) (site : Site) (bench : Bench)
        (learned : List Document) (snapshot : Option Document),
        store.learnedRules bench.shelf = .ok learned →
        store.snapshot? bench.shelf = .ok snapshot →
        (Task.policy config store mode).exec site bench =
          (.error (.usage s!"Invalid policy configuration: {cause.message}"), bench)

/-- A judged configuration is a reported one. -/
theorem reported_of_judged {config : Document} (h : Judged (RepoConfig.ofDocument config)) :
    Reported config := by
  obtain haccepted | ⟨cause, hcause⟩ := h
  · exact .inl haccepted
  · exact .inr ⟨cause, hcause, fun _ mode site _ _ _ hlearned hsnapshot =>
      Task.exec_policy_of_violated hcause hlearned hsnapshot mode site⟩

/-- **A regular configuration is accepted, or what is wrong with it is told to the user, and no
other configuration is ever accepted.** -/
theorem regular_configuration_reported {entries : List (Document × Document)}
    (hspellable : (Document.map entries).spellable = true) :
    (RepoConfig.Regular entries → Reported (.map entries)) ∧
      ((∃ c, RepoConfig.ofDocument (.map entries) = .ok c) → RepoConfig.Regular entries) :=
  ⟨fun hregular => reported_of_judged (RepoConfig.judged_ofDocument hspellable hregular),
    fun ⟨_, hc⟩ => RepoConfig.regular_of_ofDocument hc⟩

/-- A configuration with a soft rule that has no scope and no pattern. -/
def barrenEntries : List (Document × Document) :=
  [(.text "soft_rules", .list [.ofFields [("id", .text "close-files")]])]

/-- Surroundings and a bench with nothing in them. -/
def bareSite : Site := ⟨⟨[], []⟩, .empty, "", "2024-05-02", none⟩

@[inherit_doc bareSite]
def bareBench : Bench := ⟨.start [] [], ⟨⟨[]⟩, .empty⟩⟩

theorem regular_configuration_reported_sample :
    (Document.map barrenEntries).spellable = true ∧ RepoConfig.Regular barrenEntries ∧
      (Task.policy (.map barrenEntries) .nowhere none).exec bareSite bareBench =
        (.error (.usage <| "Invalid policy configuration: " ++
          "soft_rules: rule 'close-files' is missing scope, pattern"), bareBench) := by
  have hspellable : (Document.map barrenEntries).spellable = true := by decide
  have hregular : RepoConfig.Regular barrenEntries := ⟨nofun, nofun, nofun, nofun⟩
  refine ⟨hspellable, hregular, ?_⟩
  obtain ⟨_, hc⟩ | ⟨cause, hcause, htold⟩ := (regular_configuration_reported hspellable).1 hregular
  · cases hc
  · cases hcause
    exact htold .nowhere none bareSite bareBench [] none rfl rfl

/-- A configuration whose limit of comments is null. -/
def nullLimitEntries : List (Document × Document) :=
  [(.text "settings", .ofFields [("max_inline_comments", .null)])]

/-- It can be written, and yet it is neither accepted nor found to violate a contract, and a command
ends with a fault that is not explained. -/
theorem null_limit_unreported :
    (Document.map nullLimitEntries).spellable = true ∧
      ¬Judged (RepoConfig.ofDocument (.map nullLimitEntries)) ∧
      (Task.policy (.map nullLimitEntries) .nowhere none).exec bareSite bareBench =
        (.error (.fault .wrongKind), bareBench) := by
  have hfault : RepoConfig.ofDocument (.map nullLimitEntries) = .error .wrongKind := by rfl
  refine ⟨by decide, ?_, by rfl⟩
  rw [hfault]
  rintro (⟨_, h⟩ | ⟨_, h⟩) <;> cases h

end ReviewGate
