import ReviewGate.Proofs.Json.Writable
import ReviewGate.Proofs.Policy.Snapshot
import ReviewGate.Proofs.Store.Cells

/-!
# `ReviewGate.Proofs.Policy.Saved` — a policy in a file

All fields of a rule are of closed types when the rule has been read, with one exception: a hard
rule keeps its message as the configuration gives it. So whether an accepted policy can be saved in
a file, and whether it is the same when it is loaded from there, depends on the messages alone. It
is saved if each of them has a JSON text (`Json.Writable`), and it is the same again if JSON can
hold each of them (`Json.Normal`). A text, or no message at all, is both.

## Contents
- `Policy.writable_snapshot_iff`, `Policy.normal_snapshot`: the document of a policy.
- `Snapshot.normal_message`: the messages of a policy that JSON held.
- `Shelf.putInFile_eq_ok_iff`: a document put in a file.
- `Policy.saveSnapshot_eq_ok_iff`: a policy saved.
- `saved_policy_same`: a policy saved and loaded.
-/

namespace ReviewGate

/-! ## The document of a policy -/

theorem Rule.normal_toDocument (r : Rule) : Json.Normal r.toDocument := by
  have hnames : ["id", "description", "scope", "pattern", "severity", "source"].Nodup := by decide
  refine Store.normal_ofFields hnames ?_
  simp only [List.forall_mem_cons]
  exact ⟨.text _, .text _, .text _, .text _, .text _, .text _, List.forall_mem_nil _⟩

namespace HardRule

/-- The fields of a hard rule apart from the message. -/
def closedFields (r : HardRule) : List (String × Document) :=
  [("id", .text r.id), ("description", .text r.description), ("scope", .text r.scope),
    ("pattern", .text r.pattern), ("severity", .text r.severity.name),
    ("source", .text r.source.name), ("category", .text r.category.name),
    ("mode", .text r.demand.name), ("target", .text r.target.name),
    ("new_code_only", .bool r.newCodeOnly)]

theorem toDocument_eq (r : HardRule) : r.toDocument
    = .ofFields (r.closedFields ++ if r.message.isNull then [] else [("message", r.message)]) := rfl

theorem normal_closedFields (r : HardRule) : ∀ f ∈ r.closedFields, Json.Normal f.2 := by
  simp only [closedFields, List.forall_mem_cons]
  exact ⟨.text _, .text _, .text _, .text _, .text _, .text _, .text _, .text _, .text _, .bool _,
    List.forall_mem_nil _⟩

theorem normal_toDocument {r : HardRule} (h : Json.Normal r.message) :
    Json.Normal r.toDocument := by
  have hnames : (["id", "description", "scope", "pattern", "severity", "source", "category", "mode",
      "target", "new_code_only"] ++ ["message"]).Nodup := by decide
  rw [toDocument_eq]
  split
  · rw [List.append_nil]
    exact Store.normal_ofFields hnames.of_append_left r.normal_closedFields
  · refine Store.normal_ofFields hnames ?_
    rw [List.forall_mem_append, List.forall_mem_singleton]
    exact ⟨r.normal_closedFields, h⟩

/-- **A hard rule has a text exactly if its message has one.** -/
theorem writable_toDocument_iff {r : HardRule} :
    Json.Writable r.toDocument ↔ Json.Writable r.message := by
  have hclosed : ∀ f ∈ r.closedFields, Json.Writable f.2 :=
    fun f hf => (r.normal_closedFields f hf).writable
  rw [toDocument_eq, Json.writable_ofFields_iff, List.forall_mem_append, and_iff_right hclosed]
  cases r.message with
  | null => exact iff_of_true (List.forall_mem_nil _) (.atomic .null)
  | _ => exact List.forall_mem_singleton

/-- The message of a hard rule is what stands in its document. -/
theorem field_message_of_ofDocument {source : RuleSource} {place : String} {d : Document}
    {r : HardRule} (h : HardRule.ofDocument source place d = .ok r) :
    d.field "message" = .ok r.message := by
  simp only [HardRule.ofDocument, bind_eq_ok] at h
  obtain ⟨_, -, _, -, _, -, _, -, _, -, _, -, _, -, _, -, _, -, h⟩ := h
  obtain ⟨_, -, _, -, _, -, _, -, _, -, _, hmessage, _, -, _, -, hr⟩ := h
  rw [← Except.ok.inj hr]
  exact hmessage

end HardRule

namespace Policy

variable {p : Policy}

/-- **A policy has a text exactly if the messages of its hard rules have one.** -/
theorem writable_snapshot_iff (stamp : String) :
    Json.Writable (p.snapshot stamp) ↔ ∀ r ∈ p.hardRules, Json.Writable r.message := by
  have hversion : Json.Writable (.int snapshotVersion) := .atomic (.int (by decide))
  have hstamp : Json.Writable (.text stamp) := .atomic (.text stamp)
  have hsoft : Json.Writable (.list (p.softRules.map Rule.toDocument)) :=
    .list (List.forall_mem_map.mpr fun r _ => r.normal_toDocument.writable)
  unfold snapshot
  rw [Json.writable_ofFields_iff]
  simp only [List.forall_mem_cons, hversion, hstamp, hsoft, true_and, Json.writable_list_iff,
    List.forall_mem_map, HardRule.writable_toDocument_iff, List.not_mem_nil, false_imp_iff,
    implies_true, and_true]

theorem normal_snapshot (h : ∀ r ∈ p.hardRules, Json.Normal r.message) (stamp : String) :
    Json.Normal (p.snapshot stamp) := by
  have hnames : ["version", "generated_at", "soft_rules", "hard_rules"].Nodup := by decide
  refine Store.normal_ofFields hnames ?_
  simp only [List.forall_mem_cons]
  exact ⟨.int (by decide), .text stamp,
    .list (List.forall_mem_map.mpr fun r _ => r.normal_toDocument),
    .list (List.forall_mem_map.mpr fun r hr => HardRule.normal_toDocument (h r hr)),
    List.forall_mem_nil _⟩

end Policy

/-! ## What JSON held -/

theorem Json.Normal.of_field {d v : Document} {name : String} (h : Json.Normal d)
    (hfield : d.field name = .ok v) : Json.Normal v := by
  cases d with
  | map entries =>
      cases hlookup : Document.lookup name entries with
      | none =>
          rw [Document.field, hlookup] at hfield
          exact Except.ok.inj hfield ▸ .null
      | some value =>
          rw [Document.field, hlookup] at hfield
          exact Except.ok.inj hfield ▸ h.of_lookup hlookup
  | _ => cases hfield

/-- **The messages of a policy that JSON held are such that JSON can hold them.** -/
theorem Snapshot.normal_message {d : Document} {stored : Snapshot} (hd : Json.Normal d)
    (h : Snapshot.ofDocument? d = .ok (some stored)) :
    ∀ r ∈ stored.hardRules, Json.Normal r.message := by
  obtain ⟨soft, hard, -, hfield, hread⟩ := readRules_of_ofDocument? h
  simp only [Snapshot.readRules, bind_eq_ok] at hread
  obtain ⟨_, -, hardRules, hhard, hrules⟩ := hread
  obtain ⟨-, rfl⟩ := Prod.mk.inj (Except.ok.inj hrules)
  intro r hr
  obtain ⟨doc, hdoc, hrule⟩ := exists_of_mapM_eq_ok hhard hr
  cases hd.of_field hfield with
  | list hitems => exact (hitems doc hdoc).of_field (HardRule.field_message_of_ofDocument hrule)

/-! ## Files -/

/-- A document without a text is a fault, wherever it is to be put. -/
theorem Shelf.putInFile_of_unwritable {s : Shelf} {path : String} {d : Document} {made : Tree}
    (hmake : s.tree.makeDirectories (Tree.parentOf path) = .ok made) {cause : Json.Unwritable}
    (htext : Json.indented d = .error cause) : (s.putInFile path d).1 = .error cause.fault := by
  unfold putInFile
  rw [hmake]
  dsimp only
  rw [htext]

theorem Store.saveSnapshot_files (learned path : String) (inWorkflow : Bool) (s : Shelf)
    (d : Document) :
    Store.saveSnapshot (.files learned path) inWorkflow s d
      = ((s.putInFile path d).1.map fun _ => none, (s.putInFile path d).2) :=
  Store.write_files learned path inWorkflow s .snapshot d

section

variable {s : Shelf} {path : String} (hpath : s.tree.Writable path)
include hpath

/-- **A document is put in a file exactly if it has a text.** -/
theorem Shelf.putInFile_eq_ok_iff {d : Document} :
    (s.putInFile path d).1 = .ok () ↔ Json.Writable d := by
  obtain ⟨made, place, hmake, hlocate, hplace⟩ := hpath
  rw [← Json.exists_indentedAt_iff]
  cases htext : Json.indented d with
  | error cause =>
      rw [Shelf.putInFile_of_unwritable hmake htext]
      refine iff_of_false nofun ?_
      rintro ⟨text, hsome⟩
      cases hsome.symm.trans htext
  | ok text =>
      obtain ⟨t', hwrite⟩ := Tree.exists_write hlocate hplace (Text.Utf8.encode (text ++ "\n"))
      rw [Shelf.putInFile_of_write hmake htext hwrite]
      exact iff_of_true rfl ⟨text, htext⟩

theorem Policy.saveSnapshot_eq_ok_iff (p : Policy) (learned : String) (inWorkflow : Bool)
    (stamp : String) :
    (Store.saveSnapshot (.files learned path) inWorkflow s (p.snapshot stamp)).1 = .ok none ↔
      ∀ r ∈ p.hardRules, Json.Writable r.message := by
  rw [Store.saveSnapshot_files, ← Policy.writable_snapshot_iff stamp,
    ← Shelf.putInFile_eq_ok_iff hpath]
  cases (s.putInFile path (p.snapshot stamp)).1 with
  | error fault => exact iff_of_false nofun nofun
  | ok _ => exact iff_of_true rfl rfl

/-- A policy whose messages JSON can hold is in the file as it is. -/
theorem Policy.snapshot?_saveSnapshot {p : Policy} (h : ∀ r ∈ p.hardRules, Json.Normal r.message)
    (learned : String) (inWorkflow : Bool) (stamp : String) :
    let store : Store := .files learned path
    store.snapshot? (store.saveSnapshot inWorkflow s (p.snapshot stamp)).2
      = .ok (some (p.snapshot stamp)) := by
  have hread := Shelf.fileDocument_putInFile_of_writable hpath (Policy.normal_snapshot h stamp)
  intro store
  rw [Store.saveSnapshot_files, Store.snapshot?, Store.read_files]
  show ((s.putInFile path (p.snapshot stamp)).2.fileDocument path).map _ = _
  rw [hread]
  rfl

end

/-- What is loaded from a store is what JSON held. -/
theorem Store.normal_of_snapshot? {store : Store} {s : Shelf} {d : Document}
    (h : store.snapshot? s = .ok (some d)) : Json.Normal d := by
  unfold Store.snapshot? at h
  cases hread : store.read s .snapshot with
  | error fault =>
      rw [hread] at h
      cases h
  | ok found =>
      rw [hread] at h
      have hfound := Except.ok.inj h
      dsimp only at hfound
      split at hfound
      next entries =>
        obtain rfl := Option.some.inj hfound
        exact Store.normal_of_read hread
      next => cases hfound

/-! ## Policies -/

/-- **Saving an accepted policy and loading it again.** In a file that can be written, the policy
is saved without a fault exactly if the message of each hard rule has a JSON text, and it is loaded
with the same soft and hard rules exactly if each message is one that JSON can hold. Nothing else in
the configuration or in the stored documents matters. -/
theorem saved_policy_same {config : Document} {learned : List Document} {snapshot : Document}
    {mode : Option String} {p : Policy} (h : loadPolicy config learned snapshot mode = .ok p)
    {learnedPath snapshotPath : String} {s : Shelf} (hpath : s.tree.Writable snapshotPath)
    (inWorkflow : Bool) (stamp : String) :
    let store : Store := .files learnedPath snapshotPath
    let saved := store.saveSnapshot inWorkflow s (p.snapshot stamp)
    (saved.1 = .ok none ↔ ∀ r ∈ p.hardRules, Json.Writable r.message) ∧
      ((saved.1 = .ok none ∧ ∃ d stored, store.snapshot? saved.2 = .ok (some d) ∧
          Snapshot.ofDocument? d = .ok (some stored) ∧
          stored.softRules = p.softRules ∧ stored.hardRules = p.hardRules) ↔
        ∀ r ∈ p.hardRules, Json.Normal r.message) := by
  intro store saved
  have hsaved : saved.1 = .ok none ↔ ∀ r ∈ p.hardRules, Json.Writable r.message :=
    p.saveSnapshot_eq_ok_iff hpath learnedPath inWorkflow stamp
  refine ⟨hsaved, ?_, ?_⟩
  · rintro ⟨-, d, stored, hload, hstored, -, hhard⟩
    rw [← hhard]
    exact Snapshot.normal_message (Store.normal_of_snapshot? hload) hstored
  · intro hnormal
    obtain ⟨hsoft, hhard⟩ := complete_of_loadPolicy h
    exact ⟨hsaved.mpr fun r hr => (hnormal r hr).writable, _, _,
      Policy.snapshot?_saveSnapshot hpath hnormal learnedPath inWorkflow stamp,
      snapshot_ofDocument? hsoft hhard stamp, rfl, rfl⟩

/-! ## Messages -/

/-- A configuration with one hard rule, which has a message. -/
def messageConfig (message : Document) : Document :=
  .ofFields
    [("hard_rules", .list [.ofFields
        [("id", .text "no-placeholder"), ("description", .text "Placeholder"),
          ("scope", .text "**/*.go"), ("pattern", .text "TODO"), ("message", message)]]),
      ("allowlist", .list [.ofFields [("path", .text "vendor/**")]]),
      ("enforcement", .ofFields [("mode", .text "enforce")])]

/-- The policy of the configuration. -/
def messagePolicy (message : Document) : Policy :=
  { samplePolicy with hardRules := [{ sampleRule with message }] }

theorem loadPolicy_messageConfig (message : Document) :
    loadPolicy (messageConfig message) [] .null none = .ok (messagePolicy message) := by
  have hconfig : RepoConfig.ofDocument (messageConfig message) = .ok
      ⟨[], [{ sampleRule with message }], [], samplePolicy.allowlist, samplePolicy.settings,
        samplePolicy.enforcement, samplePolicy.agents⟩ := by rfl
  exact loadPolicy_of_ofDocument hconfig none

theorem forall_messagePolicy {message : Document} {P : Document → Prop} :
    (∀ r ∈ (messagePolicy message).hardRules, P r.message) ↔ P message :=
  List.forall_mem_singleton

/-- In an empty directory, the file of the policy can be written. -/
theorem writable_snapshotPath : Tree.Writable ⟨[]⟩ snapshotPath :=
  ⟨⟨[]⟩, [".patchwarden-policy.json".toList], rfl, rfl, rfl⟩

/-- A policy with a text for a message is the same after it has been saved. -/
theorem saved_policy_same_sample :
    let p := messagePolicy (.text "Use the tracker.")
    let store : Store := .files learnedPath snapshotPath
    let saved := store.saveSnapshot false ⟨⟨[]⟩, .empty⟩ (p.snapshot "2024-01-02")
    loadPolicy (messageConfig (.text "Use the tracker.")) [] .null none = .ok p ∧
      Tree.Writable ⟨[]⟩ snapshotPath ∧
      saved.1 = .ok none ∧ ∃ d stored, store.snapshot? saved.2 = .ok (some d) ∧
        Snapshot.ofDocument? d = .ok (some stored) ∧
        stored.softRules = p.softRules ∧ stored.hardRules = p.hardRules := by
  intro p store saved
  have hload := loadPolicy_messageConfig (.text "Use the tracker.")
  have hnormal : ∀ r ∈ p.hardRules, Json.Normal r.message := forall_messagePolicy.mpr (.text _)
  exact ⟨hload, writable_snapshotPath,
    (saved_policy_same hload writable_snapshotPath false "2024-01-02").2.mpr hnormal⟩

/-- The configuration is accepted with either message. But with a date the policy is not saved, and
with a mapping under a number another policy is loaded. -/
theorem message_not_kept :
    let store : Store := .files learnedPath snapshotPath
    let saved (message : Document) :=
      store.saveSnapshot false ⟨⟨[]⟩, .empty⟩ ((messagePolicy message).snapshot "2024-01-02")
    let dated : Document := .date ⟨2024, 1, 1⟩
    let numbered : Document := .map [(.int 1, .text "a")]
    (loadPolicy (messageConfig dated) [] .null none = .ok (messagePolicy dated) ∧
        (saved dated).1 = .error .wrongKind) ∧
      loadPolicy (messageConfig numbered) [] .null none = .ok (messagePolicy numbered) ∧
        (saved numbered).1 = .ok none ∧
        ∀ d stored, store.snapshot? (saved numbered).2 = .ok (some d) →
          Snapshot.ofDocument? d = .ok (some stored) →
          stored.hardRules ≠ (messagePolicy numbered).hardRules := by
  intro store saved dated numbered
  have hdated : Json.indented ((messagePolicy dated).snapshot "2024-01-02")
      = .error (.value "date") := by
    have hversion : Json.intText snapshotVersion = .ok "1" := Json.intText_eq_ok (by decide)
    simp [Json.indented, Policy.snapshot, Document.ofFields, Json.indentedAt, Json.membersAt,
      Json.itemsAt, Json.memberName?, hversion, messagePolicy, samplePolicy, sampleRule, dated,
      HardRule.toDocument, ok_bind, Document.isNull, Document.kind]
  have hnumbered : Json.Writable numbered := by
    refine .map ?_ ?_ <;> rw [List.forall_mem_singleton]
    · exact .int (by decide)
    · exact .atomic (.text "a")
  refine ⟨⟨loadPolicy_messageConfig dated, ?_⟩, loadPolicy_messageConfig numbered, ?_, ?_⟩
  · obtain ⟨made, _, hmake, -, -⟩ := writable_snapshotPath
    show (store.saveSnapshot false _ _).1 = _
    rw [Store.saveSnapshot_files, Shelf.putInFile_of_unwritable hmake hdated]
    rfl
  · exact (Policy.saveSnapshot_eq_ok_iff (s := ⟨⟨[]⟩, .empty⟩) writable_snapshotPath _ _ _ _).mpr
      (forall_messagePolicy.mpr hnumbered)
  · intro d stored hload hstored hsame
    have hmessages := Snapshot.normal_message (Store.normal_of_snapshot? hload) hstored
    rw [hsame, forall_messagePolicy] at hmessages
    have hmap : Json.Normal (.map [(.int 1, .text "a")]) := hmessages
    -- the number is a key of the message, and all keys are texts in JSON
    cases hmap with
    | map hkeys hvalues =>
        obtain ⟨name, hname⟩ := hkeys.texts _ List.mem_cons_self
        cases hname

end ReviewGate
