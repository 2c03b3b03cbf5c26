import Mathlib.Data.List.Nodup
import ReviewGate.Proofs.Json.RoundTrip
import ReviewGate.Proofs.Text.Ascii
import ReviewGate.Proofs.Workspace.Tree
import ReviewGate.Store.Basic

/-!
# `ReviewGate.Proofs.Store.Keeping` — a stored document is kept or replaced

A document is put into a store as a whole. Afterwards the store holds either what it held before or
the new document, and nothing else: a write that does not get through changes no file and no gist
file (`fileDocument_putInFile`, `gistDocument_putInGist`).

A gist can be reached or not, and changed or not, from one moment to the next (`Access`). What a
store holds does not depend on that. It is what would be read with free access (`Store.Holds`).

## Contents
- `exists_text`: a document that JSON can hold has a text that is read back from files and gists.
- `Tree.Writable`: the files that can be written.
- `fileDocument_putInFile`, `gistDocument_putInGist`: one document put in.
- `Access`, `Shelf.under`: how a gist can be accessed.
- `Store.Holds`: the learned rules in a store.
- `Holds.learnedRules_of_reads`, `learnedRules_of_unreachable`: what is read.
- `Holds.saveLearned`, `holds_saveLearned_of_writable`: what becomes of a write.
-/

namespace ReviewGate

open Text

/-! ## Texts of documents -/

theorem toNat_lt_of_isWritten {c : Char} (hc : Json.IsWritten c) : c.toNat < 128 := by
  obtain rfl | ⟨-, hhigh⟩ := hc
  · decide
  · omega

theorem ne_return_of_isWritten {c : Char} (hc : Json.IsWritten c) : c ≠ '\r' := by
  rintro rfl
  revert hc
  decide

/-- A text of such characters is got back from a file. -/
theorem textOf_encode {s : String} (hs : ∀ c ∈ s.toList, Json.IsWritten c) :
    Tree.textOf (Utf8.encode s) = .ok s := by
  unfold Tree.textOf
  rw [Utf8.decode_encode fun c hc => toNat_lt_of_isWritten (hs c hc)]
  dsimp only
  rw [unifyNewlines_eq fun c hc => ne_return_of_isWritten (hs c hc), String.ofList_toList]

/-- **A document that JSON can hold has a text that is read back**, in a gist as it is and in a file
with a newline behind it. -/
theorem exists_text {d : Document} (hd : Json.Normal d) :
    ∃ text, Json.indented d = .ok text ∧ readJson text = .ok (some d) ∧
      Tree.textOf (Utf8.encode (text ++ "\n")) = .ok (text ++ "\n") ∧
      readJson (text ++ "\n") = .ok (some d) := by
  obtain ⟨text, htext, hwritten, hread⟩ := Json.exists_parseChars_indented hd
  have hend : (text ++ "\n").toList = text.toList ++ ['\n'] := String.toList_append
  refine ⟨text, htext, ?_, ?_, ?_⟩
  · have hparse := hread [] fun c hc => absurd hc List.not_mem_nil
    rw [List.append_nil] at hparse
    rw [readJson, Json.parse, hparse]
  · refine textOf_encode ?_
    rw [hend, List.forall_mem_append, List.forall_mem_singleton]
    exact ⟨hwritten, by decide⟩
  · have hparse := hread ['\n'] (List.forall_mem_singleton.mpr (by decide))
    rw [readJson, Json.parse, hend, hparse]

/-! ## Files -/

/-- A file can be written at the path: the directories on the way can be made, and there is no
directory in its place. -/
def Tree.Writable (t : Tree) (path : String) : Prop :=
  ∃ made place, t.makeDirectories (Tree.parentOf path) = .ok made ∧
    made.locate path = .ok place ∧ made.hasDirectory place = false

namespace Shelf

/-- A document is read from a file through the bytes of the file alone. -/
theorem fileDocument_eq_some {s : Shelf} {path : String} {d : Document} :
    s.fileDocument path = .ok (some d) ↔
      ∃ data text, s.tree.read path = .ok data ∧ Tree.textOf data = .ok text ∧
        readJson text = .ok (some d) := by
  unfold fileDocument Tree.readText
  constructor
  · intro h
    split at h
    next text htext =>
      obtain ⟨data, hdata, htext⟩ := bind_eq_ok.mp htext
      exact ⟨data, text, hdata, htext, h⟩
    next => cases h
    next => cases h
  · rintro ⟨data, text, hdata, htext, h⟩
    rw [hdata, ok_bind, htext]
    exact h

/-- **A document in a file is kept, or replaced by the one that is put there.** -/
theorem fileDocument_putInFile {s : Shelf} {path : String} {old d : Document}
    (hold : s.fileDocument path = .ok (some old)) (hd : Json.Normal d) :
    (s.putInFile path d).2.fileDocument path = .ok (some old) ∨
      (s.putInFile path d).2.fileDocument path = .ok (some d) := by
  obtain ⟨text, htext, -, hbytes, hread⟩ := exists_text hd
  obtain ⟨data, olds, hdata, holds, hparse⟩ := fileDocument_eq_some.mp hold
  unfold putInFile
  cases hmake : s.tree.makeDirectories (Tree.parentOf path) with
  | error fault => exact Or.inl hold
  | ok tree =>
      dsimp only
      rw [htext]
      dsimp only
      cases hwrite : tree.write path (Utf8.encode (text ++ "\n")) with
      -- the directories are made by now, and the file is still there
      | error fault =>
          have hstays := Tree.read_of_makeDirectories hmake hdata
          exact Or.inl (fileDocument_eq_some.mpr ⟨data, olds, hstays, holds, hparse⟩)
      | ok tree' =>
          have hnew := Tree.read_of_write hwrite
          exact Or.inr (fileDocument_eq_some.mpr ⟨_, _, hnew, hbytes, hread⟩)

/-- The steps of a write to a file that gets through. -/
theorem putInFile_of_write {s : Shelf} {path : String} {d : Document} {t t' : Tree} {text : String}
    (hmake : s.tree.makeDirectories (Tree.parentOf path) = .ok t)
    (htext : Json.indented d = .ok text)
    (hwrite : t.write path (Utf8.encode (text ++ "\n")) = .ok t') :
    s.putInFile path d = (.ok (), { s with tree := t' }) := by
  unfold putInFile
  rw [hmake]
  dsimp only
  rw [htext]
  dsimp only
  rw [hwrite]

/-- A file that can be written is replaced. -/
theorem fileDocument_putInFile_of_writable {s : Shelf} {path : String}
    (hpath : s.tree.Writable path) {d : Document} (hd : Json.Normal d) :
    (s.putInFile path d).2.fileDocument path = .ok (some d) := by
  obtain ⟨t, place, hmake, hlocate, hplace⟩ := hpath
  obtain ⟨text, htext, -, hbytes, hread⟩ := exists_text hd
  obtain ⟨t', hwrite⟩ := Tree.exists_write hlocate hplace (Utf8.encode (text ++ "\n"))
  rw [putInFile_of_write hmake htext hwrite]
  exact fileDocument_eq_some.mpr ⟨_, _, Tree.read_of_write hwrite, hbytes, hread⟩

/-! ## Gists -/

theorem lookup_putFile (name text : String) (files : List (String × Option String)) :
    (Gist.putFile name text files).lookup name = some (some text) := by
  induction files with
  | nil => simp [Gist.putFile]
  | cons file rest ih =>
      obtain ⟨n, old⟩ := file
      rw [Gist.putFile]
      by_cases hn : n = name
      · rw [if_pos hn, hn]
        simp
      · rw [if_neg hn, List.lookup_cons, beq_eq_false_iff_ne.mpr (Ne.symm hn)]
        exact ih

end Shelf

/-- How a gist can be accessed at a moment: what stands against reaching it, and against changing
it. -/
structure Access where
  unreachable : Option String
  locked : Option String
deriving DecidableEq

namespace Access

/-- Nothing stands against reading and writing. -/
def free : Access := ⟨none, none⟩

/-- The gist can be read. -/
def Reads (a : Access) : Prop := a.unreachable = none

/-- The gist can be changed. -/
def Writes (a : Access) : Prop := a.unreachable = none ∧ a.locked = none

instance (a : Access) : Decidable a.Reads := inferInstanceAs (Decidable (_ = _))

instance (a : Access) : Decidable a.Writes := inferInstanceAs (Decidable (_ ∧ _))

end Access

/-- The shelf at a moment at which its gist can be accessed in the given way. -/
def Shelf.under (s : Shelf) (a : Access) : Shelf :=
  { s with gist := { s.gist with unreachable := a.unreachable, locked := a.locked } }

namespace Shelf

theorem gistDocument_of_unreachable {s : Shelf} {a : Access} (ha : ¬a.Reads) (name : String) :
    (s.under a).gistDocument name = .ok none := by
  obtain ⟨reason, hreason⟩ := Option.ne_none_iff_exists'.mp ha
  unfold gistDocument Gist.text?
  have hunder : (s.under a).gist.unreachable = some reason := hreason
  rw [hunder]

theorem gistDocument_of_reads {s : Shelf} {a : Access} (ha : a.Reads) (name : String) :
    (s.under a).gistDocument name = (s.under .free).gistDocument name := by
  unfold gistDocument Gist.text?
  have hunder : (s.under a).gist.unreachable = none := ha
  rw [hunder]
  rfl

/-- A gist that cannot be changed stays what it is. -/
theorem putInGist_of_not_writes {s : Shelf} {a : Access} (ha : ¬a.Writes) (name : String)
    (d : Document) : ((s.under a).putInGist name d).2 = s.under a := by
  unfold putInGist
  cases hunreachable : (s.under a).gist.unreachable with
  | some reason => rfl
  | none =>
      cases Json.indented d with
      | error cause => rfl
      | ok text =>
          cases hlocked : (s.under a).gist.locked with
          | some reason => rfl
          | none => exact absurd ⟨hunreachable, hlocked⟩ ha

/-- The steps of a write to a gist that gets through. -/
theorem putInGist_of_write {s : Shelf} {d : Document} {text : String}
    (hunreachable : s.gist.unreachable = none) (hlocked : s.gist.locked = none)
    (htext : Json.indented d = .ok text) (name : String) :
    s.putInGist name d = (.ok (),
      { s with gist := { s.gist with files := Gist.putFile name text s.gist.files } }) := by
  unfold putInGist
  rw [hunreachable, htext]
  dsimp only
  rw [hlocked]

/-- **A gist that can be changed holds what was put there.** -/
theorem gistDocument_putInGist {s : Shelf} {a : Access} (ha : a.Writes) (name : String)
    {d : Document} (hd : Json.Normal d) :
    (((s.under a).putInGist name d).2.under .free).gistDocument name = .ok (some d) := by
  obtain ⟨text, htext, hread, -, -⟩ := exists_text hd
  have hunreachable : (s.under a).gist.unreachable = none := ha.1
  have hlocked : (s.under a).gist.locked = none := ha.2
  rw [putInGist_of_write hunreachable hlocked htext]
  unfold gistDocument Gist.text? under
  dsimp only [Access.free]
  rw [lookup_putFile]
  exact hread

end Shelf

/-! ## Learned rules -/

namespace Store

/-- The store holds a document with these learned rules. -/
def Holds (store : Store) (s : Shelf) (rules : List Document) : Prop :=
  ∃ d, store.read (s.under .free) .learned = .ok (some d) ∧ rulesIn (some d) = rules

/-- What is read gets through: a gist must be reachable for that. -/
def ReadsUnder (store : Store) (a : Access) : Prop := store = .gist → a.Reads

/-- What is written gets through: a file must have a place that is no directory, and a gist must be
changeable. -/
def Writable (store : Store) (s : Shelf) (a : Access) : Prop :=
  match store with
  | .files learned _ => ∃ t place, s.tree.makeDirectories (Tree.parentOf learned) = .ok t ∧
      t.locate learned = .ok place ∧ t.hasDirectory place = false
  | .gist => a.Writes
  | .nowhere => False

theorem holds_files_iff {learned snapshot : String} {s : Shelf} {rules : List Document} :
    Store.Holds (.files learned snapshot) s rules ↔
      ∃ d, s.fileDocument learned = .ok (some d) ∧ rulesIn (some d) = rules := Iff.rfl

theorem rulesIn_learnedEnvelope (rules : List Document) (stamp : String) :
    rulesIn (some (learnedEnvelope (.list rules) stamp)) = rules := rfl

theorem normal_ofFields {fields : List (String × Document)} (hnames : (fields.map Prod.fst).Nodup)
    (hvalues : ∀ f ∈ fields, Json.Normal f.2) : Json.Normal (.ofFields fields) := by
  refine .map ⟨?_, ?_⟩ ?_
  · intro e he
    obtain ⟨f, -, rfl⟩ := List.mem_map.mp he
    exact ⟨f.1, rfl⟩
  · have hkeys : (fields.map fun f => (Document.text f.1, f.2)).map Prod.fst
        = (fields.map Prod.fst).map Document.text := by
      rw [List.map_map, List.map_map]
      rfl
    show ((fields.map fun f => (Document.text f.1, f.2)).map Prod.fst).Nodup
    rw [hkeys]
    exact hnames.map fun _ _ => Document.text.inj
  · intro e he
    obtain ⟨f, hf, rfl⟩ := List.mem_map.mp he
    exact hvalues f hf

theorem normal_learnedEnvelope {rules : List Document} (hrules : ∀ d ∈ rules, Json.Normal d)
    (stamp : String) : Json.Normal (learnedEnvelope (.list rules) stamp) := by
  have hnames : ["version", "rules", "last_updated"].Nodup := by decide
  refine normal_ofFields hnames ?_
  rw [List.forall_mem_cons, List.forall_mem_cons, List.forall_mem_singleton]
  exact ⟨.int (by decide), .list hrules, .text stamp⟩

theorem normal_of_readJson {text : String} {d : Document} (h : readJson text = .ok (some d)) :
    Json.Normal d := by
  unfold readJson at h
  split at h
  next value hparse =>
    obtain rfl := Option.some.inj (Except.ok.inj h)
    exact Json.normal_of_parse hparse
  next => cases h
  next => cases h

theorem normal_of_read {store : Store} {s : Shelf} {cell : Cell} {d : Document}
    (h : store.read s cell = .ok (some d)) : Json.Normal d := by
  have hfile : ∀ path, s.fileDocument path = .ok (some d) → Json.Normal d := by
    intro path hpath
    obtain ⟨_, _, -, -, hread⟩ := Shelf.fileDocument_eq_some.mp hpath
    exact normal_of_readJson hread
  cases store with
  | files learned snapshot => cases cell <;> exact hfile _ h
  | nowhere => cases h
  | gist =>
      have hgist : s.gistDocument cell.gistFile = .ok (some d) := h
      unfold Shelf.gistDocument at hgist
      split at hgist
      · exact normal_of_readJson hgist
      · cases hgist

/-- The rules in a document that JSON can hold are such documents. -/
theorem normal_of_mem_rulesIn {d : Document} (hd : Json.Normal d) :
    ∀ r ∈ rulesIn (some d), Json.Normal r := by
  intro r hr
  unfold rulesIn at hr
  split at hr
  next entries heq =>
    obtain rfl := Option.some.inj heq
    split at hr
    next rules hlookup =>
      cases hd.of_lookup hlookup with
      | list hitems => exact hitems r hr
    next => exact absurd hr List.not_mem_nil
  next => exact absurd hr List.not_mem_nil

section

variable {store : Store} {s : Shelf} {rules : List Document} (h : store.Holds s rules) {a : Access}
include h

/-- A store holds one list of rules. -/
theorem Holds.unique {rules' : List Document} (h' : store.Holds s rules') : rules = rules' := by
  obtain ⟨d, hread, rfl⟩ := h
  obtain ⟨d', hread', rfl⟩ := h'
  rw [hread] at hread'
  rw [Except.ok.inj hread']

theorem Holds.normal : ∀ d ∈ rules, Json.Normal d := by
  obtain ⟨d, hread, rfl⟩ := h
  exact normal_of_mem_rulesIn (normal_of_read hread)

/-- A read that gets through gives the rules that are held. -/
theorem Holds.learnedRules_of_reads (ha : store.ReadsUnder a) :
    store.learnedRules (s.under a) = .ok rules := by
  obtain ⟨d, hread, rfl⟩ := h
  have hunder : store.read (s.under a) .learned = .ok (some d) := by
    cases store with
    | files learned snapshot => exact hread
    | gist => exact (Shelf.gistDocument_of_reads (ha rfl) _).trans hread
    | nowhere => exact hread
  rw [learnedRules, hunder]
  rfl

omit h in
/-- **A gist that cannot be reached is read as one without rules.** -/
theorem learnedRules_of_unreachable (ha : ¬a.Reads) :
    Store.learnedRules .gist (s.under a) = .ok [] := by
  have hunder : Store.read .gist (s.under a) .learned = .ok none :=
    Shelf.gistDocument_of_unreachable ha _
  rw [learnedRules, hunder]
  rfl

variable (inWorkflow : Bool) (stamp : String) {rules' : List Document}

omit h in
theorem saveLearned_gist (s : Shelf) (d : Document) :
    (Store.saveLearned .gist inWorkflow stamp s d).2
      = (s.putInGist Cell.learned.gistFile (learnedEnvelope d stamp)).2 := by
  unfold Store.saveLearned Store.write
  dsimp only
  split
  next hput => rw [hput]
  next hput => rw [hput]

omit h in
theorem saveLearned_files (s : Shelf) (learned snapshot : String) (d : Document) :
    (Store.saveLearned (.files learned snapshot) inWorkflow stamp s d).2
      = (s.putInFile learned (learnedEnvelope d stamp)).2 := by
  unfold Store.saveLearned Store.write
  rfl

/-- A gist that cannot be changed keeps its rules. -/
theorem Holds.saveLearned_of_not_writes (hstore : store = .gist) (ha : ¬a.Writes) (d : Document) :
    store.Holds (store.saveLearned inWorkflow stamp (s.under a) d).2 rules := by
  subst hstore
  rw [saveLearned_gist, Shelf.putInGist_of_not_writes ha]
  exact h

omit h in
/-- **A write that gets through replaces the rules as a whole.** -/
theorem holds_saveLearned_of_writable (hwrite : store.Writable s a)
    (hrules' : ∀ d ∈ rules', Json.Normal d) :
    store.Holds (store.saveLearned inWorkflow stamp (s.under a) (.list rules')).2 rules' := by
  have hnormal := normal_learnedEnvelope hrules' stamp
  cases store with
  | files learned snapshot =>
      have hnew := Shelf.fileDocument_putInFile_of_writable (s := s.under a) hwrite hnormal
      rw [saveLearned_files, holds_files_iff]
      exact ⟨_, hnew, rulesIn_learnedEnvelope rules' stamp⟩
  | gist =>
      rw [saveLearned_gist]
      exact ⟨_, Shelf.gistDocument_putInGist hwrite _ hnormal,
        rulesIn_learnedEnvelope rules' stamp⟩
  | nowhere => exact hwrite.elim

/-- **The rules that are held are kept, or replaced as a whole.** -/
theorem Holds.saveLearned (hrules' : ∀ d ∈ rules', Json.Normal d) :
    store.Holds (store.saveLearned inWorkflow stamp (s.under a) (.list rules')).2 rules ∨
      store.Holds (store.saveLearned inWorkflow stamp (s.under a) (.list rules')).2 rules' := by
  have hnormal := normal_learnedEnvelope hrules' stamp
  cases store with
  | files learned snapshot =>
      obtain ⟨d, hread, rfl⟩ := h
      have hfile : (s.under a).fileDocument learned = .ok (some d) := hread
      rw [saveLearned_files, holds_files_iff, holds_files_iff]
      obtain hold | hnew := Shelf.fileDocument_putInFile hfile hnormal
      · exact Or.inl ⟨d, hold, rfl⟩
      · exact Or.inr ⟨_, hnew, rulesIn_learnedEnvelope rules' stamp⟩
  -- a gist is replaced exactly if it can be changed
  | gist =>
      by_cases ha : a.Writes
      · exact Or.inr (holds_saveLearned_of_writable inWorkflow stamp ha hrules')
      · exact Or.inl (h.saveLearned_of_not_writes inWorkflow stamp rfl ha _)
  | nowhere =>
      obtain ⟨d, hread, -⟩ := h
      cases hread

end

end Store

end ReviewGate
