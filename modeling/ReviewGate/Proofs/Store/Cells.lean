import Mathlib.Logic.Function.Basic
import ReviewGate.Proofs.Store.Keeping
import ReviewGate.Proofs.Workspace.SideBySide

/-!
# `ReviewGate.Proofs.Store.Cells` — a store is two cells

Whether the documents are in files or in a gist does not show, as long as nothing stands against
reading and writing them: the rules that are loaded are the ones that were saved last, and so is the
snapshot. The argument is made once, for any store of which an invariant says what its two documents
are (`TwoCells`), by a step lemma for one call and an induction for many. Files and gists have such
an invariant each. Theirs differ in what has to be known beside the documents: for files, that the
tree has changed only where the two paths lead (`Tree.Beside`), and for a gist, that it is open.

## Contents
- `StoreCall`, `StoreAnswer`, `Store.call`, `Store.after`: calls of a store.
- `lastRules?`, `lastEntries?`, `StoreCall.answer`: what was saved last, and the answers it makes.
- `TwoCells`, `TwoCells.exists_call`, `TwoCells.exists_after`: stores whose documents are known.
- `KeptFiles`, `twoCells_files`: files as cells.
- `KeptGist`, `twoCells_gist`: a gist as cells.
- `answers_of_last_saved`: calls of either store, one after the other.
-/

namespace ReviewGate

/-! ## Calls -/

/-- A call of a store. -/
inductive StoreCall
  | saveLearned (rules : List Document)
  | saveSnapshot (entries : List (Document × Document))
  | loadLearned
  | loadSnapshot

/-- What comes of a call. -/
inductive StoreAnswer
  /-- The document is saved, with what is printed about it. -/
  | saved (printed : Option String)
  | learned (rules : List Document)
  | snapshot (d : Option Document)

namespace Store

variable (store : Store) (inWorkflow : Bool)

/-- What comes of a call, made at a time, and of the shelf. -/
def call (stamp : String) (s : Shelf) : StoreCall → Except Fault StoreAnswer × Shelf
  | .saveLearned rules =>
      let (result, s) := store.saveLearned inWorkflow stamp s (.list rules)
      (result.map .saved, s)
  | .saveSnapshot entries =>
      let (result, s) := store.saveSnapshot inWorkflow s (.map entries)
      (result.map .saved, s)
  | .loadLearned => ((store.learnedRules s).map .learned, s)
  | .loadSnapshot => ((store.snapshot? s).map .snapshot, s)

/-- The shelf after calls; `clock n` is the time of the call behind which there are `n` more. -/
def after (clock : Nat → String) : Shelf → List StoreCall → Shelf
  | s, [] => s
  | s, c :: calls => after clock (store.call inWorkflow (clock calls.length) s c).2 calls

end Store

namespace StoreCall

/-- The rules that the call saves. -/
def rules? : StoreCall → Option (List Document)
  | .saveLearned rules => some rules
  | _ => none

/-- The entries of the snapshot that the call saves. -/
def entries? : StoreCall → Option (List (Document × Document))
  | .saveSnapshot entries => some entries
  | _ => none

/-- JSON can hold what the call saves. -/
def Normal : StoreCall → Prop
  | .saveLearned rules => ∀ d ∈ rules, Json.Normal d
  | .saveSnapshot entries => Json.Normal (.map entries)
  | .loadLearned | .loadSnapshot => True

/-- The answer if the rules and the snapshot are the given ones. A save prints nothing. -/
def answerFrom (rules : List Document) (entries : Option (List (Document × Document))) :
    StoreCall → StoreAnswer
  | .saveLearned _ | .saveSnapshot _ => .saved none
  | .loadLearned => .learned rules
  | .loadSnapshot => .snapshot (entries.map .map)

end StoreCall

/-- The rules that were saved last. -/
def lastRules? (calls : List StoreCall) : Option (List Document) :=
  (calls.filterMap StoreCall.rules?).getLast?

/-- The entries of the snapshot that was saved last. -/
def lastEntries? (calls : List StoreCall) : Option (List (Document × Document)) :=
  (calls.filterMap StoreCall.entries?).getLast?

/-- The answer after the calls: there are no rules before some are saved, and no snapshot. -/
def StoreCall.answer (earlier : List StoreCall) (c : StoreCall) : StoreAnswer :=
  c.answerFrom ((lastRules? earlier).getD []) (lastEntries? earlier)

/-- What is found last behind the first of some calls is found last, and otherwise at the first. -/
theorem getLast?_filterMap_cons {α β : Type} (f : α → Option β) (a : α) (as : List α) :
    ((a :: as).filterMap f).getLast? = (as.filterMap f).getLast?.or (f a) := by
  rw [List.filterMap_cons]
  cases f a with
  | none => exact (Option.or_none ..).symm
  | some b =>
      dsimp only
      rw [List.getLast?_cons]
      cases (as.filterMap f).getLast? <;> rfl

/-! ## Stores whose documents are known -/

namespace Store

/-- The invariant says what the two documents of the store are. They are read as they are, and a
write, about which nothing is said, replaces one of them. -/
structure TwoCells (store : Store) (Keeps : Shelf → (Cell → Option Document) → Prop) : Prop where
  read : ∀ {s docs}, Keeps s docs → ∀ cell, store.read s cell = .ok (docs cell)
  write : ∀ {s docs}, Keeps s docs → ∀ {d}, Json.Normal d → ∀ inWorkflow cell, ∃ s',
    store.write inWorkflow s cell d = (.ok none, s') ∧ Keeps s' (Function.update docs cell (some d))

/-- The documents tell of the rules and of the snapshot. -/
def TellOf (docs : Cell → Option Document) (rules : List Document)
    (entries : Option (List (Document × Document))) : Prop :=
  rulesIn (docs .learned) = rules ∧ docs .snapshot = entries.map .map

section

variable {store : Store} {Keeps : Shelf → (Cell → Option Document) → Prop}
  (h : store.TwoCells Keeps) {s : Shelf} {docs : Cell → Option Document} {rules : List Document}
  {entries : Option (List (Document × Document))}
include h

/-- **One call**: the answer is the one that the documents make, and they tell of what is saved. -/
theorem TwoCells.exists_call (hs : Keeps s docs) (hdocs : TellOf docs rules entries)
    (inWorkflow : Bool) (stamp : String) {c : StoreCall} (hc : c.Normal) :
    ∃ s' docs', store.call inWorkflow stamp s c = (.ok (c.answerFrom rules entries), s') ∧
      Keeps s' docs' ∧ TellOf docs' (c.rules?.getD rules) (c.entries?.or entries) := by
  obtain ⟨hrules, hentries⟩ := hdocs
  cases c with
  | saveLearned saved =>
      obtain ⟨s', hwrite, hs'⟩ := h.write hs (normal_learnedEnvelope hc stamp) inWorkflow .learned
      refine ⟨s', _, ?_, hs', rulesIn_learnedEnvelope saved stamp, ?_⟩
      · unfold call saveLearned
        dsimp only
        rw [hwrite]
        rfl
      · exact (Function.update_of_ne Cell.noConfusion ..).trans hentries
  | saveSnapshot saved =>
      obtain ⟨s', hwrite, hs'⟩ := h.write hs hc inWorkflow .snapshot
      refine ⟨s', _, ?_, hs', ?_, Function.update_self ..⟩
      · unfold call saveSnapshot
        dsimp only
        rw [hwrite]
        rfl
      · rw [Function.update_of_ne Cell.noConfusion]
        exact hrules
  | loadLearned =>
      refine ⟨s, docs, ?_, hs, hrules, hentries⟩
      unfold call learnedRules
      rw [h.read hs, ← hrules]
      rfl
  | loadSnapshot =>
      refine ⟨s, docs, ?_, hs, hrules, hentries⟩
      unfold call snapshot?
      rw [h.read hs, hentries]
      cases entries <;> rfl

/-- **Many calls**: the documents tell of what was saved last. -/
theorem TwoCells.exists_after (hs : Keeps s docs) (hdocs : TellOf docs rules entries)
    (inWorkflow : Bool) (clock : Nat → String) {calls : List StoreCall}
    (hcalls : ∀ c ∈ calls, c.Normal) :
    ∃ docs', Keeps (store.after inWorkflow clock s calls) docs' ∧
      TellOf docs' ((lastRules? calls).getD rules) ((lastEntries? calls).or entries) := by
  induction calls generalizing s docs rules entries with
  | nil => exact ⟨docs, hs, hdocs⟩
  | cons c calls ih =>
      obtain ⟨hc, hcalls⟩ := List.forall_mem_cons.mp hcalls
      obtain ⟨s', docs', hcall, hs', hdocs'⟩ :=
        h.exists_call hs hdocs inWorkflow (clock calls.length) hc
      have hafter : store.after inWorkflow clock s (c :: calls)
          = store.after inWorkflow clock s' calls := by
        rw [after, hcall]
      obtain ⟨docs'', hkeeps, htell⟩ := ih hs' hdocs' hcalls
      refine ⟨docs'', hafter ▸ hkeeps, ?_⟩
      rw [lastRules?, lastEntries?, getLast?_filterMap_cons, getLast?_filterMap_cons,
        Option.getD_or, Option.or_assoc]
      exact htell

/-- After any calls, the answer is the one that what was saved last makes. -/
theorem TwoCells.call_after (hs : Keeps s fun _ => none) (inWorkflow : Bool)
    (clock : Nat → String) (stamp : String) {earlier : List StoreCall}
    (hearlier : ∀ c ∈ earlier, c.Normal) {c : StoreCall} (hc : c.Normal) :
    (store.call inWorkflow stamp (store.after inWorkflow clock s earlier) c).1
      = .ok (c.answer earlier) := by
  have hnone : TellOf (fun _ => none) [] none := ⟨rfl, rfl⟩
  obtain ⟨docs, hkeeps, htell⟩ := h.exists_after hs hnone inWorkflow clock hearlier
  rw [Option.or_none] at htell
  obtain ⟨s', docs', hcall, -⟩ := h.exists_call hkeeps htell inWorkflow stamp hc
  rw [hcall]
  rfl

end

end Store

/-! ## Files -/

section

variable {ι : Type} {t : Tree} {path : ι → String} {made : ι → Tree} {place : ι → Place}

/-- The file in the place holds the document, and the path leads there; or there is no file. -/
def Tree.FileHolds (u made : Tree) (place : Place) : Option Document → Prop
  | none => u.fileAt? place = none
  | some d => made.Below u ∧ ∃ data text, u.fileAt? place = some data ∧
      Tree.textOf data = .ok text ∧ readJson text = .ok (some d)

/-- The files at the paths hold the documents, in a tree that comes from another one by writes to
the paths. -/
def KeptFiles (t : Tree) (made : ι → Tree) (place : ι → Place) (s : Shelf)
    (docs : ι → Option Document) : Prop :=
  t.Beside made place s.tree ∧ ∀ i, s.tree.FileHolds (made i) (place i) (docs i)

variable {s : Shelf} {docs : ι → Option Document} (h : t.SideBySide path made place)
  (hs : KeptFiles t made place s docs)
include h hs

theorem KeptFiles.fileDocument (i : ι) : s.fileDocument (path i) = .ok (docs i) := by
  obtain ⟨hbeside, hfiles⟩ := hs
  have hfile := hfiles i
  cases hdoc : docs i with
  | none =>
      rw [hdoc] at hfile
      obtain ⟨cause, hread⟩ := hbeside.read_of_absent h hfile
      unfold Shelf.fileDocument Tree.readText
      rw [hread]
      rfl
  | some d =>
      rw [hdoc] at hfile
      obtain ⟨hbelow, data, text, hdata, htext, hjson⟩ := hfile
      exact Shelf.fileDocument_eq_some.mpr
        ⟨data, text, h.read_of_written hbelow hdata, htext, hjson⟩

/-- **A document is put into a file**, and the other files hold what they held. -/
theorem KeptFiles.exists_putInFile [DecidableEq ι] {d : Document} (hd : Json.Normal d) (i : ι) :
    ∃ s', s.putInFile (path i) d = (.ok (), s') ∧
      KeptFiles t made place s' (Function.update docs i (some d)) := by
  obtain ⟨hbeside, hfiles⟩ := hs
  obtain ⟨text, htext, -, hbytes, hread⟩ := exists_text hd
  obtain ⟨u, w, hmake, hwrite, hbeside', hbelow, hmade, hnew, hothers⟩ :=
    hbeside.exists_save h i (Text.Utf8.encode (text ++ "\n"))
  refine ⟨{ s with tree := w }, Shelf.putInFile_of_write hmake htext hwrite, hbeside', fun j => ?_⟩
  by_cases hij : j = i
  · subst hij
    rw [Function.update_self]
    exact ⟨hmade, _, _, hnew, hbytes, hread⟩
  · have hplace : place j ≠ place i := fun heq => hij (h.apart j i heq)
    have hfile := hfiles j
    rw [Function.update_of_ne hij]
    cases hdoc : docs j with
    | none =>
        rw [hdoc] at hfile
        exact (hothers _ hplace).trans hfile
    | some old =>
        rw [hdoc] at hfile
        obtain ⟨hold, data, olds, hdata, holds, hjson⟩ := hfile
        exact ⟨hold.trans hbelow, data, olds, (hothers _ hplace).trans hdata, holds, hjson⟩

end

namespace Store

/-- The file of a document. -/
def fileOf (learned snapshot : String) : Cell → String
  | .learned => learned
  | .snapshot => snapshot

theorem read_files (learned snapshot : String) (s : Shelf) (cell : Cell) :
    Store.read (.files learned snapshot) s cell
      = s.fileDocument (fileOf learned snapshot cell) := by
  cases cell <;> rfl

theorem write_files (learned snapshot : String) (inWorkflow : Bool) (s : Shelf) (cell : Cell)
    (d : Document) :
    Store.write (.files learned snapshot) inWorkflow s cell d
      = ((s.putInFile (fileOf learned snapshot cell) d).1.map fun _ => none,
        (s.putInFile (fileOf learned snapshot cell) d).2) := by
  cases cell <;> rfl

/-- Two files side by side are two cells. -/
theorem twoCells_files {learned snapshot : String} {t : Tree} {made : Cell → Tree}
    {place : Cell → Place} (h : t.SideBySide (fileOf learned snapshot) made place) :
    Store.TwoCells (.files learned snapshot) (KeptFiles t made place) where
  read hs cell := by
    rw [read_files]
    exact hs.fileDocument h cell
  write hs d hd inWorkflow cell := by
    obtain ⟨s', hput, hs'⟩ := hs.exists_putInFile h hd cell
    refine ⟨s', ?_, hs'⟩
    rw [write_files, hput]
    rfl

end Store

/-! ## Gists -/

theorem lookup_putFile_of_ne {name other : String} (hne : other ≠ name) (text : String)
    (files : List (String × Option String)) :
    (Gist.putFile name text files).lookup other = files.lookup other := by
  induction files with
  | nil =>
      rw [Gist.putFile, List.lookup_cons, beq_eq_false_iff_ne.mpr hne]
  | cons file rest ih =>
      obtain ⟨n, old⟩ := file
      rw [Gist.putFile]
      by_cases hn : n = name
      · rw [if_pos hn, List.lookup_cons, List.lookup_cons, hn, beq_eq_false_iff_ne.mpr hne]
      · rw [if_neg hn, List.lookup_cons, List.lookup_cons, ih]

theorem gistFile_injective {cell other : Cell} (h : other.gistFile = cell.gistFile) :
    other = cell := by
  revert h
  cases other <;> cases cell <;> decide

/-- Nothing stands against reading and changing the gist. -/
def Gist.IsOpen (g : Gist) : Prop := g.unreachable = none ∧ g.locked = none

/-- The text under a name holds the document, or there is no text. -/
def Gist.FileHolds (g : Gist) (name : String) : Option Document → Prop
  | none => g.text? name = none
  | some d => ∃ text, g.text? name = some text ∧ readJson text = .ok (some d)

/-- The gist is open, and its files hold the documents. -/
def KeptGist (s : Shelf) (docs : Cell → Option Document) : Prop :=
  s.gist.IsOpen ∧ ∀ cell, s.gist.FileHolds cell.gistFile (docs cell)

theorem Gist.IsOpen.text?_eq {g : Gist} (h : g.IsOpen) (name : String) :
    g.text? name = (g.files.lookup name).join := by
  unfold Gist.text?
  rw [h.1]

theorem KeptGist.gistDocument {s : Shelf} {docs : Cell → Option Document} (hs : KeptGist s docs)
    (cell : Cell) : s.gistDocument cell.gistFile = .ok (docs cell) := by
  have hfile := hs.2 cell
  unfold Shelf.gistDocument
  cases hdoc : docs cell with
  | none =>
      rw [hdoc] at hfile
      have hnone : s.gist.text? cell.gistFile = none := hfile
      rw [hnone]
  | some d =>
      rw [hdoc] at hfile
      obtain ⟨text, htext, hread⟩ := hfile
      rw [htext]
      exact hread

/-- **A document is put into an open gist**, and the other file holds what it held. -/
theorem KeptGist.exists_putInGist {s : Shelf} {docs : Cell → Option Document} (hs : KeptGist s docs)
    {d : Document} (hd : Json.Normal d) (cell : Cell) :
    ∃ s', s.putInGist cell.gistFile d = (.ok (), s') ∧
      KeptGist s' (Function.update docs cell (some d)) := by
  obtain ⟨hopen, hfiles⟩ := hs
  obtain ⟨text, htext, hread, -, -⟩ := exists_text hd
  let g : Gist := { s.gist with files := Gist.putFile cell.gistFile text s.gist.files }
  have hopen' : g.IsOpen := hopen
  refine ⟨{ s with gist := g }, Shelf.putInGist_of_write hopen.1 hopen.2 htext _, hopen',
    fun other => ?_⟩
  by_cases hother : other = cell
  · subst hother
    rw [Function.update_self]
    refine ⟨text, ?_, hread⟩
    rw [hopen'.text?_eq, Shelf.lookup_putFile]
    rfl
  · have hname : other.gistFile ≠ cell.gistFile := fun heq => hother (gistFile_injective heq)
    have hsame : g.text? other.gistFile = s.gist.text? other.gistFile := by
      rw [hopen'.text?_eq, hopen.text?_eq, lookup_putFile_of_ne hname]
    have hfile := hfiles other
    rw [Function.update_of_ne hother]
    cases hdoc : docs other with
    | none =>
        rw [hdoc] at hfile
        exact hsame.trans hfile
    | some old =>
        rw [hdoc] at hfile
        obtain ⟨olds, holds, hjson⟩ := hfile
        exact ⟨olds, hsame.trans holds, hjson⟩

/-- An open gist is two cells. -/
theorem Store.twoCells_gist : Store.TwoCells .gist KeptGist where
  read hs cell := hs.gistDocument cell
  write {s docs} hs d hd inWorkflow cell := by
    obtain ⟨s', hput, hs'⟩ := hs.exists_putInGist hd cell
    refine ⟨s', ?_, hs'⟩
    unfold Store.write
    dsimp only
    rw [hput]

/-! ## Either store -/

/-- **Files and gists are the same two cells.** Two files side by side, none of which is there, and
an open gist without the two texts answer alike after any calls that save what JSON can hold: the
rules are the ones that were saved last, none before; the snapshot is the one that was saved last,
and there is none before; and nothing is said about a save. Paths that lead to one place are one
cell, however they are spelled, and so they are not side by side. -/
theorem answers_of_last_saved {learned snapshot : String} {made : Cell → Tree}
    {place : Cell → Place} {s g : Shelf}
    (hfiles : s.tree.SideBySide (Store.fileOf learned snapshot) made place)
    (habsent : ∀ cell, s.tree.fileAt? (place cell) = none)
    (hopen : g.gist.IsOpen) (hempty : ∀ cell : Cell, g.gist.text? cell.gistFile = none)
    {earlier : List StoreCall} (hearlier : ∀ c ∈ earlier, c.Normal) {c : StoreCall} (hc : c.Normal)
    (inWorkflow inWorkflow' : Bool) (clock clock' : Nat → String) (stamp stamp' : String) :
    (Store.call (.files learned snapshot) inWorkflow stamp
        (Store.after (.files learned snapshot) inWorkflow clock s earlier) c).1
      = .ok (c.answer earlier) ∧
    (Store.call .gist inWorkflow' stamp' (Store.after .gist inWorkflow' clock' g earlier) c).1
      = .ok (c.answer earlier) := by
  have hkept : KeptFiles s.tree made place s fun _ => none :=
    ⟨Tree.beside_self s.tree made place, habsent⟩
  have hgist : KeptGist g fun _ => none := ⟨hopen, hempty⟩
  exact ⟨(Store.twoCells_files hfiles).call_after hkept inWorkflow clock stamp hearlier hc,
    Store.twoCells_gist.call_after hgist inWorkflow' clock' stamp' hearlier hc⟩

/-- Both documents in a directory that is not there yet. -/
theorem sideBySide_store : Tree.SideBySide ⟨[]⟩
    (Store.fileOf "store/learned.json" "store/policy.json")
    (fun _ => ⟨[(["store".toList], .directory)]⟩)
    (fun
      | .learned => ["store".toList, "learned.json".toList]
      | .snapshot => ["store".toList, "policy.json".toList]) where
  makes cell := by cases cell <;> rfl
  leads cell := by cases cell <;> rfl
  free cell other := by cases other <;> rfl
  apart cell other h := by
    revert h
    cases cell <;> cases other <;> decide

/-- Both stores give back the second list of rules, whatever is done with the snapshot. -/
theorem answers_of_last_saved_sample :
    let earlier : List StoreCall :=
      [.saveLearned [.text "a"], .saveSnapshot [], .saveLearned [.text "b"], .loadSnapshot]
    let shelf : Shelf := ⟨⟨[]⟩, .empty⟩
    let files : Store := .files "store/learned.json" "store/policy.json"
    (files.call false "" (files.after false (fun _ => "") shelf earlier) .loadLearned).1
      = .ok (.learned [.text "b"]) ∧
    (Store.call .gist false "" (Store.after .gist false (fun _ => "") shelf earlier) .loadLearned).1
      = .ok (.learned [.text "b"]) := by
  have hnormal : ∀ c ∈ [StoreCall.saveLearned [.text "a"], .saveSnapshot [],
      .saveLearned [.text "b"], .loadSnapshot], c.Normal := by
    have htext (s : String) : ∀ d ∈ [Document.text s], Json.Normal d :=
      List.forall_mem_singleton.mpr (.text s)
    have hempty : Json.Normal (.map []) :=
      .map ⟨List.forall_mem_nil _, List.nodup_nil⟩ (List.forall_mem_nil _)
    simp only [List.forall_mem_cons]
    exact ⟨htext "a", hempty, htext "b", trivial, List.forall_mem_nil _⟩
  have hload : StoreCall.Normal .loadLearned := trivial
  exact answers_of_last_saved sideBySide_store (fun _ => rfl) ⟨rfl, rfl⟩ (fun _ => rfl) hnormal
    hload false false _ _ _ _

end ReviewGate
