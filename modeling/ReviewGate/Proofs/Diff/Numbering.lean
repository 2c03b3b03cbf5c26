import Mathlib.Data.List.Nodup
import ReviewGate.Proofs.Diff.Header

/-!
# `ReviewGate.Proofs.Diff.Numbering` — line numbers and positions in written hunks

Three loops run over the lines below a header, each with its own counters: one for the added lines,
one for the removed lines, one for positions. Each of them takes a written line, with its note, in
one step (`addedFrom_render`, `removedFrom_render`, `spotsFrom_render`), and after any number of
steps its counters have counted the lines in front. So the loops agree with the numbers and
positions that the source of the patch has by counting.

## Contents
- `addedFrom_body`, `removedFrom_body`: the changed lines of a hunk.
- `mem_spotsFrom`, `mem_spotsOfHunks`: which patch line shows which line, and where.
- `line_spotsOfHunks`: the lines that hunks show.
- `ChangedFile.positionOf?_eq_some`: a position found is that of the only spot of the line.
-/

namespace ReviewGate.Diff

open Text

/-! ## Markers -/

theorem markerOf_marked (l : PatchLine) :
    markerOf l.marked = match l.kind with
      | .context => .context
      | .added => .added
      | .removed => .removed := by
  rw [markerOf, l.toList_marked]
  cases l.kind <;> rfl

theorem unmarked_marked (l : PatchLine) : unmarked l.marked = l.text := by
  rw [unmarked, l.toList_marked]
  exact String.ofList_toList

theorem markerOf_unendedNote : markerOf unendedNote = .note := by decide

/-! ## Changed lines -/

/-- The first line takes the start number; the others continue behind it. -/
theorem numbered_cons (counted chosen : LineKind → Bool) (start : Nat) (l : PatchLine)
    (rest : List PatchLine) :
    numbered counted chosen start (l :: rest)
      = (if chosen l.kind then [⟨start, l.text⟩] else []) ++
        numbered counted chosen (start + if counted l.kind then 1 else 0) rest := by
  have hrest : ∀ i, start + ((l :: rest).take (i + 1)).countP (counted ·.kind)
      = (start + if counted l.kind then 1 else 0) + (rest.take i).countP (counted ·.kind) := by
    intro i
    rw [List.take_succ_cons, List.countP_cons]
    omega
  have htail : ((rest.zipIdx 1).filterMap fun x => if chosen x.1.kind then
        some (ChangedLine.mk (start + ((l :: rest).take x.2).countP (counted ·.kind)) x.1.text)
        else none)
      = numbered counted chosen (start + if counted l.kind then 1 else 0) rest := by
    rw [List.zipIdx_succ, List.filterMap_map]
    refine List.filterMap_congr fun x _ => ?_
    rw [← hrest]
    rfl
  rw [← htail, numbered, List.zipIdx_cons, List.filterMap_cons]
  cases chosen l.kind <;> rfl

theorem addedFrom_render (n : Nat) (l : PatchLine) (rest : List String) :
    addedFrom n (l.render ++ rest)
      = (if l.kind == .added then [⟨n, l.text⟩] else []) ++
        addedFrom (n + if l.kind.inNew then 1 else 0) rest := by
  unfold PatchLine.render
  rw [List.cons_append, addedFrom, markerOf_marked, unmarked_marked]
  cases l.kind <;> cases l.unended <;>
    simp [addedFrom, markerOf_unendedNote, LineKind.inNew]

theorem removedFrom_render (n : Nat) (l : PatchLine) (rest : List String) :
    removedFrom n (l.render ++ rest)
      = (if l.kind == .removed then [⟨n, l.text⟩] else []) ++
        removedFrom (n + if l.kind.inOld then 1 else 0) rest := by
  unfold PatchLine.render
  rw [List.cons_append, removedFrom, markerOf_marked, unmarked_marked]
  cases l.kind <;> cases l.unended <;>
    simp [removedFrom, markerOf_unendedNote, LineKind.inOld]

theorem addedFrom_body (n : Nat) (ls : List PatchLine) :
    addedFrom n (ls.flatMap PatchLine.render) = numbered LineKind.inNew (· == .added) n ls := by
  induction ls generalizing n with
  | nil => rfl
  | cons l rest ih => rw [List.flatMap_cons, addedFrom_render, ih, numbered_cons]

theorem removedFrom_body (n : Nat) (ls : List PatchLine) :
    removedFrom n (ls.flatMap PatchLine.render) = numbered LineKind.inOld (· == .removed) n ls := by
  induction ls generalizing n with
  | nil => rfl
  | cons l rest ih => rw [List.flatMap_cons, removedFrom_render, ih, numbered_cons]

/-! ## Positions -/

theorem spotsFrom_render (position n : Nat) (l : PatchLine) (rest : List String) :
    spotsFrom position n (l.render ++ rest)
      = (if l.kind.inNew then [⟨position, n, l.marked⟩] else []) ++
        spotsFrom (position + l.render.length) (n + if l.kind.inNew then 1 else 0) rest := by
  unfold PatchLine.render
  rw [List.cons_append, spotsFrom, markerOf_marked]
  cases l.kind <;> cases l.unended <;>
    simp [spotsFrom, markerOf_unendedNote, LineKind.inNew, Nat.add_assoc]

/-- A place in a list is its front, or one behind it. -/
theorem exists_split_cons {α : Type} {x : α} {rest : List α} {P : List α → α → Prop} :
    (∃ front y back, x :: rest = front ++ y :: back ∧ P front y) ↔
      P [] x ∨ ∃ front y back, rest = front ++ y :: back ∧ P (x :: front) y := by
  constructor
  · rintro ⟨front, y, back, hsplit, hP⟩
    rcases List.cons_eq_append_iff.mp hsplit with ⟨rfl, hcons⟩ | ⟨front', rfl, hrest⟩
    · exact Or.inl ((List.cons.inj hcons).1 ▸ hP)
    · exact Or.inr ⟨front', y, back, hrest, hP⟩
  · rintro (hP | ⟨front, y, back, hrest, hP⟩)
    · exact ⟨[], x, rest, rfl, hP⟩
    · exact ⟨x :: front, y, back, by rw [hrest]; rfl, hP⟩

/-- Every line of the new file is shown behind the patch lines in front of it. -/
theorem mem_spotsFrom {position n : Nat} {ls : List PatchLine} {s : Spot} :
    s ∈ spotsFrom position n (ls.flatMap PatchLine.render) ↔
      ∃ front l back, ls = front ++ l :: back ∧ l.kind.inNew = true ∧
        s = ⟨position + (front.flatMap PatchLine.render).length, n + newCount front, l.marked⟩ := by
  induction ls generalizing position n with
  | nil =>
      refine ⟨fun h => absurd h List.not_mem_nil, ?_⟩
      rintro ⟨front, l, back, hsplit, _⟩
      exact absurd hsplit.symm (by simp)
  | cons x rest ih =>
      rw [List.flatMap_cons, spotsFrom_render, List.mem_append, ih, exists_split_cons]
      refine or_congr ?_ ?_
      · cases x.kind.inNew <;> simp [newCount]
      · -- the counters have moved past `x`
        have hstep : ∀ front : List PatchLine,
            position + x.render.length + (front.flatMap PatchLine.render).length
                = position + ((x :: front).flatMap PatchLine.render).length ∧
              (n + if x.kind.inNew then 1 else 0) + newCount front = n + newCount (x :: front) := by
          intro front
          rw [List.flatMap_cons, List.length_append, newCount, newCount, List.countP_cons]
          constructor <;> omega
        refine exists_congr fun front => exists_congr fun l => exists_congr fun back => ?_
        rw [(hstep front).1, (hstep front).2]

/-- The spots of hunks lie behind the patch lines of the hunks in front and the header. -/
theorem mem_spotsOfHunks {position : Nat} {hs : List HunkSource} {s : Spot} :
    s ∈ spotsOfHunks position (hs.map HunkSource.hunk) ↔
      ∃ before h after, hs = before ++ h :: after ∧
        s ∈ spotsFrom (position + (before.flatMap HunkSource.render).length + 1) h.newStart
          h.body := by
  induction hs generalizing position with
  | nil =>
      refine ⟨fun h => absurd h List.not_mem_nil, ?_⟩
      rintro ⟨before, h, after, hsplit, _⟩
      exact absurd hsplit.symm (by simp)
  | cons k rest ih =>
      have hstep : ∀ before : List HunkSource,
          position + 1 + k.body.length + (before.flatMap HunkSource.render).length
            = position + ((k :: before).flatMap HunkSource.render).length := by
        intro before
        rw [List.flatMap_cons, List.length_append, HunkSource.render, List.length_cons]
        omega
      rw [List.map_cons, spotsOfHunks, k.lines_hunk, List.mem_append, ih, exists_split_cons]
      refine or_congr Iff.rfl ?_
      refine exists_congr fun before => exists_congr fun h => exists_congr fun after => ?_
      rw [hstep]

/-- A patch shows a line at the position of the line's spot. -/
theorem shows_iff {hs : List HunkSource} {position : Nat} {m : Int} :
    Shows hs position m ↔
      ∃ s ∈ spotsOfHunks 1 (hs.map HunkSource.hunk), s.position = position ∧ (s.line : Int) = m := by
  constructor
  · rintro ⟨before, h, after, hsplit, front, l, back, hlines, hnew, rfl, rfl⟩
    refine ⟨_, mem_spotsOfHunks.mpr ⟨before, h, after, hsplit,
      mem_spotsFrom.mpr ⟨front, l, back, hlines, hnew, rfl⟩⟩, ?_, rfl⟩
    show 1 + _ + 1 + _ = _
    rw [List.length_append, List.length_cons]
    omega
  · rintro ⟨s, hs, rfl, rfl⟩
    obtain ⟨before, h, after, hsplit, hs⟩ := mem_spotsOfHunks.mp hs
    obtain ⟨front, l, back, hlines, hnew, rfl⟩ := mem_spotsFrom.mp hs
    refine ⟨before, h, after, hsplit, front, l, back, hlines, hnew, rfl, ?_⟩
    show 1 + _ + 1 + _ = _
    rw [List.length_append, List.length_cons]
    omega

/-! ## Lines that are shown -/

/-- The lines shown below a header follow one another. -/
theorem line_spotsFrom (position n : Nat) (ls : List PatchLine) :
    (spotsFrom position n (ls.flatMap PatchLine.render)).map (·.line)
      = List.range' n (newCount ls) := by
  induction ls generalizing position n with
  | nil => rfl
  | cons l rest ih =>
      rw [List.flatMap_cons, spotsFrom_render, List.map_append, ih, newCount, newCount,
        List.countP_cons]
      cases l.kind.inNew
      · rfl
      · exact List.range'_succ.symm

theorem line_spotsOfHunks {position : Nat} {hs : List HunkSource} :
    (spotsOfHunks position (hs.map HunkSource.hunk)).map (·.line)
      = hs.flatMap HunkSource.newRange := by
  induction hs generalizing position with
  | nil => rfl
  | cons k rest ih =>
      rw [List.map_cons, spotsOfHunks, List.map_append, k.lines_hunk, ih, List.flatMap_cons]
      exact congrArg (· ++ _) (line_spotsFrom _ _ _)

/-- Hunks that are apart show no line twice. -/
theorem nodup_line_spotsOfHunks {position : Nat} {hs : List HunkSource}
    (hapart : hs.Pairwise fun h k => ∀ m ∈ h.newRange, m ∉ k.newRange) :
    ((spotsOfHunks position (hs.map HunkSource.hunk)).map (·.line)).Nodup := by
  rw [line_spotsOfHunks, List.nodup_flatMap]
  exact ⟨fun h _ => List.nodup_range', hapart.imp fun h m hm hk => h m hm hk⟩

/-- **Where no line is shown twice, a position found is that of the only spot of the line.** -/
theorem ChangedFile.positionOf?_eq_some {f : ChangedFile} (hnd : (f.spots.map (·.line)).Nodup)
    {m : Int} {position : Nat} :
    f.positionOf? m = some position ↔
      ∃ s ∈ f.spots, s.position = position ∧ (s.line : Int) = m := by
  unfold ChangedFile.positionOf? ChangedFile.spotOf?
  rw [Option.map_eq_some_iff]
  constructor
  · rintro ⟨s, hfind, hposition⟩
    exact ⟨s, List.mem_of_find?_eq_some hfind, hposition,
      beq_iff_eq.mp (List.find?_eq_some_iff_append.mp hfind).1⟩
  · rintro ⟨s, hs, hposition, hline⟩
    refine ⟨s, ?_, hposition⟩
    -- the first spot of the line is `s`, because there is no other
    cases hfind : f.spots.find? fun s => (s.line : Int) == m with
    | none => exact absurd (beq_iff_eq.mpr hline) (List.find?_eq_none.mp hfind s hs)
    | some t =>
        have hlines : (t.line : Int) = s.line :=
          (beq_iff_eq.mp (List.find?_eq_some_iff_append.mp hfind).1).trans hline.symm
        exact congrArg some (List.inj_on_of_nodup_map hnd (List.mem_of_find?_eq_some hfind) hs
          (Int.ofNat.inj hlines))

end ReviewGate.Diff
