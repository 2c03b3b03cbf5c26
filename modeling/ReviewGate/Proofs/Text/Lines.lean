import Mathlib.Data.List.Basic
import ReviewGate.Text.Lines
import ReviewGate.Text.Search

/-!
# `ReviewGate.Proofs.Text.Lines` — lines that are got back, and how lines start

A break split gives back the lines that a text was written from if no line has a break of its own:
a break ends a line and leaves nothing of it behind. Whether each line is ended or neighbours are
joined makes no difference, except that a last line without an end must not be empty.

How a line starts is decided by a fixed text at its front as soon as that text is long enough or
differs; what follows it does not matter.

## Contents
- `intercalate_cons`, `not_mem_of_mem_splitOn`: joining and splitting.
- `joinLines_lines`, `newline_not_mem_of_mem_lines`: the newline split.
- `Unbroken`, `Unbroken.append`, `unbroken_repr`: texts without breaks.
- `OnlyNewlines`, `onlyNewlines_joinLines`: texts whose breaks are newlines.
- `breakLines_cons`, `breakLines_join_ended`, `breakLines_joinLines`: lines are got back.
- `unbroken_of_mem_breakLines`, `exists_breakLines_append`: the lines of any text.
- `startsWith_iff_exists`, `startsWith_append`, `dropStart_append`: how lines start.
-/

namespace ReviewGate.Text

/-! ## Joining and splitting -/

/-- The first piece has a separator behind it if others follow. -/
theorem intercalate_cons {α : Type} (separator : α) (first : List α) {rest : List (List α)}
    (hrest : rest ≠ []) :
    List.intercalate [separator] (first :: rest)
      = first ++ separator :: List.intercalate [separator] rest := by
  rw [List.intercalate_cons_of_ne_nil hrest, List.append_assoc]
  rfl

/-- No piece has the separator. -/
theorem not_mem_of_mem_splitOn {c : Char} {cs piece : List Char} (h : piece ∈ cs.splitOn c) :
    c ∉ piece := by
  suffices hpieces : ∀ piece ∈ cs.splitOn c, c ∉ piece from hpieces piece h
  clear h
  induction cs with
  | nil => simp
  | cons d cs ih =>
      obtain ⟨first, later, hsplit⟩ := List.exists_cons_of_ne_nil (List.splitOn_ne_nil c cs)
      rw [hsplit] at ih
      rw [List.splitOn_cons_eq_if_modifyHead, hsplit]
      obtain ⟨hfirst, hlater⟩ := List.forall_mem_cons.mp ih
      split
      · exact List.forall_mem_cons.mpr ⟨List.not_mem_nil, ih⟩
      · next hd =>
        refine List.forall_mem_cons.mpr ⟨?_, hlater⟩
        rw [List.mem_cons, not_or]
        exact ⟨fun h => hd (beq_iff_eq.mpr h.symm), hfirst⟩

/-! ## The newline split -/

/-- The lines of a text have no newline. -/
theorem newline_not_mem_of_mem_lines {text l : String} (h : l ∈ lines text) : '\n' ∉ l.toList := by
  obtain ⟨piece, hpiece, rfl⟩ := List.mem_map.mp h
  rw [String.toList_ofList]
  exact not_mem_of_mem_splitOn hpiece

/-- The lines make up the text again. -/
theorem joinLines_lines (s : String) : joinLines (lines s) = s := by
  have hlists : (lines s).map String.toList = s.toList.splitOn '\n' := by
    rw [lines, List.map_map]
    exact List.map_id'' (fun _ => String.toList_ofList) _
  rw [joinLines, hlists, List.intercalate_splitOn, String.ofList_toList]

theorem joinLines_cons_cons (l k : String) (ls : List String) :
    joinLines (l :: k :: ls) = l ++ "\n" ++ joinLines (k :: ls) := by
  apply String.toList_injective
  simp [joinLines, List.intercalate_cons_cons]

/-- Joined lines have the characters of the lines, and newlines. -/
theorem mem_joinLines {c : Char} (hc : c ≠ '\n') {ls : List String} :
    c ∈ (joinLines ls).toList ↔ ∃ l ∈ ls, c ∈ l.toList := by
  induction ls with
  | nil => simp [joinLines]
  | cons l ls ih =>
      cases ls with
      | nil => simp [joinLines]
      | cons k ls =>
          rw [joinLines_cons_cons, String.toList_append, String.toList_append, List.mem_append,
            List.mem_append, ih, List.exists_mem_cons_iff]
          simp [hc]

/-! ## Texts without breaks -/

/-- Has the text no line break of any kind? -/
def Unbroken (s : String) : Prop := ∀ c ∈ s.toList, isBreak c = false

-- by the characters of the text, and not by trying all characters
instance (s : String) : Decidable (Unbroken s) :=
  List.decidableBAll (fun c => isBreak c = false) s.toList

theorem Unbroken.append {s t : String} (hs : Unbroken s) (ht : Unbroken t) : Unbroken (s ++ t) := by
  intro c hc
  rw [String.toList_append, List.mem_append] at hc
  rcases hc with hc | hc
  · exact hs c hc
  · exact ht c hc

theorem Unbroken.newline_not_mem {s : String} (h : Unbroken s) : '\n' ∉ s.toList :=
  fun hmem => absurd (h '\n' hmem) (by decide)

/-- No printable ASCII character ends a line. -/
theorem isBreak_eq_false {c : Char} (hlow : 32 ≤ c.toNat) (hhigh : c.toNat ≤ 126) :
    isBreak c = false := by
  simp only [isBreak, Bool.or_eq_false_iff, Bool.and_eq_false_iff, decide_eq_false_iff_not,
    beq_eq_false_iff_ne]
  omega

theorem unbroken_repr (n : Nat) : Unbroken n.repr := by
  intro c hc
  rw [Nat.toList_repr] at hc
  have hdigit : c.isDigit = true := Nat.isDigit_of_mem_toDigits (by decide) (by decide) hc
  have hrange : 48 ≤ c.toNat ∧ c.toNat ≤ 57 := by
    simpa [Char.isDigit, UInt32.le_iff_toNat_le] using hdigit
  exact isBreak_eq_false (by omega) (by omega)

/-- Is every line break of the text a newline? -/
def OnlyNewlines (s : String) : Prop := ∀ c ∈ s.toList, isBreak c = true → c = '\n'

/-- Joined lines are broken by newlines only if the lines have no breaks. -/
theorem onlyNewlines_joinLines {ls : List String} (h : ∀ l ∈ ls, '\n' ∉ l.toList) :
    OnlyNewlines (joinLines ls) ↔ ∀ l ∈ ls, Unbroken l := by
  constructor
  · intro hjoined l hl c hc
    by_contra hbreak
    rw [Bool.not_eq_false] at hbreak
    have hnewline : c ≠ '\n' := fun heq => h l hl (heq ▸ hc)
    exact hnewline (hjoined c ((mem_joinLines hnewline).mpr ⟨l, hl, hc⟩) hbreak)
  · intro hlines c hc hbreak
    by_contra hnewline
    obtain ⟨l, hl, hmem⟩ := (mem_joinLines hnewline).mp hc
    exact Bool.false_ne_true ((hlines l hl c hmem).symm.trans hbreak)

/-- Where every break is a newline, no line has a break. -/
theorem OnlyNewlines.unbroken {s : String} (h : OnlyNewlines s) : ∀ l ∈ lines s, Unbroken l := by
  refine (onlyNewlines_joinLines fun _ hl => newline_not_mem_of_mem_lines hl).mp ?_
  rwa [joinLines_lines]

/-! ## Lines from a text -/

/-- Characters that are no breaks are read into the line. -/
theorem breakLinesFrom_append {cs : List Char} (h : ∀ c ∈ cs, isBreak c = false)
    (line rest : List Char) :
    breakLinesFrom line (cs ++ rest) = breakLinesFrom (cs.reverse ++ line) rest := by
  induction cs generalizing line with
  | nil => rfl
  | cons c cs ih =>
      have hc : isBreak c = false := h c (List.mem_cons_self ..)
      have hcs : ∀ d ∈ cs, isBreak d = false := fun d hd => h d (List.mem_cons_of_mem _ hd)
      -- a return is a break, so the pair of a return and a newline is not at the front
      have hreturn : c ≠ '\r' := by
        rintro rfl
        exact absurd hc (by decide)
      rw [List.cons_append, breakLinesFrom.eq_3 _ _ _ fun _ hr _ => hreturn hr, hc,
        if_neg Bool.false_ne_true, ih hcs, List.reverse_cons, List.append_assoc]
      rfl

/-- **A newline ends the line in front of it.** -/
theorem breakLines_cons {l : String} (h : Unbroken l) (s : String) :
    breakLines (l ++ "\n" ++ s) = l :: breakLines s := by
  have hsplit : (l ++ "\n" ++ s).toList = l.toList ++ '\n' :: s.toList := by
    simp
  have hend : ∀ line rest, breakLinesFrom line ('\n' :: rest)
      = line.reverse :: breakLinesFrom [] rest := by
    intro line rest
    rw [breakLinesFrom.eq_3 _ _ _ fun _ hr _ => absurd hr (by decide), if_pos (by decide)]
  rw [breakLines, hsplit, breakLinesFrom_append h, hend, List.append_nil, List.reverse_reverse,
    List.map_cons, String.ofList_toList]
  rfl

/-- A text without breaks is its only line. -/
theorem breakLines_of_unbroken {l : String} (h : Unbroken l) (hne : l ≠ "") :
    breakLines l = [l] := by
  have hfront := breakLinesFrom_append h [] []
  have hlist : l.toList.reverse ≠ [] := by
    rw [ne_eq, List.reverse_eq_nil_iff, String.toList_eq_nil_iff]
    exact hne
  rw [List.append_nil, List.append_nil, breakLinesFrom.eq_1,
    if_neg (mt List.isEmpty_iff.mp hlist), List.reverse_reverse] at hfront
  rw [breakLines, hfront, List.map_singleton, String.ofList_toList]

/-- Lines that each have an end are got back, and then the rest of the text. -/
theorem breakLines_join_ended_append {ls : List String} (h : ∀ l ∈ ls, Unbroken l) (rest : String) :
    breakLines (String.join (ls.map (· ++ "\n")) ++ rest) = ls ++ breakLines rest := by
  induction ls with
  | nil =>
      rw [List.map_nil, String.join_nil, String.empty_append]
      rfl
  | cons l ls ih =>
      have hls : ∀ k ∈ ls, Unbroken k := fun k hk => h k (List.mem_cons_of_mem _ hk)
      rw [List.map_cons, String.join_cons, String.append_assoc,
        breakLines_cons (h l (List.mem_cons_self ..)), ih hls]
      rfl

/-- Lines that each have an end are got back. -/
theorem breakLines_join_ended {ls : List String} (h : ∀ l ∈ ls, Unbroken l) :
    breakLines (String.join (ls.map (· ++ "\n"))) = ls := by
  have happend := breakLines_join_ended_append h ""
  rwa [String.append_empty, show breakLines "" = [] from rfl, List.append_nil] at happend

/-- A newline at the end of joined lines ends the last one too. -/
theorem joinLines_append_newline {ls : List String} (hne : ls ≠ []) :
    joinLines ls ++ "\n" = String.join (ls.map (· ++ "\n")) := by
  induction ls with
  | nil => exact absurd rfl hne
  | cons l ls ih =>
      cases ls with
      | nil => simp [joinLines]
      | cons k ls =>
          rw [joinLines_cons_cons, String.append_assoc, ih (List.cons_ne_nil _ _)]
          exact String.join_cons.symm

/-- Texts of lines that each have an end are the text of all the lines. -/
theorem join_join_ended {α : Type} (lines : α → List String) (xs : List α) :
    String.join (xs.map fun x => String.join ((lines x).map (· ++ "\n")))
      = String.join ((xs.flatMap lines).map (· ++ "\n")) := by
  induction xs with
  | nil => rfl
  | cons x xs ih =>
      rw [List.map_cons, String.join_cons, ih, List.flatMap_cons, List.map_append,
        String.join_append]

/-- Joined lines are got back, if the last one can be seen. -/
theorem breakLines_joinLines {ls : List String} (h : ∀ l ∈ ls, Unbroken l)
    (hlast : ∀ l ∈ ls.getLast?, l ≠ "") : breakLines (joinLines ls) = ls := by
  induction ls with
  | nil => rfl
  | cons l ls ih =>
      have hl : Unbroken l := h l (List.mem_cons_self ..)
      have hls : ∀ k ∈ ls, Unbroken k := fun k hk => h k (List.mem_cons_of_mem _ hk)
      cases ls with
      | nil =>
          have hone : joinLines [l] = l := by
            rw [joinLines, List.map_singleton, List.intercalate_singleton, String.ofList_toList]
          rw [hone, breakLines_of_unbroken hl (hlast l rfl)]
      | cons k ls =>
          have hmore : joinLines (l :: k :: ls) = l ++ "\n" ++ joinLines (k :: ls) :=
            joinLines_cons_cons l k ls
          rw [hmore, breakLines_cons hl, ih hls hlast]

/-- No break is left in the lines of a text. -/
theorem unbroken_of_mem_breakLines {s l : String} (h : l ∈ breakLines s) : Unbroken l := by
  have hfrom : ∀ line cs : List Char, (∀ c ∈ line, isBreak c = false) →
      ∀ piece ∈ breakLinesFrom line cs, ∀ c ∈ piece, isBreak c = false := by
    intro line cs
    fun_induction breakLinesFrom line cs with
    | case1 => simp
    | case2 line _ =>
        intro hopen piece hpiece c hc
        rw [List.mem_singleton.mp hpiece, List.mem_reverse] at hc
        exact hopen c hc
    | case3 line _ ih | case4 line _ _ _ _ ih =>
        intro hopen piece hpiece c hc
        rcases List.mem_cons.mp hpiece with rfl | hrest
        · exact hopen c (List.mem_reverse.mp hc)
        · exact ih (fun _ hd => absurd hd List.not_mem_nil) piece hrest c hc
    | case5 line d rest _ hbreak ih =>
        intro hopen
        refine ih fun c hc => ?_
        rcases List.mem_cons.mp hc with rfl | hold
        · exact Bool.eq_false_iff.mpr hbreak
        · exact hopen c hold
  obtain ⟨piece, hpiece, rfl⟩ := List.mem_map.mp h
  intro c hc
  rw [String.toList_ofList] at hc
  exact hfrom [] s.toList (fun _ hd => absurd hd List.not_mem_nil) piece hpiece c hc

/-- What is at the front of a text and has no break is at the front of its first line. -/
theorem exists_breakLines_append {front : String} (h : Unbroken front) (hne : front ≠ "")
    (rest : String) : ∃ more later, breakLines (front ++ rest) = (front ++ more) :: later := by
  have hfrom : ∀ line cs : List Char, line ≠ [] →
      ∃ more later, breakLinesFrom line cs = (line.reverse ++ more) :: later := by
    intro line cs
    fun_induction breakLinesFrom line cs with
    | case1 line hline => exact fun hopen => absurd (List.isEmpty_iff.mp hline) hopen
    | case2 line _ | case3 line _ _ | case4 line _ _ _ _ _ =>
        exact fun _ => ⟨[], _, by rw [List.append_nil]⟩
    | case5 line c rest _ _ ih =>
        intro _
        obtain ⟨more, later, hline⟩ := ih (List.cons_ne_nil _ _)
        exact ⟨c :: more, later, by rw [hline, List.reverse_cons, List.append_assoc]; rfl⟩
  have hopen : front.toList.reverse ≠ [] := by
    rw [ne_eq, List.reverse_eq_nil_iff, String.toList_eq_nil_iff]
    exact hne
  obtain ⟨more, later, hline⟩ := hfrom front.toList.reverse rest.toList hopen
  refine ⟨String.ofList more, later.map String.ofList, ?_⟩
  rw [breakLines, String.toList_append, breakLinesFrom_append h, List.append_nil, hline,
    List.reverse_reverse, List.map_cons, String.ofList_append, String.ofList_toList]

/-! ## Starts of lines -/

theorem startsWith_iff {s start : String} : startsWith s start = true ↔ start.toList <+: s.toList :=
  List.isPrefixOf_iff_prefix

theorem startsWith_iff_exists {s start : String} :
    startsWith s start = true ↔ ∃ t, s = start ++ t := by
  rw [startsWith_iff]
  constructor
  · rintro ⟨cs, hcs⟩
    refine ⟨String.ofList cs, String.toList_injective ?_⟩
    rw [String.toList_append, String.toList_ofList, hcs]
  · rintro ⟨t, rfl⟩
    rw [String.toList_append]
    exact List.prefix_append _ _

/-- A text at the front that is not a mere beginning of `start` decides whether a line starts with
it. -/
theorem startsWith_append {front start : String}
    (h : startsWith start front = true → startsWith front start = true) (t : String) :
    startsWith (front ++ t) start = startsWith front start := by
  rw [Bool.eq_iff_iff, startsWith_iff, startsWith_iff, String.toList_append]
  constructor
  · intro hstart
    rcases List.prefix_or_prefix_of_prefix hstart (List.prefix_append _ _) with hshort | hlong
    · exact hshort
    · exact startsWith_iff.mp (h (startsWith_iff.mpr hlong))
  · intro hfront
    exact hfront.trans (List.prefix_append _ _)

theorem dropStart_append (start t : String) : dropStart (start ++ t) start = t := by
  have hstart : startsWith (start ++ t) start = true := startsWith_iff_exists.mpr ⟨t, rfl⟩
  rw [dropStart, if_pos hstart, String.toList_append, ← String.length_toList, List.drop_left,
    String.ofList_toList]

end ReviewGate.Text
