import Mathlib.Data.List.Basic
import ReviewGate.Document.Basic

/-!
# `ReviewGate.Proofs.Document.Entries` — entries collected under texts

## Contents
- `TextKeys`: entries under texts, no two under the same.
- `map_fst_put`, `mem_put`: one entry put in.
- `TextKeys.collect_eq`: distinct entries are collected as they are.
- `textKeys_collect`, `mem_of_mem_collect`: any entries under texts are collected to distinct ones.
-/

namespace ReviewGate.Document

/-- Every entry has a text as its key. -/
def UnderTexts (entries : List (Document × Document)) : Prop := ∀ e ∈ entries, ∃ s, e.1 = .text s

/-- The entries have texts as keys, no two of them the same. -/
structure TextKeys (entries : List (Document × Document)) : Prop where
  texts : UnderTexts entries
  distinct : (entries.map Prod.fst).Nodup

theorem underTexts_cons {entry : Document × Document} {rest : List (Document × Document)} :
    UnderTexts (entry :: rest) ↔ (∃ s v, entry = (.text s, v)) ∧ UnderTexts rest := by
  rw [UnderTexts, List.forall_mem_cons]
  refine and_congr_left' ⟨?_, ?_⟩
  · rintro ⟨s, hs⟩
    exact ⟨s, entry.2, Prod.ext hs rfl⟩
  · rintro ⟨s, v, rfl⟩
    exact ⟨s, rfl⟩

theorem textKeys_nil : TextKeys [] := ⟨fun _ he => absurd he List.not_mem_nil, List.nodup_nil⟩

/-! ## One entry put in -/

theorem key?_text_ne {s t : String} (h : s ≠ t) : (text s).key? ≠ (text t).key? := by
  intro hkey
  exact h (Key.text.inj (Option.some.inj hkey))

theorem mem_put {s : String} {v : Document} {entries : List (Document × Document)}
    (htexts : UnderTexts entries) {e : Document × Document} (he : e ∈ put (.text s) v entries) :
    e = (.text s, v) ∨ e ∈ entries := by
  induction entries with
  | nil => exact Or.inl (List.mem_singleton.mp he)
  | cons entry rest ih =>
      obtain ⟨⟨t, old, rfl⟩, hrest⟩ := underTexts_cons.mp htexts
      rw [put] at he
      by_cases hts : t = s
      · rw [if_pos (by rw [hts]), hts, List.mem_cons] at he
        exact he.imp_right (List.mem_cons_of_mem _)
      · rw [if_neg (key?_text_ne hts), List.mem_cons] at he
        obtain rfl | he := he
        · exact Or.inr List.mem_cons_self
        · exact (ih hrest he).imp_right (List.mem_cons_of_mem _)

/-- A value under a text that is there already replaces the old one. -/
theorem map_fst_put_of_mem {s : String} {v : Document} {entries : List (Document × Document)}
    (htexts : UnderTexts entries) (hs : text s ∈ entries.map Prod.fst) :
    (put (.text s) v entries).map Prod.fst = entries.map Prod.fst := by
  induction entries with
  | nil => exact absurd hs List.not_mem_nil
  | cons entry rest ih =>
      obtain ⟨⟨t, old, rfl⟩, hrest⟩ := underTexts_cons.mp htexts
      rw [put]
      by_cases hst : s = t
      · rw [if_pos (by rw [hst]), List.map_cons, List.map_cons]
      · rw [if_neg (key?_text_ne (Ne.symm hst)), List.map_cons, List.map_cons,
          ih hrest]
        rw [List.map_cons, List.mem_cons] at hs
        exact hs.resolve_left fun h => hst (Document.text.inj h)

/-- A value under a new text is put at the end. -/
theorem put_of_not_mem {s : String} {v : Document} {entries : List (Document × Document)}
    (htexts : UnderTexts entries) (hs : text s ∉ entries.map Prod.fst) :
    put (.text s) v entries = entries ++ [(.text s, v)] := by
  induction entries with
  | nil => rfl
  | cons entry rest ih =>
      obtain ⟨⟨t, old, rfl⟩, hrest⟩ := underTexts_cons.mp htexts
      rw [List.map_cons, List.mem_cons, not_or] at hs
      have hts : t ≠ s := fun h => hs.1 (by rw [h])
      rw [put, if_neg (key?_text_ne hts), List.cons_append, ih hrest hs.2]

theorem TextKeys.put {entries : List (Document × Document)} (h : TextKeys entries) (s : String)
    (v : Document) : TextKeys (put (.text s) v entries) := by
  refine ⟨?_, ?_⟩
  · intro e he
    obtain rfl | he := mem_put h.texts he
    · exact ⟨s, rfl⟩
    · exact h.texts e he
  · by_cases hs : text s ∈ entries.map Prod.fst
    · rw [map_fst_put_of_mem h.texts hs]
      exact h.distinct
    · rw [put_of_not_mem h.texts hs, List.map_append, List.nodup_append]
      refine ⟨h.distinct, List.pairwise_singleton _ _, ?_⟩
      intro k hk k' hk' hkk'
      have hks : k = text s := hkk'.trans (List.mem_singleton.mp hk')
      exact hs (hks ▸ hk)

/-! ## Entries collected -/

theorem foldl_put_of_textKeys (entries done : List (Document × Document))
    (h : TextKeys (done ++ entries)) :
    entries.foldl (fun acc (k, v) => Document.put k v acc) done = done ++ entries := by
  induction entries generalizing done with
  | nil => exact (List.append_nil _).symm
  | cons entry rest ih =>
      obtain ⟨s, hs⟩ := h.texts entry (by simp)
      obtain ⟨k, v⟩ := entry
      obtain rfl : k = .text s := hs
      -- the text comes again in what follows, and no text comes twice
      have hnew : text s ∉ done.map Prod.fst := by
        have hdistinct := h.distinct
        rw [List.map_append, List.nodup_append] at hdistinct
        exact fun hmem => hdistinct.2.2 _ hmem _ List.mem_cons_self rfl
      have hput := put_of_not_mem (v := v)
        (fun e he => h.texts e (List.mem_append_left _ he)) hnew
      rw [List.foldl_cons]
      show List.foldl _ (Document.put (.text s) v done) rest = _
      rw [hput, ih _ (by rwa [List.append_assoc]), List.append_assoc]
      rfl

/-- **Entries under distinct texts are collected as they are.** -/
theorem TextKeys.collect_eq {entries : List (Document × Document)} (h : TextKeys entries) :
    collect entries = entries :=
  foldl_put_of_textKeys entries [] h

section

variable {entries : List (Document × Document)} (hentries : UnderTexts entries)
include hentries

theorem textKeys_foldl_put (done : List (Document × Document)) (hdone : TextKeys done) :
    TextKeys (entries.foldl (fun acc (k, v) => Document.put k v acc) done) ∧
      ∀ e ∈ entries.foldl (fun acc (k, v) => Document.put k v acc) done,
        e ∈ done ∨ e ∈ entries := by
  induction entries generalizing done with
  | nil => exact ⟨hdone, fun _ => Or.inl⟩
  | cons entry rest ih =>
      obtain ⟨⟨s, v, rfl⟩, hrest⟩ := underTexts_cons.mp hentries
      obtain ⟨hkeys, hmem⟩ := ih hrest _ (hdone.put s v)
      refine ⟨hkeys, ?_⟩
      intro e he
      obtain he | he := hmem e he
      · obtain rfl | he := mem_put hdone.texts he
        · exact Or.inr List.mem_cons_self
        · exact Or.inl he
      · exact Or.inr (List.mem_cons_of_mem _ he)

/-- **Entries under texts are collected to distinct ones.** -/
theorem textKeys_collect : TextKeys (collect entries) :=
  (textKeys_foldl_put hentries [] textKeys_nil).1

/-- Nothing is collected that was not there. -/
theorem mem_of_mem_collect {e : Document × Document} (he : e ∈ collect entries) : e ∈ entries :=
  ((textKeys_foldl_put hentries [] textKeys_nil).2 e he).resolve_left List.not_mem_nil

end

end ReviewGate.Document
