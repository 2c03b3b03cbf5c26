import Mathlib.Data.List.Forall2
import ReviewGate.Proofs.Mining.Effect

/-!
# `ReviewGate.Proofs.Mining.Ids` — the ids of what is learned

An id is looked up among those that have been seen, and kept as a text. For a text the two are one;
for anything else they are not. The number seven is looked up as a number and kept as the text `7`,
so it is neither taken for a rule with that id nor for itself when it comes again. What is distinct
and new is therefore not the ids of the rules that are learned but what they were looked up as
(`exists_learned_of_eq_ok`), and the two agree where ids are texts.

Behind this is one fact about the growing list of seen ids. What an answer gives does not depend on
how that list came about: when more has been seen from the start, the same rules are learned, less
those whose ids are among it.

## Contents
- `le_of_lt_eq_false`, `confidence_cases`: a confidence is between zero and one, or no number.
- `NamedAs`, `conventionOf?_steps`: what becomes of one entry.
- `Learned`, `exists_learned_of_eq_ok`: what becomes of many, whatever has been seen: one step for each
  kind of entry, and the induction over them.
- `Readable`, `exists_conventionsFrom_iff`: when they can be read.
- `learned_ids_fresh`: ids that are texts are new and distinct.
-/

namespace ReviewGate

open Number

/-! ## Doubles in order -/

namespace Number.Binary64

theorem compareDyadic_swap (s : Bool) (m : Nat) (q : Int) (s' : Bool) (m' : Nat) (q' : Int) :
    compareDyadic s' m' q' s m q = (compareDyadic s m q s' m' q').swap := by
  unfold compareDyadic
  rw [Int.min_comm q' q]
  exact (Int.compare_swap _ _).symm

theorem compare?_swap (x y : Binary64) : compare? y x = (compare? x y).map Ordering.swap := by
  cases x with
  | nan => cases y <;> rfl
  | infinite s =>
      cases y with
      | nan => rfl
      | infinite s' => cases s <;> cases s' <;> rfl
      | finite => cases s <;> rfl
  | finite s m q =>
      cases y with
      | nan => rfl
      | infinite s' => cases s' <;> rfl
      | finite s' m' q' => exact congrArg some (compareDyadic_swap ..)

theorem exists_compare? {x y : Binary64} (hx : x ≠ .nan) (hy : y ≠ .nan) :
    ∃ o, compare? x y = some o := by
  cases x with
  | nan => exact absurd rfl hx
  | infinite s =>
      cases y with
      | nan => exact absurd rfl hy
      | infinite s' => exact ⟨_, rfl⟩
      | finite => exact ⟨_, rfl⟩
  | finite s m q =>
      cases y with
      | nan => exact absurd rfl hy
      | infinite s' => exact ⟨_, rfl⟩
      | finite s' m' q' => exact ⟨_, rfl⟩

/-- **Of two numbers, one that is not less is at least as great.** -/
theorem le_of_lt_eq_false {x y : Binary64} (hx : x ≠ .nan) (hy : y ≠ .nan)
    (h : x.lt y = false) : y.le x = true := by
  obtain ⟨o, ho⟩ := exists_compare? hx hy
  unfold lt at h
  rw [ho] at h
  unfold le
  rw [compare?_swap, ho]
  cases o with
  | lt => cases h
  | eq => rfl
  | gt => rfl

end Number.Binary64

namespace Mining

/-- The number is between zero and one. -/
def InUnit (x : Binary64) : Prop := (Binary64.zero false).le x = true ∧ x.le unit = true

theorem clampUnit_cases (x : Binary64) :
    InUnit (clampUnit x) ∨ x = .nan ∧ clampUnit x = .nan := by
  by_cases hnan : x = .nan
  · refine .inr ⟨hnan, ?_⟩
    rw [hnan]
    rfl
  refine .inl ?_
  unfold clampUnit
  by_cases hneg : x.lt (Binary64.zero false) = true
  · rw [if_pos hneg]
    exact ⟨rfl, rfl⟩
  · rw [if_neg hneg]
    have hzero : (Binary64.zero false).le x = true :=
      Binary64.le_of_lt_eq_false hnan nofun (Bool.not_eq_true _ ▸ hneg)
    by_cases habove : unit.lt x = true
    · rw [if_pos habove]
      exact ⟨rfl, rfl⟩
    · rw [if_neg habove]
      exact ⟨hzero, Binary64.le_of_lt_eq_false (by decide) hnan (Bool.not_eq_true _ ▸ habove)⟩

/-- **A confidence is between zero and one, or it was given as no number.** -/
theorem confidence_cases {d : Document} {x : Binary64} (h : confidenceOf d = .ok x) :
    InUnit x ∨ x = .nan ∧ d.toDouble = .ok .nan := by
  unfold confidenceOf at h
  split at h
  · next y hy =>
    obtain rfl := Except.ok.inj h
    refine (clampUnit_cases y).imp_right ?_
    rintro ⟨rfl, hclamp⟩
    exact ⟨hclamp, hy⟩
  · obtain rfl := Except.ok.inj h
    exact .inl ⟨rfl, rfl⟩
  · obtain rfl := Except.ok.inj h
    exact .inl ⟨rfl, rfl⟩
  · cases h

/-! ## One entry -/

/-- The entry has all that a rule needs, and its id is looked up as `k`; as nothing, if it is a list or
a mapping. -/
def NamedAs (k : Option Document.Key) (entry : Document) : Prop :=
  checkRule "learned rules" entry = .ok () ∧ (entry.fieldIn "id").key? = k

theorem overflows_iff {entry : Document} :
    LearnedRule.Overflows entry ↔
      checkRule "learned rules" entry = .ok () ∧ (confidenceIn entry).Huge := by
  refine and_congr_right fun hcheck => ?_
  obtain ⟨fields, rfl, -⟩ := checkRule_eq_ok.mp hcheck
  constructor
  · rintro ⟨_, value, hfields, hlookup, hhuge⟩
    cases hfields
    unfold confidenceIn
    dsimp only
    rw [hlookup]
    exact hhuge
  · intro h
    obtain ⟨value, hlookup, hhuge⟩ := exists_huge_of_lookup h
    exact ⟨fields, value, rfl, hlookup, hhuge⟩

variable (origin : Origin) {entry : Document}

/-- What an entry gives under the key `k`: a rule whose id is the text of the entry's id, with the
confidence of the entry. -/
structure Gives (entry : Document) (k : Document.Key) (r : LearnedRule) : Prop where
  namedAs : NamedAs (some k) entry
  id : r.id = (entry.fieldIn "id").plain
  confidence : confidenceOf (confidenceIn entry) = .ok r.confidence

/-- **An entry is dropped because it is incomplete or has been seen, gives a rule under a new key, or
cannot be read**: its id cannot be looked up, or it is new and its confidence is huge. -/
theorem conventionOf?_steps (entry : Document) (seen : List Document.Key) :
    (conventionOf? origin seen entry = .ok none ∧ ∀ k, NamedAs k entry → ∃ k' ∈ seen, k = some k') ∨
    (∃ k r, conventionOf? origin seen entry = .ok (some (k, r)) ∧ k ∉ seen ∧ Gives entry k r) ∨
    (conventionOf? origin seen entry = .error .wrongKind ∧ NamedAs none entry) ∨
    (conventionOf? origin seen entry = .error .numberRange ∧ LearnedRule.Overflows entry ∧
      ∃ k, NamedAs (some k) entry ∧ k ∉ seen) := by
  by_cases hcheck : checkRule "learned rules" entry = .ok ()
  case neg =>
    exact .inl ⟨conventionOf?_of_incomplete origin hcheck seen, fun k hk => absurd hk.1 hcheck⟩
  obtain ⟨rule, hrule, hread⟩ := conventionOf?_of_check origin hcheck
  rw [hread]
  unfold Document.keyOf
  cases hkey : (entry.fieldIn "id").key? with
  | none => exact .inr (.inr (.inl ⟨rfl, hcheck, hkey⟩))
  | some k =>
      rw [ok_bind]
      by_cases hseen : seen.contains k = true
      · rw [if_pos hseen]
        refine .inl ⟨rfl, fun k' hk' => ⟨k, List.contains_iff_mem.mp hseen, ?_⟩⟩
        exact hk'.2.symm.trans hkey
      rw [if_neg hseen]
      have hnew : k ∉ seen := fun hmem => hseen (List.contains_iff_mem.mpr hmem)
      obtain ⟨x, hx⟩ | ⟨hfault, hhuge⟩ := confidenceOf_cases (confidenceIn entry)
      · obtain ⟨hid, hconfidence, -⟩ := hrule x
        rw [hx]
        refine .inr (.inl ⟨k, rule x, rfl, hnew, ⟨hcheck, hkey⟩, hid, ?_⟩)
        rw [hx, hconfidence]
      · rw [hfault]
        exact .inr (.inr (.inr ⟨rfl, overflows_iff.mpr ⟨hcheck, hhuge⟩, k, ⟨hcheck, hkey⟩, hnew⟩))

variable {origin} {seen seen' : List Document.Key}

/-- An entry whose id has been seen, if it has all that a rule needs, is dropped. -/
theorem conventionOf?_of_seen (h : ∀ k, NamedAs k entry → ∃ k' ∈ seen, k = some k') :
    conventionOf? origin seen entry = .ok none := by
  obtain ⟨hnone, -⟩ | ⟨k, r, -, hnew, hgives⟩ | ⟨-, hname⟩ | ⟨-, -, k, hname, hnew⟩ :=
    conventionOf?_steps origin entry seen
  · exact hnone
  · obtain ⟨k', hk', heq⟩ := h _ hgives.namedAs
    cases heq
    exact absurd hk' hnew
  · obtain ⟨k', -, heq⟩ := h _ hname
    cases heq
  · obtain ⟨k', hk', heq⟩ := h _ hname
    cases heq
    exact absurd hk' hnew

/-- What an entry gives does not depend on what else has been seen. -/
theorem conventionOf?_of_unseen {k : Document.Key} {r : LearnedRule}
    (h : conventionOf? origin seen entry = .ok (some (k, r))) (hk : k ∉ seen') :
    conventionOf? origin seen' entry = .ok (some (k, r)) := by
  by_cases hcheck : checkRule "learned rules" entry = .ok ()
  case neg =>
    rw [conventionOf?_of_incomplete origin hcheck seen] at h
    cases h
  obtain ⟨rule, -, hread⟩ := conventionOf?_of_check origin hcheck
  rw [hread] at h ⊢
  obtain ⟨key, hkey, h⟩ := bind_eq_ok.mp h
  rw [hkey, ok_bind]
  split at h
  · cases h
  obtain ⟨x, hx, h⟩ := bind_eq_ok.mp h
  cases h
  rw [if_neg fun hmem => hk (List.contains_iff_mem.mp hmem), hx]
  rfl

/-! ## Many entries -/

variable (origin) in
/-- The rules of entries with what their ids were looked up as: keys that are distinct and had not
been seen. With more seen from the start, the rules under other keys are the same. -/
structure Learned (seen : List Document.Key) (entries : List Document)
    (named : List (Document.Key × LearnedRule)) : Prop where
  nodup : (named.map Prod.fst).Nodup
  unseen : ∀ p ∈ named, p.1 ∉ seen
  gives : ∀ p ∈ named, ∃ e ∈ entries, Gives e p.1 p.2
  again : ∀ seen', seen ⊆ seen' → conventionsFrom origin seen' entries
    = .ok ((named.filter fun p => !seen'.contains p.1).map Prod.snd)

theorem Learned.nil (seen : List Document.Key) : Learned origin seen [] [] where
  nodup := List.nodup_nil
  unseen _ hp := absurd hp List.not_mem_nil
  gives _ hp := absurd hp List.not_mem_nil
  again _ _ := rfl

/-- In front of the entries may stand one that is dropped. -/
theorem Learned.dropped {entries : List Document} {named : List (Document.Key × LearnedRule)}
    (h : Learned origin seen entries named)
    (hseen : ∀ k, NamedAs k entry → ∃ k' ∈ seen, k = some k') :
    Learned origin seen (entry :: entries) named where
  nodup := h.nodup
  unseen := h.unseen
  gives p hp := by
    obtain ⟨e, he, hgives⟩ := h.gives p hp
    exact ⟨e, List.mem_cons_of_mem _ he, hgives⟩
  again seen' hsub := by
    have hdropped : conventionOf? origin seen' entry = .ok none := by
      refine conventionOf?_of_seen fun k hk => ?_
      obtain ⟨k', hk', heq⟩ := hseen k hk
      exact ⟨k', hsub hk', heq⟩
    rw [conventionsFrom, hdropped, ok_bind]
    exact h.again seen' hsub

/-- In front of the entries may stand one that gives a rule under a new key, which those behind it
have seen. -/
theorem Learned.cons {entries : List Document} {named : List (Document.Key × LearnedRule)}
    {k : Document.Key} {r : LearnedRule} (h : Learned origin (k :: seen) entries named)
    (hr : conventionOf? origin seen entry = .ok (some (k, r))) (hnew : k ∉ seen)
    (hgives : Gives entry k r) : Learned origin seen (entry :: entries) ((k, r) :: named) where
  nodup := by
    refine List.nodup_cons.mpr ⟨fun hmem => ?_, h.nodup⟩
    obtain ⟨p, hp, hpk⟩ := List.mem_map.mp hmem
    exact h.unseen p hp (hpk ▸ List.mem_cons_self)
  unseen := by
    refine List.forall_mem_cons.mpr ⟨hnew, fun p hp hmem => ?_⟩
    exact h.unseen p hp (List.mem_cons_of_mem _ hmem)
  gives := by
    refine List.forall_mem_cons.mpr ⟨⟨entry, List.mem_cons_self, hgives⟩, fun p hp => ?_⟩
    obtain ⟨e, he, hrest⟩ := h.gives p hp
    exact ⟨e, List.mem_cons_of_mem _ he, hrest⟩
  again seen' hsub := by
    rw [conventionsFrom]
    by_cases hk : k ∈ seen'
    · -- the entry is dropped, and its key has been seen by those behind it as well
      have hdropped : conventionOf? origin seen' entry = .ok none := by
        refine conventionOf?_of_seen fun k' hk' => ⟨k, hk, ?_⟩
        exact hk'.2.symm.trans hgives.namedAs.2
      rw [hdropped, ok_bind, List.filter_cons_of_neg (by simpa using hk)]
      exact h.again seen' (List.cons_subset.mpr ⟨hk, hsub⟩)
    · -- the rules behind have other keys, so it does not matter that `k` is seen there
      have hrest := h.again (k :: seen') (List.cons_subset_cons k hsub)
      have hfilter : (named.filter fun p => !(k :: seen').contains p.1)
          = named.filter fun p => !seen'.contains p.1 := by
        refine List.filter_congr fun p hp => ?_
        have hpk : p.1 ≠ k := fun heq => h.unseen p hp (List.mem_cons.mpr (.inl heq))
        rw [List.contains_cons, beq_false_of_ne hpk, Bool.false_or]
      rw [conventionOf?_of_unseen hr hk, ok_bind, List.filter_cons_of_pos (by simpa using hk)]
      dsimp only
      rw [hrest, hfilter]
      rfl

/-- **The rules that are learned have distinct and new keys.** -/
theorem exists_learned_of_eq_ok {entries : List Document} {new : List LearnedRule}
    (h : conventionsFrom origin seen entries = .ok new) :
    ∃ named, named.map Prod.snd = new ∧ Learned origin seen entries named := by
  -- for all `seen` at once, since a rule that is learned adds its key for those behind it
  induction entries generalizing seen new with
  | nil =>
      obtain rfl := Except.ok.inj h
      exact ⟨[], rfl, .nil seen⟩
  | cons entry rest ih =>
      rw [conventionsFrom] at h
      obtain ⟨hnone, hseen⟩ | ⟨k, r, hr, hnew, hgives⟩ | ⟨hfault, -⟩ | ⟨hfault, -⟩ :=
        conventionOf?_steps origin entry seen
      · rw [hnone, ok_bind] at h
        obtain ⟨named, hnamed, hlearned⟩ := ih h
        exact ⟨named, hnamed, hlearned.dropped hseen⟩
      · rw [hr, ok_bind] at h
        obtain ⟨more, hmore, h⟩ := bind_eq_ok.mp h
        obtain rfl := Except.ok.inj h
        obtain ⟨named, rfl, hlearned⟩ := ih hmore
        exact ⟨(k, r) :: named, rfl, hlearned.cons hr hnew hgives⟩
      · rw [hfault] at h
        cases h
      · rw [hfault] at h
        cases h

/-- The entries can be read: every id can be looked up, and one that comes with a huge confidence has
been seen or is that of an entry in front. -/
def Readable (seen : List Document.Key) (entries : List Document) : Prop :=
  (∀ e ∈ entries, ¬NamedAs none e) ∧
    ∀ before e after, entries = before ++ e :: after → LearnedRule.Overflows e →
      ∃ k, NamedAs (some k) e ∧ (k ∈ seen ∨ ∃ e' ∈ before, NamedAs (some k) e')

/-- An entry that is read adds its id to those that have been seen. -/
theorem readable_cons {rest : List Document} (hname : ¬NamedAs none entry)
    (hseen : ∀ k, k ∈ seen' ↔ k ∈ seen ∨ NamedAs (some k) entry)
    (hoverflows : LearnedRule.Overflows entry → ∃ k, NamedAs (some k) entry ∧ k ∈ seen) :
    Readable seen (entry :: rest) ↔ Readable seen' rest := by
  constructor
  · rintro ⟨hnames, hsplits⟩
    refine ⟨fun e he => hnames e (List.mem_cons_of_mem _ he), fun before e after hsplit he => ?_⟩
    obtain ⟨k, hk, hbefore⟩ := hsplits (entry :: before) e after (hsplit ▸ rfl) he
    refine ⟨k, hk, ?_⟩
    rcases hbefore with hold | ⟨e', he', hk'⟩
    · exact .inl ((hseen k).mpr (.inl hold))
    · rcases List.mem_cons.mp he' with rfl | he'
      · exact .inl ((hseen k).mpr (.inr hk'))
      · exact .inr ⟨e', he', hk'⟩
  · rintro ⟨hnames, hsplits⟩
    refine ⟨List.forall_mem_cons.mpr ⟨hname, hnames⟩, fun before e after hsplit he => ?_⟩
    cases before with
    | nil =>
        obtain ⟨rfl, -⟩ := List.cons.inj hsplit
        obtain ⟨k, hk, hold⟩ := hoverflows he
        exact ⟨k, hk, .inl hold⟩
    | cons first before =>
        obtain ⟨rfl, hrest⟩ := List.cons.inj hsplit
        obtain ⟨k, hk, hbefore⟩ := hsplits before e after hrest he
        refine ⟨k, hk, ?_⟩
        rcases hbefore with hold | ⟨e', he', hk'⟩
        · refine ((hseen k).mp hold).imp_right fun hentry => ?_
          exact ⟨entry, List.mem_cons_self, hentry⟩
        · exact .inr ⟨e', List.mem_cons_of_mem _ he', hk'⟩

theorem eq_of_namedAs {k k' : Option Document.Key} (h : NamedAs k entry) (h' : NamedAs k' entry) :
    k = k' :=
  h.2.symm.trans h'.2

theorem not_overflows_of_gives {k : Document.Key} {r : LearnedRule} (h : Gives entry k r) :
    ¬LearnedRule.Overflows entry := by
  intro hoverflows
  have hconfidence := h.confidence
  rw [confidenceOf_of_huge (overflows_iff.mp hoverflows).2] at hconfidence
  cases hconfidence

/-- **An answer gives rules, or none, exactly if its entries can be read.** -/
theorem exists_conventionsFrom_iff (entries : List Document) (seen : List Document.Key) :
    (∃ new, conventionsFrom origin seen entries = .ok new) ↔ Readable seen entries := by
  induction entries generalizing seen with
  | nil =>
      refine ⟨fun _ => ⟨nofun, fun before e after hsplit => ?_⟩, fun _ => ⟨[], rfl⟩⟩
      cases before <;> cases hsplit
  | cons entry rest ih =>
      rw [conventionsFrom]
      obtain ⟨hnone, hdrop⟩ | ⟨k, r, hr, hnew, hgives⟩ | ⟨hfault, hname⟩ |
          ⟨hfault, hoverflows, k, hname, hnew⟩ := conventionOf?_steps origin entry seen
      · -- dropped: what has been seen stays, and the entry cannot be the one that stops the answer
        rw [hnone, ok_bind]
        refine (ih seen).trans (readable_cons ?_ ?_ ?_).symm
        · intro hname
          obtain ⟨_, -, heq⟩ := hdrop _ hname
          cases heq
        · refine fun k => ⟨.inl, fun h => h.elim id fun hname => ?_⟩
          obtain ⟨k', hk', heq⟩ := hdrop _ hname
          cases heq
          exact hk'
        · intro hoverflows
          obtain ⟨k, hk, heq⟩ := hdrop _ ⟨hoverflows.1, rfl⟩
          exact ⟨k, ⟨hoverflows.1, heq⟩, hk⟩
      · rw [hr, ok_bind]
        have hmore : (∃ new, (do return r :: (← conventionsFrom origin (k :: seen) rest)) = .ok new)
            ↔ ∃ new, conventionsFrom origin (k :: seen) rest = .ok new := by
          constructor
          · rintro ⟨new, h⟩
            obtain ⟨more, hmore, -⟩ := bind_eq_ok.mp h
            exact ⟨more, hmore⟩
          · rintro ⟨more, hmore⟩
            rw [hmore]
            exact ⟨r :: more, rfl⟩
        refine hmore.trans ((ih (k :: seen)).trans (readable_cons ?_ ?_ ?_).symm)
        · intro hname
          cases eq_of_namedAs hname hgives.namedAs
        · intro k'
          rw [List.mem_cons, or_comm]
          refine or_congr_right ⟨fun heq => heq ▸ hgives.namedAs, fun hname => ?_⟩
          exact Option.some.inj (eq_of_namedAs hname hgives.namedAs)
        · exact fun hoverflows => absurd hoverflows (not_overflows_of_gives hgives)
      · rw [hfault]
        constructor
        · rintro ⟨_, h⟩
          cases h
        · exact fun hreadable => absurd hname (hreadable.1 entry List.mem_cons_self)
      · rw [hfault]
        constructor
        · rintro ⟨_, h⟩
          cases h
        · intro hreadable
          obtain ⟨k', hk', hold | ⟨e', he', -⟩⟩ := hreadable.2 [] entry rest rfl hoverflows
          · cases eq_of_namedAs hname hk'
            exact absurd hold hnew
          · exact absurd he' List.not_mem_nil

/-! ## An answer -/

theorem conventionsOf_eq (origin : Origin) (known : List String) (answer : Document) :
    conventionsOf origin known answer
      = conventionsFrom origin (known.map .text) (itemsOf answer) := by
  cases answer <;> rfl

/-- Is the key that of a text? -/
def isTextKey : Document.Key → Bool
  | .text _ => true
  | _ => false

/-- A rule whose id is looked up as a text has that text as its id. -/
theorem Gives.id_eq {s : String} {r : LearnedRule} (h : Gives entry (.text s) r) : r.id = s := by
  rw [h.id, isText_iff.mp (isText_iff_key?.mpr h.namedAs.2)]
  rfl

/-- Of the keys of learned rules those of texts are the ones that the texts of their ids are looked up
as. -/
theorem mem_map_text_iff {known : List String} {entries : List Document}
    {named : List (Document.Key × LearnedRule)}
    (hlearned : Learned origin (known.map .text) entries named) {p : Document.Key × LearnedRule}
    (hp : p ∈ named) :
    p.1 ∈ (known ++ (named.map Prod.snd).map (·.id)).map Document.Key.text ↔
      isTextKey p.1 = true := by
  obtain ⟨k, r⟩ := p
  obtain ⟨e, -, hgives⟩ := hlearned.gives _ hp
  constructor
  · intro hmem
    obtain ⟨s, -, rfl⟩ := List.mem_map.mp hmem
    rfl
  · intro htext
    cases k with
    | text s =>
        have hid : s ∈ (named.map Prod.snd).map (·.id) :=
          List.mem_map.mpr ⟨r, List.mem_map_of_mem hp, hgives.id_eq⟩
        exact List.mem_map_of_mem (List.mem_append_right known hid)
    | _ => cases htext

/-- **With the new ids known, the rules come again whose keys are no texts.** -/
theorem conventionsOf_again {known : List String} {answer : Document}
    {named : List (Document.Key × LearnedRule)}
    (hlearned : Learned origin (known.map .text) (itemsOf answer) named) :
    conventionsOf origin (known ++ (named.map Prod.snd).map (·.id)) answer
      = .ok ((named.filter fun p => !isTextKey p.1).map Prod.snd) := by
  have hsub : known.map Document.Key.text
      ⊆ (known ++ (named.map Prod.snd).map (·.id)).map Document.Key.text :=
    List.map_subset _ (List.subset_append_left ..)
  have hfilter : (named.filter fun p =>
        !((known ++ (named.map Prod.snd).map (·.id)).map Document.Key.text).contains p.1)
      = named.filter fun p => !isTextKey p.1 := by
    refine List.filter_congr fun p hp => congrArg (!·) ?_
    rw [Bool.eq_iff_iff, List.contains_iff_mem]
    exact mem_map_text_iff hlearned hp
  rw [conventionsOf_eq, hlearned.again _ hsub, hfilter]

/-- **Ids that are texts are new and distinct.** An answer gives rules exactly if its entries can be
read. Then every confidence is between zero and one, or was given as no number. The rules have
distinct keys, none of them a known id, and when the answer comes again with the new ids known, those
rules come again whose keys are no texts. So where the ids of complete entries are texts, the ids of
the rules are distinct and new, and no rule comes again. -/
theorem learned_ids_fresh (origin : Origin) (known : List String) (answer : Document) :
    ((∃ new, conventionsOf origin known answer = .ok new) ↔
      Readable (known.map .text) (itemsOf answer)) ∧
    ∀ new, conventionsOf origin known answer = .ok new →
      (∀ r ∈ new, InUnit r.confidence ∨ r.confidence = .nan ∧
        ∃ e ∈ itemsOf answer, (confidenceIn e).toDouble = .ok .nan) ∧
      (∃ named : List (Document.Key × LearnedRule), named.map Prod.snd = new ∧
        (named.map Prod.fst).Nodup ∧
        (∀ p ∈ named, p.1 ∉ known.map .text ∧ ∃ e ∈ itemsOf answer, Gives e p.1 p.2) ∧
        conventionsOf origin (known ++ new.map (·.id)) answer
          = .ok ((named.filter fun p => !isTextKey p.1).map Prod.snd)) ∧
      ((∀ e ∈ itemsOf answer, ∀ k, NamedAs k e → ∃ s, k = some (.text s)) →
        (new.map (·.id)).Nodup ∧ (∀ r ∈ new, r.id ∉ known) ∧
        conventionsOf origin (known ++ new.map (·.id)) answer = .ok []) := by
  refine ⟨conventionsOf_eq origin known answer ▸ exists_conventionsFrom_iff _ _, fun new hnew => ?_⟩
  rw [conventionsOf_eq] at hnew
  obtain ⟨named, rfl, hlearned⟩ := exists_learned_of_eq_ok hnew
  have hagain := conventionsOf_again hlearned
  refine ⟨fun r hr => ?_, ⟨named, rfl, hlearned.nodup, ?_, hagain⟩, fun htexts => ?_⟩
  · obtain ⟨p, hp, rfl⟩ := List.mem_map.mp hr
    obtain ⟨e, he, hgives⟩ := hlearned.gives p hp
    exact (confidence_cases hgives.confidence).imp_right fun ⟨hnan, hgiven⟩ => ⟨hnan, e, he, hgiven⟩
  · exact fun p hp => ⟨hlearned.unseen p hp, hlearned.gives p hp⟩
  -- where the keys are texts, they are the ids of the rules
  have hkey : ∀ p ∈ named, p.1 = .text p.2.id := by
    rintro ⟨k, r⟩ hp
    obtain ⟨e, he, hgives⟩ := hlearned.gives _ hp
    obtain ⟨s, hs⟩ := htexts e he _ hgives.namedAs
    obtain rfl := Option.some.inj hs
    exact congrArg Document.Key.text hgives.id_eq.symm
  have hkeys : named.map Prod.fst = ((named.map Prod.snd).map (·.id)).map Document.Key.text := by
    rw [List.map_map, List.map_map]
    exact List.map_congr_left hkey
  refine ⟨(hkeys ▸ hlearned.nodup).of_map, fun r hr hknown => ?_, ?_⟩
  · obtain ⟨p, hp, rfl⟩ := List.mem_map.mp hr
    exact hlearned.unseen p hp (hkey p hp ▸ List.mem_map_of_mem hknown)
  · have hnone : (named.filter fun p => !isTextKey p.1) = [] := by
      refine List.filter_eq_nil_iff.mpr fun p hp => ?_
      rw [hkey p hp]
      exact Bool.false_ne_true
    rw [hagain, hnone]
    rfl

/-- A convention with the given id and confidence. -/
def proposal (id confidence : Document) : Document :=
  .ofFields [("id", id), ("scope", .text "**/*.py"), ("pattern", .text "open("),
    ("confidence", confidence)]

/-- An answer with a known convention and with a new one that comes twice. -/
def proposals : Document :=
  .list [proposal (.text "close-files") (.int 1), proposal (.text "wrap-errors") (.int 3),
    proposal (.text "wrap-errors") (.int 0)]

/-- The new one is learned once, and not again. -/
theorem learned_ids_fresh_sample :
    ∃ new, conventionsOf mergedSeven ["close-files"] proposals = .ok new ∧
      new.map (·.id) = ["wrap-errors"] ∧ (new.map (·.id)).Nodup ∧
      (∀ r ∈ new, r.id ∉ ["close-files"]) ∧
      conventionsOf mergedSeven ["close-files", "wrap-errors"] proposals = .ok [] := by
  have htexts : ∀ e ∈ itemsOf proposals, ∀ k, NamedAs k e → ∃ s, k = some (.text s) := by
    intro e he k hk
    simp only [proposals, itemsOf, List.mem_cons, List.not_mem_nil, or_false] at he
    rcases he with rfl | rfl | rfl
    · exact ⟨"close-files", hk.2.symm⟩
    · exact ⟨"wrap-errors", hk.2.symm⟩
    · exact ⟨"wrap-errors", hk.2.symm⟩
  obtain ⟨-, hlearned⟩ := learned_ids_fresh mergedSeven ["close-files"] proposals
  obtain ⟨new, hnew, hids⟩ : ∃ new, conventionsOf mergedSeven ["close-files"] proposals = .ok new ∧
      new.map (·.id) = ["wrap-errors"] := ⟨_, rfl, rfl⟩
  obtain ⟨-, -, hfresh⟩ := hlearned new hnew
  obtain ⟨hnodup, hunknown, hagain⟩ := hfresh htexts
  rw [hids] at hagain
  exact ⟨new, hnew, hids, hnodup, hunknown, hagain⟩

/-- **Ids that are no texts are neither new nor distinct.** The number seven is learned although the
id `7` is known, and beside the text `7`; a list is not even looked up; and a confidence that is
given as no number stays so. -/
theorem learned_ids_repeat :
    (∃ new, conventionsOf mergedSeven ["7"] (.list [proposal (.int 7) (.int 1)]) = .ok new ∧
      new.map (·.id) = ["7"]) ∧
    (∃ new, conventionsOf mergedSeven []
        (.list [proposal (.int 7) (.int 1), proposal (.text "7") (.int 1)]) = .ok new ∧
      new.map (·.id) = ["7", "7"]) ∧
    conventionsOf mergedSeven [] (.list [proposal (.list [.int 7]) (.int 1)]) = .error .wrongKind ∧
    ∃ new, conventionsOf mergedSeven [] (.list [proposal (.text "7") (.text "nan")]) = .ok new ∧
      new.map (·.confidence) = [.nan] :=
  ⟨⟨_, rfl, rfl⟩, ⟨_, rfl, rfl⟩, rfl, _, rfl, rfl⟩

end Mining

end ReviewGate
