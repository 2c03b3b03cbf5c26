import Mathlib.Data.List.Basic
import Mathlib.Data.List.Induction
import ReviewGate.Hub.Pull
import ReviewGate.Proofs.Sequence

/-!
# `ReviewGate.Proofs.Hub.Verdict` — verdicts of several runs on one pull request

Each run that posts a review looks back at the newest signed review and asks the hub to dismiss it
if it is a verdict in force. Older ones are not looked at. That is enough: an older signed review
that is still in force was the newest one when the next was posted, so a dismissal of it has been
refused then. The invariant counts these (`Thread.Orderly`), and a step keeps it because a post
changes at most one review, the newest signed one (`postReview_of_split`).

## Contents
- `Activity`, `Thread`, `Thread.after`: what happens to the reviews of a pull request.
- `isSigned_of_ofAnalysis`: every review that tells of an analysis bears the signature.
- `split_at_newest`, `postReview_of_split`, `postReview_of_unsigned`: what a post changes.
- `PostedReview.stamp`, `foreignReviews`, `overdue`: what a post keeps and what it may add to.
- `Thread.Orderly`, `Thread.Orderly.after`: the invariant and its step.
- `one_verdict_in_force`: a whole run; `map_state_threePosts`: its bound is reached.
-/

namespace ReviewGate

open Diff

/-! ## What happens to reviews -/

/-- Something that happens to the reviews of a pull request. -/
inductive Activity
  /-- Somebody else adds a review, which does not bear the signature. -/
  | remark (r : PostedReview) (unsigned : r.isSigned = false)
  /-- The review that tells of an analysis is posted under an id; `refused` says whether the hub
  refuses to dismiss reviews at that moment. -/
  | post (id : Document) (a : Analysis) (files : List ChangedFile) (e : Enforcement)
      (review : Review) (tells : Review.ofAnalysis a files e = .ok review) (refused : Bool)

namespace Activity

/-- The review that somebody else adds. -/
def foreign? : Activity → Option PostedReview
  | .remark r _ => some r
  | .post .. => none

/-- The review that is posted, with its id. -/
def posted? : Activity → Option (Document × Review)
  | .remark .. => none
  | .post id _ _ _ review _ _ => some (id, review)

theorem filterMap_posted?_remark (acts : List Activity) (r : PostedReview)
    (unsigned : r.isSigned = false) :
    (acts ++ [remark r unsigned]).filterMap posted? = acts.filterMap posted? := by
  rw [List.filterMap_append]
  exact List.append_nil _

end Activity

/-- The reviews of a pull request, the oldest first; what the hub has been asked to do about them;
and how many dismissals it has refused. -/
structure Thread where
  reviews : List PostedReview
  calls : List HubCall
  refusals : Nat

/-- The review while the hub refuses to dismiss signed ones, or does not. -/
def PostedReview.while (refused : Bool) (r : PostedReview) : PostedReview :=
  if r.isSigned then { r with isFixed := refused } else r

/-- The thread after something has happened. -/
def Thread.after (t : Thread) : Activity → Thread
  | .remark r _ => { t with reviews := t.reviews ++ [r] }
  | .post id _ _ _ review _ refused =>
      let reviews := t.reviews.map (PostedReview.while refused)
      { reviews := postReview reviews id review
        calls := t.calls ++ postingCalls reviews review
        refusals := t.refusals +
          if refused && (supersededReview? reviews).isSome then 1 else 0 }

/-- Does the request create a review? -/
def HubCall.isCreate : HubCall → Bool
  | .create _ => true
  | _ => false

/-! ## The signature -/

theorem occursIn_append (front cs : List Char) : Text.occursIn front (front ++ cs) = true := by
  cases h : front ++ cs with
  | nil =>
      obtain ⟨rfl, _⟩ := List.append_eq_nil_iff.mp h
      rfl
  | cons c rest =>
      have hfront : front.isPrefixOf (c :: rest) = true :=
        h ▸ List.isPrefixOf_iff_prefix.mpr (List.prefix_append front cs)
      rw [Text.occursIn, hfront, Bool.true_or]

/-- Joined lines begin with the first of them. -/
theorem toList_joinLines_cons (l : String) (ls : List String) :
    ∃ cs, (Text.joinLines (l :: ls)).toList = l.toList ++ cs := by
  cases ls with
  | nil => exact ⟨[], by simp [Text.joinLines]⟩
  | cons k ls =>
      exact ⟨'\n' :: List.intercalate ['\n'] (k.toList :: ls.map String.toList), by
        simp [Text.joinLines, List.intercalate_cons_cons]⟩

/-- Lines that are texts begin with the first of them. -/
theorem exists_cons_of_mapM_asText {first : String} {docs : List Document} {lines : List String}
    (h : (Document.text first :: docs).mapM asText = .ok lines) :
    ∃ rest, lines = first :: rest := by
  rw [List.mapM_cons] at h
  obtain ⟨l, hl, h⟩ := bind_eq_ok.mp h
  obtain ⟨rest, -, h⟩ := bind_eq_ok.mp h
  obtain rfl : first = l := Except.ok.inj hl
  exact ⟨rest, (Except.ok.inj h).symm⟩

/-- **Every review that tells of an analysis bears the signature.** -/
theorem isSigned_of_ofAnalysis {a : Analysis} {files : List ChangedFile} {e : Enforcement}
    {review : Review} (h : Review.ofAnalysis a files e = .ok review) (id : Document) (state : String)
    (fixed : Bool) : (PostedReview.mk id review.body state fixed).isSigned = true := by
  obtain ⟨body, hbody, hreview⟩ := bind_eq_ok.mp h
  obtain ⟨middle, _, hjoin⟩ := bind_eq_ok.mp hbody
  obtain ⟨lines, hlines, hjoin⟩ := bind_eq_ok.mp hjoin
  have htext : review.body = body := by rw [← Except.ok.inj hreview]
  obtain ⟨rest, rfl⟩ := exists_cons_of_mapM_asText hlines
  obtain ⟨cs, hcs⟩ := toList_joinLines_cons signature rest
  have hlist : body.toList = signature.toList ++ cs := by
    rw [← hcs, ← Except.ok.inj hjoin]
  rw [PostedReview.isSigned, Text.contains, htext, hlist]
  exact occursIn_append _ _

/-! ## What a post changes -/

/-- The review after the hub has been asked to dismiss it, if it is a verdict in force. -/
def PostedReview.withdrawn (r : PostedReview) : PostedReview :=
  if r.isLive && !r.isFixed then { r with state := "DISMISSED" } else r

/-- Either no review is signed, or there is a newest one that is. -/
theorem split_at_newest (reviews : List PostedReview) :
    (∀ r ∈ reviews, r.isSigned = false) ∨
      ∃ front r back, reviews = front ++ r :: back ∧ r.isSigned = true ∧
        ∀ q ∈ back, q.isSigned = false := by
  cases h : reviews.reverse.find? (·.isSigned) with
  | none =>
      refine Or.inl fun r hr => ?_
      have hnot := List.find?_eq_none.mp h r (List.mem_reverse.mpr hr)
      exact Bool.eq_false_iff.mpr hnot
  | some r =>
      obtain ⟨hsigned, newer, older, hsplit, hnewer⟩ := List.find?_eq_some_iff_append.mp h
      refine Or.inr ⟨older.reverse, r, newer.reverse, ?_, hsigned, fun q hq => ?_⟩
      · rw [← List.reverse_reverse reviews, hsplit]
        simp
      · simpa using hnewer q (List.mem_reverse.mp hq)

theorem dismissNewest_of_unsigned {reviews : List PostedReview}
    (h : ∀ r ∈ reviews, r.isSigned = false) : dismissNewest reviews = reviews := by
  induction reviews with
  | nil => rfl
  | cons r rest ih =>
      rw [dismissNewest, h r (List.mem_cons_self ..), if_neg Bool.false_ne_true,
        ih fun q hq => h q (List.mem_cons_of_mem _ hq)]

theorem dismissNewest_append {newer older : List PostedReview} {r : PostedReview}
    (hr : r.isSigned = true) (h : ∀ q ∈ newer, q.isSigned = false) :
    dismissNewest (newer ++ r :: older) = newer ++ r.withdrawn :: older := by
  induction newer with
  | nil => exact if_pos hr
  | cons q rest ih =>
      rw [List.cons_append, dismissNewest, h q (List.mem_cons_self ..), if_neg Bool.false_ne_true,
        ih fun p hp => h p (List.mem_cons_of_mem _ hp)]
      rfl

section

variable {front back reviews : List PostedReview} {r : PostedReview}

/-- Where no review is signed, a post only adds one. -/
theorem postReview_of_unsigned (h : ∀ q ∈ reviews, q.isSigned = false) (id : Document)
    (review : Review) :
    postReview reviews id review = reviews ++ [⟨id, review.body, review.event.state, false⟩] := by
  rw [postReview, dismissNewest_of_unsigned fun q hq => h q (List.mem_reverse.mp hq),
    List.reverse_reverse]

variable (hr : r.isSigned = true) (hback : ∀ q ∈ back, q.isSigned = false)
include hr hback

/-- **A post withdraws the newest signed review and adds one.** All others stay what they are. -/
theorem postReview_of_split (id : Document) (review : Review) :
    postReview (front ++ r :: back) id review
      = front ++ r.withdrawn :: back ++ [⟨id, review.body, review.event.state, false⟩] := by
  have hreverse : (front ++ r :: back).reverse = back.reverse ++ r :: front.reverse := by simp
  rw [postReview, hreverse,
    dismissNewest_append hr fun q hq => hback q (List.mem_reverse.mp hq)]
  simp

theorem supersededReview?_of_split :
    supersededReview? (front ++ r :: back) = if r.isLive then some r else none := by
  have hnewest : existingReview? (front ++ r :: back) = some r :=
    List.find?_eq_some_iff_append.mpr ⟨hr, back.reverse, front.reverse, by simp,
      fun q hq => by simp [hback q (List.mem_reverse.mp hq)]⟩
  rw [supersededReview?, hnewest, Option.filter_some]

end

/-! ## What stays -/

namespace PostedReview

/-- What a review says and the id it stands under; neither changes once it stands. -/
def stamp (r : PostedReview) : Document × String := (r.id, r.body)

theorem isSigned_congr {r q : PostedReview} (h : r.stamp = q.stamp) :
    r.isSigned = q.isSigned := by
  rw [isSigned, isSigned, (Prod.mk.inj h).2]

theorem map_stamp_filter (reviews : List PostedReview) :
    (reviews.filter (·.isSigned)).map stamp
      = (reviews.map stamp).filter fun p => Text.contains p.2 signature := by
  rw [List.filter_map]
  rfl

variable (refused : Bool) (r : PostedReview)

@[simp] theorem withdrawn_stamp : r.withdrawn.stamp = r.stamp := by
  unfold withdrawn; split <;> rfl

@[simp] theorem while_stamp : (r.while refused).stamp = r.stamp := by
  unfold PostedReview.while; split <;> rfl

@[simp] theorem withdrawn_isSigned : r.withdrawn.isSigned = r.isSigned :=
  isSigned_congr (withdrawn_stamp r)

@[simp] theorem while_isSigned : (r.while refused).isSigned = r.isSigned :=
  isSigned_congr (while_stamp refused r)

@[simp] theorem while_isLive : (r.while refused).isLive = r.isLive := by
  unfold PostedReview.while; split <;> rfl

/-- A review that the hub has been asked to dismiss is in force if it was and the hub refused. -/
theorem withdrawn_isLive : r.withdrawn.isLive = (r.isLive && r.isFixed) := by
  unfold withdrawn
  cases hlive : r.isLive <;> cases hfixed : r.isFixed
  case true.false => rfl
  all_goals exact hlive

end PostedReview

/-- The reviews that somebody else has added. -/
def foreignReviews (reviews : List PostedReview) : List PostedReview :=
  reviews.filter (!·.isSigned)

/-- How many signed reviews other than the newest are verdicts in force. -/
def overdue (reviews : List PostedReview) : Nat :=
  (reviews.filter (·.isSigned)).dropLast.countP (·.isLive)

section

variable (refused : Bool) (reviews : List PostedReview)

theorem foreignReviews_while :
    foreignReviews (reviews.map (PostedReview.while refused)) = foreignReviews reviews := by
  have hkept : ∀ r ∈ foreignReviews reviews, r.while refused = r := fun r hr => by
    have hunsigned : r.isSigned = false := by simpa using (List.mem_filter.mp hr).2
    exact if_neg (by simp [hunsigned])
  have hpred : (fun r : PostedReview => !r.isSigned) ∘ PostedReview.while refused
      = fun r => !r.isSigned := by
    funext r
    simp
  rw [foreignReviews, List.filter_map, hpred]
  exact (List.map_congr_left hkept).trans (List.map_id' _)

theorem overdue_while : overdue (reviews.map (PostedReview.while refused)) = overdue reviews := by
  have hsigned : (·.isSigned) ∘ PostedReview.while refused = (·.isSigned) := by
    funext r
    simp
  have hlive : (·.isLive) ∘ PostedReview.while refused = (·.isLive) := by
    funext r
    simp
  rw [overdue, List.filter_map, hsigned, ← List.map_dropLast, List.countP_map, hlive, overdue]

end

section

variable (reviews : List PostedReview) (id : Document) (review : Review)

/-- **A post keeps every review's text and id, and adds exactly one review.** -/
theorem map_stamp_postReview :
    (postReview reviews id review).map PostedReview.stamp
      = reviews.map PostedReview.stamp ++ [(id, review.body)] := by
  obtain hnone | ⟨front, r, back, rfl, hr, hback⟩ := split_at_newest reviews
  · simp [postReview_of_unsigned hnone, PostedReview.stamp]
  · have hadded : (PostedReview.mk id review.body review.event.state false).stamp
        = (id, review.body) := rfl
    simp [postReview_of_split hr hback, hadded]

variable (hnew : ∀ state fixed, (PostedReview.mk id review.body state fixed).isSigned = true)
include hnew

/-- **A signed post leaves the reviews of others as they are.** -/
theorem foreignReviews_postReview :
    foreignReviews (postReview reviews id review) = foreignReviews reviews := by
  obtain hnone | ⟨front, r, back, rfl, hr, hback⟩ := split_at_newest reviews
  · simp [foreignReviews, postReview_of_unsigned hnone, hnew]
  · simp [foreignReviews, postReview_of_split hr hback, hnew, hr]

/-- **A signed post leaves at most one more signed verdict in force, and only if the hub refuses
to dismiss it.** -/
theorem overdue_postReview_le {refused : Bool}
    (hfixed : ∀ r ∈ reviews, r.isSigned = true → r.isFixed = refused) :
    overdue (postReview reviews id review)
      ≤ overdue reviews + if refused && (supersededReview? reviews).isSome then 1 else 0 := by
  obtain hnone | ⟨front, r, back, rfl, hr, hback⟩ := split_at_newest reviews
  · have hsigned : reviews.filter (·.isSigned) = [] :=
      List.filter_eq_nil_iff.mpr fun q hq => by simp [hnone q hq]
    simp [overdue, postReview_of_unsigned hnone, hsigned, hnew]
  · have hsigned : back.filter (·.isSigned) = [] :=
      List.filter_eq_nil_iff.mpr fun q hq => by simp [hback q hq]
    have hbefore : overdue (front ++ r :: back) = (front.filter (·.isSigned)).countP (·.isLive) := by
      simp [overdue, hsigned, hr]
    have hafter : overdue (postReview (front ++ r :: back) id review)
        = (front.filter (·.isSigned)).countP (·.isLive) + [r.withdrawn].countP (·.isLive) := by
      rw [← List.countP_append, postReview_of_split hr hback]
      simp [overdue, hsigned, hnew, hr, -List.append_assoc]
    have hlive : r.withdrawn.isLive = (r.isLive && refused) := by
      rw [r.withdrawn_isLive, hfixed r (by simp) hr]
    rw [hbefore, hafter, supersededReview?_of_split hr hback, List.countP_singleton, hlive]
    cases r.isLive <;> cases refused <;> simp

end

theorem postingCalls_filter_isCreate (reviews : List PostedReview) (review : Review) :
    (postingCalls reviews review).filter HubCall.isCreate = [.create review] := by
  cases h : supersededReview? reviews <;> simp [postingCalls, h, HubCall.isCreate]

/-- Only a signed review is asked to be dismissed. -/
theorem exists_isSigned_of_dismiss_mem {reviews : List PostedReview} {review : Review}
    {id : Document} {message : String} (h : HubCall.dismiss id message ∈ postingCalls reviews review) :
    ∃ r ∈ reviews, r.isSigned = true ∧ r.id = id := by
  obtain ⟨r, hr, hcall⟩ : ∃ r, supersededReview? reviews = some r ∧
      HubCall.dismiss r.id dismissal = .dismiss id message := by
    simpa [postingCalls] using h
  have hnewest : reviews.reverse.find? (·.isSigned) = some r := (Option.filter_eq_some_iff.mp hr).1
  exact ⟨r, List.mem_reverse.mp (List.mem_of_find?_eq_some hnewest),
    List.find?_some hnewest, (HubCall.dismiss.inj hcall).1⟩

/-! ## A whole run -/

/-- What holds of a pull request that started with the reviews `before`, after `acts`. -/
structure Thread.Orderly (before : List PostedReview) (acts : List Activity) (t : Thread) :
    Prop where
  /-- Each signed review in force that is not the newest has cost a refusal. -/
  overdue_le : overdue t.reviews ≤ t.refusals
  /-- The signed reviews are the posted ones, each once and in order. -/
  posted : (t.reviews.filter (·.isSigned)).map PostedReview.stamp
    = (acts.filterMap Activity.posted?).map fun p => (p.1, p.2.body)
  /-- Each post asks for one review. -/
  created : t.calls.filter HubCall.isCreate
    = (acts.filterMap Activity.posted?).map fun p => .create p.2
  /-- The reviews of others are as they came. -/
  foreign : foreignReviews t.reviews = before ++ acts.filterMap Activity.foreign?
  /-- What the hub is asked to dismiss is signed. -/
  dismissed : ∀ id message, HubCall.dismiss id message ∈ t.calls →
    ∃ r ∈ t.reviews, r.isSigned = true ∧ r.id = id

namespace Thread

/-- What happens leaves the texts and ids that stand, and adds those of one review. -/
theorem map_stamp_after_post (t : Thread) (id : Document) {a : Analysis}
    {files : List ChangedFile} {e : Enforcement} {review : Review} (tells : Review.ofAnalysis a files e = .ok review)
    (refused : Bool) :
    (t.after (.post id a files e review tells refused)).reviews.map PostedReview.stamp
      = t.reviews.map PostedReview.stamp ++ [(id, review.body)] := by
  have hkept : PostedReview.stamp ∘ PostedReview.while refused = PostedReview.stamp :=
    funext fun r => r.while_stamp refused
  rw [after, map_stamp_postReview, List.map_map, hkept]

variable {before : List PostedReview} {acts : List Activity} {t : Thread}

theorem Orderly.after_remark (h : t.Orderly before acts) (r : PostedReview)
    (unsigned : r.isSigned = false) :
    (t.after (.remark r unsigned)).Orderly before (acts ++ [.remark r unsigned]) where
  overdue_le := by simpa [after, overdue, unsigned] using h.overdue_le
  posted := by
    rw [Activity.filterMap_posted?_remark]
    simpa [after, unsigned] using h.posted
  created := by
    rw [Activity.filterMap_posted?_remark]
    exact h.created
  foreign := by
    have hforeign := h.foreign
    rw [foreignReviews] at hforeign
    simp [after, foreignReviews, Activity.foreign?, unsigned, hforeign]
  dismissed id message hcall := by
    obtain ⟨q, hq, hsigned⟩ := h.dismissed id message hcall
    exact ⟨q, List.mem_append_left _ hq, hsigned⟩

theorem Orderly.after_post (h : t.Orderly before acts) {id : Document} {a : Analysis}
    {files : List ChangedFile} {e : Enforcement} {review : Review}
    (tells : Review.ofAnalysis a files e = .ok review) (refused : Bool) :
    (t.after (.post id a files e review tells refused)).Orderly before
      (acts ++ [.post id a files e review tells refused]) := by
  have hnew := isSigned_of_ofAnalysis tells id
  have hstamps := map_stamp_after_post t id tells refused
  refine ⟨?_, ?_, ?_, ?_, fun id' message hcall => ?_⟩
  · have hfixed : ∀ r ∈ t.reviews.map (PostedReview.while refused),
        r.isSigned = true → r.isFixed = refused := by
      intro r hr hsigned
      obtain ⟨q, _, rfl⟩ := List.mem_map.mp hr
      rw [PostedReview.while, if_pos (PostedReview.while_isSigned refused q ▸ hsigned)]
    calc overdue (postReview (t.reviews.map (PostedReview.while refused)) id review)
        ≤ overdue (t.reviews.map (PostedReview.while refused)) + _ :=
          overdue_postReview_le _ id review hnew hfixed
      _ ≤ t.refusals + _ := by
          rw [overdue_while]
          exact Nat.add_le_add_right h.overdue_le _
  · have hsigned : Text.contains review.body signature = true := hnew review.event.state false
    rw [PostedReview.map_stamp_filter, hstamps, List.filter_append,
      ← PostedReview.map_stamp_filter, h.posted]
    simp [Activity.posted?, hsigned]
  · simp [after, h.created, postingCalls_filter_isCreate, Activity.posted?]
  · simp [after, foreignReviews_postReview _ id review hnew, foreignReviews_while, h.foreign,
      Activity.foreign?]
  · have hstands : ∃ r ∈ t.reviews, r.isSigned = true ∧ r.id = id' := by
      obtain hold | hnow := List.mem_append.mp hcall
      · exact h.dismissed id' message hold
      · obtain ⟨r, hr, hsigned, hid⟩ := exists_isSigned_of_dismiss_mem hnow
        obtain ⟨q, hq, rfl⟩ := List.mem_map.mp hr
        have hstamp := q.while_stamp refused
        exact ⟨q, hq, PostedReview.while_isSigned refused q ▸ hsigned,
          (Prod.mk.inj hstamp).1 ▸ hid⟩
    obtain ⟨r, hr, hsigned, rfl⟩ := hstands
    have hmem : r.stamp ∈ (t.after (.post id a files e review tells refused)).reviews.map
        PostedReview.stamp := by
      rw [hstamps]
      exact List.mem_append_left _ (List.mem_map_of_mem hr)
    obtain ⟨q, hq, hstamp⟩ := List.mem_map.mp hmem
    exact ⟨q, hq, (PostedReview.isSigned_congr hstamp).trans hsigned, (Prod.mk.inj hstamp).1⟩

/-- **The invariant survives whatever happens.** -/
theorem Orderly.after (h : t.Orderly before acts) (act : Activity) :
    (t.after act).Orderly before (acts ++ [act]) := by
  cases act with
  | remark r unsigned => exact h.after_remark r unsigned
  | post id a files e review tells refused => exact h.after_post tells refused

/-- The start of a run. -/
theorem Orderly.start (hbefore : ∀ r ∈ before, r.isSigned = false) :
    Orderly before [] ⟨before, [], 0⟩ := by
  have hsigned : before.filter (·.isSigned) = [] :=
    List.filter_eq_nil_iff.mpr fun r hr => by simp [hbefore r hr]
  have hforeign : before.filter (!·.isSigned) = before :=
    List.filter_eq_self.mpr fun r hr => by simp [hbefore r hr]
  refine ⟨?_, ?_, rfl, ?_, fun _ _ hcall => nomatch hcall⟩
  · simp [overdue, hsigned]
  · simp [hsigned]
  · simp [foreignReviews, hforeign]

end Thread

/-- **At most one verdict of ours is in force on a pull request.** Whatever happens to a pull
request that starts without signed reviews: of the signed reviews other than the newest, no more
are in force than the hub has refused to dismiss; each post has created exactly one review; and the
reviews of others are never touched, nor asked to be dismissed. -/
theorem one_verdict_in_force {before : List PostedReview}
    (hbefore : ∀ r ∈ before, r.isSigned = false) (acts : List Activity) :
    (acts.foldl Thread.after ⟨before, [], 0⟩).Orderly before acts := by
  induction acts using List.reverseRecOn with
  | nil => exact Thread.Orderly.start hbefore
  | append_singleton acts act ih =>
      rw [List.foldl_append]
      exact ih.after act

/-! ## The bound is reached -/

section

variable {a : Analysis} {files : List ChangedFile} {e : Enforcement} {review : Review}
  (tells : Review.ofAnalysis a files e = .ok review) {r : PostedReview}
  (unsigned : r.isSigned = false)

/-- A review posted three times, with somebody else's before the last; the hub refuses to dismiss
the first. -/
def threePosts : List Activity :=
  [.post (.int 1) a files e review tells false, .post (.int 2) a files e review tells true,
    .remark r unsigned, .post (.int 3) a files e review tells false]

/-- The first and the last of three approvals are in force if the hub refuses to dismiss the
first. -/
theorem map_state_threePosts (happrove : review.event = .approve) :
    ((threePosts tells unsigned).foldl Thread.after ⟨[r], [], 0⟩).reviews.map (·.state)
      = [r.state, "APPROVED", "DISMISSED", r.state, "APPROVED"] := by
  have hsigned := isSigned_of_ofAnalysis tells
  simp [threePosts, Thread.after, PostedReview.while, postReview, dismissNewest,
    PostedReview.isLive, hsigned, happrove, ReviewEvent.state, unsigned]

end

/-- An analysis that found nothing. -/
def quietAnalysis : Analysis := synthesize [] 6 ⟨0, 0⟩

/-- The review that tells of it. -/
def quietReview : Review where
  body := Text.joinLines [signature, "## Review summary\n", s!"> {quietAnalysis.summary}\n",
    "No issues found. The changes look consistent with the repository policy.\n",
    costLine quietAnalysis]
  comments := []
  event := .approve

theorem ofAnalysis_quietAnalysis :
    Review.ofAnalysis quietAnalysis [] Enforcement.default = .ok quietReview := by
  cbv

/-- A review by somebody else. -/
def praise : PostedReview := ⟨.int 0, "Looks good.", "APPROVED", false⟩

theorem praise_unsigned : praise.isSigned = false := by decide +kernel

/-- Of three approvals, the one that the hub refuses to dismiss and the last stay in force. -/
theorem one_verdict_in_force_sample :
    let acts := threePosts ofAnalysis_quietAnalysis praise_unsigned
    let t := acts.foldl Thread.after ⟨[praise], [], 0⟩
    t.Orderly [praise] acts ∧
      t.reviews.map (·.state) = ["APPROVED", "APPROVED", "DISMISSED", "APPROVED", "APPROVED"] :=
  ⟨one_verdict_in_force (fun _ hr => List.mem_singleton.mp hr ▸ praise_unsigned) _,
    map_state_threePosts ofAnalysis_quietAnalysis praise_unsigned rfl⟩

end ReviewGate
