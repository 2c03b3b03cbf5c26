import ReviewGate.Review.Basic
import ReviewGate.Text.Search
import ReviewGate.Text.Utf8

/-!
# `ReviewGate.Hub` — pull requests and their reviews

## Contents
- `PostedReview`, `Pull`, `Hub`: what a hub holds of a repository.
- `Hub.fetch`: the texts of files at a commit.
- `Pull.remarks`: the review comments of a pull request.
- `existingReview?`: the newest review that bears the signature.
- `HubCall`: a request to the hub.
- `postReview`: a review posted, with the verdict before it withdrawn.
-/

namespace ReviewGate

open Text

/-- A review that stands on a pull request. -/
structure PostedReview where
  id : Document
  body : String
  state : String
  /-- Will the hub refuse to dismiss it? -/
  isFixed : Bool
deriving Repr

/-- A pull request. -/
structure Pull where
  title : String
  isDraft : Bool
  isMerged : Bool
  mergedAt : Document
  headSha : String
  /-- Records with file name, status and patch. -/
  files : List Document
  /-- Records with path, line, body and the line the comment was made on. -/
  comments : List Document
  reviews : List PostedReview
deriving Repr

/-- A repository on the hub: its pull requests by number and its files; directories have no
bytes. -/
structure Hub where
  pulls : List (Int × Pull)
  files : List (String × Option (List UInt8))
deriving Repr

namespace Hub

/-- The repository without anything. -/
def empty : Hub := ⟨[], []⟩

/-- The pull request with the given number. -/
def pull? (h : Hub) (number : Int) : Option Pull := h.pulls.lookup number

/-- The text of the file at a path, with replacements for what is no text. -/
def fetch (h : Hub) (path : String) : Option String :=
  match h.files.lookup path with
  | some (some data) => some (Utf8.decodeLossy data)
  | _ => none

end Hub

/-! ## Comments -/

/-- The path, line and body of a review comment. A comment whose line has left the change keeps the
line it was made on. -/
def remarkOf (comment : Document) : Document :=
  let get (name : String) : Document :=
    match comment with
    | .map entries => (Document.lookup name entries).getD .null
    | _ => .null
  let line := if (get "line").isNull then get "original_line" else get "line"
  .ofFields [("path", get "path"), ("line", line), ("body", (get "body").orElse (.text ""))]

/-- The review comments of a pull request. -/
def Pull.remarks (p : Pull) : List Document := p.comments.map remarkOf

/-! ## Reviews -/

/-- Does the review bear the signature? -/
def PostedReview.isSigned (r : PostedReview) : Bool := contains r.body signature

/-- Is the review a verdict in force? -/
def PostedReview.isLive (r : PostedReview) : Bool :=
  r.state == "APPROVED" || r.state == "CHANGES_REQUESTED"

/-- The newest review that bears the signature. -/
def existingReview? (reviews : List PostedReview) : Option PostedReview :=
  reviews.reverse.find? (·.isSigned)

/-- A request to the hub. -/
inductive HubCall
  | openRepository (name : String) (token : Document)
  | listPulls
  | download (path commit : String)
  | dismiss (id : Document) (message : String)
  | create (review : Review)
deriving Repr

/-- What is said when a verdict is withdrawn. -/
def dismissal : String := "Superseded by an updated patchwarden review."

/-- The newest signed review, if it is a verdict in force. -/
def supersededReview? (reviews : List PostedReview) : Option PostedReview :=
  (existingReview? reviews).filter (·.isLive)

/-- The requests that post a review: a signed verdict before it is withdrawn first. -/
def postingCalls (reviews : List PostedReview) (review : Review) : List HubCall :=
  ((supersededReview? reviews).map fun r => HubCall.dismiss r.id dismissal).toList ++
    [.create review]

/-- The state that a review is created in. -/
def ReviewEvent.state : ReviewEvent → String
  | .approve => "APPROVED"
  | .comment => "COMMENTED"
  | .requestChanges => "CHANGES_REQUESTED"

/-- The reviews, newest first, after the newest signed one has been dismissed, unless it is fixed
or no verdict in force. -/
def dismissNewest : List PostedReview → List PostedReview
  | [] => []
  | r :: rest =>
      if r.isSigned then
        (if r.isLive && !r.isFixed then { r with state := "DISMISSED" } else r) :: rest
      else r :: dismissNewest rest

/-- The reviews, oldest first, after a review has been posted under the given id. -/
def postReview (reviews : List PostedReview) (id : Document) (review : Review) :
    List PostedReview :=
  (dismissNewest reviews.reverse).reverse ++ [⟨id, review.body, review.event.state, false⟩]

end ReviewGate
