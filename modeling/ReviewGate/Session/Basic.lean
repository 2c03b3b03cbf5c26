import ReviewGate.Hub.Pull
import ReviewGate.Model.Basic
import ReviewGate.Review.Shadow

/-!
# `ReviewGate.Session` — runs that talk to a user, a hub and a model

A run changes a desk: what has been printed, what the hub has been asked, how the conversation with
the model stands and which lines of input are left. A run that fails leaves the desk as it was at
that moment.

How a text is drawn is up to the terminal, which comes with the desk. It may also refuse a text, for
instance because of the marks in it, and then the run fails.

## Contents
- `Terminal`, `Desk`: what a run prints on, and what it changes.
- `Run`: runs.
- `say`, `request`, `ask`, `converse`: the effects.
-/

namespace ReviewGate

/-- What becomes of something printed: it is shown, or it is refused with a fault. -/
abbrev Terminal := Printed → Except Fault Unit

/-- A terminal that shows everything. -/
def Terminal.plain : Terminal := fun _ => .ok ()

/-- What a run changes, and the terminal, which no run changes. `printed` is all that the terminal
has been given. -/
structure Desk where
  printed : List Printed
  calls : List HubCall
  talk : Talk
  input : List String
  terminal : Terminal

/-- The desk at the start of a run on a terminal that shows everything. -/
def Desk.start (replies : List Reply) (input : List String) : Desk :=
  ⟨[], [], ⟨replies, []⟩, input, .plain⟩

/-- A run that gives an `α` or fails. -/
abbrev Run (α : Type) := ExceptT Fault (StateM Desk) α

namespace Run

/-- A result that needs no desk. -/
def lift {α : Type} (result : Except Fault α) : Run α :=
  match result with
  | .ok a => pure a
  | .error fault => throw fault

/-- Print one thing. -/
def print (p : Printed) : Run Unit := do
  modify fun d => { d with printed := d.printed ++ [p] }
  lift ((← get).terminal p)

/-- Print a line. -/
def say (text : String) : Run Unit := print (.line text)

/-- Send requests to the hub. -/
def request (calls : List HubCall) : Run Unit := modify fun d => { d with calls := d.calls ++ calls }

/-- Ask the user; the answer is the next line of input. -/
def ask (question : String) : Run String := do
  print (.question question)
  match (← get).input with
  | [] => throw .inputEnded
  | line :: rest => do
      modify fun d => { d with input := rest }
      return line

/-- Note what happens while a model is used. -/
def note (e : ModelEvent) : Run Unit := modify fun d => { d with talk := d.talk.record e }

/-- Let the conversation go on. -/
def converse {α : Type} (step : Talk → Except Fault α × Talk) : Run α := do
  let (result, talk) := step (← get).talk
  modify fun d => { d with talk }
  match result with
  | .ok a => return a
  | .error fault => throw fault

end Run

end ReviewGate
