import ReviewGate.Document.Spelling
import ReviewGate.Finding.Basic
import ReviewGate.Text.Character

/-!
# `ReviewGate.Model` — talking to a language model

A model answers one question at a time. A call may fail; it is made again, after a pause, until
there have been three calls.

## Contents
- `Vendor`, `Provider`: who offers models, and the model in use.
- `Question`, `Question.toDocument`: what is asked, in each vendor's form.
- `Reply`, `Completion`: what comes back, and what is used of it.
- `Talk`: replies still to come and events so far.
- `Provider.complete`: the answer to a question, with the calls it takes.
-/

namespace ReviewGate

open Number

/-- Who offers models. -/
inductive Vendor
  | anthropic
  | openai
deriving DecidableEq, Repr

namespace Vendor

/-- The name in configurations. -/
def name : Vendor → String
  | .anthropic => "anthropic"
  | .openai => "openai"

/-- The model that is used unless another is configured. -/
def defaultModel : Vendor → String
  | .anthropic => "claude-sonnet-4-20250514"
  | .openai => "gpt-4o"

/-- The vendor with the given name. -/
def ofName? (s : String) : Option Vendor :=
  ([.anthropic, .openai] : List Vendor).find? (·.name == s)

/-- The name under which a configuration keeps the key. -/
def keyName (v : Vendor) : String := v.name ++ "_api_key"

end Vendor

/-- A model of a vendor. -/
structure Provider where
  vendor : Vendor
  model : Document
deriving Repr

/-- What is asked: instructions that hold throughout, and the question itself. -/
structure Question where
  system : String
  user : String
deriving DecidableEq, Repr

/-- How freely the model answers. -/
def temperature : Binary64 := Binary64.ofDecimal false 2 (-1)

/-- The greatest number of tokens of an answer. -/
def maxTokens : Nat := 4096

/-- One turn of a conversation. -/
def turn (role content : String) : Document :=
  .ofFields [("role", .text role), ("content", .text content)]

/-- The question as the vendor's service takes it. -/
def Question.toDocument (q : Question) (p : Provider) : Document :=
  let rest : List (String × Document) :=
    [("temperature", .float temperature), ("max_tokens", .int maxTokens)]
  match p.vendor with
  | .anthropic =>
      .ofFields ([("model", p.model), ("system", .text q.system),
        ("messages", .list [turn "user" q.user])] ++ rest)
  | .openai =>
      .ofFields ([("model", p.model),
        ("messages", .list [turn "system" q.system, turn "user" q.user])] ++ rest)

/-- What a call gives: nothing, or a text and, from a service that answers in parts, the parts that
are texts. -/
inductive Reply
  | failure
  | answer (text : Option String) (parts : Option (List String)) (usage : Option TokenUsage)
deriving Repr

/-- What is used of a reply. -/
structure Completion where
  text : String
  usage : TokenUsage
deriving DecidableEq, Repr

/-- The document of a completion. -/
def Completion.toDocument (c : Completion) : Document :=
  .ofFields [("text", .text c.text), ("usage", c.usage.toDocument)]

/-- What a vendor's reply amounts to; `none` if the call failed. -/
def Reply.completion? (vendor : Vendor) : Reply → Option Completion
  | .failure => none
  | .answer text parts usage =>
      let usage := usage.getD .none
      match vendor with
      | .anthropic => some ⟨Text.strip (String.join (parts.getD text.toList)), usage⟩
      | .openai => some ⟨text.getD "", usage⟩

/-- What happens while a model is used. -/
inductive ModelEvent
  | connect (vendor : Vendor) (key : Document)
  | ask (provider : Provider) (question : Question)
  | pause (seconds : Nat)
deriving Repr

/-- A conversation: the replies to come, and what has happened. -/
structure Talk where
  replies : List Reply
  events : List ModelEvent
deriving Repr

namespace Talk

/-- The conversation after an event. -/
def record (t : Talk) (e : ModelEvent) : Talk := { t with events := t.events ++ [e] }

/-- One call: its reply, a failure if there are no more replies. -/
def call (t : Talk) (p : Provider) (q : Question) : Reply × Talk :=
  let t := t.record (.ask p q)
  match t.replies with
  | [] => (.failure, t)
  | reply :: rest => (reply, { t with replies := rest })

end Talk

/-- The pauses, in seconds, before each repeated call. -/
def pauses : List Nat := [1, 2]

namespace Provider

/-- The answer to a question, with a repeated call after each of the pauses. -/
def completeWith (p : Provider) (q : Question) : List Nat → Talk → Option Completion × Talk
  | delays, t =>
      let (reply, t) := t.call p q
      match reply.completion? p.vendor, delays with
      | some c, _ => (some c, t)
      | none, [] => (none, t)
      | none, seconds :: rest => completeWith p q rest (t.record (.pause seconds))

/-- The answer to a question, `none` once every call has failed. -/
def complete (p : Provider) (q : Question) (t : Talk) : Option Completion × Talk :=
  p.completeWith q pauses t

end Provider

/-- The provider that a configuration names, `none` if it names none, with what happens when it is
set up. A model that counts as present replaces the vendor's own. -/
def chooseProvider (config model : Document) : Except Fault (Option (Provider × ModelEvent)) := do
  let name ← config.field "provider"
  if !name.truthy then return none
  let known := match name with
    | .text s => Vendor.ofName? s
    | _ => none
  match known with
  | none =>
      -- the name is told, so it must have a text
      let _ ← name.spell
      throw (.setup (.unknownProvider name))
  | some vendor =>
      match Document.lookup vendor.keyName (← config.entries) with
      | none => throw .noEntry
      | some key =>
          return some (⟨vendor, model.orElse (.text vendor.defaultModel)⟩, .connect vendor key)

end ReviewGate
