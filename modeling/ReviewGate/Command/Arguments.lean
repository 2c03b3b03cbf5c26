import ReviewGate.Number.Numeral

/-!
# `ReviewGate.Command.Arguments` — words of a command line

A word that starts with a hyphen names options: two hyphens and a long name, with the value behind
an equals sign or in the next word, or one hyphen and letters, where the value is the rest of the
word or the next one. Other words are operands.

## Contents
- `Misuse`: what is wrong with a command line.
- `Choice`: an option of a command.
- `Given`: an option that is given, with its value.
- `splitLong`, `letters`: the two forms of options.
- `scan`: options and operands of a command.
- `valueOf?`, `isGiven`: the value that counts.
-/

namespace ReviewGate.Command

/-- What is wrong with a command line. -/
inductive Misuse
  /-- There is no such option. -/
  | unknownOption
  /-- A value is missing, or given to an option that takes none. -/
  | valueMismatch
  /-- A value is not one that the option takes. -/
  | badValue
  /-- A required option is missing. -/
  | missingOption
  /-- There is no such command. -/
  | unknownCommand
  /-- Options are given and no command. -/
  | missingCommand
  /-- Nothing is given. -/
  | nothingGiven
  /-- There are more operands than the command takes. -/
  | extraOperands (operands : List String)
deriving DecidableEq, Repr

/-- An option of a command. -/
structure Choice where
  /-- The long name, with its hyphens. -/
  name : String
  /-- The letter, if there is one. -/
  letter : Option Char
  takesValue : Bool
deriving DecidableEq, Repr

/-- An option that is given, with its value. -/
structure Given where
  name : String
  value : String
deriving DecidableEq, Repr

/-- The name and the value of a word that starts with two hyphens. -/
def splitLong (word : List Char) : List Char × Option (List Char) :=
  match word.dropWhile (· != '=') with
  | [] => (word, none)
  | _ :: value => (word.takeWhile (· != '='), some value)

/-- The options that letters name, with the words left after the value of the last one. -/
def letters (choices : List Choice) (rest : List String) :
    List Char → Except Misuse (List Given × List String)
  | [] => .ok ([], rest)
  | c :: cs =>
      match choices.find? (·.letter == some c) with
      | none => .error .unknownOption
      | some choice =>
          if !choice.takesValue then do
            let (given, rest) ← letters choices rest cs
            return (⟨choice.name, ""⟩ :: given, rest)
          else if cs.isEmpty then
            match rest with
            | [] => .error .valueMismatch
            | value :: rest => .ok ([⟨choice.name, value⟩], rest)
          else .ok ([⟨choice.name, String.ofList cs⟩], rest)

/-- The option that a word with a long name gives, with the words left after its value. -/
def long (choice : Choice) (value : Option (List Char)) (rest : List String) :
    Except Misuse (Given × List String) :=
  match choice.takesValue, value, rest with
  | true, some value, rest => .ok (⟨choice.name, String.ofList value⟩, rest)
  | true, none, value :: rest => .ok (⟨choice.name, value⟩, rest)
  | true, none, [] => .error .valueMismatch
  | false, none, rest => .ok (⟨choice.name, ""⟩, rest)
  | false, some _, _ => .error .valueMismatch

/-- The options that a word names, with the words left after their values. -/
def named (choices : List Choice) (word : List Char) (rest : List String) :
    Except Misuse (List Given × List String) :=
  let (name, value) := splitLong word
  match choices.find? (·.name.toList == name) with
  | some choice => (long choice value rest).map fun (g, rest) => ([g], rest)
  | none =>
      if word.take 2 == ['-', '-'] then .error .unknownOption
      else letters choices rest (word.drop 1)

/-- Options and operands, at most `fuel` words of them. Options may stand behind operands only if
`mixed`; a word of two hyphens ends the options. -/
def scanWords (choices : List Choice) (mixed : Bool) :
    Nat → List String → Except Misuse (List Given × List String)
  | 0, words => .ok ([], words)
  | _, [] => .ok ([], [])
  | fuel + 1, word :: rest =>
      if word == "--" then .ok ([], rest)
      else if word.toList.head? == some '-' && 1 < word.length then do
        let (given, rest) ← named choices word.toList rest
        let (more, operands) ← scanWords choices mixed fuel rest
        return (given ++ more, operands)
      else if mixed then do
        let (given, operands) ← scanWords choices mixed fuel rest
        return (given, word :: operands)
      else .ok ([], word :: rest)

/-- Options and operands. -/
def scan (choices : List Choice) (mixed : Bool) (words : List String) :
    Except Misuse (List Given × List String) :=
  scanWords choices mixed words.length words

/-- The value of an option: the one given last. -/
def valueOf? (given : List Given) (name : String) : Option String :=
  (given.reverse.find? (·.name == name)).map (·.value)

/-- Is the option given? -/
def isGiven (given : List Given) (name : String) : Bool := given.any (·.name == name)

end ReviewGate.Command
