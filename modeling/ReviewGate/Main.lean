import ReviewGate.Command.Footprint
import ReviewGate.Command.Report
import ReviewGate.Review.Markup

/-!
# `ReviewGate.Main` — the program

The outer layer: it reads the variables, the part of the working directory that the command line
leads to and the input, has the command carried out, and writes what has changed. It talks to no
hub, no gist and no model, and calls no other program: a hub without pull requests stands for the
first.

## Contents
- `readSurroundings`, `readStamp`: the variables and the time of day.
- `readEntry`, `readFootprint`: the part of the working directory that is looked at.
- `carryOut`: the command carried out, with the input line by line.
- `writeChanges`: what has changed in the working directory.
- `main`: the program.
-/

open ReviewGate Command

/-- The variables that a run looks at. -/
def variableNames : List String :=
  ["GITHUB_TOKEN", "PATCHWARDEN_GITHUB_TOKEN", "ANTHROPIC_API_KEY", "OPENAI_API_KEY",
    "GITHUB_OUTPUT", "GITHUB_ACTIONS", "PATCHWARDEN_CONFIG"]

/-- The variables of the environment. -/
def readSurroundings : IO Surroundings := do
  let found ← variableNames.filterMapM fun name => do
    return (← IO.getEnv name).map (name, ·)
  return ⟨found, []⟩

/-- The time of day, as the file system has it. -/
def readStamp : IO String := do
  let (_, path) ← IO.FS.createTempFile
  let time := (← path.metadata).modified
  IO.FS.removeFile path
  return (Moment.ofUnix time.sec.toNat (time.nsec.toNat / 1000)).iso "T"

/-- What stands at a path of the working directory. -/
def readEntry (path : String) : IO (Option (Place × Entry)) := do
  let place := (← IO.currentDir) / path
  if ← place.isDir then return some (Tree.namesOf path, .directory)
  else if ← place.pathExists then
    return some (Tree.namesOf path, .file (← IO.FS.readBinFile place).toList)
  else return none

/-- Does the path stay below the working directory? -/
def staysBelow (path : String) : Bool :=
  !path.startsWith "/" && !(Tree.namesOf path).contains ['.', '.'] && path != ""

/-- The tree with all that the command line leads to, where `seen` has been looked at. -/
partial def readFootprint (s : Surroundings) (input : String) (words : List String)
    (seen : List String) (tree : Tree) : IO Tree := do
  match ((footprint tree s input words).filter staysBelow).filter (!seen.contains ·) with
  | [] => return tree
  | paths => do
      let entries ← (paths ++ paths.map Tree.parentOf).eraseDups.filterMapM readEntry
      readFootprint s input words (paths ++ seen) ⟨tree.entries ++ entries⟩

/-- Input with a newline for every kind of line end. -/
def unified (input : String) : String := String.ofList (Text.unifyNewlines input.toList)

/-- Carry out the command. When it ends because the input does, it is carried out again with one
more line; the first `shown` things have been printed already. -/
partial def carryOut (site : Site) (shelf : Shelf) (words : List String) (shown : Nat) :
    IO (Except Failure Nat × Bench) := do
  let (result, bench) := execute site shelf [] words
  for line in (bench.desk.printed.drop shown).flatMap Printed.lines do IO.println line
  match result with
  | .error .aborted => do
      let line ← (← IO.getStdin).getLine
      if line.isEmpty then return (result, bench)
      else
        carryOut { site with input := site.input ++ unified line } shelf words
          bench.desk.printed.length
  | _ => return (result, bench)

/-- Write the files and directories that have changed. -/
def writeChanges (old new : Tree) : IO Unit := do
  for (place, entry) in new.entries do
    let path := String.ofList (Path.ofComponents place)
    if old.entries.lookup place != some entry then
      match entry with
      | .directory => IO.FS.createDirAll path
      | .file data => IO.FS.writeBinFile path ⟨data.toArray⟩

/-- The program: the exit status of the command line. -/
def main (words : List String) : IO UInt32 := do
  let surroundings ← readSurroundings
  let known ← readFootprint surroundings "" words [] ⟨[]⟩
  let input ← if readsInput known words then (← IO.getStdin).readToEnd else pure ""
  let tree ← readFootprint surroundings (unified input) words [] ⟨[]⟩
  let site : Site := ⟨surroundings, .empty, unified input, ← readStamp, none⟩
  let (result, bench) ← carryOut site ⟨tree, .empty⟩ words 0
  writeChanges tree bench.shelf.tree
  match result with
  | .ok status => return UInt32.ofNat status
  | .error failure => do
      (← IO.getStderr).putStrLn s!"Error: {failure.message}"
      return UInt32.ofNat failure.status
