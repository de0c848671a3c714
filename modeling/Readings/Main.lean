import Readings.Command.Run

/-! The program: reads the files of a command, runs it and delivers its outcome. -/

namespace Readings

def usage : String :=
  "usage: ambit parse --grammar FILE (--tokens FILE | --text TEXT) [--format FORMAT]\n" ++
    "             [--max-derivations COUNT] [--prune PRIORITY] [--output FILE]\n" ++
    "       ambit check --grammar FILE"

def readFiles (names : List String) : IO (List (String × String)) :=
  names.filterMapM fun (name : String) => do
    try
      let text ← IO.FS.readFile name
      return some (name, text)
    catch error =>
      IO.eprintln ("cannot read " ++ name ++ ": " ++ toString error)
      return none

def deliverOutcome (outcome : Outcome) : IO Nat := do
  match outcome.file with
  | none =>
    IO.print outcome.content
    return outcome.status
  | some name =>
    try
      IO.FS.writeFile name outcome.content
      return outcome.status
    catch error =>
      IO.eprintln ("cannot write " ++ name ++ ": " ++ toString error)
      return Outcome.failure.status

end Readings

open Readings in
def main (arguments : List String) : IO UInt32 := do
  match Command.ofArguments? arguments with
  | none =>
    IO.eprintln usage
    return Command.usageStatus.toUInt32
  | some command =>
    let files ← readFiles command.files
    match command.run (fun name => files.lookup name) with
    | .ok outcome => return (← deliverOutcome outcome).toUInt32
    | .error _ => return Command.faultStatus.toUInt32
