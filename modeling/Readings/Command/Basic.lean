import Readings.Command.Arguments
import Readings.Report.Format

/-! The commands that can be given on a command line. -/

namespace Readings

inductive RequestSource where
  | file (name : String)
  | text (text : String)
deriving Repr, DecidableEq

structure ParseOptions where
  grammar : String
  request : RequestSource
  format : OutputFormat
  maxDerivations : Option Nat
  prune : Option Int
  /-- The file that is written; without one the answer is printed. -/
  output : Option String
deriving Repr, DecidableEq

inductive Command where
  | version
  | parse (options : ParseOptions)
  | check (grammar : String)
deriving Repr, DecidableEq

namespace Command

def parseOptions : List OptionSpec :=
  [⟨"grammar", some 'g', false⟩, ⟨"tokens", some 't', false⟩, ⟨"text", none, false⟩,
   ⟨"format", some 'f', false⟩, ⟨"max-derivations", none, false⟩, ⟨"prune", none, true⟩,
   ⟨"output", some 'o', false⟩]

def checkOptions : List OptionSpec := [⟨"grammar", some 'g', false⟩]

def optional? {α : Type} (read : String → Option α) (value : Option String) : Option (Option α) :=
  match value with
  | none => some none
  | some value => (read value).map some

def fileName? (value : String) : Option String := if value.isEmpty then none else some value

def requestSource? (tokens text : Option String) : Option RequestSource :=
  match tokens, text with
  | some file, none => some (.file file)
  | none, some text => some (.text text)
  | _, _ => none

def parseOf? (values : List (String × String)) : Option ParseOptions := do
  let grammar ← (values.lookup "grammar").bind fileName?
  let tokens ← optional? fileName? (values.lookup "tokens")
  let request ← requestSource? tokens (values.lookup "text")
  let format ← optional? OutputFormat.ofName? (values.lookup "format")
  let maxDerivations ← optional? Arguments.count? (values.lookup "max-derivations")
  let prune ← optional? Arguments.signed? (values.lookup "prune")
  let output ← optional? fileName? (values.lookup "output")
  return { grammar, request, format := format.getD .text, maxDerivations, prune, output }

/-- The options of a command with their values, no option given twice. -/
def optionValues? (options : List OptionSpec) (arguments : List String) :
    Option (List (String × String)) := do
  let values ← Arguments.values? options arguments
  if Arguments.areDistinct values then return values else none

/-- The command that the arguments give; there is none if they are not in order. -/
def ofArguments? : List String → Option Command
  | "parse" :: arguments => do
    return .parse (← parseOf? (← optionValues? parseOptions arguments))
  | "check" :: arguments => do
    let values ← optionValues? checkOptions arguments
    return .check (← (values.lookup "grammar").bind fileName?)
  | "--version" :: _ => some .version
  | argument :: _ => if ['-', 'V'].isPrefixOf argument.toList then some .version else none
  | [] => none

def files : Command → List String
  | .version => []
  | .check grammar => [grammar]
  | .parse options =>
    match options.request with
    | .file name => [options.grammar, name]
    | .text _ => [options.grammar]

end Command

end Readings
