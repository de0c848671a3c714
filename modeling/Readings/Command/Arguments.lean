/-! Command lines made of options. Every option takes a value: in the next argument, or in its own
behind an equals sign; behind the letter of an option it may also stand alone. -/

namespace Readings

structure OptionSpec where
  name : String
  letter : Option Char
  /-- Its value may be a negative number. -/
  signed : Bool
deriving Repr, DecidableEq

namespace Arguments

def natural? (digits : List Char) : Option Nat :=
  if digits.isEmpty || !digits.all Char.isDigit then none
  else some (digits.foldl (fun value digit => 10 * value + (digit.toNat - '0'.toNat)) 0)

def count? (text : String) : Option Nat :=
  let digits := match text.toList with
    | '+' :: digits => digits
    | digits => digits
  match natural? digits with
  | some value => if value < UInt64.size then some value else none
  | none => none

def signed? (text : String) : Option Int :=
  let value : Option Int := match text.toList with
    | '+' :: digits => (natural? digits).map Int.ofNat
    | '-' :: digits => (natural? digits).map fun value => -(value : Int)
    | digits => (natural? digits).map Int.ofNat
  match value with
  | some value => if Int32.minValue.toInt ≤ value ∧ value ≤ Int32.maxValue.toInt then some value else none
  | none => none

def splitAssignment (argument : List Char) : List Char × Option (List Char) :=
  match argument.dropWhile (· != '=') with
  | [] => (argument, none)
  | _ :: value => (argument.takeWhile (· != '='), some value)

def attached? : List Char → Option (List Char)
  | [] => none
  | '=' :: value => some value
  | value => some value

def option? (options : List OptionSpec) (argument : String) :
    Option (OptionSpec × Option String) :=
  match argument.toList with
  | '-' :: '-' :: rest => do
    let (name, value) := splitAssignment rest
    let option ← options.find? (·.name.toList == name)
    return (option, value.map String.ofList)
  | '-' :: letter :: rest => do
    let option ← options.find? (·.letter == some letter)
    return (option, (attached? rest).map String.ofList)
  | _ => none

/-- Whether an argument can be the value of the option before it: it must not look like an option. -/
def canFollow (option : OptionSpec) (argument : String) : Bool :=
  !(['-'].isPrefixOf argument.toList) || argument == "-" ||
    (option.signed && (signed? argument).isSome)

/-- The values of all options, in their order. There may be nothing but options; two dashes end
them. -/
def values? (options : List OptionSpec) : List String → Option (List (String × String))
  | [] => some []
  | argument :: arguments =>
    if argument == "--" then if arguments.isEmpty then some [] else none
    else
      match option? options argument with
      | none => none
      | some (option, some value) => do
        return (option.name, value) :: (← values? options arguments)
      | some (option, none) =>
        match arguments with
        | [] => none
        | value :: arguments =>
          if canFollow option value then do
            return (option.name, value) :: (← values? options arguments)
          else none

def areDistinct (values : List (String × String)) : Bool := (values.map (·.1)).Nodup

end Arguments

end Readings
