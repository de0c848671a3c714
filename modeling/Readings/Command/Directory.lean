import Readings.Command.Run

/-! Commands run in a directory whose files are held as values. -/

namespace Readings

inductive Device where
  | printed
  | lost
deriving Repr, DecidableEq

namespace Device

def folders : List (List String) := [["dev"], ["proc"], ["proc", "self"], ["proc", "self", "fd"]]

def nullPath : List String := ["dev", "null"]

def ofPath? : List String → Option Device
  | ["proc", "self", "fd", "1"] => some .printed
  | ["proc", "self", "fd", "0"] | ["proc", "self", "fd", "2"] => some .lost
  | ["dev", "null"] | ["dev", "zero"] | ["dev", "random"] | ["dev", "urandom"] => some .lost
  | _ => none

end Device

/-- The files of a directory with their texts. A file is known by the path that leads to it from the
root, and so is the directory. Of the folders around it only those above it and those of the devices
are known. -/
structure Directory where
  location : List String
  files : List (List String × String)
deriving Repr, DecidableEq

namespace Directory

/-- The most bytes in a part of a name, and in a name. -/
def partBound : Nat := 255
def nameBound : Nat := 4095

def isFolder (directory : Directory) (path : List String) : Bool :=
  path.isPrefixOf directory.location || Device.folders.contains path ||
    directory.files.any fun (file, _) => path.length < file.length && path.isPrefixOf file

def links (directory : Directory) : List (List String × List String) :=
  [(["dev", "fd"], ["proc", "self", "fd"]), (["dev", "stdin"], ["proc", "self", "fd", "0"]),
    (["dev", "stdout"], ["proc", "self", "fd", "1"]), (["dev", "stderr"], ["proc", "self", "fd", "2"]),
    (["proc", "self", "cwd"], directory.location)]

def resolve (directory : Directory) (path : List String) : List String :=
  (directory.links.lookup path).getD path

/-- Follows the parts of a name from a path on. Each of them starts from a folder, which a link has led
to before the next part is taken; above the root is the root. -/
def follow? (directory : Directory) (path : List String) : List String → Option (List String)
  | [] => some path
  | part :: parts =>
    if !directory.isFolder path || partBound < part.utf8ByteSize then none
    else if part == "" || part == "." then directory.follow? path parts
    else if part == ".." then directory.follow? path.dropLast parts
    else directory.follow? (directory.resolve (path ++ [part])) parts

/-- The path that a name stands for. A name that starts with a slash starts from the root, any other
from the directory. -/
def path? (directory : Directory) (name : String) : Option (List String) :=
  if nameBound < name.utf8ByteSize then none
  else match name.splitOn "/" with
    | [""] => none
    | "" :: parts => directory.follow? [] parts
    | parts => directory.follow? directory.location parts

def workplace : List String := ["tmp", "work"]

def ofFiles (files : List (String × String)) : Directory :=
  ⟨workplace, files.map fun (name, text) =>
    (workplace ++ (name.splitOn "/").filter fun part => part != "" && part != ".", text)⟩

def read? (directory : Directory) (name : String) : Option String :=
  (directory.path? name).bind fun path =>
    if path = Device.nullPath then some "" else directory.files.lookup path

def device? (directory : Directory) (name : String) : Option Device :=
  (directory.path? name).bind Device.ofPath?

/-- Writes a file. It must not be a folder, nor lie among the devices. -/
def write? (directory : Directory) (name text : String) : Option Directory := do
  let path ← directory.path? name
  if directory.isFolder path || Device.folders.contains path.dropLast then none
  else return { directory with files := (path, text) :: directory.files.filter (·.1 != path) }

structure Ending where
  status : Nat
  printed : String
  directory : Directory
deriving Repr, DecidableEq

/-- Delivers the outcome of a command, which is printed unless a file is named for it. -/
def deliver (directory : Directory) (outcome : Outcome) : Ending :=
  let printed : Ending := ⟨outcome.status, outcome.content, directory⟩
  match outcome.file with
  | none => printed
  | some name =>
    match directory.device? name with
    | some .printed => printed
    | some .lost => ⟨outcome.status, "", directory⟩
    | none =>
      match directory.write? name outcome.content with
      | some directory => ⟨outcome.status, "", directory⟩
      | none => ⟨Outcome.failure.status, "", directory⟩

def execute (directory : Directory) (arguments : List String) : Ending :=
  match Command.ofArguments? arguments with
  | none => ⟨Command.usageStatus, "", directory⟩
  | some command =>
    match command.run directory.read? with
    | .ok outcome => directory.deliver outcome
    | .error _ => ⟨Command.faultStatus, "", directory⟩

end Directory

end Readings
