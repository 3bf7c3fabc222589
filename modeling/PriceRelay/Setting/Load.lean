import PriceRelay.Config.Extra
import PriceRelay.Setting.Layers
import PriceRelay.Text.Utf8
/-!
# Loading a configuration

A configuration is loaded in steps: the file is found and read, the environment is laid over it, the
tree is read as a configuration, extra endpoints are merged in if there is a list of them, and the
whole is validated. Each step can fail in its own way.

* `Files` are the files that can be read, `Files.ofDirectory` those of a single directory,
* `LoadFault` tells how loading can fail,
* `Config.load` goes through the steps.
-/

namespace PriceRelay

/-! ### Files -/

/-- Why a file cannot be read. -/
inductive FileFault
  /-- there is none -/
  | missing
  /-- it is a directory -/
  | isDirectory
  /-- something on the way to it is no directory -/
  | notDirectory
deriving DecidableEq, Repr

/-- The wording of a fault. -/
def FileFault.message : FileFault → String
  | missing => "No such file or directory (os error 2)"
  | isDirectory => "Is a directory (os error 21)"
  | notDirectory => "Not a directory (os error 20)"

/-- The files that can be read: the bytes of each by its path. -/
abbrev Files := String → Except FileFault (List UInt8)

/-- The parts of a path that count. -/
def pathParts (path : String) : List String :=
  ((Text.splitOn '/' path.toList).map String.ofList).filter fun part => part ≠ "" && part ≠ "."

/-- Whether a path can only lead to a directory. -/
def endsAsDirectory (path : String) : Bool :=
  match (Text.splitOn '/' path.toList).getLast? with
  | some last => last == [] || last == ['.']
  | none => false

/-- The files of a directory that has no directories in it, seen from within. -/
def Files.ofDirectory (files : List (String × List UInt8)) : Files := fun path =>
  if path = "" then .error .missing
  else if Text.startsWith path "/" && !(pathParts path).isEmpty then .error .missing
  else match pathParts path with
    | [] => .error .isDirectory
    | [name] =>
      if name = ".." then .error .isDirectory
      else match files.lookup name with
        | none => .error .missing
        | some bytes => if endsAsDirectory path then .error .notDirectory else .ok bytes
    | name :: _ => .error (if (files.lookup name).isSome then .notDirectory else .missing)

/-! ### Faults -/

/-- How loading can fail. -/
inductive LoadFault
  /-- the file is missing or no tree of settings -/
  | unreadable (path : String)
  /-- the settings are no configuration -/
  | unfit (path : String)
  /-- the configuration cannot be used -/
  | refused (fault : Fault)
deriving DecidableEq, Repr

/-- The wording of a fault, given what is said of a text that is no list of extra endpoints. -/
def LoadFault.message (unread : Wording) : LoadFault → String
  | unreadable path => "failed to read config from " ++ path
  | unfit path => "invalid config in " ++ path
  | refused fault => fault.message unread

/-! ### Loading -/

/-- A path with a different ending: the ending is put to its last name. -/
def withEnding (path ending : String) : Option String :=
  match (pathParts path).reverse with
  | [] => none
  | name :: before =>
    if name = ".." then none
    else
      let root := if Text.startsWith path "/" then "/" else ""
      some (root ++ "/".intercalate (before.reverse ++ [name ++ ending]))

/-- Where the file of a path may be found. -/
def settingsPaths (path : String) : List String :=
  path :: [".yaml", ".yml"].filterMap (withEnding path)

/-- The settings of the first file found. -/
def Files.settings? (files : Files) (path : String) : Option Setting :=
  ((settingsPaths path).findSome? fun p => (files p).toOption).bind fun bytes =>
    Setting.ofText? (Text.Utf8.decode bytes)

/-- The extra endpoints in a file. -/
def Files.extra (files : Files) (path : String) : Except Fault ExtraEndpoints :=
  match files path with
  | .error e => .error (.config (.unreadableExtraList path e.message))
  | .ok bytes =>
    match Text.Utf8.strictDecode bytes with
    | none => .error (.config (.unreadableExtraList path "stream did not contain valid UTF-8"))
    | some text => ExtraEndpoints.read text

/-- What came of loading. -/
structure Loaded where
  /-- the configuration, or why there is none -/
  outcome : Except LoadFault Config
  /-- how many endpoints were added from an extra list, and the path of the list -/
  added : Option (Nat × String) := none

namespace Config

/-- Refuse a configuration that cannot be used. -/
def accept (c : Config) : Except LoadFault Config :=
  match c.validate with
  | .ok _ => .ok c
  | .error e => .error (.refused e)

/-- Merge in the extra list that a configuration names, if it names one, and validate it. -/
def complete (files : Files) (c : Config) : Loaded :=
  match c.extraPath with
  | none => { outcome := c.accept }
  | some path =>
    match files.extra path with
    | .error e => { outcome := .error (.refused e) }
    | .ok extra =>
      let (merged, n) := c.mergeExtra extra
      { outcome := merged.accept, added := some (n, path) }

/-- Load a configuration from a file and variables. -/
def load (files : Files) (path : String) (environment : List (String × String)) : Loaded :=
  match files.settings? path with
  | none => { outcome := .error (.unreadable path) }
  | some file =>
    match (file.layered environment).config? with
    | none => { outcome := .error (.unfit path) }
    | some c => c.complete files

/-- The variable that names the file. -/
def pathVariable : String := "ORACLE_CONFIG"

/-- Where the file is unless a variable names it. -/
def defaultPath : String := "config/oracle.yaml"

/-- Where the file is, given the variables. -/
def path (environment : List (String × String)) : String :=
  (environment.lookup pathVariable).getD defaultPath

end Config

end PriceRelay
