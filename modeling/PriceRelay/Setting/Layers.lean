import PriceRelay.Setting.Path
/-!
# Layers of settings

The environment is laid over the file. A variable counts if its name has the right beginning; the
rest of the name is a path, and its text is taken for what it looks like.

* `Setting.ofVariable` is what the text of a variable stands for,
* `Setting.variablePath?` is the path that its name stands for,
* `Setting.layered` lays variables over a file.
-/

namespace PriceRelay.Setting

/-- What the text of a variable stands for. -/
def ofVariable (s : String) : Setting :=
  let word := Text.asciiLower s
  if word = "true" then .bool true
  else if word = "false" then .bool false
  else match Text.Numeral.integer? 10 s.toList with
    | some i => .int i
    | none =>
      match Binary64.parse? s.toList with
      | some x => .real x
      | none => .text s

/-- How the names of the variables that count begin, in letters of either case. -/
def opening : String := "oracle__"

/-- A text in which each pair of underscores is a point. -/
def pointed : List Char → List Char
  | '_' :: '_' :: cs => '.' :: pointed cs
  | c :: cs => c :: pointed cs
  | [] => []

/-- The path that the name of a variable stands for, if the variable counts. -/
def variablePath? (name : String) : Option Path :=
  (Text.dropStart? (lowerName name) opening).map fun rest =>
    Path.ofName (String.ofList (pointed rest.toList))

/-- Put a setting that goes by a name. -/
def putNamed (root : Setting) (name : String) (value : Setting) : Setting :=
  root.put (Path.ofName name) value

/-- Put what a variable stands for, if the variable counts. -/
def putVariable (root : Setting) (v : String × String) : Setting :=
  match variablePath? v.1 with
  | some path => root.put path (ofVariable v.2)
  | none => root

/-- The settings of a file with variables laid over them. The names in the file are paths, too. -/
def layered (file : Setting) (environment : List (String × String)) : Setting :=
  environment.foldl putVariable
    (file.members.foldl (fun root m => root.putNamed m.1 m.2) (.table []))

end PriceRelay.Setting
