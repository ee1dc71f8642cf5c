/-!
# Command lines

The two commands, and how they are written: `generate` with the path of a saved
workspace, and `catalog`. Both may name a file for the output, and `generate`
may set the width of the indentation.

An option takes its value from behind an equals sign or from the next argument,
which then must not look like an option. No option may be given twice. After
`--` every argument counts as a path.
-/

namespace PollScript

inductive Command where
  | generate (workspace : String) (output : Option String) (indent : Nat)
  | catalog (output : Option String)
deriving DecidableEq, Repr

namespace Command

/-- What has been read of the arguments. -/
structure Arguments where
  paths : List String
  output : Option String
  indent : Option Nat
deriving DecidableEq, Repr

inductive Setting where
  | output
  | indent
deriving DecidableEq, Repr

/-- A width is below what 64 bits can hold. -/
def widthLimit : Nat := UInt64.size

/-- Reads a width: decimal digits, which a plus sign may precede. -/
def width? (text : String) : Option Nat :=
  let digits := match text.toList with
    | '+' :: rest => rest
    | cs => cs
  if digits ≠ [] ∧ digits.all Char.isDigit then
    let n := Nat.ofDigitChars 10 digits 0
    if n < widthLimit then some n else none
  else none

/-- Sets an option that has not been set. A path must not be empty. -/
def Arguments.set? (a : Arguments) (setting : Setting) (value : String) : Option Arguments :=
  match setting with
  | .output =>
    if a.output.isSome || value.isEmpty then none else some { a with output := some value }
  | .indent =>
    if a.indent.isSome then none else (width? value).map fun n => { a with indent := some n }

/-- Adds a path, which must not be empty. -/
def Arguments.addPath? (a : Arguments) (path : String) : Option Arguments :=
  if path.isEmpty then none else some { a with paths := a.paths ++ [path] }

/-- What an argument is. -/
inductive Reading where
  | path
  | endOfOptions
  | setting (setting : Setting) (value : String)
  /-- It is an option whose value is the next argument. -/
  | awaiting (setting : Setting)
  | unknown
deriving DecidableEq, Repr

/-- An option by its long name. -/
def longName? (indentable : Bool) (name : List Char) : Option Setting :=
  if name = "output".toList then some .output
  else if indentable ∧ name = "indent".toList then some .indent
  else none

/-- Reads an argument that starts with two dashes, without them. -/
def readLong (indentable : Bool) (body : List Char) : Reading :=
  match longName? indentable (body.takeWhile (· != '=')) with
  | none => .unknown
  | some setting =>
    match body.dropWhile (· != '=') with
    | [] => .awaiting setting
    | _ :: value => .setting setting (String.ofList value)

/-- Reads an argument. -/
def read (indentable : Bool) (argument : String) : Reading :=
  match argument.toList with
  | ['-', '-'] => .endOfOptions
  | '-' :: '-' :: body => readLong indentable body
  | ['-', 'o'] => .awaiting .output
  | '-' :: 'o' :: '=' :: value => .setting .output (String.ofList value)
  | '-' :: 'o' :: value => .setting .output (String.ofList value)
  | '-' :: _ :: _ => .unknown
  | _ => .path

/-- Reads arguments one after the other. `pending` is an option that still needs
    its value. -/
def readAll? (indentable : Bool) : (pending : Option Setting) → Arguments → List String →
    Option Arguments
  | some _, _, [] => none
  | none, a, [] => some a
  | some setting, a, argument :: rest =>
    match read indentable argument with
    | .path => (a.set? setting argument).bind (readAll? indentable none · rest)
    | _ => none
  | none, a, argument :: rest =>
    match read indentable argument with
    | .path => (a.addPath? argument).bind (readAll? indentable none · rest)
    | .endOfOptions => rest.foldlM Arguments.addPath? a
    | .setting setting value => (a.set? setting value).bind (readAll? indentable none · rest)
    | .awaiting setting => readAll? indentable (some setting) a rest
    | .unknown => none

def defaultWidth : Nat := 4

/-- Reads a command line. -/
def parse? : List String → Option Command
  | [] => none
  | name :: arguments =>
    if name = "generate" then
      match readAll? true none ⟨[], none, none⟩ arguments with
      | some ⟨[path], output, indent⟩ =>
        some (.generate path output (indent.getD defaultWidth))
      | _ => none
    else if name = "catalog" then
      match readAll? false none ⟨[], none, none⟩ arguments with
      | some ⟨[], output, _⟩ => some (.catalog output)
      | _ => none
    else none

end Command

end PollScript
