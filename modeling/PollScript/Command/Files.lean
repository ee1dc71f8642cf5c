import PollScript.Dictionary

/-!
# Files

What the command line needs of a file system: reading a text and writing one.
A folder held in memory is one such file system.

A path is walked step by step, and every step but the last must lead to a
folder. Above the folder in memory are folders of which nothing is known:
nothing is found in them, and what is written there does not show.

Results:

* `Folder.write_cases`: what a write can do.
* `Folder.write_frame`: only the file that a path leads to gets a content.
* `Folder.run_write`: a write that fails leaves the folder as it is.
-/

namespace PollScript

/-- Why a file cannot be read or written. -/
inductive FileError where
  | notFound
  | isDirectory
  | notDirectory
  | nameTooLong
  | other (reason : String)
deriving DecidableEq, Repr

def FileError.message : FileError → String
  | .notFound => "No such file or directory (os error 2)"
  | .isDirectory => "Is a directory (os error 21)"
  | .notDirectory => "Not a directory (os error 20)"
  | .nameTooLong => "File name too long (os error 36)"
  | .other reason => reason

/-- Reading and writing of texts. -/
class FileSystem (m : Type → Type) where
  read (path : String) : m (Except FileError String)
  write (path content : String) : m (Except FileError Unit)

/-! ## Paths -/

/-- A step of a path. -/
inductive PathStep where
  | here
  | up
  | down (name : String)
deriving DecidableEq, Repr

/-- The step that a part of a path stands for. -/
def PathStep.ofPart (part : String) : PathStep :=
  if part = "." then .here else if part = ".." then .up else .down part

namespace Path

/-- Puts a character in front of the first part, where a slash starts a new
    one. -/
def consPart (c : Char) (rest : List (List Char)) : List (List Char) :=
  if c = '/' then [] :: rest
  else match rest with
    | [] => [[c]]
    | part :: more => (c :: part) :: more

/-- The parts of a path between its slashes, of which several count as one. -/
def parts (path : String) : List String :=
  ((path.toList.foldr consPart [[]]).map String.ofList).filter (· != "")

def steps (path : String) : List PathStep :=
  (parts path).map .ofPart

/-- Whether a path starts at the root. -/
def isAbsolute (path : String) : Bool :=
  path.toList.head? == some '/'

/-- Whether a path ends as that of a folder does. -/
def endsInSlash (path : String) : Bool :=
  path.toList.getLast? == some '/'

/-- In bytes. -/
def nameLimit : Nat := 255

/-- In bytes. -/
def pathLimit : Nat := 4096

/-- Checks that a path is one, before it is walked. -/
def check (path : String) : Except FileError Unit :=
  if path.isEmpty then .error .notFound
  else if pathLimit ≤ path.utf8ByteSize then .error .nameTooLong
  else .ok ()

end Path

/-! ## A folder in memory -/

/-- The files of a folder with their contents. A name with slashes stands for a
    file in a folder below. -/
structure Folder where
  files : List (String × String)
deriving DecidableEq, Repr

/-- Where a path leads. Places in the folder are given by the names on the way
    to them. -/
inductive Place where
  | folder (names : List String)
  | file (names : List String)
  /-- A name in the folder or in one below it that nothing has. -/
  | vacant (names : List String)
  | above
  /-- A name in a folder above. -/
  | unknown
deriving DecidableEq, Repr

namespace Folder

/-- The name under which a file is kept. -/
def fileName (names : List String) : String :=
  "/".intercalate names

/-- Whether the names lead to a folder: to this one, or on the way to a file. -/
def isFolder (f : Folder) (names : List String) : Bool :=
  names.isEmpty || f.files.any fun file =>
    let file := Path.parts file.1
    names.length < file.length && names.isPrefixOf file

/-- What the names lead to. -/
def place (f : Folder) (names : List String) : Place :=
  if f.isFolder names then .folder names
  else if Dictionary.has f.files (fileName names) then .file names
  else .vacant names

/-- What a folder holds under a name, which may be too long to look for. -/
def enter (name : String) (found : Place) : Except FileError Place :=
  if Path.nameLimit < name.utf8ByteSize then .error .nameTooLong else .ok found

/-- Takes a step, which starts from a folder. -/
def step (f : Folder) : Place → PathStep → Except FileError Place
  | .folder names, .here => .ok (.folder names)
  | .folder [], .up => .ok .above
  | .folder names, .up => .ok (.folder names.dropLast)
  | .folder names, .down name => enter name (f.place (names ++ [name]))
  | .above, .here => .ok .above
  | .above, .up => .ok .above
  | .above, .down name => enter name .unknown
  | .file _, _ => .error .notDirectory
  | .vacant _, _ => .error .notFound
  | .unknown, _ => .error .notFound

def walk (f : Folder) (start : Place) (steps : List PathStep) : Except FileError Place :=
  steps.foldlM f.step start

def start (path : String) : Place :=
  if Path.isAbsolute path then .above else .folder []

/-- Where a path leads. -/
def locate (f : Folder) (path : String) : Except FileError Place := do
  Path.check path
  f.walk (start path) (Path.steps path)

/-- The folder that a path leads to before its last step. -/
def parent (f : Folder) (path : String) : Except FileError Place := do
  Path.check path
  let place ← f.walk (start path) (Path.steps path).dropLast
  f.step place .here

/-- The content of a file. A slash at the end of its path counts as a step. -/
def read (f : Folder) (path : String) : Except FileError String := do
  let place ← f.locate path
  match ← if Path.endsInSlash path then f.step place .here else pure place with
  | .file names =>
    match Dictionary.get? f.files (fileName names) with
    | some content => return content
    | none => throw .notFound
  | .folder _ | .above => throw .isDirectory
  | .vacant _ | .unknown => throw .notFound

/-- The folder after a file gets a content. The file may be new, but not the
    folder that it is in. A slash at the end of the path is refused before the
    last name is looked up. -/
def write (f : Folder) (path content : String) : Except FileError Folder := do
  let _ ← f.parent path
  if Path.endsInSlash path then throw .isDirectory
  match ← f.locate path with
  | .file names | .vacant names =>
    return ⟨Dictionary.put (fileName names) content f.files⟩
  | .unknown => return f
  | .folder _ | .above => throw .isDirectory

/-- The path leads to the file, or would if there were one. -/
def Reaches (f : Folder) (path file : String) : Prop :=
  ∃ names, (f.locate path = .ok (.file names) ∨ f.locate path = .ok (.vacant names)) ∧
    file = fileName names

/-- What a write can do: it gives a content to the file that the path leads to, or does not show. -/
theorem write_cases {f g : Folder} {path content : String} (h : f.write path content = .ok g) :
    (∃ names, (f.locate path = .ok (.file names) ∨ f.locate path = .ok (.vacant names)) ∧
      g = ⟨Dictionary.put (fileName names) content f.files⟩) ∨ g = f := by
  unfold write at h
  cases hparent : f.parent path with
  | error e => rw [hparent] at h; cases h
  | ok _ =>
    rw [hparent] at h
    by_cases hslash : Path.endsInSlash path = true
    · rw [if_pos hslash] at h
      cases h
    · rw [if_neg hslash] at h
      cases hplace : f.locate path with
      | error e => rw [hplace] at h; cases h
      | ok place =>
        rw [hplace] at h
        cases place with
        | file names => cases h; exact .inl ⟨names, .inl rfl, rfl⟩
        | vacant names => cases h; exact .inl ⟨names, .inr rfl, rfl⟩
        | unknown => cases h; exact .inr rfl
        | folder names => cases h
        | above => cases h

/-- Only the file that a path leads to gets a content. -/
theorem write_frame {f g : Folder} {path content file : String}
    (h : f.write path content = .ok g) (elsewhere : ¬ f.Reaches path file) :
    Dictionary.get? g.files file = Dictionary.get? f.files file := by
  obtain ⟨names, hnames, rfl⟩ | rfl := write_cases h
  · rw [Dictionary.get?_put, if_neg fun heq => elsewhere ⟨names, hnames, heq⟩]
  · rfl

end Folder

instance : FileSystem (StateM Folder) where
  read path := do return (← get).read path
  write path content := do
    match (← get).write path content with
    | .ok folder => set folder; return .ok ()
    | .error e => return .error e

/-- A write that fails leaves the folder as it is. -/
theorem Folder.run_write (f : Folder) (path content : String) :
    (FileSystem.write path content : StateM Folder (Except FileError Unit)).run f =
      ((f.write path content).map fun _ => (), (f.write path content).toOption.getD f) := by
  simp only [FileSystem.write, StateT.run_bind, StateT.run_get, pure_bind]
  cases f.write path content with
  | ok g => rfl
  | error e => rfl

end PollScript
