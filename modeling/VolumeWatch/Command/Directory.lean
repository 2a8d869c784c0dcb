import VolumeWatch.Command.Run

/-!
Directories: files by name, in which the command can be run without a file system. There are no
directories within a directory, and nothing beside it.
-/

namespace VolumeWatch

open Calendar (Zones)

structure Directory where
  entries : List (String × String)

inductive Directory.Place where
  | file (name : String)
  /-- A name that must be that of a directory, with nothing but a slash behind it. -/
  | slashed (name : String)
  /-- A name that must be that of a directory, with more of the path behind it. -/
  | within (name : String)
  /-- A directory, be it this one or one around it. -/
  | directory
  | nowhere

namespace Directory

def find? (d : Directory) (name : String) : Option String :=
  (d.entries.find? (·.1 == name)).map (·.2)

def put (d : Directory) (name text : String) : Directory :=
  ⟨(name, text) :: d.entries.filter (·.1 != name)⟩

/-- The part of a path stays where it is or goes up. -/
def isDots (part : String) : Bool := part.isEmpty || part == "." || part == ".."

def place (path : String) : Place :=
  let parts := path.splitOn "/"
  if path.isEmpty then .nowhere
  else if path.startsWith "/" then if parts.all isDots then .directory else .nowhere
  else
    match parts.dropWhile isDots with
    | [] => .directory
    | [name] => if parts.contains ".." then .nowhere else .file name
    | name :: rest => if rest.all String.isEmpty then .slashed name else .within name

/-- The most bytes that a name can have. -/
def nameBound : Nat := 255

/-- The fault of a path that goes on behind the name of a file or of nothing. -/
def passFault (d : Directory) (name : String) : FileFault :=
  if (d.find? name).isSome then .notADirectory else .notFound

def read (d : Directory) (path : String) : Except FileFault String :=
  match place path with
  | .directory => .error .isADirectory
  | .nowhere => .error .notFound
  | .slashed name | .within name => .error (d.passFault name)
  | .file name =>
    if nameBound < name.utf8ByteSize then .error .nameTooLong
    else (d.find? name).elim (.error .notFound) .ok

def create (d : Directory) (path : String) : Except FileFault Directory :=
  match place path with
  | .directory | .slashed _ => .error .isADirectory
  | .nowhere => .error .notFound
  | .within name => .error (d.passFault name)
  | .file name =>
    if nameBound < name.utf8ByteSize then .error .nameTooLong else .ok (d.put name "")

def write (d : Directory) (path text : String) : Directory :=
  match place path with
  | .file name => d.put name text
  | _ => d

/-- The files of a directory, as the command needs them. -/
def files : Files (StateM Directory) where
  create path := fun d =>
    match d.create path with
    | .ok d => (.ok (), d)
    | .error fault => (.error fault, d)
  read path := fun d => (d.read path, d)
  write path text := fun d => ((), d.write path text)

/-- Run the command in a directory. -/
def run (d : Directory) (zones : Zones) (args : List String) (vars : Variables) :
    Except CommandFault Unit × Directory :=
  Command.run Directory.files zones args vars d

end Directory

end VolumeWatch
