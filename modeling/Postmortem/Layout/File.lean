import Postmortem.Layout.Text

/-! # Layout files

`Layout.ofFile` reads a layout from a file. The notation is told by the extension of the file's
name (`FilePath.extension?`): JSON behind `.json` in any case, TOML behind anything else. Paths are
taken in a folder that holds no other folder, so a path names a file only if every step before the
last stays in the folder or leaves it (`FilePath.fileName?`). -/

namespace Postmortem

namespace FilePath

/-- The steps of a path, which slashes stand between. -/
def steps (path : String) : List (List Char) := path.toList.splitOn '/'

/-- Whether the step names no entry of a folder: it stays in the folder or goes to the one
around it. -/
def isMove (step : List Char) : Bool := step = [] || step = ['.'] || step = ['.', '.']

/-- Whether a file can have this name: it is no move and has no NUL, and at most 255 bytes. -/
def isFileName (step : List Char) : Bool :=
  !isMove step && !step.contains '\x00' && (String.ofList step).utf8ByteSize ≤ 255

/-- The name of the file that a path leads to. -/
def fileName? (path : String) : Option (List Char) :=
  match (steps path).reverse with
  | name :: before => if isFileName name ∧ before.all isMove then some name else none
  | [] => none

/-- The text after the last dot of a file name, if that dot is not its first character. -/
def extension? (name : List Char) : Option (List Char) :=
  match (name.splitOn '.').reverse with
  | [] | [_] | [_, []] => none
  | extension :: _ => some extension

/-- Whether a file of this name holds JSON. -/
def isJson (name : List Char) : Bool :=
  (extension? name).any fun extension => extension.map Char.toLower = ['j', 's', 'o', 'n']

end FilePath

/-- The valid layout in the file at the path, whose content is absent if there is none. -/
def Layout.ofFile (path : String) (content : Option ByteArray) : Except LayoutError Layout :=
  match FilePath.fileName? path, content.bind String.fromUTF8? with
  | some name, some text => if FilePath.isJson name then ofJson text else ofToml text
  | _, _ => .error .unreadable

end Postmortem
