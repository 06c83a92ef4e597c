import Postmortem.Json.Reader
import Postmortem.Layout.Codec
import Postmortem.Layout.Validity
import Postmortem.Toml.Reader

/-! # Layout texts

A layout is written as TOML or as JSON. `Layout.ofToml` and `Layout.ofJson` read a text and accept
the layout only if it is valid. -/

namespace Postmortem

/-- Why a layout could not be read. -/
inductive LayoutError where
  /-- The file could not be read, or not as UTF-8. -/
  | unreadable
  /-- The text is no TOML document that describes a layout. -/
  | toml
  /-- The text is no JSON value that describes a layout. -/
  | json
  /-- The layout describes no real target. -/
  | invalid (flaw : LayoutFlaw)
  deriving DecidableEq, Repr

/-- The wording of an error. -/
def LayoutError.message : LayoutError → String
  | .unreadable => "failed to read layout"
  | .toml | .json => "failed to parse layout"
  | .invalid flaw => "invalid layout: " ++ flaw.message

namespace Layout

/-- The layout, unless it is flawed. -/
def checked (l : Layout) : Except LayoutError Layout :=
  match l.flaw? with
  | some flaw => .error (.invalid flaw)
  | none => .ok l

/-- The valid layout that JSON data describe. -/
def ofJsonData (d : Data) : Except LayoutError Layout :=
  match ofData? .refused d with
  | some l => l.checked
  | none => .error .json

/-- The valid layout that a JSON text describes. -/
def ofJson (text : String) : Except LayoutError Layout :=
  match Json.read? text with
  | some d => ofJsonData d
  | none => .error .json

/-- The valid layout that a TOML text describes. -/
def ofToml (text : String) : Except LayoutError Layout :=
  match (Toml.read? text).bind (ofData? .ignored) with
  | some l => l.checked
  | none => .error .toml

end Layout

end Postmortem
