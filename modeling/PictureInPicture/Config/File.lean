-- Settings from a document, and from a file that holds one.
import PictureInPicture.Config.Decode
import PictureInPicture.Toml.Document

namespace PictureInPicture

/-- What is found under a path. -/
inductive FileContent where
  | missing
  | directory
  | bytes (data : ByteArray)

/-- The text of a file. -/
def FileContent.read : FileContent → Except ReadFault String
  | missing => .error .notFound
  | directory => .error .directory
  | bytes data =>
    match String.fromUTF8? data with
    | some text => .ok text
    | none => .error .notUtf8

namespace Config

/-- Settings that a session accepts. -/
def checked (c : Config Float32) : Except ConfigFault (Config Float32) :=
  match c.validate with
  | .ok () => .ok c
  | .error fault => .error (.invalid fault)

/-- The settings that a document describes. -/
def ofText (text : String) : Except ConfigFault (Config Float32) :=
  match Toml.parse text with
  | none => .error .malformed
  | some entries =>
    match Decode.config (.table entries) with
    | .ok c => c.checked
    | .error fault => .error (.decode fault)

/-- The settings in the file under a path. -/
def ofFile (path : String) (content : FileContent) : Except ConfigFault (Config Float32) :=
  match content.read with
  | .ok text => ofText text
  | .error fault => .error (.unreadable path fault)

end Config

end PictureInPicture
