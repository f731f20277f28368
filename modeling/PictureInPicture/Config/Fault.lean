-- Why settings cannot be loaded.
import PictureInPicture.Config
import PictureInPicture.Decimal.Shortest

namespace PictureInPicture

/-! ## Settings that are refused -/

def SizeField.name : SizeField → String
  | .source role => role.name ++ ".size"
  | .output => "output"

def Invalid.reason : Invalid Float32 → String
  | .emptySize field size => field.name ++ " must be non-empty, got " ++ size.text
  | .widthRatio x => "layout.width_ratio must be in (0, 1], got " ++ Decimal.text x
  | .heightRatio x => "layout.height_ratio must be in (0, 1], got " ++ Decimal.text x
  | .marginRatio x => "layout.margin_ratio must be in [0, 1), got " ++ Decimal.text x
  | .overlayOpacity x => "layout.overlay_opacity must be in [0, 1], got " ++ Decimal.text x

/-! ## Documents that cannot be decoded -/

/-- Why a document does not describe settings. -/
inductive DecodeFault where
  /-- A key that has to be there. -/
  | missingField (name : String)
  /-- A name that is none of those that are known. -/
  | unknownVariant (name : String) (known : List String)
  /-- A turn that is no multiple of a right angle. -/
  | rotation (degrees : Nat)
  /-- A value of another kind, a number out of range, or a list of another length. -/
  | unexpected
  deriving DecidableEq, Repr

namespace DecodeFault

def quoted (name : String) : String := "`" ++ name ++ "`"

/-- The known names: none, one, two joined by "or", or a list. -/
def expectation : List String → String
  | [] => "there are no variants"
  | [a] => "expected " ++ quoted a
  | [a, b] => "expected " ++ quoted a ++ " or " ++ quoted b
  | known => "expected one of " ++ ", ".intercalate (known.map quoted)

/-- The reason, where it has a wording of its own. -/
def reason? : DecodeFault → Option String
  | missingField name => some ("missing field " ++ quoted name)
  | unknownVariant name known =>
    some ("unknown variant " ++ quoted name ++ ", " ++ expectation known)
  | rotation degrees =>
    some ("rotation must be one of 0, 90, 180 or 270 degrees, got " ++ toString degrees)
  | unexpected => none

end DecodeFault

/-! ## Files that cannot be read -/

/-- Why the text of a file is not there. -/
inductive ReadFault where
  | notFound
  | directory
  | notUtf8
  deriving DecidableEq, Repr

def ReadFault.reason : ReadFault → String
  | .notFound => "No such file or directory (os error 2)"
  | .directory => "Is a directory (os error 21)"
  | .notUtf8 => "stream did not contain valid UTF-8"

/-- Why settings cannot be loaded. -/
inductive ConfigFault where
  /-- The text is no document. -/
  | malformed
  | decode (fault : DecodeFault)
  | unreadable (path : String) (fault : ReadFault)
  | invalid (fault : Invalid Float32)
  deriving DecidableEq, Repr

namespace ConfigFault

def message : ConfigFault → String
  | malformed => "failed to parse configuration"
  | decode fault => "failed to parse configuration: " ++ fault.reason?.getD "unexpected value"
  | unreadable path fault =>
    "failed to read configuration at " ++ path ++ ": " ++ fault.reason
  | invalid fault => "invalid configuration: " ++ fault.reason

end ConfigFault

end PictureInPicture
