-- The values of a TOML document.

namespace PictureInPicture.Toml

/-- A value. A table keeps its entries in the order in which the document gives them. -/
inductive Value where
  | text (s : String)
  | integer (n : Int)
  | float (x : Float)
  | boolean (b : Bool)
  /-- A date, a time or both. No setting is one, so nothing of it is kept. -/
  | moment
  | array (items : List Value)
  | table (entries : List (String × Value))
  deriving Inhabited

namespace Value

/-- The key that a date-time stands under where it is read as a table. -/
def momentKey : String := "$__toml_private_datetime"

/-- The entries of a value that is read as a table. A date-time is a table of one entry. -/
def entries? : Value → Option (List (String × Value))
  | table entries => some entries
  | moment => some [(momentKey, text "")]
  | _ => none

end Value

end PictureInPicture.Toml
