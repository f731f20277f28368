-- Steps that a running compositor cannot take. A crash is not a fault that is reported: the
-- step has no result, and what it was doing is left as it was at that moment.

namespace PictureInPicture

/-- Why a step has no result. -/
inductive Crash where
  /-- Data is cut into rows of no bytes. -/
  | rowsOfNoBytes
  /-- A part of a row that ends before it. -/
  | sliceOutOfRange (stop size : Nat)
  /-- The nearest pixel of a texture that has none. -/
  | emptyTexture
  /-- A sample outside the memory of a texture. -/
  | sampleOutOfRange (index size : Nat)
  /-- A pixel outside the picture that is drawn. -/
  | pixelOutOfRange (index size : Nat)
  /-- A copy between memories of different sizes. -/
  | lengthMismatch (target source : Nat)
  /-- A memory of more bytes than can be addressed. -/
  | outOfAddresses (bytes : Nat)
  /-- A product that needs more than 64 bits. -/
  | productTooLarge (a b : Nat)
  /-- A step that was told to crash. -/
  | staged
  deriving DecidableEq, Repr

/-- The largest number of bytes in one memory. -/
def addressLimit : Nat := 9223372036854775807

/-- Memories of so many bytes can be had, as far as their addresses go. -/
def reserve (sizes : List Nat) : Except Crash Unit :=
  match sizes.find? (addressLimit < ·) with
  | some bytes => .error (.outOfAddresses bytes)
  | none => .ok ()

end PictureInPicture
