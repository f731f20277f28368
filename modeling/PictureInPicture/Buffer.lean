-- Buffers of producers. A buffer may have padding after each row and gaps between its
-- pixels. It is checked before a byte of it is read, and it is packed into tight rows.
-- Sizes and strides are 64-bit words, so the check has to tell products that do not fit.
import PictureInPicture.Buffer.Fault
import PictureInPicture.Crash

namespace PictureInPicture

/-- One plane of samples as a producer hands it over. -/
structure Buffer where
  width : UInt32
  height : UInt32
  /-- Bytes from the start of a row to the start of the next. -/
  rowStride : UInt64
  /-- Bytes from the start of a pixel to the start of the next. -/
  pixelStride : UInt64
  data : ByteArray

namespace Buffer

/-! ## Words of 64 bits -/

/-- The product, unless it needs more than 64 bits. -/
def mul? (a b : UInt64) : Option UInt64 :=
  if a.toNat * b.toNat < UInt64.size then some (a * b) else none

/-- The sum, unless it needs more than 64 bits. -/
def add? (a b : UInt64) : Option UInt64 :=
  if a.toNat + b.toNat < UInt64.size then some (a + b) else none

/-- The product. One that needs more than 64 bits is a crash. -/
def product (a b : UInt64) : Except Crash UInt64 :=
  match mul? a b with
  | some ab => .ok ab
  | none => .error (.productTooLarge a.toNat b.toNat)

/-- The largest word. It stands for a length that no data has. -/
def unreachable : UInt64 := 0xFFFFFFFFFFFFFFFF

/-! ## Making buffers -/

/-- A buffer without padding and gaps. The length of its rows has to fit a word. -/
def tight (width height : UInt32) (channels : UInt64) (data : ByteArray) :
    Except Crash Buffer := do
  let rowStride ← product width.toUInt64 channels
  return ⟨width, height, rowStride, channels, data⟩

/-- Some bytes `n` times over, for an `n` of so many binary digits. The bytes are doubled
for each digit. -/
def replicateUpTo (texel : ByteArray) : (digits n : Nat) → ByteArray
  | 0, _ => ByteArray.empty
  | digits + 1, n =>
    let half := replicateUpTo texel digits (n / 2)
    if n % 2 = 0 then half ++ half else half ++ half ++ texel

/-- Some bytes, so many times over. -/
def replicate (texel : ByteArray) (n : Nat) : ByteArray := replicateUpTo texel (n.log2 + 1) n

theorem toList_data_replicateUpTo (texel : ByteArray) (digits n : Nat)
    (h : n < Nat.pow 2 digits) :
    (replicateUpTo texel digits n).data.toList =
      (List.replicate n texel.data.toList).flatten := by
  induction digits generalizing n with
  | zero =>
    have : n = 0 := by simpa using h
    subst this
    rfl
  | succ digits ih =>
    have half : n / 2 < Nat.pow 2 digits := by
      have : Nat.pow 2 (digits + 1) = Nat.pow 2 digits * 2 := rfl
      omega
    have split : n = n / 2 + n / 2 + n % 2 := by omega
    unfold replicateUpTo
    by_cases even : n % 2 = 0
    · conv => rhs; rw [split, even]
      simp [even, ih _ half, ← List.replicate_append_replicate]
    · have odd : n % 2 = 1 := by omega
      conv => rhs; rw [split, odd]
      simp [odd, ih _ half, ← List.replicate_append_replicate]

theorem toList_data_replicate (texel : ByteArray) (n : Nat) :
    (replicate texel n).data.toList = (List.replicate n texel.data.toList).flatten :=
  toList_data_replicateUpTo texel _ n Nat.lt_log2_self

theorem size_replicate (texel : ByteArray) (n : Nat) :
    (replicate texel n).size = n * texel.size := by
  have h := congrArg List.length (toList_data_replicate texel n)
  simp only [List.length_flatten, List.map_replicate, List.sum_replicate_nat,
    Array.length_toList] at h
  exact h

/-- A buffer without padding and gaps, with every pixel the same. -/
def filled (width height : UInt32) (texel : ByteArray) : Buffer :=
  let channels := texel.size.toUInt64
  ⟨width, height, width.toUInt64 * channels, channels,
    replicate texel (width.toNat * height.toNat)⟩

/-- The same buffer, if its bytes can be addressed. -/
def fill (width height : UInt32) (texel : ByteArray) : Except Crash Buffer := do
  reserve [texel.size * (width.toNat * height.toNat)]
  return filled width height texel

def size (b : Buffer) : Size := ⟨b.width, b.height⟩

/-- No padding and no gaps for pixels of so many bytes. -/
def isTight (b : Buffer) (channels : UInt64) : Bool :=
  b.pixelStride = channels && b.rowStride.toNat = b.width.toNat * channels.toNat

/-- The same question about a buffer that was not checked. Where the pixel stride does not
settle it, the length of a row has to fit a word. -/
def askTight (b : Buffer) (channels : UInt64) : Except Crash Bool := do
  if b.pixelStride = channels then
    let _ ← product b.width.toUInt64 channels
  return b.isTight channels

/-- The byte of a channel of a pixel. -/
def byte? (b : Buffer) (x y channel : Nat) : Option UInt8 :=
  b.data[y * b.rowStride.toNat + x * b.pixelStride.toNat + channel]?

/-! ## The check -/

/-- The number of bytes from the start of the first pixel to the end of the last one. The
padding of the last row may be left out. -/
def required (b : Buffer) (channels : UInt64) : UInt64 :=
  let lastRow := (b.width.toUInt64 - 1) * b.pixelStride + channels
  match mul? (b.height.toUInt64 - 1) b.rowStride with
  | none => unreachable
  | some rows => (add? rows lastRow).getD unreachable

/-- Every byte of every pixel lies inside the data, and no two pixels share a byte. -/
def validate (b : Buffer) (channels : UInt64) : Except BufferFault Unit :=
  if b.size.isEmpty then .error (.zeroDimension b.size)
  else if b.pixelStride < channels then
    .error (.pixelStrideTooSmall b.pixelStride channels)
  else
    match mul? b.width.toUInt64 b.pixelStride with
    | none => .error (.truncated unreachable b.data.size)
    | some minRow =>
      if b.rowStride < minRow then
        .error (.rowStrideTooSmall b.rowStride b.width b.pixelStride)
      else if b.data.size < (b.required channels).toNat then
        .error (.truncated (b.required channels) b.data.size)
      else .ok ()

/-! ## Packing -/

/-- A part of a row, appended to the output. -/
def copySlice (data : ByteArray) (start stop limit : Nat) (out : ByteArray) :
    Except Crash ByteArray :=
  if stop ≤ limit then .ok (out ++ data.extract start stop)
  else .error (.sliceOutOfRange stop limit)

/-- The pixels `x` and later of a row that lies between `start` and `stop`, one by one. -/
def gatherPixels (b : Buffer) (channels start stop : Nat) :
    (count x : Nat) → ByteArray → Except Crash ByteArray
  | 0, _, out => .ok out
  | count + 1, x, out =>
    let first := start + x * b.pixelStride.toNat
    match copySlice b.data first (first + channels) stop out with
    | .error crash => .error crash
    | .ok out => gatherPixels b channels start stop count (x + 1) out

/-- One row without its padding and gaps. -/
def packRow (b : Buffer) (channels row : Nat) (out : ByteArray) : Except Crash ByteArray :=
  let start := row * b.rowStride.toNat
  let stop := min (start + b.rowStride.toNat) b.data.size
  if b.pixelStride.toNat = channels then
    copySlice b.data start (start + b.width.toNat * channels) stop out
  else gatherPixels b channels start stop b.width.toNat 0 out

/-- So many rows from `row` on. -/
def packRows (b : Buffer) (channels : Nat) :
    (count row : Nat) → ByteArray → Except Crash ByteArray
  | 0, _, out => .ok out
  | count + 1, row, out =>
    match packRow b channels row out with
    | .error crash => .error crash
    | .ok out => packRows b channels count (row + 1) out

/-- The number of rows that the data is cut into. The last one may be short. -/
def chunkCount (b : Buffer) : Nat :=
  (b.data.size + b.rowStride.toNat - 1) / b.rowStride.toNat

/-- The pixels of a checked buffer without padding and gaps. -/
def pack (b : Buffer) (channels : UInt64) : Except Crash ByteArray :=
  if b.rowStride = 0 then .error .rowsOfNoBytes
  else packRows b channels.toNat (min b.height.toNat b.chunkCount) 0 ByteArray.empty

/-- The bytes of an answer, with whether they had to be copied. -/
inductive TightBytes where
  /-- The data starts with them. -/
  | borrowed (bytes : ByteArray)
  /-- They were gathered. -/
  | copied (bytes : ByteArray)

def TightBytes.bytes : TightBytes → ByteArray
  | borrowed bytes => bytes
  | copied bytes => bytes

/-- Why a buffer is not copied. -/
inductive Stop where
  | refused (fault : BufferFault)
  | crashed (crash : Crash)
  deriving DecidableEq, Repr

/-- The pixels without padding and gaps, in memory of their own. -/
def repack (b : Buffer) (channels : UInt64) : Except Stop ByteArray :=
  match b.validate channels with
  | .error fault => .error (.refused fault)
  | .ok () => (b.pack channels).mapError .crashed

/-- The pixels without padding and gaps. Nothing is copied when the buffer has none. -/
def tightBytes (b : Buffer) (channels : UInt64) : Except Stop TightBytes :=
  match b.validate channels with
  | .error fault => .error (.refused fault)
  | .ok () =>
    if b.isTight channels then
      let length := b.size.area * channels.toNat
      if length ≤ b.data.size then .ok (.borrowed (b.data.extract 0 length))
      else .error (.crashed (.sliceOutOfRange length b.data.size))
    else ((b.pack channels).map .copied).mapError .crashed

end Buffer

end PictureInPicture
