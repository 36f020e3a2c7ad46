/-!
# Zstandard frames with stored blocks

Account data may come compressed as a sequence of Zstandard frames. This reader takes frames
whose blocks are stored as they are (*raw*) or as one repeated byte (*run-length*); a block
compressed with entropy coding is not read, and neither is anything malformed:

* a frame starts with the magic number `FD2FB528` (little-endian); a *skippable* frame
  (`184D2A50`–`184D2A5F`) carries a 32-bit length and is passed over;
* the header gives the content size, the window, and whether a dictionary or a checksum
  follows; a reserved bit set, a dictionary, or a window above `2^27` bytes is refused;
* each block has a 3-byte header (last-block bit, type, size); no block exceeds the window or
  `128 KiB`;
* a declared content size must match what the blocks produce.

No frames at all decode to no bytes.
-/

namespace PerpClient.Zstd

/-- The most bytes one block may produce. -/
def maxBlockSize : Nat := 131072

/-- The largest window this reader accepts. -/
def maxWindowSize : Nat := 134217728

/-- A little-endian number of `n` bytes from the front, and the rest. -/
def takeLE (n : Nat) (bs : List UInt8) : Option (Nat × List UInt8) :=
  if bs.length < n then none
  else some ((bs.take n).foldr (fun b acc => acc * 256 + b.toNat) 0, bs.drop n)

/-- The window a window descriptor byte describes. -/
def windowOf (wd : Nat) : Nat :=
  let base := Nat.pow 2 (10 + wd / 8)
  base + base / 8 * (wd % 8)

/-- What a frame header says: content size, window, whether a checksum ends the frame. -/
structure FrameHeader where
  contentSize : Option Nat
  window : Nat
  checksum : Bool

/-- Reads a frame header after the magic number. -/
def readHeader (bs : List UInt8) : Option (FrameHeader × List UInt8) := do
  let (fhd, bs) ← takeLE 1 bs
  let fcsFlag := fhd / 64
  let single := fhd / 32 % 2 = 1
  if fhd / 8 % 2 = 1 then none
  let checksum := fhd / 4 % 2 = 1
  let dictBytes := match fhd % 4 with
    | 0 => 0
    | 1 => 1
    | 2 => 2
    | _ => 4
  let (wd, bs) ← if single then pure (none, bs) else do
    let (w, rest) ← takeLE 1 bs
    pure (some w, rest)
  let (dict, bs) ← takeLE dictBytes bs
  if dict ≠ 0 then none
  let fcsBytes := match fcsFlag with
    | 0 => if single then 1 else 0
    | 1 => 2
    | 2 => 4
    | _ => 8
  let (fcs, bs) ← takeLE fcsBytes bs
  let contentSize := if fcsBytes = 0 then none else if fcsBytes = 2 then some (fcs + 256) else some fcs
  let window ← match wd, contentSize with
    | some w, _ => pure (windowOf w)
    | none, some c => pure c
    | none, none => none
  if window > maxWindowSize then none
  pure (⟨contentSize, window, checksum⟩, bs)

/-- Reads blocks until the last one; `fuel` bounds their number. -/
def readBlocks (window : Nat) : Nat → List UInt8 → Option (List UInt8 × List UInt8)
  | 0, _ => none
  | fuel + 1, bs => do
    let (h, bs) ← takeLE 3 bs
    let last := h % 2 = 1
    let kind := h / 2 % 4
    let size := h / 8
    if size > min window maxBlockSize then none
    let (out, bs) ← match kind with
      | 0 => if bs.length < size then none else some (bs.take size, bs.drop size)
      | 1 => do
        let (b, rest) ← takeLE 1 bs
        pure (List.replicate size b.toUInt8, rest)
      | _ => none
    if last then pure (out, bs)
    else
      let (more, bs) ← readBlocks window fuel bs
      pure (out ++ more, bs)

/-- Reads one frame after its magic number: the bytes it holds and the rest. -/
def readFrame (bs : List UInt8) : Option (List UInt8 × List UInt8) := do
  let (h, bs) ← readHeader bs
  let (out, bs) ← readBlocks h.window (bs.length + 1) bs
  let (_, bs) ← takeLE (if h.checksum then 4 else 0) bs
  if let some c := h.contentSize then
    if c ≠ out.length then none
  pure (out, bs)

/-- The magic number of a frame. -/
def frameMagic : Nat := 0xFD2FB528

/-- Whether a number is the magic number of a skippable frame. -/
def isSkippableMagic (m : Nat) : Bool := m / 16 = 0x184D2A5

/-- Reads frames until the input ends; `fuel` bounds their number. -/
def readFrames : Nat → List UInt8 → Option (List UInt8)
  | _, [] => some []
  | 0, _ => none
  | fuel + 1, bs => do
    let (magic, rest) ← takeLE 4 bs
    if magic = frameMagic then
      let (out, rest) ← readFrame rest
      if rest.length < bs.length then
        let more ← readFrames fuel rest
        pure (out ++ more)
      else none
    else if isSkippableMagic magic then
      let (len, rest) ← takeLE 4 rest
      if rest.length < len then none
      readFrames fuel (rest.drop len)
    else none

/-- The bytes a sequence of frames holds, if this reader can read them. -/
def decompress? (bs : List UInt8) : Option (List UInt8) := readFrames (bs.length + 1) bs

end PerpClient.Zstd
