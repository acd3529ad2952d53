import AutoTargeting.Detector.Preprocess
import AutoTargeting.Library.Buffers

-- The conversions between pixel formats. A `none` is a panic.

namespace AutoTargeting.VideoCapture

open Buffers
open Detector (clamp8 rgbPixel slice)

inductive PixelFormat
  | nv12
  | yuyv
  | rgb24
  | mjpeg
  deriving DecidableEq, Repr

structure FrameMetadata where
  width : ℕ
  height : ℕ
  format : PixelFormat
  capturedAt : ℤ
  seq : ℕ
  deriving DecidableEq, Repr

structure Frame where
  data : List UInt8
  metadata : FrameMetadata
  deriving DecidableEq, Repr

inductive ConversionError
  | jpegDecode (message : String)
  | invalidFormat (expected actual : PixelFormat)
  | invalidDimensions (w h len : ℕ)
  | unsupportedConversion (source target : PixelFormat)
  deriving DecidableEq, Repr

abbrev ConversionResult := Except ConversionError Frame

/-- The checks of the format and the length, then the pixels. -/
def convertPixels (source target : PixelFormat) (expectedLen : ℕ → ℕ → ℕ)
    (pixels : List UInt8 → ℕ → ℕ → Option (List UInt8)) (frame : Frame) :
    Option ConversionResult :=
  let w := frame.metadata.width
  let h := frame.metadata.height
  if frame.metadata.format ≠ source then
    some (.error (.invalidFormat source frame.metadata.format))
  else if frame.data.length ≠ expectedLen w h then
    some (.error (.invalidDimensions w h frame.data.length))
  else
    (pixels frame.data w h).map fun data =>
      .ok ⟨data, { frame.metadata with format := target }⟩

/-- A row of the Y plane; the last byte of an odd row comes from the rest of the pairs. -/
def yuyvLumaRow (w : ℕ) (srcRow yRow : List UInt8) : Option (List UInt8) := do
  let pairs ← chunksExact 4 srcRow
  let yRow ← zipChunksMut 2
    (fun pair out2 => do overwrite [← pair[0]?, ← pair[2]?] out2) pairs yRow
  if w % 2 = 1 then
    -- `y_row.last_mut()`: the row is not empty here, as `w` is odd
    match (remainder 4 srcRow).head? with
    | some yVal => some (yRow.set (yRow.length - 1) yVal)
    | none => some yRow
  else some yRow

/-- A row of the UV plane, from the even row of the source. -/
def yuyvChromaRow (w : ℕ) (data : List UInt8) (rowIdx : ℕ) (uvRow : List UInt8) :
    Option (List UInt8) := do
  let srcRow ← slice data (2 * rowIdx * w * 2) (w * 2)
  let pairs ← chunksExact 4 srcRow
  let uvRow ← zipChunksMut 2
    (fun pair out2 => do overwrite [← pair[1]?, ← pair[3]?] out2) pairs uvRow
  if w % 2 = 1 then
    let tail := remainder 4 srcRow
    let u := tail[1]?.getD 128
    let v := tail[3]?.getD 128
    let x := w - 1
    -- of the pair only the U is in the row
    onSlice x (uvRow.length - x) (fun last => do overwrite (← slice [u, v] 0 (w - x)) last) uvRow
  else some uvRow

def yuyvToNv12Pixels (data : List UInt8) (w h : ℕ) : Option (List UInt8) := do
  let rows ← chunksExact (w * 2) data
  onSplit (w * h) (zipChunksMut w (yuyvLumaRow w) rows)
    (onSlice 0 (h / 2 * w) (enumerateChunksMut w (yuyvChromaRow w data)))
    (List.replicate (w * h * 3 / 2) 0)

def yuyvToNv12 : Frame → Option ConversionResult :=
  convertPixels .yuyv .nv12 (fun w h => w * h * 2) yuyvToNv12Pixels

def ycbcrToRgbI32 (y cb cr : ℤ) : List UInt8 := rgbPixel y cb cr

/-- A row of the picture; an odd pixel at the end takes the chroma that is there. -/
def yuyvRgbRow (w : ℕ) (srcRow dstRow : List UInt8) : Option (List UInt8) := do
  let pairs ← chunksExact 4 srcRow
  let dstRow ← zipChunksMut 6
    (fun pair out6 => do
      let u : ℤ := (← pair[1]?).toNat - 128
      let v : ℤ := (← pair[3]?).toNat - 128
      overwrite (ycbcrToRgbI32 (← pair[0]?).toNat u v ++ ycbcrToRgbI32 (← pair[2]?).toNat u v) out6)
    pairs dstRow
  if w % 2 = 1 then
    let tail := remainder 4 srcRow
    let yVal : ℤ := (tail.head?.getD 128).toNat
    let u : ℤ := (tail[1]?.getD 128).toNat - 128
    -- the rest of an odd row has two bytes, so that V is always the neutral one
    let v : ℤ := (tail[3]?.getD 128).toNat - 128
    let pixel := ycbcrToRgbI32 yVal u v
    onSlice ((w - 1) * 3) (dstRow.length - (w - 1) * 3)
      (fun out3 => do
        let out3 ← setAt 0 (← pixel[0]?) out3
        let out3 ← setAt 1 (← pixel[1]?) out3
        setAt 2 (← pixel[2]?) out3)
      dstRow
  else some dstRow

def yuyvToRgb24Pixels (data : List UInt8) (w h : ℕ) : Option (List UInt8) := do
  let rows ← chunksExact (w * 2) data
  zipChunksMut (w * 3) (yuyvRgbRow w) rows (List.replicate (w * h * 3) 0)

def yuyvToRgb24 : Frame → Option ConversionResult :=
  convertPixels .yuyv .rgb24 (fun w h => w * h * 2) yuyvToRgb24Pixels

def nv12ToRgb24 : Frame → Option ConversionResult :=
  convertPixels .nv12 .rgb24 (fun w h => w * h * 3 / 2) Detector.nv12ToRgb24

def rgbToYU8 (r g b : UInt8) : UInt8 :=
  clamp8 ((77 * (r.toNat : ℤ) + 150 * g.toNat + 29 * b.toNat + 128) >>> 8)

def rgbToCb (px : List UInt8) : Option ℤ := do
  let r ← px[0]?
  let g ← px[1]?
  let b ← px[2]?
  return -43 * (r.toNat : ℤ) - 85 * g.toNat + 128 * b.toNat + 32768

def rgbToCr (px : List UInt8) : Option ℤ := do
  let r ← px[0]?
  let g ← px[1]?
  let b ← px[2]?
  return 128 * (r.toNat : ℤ) - 107 * g.toNat - 21 * b.toNat + 32768

def rgbLumaRow (srcRow yRow : List UInt8) : Option (List UInt8) := do
  let pixels ← chunksExact 3 srcRow
  zipChunksMut 1 (fun px out => do overwrite [rgbToYU8 (← px[0]?) (← px[1]?) (← px[2]?)] out)
    pixels yRow

/-- The UV pair of a block of two by two pixels. -/
def rgbChromaBlock (src0 src1 : List UInt8) (uvRow : List UInt8) (x : ℕ) : Option (List UInt8) := do
  let p0 ← slice src0 (x * 3) 3
  let p1 ← slice src0 (x * 3 + 3) 3
  let p2 ← slice src1 (x * 3) 3
  let p3 ← slice src1 (x * 3 + 3) 3
  let cu := (← rgbToCb p0) + (← rgbToCb p1) + (← rgbToCb p2) + (← rgbToCb p3)
  let cv := (← rgbToCr p0) + (← rgbToCr p1) + (← rgbToCr p2) + (← rgbToCr p3)
  let uvRow ← setAt x (clamp8 (cu >>> 10)) uvRow
  setAt (x + 1) (clamp8 (cv >>> 10)) uvRow

/-- A row of the UV plane: blocks, and the U of an odd column at the end. -/
def rgbChromaRow (w : ℕ) (src0 src1 uvRow : List UInt8) : Option (List UInt8) := do
  let uvRow ← (List.range' 0 (w / 2) 2).foldlM (rgbChromaBlock src0 src1) uvRow
  let x := w / 2 * 2
  if x < w then
    let p0 ← slice src0 (x * 3) 3
    let p2 ← slice src1 (x * 3) 3
    let cu := ((← rgbToCb p0) + (← rgbToCb p2)) >>> 1
    -- the source computes the V, too, and has no place for it in the row
    let _cv := ((← rgbToCr p0) + (← rgbToCr p2)) >>> 1
    setAt x (clamp8 (cu >>> 8)) uvRow
  else some uvRow

/-- The UV pair of two pixels of the last row. -/
def rgbChromaPair (src : List UInt8) (uvRow : List UInt8) (x : ℕ) : Option (List UInt8) := do
  let p0 ← slice src (x * 3) 3
  let p1 ← slice src (x * 3 + 3) 3
  let cu := ((← rgbToCb p0) + (← rgbToCb p1)) >>> 1
  let cv := ((← rgbToCr p0) + (← rgbToCr p1)) >>> 1
  let uvRow ← setAt x (clamp8 (cu >>> 8)) uvRow
  setAt (x + 1) (clamp8 (cv >>> 8)) uvRow

/-- The UV plane; the last row of an odd height is averaged over its pairs, as far as there is
room. -/
def rgbChroma (data : List UInt8) (w h : ℕ) (uvPlane : List UInt8) : Option (List UInt8) := do
  let uvRows := h / 2
  let uvPlane ← (List.range uvRows).foldlM
    (fun uvPlane row => do
      let src0 ← slice data (2 * row * w * 3) (w * 3)
      let src1 ← slice data ((2 * row + 1) * w * 3) (w * 3)
      onSlice (row * w) w (rgbChromaRow w src0 src1) uvPlane)
    uvPlane
  if h % 2 = 1 then
    -- without a second row the pairs of the last one are averaged alone
    let src ← slice data ((h - 1) * w * 3) (w * 3)
    onSlice (uvRows * w) (uvPlane.length - uvRows * w)
      (fun uvRow => (List.range' 0 (uvRow.length / 2) 2).foldlM (rgbChromaPair src) uvRow) uvPlane
  else some uvPlane

def rgb24ToNv12Pixels (data : List UInt8) (w h : ℕ) : Option (List UInt8) := do
  let rows ← chunksExact (w * 3) data
  onSplit (w * h) (zipChunksMut w rgbLumaRow rows) (rgbChroma data w h)
    (List.replicate (w * h * 3 / 2) 0)

def rgb24ToNv12 : Frame → Option ConversionResult :=
  convertPixels .rgb24 .nv12 (fun w h => w * h * 3) rgb24ToNv12Pixels

/-- `jpeg_decoder`: the pixels of a picture, and the size that it reports after decoding. -/
structure JpegDecoder where
  decode : List UInt8 → Except String (List UInt8)
  info : List UInt8 → Option (ℕ × ℕ)

def decodeMjpegToRgb (jpeg : JpegDecoder) (frame : Frame) : ConversionResult :=
  if frame.metadata.format ≠ .mjpeg then
    .error (.invalidFormat .mjpeg frame.metadata.format)
  else
    match jpeg.decode frame.data with
    | .error e => .error (.jpegDecode e)
    | .ok pixels =>
      match jpeg.info frame.data with
      | none => .error (.jpegDecode "no JPEG info")
      | some (width, height) =>
        -- how many bytes a pixel has is not looked at
        .ok ⟨pixels, { frame.metadata with width, height, format := .rgb24 }⟩

def decodeMjpegToNv12 (jpeg : JpegDecoder) (frame : Frame) : Option ConversionResult :=
  match decodeMjpegToRgb jpeg frame with
  | .error e => some (.error e)
  | .ok rgb => rgb24ToNv12 rgb

def convertTo (jpeg : JpegDecoder) (frame : Frame) (target : PixelFormat) :
    Option ConversionResult :=
  -- nothing to do, and nothing is checked
  if frame.metadata.format = target then some (.ok frame)
  else
    match frame.metadata.format, target with
    | .mjpeg, .rgb24 => some (decodeMjpegToRgb jpeg frame)
    | .mjpeg, .nv12 => decodeMjpegToNv12 jpeg frame
    | .yuyv, .nv12 => yuyvToNv12 frame
    | .yuyv, .rgb24 => yuyvToRgb24 frame
    | .rgb24, .nv12 => rgb24ToNv12 frame
    | .nv12, .rgb24 => nv12ToRgb24 frame
    | source, target => some (.error (.unsupportedConversion source target))

end AutoTargeting.VideoCapture
