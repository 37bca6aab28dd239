import CommentLint.Lexer
import CommentLint.Violation

/-
  A file's bytes with their classified spans.

  Offsets count bytes.  Columns count characters of the line
  as lenient decoding reads it.  The line of an offset is
  found by bisecting the offsets at which lines start.

  Key definitions include:
    * `SourceFile`
    * `SourceFile.substring?`
    * `SourceFile.lineStarts`
    * `SourceFile.location`
-/

namespace CommentLint

/- A file, its dialect and its spans. -/
structure SourceFile where
  path : String
  data : Bytes
  dialect : Dialect
  spans : List Span
deriving DecidableEq, Repr

namespace SourceFile

------------------------------------------------------------
-- Construction
------------------------------------------------------------

/-
  A source file.  The dialect follows from the path and the
  spans from the bytes, unless they are given.
-/
def ofBytes
    (data : Bytes)
    (path : String)
    (spans? : Option (List Span))
    (dialect? : Option Dialect) : SourceFile :=
  let dialect := dialect?.getD (Dialect.ofPath path)
  { path := path
    data := data
    dialect := dialect
    spans := spans?.getD (Lexer.tokenize dialect data) }

/- The source file of the bytes at a path. -/
def read
    (data : Bytes)
    (path : String) : SourceFile :=
  ofBytes data path none none

/- The path of source that is in no file. -/
def memoryPath : String :=
  "<memory>"

------------------------------------------------------------
-- Text of Byte Ranges
------------------------------------------------------------

/- The bytes from one offset to another. -/
def slice
    (data : Bytes)
    (start stop : Nat) : Bytes :=
  (data.take stop).drop start

/- The text of a byte range that lies in the file and is valid. -/
def substring?
    (f : SourceFile)
    (offset length : Int) : Option (List Char) :=
  if offset < 0 ∨ length < 0 ∨ f.data.length < offset + length
  then none
  else
    Utf8.decode?
      ((f.data.drop offset.toNat).take length.toNat)

/- The text of a span. -/
def spanText?
    (f : SourceFile)
    (s : Span) : Option (List Char) :=
  f.substring? s.offset s.length

------------------------------------------------------------
-- Line Starts
------------------------------------------------------------

/-
  The offsets at which lines start, behind those found
  already, which are given reversed.  The bytes begin at the
  given offset.
-/
def startsOnto
    (found : List Nat)
    (offset : Nat) :
    Bytes → List Nat
  | [] => found.reverse
  | b :: rest =>
      if b = Ascii.lineFeed then
        startsOnto ((offset + 1) :: found) (offset + 1) rest
      else startsOnto found (offset + 1) rest

/- The offsets at which the lines of a file start. -/
def lineStarts (data : Bytes) : List Nat :=
  startsOnto [0] 0 data

/-
  Halve a range of places down to the first of a start past
  an offset; the first number bounds the steps.
-/
def bisect
    (starts : List Nat)
    (offset : Int) :
    Nat → Nat → Nat → Nat
  | 0, low, _ => low
  | steps + 1, low, high =>
      if low < high then
        let middle := (low + high) / 2
        if offset < starts.getD middle 0 then
          bisect starts offset steps low middle
        else bisect starts offset steps (middle + 1) high
      else low

/- The number of starts, given in order, up to an offset. -/
def startsUpTo
    (starts : List Nat)
    (offset : Int) : Nat :=
  bisect starts offset starts.length 0 starts.length

------------------------------------------------------------
-- Locations
------------------------------------------------------------

/- The column just past the given bytes of a line. -/
def columnAfter (bytes : Bytes) : Int :=
  (Utf8.decodeLenient bytes).length + 1

/-
  A place counted from the front of as many items as given.
  A negative place counts from the end.
-/
def fromFront
    (size : Nat)
    (place : Int) : Nat :=
  if 0 ≤ place then place.toNat else (size + place).toNat

/-
  The location of an offset.  An offset past the end has the
  location of the end.  A negative offset counts from the end
  and is put into the last line, as line zero.
-/
def location
    (f : SourceFile)
    (offset : Int) : Location :=
  let starts := lineStarts f.data
  let index : Int := startsUpTo starts offset - 1
  let start := starts.getD (fromFront starts.length index) 0
  let stop := fromFront f.data.length offset
  { path := f.path
    offset := offset
    line := index + 1
    column := columnAfter (slice f.data start stop) }

end SourceFile

end CommentLint
