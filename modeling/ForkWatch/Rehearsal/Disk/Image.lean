import ForkWatch.Rehearsal.Disk.Database
import ForkWatch.Text.Utf16

/-! # Files that may be databases

Another program may have made a database. Its file is cut into pages, and the first page begins
with a heading, which tells how large they are, how many, and who can read and change them. What
lies past the end of the file counts as zero.
-/

namespace ForkWatch.Rehearsal

/-- The bytes of a file that may be a database. -/
structure Image where
  bytes : Array UInt8

namespace Image

def ofText (text : String) : Image := ⟨text.toUTF8.data⟩

def byte (im : Image) (i : Nat) : Nat := (im.bytes.getD i 0).toNat

def total (ns : List Nat) : Nat := ns.foldl (· + ·) 0

def word16 (im : Image) (i : Nat) : Nat := 256 * im.byte i + im.byte (i + 1)

def word32 (im : Image) (i : Nat) : Nat := 65536 * im.word16 i + im.word16 (i + 2)

def title : String := "SQLite format 3\x00"

def isTitled (im : Image) : Bool :=
  im.bytes.toList.take title.utf8ByteSize == Text.Utf8.encode title

/-- The least version that can change the file, and the least that can read it. -/
def writeVersion (im : Image) : Nat := im.byte 18

def readVersion (im : Image) : Nat := im.byte 19

/-- The newest version that is known: from it on, changes are logged ahead. -/
def newestVersion : Nat := 2

def pageSize (im : Image) : Nat := 256 * im.byte 16 + 65536 * im.byte 17

/-- A page leaves some bytes at its end for other uses. -/
def usableSize (im : Image) : Nat := im.pageSize - im.byte 20

def pagesInFile (im : Image) : Nat := (im.bytes.size + im.pageSize - 1) / im.pageSize

/-- The number of pages: as the heading tells it, if the last change brought that up to date. -/
def pageCount (im : Image) : Nat :=
  if im.word32 28 = 0 || im.word32 24 != im.word32 92 then im.pagesInFile else im.word32 28

/-- The first page of the list of free ones, and their number. -/
def freeTrunk (im : Image) : Nat := im.word32 32

def freeCount (im : Image) : Nat := im.word32 36

/-- The format of the rows, and the newest that is known. -/
def format (im : Image) : Nat := im.byte 47

def newestFormat : Nat := 4

/-- The last page that begins a table or an index, which is kept where pages can be moved. -/
def lastRoot (im : Image) : Nat := im.word32 52

/-- Whether free pages are kept until they are asked for. -/
def keepsFree (im : Image) : Bool := im.word32 64 != 0

inductive Encoding where
  | utf8
  | utf16 (highFirst : Bool)

def encoding (im : Image) : Encoding :=
  match im.byte 59 % 4 with
  | 2 => .utf16 false
  | 3 => .utf16 true
  | _ => .utf8

def Encoding.decode : Encoding → List UInt8 → List Char
  | utf8, bytes => (Text.Utf8.pieces bytes).map Text.Utf8.Piece.shown
  | utf16 highFirst, bytes => Text.Utf16.decodeLeniently highFirst bytes

def pageSizes : List Nat := [512, 1024, 2048, 4096, 8192, 16384, 32768, 65536]

def leastUsableSize : Nat := 480

/-- The parts of a row that each page has to hold, in parts of 255. -/
def fractions : List Nat := [64, 32, 32]

def checkPages (im : Image) : Except Refusal Unit :=
  if [im.byte 21, im.byte 22, im.byte 23] != fractions || !pageSizes.contains im.pageSize then
    .error .notTable
  else if im.pagesInFile < im.pageCount then .error .malformed
  else if im.usableSize < leastUsableSize then .error .notTable
  else .ok ()

end Image

end ForkWatch.Rehearsal
