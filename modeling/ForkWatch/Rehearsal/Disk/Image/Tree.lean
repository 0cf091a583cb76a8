import ForkWatch.Rehearsal.Disk.Image

/-! # Pages and rows

The rows of a table are in the leaves of a tree of pages. A row is a header with a type for each
value, and then the values. Rows are read in order, up to the first that cannot be.
-/

namespace ForkWatch.Rehearsal.Image

/-- A page by its number, from 1. -/
structure Page where
  number : Nat

namespace Page

variable (im : Image) (p : Page)

def start : Nat := (p.number - 1) * im.pageSize

/-- Where the page tells of itself. On the first page, that is after the heading of the file. -/
def header : Nat := p.start im + if p.number = 1 then 100 else 0

def isLeaf : Bool := im.byte (p.header im) == 13

/-- Whether the page is of the tree of a table. -/
def isOfTable : Bool := p.isLeaf im || im.byte (p.header im) == 5

def cellCount : Nat := im.word16 (p.header im + 3)

/-- Where the list of the places of its cells begins. -/
def cells : Nat := p.header im + if p.isLeaf im then 8 else 12

def cell (i : Nat) : Nat := p.start im + im.word16 (p.cells im + 2 * i) % im.pageSize

/-- The last page under an inner page, which has no cell. -/
def lastChild : Page := ⟨im.word32 (p.header im + 8)⟩

def children : List Page :=
  (List.range (p.cellCount im)).map (fun i => ⟨im.word32 (p.cell im i)⟩) ++ [p.lastChild im]

/-- Whether the page is there and can have its cells. -/
def isThere : Bool :=
  0 < p.number && p.number ≤ im.pageCount && p.cellCount im ≤ (im.pageSize - 8) / 6

/-- Whether the page can be of the tree of a table. -/
def isSound : Bool := p.isThere im && p.isOfTable im

/-- Whether the page can be the first of the tree of an index. -/
def isOfIndex : Bool :=
  let kind := im.byte (p.header im)
  p.isThere im && (kind == 10 || (kind == 2 && 0 < p.cellCount im))

/-- Whether a page can be the first of its tree: an inner one with no cell is only that of all. -/
def isRoot : Bool :=
  p.isSound im && (p.isLeaf im || 0 < p.cellCount im || p.number == 1)

end Page

/-- A number of up to nine bytes, and how many. Each but the ninth tells if there is one more. -/
def varintFrom (im : Image) : Nat → Nat → Nat → Nat × Nat
  | 0, i, n => (256 * n + im.byte i, 9)
  | left + 1, i, n =>
    let b := im.byte i
    if b < 128 then (128 * n + b, 8 - left) else im.varintFrom left (i + 1) (128 * n + (b - 128))

def varint (im : Image) (i : Nat) : Nat × Nat := im.varintFrom 8 i 0

inductive Value where
  | null
  | integer (n : Int)
  | real
  /-- Text, or other bytes. -/
  | text (bytes : List UInt8)
  deriving DecidableEq

namespace Value

def size (type : Nat) : Nat := [0, 1, 2, 3, 4, 6, 8, 8, 0, 0, 0, 0].getD type ((type - 12) / 2)

def signed (bytes : List UInt8) : Int :=
  let n := bytes.foldl (fun n b => 256 * n + b.toNat) 0
  if 128 ≤ (bytes.headD 0).toNat then Int.subNatNat n (Nat.pow 256 bytes.length) else Int.ofNat n

def ofBytes (type : Nat) (bytes : List UInt8) : Value :=
  if type = 0 || type = 10 || type = 11 then .null
  else if type = 7 then .real
  else if type = 8 then .integer 0
  else if type = 9 then .integer 1
  else if type < 7 then .integer (signed bytes)
  else .text bytes

/-- A value as text, which ends before the first NUL. -/
def text? (encoding : Encoding) : Value → Option String
  | null => none
  | integer n => some (toString n)
  | real => some "0.0"
  | text bytes => some (String.ofList ((encoding.decode bytes).takeWhile (· != '\x00')))

end Value

abbrev Row := List Value

/-- The types of up to `width` values in a header from `i` to `stop`, and where they end. -/
def types (im : Image) (stop : Nat) : Nat → Nat → List Nat × Nat
  | 0, i => ([], i)
  | width + 1, i =>
    if stop ≤ i then ([], i)
    else
      let (type, length) := im.varint i
      let (types, i) := im.types stop width (i + length)
      (type :: types, i)

/-- The values of some types, which begin at `i` and are all before `stop`. -/
def values (im : Image) (stop : Nat) : Nat → List Nat → Option Row
  | _, [] => some []
  | i, type :: types =>
    let size := Value.size type
    if 0 < size && stop < i + size then none
    else do
      let bytes := (List.range size).map fun k => im.bytes.getD (i + k) 0
      return .ofBytes type bytes :: (← im.values stop (i + size) types)

/-- The first values of a row. One whose page does not hold it is not read. -/
def row? (im : Image) (width : Nat) (p : Page) (cell : Nat) : Option Row := do
  let (size, a) := im.varint cell
  let (_, b) := im.varint (cell + a)
  let start := cell + a + b
  let stop := min (start + size) (p.start im + im.pageSize)
  let (header, c) := im.varint start
  let (types, i) := im.types (start + header) width (start + c)
  let used := header + total (types.map Value.size)
  if im.usableSize - 35 < size || stop < start + header then none
  else if header = 0 then some (List.replicate width .null)
  else if header ≤ c || size < used || start + header < i || (i = start + header && used != size)
  then none
  else
    let row ← im.values stop (start + header) types
    return row ++ List.replicate (width - row.length) .null

/-- The most pages on the way to a row. -/
def deepest : Nat := 20

/-- Reads on through the rows of a page and of all under it. An error has the rows before it. -/
def scan (im : Image) (width : Nat) : Nat → Page → Array Row → Except (Array Row) (Array Row)
  | 0, _, rows => .error rows
  | depth + 1, p, rows =>
    if p.isLeaf im then
      (List.range (p.cellCount im)).foldlM (fun rows i =>
        match im.row? width p (p.cell im i) with
        | some row => .ok (rows.push row)
        | none => .error rows) rows
    else
      (p.children im).foldlM (fun rows child =>
        if child.isSound im && 0 < child.cellCount im then im.scan width depth child rows
        else .error rows) rows

def table (im : Image) (width : Nat) (root : Page) : Except (Array Row) (Array Row) :=
  if root.isRoot im then im.scan width deepest root #[] else .error #[]

end ForkWatch.Rehearsal.Image
