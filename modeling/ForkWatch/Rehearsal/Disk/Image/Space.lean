import ForkWatch.Rehearsal.Disk.Image.Tree

/-! # Room for a table

A table and its index take two pages, and two rows in the first table. The pages come from the list
of free ones or from beyond the last page. What a page tells of its free bytes has to add up.
-/

namespace ForkWatch.Rehearsal.Image

/-- The bytes in a chain of free blocks, which lie in order and end on the page. -/
def freeBlocks (im : Image) (p : Page) : Nat → Nat → Option Nat
  | 0, _ => none
  | fuel + 1, block =>
    if im.usableSize < block + 4 then none
    else
      let next := im.word16 (p.start im + block)
      let size := im.word16 (p.start im + block + 2)
      if block + size + 3 < next then (im.freeBlocks p fuel next).map (size + ·)
      else if 0 < next || im.usableSize < block + size then none
      else some size

/-- The free bytes that a page tells of, if they can be there. -/
def freeBytes? (im : Image) (p : Page) : Option Nat := do
  let header := p.header im
  let top := if im.word16 (header + 5) = 0 then 65536 else im.word16 (header + 5)
  let first := im.word16 (header + 1)
  let blocks ← if first = 0 then some 0
    else if first < top then none
    else im.freeBlocks p im.usableSize first
  let free := im.byte (header + 7) + top + blocks
  let used := p.cells im - p.start im + 2 * p.cellCount im
  if free < used || im.usableSize < free then none else some (free - used)

/-- The sizes of the cells of a leaf, with two bytes more for the place of each. -/
def cellSizes (im : Image) (p : Page) : List Nat :=
  (List.range (p.cellCount im)).map fun i =>
    let (size, a) := im.varint (p.cell im i)
    2 + max 4 (size + a + (im.varint (p.cell im i + a)).2)

/-- How much of a row is kept on its page. What is too much goes to further pages. -/
def keptSize (im : Image) (size : Nat) : Nat :=
  let most := im.usableSize - 35
  let least := (im.usableSize - 12) * 32 / 255 - 23
  let n := least + (size - least) % (im.usableSize - 4)
  if size ≤ most then size else if n ≤ most then n + 4 else least + 4

/-- The rows at each step of the making of a table: an empty one, one more for the index, and then
one with the statement in place of the empty one. -/
def newRows (im : Image) : List (List Nat) :=
  match im.encoding with
  | .utf8 => [[10], [10, 57], [319, 57]]
  | .utf16 _ => [[10], [10, 104], [5 + im.keptSize 620, 104]]

/-- How many rows go on a page. -/
def fitting (room used : Int) : List Nat → Nat
  | [] => 0
  | c :: cs => if used + c ≤ room then fitting room (used + c) cs + 1 else 0

/-- How many of the last rows of a page, told from behind, stay there when the next page, which has
less on it, takes over some. -/
def staying : List Nat → Int → Int → Nat
  | [], _, _ => 0
  | c :: cs, left, right =>
    if 0 < right && left - c + 2 < right + c then cs.length + 1
    else staying cs (left - c) (right + c)

/-- Whether the rows of a page can be split between two, if they have to be, with some on each. Lost
bytes are those that are neither free nor used. -/
def canSplit (room lost : Int) (rows : List Nat) : Bool :=
  let n := fitting room lost rows
  n = rows.length ||
    0 < staying (rows.take n).reverse (lost + total (rows.take n)) (total (rows.drop n))

/-- Whether there is room for new rows on a page, or beyond it. -/
def hasRoom (im : Image) (p : Page) : Bool :=
  match im.freeBytes? p with
  | none => false
  | some free =>
    let sizes := im.cellSizes p
    let lost : Int := im.usableSize - (p.cells im - p.start im) - total sizes - free
    lost = 0 || (im.newRows.filter (free < total ·)).all fun rows =>
      canSplit (im.usableSize - 8) lost (sizes ++ rows)

def lastLeaf (im : Image) : Nat → Page → Page
  | 0, p => p
  | depth + 1, p => if p.isLeaf im then p else im.lastLeaf depth (p.lastChild im)

/-- The list of free pages: its first page, the leaves that this has, and the number of all. -/
structure FreeList where
  trunk : Nat
  leaves : List Nat
  count : Nat

/-- The list of so many free pages that goes on from a page. -/
def freeListFrom (im : Image) (trunk count : Nat) : FreeList :=
  let start := Page.start im ⟨trunk⟩
  let leaves := (List.range (min (im.word32 (start + 4)) im.usableSize)).map fun i =>
    im.word32 (start + 8 + 4 * i)
  { trunk, leaves, count }

def distance (n : Nat) : Nat := if n = 0 then 1 else n - 1

def nearest : List Nat → Option Nat
  | [] => none
  | n :: ns => match nearest ns with
    | some m => some (if distance m < distance n then m else n)
    | none => some n

/-- Takes a page from the list of free ones, or from beyond the last page if there is none. -/
def takePage (im : Image) (l : FreeList) : Option FreeList :=
  if l.count = 0 then some l
  else if im.pageCount ≤ l.count || l.trunk < 2 || im.pageCount < l.trunk then none
  else match nearest l.leaves with
    | none => some (im.freeListFrom (im.word32 (Page.start im ⟨l.trunk⟩)) (l.count - 1))
    | some n =>
      if im.usableSize / 4 - 2 < l.leaves.length || n < 2 || im.pageCount < n then none
      else some { l with leaves := l.leaves.erase n, count := l.count - 1 }

/-- Whether a page has the map of those that follow. -/
def isMap (im : Image) (n : Nat) : Bool := 2 ≤ n && (n - 2) % (im.usableSize / 5 + 1) = 0

/-- The first page after another that can begin a table. -/
def nextRoot (im : Image) (n : Nat) : Nat := if im.isMap (n + 1) then n + 2 else n + 1

/-- Whether a new table would begin beyond the last page, where the order of tables is kept, and
free pages are given up in time. -/
def keepsOrder (im : Image) : Bool :=
  im.lastRoot = 0 || (im.lastRoot ≤ im.pageCount &&
    im.nextRoot im.lastRoot = im.nextRoot im.pageCount && (im.keepsFree || im.freeCount = 0))

/-- Whether a change can be brought to its end: where the order is kept, free pages are given up. -/
def canChange (im : Image) : Bool :=
  im.lastRoot = 0 || im.keepsFree || (im.freeCount = 0 && !im.isMap im.pageCount)

/-- Whether nothing is in the way of a new table. -/
def canGrow (im : Image) : Bool :=
  let free := im.freeListFrom im.freeTrunk im.freeCount
  ((im.takePage free).bind im.takePage).isSome && im.keepsOrder &&
    im.hasRoom (im.lastLeaf deepest ⟨1⟩)

end ForkWatch.Rehearsal.Image
