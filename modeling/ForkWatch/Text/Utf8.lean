/-! # Text from bytes

UTF-8 reads a character from one byte or from a first byte and up to three more. Bytes that go on to
no character are broken off where the next byte cannot follow: a strict reader tells where, and a
lenient one puts one replacement character in their place.
-/

namespace ForkWatch.Text.Utf8

/-- What some bytes read as. -/
inductive Piece where
  | char (c : Char)
  /-- So many bytes begin a character or none, and the next byte cannot follow. -/
  | broken (length : Nat)
  /-- The text ends within a character. -/
  | unfinished
  deriving DecidableEq, Repr

/-- A character of which some bytes are read. -/
structure Begun where
  /-- The value of the bytes so far. -/
  value : Nat
  /-- The least and the greatest byte that can follow. -/
  least : Nat := 0x80
  greatest : Nat := 0xBF
  /-- How many bytes are read. -/
  length : Nat := 1
  /-- How many bytes come after the next one. -/
  after : Nat

/-- Reads the first byte of a character. The bounds of the second byte keep each character to its
shortest form, below 0x110000 and clear of the surrogates. -/
def start (b : Nat) : List Piece × Option Begun :=
  if b < 0x80 then ([.char (Char.ofNat b)], none)
  else if b < 0xC2 then ([.broken 1], none)
  else if b < 0xE0 then ([], some { value := b - 0xC0, after := 0 })
  else if b = 0xE0 then ([], some { value := 0, least := 0xA0, after := 1 })
  else if b = 0xED then ([], some { value := 0xD, greatest := 0x9F, after := 1 })
  else if b < 0xF0 then ([], some { value := b - 0xE0, after := 1 })
  else if b = 0xF0 then ([], some { value := 0, least := 0x90, after := 2 })
  else if b < 0xF4 then ([], some { value := b - 0xF0, after := 2 })
  else if b = 0xF4 then ([], some { value := 4, greatest := 0x8F, after := 2 })
  else ([.broken 1], none)

/-- Reads one more byte. -/
def step : Option Begun → Nat → List Piece × Option Begun
  | none, b => start b
  | some p, b =>
    if b < p.least || p.greatest < b then
      let (pieces, begun) := start b
      (.broken p.length :: pieces, begun)
    else
      let value := 64 * p.value + (b - 0x80)
      match p.after with
      | 0 => ([.char (Char.ofNat value)], none)
      | after + 1 => ([], some { value, length := p.length + 1, after })

def piecesFrom : Option Begun → List UInt8 → List Piece
  | none, [] => []
  | some _, [] => [.unfinished]
  | begun, b :: bs =>
    let (pieces, begun) := step begun b.toNat
    pieces ++ piecesFrom begun bs

/-- All that some bytes read as, in order. -/
def pieces (bs : List UInt8) : List Piece := piecesFrom none bs

/-- Where some bytes cease to be UTF-8. -/
inductive Flaw where
  | invalid (length index : Nat)
  | incomplete (index : Nat)
  deriving DecidableEq, Repr

def Flaw.message : Flaw → String
  | .invalid length index => s!"invalid utf-8 sequence of {length} bytes from index {index}"
  | .incomplete index => s!"incomplete utf-8 byte sequence from index {index}"

/-- The characters of some pieces that begin after `index` bytes, if all are characters. -/
def strictFrom (index : Nat) : List Piece → Except Flaw (List Char)
  | [] => .ok []
  | .char c :: ps => (strictFrom (index + c.utf8Size) ps).map (c :: ·)
  | .broken length :: _ => .error (.invalid length index)
  | .unfinished :: _ => .error (.incomplete index)

def decode (bs : List UInt8) : Except Flaw String := (strictFrom 0 (pieces bs)).map String.ofList

def Piece.shown : Piece → Char
  | .char c => c
  | _ => '\uFFFD'

def encode (s : String) : List UInt8 := s.toUTF8.toList

/-- Reads any bytes. -/
def decodeLeniently (bs : List UInt8) : String := String.ofList ((pieces bs).map Piece.shown)

end ForkWatch.Text.Utf8
