import ForkWatch.Proofs.Json.Scalar

/-! # JSON texts as they are spelled

The trees of the JSON grammar with all that a text leaves open: blanks, escapes, the forms of a
number. Every tree has a text, and a text that has no tree is not well formed. Numbers may be of any
size, and a numeric escape may name any code; a string with half a pair of surrogates stands for no
characters, although it is well formed.
-/

namespace ForkWatch.Json

abbrev Blanks := { ws : List Char // ∀ c ∈ ws, isBlank c }

structure Digits where
  chars : List Char
  ne_nil : chars ≠ []
  isDigit_of_mem : ∀ c ∈ chars, isDigit c

structure Exponent where
  mark : Char
  mark_eq : mark = 'e' ∨ mark = 'E'
  sign : List Char
  sign_eq : sign = [] ∨ sign = ['+'] ∨ sign = ['-']
  digits : Digits

structure Number where
  minus : Bool
  whole : Digits
  /-- Only zero begins with a zero. -/
  whole_eq : whole.chars.head? = some '0' → whole.chars = ['0']
  fraction : Option Digits
  exponent : Option Exponent

def Exponent.text (x : Exponent) : List Char := x.mark :: x.sign ++ x.digits.chars

namespace Number

def scale (n : Number) : List Char :=
  n.fraction.elim [] (fun ds => '.' :: ds.chars) ++ n.exponent.elim [] Exponent.text

def unsigned (n : Number) : List Char := n.whole.chars ++ n.scale

def text (n : Number) : List Char := if n.minus then '-' :: n.unsigned else n.unsigned

end Number

def NoDigit (rest : List Char) : Prop := ∀ c ∈ rest.head?, isDigit c = false

theorem Ends.noDigit {rest : List Char} (h : Ends rest) : NoDigit rest := fun c hc => (h c hc).1

section Digits

variable {ds : Digits} {rest : List Char}

theorem Digits.takeWhile_append (h : NoDigit rest) :
    (ds.chars ++ rest).takeWhile isDigit = ds.chars := by
  rw [List.takeWhile_append_of_pos ds.isDigit_of_mem]
  cases rest with
  | nil => simp
  | cons c cs => simp [h c rfl]

theorem Digits.dropWhile_append (h : NoDigit rest) :
    (ds.chars ++ rest).dropWhile isDigit = rest := by
  rw [List.dropWhile_append_of_pos ds.isDigit_of_mem]
  cases rest with
  | nil => rfl
  | cons c cs => simp [h c rfl]

theorem Digits.exists_eq_cons (ds : Digits) : ∃ c cs, ds.chars = c :: cs ∧ isDigit c := by
  obtain ⟨c, cs, e⟩ := List.exists_cons_of_ne_nil ds.ne_nil
  exact ⟨c, cs, e, ds.isDigit_of_mem c (e ▸ List.mem_cons_self)⟩

end Digits

structure HexDigit where
  value : Fin 16
  upper : Bool

def HexDigit.char (d : HexDigit) : Char :=
  if d.upper then (hexDigit d.value).toUpper else hexDigit d.value

theorem HexDigit.digit?_char (d : HexDigit) : Hex.digit? d.char = some d.value := by
  obtain ⟨v, upper⟩ := d
  cases upper <;> decide +revert

structure Code where
  first : HexDigit
  second : HexDigit
  third : HexDigit
  fourth : HexDigit

namespace Code

def value (u : Code) : Nat :=
  16 * (16 * (16 * u.first.value + u.second.value) + u.third.value) + u.fourth.value

def digits (u : Code) : List Char :=
  [u.first.char, u.second.char, u.third.char, u.fourth.char]

def text (u : Code) : List Char := '\\' :: 'u' :: u.digits

end Code

def escapes : List (Char × Char) :=
  [('"', '"'), ('\\', '\\'), ('/', '/'), ('b', '\x08'), ('f', '\x0c'), ('n', '\n'), ('r', '\r'),
    ('t', '\t')]

def isPlain (c : Char) : Bool := c ≠ '"' && c ≠ '\\' && 32 ≤ c.toNat

theorem isPlain_iff {c : Char} : isPlain c ↔ c ≠ '"' ∧ c ≠ '\\' ∧ 32 ≤ c.toNat := by
  simp [isPlain, and_assoc]

inductive Piece where
  | plain (c : Char) (h : isPlain c)
  | escape (letter c : Char) (h : (letter, c) ∈ escapes)
  | code (u : Code)
  | pair (u v : Code) (h : isLeading u.value ∧ isTrailing v.value)

namespace Piece

def text : Piece → List Char
  | plain c _ => [c]
  | escape letter _ _ => ['\\', letter]
  | code u => u.text
  | pair u v _ => u.text ++ v.text

/-- The character that a piece stands for, unless it is half a pair of surrogates. -/
def char? : Piece → Option Char
  | plain c _ | escape _ c _ => some c
  | code u => if isLeading u.value || isTrailing u.value then none else some (Char.ofNat u.value)
  | pair u v _ => some (joinSurrogates u.value v.value)

def texts (ps : List Piece) : List Char := ps.flatMap text ++ ['"']

/-- The pieces stand for the characters of a text. -/
def Spell (ps : List Piece) (s : String) : Prop := ps.map char? = s.toList.map some

def plainly (s : String) (h : s.toList.all isPlain) : List Piece :=
  s.toList.pmap plain (List.all_eq_true.1 h)

theorem spell_plainly (s : String) (h : s.toList.all isPlain) : Spell (plainly s h) s := by
  rw [Spell, plainly, List.map_pmap]
  exact List.pmap_eq_map (List.all_eq_true.1 h)

end Piece

inductive Word where
  | null
  | true
  | false

def Word.text : Word → List Char
  | null => ['n', 'u', 'l', 'l']
  | true => ['t', 'r', 'u', 'e']
  | false => ['f', 'a', 'l', 's', 'e']

mutual

/-- A value without the blanks around it. -/
inductive Tree where
  | word (w : Word)
  | number (n : Number)
  | string (ps : List Piece)
  | array (ws : Blanks) (items : Items)
  | object (ws : Blanks) (members : Members)

inductive Items where
  | nil
  | cons (before : Blanks) (value : Tree) (after : Blanks) (rest : Items)

inductive Members where
  | nil
  | cons (before : Blanks) (name : List Piece) (between after : Blanks) (value : Tree)
      (last : Blanks) (rest : Members)

end

def separator (first : Bool) : List Char := if first then [] else [',']

mutual

def Tree.text : Tree → List Char
  | .word w => w.text
  | .number n => n.text
  | .string ps => '"' :: Piece.texts ps
  | .array ws items => '[' :: ws ++ items.text true ++ [']']
  | .object ws ms => '{' :: ws ++ ms.text true ++ ['}']

def Items.text : Bool → Items → List Char
  | _, .nil => []
  | first, .cons before t after rest =>
    separator first ++ before ++ t.text ++ after ++ rest.text false

def Members.text : Bool → Members → List Char
  | _, .nil => []
  | first, .cons before name between after t last rest =>
    separator first ++ before ++ '"' :: Piece.texts name ++ between ++ ':' :: after ++ t.text ++
      last ++ rest.text false

end

section Text

variable {t : Tree} (rest : List Char)

theorem Tree.text_array (ws : Blanks) (items : Items) :
    (array ws items).text ++ rest = '[' :: (ws ++ (items.text true ++ ']' :: rest)) := by
  simp [text]

theorem Tree.text_object (ws : Blanks) (ms : Members) :
    (object ws ms).text ++ rest = '{' :: (ws ++ (ms.text true ++ '}' :: rest)) := by
  simp [text]

theorem Items.text_cons (first : Bool) (before after : Blanks) (items : Items) :
    (cons before t after items).text first ++ rest =
      separator first ++ (before ++ (t.text ++ (after ++ (items.text false ++ rest)))) := by
  simp [text]

theorem Members.text_cons {name : List Piece} (first : Bool) (before between after last : Blanks)
    (ms : Members) :
    (cons before name between after t last ms).text first ++ rest =
      separator first ++ (before ++ '"' :: (Piece.texts name ++
        (between ++ ':' :: (after ++ (t.text ++ (last ++ (ms.text false ++ rest))))))) := by
  simp [text]

end Text

theorem Number.exists_text_eq_cons (n : Number) : ∃ c cs, n.text = c :: cs ∧
    (c = '-' ∧ cs = n.unsigned ∨ isDigit c ∧ c :: cs = n.unsigned) := by
  rw [text]
  cases n.minus with
  | true => exact ⟨'-', n.unsigned, rfl, .inl ⟨rfl, rfl⟩⟩
  | false =>
    obtain ⟨c, cs, e, hc⟩ := n.whole.exists_eq_cons
    refine ⟨c, cs ++ n.scale, ?_, .inr ⟨hc, ?_⟩⟩ <;> simp [unsigned, e]

/-- A value begins with neither a blank nor a closing bracket, and only null like null. -/
theorem Tree.exists_text_eq_cons (t : Tree) : ∃ c cs, t.text = c :: cs ∧ isBlank c = false ∧
    c ≠ ']' ∧ (c = 'n' → t = .word .null) := by
  cases t with
  | word w => cases w <;> exact ⟨_, _, rfl, by decide, by decide, by simp⟩
  | number n =>
    obtain ⟨c, cs, e, h⟩ := n.exists_text_eq_cons
    refine ⟨c, cs, by rw [text, e], ?_⟩
    rcases h with ⟨rfl, -⟩ | ⟨hc, -⟩
    · exact ⟨by decide, by decide, fun h => by cases h⟩
    · refine ⟨isBlank_of_isDigit hc, ?_, ?_⟩ <;> rintro rfl <;> cases hc
  | string | array | object => exact ⟨_, _, rfl, by decide, by decide, fun h => by cases h⟩

theorem ends_cons {c : Char} (h : isDigit c = false ∧ c ≠ '.' ∧ c ≠ 'e' ∧ c ≠ 'E')
    (cs : List Char) : Ends (c :: cs) := by
  rintro _ ⟨⟩
  exact h

theorem Items.ends_text (after : Blanks) (items : Items) (rest : List Char) :
    Ends (after ++ (items.text false ++ ']' :: rest)) := by
  refine ends_append after.2 ?_
  cases items with
  | nil => exact ends_cons (by decide) rest
  | cons before t after items => exact ends_cons (by decide) _

theorem Members.ends_text (last : Blanks) (ms : Members) (rest : List Char) :
    Ends (last ++ (ms.text false ++ '}' :: rest)) := by
  refine ends_append last.2 ?_
  cases ms with
  | nil => exact ends_cons (by decide) rest
  | cons before name between after t last ms => exact ends_cons (by decide) _

end ForkWatch.Json
