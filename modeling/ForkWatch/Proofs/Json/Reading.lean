import ForkWatch.Proofs.Json.Skipping
import ForkWatch.Proofs.Json.Slots

/-! # Values of a shape as they are spelled

A text spells a value of a shape if it is one of the ways to write that value: the members of an
object may stand in any order, with members of other names among them. What a text spells is read
from it. An object whose members are read one by one comes to its end or to the first member whose
name is there for the second time.
-/

namespace ForkWatch.Json

mutual

inductive Shape.Spells : (s : Shape) → Tree → s.Value → Prop
  | uint64 {t : Tree} (n : UInt64) (h : t.text = writeNat n.toNat) : Shape.Spells .uint64 t n
  | uint32 {t : Tree} (n : UInt32) (h : t.text = writeNat n.toNat) : Shape.Spells .uint32 t n
  | int64 {t : Tree} (i : Int64) (h : t.text = writeInt i.toInt) : Shape.Spells .int64 t i
  | flag (b : Bool) : Shape.Spells .flag (.word (if b then .true else .false)) b
  | text {ps : List Piece} {s : String} (h : Piece.Spell ps s) : Shape.Spells .text (.string ps) s
  | absent {s : Shape} : Shape.Spells (.optional s) (.word .null) none
  | present {s : Shape} {t : Tree} {v : s.Value} (h : s.Spells t v) :
      Shape.Spells (.optional s) t (some v)
  | list {s : Shape} {ws : Blanks} {items : Items} {vs : List s.Value} (h : s.Each items vs) :
      Shape.Spells (.list s) (.array ws items) vs
  | name {names : List String} {ps : List Piece} (i : Fin names.length)
      (h : Piece.Spell ps (names.get i)) : Shape.Spells (.choice names) (.string ps) i
  /-- A name that is mapped to null. -/
  | mapped {names : List String} {ps : List Piece} {ws before between after last : Blanks}
      (i : Fin names.length) (h : Piece.Spell ps (names.get i)) :
      Shape.Spells (.choice names)
        (.object ws (.cons before ps between after (.word .null) last .nil)) i
  /-- Members in any order, and each field once. -/
  | object {fs : Fields} {ws : Blanks} {ms : Members} {xs : List fs.Slot} {v : fs.Value}
      (h : fs.Told ms xs) (perm : xs.Perm (fs.slots v)) :
      Shape.Spells (.record fs) (.object ws ms) v
  | array {fs : Fields} {ws : Blanks} {items : Items} {v : fs.Value} (h : fs.InOrder items v) :
      Shape.Spells (.record fs) (.array ws items) v

inductive Shape.Each : (s : Shape) → Items → List s.Value → Prop
  | nil {s : Shape} : Shape.Each s .nil []
  | cons {s : Shape} {before after : Blanks} {t : Tree} {v : s.Value} {items : Items}
      {vs : List s.Value} (value : s.Spells t v) (h : s.Each items vs) :
      Shape.Each s (.cons before t after items) (v :: vs)

inductive Fields.InOrder : (fs : Fields) → Items → fs.Value → Prop
  | nil : Fields.InOrder .nil .nil ()
  | cons {name : String} {s : Shape} {fs : Fields} {before after : Blanks} {t : Tree} {v : s.Value}
      {items : Items} {vs : fs.Value} (value : s.Spells t v) (h : fs.InOrder items vs) :
      Fields.InOrder (.cons name s fs) (.cons before t after items) (v, vs)

inductive Fields.Told : (fs : Fields) → Members → List fs.Slot → Prop
  | nil {fs : Fields} : Fields.Told fs .nil []
  | known {fs : Fields} {before between after last : Blanks} {ps : List Piece} {t : Tree}
      {ms : Members} {xs : List fs.Slot} (x : fs.Slot) (named : Piece.Spell ps x.name)
      (value : x.shape.Spells t x.value) (h : fs.Told ms xs) :
      Fields.Told fs (.cons before ps between after t last ms) (x :: xs)
  | unknown {fs : Fields} {before between after last : Blanks} {ps : List Piece} {t : Tree}
      {ms : Members} {xs : List fs.Slot} {key : String} (named : Piece.Spell ps key)
      (new : key ∉ fs.names) (h : fs.Told ms xs) :
      Fields.Told fs (.cons before ps between after t last ms) xs

end

theorem readChars_digits {u : Code} {leading : Option Nat} {kept : Option Char} {st : TextState}
    (h : afterCode leading u.value = .ok (kept, st)) (acc cs : List Char) :
    readChars (.code leading 0 0) acc (u.digits ++ cs) = readChars st (kept.toList ++ acc) cs := by
  rw [Code.value] at h
  simp [Code.digits, readChars, HexDigit.digit?_char, h]

theorem readChars_numeric {u : Code} {kept : Option Char} {st : TextState}
    (h : afterCode none u.value = .ok (kept, st)) (acc cs : List Char) :
    readChars .plain acc (u.text ++ cs) = readChars st (kept.toList ++ acc) cs := by
  have hopen : readChars .plain acc (u.text ++ cs) =
      readChars (.code none 0 0) acc (u.digits ++ cs) := rfl
  rw [hopen, readChars_digits h]

theorem readChars_halfway {u : Code} {leading : Nat} {kept : Option Char} {st : TextState}
    (h : afterCode (some leading) u.value = .ok (kept, st)) (acc cs : List Char) :
    readChars (.halfway leading) acc (u.text ++ cs) = readChars st (kept.toList ++ acc) cs := by
  have hopen : readChars (.halfway leading) acc (u.text ++ cs) =
      readChars (.code (some leading) 0 0) acc (u.digits ++ cs) := rfl
  rw [hopen, readChars_digits h]

theorem readChars_piece {p : Piece} {c : Char} (h : p.char? = some c) (acc cs : List Char) :
    readChars .plain acc (p.text ++ cs) = readChars .plain (c :: acc) cs := by
  cases p with
  | plain d hd =>
    obtain ⟨hquote, hslash, hcontrol⟩ := isPlain_iff.1 hd
    cases h
    simp [Piece.text, readChars, hquote, hslash, Nat.not_lt.2 hcontrol]
  | escape letter d hd =>
    have hall : ∀ x ∈ escapes, x.1 ≠ 'u' ∧ unescape? x.1 = some x.2 := by decide
    obtain ⟨hu, hsome⟩ := hall _ hd
    cases h
    simp only at hu hsome
    simp [Piece.text, readChars, hu, hsome]
  | code u =>
    rw [Piece.char?] at h
    split at h
    · cases h
    case isFalse hnone =>
      rw [Bool.or_eq_true, not_or, Bool.not_eq_true, Bool.not_eq_true] at hnone
      have hafter : afterCode none u.value = .ok (some (Char.ofNat u.value), .plain) := by
        simp [afterCode, hnone]
      rw [Option.some.injEq] at h
      rw [Piece.text, readChars_numeric hafter, h]
      rfl
  | pair u v hsurrogates =>
    obtain ⟨hu, hv⟩ := hsurrogates
    have htrailing : isTrailing u.value = false := by
      simp only [isLeading, Bool.and_eq_true, decide_eq_true_eq] at hu
      simp [isTrailing]
      omega
    have hfirst : afterCode none u.value = .ok (none, .halfway u.value) := by
      simp [afterCode, htrailing, hu]
    have hsecond : afterCode (some u.value) v.value =
        .ok (some (joinSurrogates u.value v.value), .plain) := by
      simp [afterCode, hv]
    rw [Piece.char?, Option.some.injEq] at h
    rw [Piece.text, List.append_assoc, readChars_numeric hfirst, Option.toList_none,
      List.nil_append, readChars_halfway hsecond, h]
    rfl

theorem readChars_texts {ps : List Piece} {s : List Char} (h : ps.map Piece.char? = s.map some)
    (acc rest : List Char) :
    readChars .plain acc (Piece.texts ps ++ rest) = .ok (acc.reverse ++ s, rest) := by
  induction ps generalizing s acc with
  | nil =>
    cases s with
    | nil => simp [Piece.texts, readChars]
    | cons c s => cases h
  | cons p ps ih =>
    cases s with
    | nil => cases h
    | cons c s =>
      obtain ⟨hp, hps⟩ := List.cons.inj h
      have htext : Piece.texts (p :: ps) ++ rest = p.text ++ (Piece.texts ps ++ rest) := by
        simp [Piece.texts]
      rw [htext, readChars_piece hp, ih hps, List.reverse_cons, List.append_assoc,
        List.singleton_append]

theorem readText_texts {ps : List Piece} {s : String} (h : Piece.Spell ps s) (rest : List Char) :
    readText (Piece.texts ps ++ rest) = .ok (s, rest) := by
  rw [readText, readChars_texts h]
  simp [Except.map]

theorem readString_texts {ps : List Piece} {s : String} (h : Piece.Spell ps s)
    (rest : List Char) : readString ('"' :: (Piece.texts ps ++ rest)) = .ok (s, rest) := by
  rw [readString, skipBlank_cons (by decide)]
  exact readText_texts h rest

theorem readName_texts {names : List String} (hnames : names.Nodup) {i : Fin names.length}
    {ps : List Piece} (h : Piece.Spell ps (names.get i)) (rest : List Char) :
    readName names ('"' :: (Piece.texts ps ++ rest)) = .ok (i, rest) := by
  have hplace := finIdxOf?_get hnames i
  rw [readName, readString_texts h]
  simp only [hplace]

theorem skipBlank_blanks (ws : Blanks) {c : Char} (h : isBlank c = false) (cs : List Char) :
    skipBlank (ws ++ c :: cs) = c :: cs := by
  rw [skipBlank_append ws.2, skipBlank_cons h]

theorem readColon_blanks (ws : Blanks) (cs : List Char) : readColon (ws ++ ':' :: cs) = .ok cs := by
  rw [readColon, skipBlank_blanks ws (by decide)]
  rfl

section Containers

variable {cs rest : List Char}

theorem nextElement_closing (first : Bool) (ws : Blanks) :
    nextElement first (ws ++ ']' :: rest) = .ok (false, ']' :: rest) := by
  rw [nextElement, skipBlank_blanks ws (by decide)]
  rfl

theorem nextElement_item (t : Tree) (first : Bool) (ws before : Blanks) :
    nextElement first (ws ++ (separator first ++ (before ++ (t.text ++ cs)))) =
      .ok (true, t.text ++ cs) := by
  obtain ⟨c, cs', e, hblank, hc, -⟩ := t.exists_text_eq_cons
  have hcomma : isBlank ',' = false := by decide
  cases first with
  | true =>
    simp [e, nextElement, separator, skipBlank_append ws.2, skipBlank_blanks before hblank, hc]
  | false =>
    simp [e, nextElement, separator, skipBlank_blanks ws hcomma, skipBlank_blanks before hblank,
      hc]

theorem nextMember_closing (first : Bool) (ws : Blanks) :
    nextMember first (ws ++ '}' :: rest) = .ok (false, rest) := by
  rw [nextMember, skipBlank_blanks ws (by decide)]
  rfl

theorem nextMember_named (first : Bool) (ws before : Blanks) :
    nextMember first (ws ++ (separator first ++ (before ++ '"' :: cs))) = .ok (true, cs) := by
  have hquote : isBlank '"' = false := by decide
  have hcomma : isBlank ',' = false := by decide
  cases first with
  | true => simp [nextMember, separator, skipBlank_append ws.2, skipBlank_blanks before hquote]
  | false =>
    simp [nextMember, separator, skipBlank_blanks ws hcomma, skipBlank_blanks before hquote]

end Containers

/-- The value is read from the tree, whatever text follows. -/
def Shape.Reads (s : Shape) (t : Tree) (v : s.Value) : Prop :=
  ∀ rest, Ends rest → s.read (t.text ++ rest) = .ok (v, rest)

namespace Shape

/-- There is one way only to write an integer. -/
theorem reads_written {s : Shape} (hs : s.ReadsBack .compact) {t : Tree} {v : s.Value}
    (h : t.text = s.write .compact 0 v) : s.Reads t v := by
  intro rest hrest
  rw [h]
  exact hs 0 v rest hrest

theorem reads_flag (b : Bool) : flag.Reads (.word (if b then .true else .false)) b := by
  intro rest _
  cases b <;> rfl

theorem reads_text {ps : List Piece} {s : String} (h : Piece.Spell ps s) :
    text.Reads (.string ps) s := by
  intro rest _
  exact readString_texts h rest

theorem reads_absent (s : Shape) : s.optional.Reads (.word .null) none := by
  intro rest _
  rfl

theorem reads_name {names : List String} (hnames : names.Nodup) {i : Fin names.length}
    {ps : List Piece} (h : Piece.Spell ps (names.get i)) : (choice names).Reads (.string ps) i := by
  intro rest _
  have hname := readName_texts hnames h rest
  rw [Tree.text, Shape.read, List.cons_append, readChoice, skipBlank_cons (by decide)]
  exact hname

theorem reads_mapped {names : List String} (hnames : names.Nodup) {i : Fin names.length}
    {ps : List Piece} (h : Piece.Spell ps (names.get i)) (ws before between after last : Blanks) :
    (choice names).Reads
      (.object ws (.cons before ps between after (.word .null) last .nil)) i := by
  intro rest _
  have hkey := readName_texts hnames h
    (between ++ ':' :: (after ++ 'n' :: 'u' :: 'l' :: 'l' :: (last ++ '}' :: rest)))
  have htext : (Tree.object ws (.cons before ps between after (.word .null) last .nil)).text ++
      rest = '{' :: (ws ++ (before ++ '"' :: (Piece.texts ps ++
        (between ++ ':' :: (after ++ 'n' :: 'u' :: 'l' :: 'l' :: (last ++ '}' :: rest)))))) := by
    simp [Tree.text, Members.text, separator, Word.text]
  have hquote : isBlank '"' = false := by decide
  have hn : isBlank 'n' = false := by decide
  have hclosing : isBlank '}' = false := by decide
  rw [htext, Shape.read, readChoice, skipBlank_cons (by decide)]
  simp [readKey, skipBlank_append ws.2, skipBlank_blanks before hquote, hkey, bind, Except.bind,
    readColon_blanks, readNull, skipBlank_blanks after hn, expect, skipBlank_blanks last hclosing]
  rfl

theorem Spells.ne_null {s : Shape} {t : Tree} {v : s.Value} (h : s.Spells t v)
    (hs : s.isOptional = false) : t ≠ .word .null := by
  have hnumber (ht : t.text = s.write .compact 0 v) : t ≠ .word .null := by
    rintro rfl
    obtain ⟨c, hc, -, -, hnull⟩ := head_write hs .compact 0 v
    rw [← ht] at hc
    cases hc
    exact hnull rfl
  cases h with
  | uint64 | uint32 | int64 => exact hnumber ‹_›
  | flag b => cases b <;> simp
  | absent | present => cases hs
  | _ => simp

theorem reads_present {s : Shape} {t : Tree} {v : s.Value} (h : s.Reads t v)
    (hnull : t ≠ .word .null) : s.optional.Reads t (some v) := by
  intro rest hrest
  have hread := h rest hrest
  obtain ⟨c, cs, e, hblank, -, hn⟩ := t.exists_text_eq_cons
  rw [e, List.cons_append] at hread ⊢
  rw [Shape.read, skipBlank_cons hblank]
  split
  · rename_i e'
    cases e'
    exact absurd (hn rfl) hnull
  · rw [hread]
    rfl

end Shape

def Items.length : Items → Nat
  | .nil => 0
  | .cons _ _ _ rest => rest.length + 1

theorem Items.length_le : (items : Items) → ∀ first, items.length ≤ (items.text first).length
  | .nil => fun _ => Nat.zero_le _
  | .cons before t after rest => fun first => by
    have h := rest.length_le false
    obtain ⟨c, cs, e, -⟩ := t.exists_text_eq_cons
    simp only [length, text, e, List.length_append, List.length_cons]
    omega

theorem Items.length_lt (items : Items) (ws : Blanks) (rest : List Char) :
    items.length < ((ws : List Char) ++ (items.text true ++ rest)).length + 1 := by
  have h := items.length_le true
  simp only [List.length_append]
  omega

theorem readElements_nil {α : Type} {item : Reader α} {n : Nat} (first : Bool) (ws : Blanks)
    (rest : List Char) : readElements item (n + 1) first (ws ++ ']' :: rest) = .ok ([], rest) := by
  have hend : endArray (']' :: rest) = .ok rest := rfl
  rw [readElements, nextElement_closing]
  simp only [hend, Except.map]

theorem Shape.readElements_cons {s : Shape} {t : Tree} {v : s.Value} (h : s.Reads t v) {n : Nat}
    (first : Bool) (ws before after : Blanks) (items : Items) (rest : List Char) :
    readElements (fun cs => s.read cs) (n + 1) first
      (ws ++ ((Items.cons before t after items).text first ++ ']' :: rest)) =
        (readElements (fun cs => s.read cs) n false
          (after ++ (items.text false ++ ']' :: rest))).map fun (vs, cs) => (v :: vs, cs) := by
  have hread := h _ (items.ends_text after rest)
  rw [readElements, Items.text_cons, nextElement_item]
  simp only [hread]
  cases readElements (fun cs => s.read cs) n false (after ++ (items.text false ++ ']' :: rest)) with
  | error flaw => rfl
  | ok r => rfl

namespace Fields

theorem readMember_known {fs : Fields} (hnames : fs.names.Nodup) {x : fs.Slot} {t : Tree}
    (h : x.shape.Reads t x.value) (p : fs.Partial) (between after : Blanks) {rest : List Char}
    (hrest : Ends rest) :
    fs.readMember x.name p (between ++ ':' :: (after ++ (t.text ++ rest))) =
      some (if fs.has p x.name then .error (.duplicateField x.name)
        else .ok (fs.put p x, rest)) := by
  induction x with
  | @here name s fs v =>
    obtain ⟨o, vs⟩ : Option s.Value × fs.Partial := p
    have hread : s.read (after ++ (t.text ++ rest)) = .ok (v, rest) := by
      rw [s.read_append after.2]
      exact h rest hrest
    cases o with
    | none =>
      simp [readMember, Slot.name, has, readColon_blanks, hread, bind, Except.bind]
    | some v' => simp [readMember, Slot.name, has]
  | @there name s fs x ih =>
    obtain ⟨o, vs⟩ : Option s.Value × fs.Partial := p
    rw [names, List.nodup_cons] at hnames
    have hne : x.name ≠ name := fun e => hnames.1 (e ▸ x.name_mem_names)
    have hrest := ih hnames.2 h vs
    simp only [readMember, Slot.name, has, hne, if_false, hrest, Option.map_some]
    split <;> rfl

theorem readMember_unknown : (fs : Fields) → {key : String} → key ∉ fs.names → (p : fs.Partial) →
    (cs : List Char) → fs.readMember key p cs = none
  | .nil, _, _, _, _ => rfl
  | .cons name s fs, key, h, (v, vs), cs => by
    rw [names, List.mem_cons, not_or] at h
    simp only [readMember, h.1, if_false, fs.readMember_unknown h.2, Option.map_none]

section Members

variable {fs : Fields} {ps : List Piece} {t : Tree}

theorem readMembers_known (hnames : fs.names.Nodup) {x : fs.Slot} (named : Piece.Spell ps x.name)
    (h : x.shape.Reads t x.value) (p : fs.Partial) (n : Nat) (first : Bool)
    (ws before between after last : Blanks) (ms : Members) (rest : List Char) :
    readMembers fs.readMember (n + 1) first p
      (ws ++ ((Members.cons before ps between after t last ms).text first ++ '}' :: rest)) =
        if fs.has p x.name then .error (.duplicateField x.name)
        else readMembers fs.readMember n false (fs.put p x)
          (last ++ (ms.text false ++ '}' :: rest)) := by
  have hmember := readMember_known hnames h p between after (ms.ends_text last rest)
  rw [readMembers, Members.text_cons, nextMember_named]
  cases hhas : fs.has p x.name <;>
    simp only [readText_texts named, hmember, hhas, Bool.false_eq_true, if_false, if_true]

theorem readMembers_unknown {key : String} (named : Piece.Spell ps key) (new : key ∉ fs.names)
    (p : fs.Partial) (n : Nat) (first : Bool) (ws before between after last : Blanks) (ms : Members)
    (rest : List Char) :
    readMembers fs.readMember (n + 1) first p
      (ws ++ ((Members.cons before ps between after t last ms).text first ++ '}' :: rest)) =
        readMembers fs.readMember n false p (last ++ (ms.text false ++ '}' :: rest)) := by
  rw [readMembers, Members.text_cons, nextMember_named]
  simp only [readText_texts named, fs.readMember_unknown new, readColon_blanks, Except.bind,
    skipValue_text t after (ms.ends_text last rest)]

end Members

end Fields

def Members.length : Members → Nat
  | .nil => 0
  | .cons _ _ _ _ _ _ rest => rest.length + 1

theorem Members.length_le : (ms : Members) → ∀ first, ms.length ≤ (ms.text first).length
  | .nil => fun _ => Nat.zero_le _
  | .cons before name between after t last rest => fun first => by
    have h := rest.length_le false
    simp only [length, text, List.length_append, List.length_cons]
    omega

theorem Members.length_lt (ms : Members) (ws : Blanks) (rest : List Char) :
    ms.length < ((ws : List Char) ++ (ms.text true ++ rest)).length + 1 := by
  have h := ms.length_le true
  simp only [List.length_append]
  omega

theorem Fields.readElements_cons {name : String} {s : Shape} {fs : Fields} {t : Tree} {v : s.Value}
    (h : s.Reads t v) (first : Bool) (ws before after : Blanks) (items : Items)
    (rest : List Char) :
    (cons name s fs).readElements first
      (ws ++ ((Items.cons before t after items).text first ++ ']' :: rest)) =
        (fs.readElements false (after ++ (items.text false ++ ']' :: rest))).map
          fun (vs, cs) => ((some v, vs), cs) := by
  have hread := h _ (items.ends_text after rest)
  rw [readElements, Items.text_cons, nextElement_item]
  simp only [bind, Except.bind, if_true, hread]
  cases fs.readElements false (after ++ (items.text false ++ ']' :: rest)) with
  | error flaw => rfl
  | ok r => rfl

namespace Shape

theorem reads_list {s : Shape} {ws : Blanks} {items : Items} {vs : List s.Value}
    (h : ∀ n rest, items.length < n → readElements (fun cs => s.read cs) n true
      (ws ++ (items.text true ++ ']' :: rest)) = .ok (vs, rest)) :
    (list s).Reads (.array ws items) vs := by
  intro rest _
  rw [Shape.read, Tree.text_array, skipBlank_cons (by decide)]
  exact h _ rest (items.length_lt ws _)

theorem reads_object {fs : Fields} {ws : Blanks} {ms : Members} {v : fs.Value}
    (h : ∀ n rest, ms.length < n → readMembers fs.readMember n true fs.blank
      (ws ++ (ms.text true ++ '}' :: rest)) = .ok (fs.found v, rest)) :
    (record fs).Reads (.object ws ms) v := by
  intro rest _
  have hmembers := h _ rest (ms.length_lt ws ('}' :: rest))
  rw [Shape.read, Tree.text_object, readRecord, skipBlank_cons (by decide)]
  simp only [if_true, hmembers, Except.map, fs.complete_found]

theorem reads_array {fs : Fields} {ws : Blanks} {items : Items} {v : fs.Value}
    (h : ∀ rest, ∃ ws' : Blanks, fs.readElements true
      (ws ++ (items.text true ++ ']' :: rest)) = .ok (fs.found v, ws' ++ ']' :: rest)) :
    (record fs).Reads (.array ws items) v := by
  intro rest _
  obtain ⟨ws', helements⟩ := h rest
  have hend : endArray (ws' ++ ']' :: rest) = .ok rest := by
    rw [endArray, skipBlank_blanks ws' (by decide)]
    rfl
  rw [Shape.read, Tree.text_array, readRecord, skipBlank_cons (by decide)]
  simp [helements, hend, bind, Except.bind, Except.map, fs.complete_found]

end Shape

mutual

theorem Shape.Spells.reads {s : Shape} {t : Tree} {v : s.Value} :
    s.Spells t v → s.readable → s.Reads t v
  | .uint64 n h, _ => Shape.reads_written Shape.readsBack_uint64 h
  | .uint32 n h, _ => Shape.reads_written Shape.readsBack_uint32 h
  | .int64 i h, _ => Shape.reads_written Shape.readsBack_int64 h
  | .flag b, _ => Shape.reads_flag b
  | .text h, _ => Shape.reads_text h
  | .absent, _ => Shape.reads_absent _
  | .present h, hs => by
    rw [Shape.readable, Bool.and_eq_true, Bool.not_eq_true'] at hs
    exact Shape.reads_present (h.reads hs.2) (h.ne_null hs.1)
  | .list h, hs => Shape.reads_list fun _ rest hn => h.readElements hs true _ rest hn
  | .name i h, hs => Shape.reads_name (of_decide_eq_true hs) h
  | .mapped i h, hs => Shape.reads_mapped (of_decide_eq_true hs) h _ _ _ _ _
  | .object h perm, hs => by
    rw [Shape.readable, Bool.and_eq_true, decide_eq_true_eq] at hs
    -- in whatever order the fields come, they make up the value
    refine Shape.reads_object fun n rest hn => ?_
    rw [h.readMembers hs.1 hs.2 true _ _ rest hn, Fields.fill_blank_of_perm hs.1 perm]
    rfl
  | .array h, hs => by
    rw [Shape.readable, Bool.and_eq_true, decide_eq_true_eq] at hs
    exact Shape.reads_array fun rest => h.readElements hs.2 true _ rest

theorem Shape.Each.readElements {s : Shape} {items : Items} {vs : List s.Value} :
    s.Each items vs → s.readable → {n : Nat} → (first : Bool) → (ws : Blanks) →
    (rest : List Char) → items.length < n → Json.readElements (fun cs => s.read cs) n first
      (ws ++ (items.text first ++ ']' :: rest)) = .ok (vs, rest)
  | .nil, _, n + 1, first, ws, rest, _ => readElements_nil first ws rest
  | .cons value h, hs, n + 1, first, ws, rest, hn => by
    rw [Shape.readElements_cons (value.reads hs),
      h.readElements hs false _ rest (Nat.lt_of_succ_lt_succ hn)]
    rfl

theorem Fields.InOrder.readElements {fs : Fields} {items : Items} {v : fs.Value} :
    fs.InOrder items v → fs.readable → (first : Bool) → (ws : Blanks) → (rest : List Char) →
    ∃ ws' : Blanks, fs.readElements first (ws ++ (items.text first ++ ']' :: rest)) =
      .ok (fs.found v, ws' ++ ']' :: rest)
  | .nil, _, first, ws, rest => ⟨ws, rfl⟩
  | .cons value h, hs, first, ws, rest => by
    rw [Fields.readable, Bool.and_eq_true] at hs
    obtain ⟨ws', hothers⟩ := h.readElements hs.2 false _ rest
    refine ⟨ws', ?_⟩
    rw [Fields.readElements_cons (value.reads hs.1), hothers]
    rfl

theorem Fields.Told.readMembers {fs : Fields} {ms : Members} {xs : List fs.Slot} :
    fs.Told ms xs → fs.names.Nodup → fs.readable → {n : Nat} → (first : Bool) →
    (p : fs.Partial) → (ws : Blanks) → (rest : List Char) → ms.length < n →
    Json.readMembers fs.readMember n first p (ws ++ (ms.text first ++ '}' :: rest)) =
      (fs.fill p xs).map (·, rest)
  | .nil, _, _, n + 1, first, p, ws, rest, _ => by
    rw [Json.readMembers, Members.text, List.nil_append, nextMember_closing]
    rfl
  | .known x named value h, hnames, hs, n + 1, first, p, ws, rest, hn => by
    have hvalue := value.reads (x.readable_shape hs)
    rw [Fields.readMembers_known hnames named hvalue, Fields.fill,
      h.readMembers hnames hs false (fs.put p x) _ rest (Nat.lt_of_succ_lt_succ hn)]
    split <;> rfl
  | .unknown named new h, hnames, hs, n + 1, first, p, ws, rest, hn => by
    rw [Fields.readMembers_unknown named new]
    exact h.readMembers hnames hs false p _ rest (Nat.lt_of_succ_lt_succ hn)

end

def Tree.document (t : Tree) (before after : Blanks) : String :=
  String.ofList (before ++ (t.text ++ after))

/-- Of the members of an object those are taken over that are known, up to the first whose name
comes again. -/
theorem Fields.parseOver_document {fs : Fields} (h : (Shape.record fs).readable) {ms : Members}
    {xs : List fs.Slot} (told : fs.Told ms xs) (d : fs.Value) (before after ws : Blanks) :
    fs.parseOver d ((Tree.object ws ms).document before after) =
      (fs.fill fs.blank xs).map (fs.overlay d) := by
  rw [Shape.readable, Bool.and_eq_true, decide_eq_true_eq] at h
  have hmembers := told.readMembers h.1 h.2 true fs.blank ws after (ms.length_lt ws ('}' :: after))
  rw [parseOver, parseWith, Tree.document, String.toList_ofList, readRecord,
    skipBlank_append before.2, Tree.text_object, skipBlank_cons (by decide)]
  simp only [if_true, hmembers]
  cases fs.fill fs.blank xs with
  | error flaw => rfl
  | ok p => simp [Except.map, isEmpty_skipBlank after.2]

end ForkWatch.Json
