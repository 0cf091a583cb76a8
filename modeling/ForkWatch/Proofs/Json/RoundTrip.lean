import ForkWatch.Json.Format
import ForkWatch.Proofs.Json.Scalar

/-! # Values there and back

What a lawful layout writes for a value is read back as that value. A shape can be read back when
its names are told apart and no absent option is mistaken for an inner one.
-/

namespace ForkWatch.Json

structure Layout.Lawful (l : Layout) : Prop where
  isBlank_newline : ∀ depth, ∀ c ∈ l.newline depth, isBlank c
  exists_colon : ∃ ws, l.colon = ':' :: ws ∧ ∀ c ∈ ws, isBlank c

theorem Layout.compact_lawful : Layout.compact.Lawful where
  isBlank_newline _ := by simp [compact]
  exists_colon := ⟨[], rfl, by simp⟩

/-- What is left of a container at some depth whose given members are still to come. -/
def Layout.remaining (l : Layout) (closing : Char) (depth : Nat) : Bool → List (List Char) →
    List Char
  | true, [] => [closing]
  | false, [] => l.newline depth ++ [closing]
  | true, m :: ms => l.newline (depth + 1) ++ m ++ l.remaining closing depth false ms
  | false, m :: ms => ',' :: l.newline (depth + 1) ++ m ++ l.remaining closing depth false ms

section Remaining

variable {l : Layout} {closing : Char} {depth : Nat} {m rest : List Char} {ms : List (List Char)}

theorem remaining_false (l : Layout) (closing : Char) (depth : Nat) (ms : List (List Char)) :
    l.remaining closing depth false ms =
      ms.flatMap (fun m => ',' :: l.newline (depth + 1) ++ m) ++ l.newline depth ++ [closing] := by
  induction ms with
  | nil => rfl
  | cons m ms ih => rw [Layout.remaining, ih]; simp

theorem enclose_eq (l : Layout) (opening closing : Char) (depth : Nat) (ms : List (List Char)) :
    l.enclose opening closing depth ms = opening :: l.remaining closing depth true ms := by
  cases ms with
  | nil => rfl
  | cons m ms => rw [Layout.enclose, Layout.remaining, remaining_false]; simp

theorem length_lt_remaining (l : Layout) (closing : Char) (depth : Nat) (first : Bool)
    {ms : List (List Char)} (h : ∀ m ∈ ms, m ≠ []) :
    ms.length < (l.remaining closing depth first ms).length := by
  induction ms generalizing first with
  | nil => cases first <;> simp [Layout.remaining]
  | cons m ms ih =>
    have hm : 0 < m.length := List.length_pos_of_ne_nil (h m List.mem_cons_self)
    have hms := ih false fun m' hm' => h m' (List.mem_cons_of_mem m hm')
    cases first <;> simp [Layout.remaining] <;> omega

theorem skipBlank_newline (hl : l.Lawful) (depth : Nat) {c : Char} (hc : isBlank c = false)
    (cs : List Char) : skipBlank (l.newline depth ++ c :: cs) = c :: cs := by
  rw [skipBlank_append (hl.isBlank_newline depth), skipBlank_cons hc]

theorem ends_remaining (hl : l.Lawful) (hc : closing = ']' ∨ closing = '}')
    (ms : List (List Char)) : Ends (l.remaining closing depth false ms ++ rest) := by
  cases ms with
  | nil =>
    rw [Layout.remaining, List.append_assoc]
    refine ends_append (hl.isBlank_newline depth) ?_
    rintro c ⟨⟩
    rcases hc with rfl | rfl <;> decide
  | cons m ms =>
    rintro c ⟨⟩
    decide

theorem nextElement_nil (hl : l.Lawful) (first : Bool) :
    nextElement first (l.remaining ']' depth first [] ++ rest) = .ok (false, ']' :: rest) := by
  have hblank : isBlank ']' = false := by decide
  cases first with
  | true => simp [nextElement, Layout.remaining, skipBlank_cons hblank]
  | false => simp [nextElement, Layout.remaining, skipBlank_newline hl depth hblank]

theorem nextElement_cons (hl : l.Lawful) (first : Bool) {c : Char} (hblank : isBlank c = false)
    (hc : c ≠ ']') (hm : m.head? = some c) (ms : List (List Char)) :
    nextElement first (l.remaining ']' depth first (m :: ms) ++ rest) =
      .ok (true, m ++ (l.remaining ']' depth false ms ++ rest)) := by
  obtain ⟨cs, rfl⟩ := List.head?_eq_some_iff.1 hm
  have hcomma : isBlank ',' = false := by decide
  cases first with
  | true => simp [nextElement, Layout.remaining, skipBlank_newline hl _ hblank, hc]
  | false =>
    simp [nextElement, Layout.remaining, skipBlank_cons hcomma, skipBlank_newline hl _ hblank, hc]

theorem readElements_remaining (hl : l.Lawful) {α : Type} {item : Reader α} {w : α → List Char}
    (hitem : ∀ a rest, Ends rest → item (w a ++ rest) = .ok (a, rest))
    (hw : ∀ a, ∃ c, (w a).head? = some c ∧ isBlank c = false ∧ c ≠ ']') (as : List α)
    (first : Bool) {n : Nat} (hn : as.length < n) :
    readElements item n first (l.remaining ']' depth first (as.map w) ++ rest) =
      .ok (as, rest) := by
  induction as generalizing first n with
  | nil =>
    obtain ⟨n, rfl⟩ := Nat.exists_eq_succ_of_ne_zero (Nat.ne_of_gt hn)
    have hend : endArray (']' :: rest) = .ok rest := rfl
    rw [readElements, List.map_nil, nextElement_nil hl]
    simp only [hend, Except.map]
  | cons a as ih =>
    obtain ⟨n, rfl⟩ := Nat.exists_eq_succ_of_ne_zero (Nat.ne_of_gt (Nat.zero_lt_of_lt hn))
    obtain ⟨c, hhead, hblank, hc⟩ := hw a
    rw [readElements, List.map_cons, nextElement_cons hl first hblank hc hhead]
    simp only [hitem a _ (ends_remaining hl (.inl rfl) _), ih false (Nat.lt_of_succ_lt_succ hn)]

theorem nextMember_nil (hl : l.Lawful) (first : Bool) :
    nextMember first (l.remaining '}' depth first [] ++ rest) = .ok (false, rest) := by
  have hblank : isBlank '}' = false := by decide
  cases first with
  | true => simp [nextMember, Layout.remaining, skipBlank_cons hblank]
  | false => simp [nextMember, Layout.remaining, skipBlank_newline hl depth hblank]

theorem nextMember_cons (hl : l.Lawful) (first : Bool) (cs : List Char) (ms : List (List Char)) :
    nextMember first (l.remaining '}' depth first (('"' :: cs) :: ms) ++ rest) =
      .ok (true, cs ++ (l.remaining '}' depth false ms ++ rest)) := by
  have hblank : isBlank '"' = false := by decide
  have hcomma : isBlank ',' = false := by decide
  cases first with
  | true => simp [nextMember, Layout.remaining, skipBlank_newline hl _ hblank]
  | false =>
    simp [nextMember, Layout.remaining, skipBlank_cons hcomma, skipBlank_newline hl _ hblank]

theorem exists_nextMember (hl : l.Lawful) (depth : Nat) (first : Bool) (name : String)
    (w : List Char) (ms : List (List Char)) (rest : List Char) : ∃ cs,
    nextMember first
      (l.remaining '}' depth first ((writeText name ++ l.colon ++ w) :: ms) ++ rest) =
        .ok (true, cs) ∧
    readText cs = .ok (name, l.colon ++ (w ++ (l.remaining '}' depth false ms ++ rest))) := by
  rw [List.append_assoc, writeText_append, nextMember_cons hl]
  refine ⟨_, rfl, ?_⟩
  rw [List.append_assoc, List.cons_append, readText_writeText, List.append_assoc]

end Remaining

def Shape.isOptional : Shape → Bool
  | .optional _ => true
  | _ => false

def Fields.names : Fields → List String
  | .nil => []
  | .cons name _ rest => name :: rest.names

mutual

/-- Names are told apart, and only one thing is meant by null. -/
def Shape.readable : Shape → Bool
  | .optional s => !s.isOptional && s.readable
  | .list s => s.readable
  | .choice names => decide names.Nodup
  | .record fs => decide fs.names.Nodup && fs.readable
  | _ => true

def Fields.readable : Fields → Bool
  | .nil => true
  | .cons _ s rest => s.readable && rest.readable

end

def Shape.ReadsBack (l : Layout) (s : Shape) : Prop :=
  ∀ depth v rest, Ends rest → s.read (s.write l depth v ++ rest) = .ok (v, rest)

def Fields.ReadBack (l : Layout) : Fields → Prop
  | .nil => True
  | .cons _ s rest => s.ReadsBack l ∧ rest.ReadBack l

namespace Shape

variable {l : Layout}

theorem read_append (s : Shape) {ws : List Char} (hws : ∀ c ∈ ws, isBlank c) (cs : List Char) :
    s.read (ws ++ cs) = s.read cs := by
  cases s <;> simp only [Shape.read, readInteger, readFlag, readString, readChoice, readRecord,
    skipBlank_append hws] <;> rfl

theorem head_write {s : Shape} (h : s.isOptional = false) (l : Layout) (depth : Nat)
    (v : s.Value) :
    ∃ c, (s.write l depth v).head? = some c ∧ isBlank c = false ∧ c ≠ ']' ∧ c ≠ 'n' := by
  cases s with
  | uint64 | uint32 =>
    simp only [Shape.write]
    exact head_writeNat _
  | int64 =>
    simp only [Shape.write, writeInt]
    split
    · exact ⟨'-', rfl, by decide⟩
    · exact head_writeNat _
  | flag =>
    obtain _ | _ : Bool := v
    · exact ⟨'f', rfl, by decide⟩
    · exact ⟨'t', rfl, by decide⟩
  | text | choice => exact ⟨'"', rfl, by decide⟩
  | optional => cases h
  | list =>
    simp only [Shape.write, enclose_eq]
    exact ⟨'[', rfl, by decide⟩
  | record =>
    simp only [Shape.write, enclose_eq]
    exact ⟨'{', rfl, by decide⟩

theorem head_write_of_readable {s : Shape} (h : s.readable) (l : Layout) (depth : Nat)
    (v : s.Value) : ∃ c, (s.write l depth v).head? = some c ∧ isBlank c = false ∧ c ≠ ']' := by
  cases s with
  | optional s =>
    rw [readable, Bool.and_eq_true, Bool.not_eq_true'] at h
    obtain _ | v : Option s.Value := v
    · exact ⟨'n', rfl, by decide⟩
    · obtain ⟨c, hhead, hblank, hc, -⟩ := head_write h.1 l depth v
      exact ⟨c, hhead, hblank, hc⟩
  | _ =>
    obtain ⟨c, hhead, hblank, hc, -⟩ := head_write rfl l depth v
    exact ⟨c, hhead, hblank, hc⟩

theorem readsBack_uint64 : Shape.uint64.ReadsBack l := by
  intro depth (n : UInt64) rest h
  have hn : n.toNat < 0x10000000000000000 := n.toNat_lt
  simp only [Shape.read, Shape.write]
  rw [← writeInt_natCast]
  exact readInteger_writeInt (by omega) (by omega) (fitUInt64_toNat n) h

theorem readsBack_uint32 : Shape.uint32.ReadsBack l := by
  intro depth (n : UInt32) rest h
  have hn : n.toNat < 0x100000000 := n.toNat_lt
  simp only [Shape.read, Shape.write]
  rw [← writeInt_natCast]
  exact readInteger_writeInt (by omega) (by omega) (fitUInt32_toNat n) h

theorem readsBack_int64 : Shape.int64.ReadsBack l := by
  intro depth (i : Int64) rest h
  have hlo : -0x8000000000000000 ≤ i.toInt := i.le_toInt
  have hhi : i.toInt < 0x8000000000000000 := i.toInt_lt
  simp only [Shape.read, Shape.write]
  exact readInteger_writeInt hlo (by omega) (fitInt64_toInt i) h

theorem readsBack_flag : Shape.flag.ReadsBack l := by
  intro depth (b : Bool) rest h
  cases b <;> rfl

theorem readsBack_text : Shape.text.ReadsBack l := by
  intro depth (s : String) rest h
  simp only [Shape.read, Shape.write]
  exact readString_writeText s rest

theorem readsBack_choice {names : List String} (h : names.Nodup) :
    (Shape.choice names).ReadsBack l := by
  intro depth (i : Fin names.length) rest _
  simp only [Shape.read, Shape.write]
  exact readChoice_writeText h i rest

theorem readsBack_optional {s : Shape} (hs : s.ReadsBack l) (h : s.isOptional = false) :
    (Shape.optional s).ReadsBack l := by
  rintro depth (_ | v) rest hrest
  · rfl
  · obtain ⟨c, hhead, hblank, -, hnull⟩ := head_write h l depth v
    obtain ⟨cs, e⟩ := List.head?_eq_some_iff.1 hhead
    have hread := hs depth v rest hrest
    simp only [Shape.read, Shape.write]
    rw [e, List.cons_append] at hread ⊢
    rw [skipBlank_cons hblank]
    split
    · rename_i e'
      cases e'
      exact absurd rfl hnull
    · rw [hread]
      rfl

theorem readsBack_list (hl : l.Lawful) {s : Shape} (hs : s.ReadsBack l) (h : s.readable) :
    (Shape.list s).ReadsBack l := by
  intro depth (vs : List s.Value) rest _
  have hw := head_write_of_readable h l (depth + 1)
  have hne : ∀ m ∈ vs.map (s.write l (depth + 1)), m ≠ [] := by
    intro m hm e
    obtain ⟨v, -, rfl⟩ := List.mem_map.1 hm
    obtain ⟨c, hc, -⟩ := hw v
    rw [e] at hc
    cases hc
  have hlength := length_lt_remaining l ']' depth true hne
  rw [List.length_map] at hlength
  simp only [Shape.read, Shape.write]
  rw [enclose_eq, List.cons_append, skipBlank_cons (by decide)]
  refine readElements_remaining hl (hs (depth + 1)) hw vs true ?_
  rw [List.length_append]
  exact Nat.lt_succ_of_lt (Nat.lt_add_right rest.length hlength)

end Shape

namespace Fields

variable {l : Layout}

def found : (fs : Fields) → fs.Value → fs.Partial
  | .nil, _ => ()
  | .cons _ _ rest, (v, vs) => (some v, rest.found vs)

theorem complete_found : (fs : Fields) → (form : Form) → (v : fs.Value) →
    fs.complete form (fs.found v) = .ok v
  | .nil, _, _ => rfl
  | .cons _ _ rest, form, (v, vs) => by
    cases form <;> simp only [complete, found, rest.complete_found, Except.map]

theorem overlay_found : (fs : Fields) → (d v : fs.Value) → fs.overlay d (fs.found v) = v
  | .nil, _, _ => rfl
  | .cons _ _ rest, (_, ds), (v, vs) => by
    simp only [overlay, found, rest.overlay_found, Option.getD_some]
    rfl

theorem readMember_cons (hl : l.Lawful) {s : Shape} (hs : s.ReadsBack l) (name : String)
    {fs : Fields} (p : fs.Partial) (depth : Nat) (v : s.Value) {rest : List Char}
    (h : Ends rest) :
    (Fields.cons name s fs).readMember name (none, p) (l.colon ++ (s.write l depth v ++ rest)) =
      some (.ok ((some v, p), rest)) := by
  obtain ⟨ws, hcolon, hws⟩ := hl.exists_colon
  have hread : readColon (':' :: ws ++ (s.write l depth v ++ rest)) =
      .ok (ws ++ (s.write l depth v ++ rest)) := rfl
  simp only [readMember, if_true, hcolon, hread, bind, Except.bind, s.read_append hws,
    hs depth v rest h]

def ReadBy {α : Type} (fs : Fields)
    (member : String → α → List Char → Option (Except Flaw (α × List Char)))
    (fill : fs.Partial → α) : Prop :=
  ∀ name ∈ fs.names, ∀ p cs, member name (fill p) cs =
    (fs.readMember name p cs).map fun r => r.map fun (p, cs) => (fill p, cs)

theorem readBy_self (fs : Fields) : fs.ReadBy fs.readMember id := by
  intro name _ p cs
  cases h : fs.readMember name p cs with
  | none => simp [h]
  | some r => cases r <;> simp [h, Except.map]

section Members

variable {α : Type} {member : String → α → List Char → Option (Except Flaw (α × List Char))}

theorem ReadBy.tail {name : String} {s : Shape} {fs : Fields}
    {fill : (Fields.cons name s fs).Partial → α} (h : (Fields.cons name s fs).ReadBy member fill)
    (hname : name ∉ fs.names) (v : s.Value) : fs.ReadBy member fun p => fill (some v, p) := by
  intro key hkey p cs
  have hne : key ≠ name := fun e => hname (e ▸ hkey)
  rw [h key (List.mem_cons_of_mem name hkey) (some v, p) cs, readMember, if_neg hne]
  cases fs.readMember key p cs with
  | none => rfl
  | some r => cases r <;> rfl

theorem readMembers_remaining (hl : l.Lawful) : (fs : Fields) → fs.ReadBack l → fs.names.Nodup →
    (fill : fs.Partial → α) → fs.ReadBy member fill → (first : Bool) → (n : Nat) →
    fs.names.length < n → (depth : Nat) → (v : fs.Value) → (rest : List Char) →
    readMembers member n first (fill fs.blank)
      (l.remaining '}' depth first (fs.write l (depth + 1) v) ++ rest) =
        .ok (fill (fs.found v), rest)
  | .nil, _, _, fill, _, first, n + 1, _, depth, _, rest => by
    rw [readMembers]
    simp only [Fields.write, nextMember_nil hl]
    rfl
  | .cons name s fs, ⟨hs, hfs⟩, hnames, fill, hmember, first, n + 1, hn, depth, (v, vs), rest => by
    rw [names, List.nodup_cons] at hnames
    obtain ⟨cs, hnext, hname⟩ := exists_nextMember hl depth first name
      (s.write l (depth + 1) v) (fs.write l (depth + 1) vs) rest
    have hfirst := hmember name List.mem_cons_self (none, fs.blank)
      (l.colon ++ (s.write l (depth + 1) v ++
        (l.remaining '}' depth false (fs.write l (depth + 1) vs) ++ rest)))
    rw [readMember_cons hl hs name _ _ v (ends_remaining hl (.inr rfl) _)] at hfirst
    have hothers := readMembers_remaining hl fs hfs hnames.2 _ (hmember.tail hnames.1 v) false n
      (Nat.lt_of_succ_lt_succ hn) depth vs rest
    rw [readMembers]
    simp only [Fields.write, hnext, hname, blank, hfirst, found]
    exact hothers

end Members

theorem length_write (l : Layout) : (fs : Fields) → (depth : Nat) → (v : fs.Value) →
    (fs.write l depth v).length = fs.names.length
  | .nil, _, _ => rfl
  | .cons _ _ fs, depth, (v, vs) => by
    simp only [Fields.write, names, List.length_cons, fs.length_write l depth vs]

theorem ne_nil_of_mem_write (l : Layout) : (fs : Fields) → (depth : Nat) → (v : fs.Value) →
    ∀ m ∈ fs.write l depth v, m ≠ []
  | .nil, _, _ => by simp [Fields.write]
  | .cons _ _ fs, depth, (v, vs) => by
    simpa [Fields.write, writeText] using fs.ne_nil_of_mem_write l depth vs

theorem readRecord_write (hl : l.Lawful) {fs : Fields} (hfs : fs.ReadBack l)
    (hnames : fs.names.Nodup) (elements : Bool → Reader fs.Partial) (depth : Nat) (v : fs.Value)
    (rest : List Char) :
    readRecord fs.blank fs.readMember elements ((Shape.record fs).write l depth v ++ rest) =
      .ok ((.object, fs.found v), rest) := by
  have hlength := length_lt_remaining l '}' depth true (fs.ne_nil_of_mem_write l (depth + 1) v)
  rw [fs.length_write] at hlength
  have hread := readMembers_remaining hl fs hfs hnames id fs.readBy_self true
    ((l.remaining '}' depth true (fs.write l (depth + 1) v) ++ rest).length + 1)
    (by rw [List.length_append]; omega) depth v rest
  simp only [Shape.write]
  rw [enclose_eq, List.cons_append, readRecord, skipBlank_cons (by decide)]
  simp only [if_true]
  rw [← id_eq fs.blank, hread]
  rfl

end Fields

theorem Shape.readsBack_record {l : Layout} (hl : l.Lawful) {fs : Fields} (hfs : fs.ReadBack l)
    (hnames : fs.names.Nodup) : (Shape.record fs).ReadsBack l := by
  intro depth v rest _
  have hread := Fields.readRecord_write hl hfs hnames fs.readElements depth v rest
  simp only [Shape.read]
  split
  · rename_i h
    cases hread.symm.trans h
  · rename_i h
    cases hread.symm.trans h
    exact congrArg (Except.map (·, rest)) (fs.complete_found .object v)

mutual

theorem Shape.readsBack {l : Layout} (hl : l.Lawful) : (s : Shape) → s.readable → s.ReadsBack l
  | .uint64, _ => Shape.readsBack_uint64
  | .uint32, _ => Shape.readsBack_uint32
  | .int64, _ => Shape.readsBack_int64
  | .flag, _ => Shape.readsBack_flag
  | .text, _ => Shape.readsBack_text
  | .optional s, h => by
    rw [Shape.readable, Bool.and_eq_true, Bool.not_eq_true'] at h
    exact Shape.readsBack_optional (s.readsBack hl h.2) h.1
  | .list s, h => Shape.readsBack_list hl (s.readsBack hl h) h
  | .choice _, h => Shape.readsBack_choice (of_decide_eq_true h)
  | .record fs, h => by
    rw [Shape.readable, Bool.and_eq_true, decide_eq_true_eq] at h
    exact Shape.readsBack_record hl (fs.readBack hl h.2) h.1

theorem Fields.readBack {l : Layout} (hl : l.Lawful) : (fs : Fields) → fs.readable → fs.ReadBack l
  | .nil, _ => trivial
  | .cons _ s fs, h => by
    rw [Fields.readable, Bool.and_eq_true] at h
    exact ⟨s.readsBack hl h.1, fs.readBack hl h.2⟩

end

theorem parseWith_eq_ok {α : Type} {r : Reader α} {cs ws : List Char} {a : α}
    (h : r cs = .ok (a, ws)) (hws : ∀ c ∈ ws, isBlank c) :
    parseWith r (String.ofList cs) = .ok a := by
  rw [parseWith, String.toList_ofList, h]
  exact if_pos (isEmpty_skipBlank hws)

theorem Format.parse_write {α : Type} (f : Format α) {l : Layout} (hl : l.Lawful)
    (h : f.shape.readable) (a : α) : f.parse (f.write l a) = .ok a := by
  have hread := f.shape.readsBack hl h 0 (f.toValue a) [] ends_nil
  rw [List.append_nil] at hread
  rw [parse, write, Shape.parse, parseWith_eq_ok hread nofun]
  exact congrArg Except.ok (f.ofValue_toValue a)

/-- All fields are there, so the defaults do not matter. -/
theorem Fields.parseOver_write {fs : Fields} {l : Layout} (hl : l.Lawful)
    (h : (Shape.record fs).readable) (defaults v : fs.Value) {ws : List Char}
    (hws : ∀ c ∈ ws, isBlank c) :
    fs.parseOver defaults (String.ofList ((Shape.record fs).write l 0 v ++ ws)) = .ok v := by
  rw [Shape.readable, Bool.and_eq_true, decide_eq_true_eq] at h
  have hread := readRecord_write hl (fs.readBack hl h.2) h.1 fs.readElements 0 v ws
  rw [parseOver, parseWith_eq_ok hread hws]
  exact congrArg Except.ok (fs.overlay_found defaults v)

end ForkWatch.Json
