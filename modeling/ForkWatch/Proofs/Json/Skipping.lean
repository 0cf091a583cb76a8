import ForkWatch.Json.Skip
import ForkWatch.Proofs.Json.Syntax

/-! # Values that are passed over

Every well-formed value is passed over, to its last character and no further, whatever text follows
and however deep it is nested.
-/

namespace ForkWatch.Json

theorem skipExponent_text (x : Exponent) {rest : List Char} (h : NoDigit rest) :
    skipExponent (x.sign ++ x.digits.chars ++ rest) = .ok rest := by
  have hdigits : (if ((x.digits.chars ++ rest).takeWhile isDigit).isEmpty then .error .malformed
      else .ok ((x.digits.chars ++ rest).dropWhile isDigit) : Except Flaw (List Char)) =
        .ok rest := by
    rw [Digits.takeWhile_append h, Digits.dropWhile_append h, if_neg]
    rw [List.isEmpty_iff]
    exact x.digits.ne_nil
  rcases x.sign_eq with hs | hs | hs
  · obtain ⟨c, cs, e, hc⟩ := x.digits.exists_eq_cons
    rw [hs, List.nil_append]
    unfold skipExponent
    split
    · rename_i e'
      rw [e] at e'
      cases e'
      cases hc
    · rename_i e'
      rw [e] at e'
      cases e'
      cases hc
    · exact hdigits
  · rw [hs]
    exact hdigits
  · rw [hs]
    exact hdigits

theorem skipScale_exponent (x : Exponent) {rest : List Char} (h : NoDigit rest) :
    skipScale (x.text ++ rest) = .ok rest := by
  have hskip := skipExponent_text x h
  rcases x.mark_eq with hm | hm
  all_goals
    rw [Exponent.text, hm]
    exact hskip

theorem skipScale_of_ends {rest : List Char} (h : Ends rest) : skipScale rest = .ok rest := by
  unfold skipScale
  split
  · exact absurd rfl (h _ rfl).2.1
  · exact absurd rfl (h _ rfl).2.2.1
  · exact absurd rfl (h _ rfl).2.2.2
  · rfl

theorem noDigit_exponent (x : Option Exponent) {rest : List Char} (h : NoDigit rest) :
    NoDigit (x.elim [] Exponent.text ++ rest) := by
  cases x with
  | none => exact h
  | some x =>
    rintro c ⟨⟩
    rcases x.mark_eq with hm | hm <;> rw [hm] <;> decide

theorem skipScale_scale (n : Number) {rest : List Char} (h : Ends rest) :
    skipScale (n.scale ++ rest) = .ok rest := by
  rw [Number.scale, List.append_assoc]
  cases n.fraction with
  | none =>
    cases n.exponent with
    | none => exact skipScale_of_ends h
    | some x => exact skipScale_exponent x h.noDigit
  | some ds =>
    have hrest := noDigit_exponent n.exponent h.noDigit
    rw [Option.elim_some, List.cons_append, skipScale, Digits.takeWhile_append hrest,
      Digits.dropWhile_append hrest, if_neg (by rw [List.isEmpty_iff]; exact ds.ne_nil)]
    cases n.exponent with
    | none =>
      rw [Option.elim_none, List.nil_append]
      split
      · exact absurd rfl (h _ rfl).2.2.1
      · exact absurd rfl (h _ rfl).2.2.2
      · rfl
    | some x =>
      have hskip := skipExponent_text x h.noDigit
      rcases x.mark_eq with hm | hm
      all_goals
        rw [Option.elim_some, Exponent.text, hm]
        exact hskip

theorem noDigit_scale (n : Number) {rest : List Char} (h : Ends rest) :
    NoDigit (n.scale ++ rest) := by
  rw [Number.scale, List.append_assoc]
  cases n.fraction with
  | none => exact noDigit_exponent n.exponent h.noDigit
  | some ds =>
    rintro c ⟨⟩
    decide

theorem skipNumeral_unsigned (n : Number) {rest : List Char} (h : Ends rest) :
    skipNumeral (n.unsigned ++ rest) = .ok rest := by
  have hrest := noDigit_scale n h
  obtain ⟨c, cs, e, -⟩ := n.whole.exists_eq_cons
  have hleading : (c = '0' && !cs.isEmpty) = false := by
    by_cases hc : c = '0'
    · have hzero := n.whole_eq (by rw [e, hc]; rfl)
      rw [e] at hzero
      cases hzero
      rfl
    · simp [hc]
  rw [skipNumeral, Number.unsigned, List.append_assoc, Digits.takeWhile_append hrest,
    Digits.dropWhile_append hrest, e]
  simp only [hleading, Bool.false_eq_true, if_false]
  exact skipScale_scale n h

theorem skipScalar_of_isDigit {c : Char} (h : isDigit c) (cs : List Char) :
    skipScalar c cs = skipNumeral (c :: cs) := by
  have hn : c ≠ 'n' := by rintro rfl; cases h
  have ht : c ≠ 't' := by rintro rfl; cases h
  have hf : c ≠ 'f' := by rintro rfl; cases h
  have hquote : c ≠ '"' := by rintro rfl; cases h
  have hminus : c ≠ '-' := by rintro rfl; cases h
  simp only [skipScalar, hn, ht, hf, hquote, hminus, h, if_false, if_true]

theorem skipText_plain {c : Char} (h : isPlain c) (cs : List Char) :
    skipText .plain (c :: cs) = skipText .plain cs := by
  obtain ⟨hquote, hslash, hcontrol⟩ := isPlain_iff.1 h
  simp [skipText, hquote, hslash, Nat.not_lt.2 hcontrol]

theorem skipText_code (u : Code) (cs : List Char) :
    skipText .plain (u.text ++ cs) = skipText .plain cs := by
  simp [Code.text, Code.digits, skipText, HexDigit.digit?_char]

theorem skipText_piece (p : Piece) (cs : List Char) :
    skipText .plain (p.text ++ cs) = skipText .plain cs := by
  cases p with
  | plain c h => exact skipText_plain h cs
  | escape letter c h =>
    have hall : ∀ x ∈ escapes, x.1 ≠ 'u' ∧ (unescape? x.1).isSome := by decide
    obtain ⟨hu, hsome⟩ := hall _ h
    simp only at hu hsome
    simp [Piece.text, skipText, hu, hsome]
  | code u => exact skipText_code u cs
  | pair u v => rw [Piece.text, List.append_assoc, skipText_code, skipText_code]

theorem skipText_texts (ps : List Piece) (rest : List Char) :
    skipText .plain (Piece.texts ps ++ rest) = .ok rest := by
  induction ps with
  | nil => rfl
  | cons p ps ih =>
    rw [Piece.texts, List.append_assoc] at ih ⊢
    rw [List.flatMap_cons, List.append_assoc, skipText_piece, ih]

theorem skipName_curly (name : List Piece) (ws before : Blanks) (cs : List Char) :
    Bracket.curly.skipName (before ++ '"' :: (Piece.texts name ++ (ws ++ ':' :: cs))) = .ok cs := by
  rw [Bracket.skipName, skipBlank_append before.2, skipBlank_cons (by decide)]
  simp only [if_true, skipText_texts, Except.bind]
  rw [readColon, skipBlank_append ws.2, skipBlank_cons (by decide)]
  rfl

section Containers

variable {n : Nat} {open_ : List Bracket} {cs rest : List Char}

def SkipState.inside (first : Bool) : SkipState := if first then .first else .next

theorem skipFrom_value (ws : Blanks) :
    skipFrom n .value open_ (ws ++ cs) = skipFrom n .value open_ cs := by
  cases n with
  | zero => rfl
  | succ n => rw [skipFrom, skipFrom, skipBlank_append ws.2]

theorem skipFrom_closing (b : Bracket) (first : Bool) (ws : Blanks) :
    skipFrom (n + 1) (.inside first) (b :: open_) (ws ++ b.closing :: rest) =
      skipFrom n .next open_ rest := by
  have hblank : isBlank b.closing = false := by cases b <;> decide
  cases first
  all_goals
    simp only [SkipState.inside, Bool.false_eq_true, if_true, if_false]
    rw [skipFrom, skipBlank_append ws.2, skipBlank_cons hblank]
    simp only [if_true]

theorem skipFrom_item (t : Tree) (first : Bool) (ws before : Blanks) :
    skipFrom (n + 1) (.inside first) (.square :: open_)
      (ws ++ (separator first ++ (before ++ (t.text ++ cs)))) =
        skipFrom n .value (.square :: open_) (t.text ++ cs) := by
  cases first with
  | true =>
    obtain ⟨c, cs', e, hblank, hc, -⟩ := t.exists_text_eq_cons
    simp [e, SkipState.inside, separator, skipFrom, skipBlank_append ws.2,
      skipBlank_append before.2, skipBlank_cons hblank, Bracket.closing, hc, Bracket.skipName]
  | false =>
    have hcomma : isBlank ',' = false := by decide
    simp [SkipState.inside, separator, skipFrom, skipBlank_append ws.2, skipBlank_cons hcomma,
      Bracket.closing, Bracket.skipName, skipFrom_value]

theorem skipFrom_member (name : List Piece) (first : Bool) (ws before between : Blanks) :
    skipFrom (n + 1) (.inside first) (.curly :: open_)
      (ws ++ (separator first ++
        (before ++ '"' :: (Piece.texts name ++ (between ++ ':' :: cs))))) =
        skipFrom n .value (.curly :: open_) cs := by
  cases first with
  | true =>
    have hname := skipName_curly name between ⟨[], by simp⟩ cs
    have hquote : isBlank '"' = false := by decide
    rw [List.nil_append] at hname
    simp [SkipState.inside, separator, skipFrom, skipBlank_append ws.2, skipBlank_append before.2,
      skipBlank_cons hquote, Bracket.closing, hname]
  | false =>
    have hname := skipName_curly name between before cs
    have hcomma : isBlank ',' = false := by decide
    simp [SkipState.inside, separator, skipFrom, skipBlank_append ws.2, skipBlank_cons hcomma,
      Bracket.closing, hname]

end Containers

mutual

def Tree.steps : Tree → Nat
  | .word _ | .number _ | .string _ => 1
  | .array _ items => items.steps + 2
  | .object _ ms => ms.steps + 2

def Items.steps : Items → Nat
  | .nil => 0
  | .cons _ t _ rest => t.steps + rest.steps + 1

def Members.steps : Members → Nat
  | .nil => 0
  | .cons _ _ _ _ t _ rest => t.steps + rest.steps + 1

end

theorem skipFrom_scalar {n : Nat} {open_ : List Bracket} {c : Char} {cs rest : List Char}
    (hblank : isBlank c = false) (hsquare : c ≠ '[') (hcurly : c ≠ '{')
    (h : skipScalar c cs = .ok rest) :
    skipFrom (n + 1) .value open_ (c :: cs) = skipFrom n .next open_ rest := by
  rw [skipFrom, skipBlank_cons hblank]
  simp only [hsquare, hcurly, if_false, h]

theorem skipFrom_number (x : Number) {n : Nat} {open_ : List Bracket} {rest : List Char}
    (h : Ends rest) :
    skipFrom (n + 1) .value open_ (x.text ++ rest) = skipFrom n .next open_ rest := by
  have hskip := skipNumeral_unsigned x h
  obtain ⟨c, cs, e, ⟨rfl, e'⟩ | ⟨hc, e'⟩⟩ := x.exists_text_eq_cons
  all_goals rw [e, List.cons_append]
  · refine skipFrom_scalar (by decide) (by decide) (by decide) ?_
    rw [e']
    exact hskip
  · have hsquare : c ≠ '[' := by rintro rfl; cases hc
    have hcurly : c ≠ '{' := by rintro rfl; cases hc
    refine skipFrom_scalar (isBlank_of_isDigit hc) hsquare hcurly ?_
    rw [skipScalar_of_isDigit hc, ← List.cons_append, e', hskip]

mutual

-- the fuel is split into the steps of the value and what is left for the text after it, so that the
-- brackets that are open outside stay as they are
theorem Tree.skip : (t : Tree) → (n : Nat) → (open_ : List Bracket) → (rest : List Char) →
    Ends rest → skipFrom (n + t.steps) .value open_ (t.text ++ rest) = skipFrom n .next open_ rest
  | .word w, n, open_, rest, _ => by
    cases w <;> exact skipFrom_scalar (by decide) (by decide) (by decide) rfl
  | .number x, n, open_, rest, h => skipFrom_number x h
  | .string ps, n, open_, rest, _ =>
    skipFrom_scalar (by decide) (by decide) (by decide) (skipText_texts ps rest)
  | .array ws items, n, open_, rest, _ => by
    have hitems := items.skip true n open_ ws rest
    rw [Tree.text_array, Tree.steps, ← Nat.add_assoc, skipFrom, skipBlank_cons (by decide)]
    exact hitems
  | .object ws ms, n, open_, rest, _ => by
    have hmembers := ms.skip true n open_ ws rest
    rw [Tree.text_object, Tree.steps, ← Nat.add_assoc, skipFrom, skipBlank_cons (by decide)]
    exact hmembers

theorem Items.skip : (items : Items) → (first : Bool) → (n : Nat) → (open_ : List Bracket) →
    (ws : Blanks) → (rest : List Char) →
    skipFrom (n + items.steps + 1) (.inside first) (.square :: open_)
      (ws ++ (items.text first ++ ']' :: rest)) = skipFrom n .next open_ rest
  | .nil, first, n, open_, ws, rest => skipFrom_closing .square first ws
  | .cons before t after items, first, n, open_, ws, rest => by
    have hvalue := t.skip (n + items.steps + 1) (.square :: open_) _ (items.ends_text after rest)
    have hothers := items.skip false n open_ after rest
    have hsteps : n + (Items.cons before t after items).steps + 1 =
        n + items.steps + 1 + t.steps + 1 := by
      rw [Items.steps]
      omega
    rw [Items.text_cons, hsteps, skipFrom_item, hvalue]
    exact hothers

theorem Members.skip : (ms : Members) → (first : Bool) → (n : Nat) → (open_ : List Bracket) →
    (ws : Blanks) → (rest : List Char) →
    skipFrom (n + ms.steps + 1) (.inside first) (.curly :: open_)
      (ws ++ (ms.text first ++ '}' :: rest)) = skipFrom n .next open_ rest
  | .nil, first, n, open_, ws, rest => skipFrom_closing .curly first ws
  | .cons before name between after t last ms, first, n, open_, ws, rest => by
    have hvalue := t.skip (n + ms.steps + 1) (.curly :: open_) _ (ms.ends_text last rest)
    have hothers := ms.skip false n open_ last rest
    have hsteps : n + (Members.cons before name between after t last ms).steps + 1 =
        n + ms.steps + 1 + t.steps + 1 := by
      rw [Members.steps]
      omega
    rw [Members.text_cons, hsteps, skipFrom_member, skipFrom_value, hvalue]
    exact hothers

end

mutual

theorem Tree.steps_le : (t : Tree) → t.steps ≤ 2 * t.text.length
  | .word w => by cases w <;> decide
  | .number n => by
    obtain ⟨c, cs, e, -⟩ := n.exists_text_eq_cons
    rw [Tree.text, e, Tree.steps, List.length_cons]
    omega
  | .string ps => by
    rw [Tree.text, Tree.steps, List.length_cons]
    omega
  | .array ws items => by
    have h := items.steps_le true
    simp only [Tree.steps, Tree.text, List.length_append, List.length_cons, List.length_nil]
    rw [Bool.toNat_true] at h
    omega
  | .object ws ms => by
    have h := ms.steps_le true
    simp only [Tree.steps, Tree.text, List.length_append, List.length_cons, List.length_nil]
    rw [Bool.toNat_true] at h
    omega

-- an element that is not the first pays for its own step with its comma
theorem Items.steps_le : (items : Items) → (first : Bool) →
    items.steps ≤ 2 * (items.text first).length + first.toNat
  | .nil, first => by cases first <;> simp [Items.steps]
  | .cons before t after items, first => by
    have ht := t.steps_le
    have h := items.steps_le false
    cases first <;> simp [Items.steps, Items.text, separator] at h ⊢ <;> omega

theorem Members.steps_le : (ms : Members) → (first : Bool) →
    ms.steps ≤ 2 * (ms.text first).length + first.toNat
  | .nil, first => by cases first <;> simp [Members.steps]
  | .cons before name between after t last ms, first => by
    have ht := t.steps_le
    have h := ms.steps_le false
    cases first <;> simp [Members.steps, Members.text, separator] at h ⊢ <;> omega

end

theorem skipValue_text (t : Tree) (ws : Blanks) {rest : List Char} (h : Ends rest) :
    skipValue (ws ++ (t.text ++ rest)) = .ok rest := by
  have hsteps := t.steps_le
  have henough : ∃ n, 2 * ((ws : List Char) ++ (t.text ++ rest)).length + 2 = n + 1 + t.steps := by
    refine ⟨2 * ((ws : List Char) ++ (t.text ++ rest)).length + 1 - t.steps, ?_⟩
    simp only [List.length_append]
    omega
  obtain ⟨n, hn⟩ := henough
  rw [skipValue, hn, skipFrom_value, t.skip _ _ _ h]
  rfl

end ForkWatch.Json
