import ForkWatch.Formats
import ForkWatch.Proofs.Json.Reading

/-! # Configurations over the defaults

A configuration is read from an object that gives some settings, in any order and with members of
other names among them. What is given replaces the defaults; a setting that is given again is
refused.
-/

namespace ForkWatch

open Json (Blanks Fields Flaw Members Piece Shape Tree)

namespace Config

inductive Setting where
  | id (v : String)
  | chain (v : String)
  | startBlock (v : UInt64)
  | scanWidth (v : UInt64)
  | maxWalkBacks (v : UInt64)
  | loopIntervalSecs (v : UInt64)
  | pollPolicy (v : PollPolicy)
  | logLevel (v : String)
  | fetchAttempts (v : UInt32)
  | fetchDelayMs (v : UInt64)
  | filter (v : LogFilter)
  deriving DecidableEq, Repr

namespace Setting

def key : Setting → String
  | id _ => "id"
  | chain _ => "chain"
  | startBlock _ => "start_block"
  | scanWidth _ => "scan_width"
  | maxWalkBacks _ => "max_go_back_retries"
  | loopIntervalSecs _ => "loop_interval_secs"
  | pollPolicy _ => "poll_policy"
  | logLevel _ => "log_level"
  | fetchAttempts _ => "fetch_retries"
  | fetchDelayMs _ => "fetch_retry_delay_ms"
  | filter _ => "filter"

def slot : Setting → fields.Slot
  | id v => .here v
  | chain v => .there (.here v)
  | startBlock v => .there (.there (.here v))
  | scanWidth v => .there (.there (.there (.here v)))
  | maxWalkBacks v => .there (.there (.there (.there (.here v))))
  | loopIntervalSecs v => .there (.there (.there (.there (.there (.here v)))))
  | pollPolicy v => .there (.there (.there (.there (.there (.there
      (.here (PollPolicy.format.toValue v)))))))
  | logLevel v => .there (.there (.there (.there (.there (.there (.there (.here v)))))))
  | fetchAttempts v =>
    .there (.there (.there (.there (.there (.there (.there (.there (.here v))))))))
  | fetchDelayMs v =>
    .there (.there (.there (.there (.there (.there (.there (.there (.there (.here v)))))))))
  | filter v =>
    .there (.there (.there (.there (.there (.there (.there (.there (.there (.there
      (.here (LogFilter.format.toValue v)))))))))))

theorem name_slot (x : Setting) : x.slot.name = x.key := by
  cases x <;> rfl

end Setting

def set (c : Config) : Setting → Config
  | .id v => { c with id := v }
  | .chain v => { c with chain := v }
  | .startBlock v => { c with startBlock := v }
  | .scanWidth v => { c with scanWidth := v }
  | .maxWalkBacks v => { c with maxWalkBacks := v }
  | .loopIntervalSecs v => { c with loopIntervalSecs := v }
  | .pollPolicy v => { c with pollPolicy := v }
  | .logLevel v => { c with logLevel := v }
  | .fetchAttempts v => { c with fetchAttempts := v }
  | .fetchDelayMs v => { c with fetchDelayMs := v }
  | .filter v => { c with filter := v }

theorem toValue_set (c : Config) (x : Setting) :
    format.toValue (c.set x) = fields.replace (format.toValue c) x.slot := by
  cases x <;> rfl

theorem toValue_foldl_set (c : Config) (xs : List Setting) :
    format.toValue (xs.foldl set c) =
      (xs.map Setting.slot).foldl fields.replace (format.toValue c) := by
  induction xs generalizing c with
  | nil => rfl
  | cons x xs ih => rw [List.foldl_cons, ih, toValue_set]; rfl

/-- The members of an object give these settings, in the order of the text, and the others have
names of their own. -/
def Gives (ms : Members) (xs : List Setting) : Prop := fields.Told ms (xs.map Setting.slot)

theorem names_slots (xs : List Setting) :
    (xs.map Setting.slot).map Fields.Slot.name = xs.map Setting.key := by
  rw [List.map_map]
  exact List.map_congr_left fun x _ => x.name_slot

theorem nodup_names : fields.names.Nodup := by decide

variable {ms : Members} {xs : List Setting}

theorem nodup_slots (h : (xs.map Setting.key).Nodup) :
    ((xs.map Setting.slot).map Fields.Slot.name).Nodup := by
  rwa [names_slots]

theorem parse_document (h : Gives ms xs) (before after ws : Blanks) :
    parse ((Tree.object ws ms).document before after) =
      ((fields.fill fields.blank (xs.map Setting.slot)).map
        (fields.overlay (format.toValue {}))).map format.ofValue := by
  have hreadable : (Shape.record fields).readable := by decide
  exact congrArg (Except.map format.ofValue)
    (Fields.parseOver_document hreadable h (format.toValue {}) before after ws)

theorem parse_of_nodup (h : Gives ms xs) (hxs : (xs.map Setting.key).Nodup)
    (before after ws : Blanks) :
    parse ((Tree.object ws ms).document before after) = .ok (xs.foldl set {}) := by
  have hvalue : fields.overlay (format.toValue {})
      ((xs.map Setting.slot).foldl fields.put fields.blank) = format.toValue (xs.foldl set {}) :=
    (Fields.overlay_foldl_put _ _).trans (toValue_foldl_set {} xs).symm
  rw [parse_document h, Fields.fill_blank_of_nodup nodup_names (nodup_slots hxs)]
  exact congrArg Except.ok ((congrArg format.ofValue hvalue).trans (format.ofValue_toValue _))

theorem parse_of_perm {ms' : Members} {xs' : List Setting} (h : Gives ms xs) (h' : Gives ms' xs')
    (perm : xs'.Perm xs) (hxs : (xs.map Setting.key).Nodup)
    (before after ws before' after' ws' : Blanks) :
    parse ((Tree.object ws' ms').document before' after') =
      parse ((Tree.object ws ms).document before after) := by
  have hxs' : (xs'.map Setting.key).Nodup := (perm.map Setting.key).nodup_iff.2 hxs
  rw [parse_document h, parse_document h',
    Fields.fill_blank_of_nodup nodup_names (nodup_slots hxs),
    Fields.fill_blank_of_nodup nodup_names (nodup_slots hxs'),
    Fields.foldl_put_perm (perm.map Setting.slot) (nodup_slots hxs')]

theorem parse_of_repeated {ys zs : List Setting} {x : Setting} (h : Gives ms (ys ++ x :: zs))
    (hys : (ys.map Setting.key).Nodup) (hx : x.key ∈ ys.map Setting.key)
    (before after ws : Blanks) :
    parse ((Tree.object ws ms).document before after) = .error (.duplicateField x.key) := by
  have hname : x.slot.name ∈ (ys.map Setting.slot).map Fields.Slot.name := by
    rwa [names_slots, x.name_slot]
  rw [parse_document h, List.map_append, List.map_cons,
    Fields.fill_blank_repeated nodup_names (nodup_slots hys) hname, x.name_slot]
  rfl

/-- What an object gives replaces the defaults. Neither its order nor its other members matter, and
a setting that comes again is refused where it does so first. -/
theorem parse_overlays (h : Gives ms xs) (before after ws : Blanks) :
    ((xs.map Setting.key).Nodup →
      parse ((Tree.object ws ms).document before after) = .ok (xs.foldl set {}) ∧
      ∀ ms' xs', Gives ms' xs' → xs'.Perm xs → ∀ before' after' ws',
        parse ((Tree.object ws' ms').document before' after') =
          parse ((Tree.object ws ms).document before after)) ∧
    (¬ (xs.map Setting.key).Nodup → ∃ ys x zs, xs = ys ++ x :: zs ∧ (ys.map Setting.key).Nodup ∧
      x.key ∈ ys.map Setting.key ∧
      parse ((Tree.object ws ms).document before after) = .error (.duplicateField x.key)) := by
  refine ⟨fun hxs => ⟨parse_of_nodup h hxs before after ws, ?_⟩, fun hxs => ?_⟩
  · intro ms' xs' h' perm before' after' ws'
    exact parse_of_perm h h' perm hxs before after ws before' after' ws'
  · obtain ⟨ys, x, zs, rfl, hys, hx⟩ := Json.exists_first_repeated hxs
    exact ⟨ys, x, zs, rfl, hys, hx, parse_of_repeated h hys hx before after ws⟩

def noted : Members :=
  let none : Blanks := ⟨[], nofun⟩
  let start : Tree := .number
    { minus := false
      whole := ⟨['7'], by decide, List.forall_mem_singleton.2 rfl⟩
      whole_eq := by decide
      fraction := .none
      exponent := .none }
  .cons none (Piece.plainly "start_block" (by decide)) none none start none <|
  .cons none (Piece.plainly "note" (by decide)) none none (.array none .nil) none <|
  .cons none (Piece.plainly "id" (by decide)) none none
    (.string (Piece.plainly "pools" (by decide))) none .nil

theorem parse_overlays_noted :
    parse "\x7b\"start_block\":7,\"note\":[],\"id\":\"pools\"\x7d" =
      .ok { startBlock := 7, id := "pools" } := by
  have given : Gives noted [.startBlock 7, .id "pools"] :=
    .known _ (Piece.spell_plainly _ _) (.uint64 7 (by decide)) <|
    .unknown (Piece.spell_plainly _ _) (by decide) <|
    .known _ (Piece.spell_plainly _ _) (.text (Piece.spell_plainly _ _)) .nil
  exact ((parse_overlays given ⟨[], nofun⟩ ⟨[], nofun⟩ ⟨[], nofun⟩).1 (by decide)).1

end Config

end ForkWatch
