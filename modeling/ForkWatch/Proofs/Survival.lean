import ForkWatch.Formats
import ForkWatch.Proofs.Json.RoundTrip

/-! # Stored values survive

The values of each type that is stored or exchanged are read back from the compact text that is
written for them. All their formats are readable, so this is the general law of formats, except
that a configuration is read over its defaults.
-/

namespace ForkWatch

open Json (Format Layout)

/-- What is written for a value in compact form is read back. -/
def Json.Format.Survives {α : Type} (f : Format α) : Prop := ∀ a, f.parse (f.compact a) = .ok a

theorem Json.Format.survives {α : Type} {f : Format α} (h : f.shape.readable) : f.Survives :=
  f.parse_write Layout.compact_lawful h

/-- A configuration that was written is read back, also with blanks after it. -/
theorem Config.parse_write_append {l : Layout} (hl : l.Lawful) (c : Config) {ws : List Char}
    (hws : ∀ c ∈ ws, Json.isBlank c) :
    Config.parse (Config.format.write l c ++ String.ofList ws) = .ok c := by
  have hreadable : format.shape.readable := by decide
  have hread := Json.Fields.parseOver_write hl hreadable (format.toValue {}) (format.toValue c) hws
  rw [String.ofList_append] at hread
  have hvalue : Config.parse (format.write l c ++ String.ofList ws) =
      .ok (format.ofValue (format.toValue c)) :=
    congrArg (Except.map format.ofValue) hread
  rw [hvalue, format.ofValue_toValue]

theorem Config.parse_write {l : Layout} (hl : l.Lawful) (c : Config) :
    Config.parse (Config.format.write l c) = .ok c := by
  have hread := parse_write_append hl c (List.forall_mem_nil _)
  rwa [String.ofList_nil, String.append_empty] at hread

/-- Every type that is stored or exchanged survives. -/
theorem every_format_survives : (∀ c, Config.parse (Config.format.compact c) = .ok c) ∧
    PollPolicy.format.Survives ∧ ScanLimits.format.Survives ∧ Checkpoint.format.Survives ∧
    Log.format.Survives ∧ Block.format.Survives ∧ LogFilter.format.Survives ∧
    Window.format.Survives ∧ ScanStatus.format.Survives ∧ BlockState.format.Survives ∧
    BlockEvent.format.Survives ∧ RawLog.format.Survives := by
  refine ⟨Config.parse_write Layout.compact_lawful, ?_, ?_, ?_, ?_, ?_, ?_, ?_, ?_, ?_, ?_, ?_⟩ <;>
    exact Format.survives (by decide)

end ForkWatch
