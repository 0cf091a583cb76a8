import ForkWatch.Proofs.Survival
import ForkWatch.Shelf

/-! # Configurations in normal form

A file is accepted if its text is read as a configuration that a watcher can run with. What is
written then is the configuration in full: it is accepted in its turn, with or without an end of
line, is read as the same configuration and comes out as it went in.
-/

namespace ForkWatch

open Json (Layout)

theorem Json.Layout.pretty_lawful : Layout.pretty.Lawful where
  isBlank_newline depth := by
    intro c hc
    rcases List.mem_cons.1 hc with rfl | hc
    · rfl
    · rw [List.eq_of_mem_replicate hc]
      rfl
  exists_colon := ⟨[' '], rfl, List.forall_mem_singleton.2 rfl⟩

namespace Config

theorem check_eq_ok_iff {c : Config} : c.check = .ok () ↔
    1 ≤ c.scanWidth ∧ 1 ≤ c.fetchAttempts ∧ c.id ≠ "" ∧ c.chain ≠ "" := by
  have hwidth : 1 ≤ c.scanWidth ↔ c.scanWidth ≠ 0 := by
    rw [UInt64.le_iff_toNat_le, ne_eq, ← UInt64.toNat_inj]
    exact Nat.one_le_iff_ne_zero
  have hattempts : 1 ≤ c.fetchAttempts ↔ c.fetchAttempts ≠ 0 := by
    rw [UInt32.le_iff_toNat_le, ne_eq, ← UInt32.toNat_inj]
    exact Nat.one_le_iff_ne_zero
  have hnames : (c.id.isEmpty || c.chain.isEmpty) = true ↔ ¬ (c.id ≠ "" ∧ c.chain ≠ "") := by
    rw [Bool.or_eq_true, String.isEmpty_iff, String.isEmpty_iff, not_and_or, not_not, not_not]
  rw [hwidth, hattempts, check]
  split_ifs with hw ha hn
  · exact ⟨nofun, fun h => absurd hw h.1⟩
  · exact ⟨nofun, fun h => absurd ha h.2.1⟩
  · exact ⟨nofun, fun h => absurd h.2.2 (hnames.1 hn)⟩
  · exact ⟨fun _ => ⟨hw, ha, not_not.1 (mt hnames.2 hn)⟩, fun _ => rfl⟩

theorem parse_pretty (c : Config) {ending : String} (h : ending ∈ ["", "\n"]) :
    parse (format.pretty c ++ ending) = .ok c := by
  have hblank : ∀ ch ∈ ending.toList, Json.isBlank ch := by
    rcases List.mem_pair.1 h with rfl | rfl
    · exact List.forall_mem_nil _
    · exact List.forall_mem_singleton.2 rfl
  have hread := parse_write_append Layout.pretty_lawful c hblank
  rwa [String.ofList_toList] at hread

end Config

namespace Command

variable {σ τ : Type} [Storage σ τ] {d : σ} {path text : String} {c : Config}

theorem validate_eq_ok_iff (h : Storage.readText d path = .ok text) :
    validate d path = .ok c ↔ Config.parse text = .ok c ∧ c.check = .ok () := by
  cases hparse : Config.parse text with
  | error flaw => simp [validate, h, hparse, bind, Except.bind, Except.mapError]
  | ok c' =>
    rw [Except.ok.injEq]
    cases hcheck : c'.check with
    | error e =>
      simp only [validate, h, hparse, hcheck, bind, Except.bind, Except.mapError]
      refine ⟨nofun, ?_⟩
      rintro ⟨rfl, hc⟩
      rw [hcheck] at hc
      cases hc
    | ok u =>
      simp only [validate, h, hparse, hcheck, bind, Except.bind, Except.mapError, pure,
        Except.pure, Except.ok.injEq]
      refine ⟨?_, And.left⟩
      rintro rfl
      exact ⟨rfl, hcheck⟩

variable [CheckpointTable τ]

theorem run_validate (d : σ) (path : String) : run d ["validate", path] =
    conclude ((validate d path).map fun c => lines [Config.format.pretty c], d) := by
  have hget (f : σ → Action σ String) : (get >>= f : Action σ String) d = f d d := rfl
  have hrun : run d ["validate", path] = conclude (perform ["validate", path] d) := rfl
  rw [hrun, perform, hget]
  cases validate d path <;> rfl

theorem run_validate_of_ok (h : validate d path = .ok c) :
    run d ["validate", path] = ({ stdout := Config.format.pretty c ++ "\n" }, d) := by
  rw [run_validate, h]
  simp [Except.map, lines, conclude]

theorem run_validate_of_error {e : String} (h : validate d path = .error e) :
    run d ["validate", path] = ({ exit := 1, stderr := lines ["error: " ++ e] }, d) := by
  rw [run_validate, h]
  rfl

def Accepts (d : σ) (path : String) : Prop := (run d ["validate", path]).1.exit = 0

theorem accepts_iff : Accepts d path ↔ ∃ c, validate d path = .ok c := by
  rw [Accepts]
  cases hvalid : validate d path with
  | ok c =>
    rw [run_validate_of_ok hvalid]
    exact ⟨fun _ => ⟨c, rfl⟩, fun _ => rfl⟩
  | error e =>
    rw [run_validate_of_error hvalid]
    exact ⟨nofun, nofun⟩

/-- A file is accepted if its text is read as a configuration that a watcher can run with. What is
written for it then is its normal form, which comes out of any file that it is put in. -/
theorem validate_normalises (h : Storage.readText d path = .ok text) :
    (Accepts d path ↔ ∃ c, Config.parse text = .ok c ∧
      1 ≤ c.scanWidth ∧ 1 ≤ c.fetchAttempts ∧ c.id ≠ "" ∧ c.chain ≠ "") ∧
    (Accepts d path → ∃ c, Config.parse text = .ok c ∧
      run d ["validate", path] = ({ stdout := Config.format.pretty c ++ "\n" }, d) ∧
      ∀ ending ∈ ["", "\n"], Config.parse (Config.format.pretty c ++ ending) = .ok c ∧
        ∀ (d' : σ) (path' : String),
          Storage.readText d' path' = .ok (Config.format.pretty c ++ ending) →
            Accepts d' path' ∧
            run d' ["validate", path'] = ({ stdout := Config.format.pretty c ++ "\n" }, d')) := by
  have hiff : Accepts d path ↔ ∃ c, Config.parse text = .ok c ∧ c.check = .ok () :=
    accepts_iff.trans (exists_congr fun c => validate_eq_ok_iff h)
  refine ⟨?_, fun accepts => ?_⟩
  · simp only [hiff, Config.check_eq_ok_iff]
  · obtain ⟨c, hparse, hcheck⟩ := hiff.1 accepts
    have hvalid : validate d path = .ok c := (validate_eq_ok_iff h).2 ⟨hparse, hcheck⟩
    refine ⟨c, hparse, run_validate_of_ok hvalid, fun ending hending => ?_⟩
    have hagain := Config.parse_pretty c hending
    refine ⟨hagain, fun d' path' h' => ?_⟩
    have hvalid' : validate d' path' = .ok c := (validate_eq_ok_iff h').2 ⟨hagain, hcheck⟩
    exact ⟨accepts_iff.2 ⟨c, hvalid'⟩, run_validate_of_ok hvalid'⟩

def pools : Config := { id := "pools", startBlock := 7 }

def poolsText : String := "\x7b\"id\":\"p\\u006fols\",\"note\":[[]],\"start_block\":7\x7d"

def twoFiles : Shelf :=
  [("short", .text poolsText), ("full", .text (Config.format.pretty pools ++ "\n"))]

theorem validate_normalises_short : Storage.readText twoFiles "short" = .ok poolsText ∧
    ∀ path ∈ ["short", "full"], run twoFiles ["validate", path] =
      ({ stdout := Config.format.pretty pools ++ "\n" }, twoFiles) := by
  have hshort : Storage.readText twoFiles "short" = .ok poolsText := rfl
  have hfull : Storage.readText twoFiles "full" = .ok (Config.format.pretty pools ++ "\n") := rfl
  have hparse : Config.parse poolsText = .ok pools := rfl
  obtain ⟨hiff, hnormal⟩ := validate_normalises hshort
  obtain ⟨c, hc, hrun, hagain⟩ := hnormal (hiff.2 ⟨pools, hparse, by decide⟩)
  cases hparse.symm.trans hc
  refine ⟨hshort, List.forall_mem_cons.2 ⟨hrun, List.forall_mem_singleton.2 ?_⟩⟩
  exact ((hagain "\n" (by decide)).2 twoFiles "full" hfull).2

end Command

end ForkWatch
