import ForkWatch.Proofs.Tandem

/-! # One block in two spellings

A poll takes hashes that differ in the case of letters for one, while the engine keeps one record
for each spelling. A tracked block that comes unchanged in another spelling is passed to the service
again, unless the new spelling has a handled record of its own.
-/

namespace ForkWatch.Tandem

open Dialogue

variable {A : Type} {c : Config} {stored : Option UInt64} {H : History A} {t : Tandem A}
  {xs : Transcript Query.Answer} {e : Emitter} {p : Publication} {ds : Proceedings A} {g : Engine A}
  {o : Except WatchError Unit} {b f : Block}

theorem not_reorged_of_same {hashes : List String} (h : p.Tells t.emitter.tracker hashes)
    (hb : b ∈ t.emitter.tracker.blocks) (hf : f ∈ p.window.good) (hn : b.number = f.number)
    (same : Hex.same b.hash f.hash) (count : b.logs.length = f.logs.length) {r : Block}
    (hr : r ∈ p.window.reorged) : r.number ≠ f.number := by
  intro hrn
  obtain rfl := h.eq_asRemoved_of_mem_reorged hr hb (hn.trans hrn.symm)
  exact (h.reorged_iff hf (Tracker.get?_eq_some_iff.2 ⟨hb, hn⟩)).1 hr ⟨same, count⟩

/-- A tracked block that comes unchanged up to the case of letters is passed to the service again
exactly if its hash as it is spelled now has no handled record; the spelling that is tracked has. -/
theorem Run.called_iff_not_retained (run : (start c stored).Run H t)
    (proposes : Leads t.emitter.propose xs (done (e, .ok (.publish p))))
    (processes : Leads (t.engine.process p.window) ds (done (g, o)))
    (hb : b ∈ t.emitter.tracker.blocks) (hf : f ∈ p.window.good) (hn : b.number = f.number)
    (same : Hex.same b.hash f.hash) (count : b.logs.length = f.logs.length) :
    (H.retained c f.key → ∀ x ∈ calls ds, x.2.number ≠ f.number) ∧
      (¬ H.retained c f.key → o = .ok () → (.good, f) ∈ calls ds) ∧
      (b.hash = f.hash → H.retained c f.key) := by
  have hs := run.sound
  have h := Emitter.tells_of_leads (A := A) proposes
  have hr : ∀ r ∈ p.window.reorged, r.number ≠ f.number := fun r =>
    not_reorged_of_same h hb hf hn same count
  have hkey : f.key ∉ p.window.reorged.map Block.key := by
    intro hm
    obtain ⟨r, hmr, ek⟩ := List.mem_map.1 hm
    exact hr r hmr (congrArg BlockKey.number ek)
  rw [← hs.standing_eq]
  refine ⟨fun hold x hx hxn => ?_, fun hnew ho => ?_, fun ek => ?_⟩
  · rcases List.mem_append.1 (hs.calls_subset h processes hx) with hx | hx
    · obtain ⟨r, hmr, rfl⟩ := List.mem_map.1 hx
      exact hr r (List.mem_filter.1 hmr).1 hxn
    · obtain ⟨f', hf', rfl⟩ := List.mem_map.1 hx
      obtain ⟨hf', hdue⟩ := Window.mem_good_unheard_iff.1 hf'
      obtain rfl := h.eq_of_number_eq hf' hf hxn
      exact hkey (hdue hold)
  · subst ho
    rw [hs.calls_eq h processes]
    refine List.mem_append_right _ (List.mem_map_of_mem (Window.mem_good_unheard_iff.2 ⟨hf, ?_⟩))
    exact fun hold => absurd hold hnew
  · have heq : f.key = b.key := by rw [Block.key, Block.key, hn, ek]
    exact heq ▸ hs.tracked b hb

theorem called_for_respelt_first : ∃ g g' e',
    First.fresh.Run First.history ⟨First.emitter, g, some 7⟩ ∧
    Leads First.emitter.propose (First.asked (some 7) 8 "0xA")
      (done (e', .ok (.publish (First.publication 8 "0xA")))) ∧
    Leads (g.process (First.publication 8 "0xA").window) First.respeltDeeds (done (g', .ok ())) ∧
    First.block "0xa" ∈ First.emitter.tracker.blocks ∧
    First.block "0xA" ∈ (First.publication 8 "0xA").window.good ∧
    ¬ First.history.retained First.config (First.block "0xA").key := by
  have run := First.run_history
  obtain ⟨g', processes⟩ := First.processes_respelt
  obtain ⟨e', proposes⟩ := First.proposes_respelt
  have tracked : First.block "0xa" ∈ First.emitter.tracker.blocks := by simp [First.blocks_emitter]
  have good : First.block "0xA" ∈ (First.publication 8 "0xA").window.good :=
    List.mem_singleton.2 rfl
  have same : Hex.same (First.block "0xa").hash (First.block "0xA").hash := rfl
  refine ⟨_, g', e', run, proposes, processes, tracked, good, fun hold => ?_⟩
  have never := (run.called_iff_not_retained proposes processes tracked good rfl same rfl).1 hold
  exact never (.good, First.block "0xA") List.mem_cons_self rfl

end ForkWatch.Tandem
