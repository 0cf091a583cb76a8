import Mathlib.Tactic.ByContra
import ForkWatch.Proofs.Tandem

/-! # The view of the service

The service is to hear of a block as good only while the block does not stand as good, and after
each window at most one block is to stand at a number. Both promises are kept exactly as long as no
window scans again what the watcher has forgotten while it still stands with the service.
-/

namespace ForkWatch

open Dialogue

variable {A : Type}

namespace History

/-- The service is never told of a good block that stands as good already. -/
def NeverTwice (H : History A) : Prop :=
  Throughout (fun pre e => ∀ b prior r, e = .did ⟨.handle .good b prior, r⟩ → ¬ pre.live b.key) H

/-- Whenever a window is acknowledged, at most one block stands at each number. -/
def Undivided (H : History A) : Prop :=
  Throughout (fun pre e => e = .acknowledged →
    ∀ n a b, pre.live ⟨n, a⟩ → pre.live ⟨n, b⟩ → a = b) H

/-- Whenever a window is published, the watcher has not forgotten the blocks that stand at the
numbers of its good blocks. -/
def Remembered (c : Config) (H : History A) : Prop :=
  Throughout (fun pre e => ∀ w, e = .published w → ∀ b ∈ w.good, ∀ hash,
    pre.live ⟨b.number, hash⟩ → pre.retained c ⟨b.number, hash⟩) H

/-- No window starts below what the watcher was free to forget after an earlier one. -/
def NeverReturns (c : Config) (H : History A) : Prop :=
  Throughout (fun pre e => ∀ w, e = .published w →
    ∀ v, .published v ∈ pre → c.retention v.fromBlock ≤ w.fromBlock) H

variable {c : Config} {H es : History A} {xs : Transcript Query.Answer} {w : Window}
  {ds : Proceedings A}

theorem neverTwice_asked_iff : (H ++ xs.map Event.asked).NeverTwice ↔ H.NeverTwice :=
  throughout_append_asked_iff (by simp)

theorem undivided_asked_iff : (H ++ xs.map Event.asked).Undivided ↔ H.Undivided :=
  throughout_append_asked_iff (by simp)

theorem remembered_asked_iff : (H ++ xs.map Event.asked).Remembered c ↔ H.Remembered c :=
  throughout_append_asked_iff (by simp)

theorem neverTwice_window_iff :
    (H ++ window xs w ds).NeverTwice ↔ H.NeverTwice ∧
      ∀ ds₁ b prior r ds₂, ds = ds₁ ++ ⟨.handle .good b prior, r⟩ :: ds₂ →
        ¬ H.live.hearAll (calls ds₁) b.key := by
  unfold NeverTwice
  rw [throughout_window_iff (by simp)]
  simp only [live_opened]
  constructor
  · rintro ⟨h, -, hd, -⟩
    exact ⟨h, fun ds₁ b prior r ds₂ e => hd ds₁ _ ds₂ e b prior r rfl⟩
  · rintro ⟨h, hd⟩
    refine ⟨h, by simp, fun ds₁ d ds₂ e b prior r e' => ?_, by simp⟩
    cases e'
    exact hd ds₁ b prior r ds₂ e

theorem undivided_window_iff :
    (H ++ window xs w ds).Undivided ↔ H.Undivided ∧
      ∀ n a b, H.live.hearAll (calls ds) ⟨n, a⟩ → H.live.hearAll (calls ds) ⟨n, b⟩ → a = b := by
  unfold Undivided
  rw [throughout_window_iff (by simp), live_opened]
  simp

theorem remembered_window_iff :
    (H ++ window xs w ds).Remembered c ↔ H.Remembered c ∧
      ∀ b ∈ w.good, ∀ hash, H.live ⟨b.number, hash⟩ → H.retained c ⟨b.number, hash⟩ := by
  unfold Remembered
  rw [throughout_window_iff (by simp)]
  simp [live, retained]

end History

theorem Window.notices_eq_append_good {w : Window} {ns₁ ns₂ : List (Notice × Block)} {b : Block}
    (h : w.notices = ns₁ ++ (.good, b) :: ns₂) :
    ∃ g₁ g₂, w.good = g₁ ++ b :: g₂ ∧ ns₁ = Window.notices { w with good := g₁ } := by
  rcases List.append_eq_append_iff.1 h with ⟨us, rfl, hus⟩ | ⟨us, hreorged, hus⟩
  · obtain ⟨g₁, vs, hgood, rfl, hvs⟩ := List.map_eq_append_iff.1 hus
    obtain ⟨b', g₂, rfl, hb, rfl⟩ := List.map_eq_cons_iff.1 hvs
    cases hb
    exact ⟨g₁, g₂, hgood, rfl⟩
  · cases us with
    | nil =>
      obtain ⟨b', g₂, hgood, hb, rfl⟩ := List.map_eq_cons_iff.1 (hus.symm : _ = _ :: ns₂)
      cases hb
      refine ⟨[], g₂, hgood, ?_⟩
      simpa [Window.notices] using hreorged.symm
    | cons u us =>
      obtain ⟨rfl, -⟩ := List.cons.inj hus
      have hmem : (Notice.good, b) ∈ w.reorged.map (Notice.reorged, ·) := by rw [hreorged]; simp
      obtain ⟨b', -, hb⟩ := List.mem_map.1 hmem
      cases hb

/-- The good blocks of a window do not stand when it is their turn exactly if those that stood
before are reorged by it. -/
theorem Standing.forall_good_notices_iff (h : Standing) {w : Window}
    (hg : w.good.Pairwise fun a b => a.number < b.number) :
    (∀ ns₁ b ns₂, w.notices = ns₁ ++ (.good, b) :: ns₂ → ¬ h.hearAll ns₁ b.key) ↔
      ∀ b ∈ w.good, h b.key → b.key ∈ w.reorged.map Block.key := by
  constructor
  · intro hall b hb hk
    obtain ⟨g₁, g₂, hgood⟩ := List.append_of_mem hb
    have hsplit : w.notices = Window.notices { w with good := g₁ } ++
        (.good, b) :: g₂.map (Notice.good, ·) := by simp [Window.notices, hgood]
    by_contra hr
    exact hall _ b _ hsplit ((hearAll_notices _).2 (.inr ⟨hr, hk⟩))
  · intro hall ns₁ b ns₂ hsplit hk
    obtain ⟨g₁, g₂, hgood, rfl⟩ := Window.notices_eq_append_good hsplit
    rcases (hearAll_notices _).1 hk with hm | ⟨hr, hk⟩
    · obtain ⟨b', hb', e⟩ := List.mem_map.1 hm
      rw [hgood, List.pairwise_append] at hg
      exact key_ne_of_number_lt (hg.2.2 b' hb' b List.mem_cons_self) e.symm
    · exact hr (hall b (by rw [hgood]; simp) hk)

theorem forall_good_deeds_iff {P : List (Notice × Block) → Block → Prop} {ds : Proceedings A} :
    (∀ ds₁ b prior r ds₂, ds = ds₁ ++ ⟨.handle .good b prior, r⟩ :: ds₂ → P (calls ds₁) b) ↔
      ∀ ns₁ b ns₂, calls ds = ns₁ ++ (.good, b) :: ns₂ → P ns₁ b := by
  constructor
  · intro hall ns₁ b ns₂ hsplit
    obtain ⟨ds₁, us, rfl, rfl, hus⟩ := List.filterMap_eq_append_iff.1 hsplit
    obtain ⟨vs, ⟨d, r⟩, ds₂, rfl, hvs, hd, -⟩ := List.filterMap_eq_cons_iff.1 hus
    have hcalls : calls (ds₁ ++ vs) = calls ds₁ := by
      rw [calls_append, calls, calls, List.filterMap_eq_nil_iff.2 hvs, List.append_nil]
    cases d with
    | save | report => cases hd
    | handle n b' prior =>
      cases hd
      have hP := hall (ds₁ ++ vs) b prior r ds₂ (by simp)
      rw [hcalls] at hP
      exact hP
  · rintro hall ds₁ b prior r ds₂ rfl
    exact hall (calls ds₁) b (calls ds₂) (by rw [calls_append]; rfl)

namespace Tandem

variable {c : Config} {H es : History A} {t t' : Tandem A} {xs : Transcript Query.Answer}
  {e : Emitter} {p : Publication} {ds : Proceedings A} {g : Engine A} {stored : Option UInt64}

/-- Where every hash is spelt one way, a tracked block that a window does not report as reorged has
the hash of the good block at its number. -/
theorem Sound.key_eq_of_mem_good (hs : t.Sound c H)
    (proposes : Leads t.emitter.propose xs (done (e, .ok (.publish p))))
    (spelt : (H ++ History.window xs p.window ds).SpeltOneWay) {b g : Block}
    (hb : b ∈ t.emitter.tracker.blocks) (hg : g ∈ p.window.good) (hn : b.number = g.number)
    (hr : b.key ∉ p.window.reorged.map Block.key) : b.key = g.key := by
  have h := Emitter.tells_of_leads (A := A) proposes
  have htold : b.hash ∈ (H ++ History.window xs p.window ds).hashes := by
    rw [History.hashes_append]
    exact List.mem_append_left _ (hs.told b hb)
  have hfresh : g.hash ∈ (H ++ History.window xs p.window ds).hashes := by
    rw [History.window, History.opened, List.append_assoc, History.hashes_append,
      History.hashes_append]
    exact List.mem_append_right _ (List.mem_append_left _ (h.hash_mem g hg))
  have hsame : Hex.same b.hash g.hash := by
    by_contra hne
    have hmem := (h.reorged_iff hg (Tracker.get?_eq_some_iff.2 ⟨hb, hn⟩)).2 fun hc => hne hc.1
    exact hr (List.mem_map.2 ⟨_, hmem, Block.key_asRemoved b⟩)
  rw [Block.key, Block.key, hn, spelt _ htold _ hfresh hsame]

theorem Run.tracked_of_retained (run : (start c stored).Run H t) (spelt : H.SpeltOneWay)
    {k : BlockKey} (hk : H.retained c k) : ∃ b ∈ t.emitter.tracker.blocks, b.key = k := by
  induction run with
  | nil => cases hk
  | next run turn ih =>
    have hs := run.sound
    have hs' := hs.turn turn
    cases turn with
    | paused => exact ih spelt.left (by rwa [History.retained, History.standing_asked] at hk)
    | quiet proposes _ _ =>
      rw [(Emitter.proposes_of_leads proposes).tracker_eq]
      exact ih spelt.left (by rwa [History.retained, History.standing_asked] at hk)
    | @acknowledged xs e p ds g proposes _ processes =>
      rw [← hs'.standing_eq] at hk
      obtain ⟨hle, hk⟩ := (hs.standing_processed processes k).1 hk
      by_cases hgood : k ∈ p.window.good.map Block.key
      · obtain ⟨b, hb, rfl⟩ := List.mem_map.1 hgood
        exact ⟨b, (hs.mem_settle_iff proposes).2 ⟨hle, .inl hb⟩, rfl⟩
      · obtain ⟨hr, hold⟩ := hk.resolve_left hgood
        obtain ⟨b, hb, rfl⟩ := ih spelt.left (hs.standing_eq ▸ hold)
        refine ⟨b, (hs.mem_settle_iff proposes).2 ⟨hle, .inr ⟨hb, ?_, ?_⟩⟩, rfl⟩
        · intro hm
          obtain ⟨g, hg, e⟩ := List.mem_map.1 hm
          have hkey := hs.key_eq_of_mem_good proposes spelt hb hg e.symm hr
          exact hgood (List.mem_map.2 ⟨g, hg, hkey.symm⟩)
        · intro hm
          obtain ⟨r, hmr, e⟩ := List.mem_map.1 hm
          have h := Emitter.tells_of_leads (A := A) proposes
          obtain rfl := h.eq_asRemoved_of_mem_reorged hmr hb e.symm
          exact hr (List.mem_map.2 ⟨_, hmr, Block.key_asRemoved b⟩)

theorem Run.eq_of_live (run : (start c stored).Run H t) (h : H.Undivided) {n : UInt64}
    {a b : String} (ha : H.live ⟨n, a⟩) (hb : H.live ⟨n, b⟩) : a = b := by
  induction run with
  | nil => cases ha
  | @next H es t' t'' run turn ih =>
    cases turn with
    | paused | quiet =>
      rw [History.live, History.standing_asked] at ha hb
      exact ih (History.throughout_append_iff.1 h).1 ha hb
    | acknowledged =>
      rw [History.live, History.standing_window] at ha hb
      have hw := (History.undivided_window_iff.1 h).2
      rw [← History.live_opened] at hw
      exact hw n a b ha hb

theorem Sound.neverTwice_iff (hs : t.Sound c H)
    (proposes : Leads t.emitter.propose xs (done (e, .ok (.publish p))))
    (processes : Leads (t.engine.process p.window) ds (done (g, .ok ()))) :
    (H ++ History.window xs p.window ds).NeverTwice ↔ H.NeverTwice ∧
      ∀ b ∈ p.window.good, H.live b.key → H.retained c b.key := by
  have h := Emitter.tells_of_leads (A := A) proposes
  have hunheard : (p.window.unheard t.engine.records.standing).good.Pairwise
      fun a b => a.number < b.number := h.good_ascending.filter _
  rw [History.neverTwice_window_iff,
    forall_good_deeds_iff (P := fun ns b => ¬ H.live.hearAll ns b.key), hs.calls_eq h processes,
    Standing.forall_good_notices_iff _ hunheard, ← hs.standing_eq]
  simp only [Window.mem_good_unheard_iff, Window.key_mem_reorged_unheard_iff]
  refine and_congr_right fun _ => ⟨fun hall b hb hk => ?_, ?_⟩
  · by_contra hold
    exact hold (hall b ⟨hb, fun hold' => absurd hold' hold⟩ hk).2
  · rintro hall b ⟨hb, hr⟩ hk
    exact ⟨hr (hall b hb hk), hall b hb hk⟩

theorem Sound.live_window_iff (hs : t.Sound c H)
    (proposes : Leads t.emitter.propose xs (done (e, .ok (.publish p))))
    (processes : Leads (t.engine.process p.window) ds (done (g, .ok ()))) (k : BlockKey) :
    H.live.hearAll (calls ds) k ↔ k ∈ p.window.good.map Block.key ∨
      k ∉ p.window.reorged.map Block.key ∧ H.live k := by
  have h := Emitter.tells_of_leads (A := A) proposes
  have hlive : t.engine.records.standing k → H.live k := fun hold =>
    History.live_of_retained (hs.standing_eq ▸ hold)
  have hreorged : k ∈ p.window.reorged.map Block.key → t.engine.records.standing k :=
    hs.standing_of_mem_reorged h
  rw [hs.calls_eq h processes, Standing.hearAll_unheard]
  constructor
  · rintro (⟨hg, -⟩ | ⟨hr, hk⟩)
    · exact .inl hg
    · exact .inr ⟨fun hm => hr hm (hreorged hm), hk⟩
  · rintro (hg | ⟨hr, hk⟩)
    · by_cases hm : k ∈ p.window.reorged.map Block.key
      · exact .inl ⟨hg, fun _ => hm⟩
      · by_cases hold : t.engine.records.standing k
        · exact .inr ⟨fun hm' => absurd hm' hm, hlive hold⟩
        · exact .inl ⟨hg, fun hold' => absurd hold' hold⟩
    · exact .inr ⟨fun hm => absurd hm hr, hk⟩

/-- A consistent view is kept by a window exactly if the watcher remembers what the window scans. -/
theorem Run.window_consistent_iff (run : (start c stored).Run H t) (undivided : H.Undivided)
    (proposes : Leads t.emitter.propose xs (done (e, .ok (.publish p))))
    (processes : Leads (t.engine.process p.window) ds (done (g, .ok ())))
    (spelt : (H ++ History.window xs p.window ds).SpeltOneWay) :
    ((∀ b ∈ p.window.good, H.live b.key → H.retained c b.key) ∧
      ∀ n a b, H.live.hearAll (calls ds) ⟨n, a⟩ → H.live.hearAll (calls ds) ⟨n, b⟩ → a = b) ↔
    ∀ b ∈ p.window.good, ∀ hash, H.live ⟨b.number, hash⟩ → H.retained c ⟨b.number, hash⟩ := by
  have hs := run.sound
  have h := Emitter.tells_of_leads (A := A) proposes
  have hlive := hs.live_window_iff proposes processes
  constructor
  · rintro ⟨hnever, hone⟩ b hb hash hk
    by_contra hforgotten
    -- a forgotten block cannot be reorged, so it stands beside the good one after the window
    have hr : ⟨b.number, hash⟩ ∉ p.window.reorged.map Block.key := fun hm =>
      hforgotten (hs.standing_eq ▸ hs.standing_of_mem_reorged h hm)
    obtain rfl : b.hash = hash := hone b.number _ _
      ((hlive b.key).2 (.inl (List.mem_map_of_mem hb))) ((hlive _).2 (.inr ⟨hr, hk⟩))
    exact hforgotten (hnever b hb hk)
  · intro hall
    refine ⟨fun b hb hk => hall b hb b.hash hk, ?_⟩
    -- a good block takes the place of what stood at its number
    have hplace : ∀ b ∈ p.window.good, ∀ hash, ⟨b.number, hash⟩ ∉ p.window.reorged.map Block.key →
        H.live ⟨b.number, hash⟩ → hash = b.hash := by
      intro b hb hash hr hk
      obtain ⟨b', hb', e⟩ := run.tracked_of_retained spelt.left (hall b hb hash hk)
      have hkey := hs.key_eq_of_mem_good proposes spelt hb' hb (congrArg BlockKey.number e)
        (e ▸ hr)
      exact congrArg BlockKey.hash (e.symm.trans hkey)
    intro n a b ha hb
    rcases (hlive _).1 ha with hga | ⟨hra, ha⟩ <;> rcases (hlive _).1 hb with hgb | ⟨hrb, hb⟩
    · obtain ⟨x, hx, ex⟩ := List.mem_map.1 hga
      obtain ⟨y, hy, ey⟩ := List.mem_map.1 hgb
      cases ex
      obtain rfl := h.eq_of_number_eq hx hy (congrArg BlockKey.number ey).symm
      exact (congrArg BlockKey.hash ey :)
    · obtain ⟨x, hx, e⟩ := List.mem_map.1 hga
      cases e
      exact (hplace x hx b hrb hb).symm
    · obtain ⟨x, hx, e⟩ := List.mem_map.1 hgb
      cases e
      exact hplace x hx a hra ha
    · exact run.eq_of_live undivided ha hb

/-- The view of the service is consistent exactly as long as the watcher remembers what it scans. -/
theorem Run.consistent_iff_remembered (run : (start c stored).Run H t) (spelt : H.SpeltOneWay) :
    H.NeverTwice ∧ H.Undivided ↔ H.Remembered c := by
  induction run with
  | nil => simp [History.NeverTwice, History.Undivided, History.Remembered, History.throughout_nil]
  | @next H es t' t'' run turn ih =>
    have ih := ih spelt.left
    cases turn with
    | paused | quiet =>
      rw [History.neverTwice_asked_iff, History.undivided_asked_iff, History.remembered_asked_iff]
      exact ih
    | acknowledged proposes _ processes =>
      have hs := run.sound
      rw [hs.neverTwice_iff proposes processes, History.undivided_window_iff,
        History.remembered_window_iff, ← ih]
      constructor
      · rintro ⟨⟨hn, hw⟩, hu, hw'⟩
        exact ⟨⟨hn, hu⟩, (run.window_consistent_iff hu proposes processes spelt).1 ⟨hw, hw'⟩⟩
      · rintro ⟨⟨hn, hu⟩, hw⟩
        obtain ⟨hw, hw'⟩ := (run.window_consistent_iff hu proposes processes spelt).2 hw
        exact ⟨⟨hn, hw⟩, hu, hw'⟩

theorem First.live_history {k : BlockKey} : First.history.live k ↔ k = (First.block "0xa").key := by
  have hcalls : calls First.deeds = [First.block "0xa"].map (.good, ·) := rfl
  have hnone : History.live ([] : History Unit) k = false := rfl
  rw [First.history, History.live, History.standing_window, ← History.live, History.live_opened,
    hcalls, Standing.hearAll_map, hnone]
  simp

theorem consistent_after_fork : First.history.live (First.block "0xa").key ∧
    (∃ b ∈ First.forked.window.good, b.number = (First.block "0xa").number) ∧
    First.forkedHistory.SpeltOneWay ∧ First.forkedHistory.Remembered First.config ∧
    First.forkedHistory.NeverTwice ∧ First.forkedHistory.Undivided := by
  have hashes : First.forkedHistory.hashes = ["0xa", "0xa", "0xb", "0xb"] := rfl
  have spelt : First.forkedHistory.SpeltOneWay := by
    rw [History.SpeltOneWay, hashes]
    decide
  have remembered : First.forkedHistory.Remembered First.config := by
    rw [First.forkedHistory, History.remembered_window_iff, First.history,
      History.remembered_window_iff]
    refine ⟨⟨History.throughout_nil, ?_⟩, ?_⟩
    · intro b _ hash hk
      cases hk
    · intro b hb hash hk
      obtain rfl := List.mem_singleton.1 hb
      rw [First.live_history.1 hk]
      rfl
  obtain ⟨t, run⟩ := First.exists_run_forkedHistory
  have consistent := (run.consistent_iff_remembered spelt).2 remembered
  exact ⟨rfl, ⟨_, List.mem_singleton.2 rfl, rfl⟩, spelt, remembered, consistent⟩

/-- The watcher remembers what it scans unless it goes back beyond what it retains. -/
theorem Run.remembered_of_neverReturns (run : (start c stored).Run H t) (h : H.NeverReturns c) :
    H.Remembered c := by
  induction run with
  | nil => exact History.throughout_nil
  | @next H es t' t'' run turn ih =>
    have ih := ih (History.throughout_append_iff.1 h).1
    cases turn with
    | paused | quiet => exact History.remembered_asked_iff.2 ih
    | @acknowledged xs e p ds g proposes _ processes =>
      have htells := Emitter.tells_of_leads (A := A) proposes
      have hsplit : H ++ History.window xs p.window ds = (H ++ xs.map .asked) ++
          .published p.window :: (ds.map .did ++ [.acknowledged]) := by
        simp [History.window, History.opened]
      refine History.remembered_window_iff.2 ⟨ih, fun b hb hash hk => ?_⟩
      refine History.standing_mono (fun v hv _ => ?_) hk
      have hfloor := h _ _ _ hsplit p.window rfl v (List.mem_append_left _ hv)
      exact UInt64.le_trans hfloor (htells.within hb).1

end Tandem

end ForkWatch
