import ForkWatch.Proofs.Adjoining
import ForkWatch.Proofs.Tandem

/-! # No block is skipped

Whenever the store holds a checkpoint, each followed block up to it lies in a window that was polled
and published and whose good blocks the service had handled before the checkpoint of the window was
saved. Within one run of a watcher this is an invariant of the turns: the range of a cycle adjoins
the checkpoint from above.
-/

namespace ForkWatch

open Dialogue

variable {A : Type}

/-- The service has handled the good logs of a block. -/
def Handled (ds : Proceedings A) (k : BlockKey) : Prop :=
  ∃ b prior a, b.key = k ∧ ⟨.handle .good b prior, .ok a⟩ ∈ ds

theorem Handled.mono {ds ds' : Proceedings A} {k : BlockKey} (h : Handled ds k) (hs : ds ⊆ ds') :
    Handled ds' k := by
  obtain ⟨b, prior, a, hk, hm⟩ := h
  exact ⟨b, prior, a, hk, hs hm⟩

namespace History

variable {H H' : History A} {xs : Transcript Query.Answer} {w : Window} {ds : Proceedings A}

def asks (H : History A) : Transcript Query.Answer := H.filterMap fun
  | .asked x => some x
  | _ => none

def deeds (H : History A) : Proceedings A := H.filterMap fun
  | .did x => some x
  | _ => none

@[simp] theorem asks_append : (H ++ H').asks = H.asks ++ H'.asks := List.filterMap_append

@[simp] theorem deeds_append : (H ++ H').deeds = H.deeds ++ H'.deeds := List.filterMap_append

@[simp] theorem asks_asked (xs : Transcript Query.Answer) :
    asks (xs.map .asked : History A) = xs := by
  induction xs with
  | nil => rfl
  | cons x xs ih => exact congrArg (x :: ·) ih

@[simp] theorem deeds_did (ds : Proceedings A) : deeds (ds.map .did) = ds := by
  induction ds with
  | nil => rfl
  | cons d ds ih => exact congrArg (d :: ·) ih

@[simp] theorem deeds_asked (xs : Transcript Query.Answer) :
    deeds (xs.map .asked : History A) = [] := by
  induction xs with
  | nil => rfl
  | cons x xs ih => exact ih

@[simp] theorem deeds_opened : deeds (opened xs w ds) = ds := by
  rw [opened, deeds_append, deeds_asked]
  exact deeds_did ds

@[simp] theorem deeds_window : deeds (window xs w ds) = ds := by
  rw [window, deeds_append, deeds_opened]
  exact List.append_nil ds

def Polled (c : Config) (H : History A) (w : Window) : Prop :=
  ∃ t p, ForkWatch.Polled t c.filter ⟨w.fromBlock, w.toBlock⟩ p H.asks ∧
    w.good = p.good ∧ w.reorged = p.reorged

/-- A block lies in a window that was polled and published, and the service had handled each good
block of the window when its checkpoint was saved. -/
def Covers (c : Config) (H : History A) (n : UInt64) : Prop :=
  ∃ (pre : History A) (w : Window) (mid : History A) (outcome : Except WatchError Unit)
    (post : History A), H = pre ++ .published w :: mid ++ .did ⟨.save w.lastGood, outcome⟩ :: post ∧
    w.fromBlock ≤ n ∧ n ≤ w.toBlock ∧ pre.Polled c w ∧
    ∀ b ∈ w.good, Handled (pre ++ mid).deeds b.key

theorem Covers.append {c : Config} {n : UInt64} (h : H.Covers c n) (H' : History A) :
    (H ++ H').Covers c n := by
  obtain ⟨pre, w, mid, outcome, post, rfl, h⟩ := h
  exact ⟨pre, w, mid, outcome, post ++ H', by simp, h⟩

/-- Each followed block up to what is stored is covered, unless what was stored before reached it.
-/
def CoversUpTo (c : Config) (before : Option UInt64) (H : History A) (stored : Option UInt64) :
    Prop :=
  ∀ checkpoint n, stored = some checkpoint → c.startBlock ≤ n → n ≤ checkpoint →
    (∃ b, before = some b ∧ n ≤ b) ∨ H.Covers c n

theorem CoversUpTo.append {c : Config} {before stored : Option UInt64}
    (h : H.CoversUpTo c before stored) (H' : History A) : (H ++ H').CoversUpTo c before stored :=
  fun checkpoint n hc hs hn => (h checkpoint n hc hs hn).imp_right fun hcov => hcov.append H'

end History

namespace Records

variable {rs rs' : Records A} {n : Notice} {b : Block} {xs : Proceedings A}
  {ns : List (Notice × Block)} {k : BlockKey}

theorem Delivers.handled_of_standing (h : rs.Delivers n b xs rs' (.ok ())) (hk : rs'.standing k) :
    rs.standing k ∨ Handled xs k := by
  cases h with
  | @skipped _ st fires ne updated =>
    rw [standing, updated.entry_eq, key_entry] at hk
    split at hk
    · rename_i e
      subst e
      left
      rw [standing]
      cases n <;> cases hst : (rs.entry b.key).state <;>
        simp_all [BlockState.fire, Notice.received, Notice.due]
    · exact .inl hk
  | handled a fires updated =>
    rw [standing, updated.entry_eq] at hk
    split at hk
    · rename_i e
      obtain rfl : n = .good := by cases n <;> simp_all [Notice.settled]
      exact .inr ⟨b, _, a, e.symm, List.mem_singleton.2 rfl⟩
    · exact .inl hk

theorem Delivers.standing_of_good (h : rs.Delivers .good b xs rs' (.ok ())) :
    rs'.standing b.key := by
  cases h with
  | @skipped _ st fires ne updated =>
    rw [standing, updated.entry_eq, key_entry, if_pos rfl]
    cases hst : (rs.entry b.key).state <;>
      simp_all [BlockState.fire, Notice.received, Notice.due]
  | handled a fires updated =>
    rw [standing, updated.entry_eq, if_pos rfl]
    rfl

theorem handled_of_standing_of_leads (h : Leads (rs.deliverAll ns) xs (done (rs', .ok ())))
    (hk : rs'.standing k) : rs.standing k ∨ Handled xs k := by
  induction ns generalizing rs xs with
  | nil =>
    obtain ⟨rfl, e⟩ := leads_done_iff.1 h
    cases e
    exact .inl hk
  | cons x ns ih =>
    rcases delivers_of_leads_deliverAll h with ⟨err, e, -⟩ | ⟨ys, zs, rs₁, rfl, hd, hr⟩
    · cases e
    · rcases ih hr with hk₁ | hz
      · exact (hd.handled_of_standing hk₁).imp_right fun hy => hy.mono (List.subset_append_left _ _)
      · exact .inr (hz.mono (List.subset_append_right _ _))

theorem handled_of_mem_of_leads (h : Leads (rs.deliverAll ns) xs (done (rs', .ok ())))
    (hb : (.good, b) ∈ ns) : rs.standing b.key ∨ Handled xs b.key := by
  induction ns generalizing rs xs with
  | nil => cases hb
  | cons x ns ih =>
    rcases delivers_of_leads_deliverAll h with ⟨err, e, -⟩ | ⟨ys, zs, rs₁, rfl, hd, hr⟩
    · cases e
    · have hafter : rs₁.standing b.key ∨ Handled zs b.key := by
        rcases List.mem_cons.1 hb with rfl | hb
        · exact .inl hd.standing_of_good
        · exact ih hr hb
      rcases hafter with hk₁ | hz
      · exact (hd.handled_of_standing hk₁).imp_right fun hy => hy.mono (List.subset_append_left _ _)
      · exact .inr (hz.mono (List.subset_append_right _ _))

end Records

theorem le_last_of_le_lastGoodBlock {s : Span} {good reorged : List UInt64} {n : UInt64}
    (hgood : ∀ m ∈ good, m ≤ s.last) (hfirst : s.first ≤ n)
    (hn : n ≤ lastGoodBlock s good reorged) : n ≤ s.last := by
  have hbefore : n ≤ Word.satSub s.first 1 → n ≤ s.last := by
    intro hle
    rw [UInt64.le_iff_toNat_le] at hfirst hle ⊢
    rw [Word.toNat_satSub] at hle
    have : (1 : UInt64).toNat = 1 := rfl
    omega
  unfold lastGoodBlock at hn
  split at hn
  · exact hn
  · rename_i bad last hbad hlast
    split at hn
    · have hle := hgood last (List.max?_mem hlast)
      rw [UInt64.le_iff_toNat_le] at hle hn ⊢
      rw [Word.toNat_min] at hn
      omega
    · exact hbefore hn
  · exact hbefore hn

namespace Tandem

/-- What is true between two turns of the store, over which the first turn found a checkpoint. -/
structure Seamless (c : Config) (before : Option UInt64) (H : History A) (t : Tandem A) : Prop where
  handled : ∀ k, t.engine.records.standing k → Handled H.deeds k
  adjoins : t.emitter.status.reorging →
    Adjoins c.startBlock t.stored t.emitter.status.fromBlock
  covers : H.CoversUpTo c before t.stored

variable {c : Config} {before : Option UInt64} {H : History A} {t : Tandem A}
  {xs : Transcript Query.Answer} {e : Emitter} {p : Publication} {ds : Proceedings A}
  {rs : Records A}

theorem seamless_start (c : Config) (stored : Option UInt64) :
    Seamless c stored [] (start c stored : Tandem A) where
  handled k hk := by cases hk
  adjoins h := by cases h
  covers checkpoint n hc _ hn := .inl ⟨checkpoint, hc, hn⟩

theorem Seamless.adjoins_plan (hs : t.Sound c H) (h : t.Seamless c before H) {height : UInt64}
    {s : Span} (plan : (t.emitter.observe height t.stored).plan = .ok (some s)) :
    Adjoins c.startBlock t.stored s.first := by
  have hplan := Emitter.adjoins_of_plan plan
  simp only [Emitter.observe, ScanStatus.observe, hs.emitter_config] at hplan
  exact hplan h.adjoins

/-- Once the blocks of a window are delivered, its checkpoint may be saved. -/
theorem Seamless.covers_window (hs : t.Sound c H) (h : t.Seamless c before H)
    (proposes : Leads t.emitter.propose xs (done (e, .ok (.publish p))))
    (faithful : Faithful t.stored xs)
    (delivers : Leads (t.engine.records.deliverAll p.window.notices) ds (done (rs, .ok ())))
    (outcome : Except WatchError Unit) :
    (H ++ History.opened xs p.window
      (ds ++ [(⟨.save p.lastGood, outcome⟩ : (d : Deed A) × d.Answer)])).CoversUpTo c before
        (some p.lastGood) := by
  obtain ⟨height, checkpoint, s, poll, told, plan, polled, -, hp⟩ :=
    (Emitter.proposes_of_leads proposes).of_publish
  obtain rfl := faithful checkpoint told
  have htells := Emitter.tells_of_leads (A := A) proposes
  have hadj := h.adjoins_plan hs plan
  obtain rfl : p.poll.span = s := by
    obtain ⟨logs, replies, -, -, hc⟩ := polled
    rw [hp]
    exact (Poll.classified_of_eq_ok hc).span_eq
  have hgood : ∀ m ∈ p.poll.good.map (·.number), m ≤ p.poll.span.last := by
    intro m hm
    obtain ⟨b, hb, rfl⟩ := List.mem_map.1 hm
    exact (htells.within hb).2
  intro last n hlast hstart hn
  cases hlast
  rcases UInt64.lt_or_le n p.poll.span.first with hlt | hfirst
  · obtain ⟨stored, hstored, hle⟩ := hadj n hstart hlt
    exact (h.covers.append _) stored n hstored hstart hle
  · have hsplit : H ++ History.opened xs p.window (ds ++ [⟨.save p.lastGood, outcome⟩]) =
        (H ++ xs.map .asked) ++ .published p.window :: ds.map .did ++
          .did ⟨.save p.window.lastGood, outcome⟩ :: [] := by
      simp [History.opened, Publication.window]
    have hlast : p.lastGood = lastGoodBlock p.poll.span (p.poll.good.map (·.number))
        (p.poll.reorged.map (·.number)) := by rw [hp]
    refine .inr ⟨_, _, _, outcome, [], hsplit, hfirst,
      le_last_of_le_lastGoodBlock hgood hfirst (hlast ▸ hn), ?_, ?_⟩
    · have hasks : xs ⊆ (H ++ xs.map Event.asked).asks := by simp
      have hpoll : poll = p.poll := by rw [hp]
      rw [hpoll, hs.emitter_config] at polled
      exact ⟨t.emitter.tracker, p.poll, polled.mono hasks, rfl, rfl⟩
    · intro b hb
      have hmem : (.good, b) ∈ p.window.notices :=
        List.mem_append_right _ (List.mem_map_of_mem hb)
      rw [History.deeds_append, History.deeds_append, History.deeds_asked, History.deeds_did,
        List.append_nil]
      rcases Records.handled_of_mem_of_leads delivers hmem with hold | hnew
      · exact (h.handled _ hold).mono (List.subset_append_left _ _)
      · exact hnew.mono (List.subset_append_right _ _)

theorem Seamless.adjoins_proposed (hs : t.Sound c H) (h : t.Seamless c before H)
    {r : Except WatchError Proposal} (hcourse : t.emitter.Proposes xs e r)
    (faithful : Faithful t.stored xs) :
    e.status.reorging → Adjoins c.startBlock t.stored e.status.fromBlock := by
  cases hcourse with
  | unobserved | unplanned | idle => exact h.adjoins
  | unpolled _ told plan =>
    obtain rfl := faithful _ told
    exact fun _ => h.adjoins_plan hs plan
  | judged told plan =>
    obtain rfl := faithful _ told
    intro _
    rw [Emitter.fromBlock_judge]
    exact h.adjoins_plan hs plan

theorem Seamless.acknowledged {g : Engine A} (hs : t.Sound c H) (h : t.Seamless c before H)
    (proposes : Leads t.emitter.propose xs (done (e, .ok (.publish p))))
    (faithful : Faithful t.stored xs)
    (processes : Leads (t.engine.process p.window) ds (done (g, .ok ()))) :
    Seamless c before (H ++ History.window xs p.window ds)
      ⟨e.settle p.poll, g, some p.lastGood⟩ := by
  obtain ⟨ys, rs, rfl, rfl, delivers⟩ := Engine.leads_process_ok processes
  constructor
  case handled =>
    intro k hk
    have hrs : rs.standing k := by
      rw [Records.standing_evictBelow, Bool.and_eq_true] at hk
      exact hk.2
    rw [History.window, History.deeds_append, History.deeds_append, History.deeds_opened]
    rcases Records.handled_of_standing_of_leads delivers hrs with hold | hnew
    · exact (h.handled k hold).mono (List.subset_append_left _ _)
    · exact hnew.mono (by simp)
  case adjoins => exact fun hre => Bool.noConfusion hre
  case covers =>
    rw [History.window, ← List.append_assoc]
    exact (h.covers_window hs proposes faithful delivers (.ok ())).append _

theorem Seamless.turn {es : History A} {t' : Tandem A} (hs : t.Sound c H)
    (h : t.Seamless c before H) (turn : t.Turn es t') : Seamless c before (H ++ es) t' := by
  cases turn with
  | acknowledged proposes faithful processes => exact h.acknowledged hs proposes faithful processes
  | paused =>
    refine ⟨fun k hk => ?_, h.adjoins, h.covers.append _⟩
    rw [History.deeds_append, History.deeds_asked, List.append_nil]
    exact h.handled k hk
  | quiet proposes faithful =>
    have hadj := h.adjoins_proposed hs (Emitter.proposes_of_leads proposes) faithful
    refine ⟨fun k hk => ?_, hadj, h.covers.append _⟩
    rw [History.deeds_append, History.deeds_asked, List.append_nil]
    exact h.handled k hk

theorem Run.seamless {stored : Option UInt64} (run : (start c stored).Run H t) :
    t.Seamless c stored H := by
  induction run with
  | nil => exact seamless_start c stored
  | next run turn ih => exact ih.turn run.sound turn

end Tandem

end ForkWatch
