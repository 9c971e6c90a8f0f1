import TuxBooks.Reader.FiledBitmaps

set_option relaxedAutoImplicit false
set_option autoImplicit false

/-!
# Settled canvases

A canvas on which nothing is under way shows the bitmap of its properties
(`frontend/src/components/reader/pdf/PdfPageCanvas.tsx`), unless a commitment for a whole page ended
after a region had appeared. That commitment absorbed the change, and nothing is left to repaint.

## Main definitions

* `TuxBooks.PdfCanvas.Canvas.FreshWhenSettled` — a canvas that has settled is fresh.
* `TuxBooks.PdfCanvas.FinishMeets` — the condition on an event.

## Main results

* `TuxBooks.PdfCanvas.fresh_of_meets` — the runs under the condition.
* `TuxBooks.PdfCanvas.page_shown_for_region` — a region that appears while a page is rastered.
-/

namespace TuxBooks

namespace PdfCanvas

/-! ## The property and the condition -/

/-- A raster is that of some inputs. Ratios that differ by no more than the code's tolerance are the
same. -/
structure Raster.Shows (pf : Platform) (i : Inputs) (r : Raster) : Prop where
  document : r.document = i.document
  pageNumber : r.pageNumber = i.pageNumber
  scale : r.scale = i.scale
  variant : r.variant = i.renderVariant
  region : r.region = i.regionKey
  ratio_le : r.ratio ≤ i.ratio pf
  ratio_tolerance : i.ratio pf - r.ratio ≤ 1 / 10 ^ 9

/-- The canvas shows the bitmap of its current inputs at the final quality. -/
def Canvas.Fresh (pf : Platform) (c : Canvas) : Prop :=
  ∃ s ∈ c.shown, s.quality = .final ∧ s.raster.Shows pf c.inputs

/-- No commitment is under way, and with it no timer is pending. -/
def Canvas.Settled (c : Canvas) : Prop :=
  c.mounted = true ∧ ∀ m ∈ c.commitments, ¬c.Stands m.pipeline.gen

/-- The last raster has failed. -/
def Canvas.Failed (c : Canvas) : Prop := ∃ g ∈ c.active, g.status = .failed

/-- **A settled canvas is fresh** while rendering is enabled and the last raster has not failed. -/
def Canvas.FreshWhenSettled (pf : Platform) (c : Canvas) : Prop :=
  c.Settled → c.inputs.renderEnabled = true → ¬c.Failed → c.Fresh pf

/-- All canvases of a reader are fresh when they have settled. -/
def Surface.FreshWhenSettled (pf : Platform) (s : Surface) : Prop :=
  ∀ canvas, ∀ c ∈ s.canvases canvas, c.FreshWhenSettled pf

/-- The commitment has the raster of a whole page that no refinement follows. -/
def Commitment.LastOfPage (m : Commitment) : Prop :=
  match m.phase with
  | .raster { stage := .refinement, .. } => True
  | .raster { stage := .first, .. } => ¬m.pipeline.NeedsRefinement
  | _ => False

instance : DecidablePred Commitment.LastOfPage := fun m => by
  unfold Commitment.LastOfPage
  split <;> infer_instance

/-- The condition on an event: a standing commitment settles in the mode that it was made in, and
when it ends with the raster of a whole page the canvas is in no other mode. -/
def FinishMeets (s : Surface) (event : Event) : Prop :=
  SettleMeets s event ∧
    match event with
    | .canvas canvas (.rastered gen true) => ∀ c ∈ s.canvases canvas, c.Stands gen →
        ∀ m ∈ c.commitments, m.pipeline.gen = gen → m.LastOfPage → c.inputs.regionMode = false
    | _ => True

instance (s : Surface) : DecidablePred (FinishMeets s)
  | .canvas _ (.rastered _ true) =>
    inferInstanceAs (Decidable (True ∧ ∀ c ∈ s.canvases _, _))
  | .canvas _ (.rastered _ false) | .canvas _ .unmount | .canvas _ (.pageReady _ _)
  | .render _ _ | .preloaded _ | .cleared _ => isTrue ⟨trivial, trivial⟩
  | .canvas _ (.settled _) => inferInstanceAs (Decidable ((∀ c ∈ s.canvases _, _) ∧ True))

/-! ## The invariant -/

/-- What the status of the active generation says. -/
structure Canvas.Settles (pf : Platform) (c : Canvas) : Prop where
  present : c.mounted = true → ∃ g ∈ c.active, g.cancelled = false
  pending : ∀ g ∈ c.active, g.status = .pending → c.inputs.renderEnabled = false
  live : ∀ g ∈ c.active, g.status = .live → g.cancelled = false →
    ∃ m ∈ c.commitments, m.pipeline.gen = g.id
  done : ∀ g ∈ c.active, g.status = .done → c.Fresh pf
  waiting : ∀ m ∈ c.commitments, ∀ g ∈ c.active, g.id = m.pipeline.gen → g.status = .live

variable {pf : Platform}

/-- With the active generation pending, live, done or failed the invariant gives the property. -/
lemma Canvas.Settles.freshWhenSettled {c : Canvas} (h : c.Settles pf) : c.FreshWhenSettled pf := by
  rintro ⟨hmounted, hsettled⟩ henabled hfailed
  obtain ⟨g, hg, hcancelled⟩ := h.present hmounted
  cases hstatus : g.status with
  | pending => exact absurd (henabled.symm.trans (h.pending g hg hstatus)) (by simp)
  | live =>
    obtain ⟨m, hm, hgen⟩ := h.live g hg hstatus hcancelled
    exact absurd ⟨g, hg, hgen.symm, hcancelled⟩ (hsettled m hm)
  | done => exact h.done g hg hstatus
  | failed => exact absurd ⟨g, hg, hstatus⟩ hfailed

/-! ## A canvas -/

namespace Canvas.Settles

variable {c : Canvas} {pl : RenderPipeline}

/-- The active generation is the one of a commitment that stands, and is live. -/
lemma live_of_stands (h : c.Settles pf) {m : Commitment} (hm : m ∈ c.commitments)
    (hstands : c.Stands m.pipeline.gen) :
    ∀ g ∈ c.active, g.status = .live ∧ g.id = m.pipeline.gen := by
  obtain ⟨g', hg', hid, -⟩ := hstands
  intro g hg
  obtain rfl := Option.mem_unique hg hg'
  exact ⟨h.waiting m hm g hg hid, hid⟩

/-- The live generation waits for a next step. -/
lemma setPhase (hpresent : c.mounted = true → ∃ g ∈ c.active, g.cancelled = false)
    (hlive : ∀ g ∈ c.active, g.status = .live ∧ g.id = pl.gen) (phase : Phase) :
    (c.setPhase pl phase).Settles pf where
  present := hpresent
  pending g hg hstatus := absurd ((hlive g hg).1.symm.trans hstatus) nofun
  live g hg _ _ :=
    ⟨{ pipeline := pl, phase }, List.mem_append_right _ List.mem_cons_self, (hlive g hg).2.symm⟩
  done g hg hstatus := absurd ((hlive g hg).1.symm.trans hstatus) nofun
  waiting _ _ g hg _ := (hlive g hg).1

/-- A status that needs no commitment. -/
lemma setStatus (hpresent : c.mounted = true → ∃ g ∈ c.active, g.cancelled = false)
    (hnone : ∀ m ∈ c.commitments, ∀ g ∈ c.active, g.id ≠ m.pipeline.gen) {status : Status}
    (hstatus : status = .failed ∨ status = .done ∧ c.Fresh pf) :
    (c.setStatus status).Settles pf := by
  have hactive {g' : RenderGeneration} (hg' : g' ∈ (c.setStatus status).active) :
      ∃ g ∈ c.active, g' = { g with status } := by
    obtain ⟨g, hg, rfl⟩ := Option.map_eq_some_iff.mp hg'
    exact ⟨g, hg, rfl⟩
  refine ⟨fun hmounted => ?_, fun g' hg' hpending => ?_, fun g' hg' hlive => ?_,
    fun g' hg' hdone => ?_, fun m hm g' hg' hid => ?_⟩
  · obtain ⟨g, hg, hcancelled⟩ := hpresent hmounted
    exact ⟨{ g with status }, Option.mem_map_of_mem _ hg, hcancelled⟩
  · obtain ⟨g, -, rfl⟩ := hactive hg'
    rcases hstatus with rfl | ⟨rfl, -⟩ <;> cases hpending
  · obtain ⟨g, -, rfl⟩ := hactive hg'
    rcases hstatus with rfl | ⟨rfl, -⟩ <;> cases hlive
  · obtain ⟨g, -, rfl⟩ := hactive hg'
    rcases hstatus with rfl | ⟨-, hfresh⟩
    · cases hdone
    · exact hfresh
  · obtain ⟨g, hg, rfl⟩ := hactive hg'
    exact absurd hid (hnone m hm g hg)

/-- A commitment of another generation unwinds. -/
lemma endCommitment (h : c.Settles pf) {gen : ℕ} (hnot : ¬c.Stands gen) :
    (c.endCommitment gen).Settles pf where
  present := h.present
  pending := h.pending
  live g hg hstatus hcancelled := by
    obtain ⟨m, hm, hgen⟩ := h.live g hg hstatus hcancelled
    refine ⟨m, List.mem_filter_of_mem hm (decide_eq_true fun heq => hnot ?_), hgen⟩
    exact ⟨g, hg, hgen.symm.trans heq, hcancelled⟩
  done := h.done
  waiting m hm := h.waiting m (List.mem_of_mem_filter hm)

/-- No commitment is left of the generation that ends. -/
lemma ended (hactive : ∀ g ∈ c.active, g.id = pl.gen) :
    ∀ m ∈ (c.endCommitment pl.gen).commitments, ∀ g ∈ (c.endCommitment pl.gen).active,
      g.id ≠ m.pipeline.gen := by
  intro m hm g hg hid
  have hother : m.pipeline.gen ≠ pl.gen := by simpa using (List.mem_filter.mp hm).2
  exact hother (hid.symm.trans (hactive g hg))

lemma finish (hpresent : c.mounted = true → ∃ g ∈ c.active, g.cancelled = false)
    (hactive : ∀ g ∈ c.active, g.id = pl.gen) (hfresh : c.Fresh pf) :
    (c.finish pl).Settles pf :=
  setStatus (c := c.endCommitment pl.gen) hpresent (ended hactive) (.inr ⟨rfl, hfresh⟩)

lemma fail (hpresent : c.mounted = true → ∃ g ∈ c.active, g.cancelled = false)
    (hactive : ∀ g ∈ c.active, g.id = pl.gen) (area : Option Rect) :
    (c.fail pl area).Settles pf := by
  have hended : ((c.endCommitment pl.gen).setStatus .failed).Settles pf :=
    setStatus (c := c.endCommitment pl.gen) hpresent (ended hactive) (.inl rfl)
  exact ⟨hended.present, hended.pending, hended.live, hended.done, hended.waiting⟩

lemma nextPass (hpresent : c.mounted = true → ∃ g ∈ c.active, g.cancelled = false)
    (hlive : ∀ g ∈ c.active, g.status = .live ∧ g.id = pl.gen) :
    (c.nextPass pf pl).Settles pf := by
  unfold Canvas.nextPass
  split_ifs
  · exact setPhase hpresent hlive _
  · exact setPhase (c := { c with renderedOnce := true }) hpresent hlive _

end Canvas.Settles

/-! ## Rasters of the inputs -/

/-- A raster of a commitment for the inputs, region and ratio apart. -/
lemma RenderPipeline.shows {pl : RenderPipeline} {i : Inputs} (hkey : pl.inputs.key = i.key)
    {ratio : ℚ} {area : Option Rect} (hregion : area = i.regionKey) (hle : ratio ≤ i.ratio pf)
    (htolerance : i.ratio pf - ratio ≤ 1 / 10 ^ 9) :
    (pl.rasterPage pf ratio area).raster.Shows pf i where
  document := congrArg InputsKey.document hkey
  pageNumber := congrArg InputsKey.pageNumber hkey
  scale := congrArg InputsKey.scale hkey
  variant := congrArg InputsKey.renderVariant hkey
  region := hregion
  ratio_le := hle
  ratio_tolerance := htolerance

/-- The ratio of a whole page depends on the key only. -/
lemma Inputs.ratio_congr {i j : Inputs} (h : i.key = j.key) (hi : i.regionMode = false)
    (hj : j.regionMode = false) : i.ratio pf = j.ratio pf := by
  have hwidth : i.width = j.width := congrArg InputsKey.width h
  have hheight : i.height = j.height := congrArg InputsKey.height h
  have hscale : i.scale = j.scale := congrArg InputsKey.scale h
  have hdpr : i.dpr = j.dpr := congrArg InputsKey.dpr h
  simp [Inputs.ratio, hi, hj, hwidth, hheight, hscale, hdpr]

lemma RenderPipeline.previewRatio_le (pl : RenderPipeline) : pl.previewRatio ≤ pl.fullRatio := by
  unfold RenderPipeline.previewRatio
  split_ifs
  · exact min_le_left _ _
  · exact le_rfl

/-- A bitmap of the cache is that of the inputs that it was looked up for. -/
lemma shows_of_lookup {p : Painter} (h : p.toShelves.Right) {pl : RenderPipeline}
    (hinputs : p.inputs = pl.inputs) (hratio : pl.fullRatio = pl.inputs.ratio pf) {hit : PdfBitmap}
    (hhit : p.lookup pl = some hit) : hit.buffer.raster.Shows pf pl.inputs := by
  unfold Painter.lookup at hhit
  split_ifs at hhit
  obtain ⟨hmem, hkey, hscale, hfull, hvariant⟩ := PdfBitmapCache.mem_of_get hhit
  have hright := h.caches _ hit hmem
  have hequal : hit.buffer.raster.ratio = pl.inputs.ratio pf :=
    hright.ratio.trans (hfull.trans hratio)
  refine ⟨hright.document, hright.pageNumber.trans (congrArg Prod.fst hkey),
    hright.scale.trans hscale, hright.variant.trans hvariant, hright.region.trans ?_,
    hequal.le, ?_⟩
  · exact (congrArg Prod.snd hkey).trans (congrArg Inputs.regionKey hinputs)
  · rw [hequal, sub_self]
    norm_num

/-! ## A canvas with the caches -/

/-- The invariant of a canvas with the caches. -/
structure Painter.Rests (pf : Platform) (p : Painter) : Prop where
  sound : p.Sound pf
  settles : p.toCanvas.Settles pf

namespace Painter.Rests

variable {p : Painter} {pl : RenderPipeline}

/-- The commitment that a step goes on with. -/
lemma goOn (h : p.Rests pf) {gen : ℕ} {phase : Phase} (hfind : p.commitment gen = some ⟨pl, phase⟩)
    {next : Painter} (hsound : (p.goOn gen next).Sound pf)
    (hnext : (∀ g ∈ p.active, g.status = .live ∧ g.id = pl.gen) →
      p.Stands gen → next.toCanvas.Settles pf) : (p.goOn gen next).Rests pf := by
  refine ⟨hsound, ?_⟩
  unfold Painter.goOn
  split_ifs with hstands
  · have hgen : pl.gen = gen := by simpa using List.find?_some hfind
    have hmem := List.mem_of_find?_eq_some hfind
    exact hnext (h.settles.live_of_stands hmem (hgen ▸ hstands)) hstands
  · exact h.settles.endCommitment hstands

lemma settled (h : p.Rests pf) (gen : ℕ) (hsound : (p.settled pf gen).Sound pf) :
    (p.settled pf gen).Rests pf := by
  unfold Painter.settled at hsound ⊢
  split
  case h_2 => exact h
  case h_1 pl hfind =>
    rw [hfind] at hsound
    exact h.goOn hfind hsound fun hlive _ =>
      Canvas.Settles.setPhase (c := { p.toCanvas with renderedOnce := true })
        h.settles.present hlive _

lemma pageReady (h : p.Rests pf) (gen : ℕ) (ok : Bool) : (p.pageReady gen ok).Rests pf := by
  have hsound := h.sound.pageReady gen ok
  unfold Painter.pageReady at hsound ⊢
  split
  case h_2 => exact h
  case h_1 pl pass hfind =>
    rw [hfind] at hsound
    refine h.goOn hfind hsound fun hlive _ => ?_
    unfold Painter.onCanvas
    dsimp only
    split_ifs
    · exact Canvas.Settles.setPhase h.settles.present hlive _
    · exact Canvas.Settles.fail h.settles.present (fun g hg => (hlive g hg).2) _

/-- The inputs that have a region as their key. -/
lemma ratio_of_regionKey {i : Inputs} {region : Rect} (h : i.regionKey = some region) :
    i.ratio pf = i.regionRatio pf region := by
  unfold Inputs.regionKey at h
  split_ifs at h with hmode
  obtain rfl := Option.some.inj h
  rw [Inputs.ratio, if_pos hmode]

/-- A region's raster ends its commitment when the region is the current one. -/
lemma completeRegion (h : p.Rests pf) (hlive : ∀ g ∈ p.active, g.status = .live ∧ g.id = pl.gen)
    {pass : Pass} (hkey : pl.inputs.key = p.inputs.key)
    (hregion : pass.target.regionKey = some pass.target.region)
    (hratio : pass.ratio = pl.inputs.regionRatio pf pass.target.region) :
    (p.completeRegion pf pl pass).toCanvas.Settles pf := by
  unfold Painter.completeRegion Painter.showRegion Painter.onCanvas
  dsimp only
  rw [Painter.Sound.toCanvas_file]
  split_ifs with hcurrent
  · refine Canvas.Settles.finish h.settles.present (fun g hg => (hlive g hg).2) ⟨_, rfl, rfl, ?_⟩
    have hsame : p.inputs.regionKey = some pass.target.region := hcurrent.trans hregion
    have hequal : p.inputs.ratio pf = pass.ratio := by
      rw [ratio_of_regionKey hsame, hratio, Inputs.regionRatio_congr hkey]
    refine RenderPipeline.shows hkey hsame.symm hequal.ge ?_
    rw [hequal, sub_self]
    norm_num
  · exact Canvas.Settles.nextPass h.settles.present hlive

/-- A whole page's raster ends its commitment in the mode of whole pages. -/
lemma finishPage (h : p.Rests pf) (hlive : ∀ g ∈ p.active, g.status = .live ∧ g.id = pl.gen)
    {pass : Pass} (hkey : pl.inputs.key = p.inputs.key) (hmode : p.inputs.regionMode = false)
    (hle : pass.ratio ≤ p.inputs.ratio pf)
    (htolerance : p.inputs.ratio pf - pass.ratio ≤ 1 / 10 ^ 9) :
    ((p.showPage pf pl pass .final).toCanvas.finish pl).Settles pf := by
  unfold Painter.showPage Painter.onCanvas
  dsimp only
  rw [Painter.Sound.toCanvas_file]
  refine Canvas.Settles.finish h.settles.present (fun g hg => (hlive g hg).2) ⟨_, rfl, rfl, ?_⟩
  have hwhole : none = p.inputs.regionKey := by simp [Inputs.regionKey, hmode]
  exact RenderPipeline.shows hkey hwhole hle htolerance

lemma complete (h : p.Rests pf) (hlive : ∀ g ∈ p.active, g.status = .live ∧ g.id = pl.gen)
    {pass : Pass} (hsound : Commitment.Sound pf p.inputs ⟨pl, .raster pass⟩)
    (hok : Commitment.LastOfPage ⟨pl, .raster pass⟩ → p.inputs.regionMode = false) :
    (p.complete pf pl pass).toCanvas.Settles pf := by
  obtain ⟨hkey, hratio, hpass⟩ := hsound
  have htarget := hpass pass (.inr rfl)
  unfold Pass.Sound at htarget
  unfold Painter.complete
  cases hstage : pass.stage with
  | region =>
    rw [hstage] at htarget
    exact h.completeRegion hlive hkey htarget.2.1 htarget.2.2.2
  | first =>
    rw [hstage] at htarget
    obtain ⟨hmode, -, -, -, -, hpreview⟩ := htarget
    rw [if_pos rfl] at hpreview
    dsimp only
    split_ifs with hneeds
    · unfold Painter.showPage Painter.onCanvas
      dsimp only
      rw [Painter.Sound.toCanvas_file]
      refine Canvas.Settles.setPhase ?_ ?_ _
      · exact h.settles.present
      · exact hlive
    · have hcurrent : p.inputs.regionMode = false := hok (by
        obtain ⟨stage, ratio, target⟩ := pass
        obtain rfl : stage = .first := hstage
        exact hneeds)
      have hfull : p.inputs.ratio pf = pl.fullRatio := by
        rw [hratio, Inputs.ratio_congr hkey hmode hcurrent]
      have htolerance : pl.fullRatio - pl.previewRatio ≤ 1 / 10 ^ 9 := not_lt.mp hneeds
      refine h.finishPage hlive hkey hcurrent ?_ ?_
      · rw [hpreview, hfull]
        exact pl.previewRatio_le
      · rw [hpreview, hfull]
        exact htolerance
  | refinement =>
    rw [hstage] at htarget
    obtain ⟨hmode, -, -, -, -, hrefined⟩ := htarget
    rw [if_neg nofun] at hrefined
    have hcurrent : p.inputs.regionMode = false := hok (by
      obtain ⟨stage, ratio, target⟩ := pass
      obtain rfl : stage = .refinement := hstage
      exact trivial)
    have hfull : p.inputs.ratio pf = pl.fullRatio := by
      rw [hratio, Inputs.ratio_congr hkey hmode hcurrent]
    refine h.finishPage hlive hkey hcurrent (hrefined.trans hfull.symm).le ?_
    rw [hrefined, hfull, sub_self]
    norm_num

lemma rastered (h : p.Rests pf) (gen : ℕ) (ok : Bool)
    (hok : ok = true → p.Stands gen → ∀ m ∈ p.commitments, m.pipeline.gen = gen →
      m.LastOfPage → p.inputs.regionMode = false) : (p.rastered pf gen ok).Rests pf := by
  have hsound := h.sound.rastered gen ok
  unfold Painter.rastered at hsound ⊢
  split
  case h_2 => exact h
  case h_1 pl pass hfind =>
    rw [hfind] at hsound
    refine h.goOn hfind hsound fun hlive hstands => ?_
    obtain ⟨hgen, -, -, hknown⟩ := h.sound.of_commitment hfind
    have hmem := List.mem_of_find?_eq_some hfind
    split_ifs with hgood
    · exact h.complete hlive (hknown hstands) (hok hgood hstands _ hmem hgen)
    · exact Canvas.Settles.fail h.settles.present (fun g hg => (hlive g hg).2) _

lemma unmount (h : p.Rests pf) : p.unmount.Rests pf := by
  refine ⟨h.sound.unmount, ?_⟩
  have hactive {g' : RenderGeneration} (hg' : g' ∈ p.unmount.active) :
      ∃ g ∈ p.active, g' = { g with cancelled := true } := by
    obtain ⟨g, hg, rfl⟩ := Option.map_eq_some_iff.mp hg'
    exact ⟨g, hg, rfl⟩
  refine ⟨nofun, fun g' hg' hstatus => ?_, fun g' hg' _ hcancelled => ?_, fun g' hg' hstatus => ?_,
    fun m hm g' hg' hid => ?_⟩
  · obtain ⟨g, hg, rfl⟩ := hactive hg'
    exact h.settles.pending g hg hstatus
  · obtain ⟨g, -, rfl⟩ := hactive hg'
    cases hcancelled
  · obtain ⟨g, hg, rfl⟩ := hactive hg'
    exact h.settles.done g hg hstatus
  · obtain ⟨g, hg, rfl⟩ := hactive hg'
    exact h.settles.waiting m hm g hg hid

/-- A hit ends its generation. -/
lemma blitHit (hinputs : p.inputs = pl.inputs) {hit : PdfBitmap}
    (hshows : hit.buffer.raster.Shows pf pl.inputs)
    (hpresent : p.mounted = true → ∃ g ∈ p.active, g.cancelled = false)
    (hnone : ∀ m ∈ p.commitments, ∀ g ∈ p.active, g.id ≠ m.pipeline.gen) :
    (p.blitHit pl hit).toCanvas.Settles pf := by
  unfold Painter.blitHit Painter.onCanvas Painter.onShelves
  dsimp only
  refine Canvas.Settles.setStatus ?_ ?_ (.inr ⟨rfl, _, rfl, rfl, ?_⟩)
  · exact hpresent
  · exact hnone
  · exact hinputs ▸ hshows

lemma runRenderCommitment {c : Canvas} (hpresent : ∃ g ∈ c.active, g.cancelled = false)
    (hactive : ∀ g ∈ c.active, g.id = pl.gen) : (c.runRenderCommitment pf pl).Settles pf := by
  have hlive {g' : RenderGeneration} (hg' : g' ∈ (c.setStatus .live).active) :
      g'.status = .live ∧ g'.id = pl.gen := by
    obtain ⟨g, hg, rfl⟩ := Option.map_eq_some_iff.mp hg'
    exact ⟨rfl, hactive g hg⟩
  have hpresent' : ∃ g ∈ (c.setStatus .live).active, g.cancelled = false := by
    obtain ⟨g, hg, hcancelled⟩ := hpresent
    exact ⟨{ g with status := .live }, Option.mem_map_of_mem _ hg, hcancelled⟩
  unfold Canvas.runRenderCommitment
  dsimp only
  split_ifs
  · exact Canvas.Settles.nextPass (fun _ => hpresent') fun _ hg => hlive hg
  · refine Canvas.Settles.nextPass ?_ ?_
    · exact fun _ => hpresent'
    · exact fun _ hg => hlive hg

/-- A run of the effect for a new generation. -/
lemma commit (hright : p.toShelves.Right) (hinputs : p.inputs = pl.inputs)
    (hratio : pl.fullRatio = pl.inputs.ratio pf)
    (hactive : p.active = some
      { id := pl.gen, key := pl.inputs.key, status := .pending, cancelled := false })
    (hnumbered : ∀ m ∈ p.commitments, m.pipeline.gen < pl.gen) :
    (p.commit pf pl).toCanvas.Settles pf := by
  have hpresent : ∃ g ∈ p.active, g.cancelled = false := ⟨_, hactive, rfl⟩
  have hid {g : RenderGeneration} (hg : g ∈ p.active) : g.id = pl.gen := by
    rw [hactive] at hg
    obtain rfl := Option.some.inj hg
    rfl
  have hnone : ∀ m ∈ p.commitments, ∀ g ∈ p.active, g.id ≠ m.pipeline.gen :=
    fun m hm g hg heq => absurd (hnumbered m hm) (by rw [← heq, hid hg]; exact lt_irrefl _)
  unfold Painter.commit
  split
  case h_1 hit hhit =>
    exact blitHit hinputs (shows_of_lookup hright hinputs hratio hhit) (fun _ => hpresent) hnone
  case h_2 =>
    obtain ⟨shown, heq⟩ := Canvas.Sound.exists_presentPrevious p.toCanvas pl.inputs
    unfold Painter.onCanvas
    dsimp only
    rw [heq]
    split_ifs with henabled
    · exact runRenderCommitment hpresent fun _ hg => hid hg
    · have hpending {g : RenderGeneration} (hg : g ∈ p.active) : g.status = .pending := by
        rw [hactive] at hg
        obtain rfl := Option.some.inj hg
        rfl
      refine ⟨fun _ => hpresent, fun _ _ _ => ?_, fun g hg hstatus => ?_, fun g hg hstatus => ?_,
        fun m hm g hg heq => absurd heq (hnone m hm g hg)⟩
      · rw [show Canvas.inputs _ = p.inputs from rfl, hinputs]
        exact Bool.eq_false_iff.mpr henabled
      · exact absurd ((hpending hg).symm.trans hstatus) nofun
      · exact absurd ((hpending hg).symm.trans hstatus) nofun

/-- The reset of the variant leaves the generations and the commitments as they are. -/
lemma resetVariant_generations (c : Canvas) (i : Inputs) :
    (c.resetVariant i).active = c.active ∧ (c.resetVariant i).commitments = c.commitments := by
  unfold Canvas.resetVariant
  split_ifs
  · exact ⟨rfl, rfl⟩
  · exact ⟨rfl, rfl⟩

lemma effect (h : p.Rests pf) {i : Inputs} (hi : i.regionMode = true → i.region.Positive) :
    (p.effect pf i).Rests pf := by
  refine ⟨h.sound.effect hi, ?_⟩
  unfold Painter.effect
  dsimp only
  split_ifs with habsorbs
  · obtain ⟨g, hg, -, hcancelled, hlive⟩ := habsorbs
    have hactive {g' : RenderGeneration} (hg' : g' ∈ p.active) : g'.status = .live := by
      rwa [Option.mem_unique hg' hg]
    exact ⟨fun _ => ⟨g, hg, hcancelled⟩,
      fun _ hg' hstatus => absurd ((hactive hg').symm.trans hstatus) nofun, h.settles.live,
      fun _ hg' hstatus => absurd ((hactive hg').symm.trans hstatus) nofun, h.settles.waiting⟩
  · obtain ⟨hinputs, -⟩ :=
      Painter.Sound.resetVariant_fields ((p.setInputs i).toCanvas.supersede i) i
    obtain ⟨hactive, hcommitments⟩ :=
      resetVariant_generations ((p.setInputs i).toCanvas.supersede i) i
    refine commit h.sound.shelves hinputs rfl hactive fun m hm => ?_
    exact h.sound.canvas.numbered m (hcommitments ▸ hm)

lemma render (h : p.Rests pf) (props : Props) : (p.render pf props).Rests pf := by
  unfold Painter.render
  dsimp only
  split_ifs
  · exact h
  · exact h.effect props.inputs_positive

end Painter.Rests

/-! ## Runs -/

/-- The invariant of the surface. -/
structure Surface.Rests (pf : Platform) (s : Surface) : Prop where
  sound : s.Sound pf
  settles : ∀ canvas, ∀ c ∈ s.canvases canvas, c.Settles pf

namespace Surface.Rests

variable {s : Surface}

lemma painter (h : s.Rests pf) {canvas : ℕ} {c : Canvas} (hc : s.canvases canvas = some c) :
    (s.painter c).Rests pf :=
  ⟨⟨h.sound.canvases canvas c hc, h.sound.shelves⟩, h.settles canvas c hc⟩

lemma set (h : s.Rests pf) (canvas : ℕ) {p : Painter} (hp : p.Rests pf) :
    (s.set canvas p).Rests pf := by
  refine ⟨h.sound.set canvas hp.sound, fun other c hc => ?_⟩
  unfold Surface.set at hc
  dsimp only at hc
  by_cases hother : other = canvas
  · subst hother
    rw [Function.update_self] at hc
    obtain rfl := Option.some.inj hc
    exact hp.settles
  · rw [Function.update_of_ne hother] at hc
    exact h.settles other c hc

/-- The first render of a canvas: no generation is there, so that the effect runs. -/
lemma mount (h : s.Rests pf) (props : Props) :
    ((s.painter (.mount (props.inputs pf))).render pf props).Rests pf := by
  have hmount : (s.painter (.mount (props.inputs pf))).Sound pf :=
    ⟨Surface.Sound.mount props, h.sound.shelves⟩
  refine ⟨hmount.render props, ?_⟩
  -- an unmounted canvas keeps the invariant, and its render runs the same effect
  have hidle : ((s.painter (.mount (props.inputs pf))).unmount).Rests pf :=
    ⟨hmount.unmount, ⟨nofun, fun _ hg => absurd hg (Option.not_mem_none _),
      fun _ hg => absurd hg (Option.not_mem_none _), fun _ hg => absurd hg (Option.not_mem_none _),
      List.forall_mem_nil _⟩⟩
  have hfirst : (s.painter (.mount (props.inputs pf))).render pf props =
      ((s.painter (.mount (props.inputs pf))).unmount).effect pf (props.inputs pf) := by
    unfold Painter.render
    dsimp only
    rw [if_neg fun hsame => absurd hsame.2.2 (by simp [Surface.painter, Canvas.mount])]
    rfl
  rw [hfirst]
  exact (hidle.effect props.inputs_positive).settles

/-- **An event under the condition keeps the invariant.** -/
theorem step (h : s.Rests pf) (event : Event) (hok : FinishMeets s event) :
    (s.step pf event).Rests pf := by
  cases event with
  | render canvas props =>
    unfold Surface.step
    dsimp only
    refine h.set canvas ?_
    cases hcanvas : s.canvases canvas with
    | none => exact h.mount props
    | some c => exact (h.painter hcanvas).render props
  | canvas canvas event =>
    unfold Surface.step
    dsimp only
    split
    case h_2 => exact h
    case h_1 c hcanvas =>
      have hpainter := h.painter hcanvas
      refine h.set canvas ?_
      cases event with
      | unmount => exact hpainter.unmount
      | settled gen =>
        exact hpainter.settled gen (hpainter.sound.settled gen (hok.1 c hcanvas))
      | pageReady gen ok => exact hpainter.pageReady gen ok
      | rastered gen ok =>
        refine hpainter.rastered gen ok ?_
        rintro rfl
        exact hok.2 c hcanvas
  | preloaded pl => exact ⟨h.sound.step (.preloaded pl) trivial, h.settles⟩
  | cleared document => exact ⟨h.sound.step (.cleared document) trivial, h.settles⟩

end Surface.Rests

/-- **A run in which no commitment outlasts its mode** leaves every canvas that settles fresh. -/
theorem fresh_of_meets (pf : Platform) (events : List Event)
    (h : Guarded.Meets (Surface.step pf) FinishMeets blankSurface events) :
    ∀ before, before <+: events →
      (before.foldl (Surface.step pf) blankSurface).FreshWhenSettled pf := by
  rintro before ⟨after, rfl⟩ canvas c hc
  have hstep (s : Surface) (event : Event) (hs : s.Rests pf) (hok : FinishMeets s event) :
      (s.step pf event).Rests pf := hs.step event hok
  have hblank : blankSurface.Rests pf :=
    ⟨blankSurface_sound, fun _ _ hc => absurd hc (Option.not_mem_none _)⟩
  exact ((h.of_append.invariant hstep hblank).settles canvas c hc).freshWhenSettled

/-- A page comes into view while it is rastered for the first time. -/
def comesIntoViewEarly : List Event :=
  [.render 0 (deepZoom none "original"), .canvas 0 (.pageReady 0 true),
    .render 0 (deepZoom (some topLeft) "original"), .canvas 0 (.rastered 0 true)]

/-- **The whole page stays shown for the region**, at half of the display's resolution, and nothing
is under way to repaint it. -/
theorem page_shown_for_region :
    let s := comesIntoViewEarly.foldl (Surface.step sixDecimals) blankSurface
    (s.canvases 0).map (fun c => (c.commitments.length, c.active.map (·.status),
      c.inputs.regionKey, c.shown.map (·.raster.region))) =
        some (0, some .done, some topLeft.toRect, some none) ∧
      ¬s.FreshWhenSettled sixDecimals := by
  intro s
  have hstate : (s.canvases 0).map (fun c => (c.commitments.length, c.active.map (·.status),
      c.inputs.regionKey, c.shown.map (·.raster.region))) =
        some (0, some .done, some topLeft.toRect, some none) := by decide +kernel
  have hflags : (s.canvases 0).map (fun c => (c.mounted, c.inputs.renderEnabled)) =
      some (true, true) := by decide +kernel
  refine ⟨hstate, fun h => ?_⟩
  obtain ⟨c, hc, heq⟩ := Option.map_eq_some_iff.mp hstate
  rw [hc, Option.map_some, Option.some.injEq, Prod.mk.injEq] at hflags
  simp only [Prod.mk.injEq, List.length_eq_zero_iff] at heq
  obtain ⟨hcommitments, hstatus, hkey, hraster⟩ := heq
  have hfailed : ¬c.Failed := by
    rintro ⟨g, hg, hfailed⟩
    rw [hg, Option.map_some, hfailed] at hstatus
    cases hstatus
  have hsettled : c.Settled := ⟨hflags.1, hcommitments ▸ List.forall_mem_nil _⟩
  obtain ⟨shown, hshown, -, hshows⟩ := h 0 c hc hsettled hflags.2 hfailed
  have hregion := hshows.region
  rw [hshown, Option.map_some, Option.some.injEq] at hraster
  rw [hkey, hraster] at hregion
  cases hregion

theorem fresh_drawnBeforeView :
    (drawnBeforeView.foldl (Surface.step sixDecimals) blankSurface).FreshWhenSettled sixDecimals :=
  fresh_of_meets sixDecimals drawnBeforeView (by decide +kernel) drawnBeforeView List.prefix_rfl

end PdfCanvas
end TuxBooks
