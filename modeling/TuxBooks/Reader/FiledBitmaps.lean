import TuxBooks.Reader.PageCanvas

set_option relaxedAutoImplicit false
set_option autoImplicit false

/-!
# Filed bitmaps

A commitment keeps the mode that it was made in and reads the region anew for every pass
(`frontend/src/components/reader/pdf/PdfPageCanvas.tsx`). The mode is not part of the inputs' key,
so that a live commitment can outlast it.

## Main definitions

* `TuxBooks.PdfCanvas.Surface.Honest` — bitmaps are filed and placed as what they are.
* `TuxBooks.PdfCanvas.SettleMeets` — the condition on an event.

## Main results

* `TuxBooks.PdfCanvas.honest_of_meets` — the runs under the condition.
* `TuxBooks.PdfCanvas.page_filed_as_region` — a region that appears while a commitment settles.
-/

namespace TuxBooks

namespace PdfCanvas

/-! ## The property and the condition -/

/-- A bitmap in a document's cache is the raster that its key names. -/
structure PdfBitmap.Right (document : ℕ) (b : PdfBitmap) : Prop where
  document : b.buffer.raster.document = document
  pageNumber : b.buffer.raster.pageNumber = b.pageNumber
  scale : b.buffer.raster.scale = b.scale
  ratio : b.buffer.raster.ratio = b.ratio
  variant : b.buffer.raster.variant = b.variant
  region : b.buffer.raster.region = b.regionKey

/-- A length, or the whole pixels of it. -/
def Spans (length pixels : ℚ) : Prop := pixels = length ∨ pixels = max 1 (⌊length⌋ : ℚ)

/-- A buffer is placed in the box of its region, or of its page. -/
def Blit.Placed (b : Blit) : Prop :=
  match b.raster.region with
  | some region => b.box.position = some (region.left, region.top) ∧
      Spans region.width b.box.width ∧ Spans region.height b.box.height
  | none => b.box = { position := none, width := b.pageWidth, height := b.pageHeight }

/-- The width and the height of a rectangle are positive. -/
def Rect.Positive (region : Rect) : Prop := 0 < region.width ∧ 0 < region.height

/-- Every blit is placed, and the page is reported failed only for a request whose region is
positive. -/
structure Canvas.Honest (c : Canvas) : Prop where
  blits : ∀ b ∈ c.blits, b.Placed
  failures : ∀ area ∈ c.failures, ∀ region ∈ area, region.Positive

/-- **Every bitmap is filed and shown as what it is.** -/
structure Surface.Honest (s : Surface) : Prop where
  puts : ∀ put ∈ s.puts, put.2.Right put.1
  canvases : ∀ canvas, ∀ c ∈ s.canvases canvas, c.Honest

/-- The condition on an event: when the settle timer of a standing commitment fires, the canvas is
in the mode that the commitment was made in. -/
def SettleMeets (s : Surface) : Event → Prop
  | .canvas canvas (.settled gen) => ∀ c ∈ s.canvases canvas, c.Stands gen →
      ∀ m ∈ c.commitments, m.pipeline.gen = gen → m.phase = .settling →
        m.pipeline.inputs.regionMode = c.inputs.regionMode
  | _ => True

instance (s : Surface) : DecidablePred (SettleMeets s)
  | .canvas _ (.settled _) => inferInstanceAs (Decidable (∀ c ∈ s.canvases _, _))
  | .canvas _ .unmount | .canvas _ (.pageReady _ _) | .canvas _ (.rastered _ _) | .render _ _
  | .preloaded _ | .cleared _ => isTrue trivial

/-! ## The invariant -/

/-- A pass of a commitment has the target of the mode that the commitment was made in. -/
def Pass.Sound (pf : Platform) (pl : RenderPipeline) (pass : Pass) : Prop :=
  match pass.stage with
  | .region => pl.inputs.regionMode = true ∧
      pass.target.regionKey = some pass.target.region ∧ pass.target.region.Positive ∧
      pass.ratio = pl.inputs.regionRatio pf pass.target.region
  | .first | .refinement => pl.inputs.regionMode = false ∧ pass.target.regionKey = none ∧
      pass.target.cssWidth = pl.inputs.width ∧ pass.target.cssHeight = pl.inputs.height ∧
      pass.target.blitAt = none ∧
      pass.ratio = if pass.stage = .first then pl.previewRatio else pl.fullRatio

/-- A commitment is for the inputs of the last run of the effect, the region apart. -/
structure Commitment.Sound (pf : Platform) (i : Inputs) (m : Commitment) : Prop where
  key : m.pipeline.inputs.key = i.key
  ratio : m.pipeline.fullRatio = m.pipeline.inputs.ratio pf
  pass : ∀ pass, m.phase = .page pass ∨ m.phase = .raster pass → pass.Sound pf m.pipeline

structure Canvas.Sound (pf : Platform) (c : Canvas) : Prop where
  positive : c.inputs.regionMode = true → c.inputs.region.Positive
  active : ∀ g ∈ c.active, g.key = c.inputs.key
  numbered : ∀ m ∈ c.commitments, m.pipeline.gen < c.generations
  rendered : c.commitments ≠ [] → c.renderedOnce = true
  standing : ∀ m ∈ c.commitments, c.Stands m.pipeline.gen → m.Sound pf c.inputs
  honest : c.Honest

/-- Every bitmap that was put in a cache is right, and so is every one that is there. -/
structure Shelves.Right (s : Shelves) : Prop where
  caches : ∀ document, ∀ b ∈ (s.caches document).entries, b.Right document
  puts : ∀ put ∈ s.puts, put.2.Right put.1

structure Painter.Sound (pf : Platform) (p : Painter) : Prop where
  canvas : p.toCanvas.Sound pf
  shelves : p.toShelves.Right

variable {pf : Platform}

/-! ## Inputs -/

namespace Inputs

variable {i j : Inputs}

lemma target_of_regionMode (h : i.regionMode = true) : i.target =
    { regionKey := some i.region, region := i.region, cssWidth := i.region.width,
      cssHeight := i.region.height, blitAt := some (i.region.left, i.region.top) } := by
  simp [target, regionKey, h]

lemma target_of_not_regionMode (h : i.regionMode = false) : i.target =
    { regionKey := none, region := i.region, cssWidth := i.width, cssHeight := i.height,
      blitAt := none } := by
  simp [target, regionKey, h]

/-- The ratio for a region depends on the key only. -/
lemma regionRatio_congr (h : i.key = j.key) (region : Rect) :
    i.regionRatio pf region = j.regionRatio pf region := by
  have hwidth : i.width = j.width := congrArg InputsKey.width h
  have hheight : i.height = j.height := congrArg InputsKey.height h
  have hscale : i.scale = j.scale := congrArg InputsKey.scale h
  have hdpr : i.dpr = j.dpr := congrArg InputsKey.dpr h
  unfold regionRatio
  rw [hwidth, hheight, hscale, hdpr]

end Inputs

/-- A region that the component was given is positive. -/
lemma Props.inputs_positive (p : Props) (h : (p.inputs pf).regionMode = true) :
    (p.inputs pf).region.Positive := by
  unfold Props.inputs at h ⊢
  dsimp only at h ⊢
  cases hregion : p.region with
  | none => simp [hregion] at h
  | some region => exact ⟨region.width_pos, region.height_pos⟩

/-! ## The caches -/

namespace Shelves.Right

variable {s : Shelves} {document : ℕ}

lemma setCache (h : s.Right) {cache : PdfBitmapCache}
    (hcache : ∀ b ∈ cache.entries, b.Right document) : (s.setCache document cache).Right := by
  refine ⟨fun other b hb => ?_, h.puts⟩
  unfold Shelves.setCache at hb
  dsimp only at hb
  by_cases hother : other = document
  · subst hother
    rw [Function.update_self] at hb
    exact hcache b hb
  · rw [Function.update_of_ne hother] at hb
    exact h.caches other b hb

lemma put (h : s.Right) {new : PdfBitmap} (hnew : new.Right document) :
    (s.put document new).Right := by
  have hcache : (s.setCache document ((s.caches document).put new)).Right := by
    refine h.setCache fun b hb => ?_
    rcases PdfBitmapCache.mem_of_put hb with hold | rfl
    · exact h.caches document b hold
    · exact hnew
  refine ⟨hcache.caches, fun put hput => ?_⟩
  rcases List.mem_append.mp hput with hput | hput
  · exact h.puts put hput
  · rw [List.mem_singleton.mp hput]
    exact hnew

lemma refresh (h : s.Right) {hit : PdfBitmap} (hhit : hit ∈ (s.caches document).entries) :
    (s.setCache document ((s.caches document).refresh hit)).Right := by
  refine h.setCache fun b hb => ?_
  rcases PdfBitmapCache.mem_of_refresh hb with hold | rfl
  · exact h.caches document b hold
  · exact h.caches document b hhit

end Shelves.Right

/-- The bitmap that a commitment makes of its raster is right. -/
lemma RenderPipeline.bitmap_right (pl : RenderPipeline) (ratio : ℚ) (area : Option Rect) :
    (pl.bitmap ratio area (pl.rasterPage pf ratio area)).Right pl.inputs.document :=
  ⟨rfl, rfl, rfl, rfl, rfl, rfl⟩

/-! ## A canvas -/

namespace Canvas.Sound

variable {c : Canvas} {pl : RenderPipeline}

/-- Only what is shown changes, and what the refs say of it. -/
lemma congr (h : c.Sound pf) {c' : Canvas} (hinputs : c'.inputs = c.inputs)
    (hactive : c'.active = c.active) (hcommitments : c'.commitments = c.commitments)
    (hgenerations : c'.generations = c.generations)
    (hrendered : c.renderedOnce = true → c'.renderedOnce = true) (hhonest : c'.Honest) :
    c'.Sound pf := by
  refine ⟨hinputs ▸ h.positive, ?_, ?_, fun hne => hrendered (h.rendered (hcommitments ▸ hne)),
    fun m hm hstands => ?_, hhonest⟩
  · rw [hactive, hinputs]
    exact h.active
  · rw [hcommitments, hgenerations]
    exact h.numbered
  · rw [hcommitments] at hm
    unfold Canvas.Stands at hstands
    rw [hactive] at hstands
    rw [hinputs]
    exact h.standing m hm hstands

/-- The status of the active generation changes. -/
lemma setStatus (h : c.Sound pf) (status : Status) : (c.setStatus status).Sound pf := by
  have hactive {g' : RenderGeneration} (hg' : g' ∈ (c.setStatus status).active) :
      ∃ g ∈ c.active, g' = { g with status } := by
    obtain ⟨g, hg, rfl⟩ := Option.map_eq_some_iff.mp hg'
    exact ⟨g, hg, rfl⟩
  refine ⟨h.positive, fun g' hg' => ?_, h.numbered, h.rendered, fun m hm hstands => ?_,
    ⟨h.honest.blits, h.honest.failures⟩⟩
  · obtain ⟨g, hg, rfl⟩ := hactive hg'
    exact h.active g hg
  · obtain ⟨g', hg', hid, hcancelled⟩ := hstands
    obtain ⟨g, hg, rfl⟩ := hactive hg'
    exact h.standing m hm ⟨g, hg, hid, hcancelled⟩

lemma endCommitment (h : c.Sound pf) (gen : ℕ) : (c.endCommitment gen).Sound pf where
  positive := h.positive
  active := h.active
  numbered m hm := h.numbered m (List.mem_of_mem_filter hm)
  rendered hne := h.rendered fun hnil => hne (by simp [Canvas.endCommitment, hnil])
  standing m hm := h.standing m (List.mem_of_mem_filter hm)
  honest := ⟨h.honest.blits, h.honest.failures⟩

/-- A commitment waits for its next step. -/
lemma setPhase (h : c.Sound pf) {phase : Phase} (hrendered : c.renderedOnce = true)
    (hgen : pl.gen < c.generations)
    (hsound : c.Stands pl.gen → Commitment.Sound pf c.inputs { pipeline := pl, phase }) :
    (c.setPhase pl phase).Sound pf where
  positive := h.positive
  active := h.active
  numbered m hm := by
    rcases List.mem_append.mp hm with hm | hm
    · exact h.numbered m (List.mem_of_mem_filter hm)
    · rw [List.mem_singleton.mp hm]
      exact hgen
  rendered _ := hrendered
  standing m hm hstands := by
    rcases List.mem_append.mp hm with hm | hm
    · exact h.standing m (List.mem_of_mem_filter hm) hstands
    · rw [List.mem_singleton.mp hm] at hstands ⊢
      exact hsound hstands
  honest := ⟨h.honest.blits, h.honest.failures⟩

lemma blit (h : c.Sound pf) {raster : Raster} {box : Box} (quality : Quality)
    (geometry : PresentedGeometry) (hplaced : Blit.Placed
      { raster, box, pageWidth := pl.inputs.width, pageHeight := pl.inputs.height }) :
    (c.blit pl raster box quality geometry).Sound pf := by
  refine h.congr rfl rfl rfl rfl id ⟨fun b hb => ?_, h.honest.failures⟩
  rcases List.mem_append.mp hb with hb | hb
  · exact h.honest.blits b hb
  · rw [List.mem_singleton.mp hb]
    exact hplaced

/-- What a commitment for the inputs of the canvas knows when it starts a pass. -/
structure Starts (pf : Platform) (i : Inputs) (pl : RenderPipeline) : Prop where
  key : pl.inputs.key = i.key
  ratio : pl.fullRatio = pl.inputs.ratio pf
  mode : pl.inputs.regionMode = i.regionMode

/-- A pass that starts in the mode of its commitment has that mode's target. -/
lemma startPass (h : c.Sound pf) (hgen : pl.gen < c.generations)
    (hstarts : c.Stands pl.gen → Starts pf c.inputs pl) : (c.startPass pf pl).Sound pf := by
  have hrendered : { c with renderedOnce := true }.Sound pf :=
    h.congr rfl rfl rfl rfl (fun _ => rfl) ⟨h.honest.blits, h.honest.failures⟩
  refine hrendered.setPhase rfl hgen fun hstands => ?_
  obtain ⟨hkey, hratio, hmode⟩ := hstarts hstands
  refine ⟨hkey, hratio, ?_⟩
  rintro pass (hpass | hpass)
  swap
  · cases hpass
  obtain rfl := Phase.page.inj hpass
  cases hregion : pl.inputs.regionMode with
  | true =>
    rw [hregion] at hmode
    rw [if_pos rfl, Inputs.target_of_regionMode hmode.symm]
    exact ⟨hregion, rfl, h.positive hmode.symm, rfl⟩
  | false =>
    rw [hregion] at hmode
    have hwidth : pl.inputs.width = c.inputs.width := congrArg InputsKey.width hkey
    have hheight : pl.inputs.height = c.inputs.height := congrArg InputsKey.height hkey
    rw [if_neg Bool.false_ne_true, Inputs.target_of_not_regionMode hmode.symm]
    exact ⟨hregion, rfl, hwidth.symm, hheight.symm, rfl, rfl⟩

/-- The loop goes on. Only its first pass starts at once. -/
lemma nextPass (h : c.Sound pf) (hgen : pl.gen < c.generations)
    (hstarts : c.renderedOnce = false → c.Stands pl.gen → Starts pf c.inputs pl)
    (hsound : c.Stands pl.gen → pl.inputs.key = c.inputs.key ∧ pl.fullRatio = pl.inputs.ratio pf) :
    (c.nextPass pf pl).Sound pf := by
  unfold Canvas.nextPass
  split_ifs with hrendered
  · refine h.setPhase hrendered hgen fun hstands => ⟨(hsound hstands).1, (hsound hstands).2, ?_⟩
    rintro pass (hpass | hpass) <;> cases hpass
  · exact h.startPass hgen (hstarts (Bool.eq_false_iff.mpr hrendered))

lemma runRenderCommitment (h : c.Sound pf) (hgen : pl.gen < c.generations)
    (hstarts : Starts pf c.inputs pl) : (c.runRenderCommitment pf pl).Sound pf := by
  have hlive := h.setStatus .live
  unfold Canvas.runRenderCommitment
  dsimp only
  split_ifs with hscale
  · exact hlive.nextPass hgen (fun _ _ => hstarts) fun _ => ⟨hstarts.key, hstarts.ratio⟩
  · -- the pass that starts at once renders the canvas again
    have hrescaled : { c.setStatus .live with scaleRef := pl.inputs.scale }.Sound pf :=
      hlive.congr rfl rfl rfl rfl id ⟨h.honest.blits, h.honest.failures⟩
    have hstarted : ({ c.setStatus .live with scaleRef := pl.inputs.scale }.startPass pf pl).Sound
        pf := hrescaled.startPass hgen fun _ => hstarts
    exact hstarted

/-- The commitment is done. -/
lemma finish (h : c.Sound pf) (pl : RenderPipeline) : (c.finish pl).Sound pf :=
  (h.endCommitment pl.gen).setStatus .done

lemma fail (h : c.Sound pf) (pl : RenderPipeline) {area : Option Rect}
    (harea : ∀ region ∈ area, region.Positive) : (c.fail pl area).Sound pf := by
  have hended := (h.endCommitment pl.gen).setStatus .failed
  refine hended.congr rfl rfl rfl rfl id ⟨h.honest.blits, fun area' harea' => ?_⟩
  rcases List.mem_append.mp harea' with harea' | harea'
  · exact h.honest.failures area' harea'
  · rw [List.mem_singleton.mp harea']
    exact harea

/-- Only what is shown changes. -/
lemma exists_presentPrevious (c : Canvas) (i : Inputs) :
    ∃ shown, c.presentPrevious i = { c with shown } := by
  unfold Canvas.presentPrevious
  split
  · exact ⟨_, rfl⟩
  · dsimp only
    split_ifs
    all_goals exact ⟨_, rfl⟩

lemma presentPrevious (h : c.Sound pf) (i : Inputs) : (c.presentPrevious i).Sound pf := by
  obtain ⟨shown, heq⟩ := exists_presentPrevious c i
  rw [heq]
  exact h.congr rfl rfl rfl rfl id ⟨h.honest.blits, h.honest.failures⟩

lemma resetVariant (h : c.Sound pf) (i : Inputs) : (c.resetVariant i).Sound pf := by
  unfold Canvas.resetVariant
  split_ifs
  · exact h
  · exact h.congr rfl rfl rfl rfl id ⟨h.honest.blits, h.honest.failures⟩

/-- No commitment stands for a generation that is new. -/
lemma supersede (h : c.Sound pf) {i : Inputs} (hi : i.regionMode = true → i.region.Positive) :
    ({ c with inputs := i, mounted := true }.supersede i).Sound pf where
  positive := hi
  active g hg := by
    obtain rfl := Option.some.inj hg
    rfl
  numbered m hm := Nat.lt_succ_of_lt (h.numbered m hm)
  rendered := h.rendered
  standing m hm hstands := by
    obtain ⟨g, hg, hid, -⟩ := hstands
    obtain rfl := Option.some.inj hg
    exact absurd (h.numbered m hm) (hid ▸ lt_irrefl _)
  honest := ⟨h.honest.blits, h.honest.failures⟩

/-- A live commitment goes on for the new inputs. -/
lemma absorb (h : c.Sound pf) {i : Inputs} (hi : i.regionMode = true → i.region.Positive)
    (habsorbs : c.Absorbs i) : { c with inputs := i, mounted := true }.Sound pf := by
  obtain ⟨g, hg, hkey, -⟩ := habsorbs
  have hsame : c.inputs.key = i.key := (h.active g hg).symm.trans hkey
  refine ⟨hi, fun g' hg' => (h.active g' hg').trans hsame, h.numbered, h.rendered,
    fun m hm hstands => ?_, ⟨h.honest.blits, h.honest.failures⟩⟩
  obtain ⟨hmkey, hratio, hpass⟩ := h.standing m hm hstands
  exact ⟨hmkey.trans hsame, hratio, hpass⟩

end Canvas.Sound

/-! ## A canvas with the caches -/

namespace Painter.Sound

variable {p : Painter} {pl : RenderPipeline}

lemma onCanvas (h : p.Sound pf) {c : Canvas} (hc : c.Sound pf) : (p.onCanvas c).Sound pf :=
  ⟨hc, h.shelves⟩

lemma file (h : p.Sound pf) {b : PdfBitmap} (hb : b.Right pl.inputs.document) :
    (p.file pl b).Sound pf := by
  unfold Painter.file
  split_ifs
  · exact ⟨h.canvas, h.shelves.put hb⟩
  · exact h

/-- A bitmap of the cache is blitted in the box of its region. -/
lemma blitHit (h : p.Sound pf) (hinputs : p.inputs = pl.inputs) {hit : PdfBitmap}
    (hhit : p.lookup pl = some hit) : (p.blitHit pl hit).Sound pf := by
  unfold Painter.lookup at hhit
  split_ifs at hhit with hcache
  obtain ⟨hmem, hkey, -⟩ := PdfBitmapCache.mem_of_get hhit
  have hregion : hit.buffer.raster.region = pl.inputs.regionKey := by
    rw [(h.shelves.caches _ hit hmem).region, ← hinputs]
    exact congrArg Prod.snd hkey
  refine ⟨(h.canvas.blit .final _ ?_).setStatus .done, h.shelves.refresh hmem⟩
  unfold Blit.Placed
  dsimp only
  rw [hregion, hinputs]
  cases hmode : pl.inputs.regionMode with
  | true =>
    rw [Inputs.target_of_regionMode hmode, Inputs.regionKey, if_pos hmode]
    exact ⟨rfl, .inl rfl, .inl rfl⟩
  | false =>
    rw [Inputs.target_of_not_regionMode hmode, Inputs.regionKey, hmode]
    rfl

/-- A run of the effect for a new generation. -/
lemma commit (h : p.Sound pf) (hinputs : p.inputs = pl.inputs) (hgen : pl.gen < p.generations)
    (hratio : pl.fullRatio = pl.inputs.ratio pf) : (p.commit pf pl).Sound pf := by
  unfold Painter.commit
  split
  case h_1 hit hhit => exact h.blitHit hinputs hhit
  case h_2 =>
    have hpresented := h.canvas.presentPrevious pl.inputs
    obtain ⟨shown, heq⟩ := Canvas.Sound.exists_presentPrevious p.toCanvas pl.inputs
    refine h.onCanvas ?_
    rw [heq] at hpresented ⊢
    split_ifs
    · exact hpresented.runRenderCommitment hgen
        ⟨congrArg Inputs.key hinputs.symm, hratio, congrArg Inputs.regionMode hinputs.symm⟩
    · exact hpresented

/-- Only the variant and what is shown of it are reset. -/
lemma resetVariant_fields (c : Canvas) (i : Inputs) :
    (c.resetVariant i).inputs = c.inputs ∧ (c.resetVariant i).generations = c.generations := by
  unfold Canvas.resetVariant
  split_ifs
  · exact ⟨rfl, rfl⟩
  · exact ⟨rfl, rfl⟩

lemma effect (h : p.Sound pf) {i : Inputs} (hi : i.regionMode = true → i.region.Positive) :
    (p.effect pf i).Sound pf := by
  unfold Painter.effect
  dsimp only
  split_ifs with habsorbs
  · exact h.onCanvas (h.canvas.absorb hi habsorbs)
  · obtain ⟨hinputs, hgenerations⟩ :=
      resetVariant_fields ((p.setInputs i).toCanvas.supersede i) i
    have hreset := h.onCanvas ((h.canvas.supersede hi).resetVariant i)
    exact hreset.commit hinputs (hgenerations ▸ Nat.lt_succ_self _) rfl

lemma render (h : p.Sound pf) (props : Props) : (p.render pf props).Sound pf := by
  unfold Painter.render
  dsimp only
  split_ifs
  · exact h
  · exact h.effect props.inputs_positive

/-- A commitment that waits, and what it knows while it stands. -/
lemma of_commitment (h : p.Sound pf) {gen : ℕ} {phase : Phase}
    (hfind : p.commitment gen = some ⟨pl, phase⟩) :
    pl.gen = gen ∧ pl.gen < p.generations ∧ p.renderedOnce = true ∧
      (p.Stands gen → Commitment.Sound pf p.inputs ⟨pl, phase⟩) := by
  have hmem := List.mem_of_find?_eq_some hfind
  have hgen : pl.gen = gen := by simpa using List.find?_some hfind
  refine ⟨hgen, h.canvas.numbered _ hmem, h.canvas.rendered (List.ne_nil_of_mem hmem), ?_⟩
  rintro hstands
  exact h.canvas.standing _ hmem (hgen ▸ hstands)

/-- A cancelled commitment unwinds. -/
lemma goOn (h : p.Sound pf) {gen : ℕ} {next : Painter}
    (hnext : p.Stands gen → next.Sound pf) : (p.goOn gen next).Sound pf := by
  unfold Painter.goOn
  split_ifs with hstands
  · exact hnext hstands
  · exact h.onCanvas (h.canvas.endCommitment gen)

lemma settled (h : p.Sound pf) (gen : ℕ)
    (hok : p.Stands gen → ∀ m ∈ p.commitments, m.pipeline.gen = gen → m.phase = .settling →
      m.pipeline.inputs.regionMode = p.inputs.regionMode) : (p.settled pf gen).Sound pf := by
  unfold Painter.settled
  split
  case h_2 => exact h
  case h_1 pl hfind =>
    obtain ⟨hgen, hnumbered, -, hsound⟩ := h.of_commitment hfind
    refine h.goOn fun hstands => h.onCanvas (h.canvas.startPass hnumbered fun _ => ?_)
    have hmode := hok hstands _ (List.mem_of_find?_eq_some hfind) hgen rfl
    exact ⟨(hsound hstands).key, (hsound hstands).ratio, hmode⟩

/-- A sound pass asks for a positive region, or for the whole page. -/
lemma area_positive {pass : Pass} (h : pass.Sound pf pl) :
    ∀ region ∈ pass.area, region.Positive := by
  unfold Pass.Sound at h
  unfold Pass.area
  cases hstage : pass.stage with
  | region =>
    rw [hstage] at h
    rintro _ ⟨⟩
    exact h.2.2.1
  | first | refinement => nofun

lemma pageReady (h : p.Sound pf) (gen : ℕ) (ok : Bool) : (p.pageReady gen ok).Sound pf := by
  unfold Painter.pageReady
  split
  case h_2 => exact h
  case h_1 pl pass hfind =>
    obtain ⟨-, hnumbered, hrendered, hsound⟩ := h.of_commitment hfind
    refine h.goOn fun hstands => h.onCanvas ?_
    obtain ⟨hkey, hratio, hpass⟩ := hsound hstands
    split_ifs
    · refine h.canvas.setPhase hrendered hnumbered fun _ => ⟨hkey, hratio, ?_⟩
      rintro next (hnext | hnext)
      · cases hnext
      · obtain rfl := Phase.raster.inj hnext
        exact hpass _ (.inl rfl)
    · exact h.canvas.fail pl (area_positive (hpass pass (.inl rfl)))

/-- Filing a bitmap leaves the canvas as it is. -/
@[simp] lemma toCanvas_file (p : Painter) (pl : RenderPipeline) (b : PdfBitmap) :
    (p.file pl b).toCanvas = p.toCanvas := by
  unfold Painter.file
  split_ifs
  · rfl
  · rfl

/-- A region's raster is blitted in its box, and filed under its key. -/
lemma showRegion (h : p.Sound pf) {pass : Pass}
    (hregion : pass.target.regionKey = some pass.target.region) :
    (p.showRegion pf pl pass).Sound pf := by
  have hplaced : Blit.Placed
      { raster := (pl.rasterPage pf pass.ratio (some pass.target.region)).raster
        box :=
          { position := some (pass.target.region.left, pass.target.region.top)
            width := max 1 (⌊pass.target.region.width⌋ : ℚ)
            height := max 1 (⌊pass.target.region.height⌋ : ℚ) }
        pageWidth := pl.inputs.width, pageHeight := pl.inputs.height } :=
    ⟨rfl, .inr rfl, .inr rfl⟩
  unfold Painter.showRegion
  dsimp only
  rw [hregion]
  exact (h.onCanvas (h.canvas.blit .final _ hplaced)).file (pl.bitmap_right _ _)

lemma showPage (h : p.Sound pf) {pass : Pass} (quality : Quality)
    (htarget : pass.target.regionKey = none ∧ pass.target.cssWidth = pl.inputs.width ∧
      pass.target.cssHeight = pl.inputs.height ∧ pass.target.blitAt = none) :
    (p.showPage pf pl pass quality).Sound pf := by
  have hplaced : Blit.Placed
      { raster := (pl.rasterPage pf pass.ratio none).raster
        box := { position := none, width := pl.inputs.width, height := pl.inputs.height }
        pageWidth := pl.inputs.width, pageHeight := pl.inputs.height } := rfl
  obtain ⟨hregion, hwidth, hheight, hblit⟩ := htarget
  unfold Painter.showPage
  dsimp only
  rw [hregion, hwidth, hheight, hblit]
  exact (h.onCanvas (h.canvas.blit quality _ hplaced)).file (pl.bitmap_right _ _)

/-- A region that has moved waits for another pass. -/
lemma completeRegion (h : p.Sound pf) {pass : Pass} (hgen : pl.gen < p.generations)
    (hrendered : p.renderedOnce = true)
    (hsound : pl.inputs.key = p.inputs.key ∧ pl.fullRatio = pl.inputs.ratio pf)
    (hregion : pass.target.regionKey = some pass.target.region) :
    (p.completeRegion pf pl pass).Sound pf := by
  have hshown : (p.showRegion pf pl pass).Sound pf := h.showRegion hregion
  have hcanvas := hshown.canvas
  unfold Painter.completeRegion
  refine hshown.onCanvas ?_
  unfold Painter.showRegion at hcanvas ⊢
  simp only [toCanvas_file] at hcanvas ⊢
  split_ifs
  · exact hcanvas.finish pl
  · exact hcanvas.nextPass hgen (fun hnot => absurd (hrendered.symm.trans hnot) (by simp))
      fun _ => hsound

/-- A pass of a standing commitment has its raster. -/
lemma complete (h : p.Sound pf) {pass : Pass} (hgen : pl.gen < p.generations)
    (hrendered : p.renderedOnce = true)
    (hsound : Commitment.Sound pf p.inputs ⟨pl, .raster pass⟩) :
    (p.complete pf pl pass).Sound pf := by
  obtain ⟨hkey, hratio, hpass⟩ := hsound
  have htarget := hpass pass (.inr rfl)
  unfold Pass.Sound at htarget
  unfold Painter.complete
  cases hstage : pass.stage with
  | region =>
    rw [hstage] at htarget
    exact h.completeRegion hgen hrendered ⟨hkey, hratio⟩ htarget.2.1
  | first =>
    rw [hstage] at htarget
    obtain ⟨hmode, hregion, hwidth, hheight, hblit, -⟩ := htarget
    dsimp only
    split_ifs with hneeds
    · have hshown : (p.showPage pf pl pass .preview).Sound pf :=
        h.showPage .preview ⟨hregion, hwidth, hheight, hblit⟩
      have hcanvas := hshown.canvas
      refine hshown.onCanvas ?_
      unfold Painter.showPage at hcanvas ⊢
      simp only [toCanvas_file] at hcanvas ⊢
      refine hcanvas.setPhase hrendered hgen fun _ => ⟨hkey, hratio, ?_⟩
      rintro next (hnext | hnext)
      · obtain rfl := Phase.page.inj hnext
        exact ⟨hmode, hregion, hwidth, hheight, hblit, rfl⟩
      · cases hnext
    · have hshown : (p.showPage pf pl pass .final).Sound pf :=
        h.showPage .final ⟨hregion, hwidth, hheight, hblit⟩
      exact hshown.onCanvas (hshown.canvas.finish pl)
  | refinement =>
    rw [hstage] at htarget
    obtain ⟨-, hregion, hwidth, hheight, hblit, -⟩ := htarget
    have hshown : (p.showPage pf pl pass .final).Sound pf :=
      h.showPage .final ⟨hregion, hwidth, hheight, hblit⟩
    exact hshown.onCanvas (hshown.canvas.finish pl)

lemma rastered (h : p.Sound pf) (gen : ℕ) (ok : Bool) : (p.rastered pf gen ok).Sound pf := by
  unfold Painter.rastered
  split
  case h_2 => exact h
  case h_1 pl pass hfind =>
    obtain ⟨-, hnumbered, hrendered, hsound⟩ := h.of_commitment hfind
    refine h.goOn fun hstands => ?_
    split_ifs
    · exact h.complete hnumbered hrendered (hsound hstands)
    · exact h.onCanvas (h.canvas.fail pl (area_positive ((hsound hstands).pass pass (.inr rfl))))

lemma unmount (h : p.Sound pf) : p.unmount.Sound pf := by
  have hactive {g' : RenderGeneration} (hg' : g' ∈ p.unmount.active) :
      ∃ g ∈ p.active, g' = { g with cancelled := true } := by
    obtain ⟨g, hg, rfl⟩ := Option.map_eq_some_iff.mp hg'
    exact ⟨g, hg, rfl⟩
  refine h.onCanvas ⟨h.canvas.positive, fun g' hg' => ?_, h.canvas.numbered, h.canvas.rendered,
    fun m _ hstands => ?_, ⟨h.canvas.honest.blits, h.canvas.honest.failures⟩⟩
  · obtain ⟨g, hg, rfl⟩ := hactive hg'
    exact h.canvas.active g hg
  · obtain ⟨g', hg', -, hcancelled⟩ := hstands
    obtain ⟨g, -, rfl⟩ := hactive hg'
    cases hcancelled

end Painter.Sound

/-! ## Runs -/

/-- Every canvas of the surface is sound, and so are the shelves. -/
structure Surface.Sound (pf : Platform) (s : Surface) : Prop where
  canvases : ∀ canvas, ∀ c ∈ s.canvases canvas, c.Sound pf
  shelves : s.toShelves.Right

namespace Surface.Sound

variable {s : Surface}

lemma set (h : s.Sound pf) (canvas : ℕ) {p : Painter} (hp : p.Sound pf) :
    (s.set canvas p).Sound pf := by
  refine ⟨fun other c hc => ?_, hp.shelves⟩
  unfold Surface.set at hc
  dsimp only at hc
  by_cases hother : other = canvas
  · subst hother
    rw [Function.update_self] at hc
    obtain rfl := Option.some.inj hc
    exact hp.canvas
  · rw [Function.update_of_ne hother] at hc
    exact h.canvases other c hc

/-- A canvas that is new has no commitment. -/
lemma mount (props : Props) : (Canvas.mount (props.inputs pf)).Sound pf :=
  ⟨props.inputs_positive, fun _ hg => absurd hg (Option.not_mem_none _), List.forall_mem_nil _,
    fun hne => absurd rfl hne, List.forall_mem_nil _, List.forall_mem_nil _, List.forall_mem_nil _⟩

/-- **An event under the condition keeps the invariant.** -/
theorem step (h : s.Sound pf) (event : Event) (hok : SettleMeets s event) :
    (s.step pf event).Sound pf := by
  cases event with
  | render canvas props =>
    have hpainter : (s.painter ((s.canvases canvas).getD (.mount (props.inputs pf)))).Sound pf := by
      refine ⟨?_, h.shelves⟩
      cases hcanvas : s.canvases canvas with
      | none => exact mount props
      | some c => exact h.canvases canvas c hcanvas
    exact h.set canvas (hpainter.render props)
  | canvas canvas event =>
    unfold Surface.step
    dsimp only
    split
    case h_2 => exact h
    case h_1 c hcanvas =>
      have hpainter : (s.painter c).Sound pf := ⟨h.canvases canvas c hcanvas, h.shelves⟩
      refine h.set canvas ?_
      cases event with
      | unmount => exact hpainter.unmount
      | settled gen => exact hpainter.settled gen (hok c hcanvas)
      | pageReady gen ok => exact hpainter.pageReady gen ok
      | rastered gen ok => exact hpainter.rastered gen ok
  | preloaded pl => exact ⟨h.canvases, h.shelves.put (pl.bitmap_right _ _)⟩
  | cleared document => exact ⟨h.canvases, h.shelves.setCache (List.forall_mem_nil _)⟩

end Surface.Sound

lemma blankSurface_sound : blankSurface.Sound pf :=
  ⟨fun _ _ hc => absurd hc (Option.not_mem_none _), fun _ => List.forall_mem_nil _,
    List.forall_mem_nil _⟩

/-- **A run in which no commitment settles in another mode** files and shows every bitmap as what it
is. -/
theorem honest_of_meets (pf : Platform) (events : List Event)
    (h : Guarded.Meets (Surface.step pf) SettleMeets blankSurface events) :
    ∀ before, before <+: events → (before.foldl (Surface.step pf) blankSurface).Honest := by
  rintro before ⟨after, rfl⟩
  have hstep (s : Surface) (event : Event) (hs : s.Sound pf) (hok : SettleMeets s event) :
      (s.step pf event).Sound pf := hs.step event hok
  have hsound := h.of_append.invariant hstep blankSurface_sound
  exact ⟨hsound.shelves.puts, fun canvas c hc => (hsound.canvases canvas c hc).honest⟩

/-! ## A page at deep zoom -/

/-- The largest number below a power of two whose square is at most `n`. -/
def isqrt (n : ℕ) : ℕ → ℕ → ℕ
  | 0, root => root
  | bit + 1, root =>
    let next := root + 2 ^ bit
    isqrt n bit (if next * next ≤ n then next else root)

/-- Square roots to six decimal places, and pages of 512 by 1024 units. -/
def sixDecimals : Platform where
  sqrt q := isqrt ⌊q * 10 ^ 12⌋.toNat 40 0 / 10 ^ 6
  viewport _ _ scale := (512 * scale, 1024 * scale)

/-- The page at scale 16, where the whole page can only be rastered at half of the resolution. -/
def deepZoom (region : Option Region) (renderVariant : String) : Props where
  document := 0
  pageNumber := 1
  width := 8192
  height := 16384
  scale := 16
  region
  renderVariant
  smartColors := if renderVariant = "smart" then some "smart" else none
  devicePixelRatio := 1

def topLeft : Region where
  top := 0
  left := 0
  width := 800
  height := 600
  width_pos := by norm_num
  height_pos := by norm_num

/-- A page out of view is drawn, and its colours change. -/
def drawnAndRecoloured : List Event :=
  [.render 0 (deepZoom none "original"), .canvas 0 (.pageReady 0 true),
    .canvas 0 (.rastered 0 true), .render 0 (deepZoom none "smart")]

/-- The page comes into view while the second commitment settles. -/
def comesIntoView : List Event :=
  drawnAndRecoloured ++ [.render 0 (deepZoom (some topLeft) "smart"), .canvas 0 (.settled 1),
    .canvas 0 (.pageReady 1 true), .canvas 0 (.rastered 1 true)]

/-- **The whole page is filed under the region's key.** -/
theorem page_filed_as_region :
    let s := comesIntoView.foldl (Surface.step sixDecimals) blankSurface
    s.puts.map (fun put => (put.2.regionKey, put.2.buffer.raster.region)) =
      [(none, none), (some topLeft.toRect, none)] ∧ ¬s.Honest := by
  intro s
  have hputs : s.puts.map (fun put => (put.2.regionKey, put.2.buffer.raster.region)) =
      [(none, none), (some topLeft.toRect, none)] := by decide +kernel
  refine ⟨hputs, fun h => ?_⟩
  have hmem : (some topLeft.toRect, none) ∈
      s.puts.map (fun put => (put.2.regionKey, put.2.buffer.raster.region)) := by
    rw [hputs]
    exact List.mem_cons_of_mem _ List.mem_cons_self
  obtain ⟨put, hput, heq⟩ := List.mem_map.mp hmem
  obtain ⟨hkey, harea⟩ := Prod.mk.inj heq
  have hregion := (h.puts put hput).region
  rw [hkey, harea] at hregion
  cases hregion

/-- The page comes into view once the commitment is done. -/
def drawnBeforeView : List Event :=
  drawnAndRecoloured ++ [.canvas 0 (.settled 1), .canvas 0 (.pageReady 1 true),
    .canvas 0 (.rastered 1 true), .render 0 (deepZoom (some topLeft) "smart"),
    .canvas 0 (.settled 2), .canvas 0 (.pageReady 2 true), .canvas 0 (.rastered 2 true)]

theorem honest_drawnBeforeView :
    (drawnBeforeView.foldl (Surface.step sixDecimals) blankSurface).Honest :=
  honest_of_meets sixDecimals drawnBeforeView (by decide +kernel) drawnBeforeView List.prefix_rfl

end PdfCanvas
end TuxBooks
