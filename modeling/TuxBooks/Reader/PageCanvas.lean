import Mathlib.Logic.Function.Basic
import TuxBooks.Lib.Guarded
import TuxBooks.Reader.BitmapCache

set_option relaxedAutoImplicit false
set_option autoImplicit false

/-!
# The page canvas

`PdfPageCanvas` (`frontend/src/components/reader/pdf/PdfPageCanvas.tsx`) draws one page of a PDF.
Its effect starts a commitment for the inputs that it reads, and a commitment waits for its settle
timer, for `getPage` and for the raster. The steps that wait are part of the state and complete in
any order. The engine makes the raster that it was asked for, or fails.

The reader makes one cache for a document, and the canvases of the document share it. A buffer
always has its context. The device ratio is the one that the component reads when it renders.

## Main definitions

* `TuxBooks.PdfCanvas.Props`, `TuxBooks.PdfCanvas.Inputs` — the properties, and what the effect
  depends on.
* `TuxBooks.PdfCanvas.Canvas` — a canvas with its commitments.
* `TuxBooks.PdfCanvas.Canvas.Event`, `TuxBooks.PdfCanvas.Painter.step` — what can happen to it.
* `TuxBooks.PdfCanvas.Surface` — the canvases of a reader with their caches.
-/

namespace TuxBooks

namespace PdfCanvas

/-- `Math.sqrt`, and the size of a page at a scale that the engine's `getViewport` has. -/
structure Platform where
  sqrt : ℚ → ℚ
  viewport : ℕ → ℕ → ℚ → ℚ × ℚ

/-! ## Properties -/

/-- The visible part of a page. The reader's regions have a width and a height of at least one. -/
structure Region extends Rect where
  width_pos : 0 < width
  height_pos : 0 < height

structure Props where
  document : ℕ
  pageNumber : ℕ
  width : ℚ
  height : ℚ
  scale : ℚ
  region : Option Region
  preview : Bool := false
  /-- The palette as JSON. -/
  smartColors : Option String := none
  renderVariant : String := "original"
  bitmapCache : Bool := true
  renderEnabled : Bool := true
  devicePixelRatio : ℚ

/-- The dependencies of the render effect. Without a region its numbers are zero. -/
structure Inputs where
  document : ℕ
  pageNumber : ℕ
  width : ℚ
  height : ℚ
  scale : ℚ
  preview : Bool
  smartColors : Option String
  renderVariant : String
  bitmapCache : Bool
  renderEnabled : Bool
  regionMode : Bool
  region : Rect
  dpr : ℚ
  deriving DecidableEq

/-- The document and `inputsKey`: everything that changes what a canvas must draw, except for the
region. -/
structure InputsKey where
  document : ℕ
  pageNumber : ℕ
  width : ℚ
  height : ℚ
  scale : ℚ
  renderVariant : String
  preview : Bool
  dpr : ℚ
  smartColors : Option String
  deriving DecidableEq

/-- The region geometry that a render targets. -/
structure RegionTarget where
  regionKey : Option Rect
  region : Rect
  cssWidth : ℚ
  cssHeight : ℚ
  /-- `blitLeft` and `blitTop`. -/
  blitAt : Option (ℚ × ℚ)
  deriving DecidableEq

def Props.inputs (pf : Platform) (p : Props) : Inputs :=
  let dpr := if p.devicePixelRatio = 0 then 1 else p.devicePixelRatio
  { p with
    regionMode := p.region.isSome &&
      needsRegionRender pf.sqrt (p.width / p.scale) (p.height / p.scale) p.scale dpr
    region := p.region.elim { top := 0, left := 0, width := 0, height := 0 } (·.toRect)
    dpr }

namespace Inputs

variable (i : Inputs)

def key : InputsKey := { i with }

def regionKey : Option Rect := if i.regionMode = true then some i.region else none

def target : RegionTarget where
  regionKey := i.regionKey
  region := i.region
  cssWidth := if i.regionMode = true then i.region.width else i.width
  cssHeight := if i.regionMode = true then i.region.height else i.height
  blitAt := if i.regionMode = true then some (i.region.left, i.region.top) else none

variable (pf : Platform)

/-- The ratio for a region of the page. -/
def regionRatio (region : Rect) : ℚ :=
  regionRenderRatioForPage pf.sqrt (i.width / i.scale) (i.height / i.scale) region.width
    region.height i.scale i.dpr

/-- The ratio that the effect computes. -/
def ratio : ℚ :=
  if i.regionMode = true then i.regionRatio pf i.region
  else effectiveRenderRatio pf.sqrt (i.width / i.scale) (i.height / i.scale) i.scale i.dpr

end Inputs

/-! ## A canvas -/

inductive Quality where
  | preview
  | final
  | scaled
  deriving DecidableEq

/-- The CSS box of the canvas element. Without a position it is in flow at the page's origin. -/
structure Box where
  position : Option (ℚ × ℚ)
  width : ℚ
  height : ℚ
  deriving DecidableEq

/-- What the canvas element shows. -/
structure Shown where
  raster : Raster
  box : Box
  quality : Quality
  deriving DecidableEq

structure PresentedGeometry where
  scale : ℚ
  regionKey : Option Rect
  regionLeft : ℚ
  regionTop : ℚ
  cssWidth : ℚ
  cssHeight : ℚ
  /-- The mode is `region`. -/
  inRegion : Bool
  deriving DecidableEq

/-- A blit, and the size of the page that it is in. -/
structure Blit where
  raster : Raster
  box : Box
  pageWidth : ℚ
  pageHeight : ℚ
  deriving DecidableEq

inductive Status where
  | pending
  | live
  | done
  | failed
  deriving DecidableEq

/-- `RenderGeneration`, numbered. -/
structure RenderGeneration where
  id : ℕ
  key : InputsKey
  status : Status
  cancelled : Bool
  deriving DecidableEq

/-- What a run of the effect captures. -/
structure RenderPipeline where
  inputs : Inputs
  fullRatio : ℚ
  gen : ℕ
  deriving DecidableEq

/-- A pass rasters a region, or a whole page in one or two stages. -/
inductive Stage where
  | region
  | first
  | refinement
  deriving DecidableEq

/-- A pass, with the target that it read when it started. -/
structure Pass where
  stage : Stage
  ratio : ℚ
  target : RegionTarget
  deriving DecidableEq

/-- What a commitment waits for. -/
inductive Phase where
  | settling
  | page (pass : Pass)
  | raster (pass : Pass)
  deriving DecidableEq

/-- A run of `runRenderCommitment`. -/
structure Commitment where
  pipeline : RenderPipeline
  phase : Phase
  deriving DecidableEq

/-- A canvas. `regionRef` always holds the target of the inputs of the last effect run. -/
structure Canvas where
  mounted : Bool := true
  inputs : Inputs
  generations : ℕ := 0
  active : Option RenderGeneration := none
  commitments : List Commitment := []
  renderedOnce : Bool := false
  scaleRef : ℚ
  previousVariant : String
  lastPresented : Option PresentedGeometry := none
  shown : Option Shown := none
  /-- The blits, and the areas of the requests that the page was reported failed for. -/
  blits : List Blit := []
  failures : List (Option Rect) := []

/-- The refs of a canvas that is new. -/
def Canvas.mount (i : Inputs) : Canvas where
  inputs := i
  scaleRef := i.scale
  previousVariant := i.renderVariant

/-- The area of the page that a pass asks for. -/
def Pass.area (pass : Pass) : Option Rect :=
  match pass.stage with
  | .region => some pass.target.region
  | .first | .refinement => none

namespace RenderPipeline

variable (pl : RenderPipeline)

/-- The preview tier of a first paint. -/
def previewRatio : ℚ := if pl.inputs.preview = true then min pl.fullRatio 1 else pl.fullRatio

/-- Refinement would change something. -/
def NeedsRefinement : Prop := 1 / 10 ^ 9 < pl.fullRatio - pl.previewRatio

instance : Decidable pl.NeedsRefinement := inferInstanceAs (Decidable (_ < _))

/-- `rasterPage`: the buffer is the CSS box times the ratio, rounded. -/
def rasterPage (pf : Platform) (ratio : ℚ) (area : Option Rect) : Buffer :=
  let viewport := pf.viewport pl.inputs.document pl.inputs.pageNumber pl.inputs.scale
  let bufferWidth := area.elim (mathRound viewport.1 : ℚ) (·.width)
  let bufferHeight := area.elim (mathRound viewport.2 : ℚ) (·.height)
  { raster :=
      { document := pl.inputs.document
        pageNumber := pl.inputs.pageNumber
        scale := pl.inputs.scale
        ratio
        smartColors := pl.inputs.smartColors
        variant := pl.inputs.renderVariant
        region := area }
    width := (max 1 (mathRound (bufferWidth * ratio))).toNat
    height := (max 1 (mathRound (bufferHeight * ratio))).toNat }

/-- The bitmap that a pass files. -/
def bitmap (ratio : ℚ) (regionKey : Option Rect) (buffer : Buffer) : PdfBitmap where
  pageNumber := pl.inputs.pageNumber
  regionKey
  scale := pl.inputs.scale
  ratio
  variant := pl.inputs.renderVariant
  buffer

end RenderPipeline

namespace Canvas

variable (c : Canvas)

/-- A generation is cancelled when another one takes its place, or by the unmount. -/
def Stands (gen : ℕ) : Prop := ∃ g ∈ c.active, g.id = gen ∧ g.cancelled = false

instance (gen : ℕ) : Decidable (c.Stands gen) := inferInstanceAs (Decidable (∃ g ∈ c.active, _))

def setStatus (status : Status) : Canvas :=
  { c with active := c.active.map ({ · with status }) }

def endCommitment (gen : ℕ) : Canvas :=
  { c with commitments := c.commitments.filter (·.pipeline.gen ≠ gen) }

def setPhase (pl : RenderPipeline) (phase : Phase) : Canvas :=
  let ended := c.endCommitment pl.gen
  { ended with commitments := ended.commitments ++ [{ pipeline := pl, phase }] }

/-- One-shot copy of a finished buffer onto the visible canvas. -/
def blit (pl : RenderPipeline) (raster : Raster) (box : Box) (quality : Quality)
    (geometry : PresentedGeometry) : Canvas :=
  { c with
    shown := some { raster, box, quality }
    lastPresented := some geometry
    blits := c.blits ++
      [{ raster, box, pageWidth := pl.inputs.width, pageHeight := pl.inputs.height }] }

/-- A pass starts: it reads the target. -/
def startPass (pf : Platform) (pl : RenderPipeline) : Canvas :=
  let target := c.inputs.target
  let pass : Pass :=
    if pl.inputs.regionMode = true then
      { stage := .region, ratio := pl.inputs.regionRatio pf target.region, target }
    else { stage := .first, ratio := pl.previewRatio, target }
  { c with renderedOnce := true }.setPhase pl (.page pass)

/-- The head of the loop: only the first pass starts without the settle timer. -/
def nextPass (pf : Platform) (pl : RenderPipeline) : Canvas :=
  if c.renderedOnce = true then c.setPhase pl .settling else c.startPass pf pl

/-- The start of `runRenderCommitment`. A new scale does not wait for the timer. -/
def runRenderCommitment (pf : Platform) (pl : RenderPipeline) : Canvas :=
  let live := c.setStatus .live
  if live.scaleRef = pl.inputs.scale then live.nextPass pf pl
  else { live with scaleRef := pl.inputs.scale, renderedOnce := false }.nextPass pf pl

/-- The commitment is done. -/
def finish (pl : RenderPipeline) : Canvas := (c.endCommitment pl.gen).setStatus .done

/-- A pass has failed, and the page is reported. -/
def fail (pl : RenderPipeline) (area : Option Rect) : Canvas :=
  let failed := (c.endCommitment pl.gen).setStatus .failed
  { failed with failures := failed.failures ++ [area] }

/-- `presentScaled`: the pixels under a transform to another box. -/
def presentScaled (position : Option (ℚ × ℚ)) (width height : ℚ) : Canvas :=
  { c with
    shown := c.shown.map fun s =>
      { s with box := { position, width, height }, quality := .scaled } }

/-- Scale-and-swap: the previous bitmap at the new geometry. -/
def presentPrevious (i : Inputs) : Canvas :=
  match c.lastPresented with
  | none => c
  | some previous =>
    let ratio := i.scale / previous.scale
    let scaleChanged : Prop := 1 / 10 ^ 9 < |ratio - 1|
    if previous.inRegion = false then
      if scaleChanged ∨ previous.regionKey ≠ i.regionKey ∨ previous.cssWidth ≠ i.width ∨
          previous.cssHeight ≠ i.height then
        c.presentScaled (if i.regionMode = true then some (0, 0) else none) i.width i.height
      else c
    else if scaleChanged then
      c.presentScaled (some (previous.regionLeft * ratio, previous.regionTop * ratio))
        (previous.cssWidth * ratio) (previous.cssHeight * ratio)
    else c

/-- Pixels of another variant are cleared. -/
def resetVariant (i : Inputs) : Canvas :=
  if c.previousVariant = i.renderVariant then c
  else { c with previousVariant := i.renderVariant, lastPresented := none, shown := none }

/-- A live commitment for these inputs survives another run of the effect. -/
def Absorbs (i : Inputs) : Prop :=
  ∃ g ∈ c.active, g.key = i.key ∧ g.cancelled = false ∧ g.status = .live

instance (i : Inputs) : Decidable (c.Absorbs i) := inferInstanceAs (Decidable (∃ g ∈ c.active, _))

/-- A new generation takes the place of the active one. -/
def supersede (i : Inputs) : Canvas :=
  { c with
    active := some { id := c.generations, key := i.key, status := .pending, cancelled := false }
    generations := c.generations + 1 }

end Canvas

/-! ## A canvas with the caches -/

/-- The cache of every document, and all that was put in them. -/
structure Shelves where
  caches : ℕ → PdfBitmapCache := fun _ => {}
  puts : List (ℕ × PdfBitmap) := []

namespace Shelves

variable (s : Shelves)

def setCache (document : ℕ) (cache : PdfBitmapCache) : Shelves :=
  { s with caches := Function.update s.caches document cache }

def put (document : ℕ) (bitmap : PdfBitmap) : Shelves :=
  { s.setCache document ((s.caches document).put bitmap) with
    puts := s.puts ++ [(document, bitmap)] }

end Shelves

/-- A canvas, and the shelves that it shares with others. -/
structure Painter extends Canvas, Shelves

namespace Painter

variable (p : Painter)

def onCanvas (c : Canvas) : Painter := { p with toCanvas := c }

def onShelves (s : Shelves) : Painter := { p with toShelves := s }

/-- A pass puts its bitmap in the cache that the commitment has. -/
def file (pl : RenderPipeline) (bitmap : PdfBitmap) : Painter :=
  if pl.inputs.bitmapCache = true then p.onShelves (p.toShelves.put pl.inputs.document bitmap)
  else p

/-- The blit of a hit, and the end of its generation. -/
def blitHit (pl : RenderPipeline) (hit : PdfBitmap) : Painter :=
  let target := p.inputs.target
  let geometry : PresentedGeometry :=
    { scale := pl.inputs.scale
      regionKey := target.regionKey
      regionLeft := if pl.inputs.regionMode = true then target.region.left else 0
      regionTop := if pl.inputs.regionMode = true then target.region.top else 0
      cssWidth := target.cssWidth
      cssHeight := target.cssHeight
      inRegion := pl.inputs.regionMode }
  let box : Box :=
    { position := target.blitAt, width := target.cssWidth, height := target.cssHeight }
  (p.onCanvas ((p.toCanvas.blit pl hit.buffer.raster box
    .final geometry).setStatus .done)).onShelves
    (p.setCache pl.inputs.document ((p.caches pl.inputs.document).refresh hit))

/-- What the cache has for the inputs of a run of the effect. -/
def lookup (pl : RenderPipeline) : Option PdfBitmap :=
  if pl.inputs.bitmapCache = true then
    (p.caches pl.inputs.document).get pl.inputs.pageNumber pl.inputs.scale pl.fullRatio
      pl.inputs.renderVariant p.inputs.target.regionKey
  else none

/-- The inputs of a run of the effect, which refreshes the region's target. -/
def setInputs (i : Inputs) : Painter := p.onCanvas { p.toCanvas with inputs := i, mounted := true }

/-- A hit is blitted. Else the previous bitmap is shown at the new geometry, and a commitment starts
if the budget admits the page. -/
def commit (pf : Platform) (pl : RenderPipeline) : Painter :=
  match p.lookup pl with
  | some hit => p.blitHit pl hit
  | none =>
    let c := p.toCanvas.presentPrevious pl.inputs
    p.onCanvas (if pl.inputs.renderEnabled = true then c.runRenderCommitment pf pl else c)

/-- The render effect. -/
def effect (pf : Platform) (i : Inputs) : Painter :=
  let p := p.setInputs i
  if p.Absorbs i then p
  else
    (p.onCanvas ((p.toCanvas.supersede i).resetVariant i)).commit pf
      { inputs := i, fullRatio := i.ratio pf, gen := p.generations }

/-- The component renders. The effect runs when a dependency has changed, or again after the
simulated unmount of the strict mode. -/
def render (pf : Platform) (props : Props) : Painter :=
  let i := props.inputs pf
  if p.mounted = true ∧ p.inputs = i ∧ p.active.isSome = true then p else p.effect pf i

/-- The blit and the bitmap of a region. -/
def showRegion (pf : Platform) (pl : RenderPipeline) (pass : Pass) : Painter :=
  let area := pass.target.region
  let buffer := pl.rasterPage pf pass.ratio (some area)
  let stageWidth : ℚ := max 1 ⌊area.width⌋
  let stageHeight : ℚ := max 1 ⌊area.height⌋
  let box : Box :=
    { position := some (area.left, area.top), width := stageWidth, height := stageHeight }
  let geometry : PresentedGeometry :=
    { scale := pl.inputs.scale, regionKey := pass.target.regionKey, regionLeft := area.left,
      regionTop := area.top, cssWidth := stageWidth, cssHeight := stageHeight, inRegion := true }
  (p.onCanvas (p.toCanvas.blit pl buffer.raster box .final geometry)).file pl
    (pl.bitmap pass.ratio pass.target.regionKey buffer)

/-- A pass of a region has its raster: the commitment is done when the region did not move. -/
def completeRegion (pf : Platform) (pl : RenderPipeline) (pass : Pass) : Painter :=
  let p := p.showRegion pf pl pass
  p.onCanvas (if p.inputs.target.regionKey = pass.target.regionKey then p.toCanvas.finish pl
    else p.toCanvas.nextPass pf pl)

/-- The blit and the bitmap of a whole page. -/
def showPage (pf : Platform) (pl : RenderPipeline) (pass : Pass) (quality : Quality) : Painter :=
  let buffer := pl.rasterPage pf pass.ratio none
  let target := pass.target
  let box : Box :=
    { position := target.blitAt, width := target.cssWidth, height := target.cssHeight }
  let geometry : PresentedGeometry :=
    { scale := pl.inputs.scale, regionKey := target.regionKey, regionLeft := 0, regionTop := 0,
      cssWidth := target.cssWidth, cssHeight := target.cssHeight, inRegion := false }
  (p.onCanvas (p.toCanvas.blit pl buffer.raster box quality geometry)).file pl
    (pl.bitmap pass.ratio target.regionKey buffer)

/-- A pass has its raster. The first stage of a whole page may be a preview that is refined. -/
def complete (pf : Platform) (pl : RenderPipeline) (pass : Pass) : Painter :=
  match pass.stage with
  | .region => p.completeRegion pf pl pass
  | .first =>
    if pl.NeedsRefinement then
      let p := p.showPage pf pl pass .preview
      p.onCanvas (p.toCanvas.setPhase pl
        (.page { pass with stage := .refinement, ratio := pl.fullRatio }))
    else
      let p := p.showPage pf pl pass .final
      p.onCanvas (p.toCanvas.finish pl)
  | .refinement =>
    let p := p.showPage pf pl pass .final
    p.onCanvas (p.toCanvas.finish pl)

/-- A commitment goes on, unless it was cancelled while it waited. -/
def goOn (gen : ℕ) (next : Painter) : Painter :=
  if p.Stands gen then next else p.onCanvas (p.toCanvas.endCommitment gen)

/-- The commitment of a generation that waits. -/
def commitment (gen : ℕ) : Option Commitment := p.commitments.find? (·.pipeline.gen = gen)

/-- The settle timer of a generation fires. -/
def settled (pf : Platform) (gen : ℕ) : Painter :=
  match p.commitment gen with
  | some ⟨pl, .settling⟩ => p.goOn gen (p.onCanvas (p.toCanvas.startPass pf pl))
  | _ => p

/-- `getPage` is done for a generation, or has failed. -/
def pageReady (gen : ℕ) (ok : Bool) : Painter :=
  match p.commitment gen with
  | some ⟨pl, .page pass⟩ =>
    p.goOn gen (p.onCanvas (if ok = true then p.toCanvas.setPhase pl (.raster pass)
      else p.toCanvas.fail pl pass.area))
  | _ => p

/-- The raster of a generation is done, or has failed. -/
def rastered (pf : Platform) (gen : ℕ) (ok : Bool) : Painter :=
  match p.commitment gen with
  | some ⟨pl, .raster pass⟩ =>
    p.goOn gen (if ok = true then p.complete pf pl pass
      else p.onCanvas (p.toCanvas.fail pl pass.area))
  | _ => p

/-- The canvas goes, and with it the standing commitment. -/
def unmount : Painter :=
  p.onCanvas { p.toCanvas with
    mounted := false
    active := p.active.map ({ · with cancelled := true }) }

end Painter

/-- What can happen to a canvas. -/
inductive Canvas.Event where
  | unmount
  | settled (gen : ℕ)
  | pageReady (gen : ℕ) (ok : Bool)
  | rastered (gen : ℕ) (ok : Bool)

def Painter.step (pf : Platform) (p : Painter) : Canvas.Event → Painter
  | .unmount => p.unmount
  | .settled gen => p.settled pf gen
  | .pageReady gen ok => p.pageReady gen ok
  | .rastered gen ok => p.rastered pf gen ok

/-! ## The canvases of a reader -/

structure Surface extends Shelves where
  canvases : ℕ → Option Canvas := fun _ => none

/-- A canvas renders for the first time or again, a step of a canvas, a preload of a page, or the
reader drops a document's bitmaps. -/
inductive Event where
  | render (canvas : ℕ) (props : Props)
  | canvas (canvas : ℕ) (event : Canvas.Event)
  | preloaded (pl : RenderPipeline)
  | cleared (document : ℕ)

namespace Surface

variable (s : Surface)

/-- A canvas of the surface with the shelves. -/
def painter (c : Canvas) : Painter := { c with toShelves := s.toShelves }

def set (canvas : ℕ) (p : Painter) : Surface :=
  { p.toShelves with canvases := Function.update s.canvases canvas (some p.toCanvas) }

/-- `startPdfPreloadQueue` rasters a whole page, and puts it under `full`. -/
def preload (pf : Platform) (pl : RenderPipeline) : Surface :=
  { s with
    toShelves := s.toShelves.put pl.inputs.document
      (pl.bitmap pl.fullRatio none (pl.rasterPage pf pl.fullRatio none)) }

def step (pf : Platform) (s : Surface) : Event → Surface
  | .render canvas props =>
    let c := (s.canvases canvas).getD (.mount (props.inputs pf))
    s.set canvas ((s.painter c).render pf props)
  | .canvas canvas event =>
    match s.canvases canvas with
    | some c => s.set canvas ((s.painter c).step pf event)
    | none => s
  | .preloaded pl => s.preload pf pl
  | .cleared document =>
    { s with toShelves := s.setCache document (s.caches document).clear }

end Surface

/-- A reader that has shown nothing. -/
def blankSurface : Surface := {}

end PdfCanvas
end TuxBooks
