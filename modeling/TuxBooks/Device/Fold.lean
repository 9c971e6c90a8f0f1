import TuxBooks.Catalog.Frame
import TuxBooks.Device.Device
import TuxBooks.Sync.Rekey

set_option relaxedAutoImplicit false
set_option autoImplicit false

/-!
# One step of identity merging

Merging two book identities either changes nothing or folds one live canonical uid into another
one: afterwards everything that resolved to the loser resolves to the winner.

## Main definitions

* `TuxBooks.Mirror.RootedWithin` — no chain of merges is longer than a given number of hops.
* `TuxBooks.Device.Folds` — what a fold does to the identity tables of a device.

## Main results

* `TuxBooks.Device.mergeBookIdentity_cases` — a merge does nothing or folds.
* `TuxBooks.Device.Folds.canonical` — how uids resolve after a fold.
* `TuxBooks.Device.mirror_mergeBookIdentity`, `TuxBooks.Device.mirror_applyOp` — on the mirror a
  device does what the mirror functions do, unless recomputing metadata stops it earlier.
-/

namespace TuxBooks

open Fallible

namespace Mirror

/-! ## Chains of merges -/

/-- No chain of merges is longer than `n` hops. -/
def RootedWithin (m : Mirror) (n : ℕ) : Prop :=
  ∀ e ∈ m.merges.entries,
    m.merges.lookup (MergeForest.find (fun u => m.merges.lookup u) n e.1) = none

instance (m : Mirror) (n : ℕ) : Decidable (m.RootedWithin n) :=
  inferInstanceAs (Decidable (∀ e ∈ m.merges.entries, _))

variable {m : Mirror} {n : ℕ}

lemma RootedWithin.forest (h : m.RootedWithin n) :
    MergeForest.RootedWithin (fun u => m.merges.lookup u) n :=
  MergeForest.rootedWithin_of_edges fun a b hab =>
    h ⟨a, b⟩ (Table.lookup_eq_some_iff.mp hab)

lemma rootedWithin_of_forest (h : MergeForest.RootedWithin (fun u => m.merges.lookup u) n) :
    m.RootedWithin n := fun e _ => h e.1

lemma RootedWithin.mono (h : m.RootedWithin n) {k : ℕ} (hk : n ≤ k) : m.RootedWithin k :=
  rootedWithin_of_forest (h.forest.mono hk)

/-- A canonical uid was not merged away. -/
lemma RootedWithin.lookup_canonical (h : m.RootedWithin n) (hn : n ≤ 32) (uid : String) :
    m.merges.lookup (m.canonicalBookUid uid) = none := h.forest.mono hn uid

lemma canonical_of_root {uid : String} (h : m.merges.lookup uid = none) :
    m.canonicalBookUid uid = uid := MergeForest.find_of_root h 32

lemma RootedWithin.canonical_canonical (h : m.RootedWithin n) (hn : n ≤ 32) (uid : String) :
    m.canonicalBookUid (m.canonicalBookUid uid) = m.canonicalBookUid uid :=
  canonical_of_root (h.lookup_canonical hn uid)

/-- Whether a uid is live depends on the uid it resolves to. -/
lemma RootedWithin.forgotten_canonical (h : m.RootedWithin n) (hn : n ≤ 32) (uid : String) :
    m.forgottenReplacement (m.canonicalBookUid uid) = m.forgottenReplacement uid := by
  unfold forgottenReplacement
  rw [h.canonical_canonical hn]

/-- The uid an alias already has is the alias resolved. -/
lemma existingAlias_eq (m : Mirror) (contentHash : String) :
    m.existingAlias contentHash =
      (m.aliases.lookup contentHash).bind fun u =>
        match m.forgottenReplacement u with
        | some (some replacement) => some replacement
        | some none => none
        | none => some (m.canonicalBookUid u) := by
  unfold existingAlias
  cases m.aliases.lookup contentHash <;> rfl

lemma RootedWithin.existingAlias (h : m.RootedWithin n) (hn : n ≤ 32) (contentHash : String) :
    m.existingAlias contentHash = (m.aliases.lookup contentHash).bind m.resolveIdentity := by
  rw [existingAlias_eq]
  refine congrArg _ (funext fun u => ?_)
  exact congrArg (fun r : Option (Option String) =>
    match r with
    | some (some replacement) => some replacement
    | some none => none
    | none => some (m.canonicalBookUid u)) (h.forgotten_canonical hn u).symm

end Mirror

/-- Where a uid goes when `loser` is folded into `winner`. -/
def foldUid (loser winner uid : String) : String := if uid = loser then winner else uid

lemma foldUid_of_ne {loser winner uid : String} (h : uid ≠ loser) :
    foldUid loser winner uid = uid := if_neg h

@[simp] lemma foldUid_self (loser winner : String) : foldUid loser winner loser = winner :=
  if_pos rfl

lemma replaceUid_eq_map (loser winner : String) (uid : Option String) :
    Mirror.replaceUid loser winner uid = uid.map (foldUid loser winner) := by
  unfold Mirror.replaceUid foldUid
  cases uid with
  | none => rfl
  | some u =>
    by_cases h : u = loser <;> simp [h]

namespace Device

variable (jsonReal : ℚ → Value)

/-! ## Folding -/

/-- What folding the canonical live uid `l` into the canonical live uid `w` does to a device. -/
structure Folds (l w : String) (d d' : Device) : Prop where
  ne : l ≠ w
  loser : d.mirror.merges.lookup l = none
  winner : d.mirror.merges.lookup w = none
  liveLoser : d.mirror.forgottenReplacement l = none
  liveWinner : d.mirror.forgottenReplacement w = none
  mirror : d'.mirror = d.mirror.mergeBookRows l w
  catalog : ∃ c, Catalog.Folded l w d.catalog c ∧ Catalog.Frame c d'.catalog

/-- The branch of `merge_book_identity` past its guards folds. -/
lemma folds_of_live {d : Device} {l w : String} (hne : l ≠ w)
    (hloser : d.mirror.merges.lookup l = none) (hwinner : d.mirror.merges.lookup w = none)
    (hl : d.mirror.forgottenReplacement l = none) (hw : d.mirror.forgottenReplacement w = none) :
    Folds l w d ⟨d.mirror.mergeBookRows l w,
      ((d.catalog.mergeBook jsonReal l w).recomputePrimary jsonReal w).1⟩ where
  ne := hne
  loser := hloser
  winner := hwinner
  liveLoser := hl
  liveWinner := hw
  mirror := rfl
  catalog := by
    refine ⟨d.catalog.mergeBook jsonReal l w, Catalog.folded_mergeBook jsonReal _ _ _, ?_⟩
    dsimp only
    exact Catalog.frame_recomputePrimary jsonReal _ _

/-- **A merge does nothing, or folds one canonical uid into the other.** -/
theorem mergeBookIdentity_cases {d : Device} {n : ℕ} (hrooted : d.mirror.RootedWithin n)
    (hn : n ≤ 32) (loser winner : String) :
    (d.mergeBookIdentity jsonReal loser winner = (d, .ok ())) ∨
      Folds (d.mirror.canonicalBookUid loser) (d.mirror.canonicalBookUid winner) d
        (d.mergeBookIdentity jsonReal loser winner).1 := by
  unfold mergeBookIdentity
  dsimp only
  split_ifs with heq hforgotten
  · exact Or.inl rfl
  · exact Or.inl rfl
  · refine Or.inr (folds_of_live jsonReal heq (hrooted.lookup_canonical hn _)
      (hrooted.lookup_canonical hn _) ?_ ?_)
    · exact Option.not_isSome_iff_eq_none.mp fun h => hforgotten (Or.inr h)
    · exact Option.not_isSome_iff_eq_none.mp fun h => hforgotten (Or.inl h)

/-- A merge of two live uids that resolve apart folds one into the other. -/
lemma mergeBookIdentity_folds {d : Device} {n : ℕ} (hrooted : d.mirror.RootedWithin n)
    (hn : n ≤ 32) {loser winner : String}
    (hne : d.mirror.canonicalBookUid loser ≠ d.mirror.canonicalBookUid winner)
    (hl : d.mirror.forgottenReplacement loser = none)
    (hw : d.mirror.forgottenReplacement winner = none) :
    Folds (d.mirror.canonicalBookUid loser) (d.mirror.canonicalBookUid winner) d
      (d.mergeBookIdentity jsonReal loser winner).1 := by
  have hl' := (hrooted.forgotten_canonical hn loser).trans hl
  have hw' := (hrooted.forgotten_canonical hn winner).trans hw
  unfold mergeBookIdentity
  dsimp only
  rw [if_neg hne, if_neg (by rw [hl', hw']; simp)]
  exact folds_of_live jsonReal hne (hrooted.lookup_canonical hn _)
    (hrooted.lookup_canonical hn _) hl' hw'

namespace Folds

variable {l w : String} {d d' : Device}

lemma merges (h : Folds l w d d') : d'.mirror.merges = d.mirror.merges.insert l w := by
  rw [h.mirror]
  exact (Mirror.mergeBookRows_tables d.mirror l w).2.2.1

lemma bookTrash (h : Folds l w d d') : d'.mirror.bookTrash = d.mirror.bookTrash := by
  rw [h.mirror]
  exact (Mirror.mergeBookRows_tables d.mirror l w).2.2.2.2.1

lemma appliedOps (h : Folds l w d d') : d'.mirror.appliedOps = d.mirror.appliedOps := by
  rw [h.mirror]
  exact (Mirror.mergeBookRows_tables d.mirror l w).2.1

lemma lookup_aliases (h : Folds l w d d') (contentHash : String) :
    d'.mirror.aliases.lookup contentHash =
      (d.mirror.aliases.lookup contentHash).map (foldUid l w) := by
  rw [h.mirror, (Mirror.mergeBookRows_tables d.mirror l w).2.2.2.2.2.1, Table.lookup_mapRows]
  rfl

lemma lookup_bindings (h : Folds l w d d') (book : ℤ) :
    d'.mirror.bindings.lookup book = (d.mirror.bindings.lookup book).map fun b =>
      { b with bookUid := foldUid l w b.bookUid } := by
  rw [h.mirror, (Mirror.mergeBookRows_tables d.mirror l w).2.2.2.2.2.2, Table.lookup_mapRows]
  refine congrArg (Option.map · _) (funext fun b => ?_)
  unfold foldUid
  split <;> rfl

lemma fileUid (h : Folds l w d d') (file : ℤ) :
    d'.catalog.fileUid file = (d.catalog.fileUid file).map (foldUid l w) := by
  obtain ⟨c, hfold, hframe⟩ := h.catalog
  unfold Catalog.fileUid
  rw [hframe.files, hfold.files, Catalog.moveFiles]
  dsimp only
  rw [Table.lookup_mapRows]
  cases d.catalog.files.lookup file with
  | none => rfl
  | some f =>
    dsimp only [Option.map_some, Option.bind_some]
    rw [← replaceUid_eq_map, Mirror.replaceUid]
    split <;> rfl

lemma identity (h : Folds l w d d') (contentHash : String) :
    d'.catalog.dirty.lookup (.bookIdentity contentHash) =
      d.catalog.dirty.lookup (.bookIdentity contentHash) := by
  obtain ⟨c, hfold, hframe⟩ := h.catalog
  exact (hframe.identity contentHash).trans (hfold.identity contentHash)

lemma next_eq (h : Folds l w d d') :
    (fun u => d'.mirror.merges.lookup u) =
      MergeForest.link (fun u => d.mirror.merges.lookup u) l w := by
  funext u
  rw [h.merges, Table.lookup_insert']
  rfl

lemma rootedWithin (h : Folds l w d d') {n : ℕ} (hrooted : d.mirror.RootedWithin n) :
    d'.mirror.RootedWithin (n + 1) := by
  refine Mirror.rootedWithin_of_forest ?_
  rw [h.next_eq]
  exact MergeForest.rootedWithin_link h.loser h.winner h.ne hrooted.forest

/-- **How uids resolve after a fold.** -/
theorem canonical (h : Folds l w d d') {n : ℕ} (hrooted : d.mirror.RootedWithin n) (hn : n < 32)
    (uid : String) :
    d'.mirror.canonicalBookUid uid = foldUid l w (d.mirror.canonicalBookUid uid) := by
  have hroot := (h.rootedWithin hrooted).forest
  unfold Mirror.canonicalBookUid
  rw [hroot.find_eq (show n + 1 ≤ 32 by omega), hrooted.forest.find_eq hn.le, h.next_eq,
    MergeForest.find_link h.loser h.winner h.ne (hrooted.forest uid)]
  rfl

/-- A fold keeps the open trash entries of the uids it does not touch. -/
lemma forgottenReplacement (h : Folds l w d d') {n : ℕ} (hrooted : d.mirror.RootedWithin n)
    (hn : n < 32) (uid : String) :
    d'.mirror.forgottenReplacement uid = d.mirror.forgottenReplacement uid := by
  unfold Mirror.forgottenReplacement
  rw [h.bookTrash, h.canonical hrooted hn]
  by_cases hu : d.mirror.canonicalBookUid uid = l
  · have hl := h.liveLoser
    have hw := h.liveWinner
    unfold Mirror.forgottenReplacement at hl hw
    rw [Mirror.canonical_of_root h.loser] at hl
    rw [Mirror.canonical_of_root h.winner] at hw
    rw [hu, foldUid_self, hl, hw]
  · rw [foldUid_of_ne hu]

end Folds

/-! ## Binding -/

/-- The uid a binding takes is one of those it looked up, or the fresh one. -/
lemma chooseUid_ne {existing known current : Option String} {fresh : String} {P : String → Prop}
    (hexisting : ∀ c, existing = some c → P c) (hknown : ∀ c, known = some c → P c)
    (hcurrent : ∀ c, current = some c → P c) (hfresh : P fresh) :
    P (chooseUid existing known current fresh) := by
  cases existing with
  | none =>
    cases known with
    | none =>
      cases current with
      | none => exact hfresh
      | some current => exact hcurrent current rfl
    | some known => exact hknown known rfl
  | some existing =>
    cases known with
    | none => exact hexisting existing rfl
    | some known =>
      rcases min_choice existing known with heq | heq
      · rw [chooseUid, heq]
        exact hexisting existing rfl
      · rw [chooseUid, heq]
        exact hknown known rfl

/-- A record of its own is all that a bound file adds to the catalog. -/
lemma ensureBookRecord_eq (c : Catalog) (book : ℤ) (now : String) :
    ∃ records, c.ensureBookRecord book now = { c with records := records } := by
  unfold Catalog.ensureBookRecord
  split
  · split
    · split
      · exact ⟨c.records, rfl⟩
      · exact ⟨_, rfl⟩
    · exact ⟨c.records, rfl⟩
  · exact ⟨c.records, rfl⟩

lemma fileUid_recordBinding (d : Device) (book : ℤ) (b : BindingRow) (now : String) (i : ℤ) :
    (d.recordBinding book b now).catalog.fileUid i =
      if i = book then (d.catalog.files.lookup book).map fun _ => b.bookUid
      else d.catalog.fileUid i := by
  obtain ⟨records, heq⟩ := ensureBookRecord_eq (d.catalog.pointFile book b.bookUid) book now
  unfold recordBinding Catalog.fileUid
  rw [heq, Catalog.pointFile]
  dsimp only
  rw [Table.lookup_mapRows]
  split_ifs with hi
  · subst hi
    cases d.catalog.files.lookup i <;> rfl
  · simp

/-- The duplicates of a binding only open issues. -/
lemma recordDuplicateBindings_eq (d : Device) (uid : String) :
    ∃ issues, d.recordDuplicateBindings uid =
      { d with mirror := { d.mirror with issues := issues } } := by
  unfold recordDuplicateBindings
  generalize (d.boundFiles uid).tail = files
  dsimp only
  suffices ∀ m : Mirror, ∃ issues, files.foldl (fun m file =>
      m.recordIssue ("duplicate-book:" ++ uid ++ ":" ++ toString file) "duplicate_book") m =
        { m with issues := issues } by
    obtain ⟨issues, h⟩ := this d.mirror
    exact ⟨issues, by rw [h]⟩
  induction files with
  | nil => exact fun m => ⟨m.issues, rfl⟩
  | cons file files ih =>
    intro m
    obtain ⟨issues, h⟩ := ih (m.recordIssue _ _)
    refine ⟨issues, h.trans ?_⟩
    unfold Mirror.recordIssue
    split <;> rfl

/-! ## The mirror of a device -/

/-- A merge on a device re-keys its mirror as the mirror function does. -/
theorem mirror_mergeBookIdentity (d : Device) (loser winner : String) :
    (d.mergeBookIdentity jsonReal loser winner).1.mirror =
      d.mirror.mergeBookIdentity loser winner := by
  unfold mergeBookIdentity Mirror.mergeBookIdentity
  dsimp only
  split_ifs <;> rfl

/-- Unless recomputing metadata stops it, unifying an alias does to the mirror what the mirror
function does. -/
lemma mirror_unifyAlias {d : Device} {existing : Option String} {incoming canonical : String}
    (h : (d.unifyAlias jsonReal existing incoming).2 = .ok canonical) :
    ((d.unifyAlias jsonReal existing incoming).1.mirror, canonical) =
      d.mirror.unifyAlias existing incoming := by
  cases existing with
  | none =>
    cases h
    rfl
  | some existing =>
    have hmerge : ∀ (d : Device) (p : Prop) [Decidable p] (l w : String),
        (if p then d.mergeBookIdentity jsonReal l w else (d, .ok ())).1.mirror =
          if p then d.mirror.mergeBookIdentity l w else d.mirror := by
      intro d p _ l w
      split
      · exact mirror_mergeBookIdentity jsonReal d l w
      · rfl
    unfold unifyAlias Mirror.unifyAlias at *
    dsimp only at h ⊢
    obtain ⟨_, h₁, h⟩ := andThen_eq_ok.mp h
    obtain ⟨_, h₂, h⟩ := andThen_eq_ok.mp h
    cases h
    generalize hfirst : (if existing ≠ min existing incoming then
      d.mergeBookIdentity jsonReal existing (min existing incoming) else (d, .ok ())) = r₁ at *
    obtain ⟨d₁, r₁⟩ := r₁
    cases h₁
    rw [andThen_ok]
    generalize hsecond : (if min existing incoming ≠ incoming then
      d₁.mergeBookIdentity jsonReal incoming (min existing incoming) else (d₁, .ok ())) = r₂ at *
    obtain ⟨d₂, r₂⟩ := r₂
    cases h₂
    rw [andThen_ok]
    have h₁ := hmerge d (existing ≠ min existing incoming) existing (min existing incoming)
    have h₂ := hmerge d₁ (min existing incoming ≠ incoming) incoming (min existing incoming)
    rw [hfirst] at h₁
    rw [hsecond] at h₂
    rw [← h₁, ← h₂]

/-- The candidate that `apply_identity` computes is the resolved identity. -/
lemma applyIdentity_of_resolve {m : Mirror} {op : Op} {contentHash : String}
    (hhash : (op.fields.lookup "content_hash").bind Value.asStr = some contentHash) :
    m.applyIdentity op =
      match m.resolveIdentity op.entityUid with
      | none => (m, .ok [])
      | some incoming =>
        let u := m.unifyAlias (m.existingAlias contentHash) incoming
        ({ u.1 with aliases := u.1.aliases.insert contentHash u.2 },
          .ok [⟨.bookIdentity, u.2, some u.2⟩]) := by
  unfold Mirror.applyIdentity Mirror.resolveIdentity
  generalize (op.fields.lookup "content_hash").bind Value.asStr = r at hhash ⊢
  subst hhash
  cases m.forgottenReplacement (m.canonicalBookUid op.entityUid) with
  | none => rfl
  | some replacement => cases replacement <;> rfl

lemma mirror_applyIdentity {d : Device} {op : Op} {affected : List Affected}
    (h : (d.applyIdentity jsonReal op).2 = .ok affected) :
    (d.applyIdentity jsonReal op).1.mirror = (d.mirror.applyIdentity op).1 ∧
      (d.mirror.applyIdentity op).2 = .ok affected := by
  unfold applyIdentity at h ⊢
  cases hhash : (op.fields.lookup "content_hash").bind Value.asStr with
  | none =>
    rw [hhash] at h
    cases h
  | some contentHash =>
    rw [applyIdentity_of_resolve hhash]
    rw [hhash] at h
    dsimp only at h ⊢
    cases hresolve : d.mirror.resolveIdentity op.entityUid with
    | none =>
      rw [hresolve] at h
      exact ⟨rfl, h⟩
    | some incoming =>
      rw [hresolve] at h
      dsimp only at h ⊢
      obtain ⟨canonical, hok, h⟩ := andThen_eq_ok.mp h
      have hmirror := mirror_unifyAlias jsonReal hok
      generalize d.unifyAlias jsonReal (d.mirror.existingAlias contentHash) incoming = r at *
      obtain ⟨d', r⟩ := r
      dsimp only at hok hmirror h ⊢
      rw [hok, andThen_ok, ← hmirror]
      exact ⟨rfl, h⟩

/-- **On its mirror a device applies an operation as the mirror function does**, unless
recomputing metadata stops it. -/
theorem mirror_applyOp (fromStr : String → Option Value) {d : Device} {op : Op}
    {affected : List Affected} (h : (d.applyOp jsonReal fromStr op).2 = .ok affected) :
    (d.applyOp jsonReal fromStr op).1.mirror = (d.mirror.applyOp fromStr op).1 := by
  unfold applyOp at h ⊢
  split_ifs at h ⊢ with happlied hkind
  · rw [Mirror.applyOp, if_pos happlied]
  · obtain ⟨affected, hok, h⟩ := andThen_eq_ok.mp h
    obtain ⟨hmirror, hresult⟩ := mirror_applyIdentity jsonReal hok
    rw [Mirror.applyOp, if_neg happlied]
    dsimp only at hmirror hresult ⊢
    rw [if_pos hkind]
    generalize applyIdentity jsonReal { d with mirror := d.mirror.observeHlc op.hlc } op = r at *
    obtain ⟨d', r⟩ := r
    dsimp only at hok hmirror ⊢
    rw [hok, andThen_ok, hmirror]
    generalize (d.mirror.observeHlc op.hlc).applyIdentity op = r' at *
    obtain ⟨m', r'⟩ := r'
    dsimp only at hresult
    rw [hresult]
  · rfl

end Device

end TuxBooks
