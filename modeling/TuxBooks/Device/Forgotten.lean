import TuxBooks.Device.Recorded
import TuxBooks.Sync.Alias

set_option relaxedAutoImplicit false
set_option autoImplicit false

/-!
# Forgotten identities stay dead

What a sequence of identity operations, hash bindings and state operations can do to a book uid
that was forgotten. Every path that could bring it back looks a uid up first: as long as no
lookup of a step resolves to the forgotten uid, nothing starts to resolve to it and its mirror
rows stay its own.

## Main definitions

* `TuxBooks.Device.Event`, `TuxBooks.Device.perform`, `TuxBooks.Device.run` — sequences of
  operations received and files bound.
* `TuxBooks.Device.Spares` — the step looks up nothing that resolves to `u`.
* `TuxBooks.Device.Untouched` — nothing came to resolve to `u`, and its rows stayed.

## Main results

* `TuxBooks.Device.forgotten_stays_dead` — a run whose steps spare `u` leaves it untouched.
* `TuxBooks.Device.avoids_of_open` — while its trash entry is open, a uid is looked up only as the
  replacement of another forgotten one.
-/

namespace TuxBooks

open Fallible

namespace Device

/-! ## Runs -/

/-- What a device does after a Forget: receive an operation, or bind a file to its hash. -/
inductive Event where
  | receive (op : Op)
  | bind (book : ℤ) (contentHash : String) (size mtime : ℤ) (fresh now : String)

/-- A discard: the trash entry is closed and the old identity stays forgotten. -/
def IsDiscard (op : Op) : Prop :=
  op.kind = .book ∧ op.deleted = false ∧
    (op.fields.lookup "discarded").bind Value.asBool = some true

instance (op : Op) : Decidable (IsDiscard op) := inferInstanceAs (Decidable (_ ∧ _ ∧ _))

section

variable (jsonReal : ℚ → Value) (fromStr : String → Option Value)

/-- One step. A failed step keeps what it wrote. -/
def perform (d : Device) : Event → Device
  | .receive op => (d.applyOp jsonReal fromStr op).1
  | .bind book contentHash size mtime fresh now =>
    (d.bindHash jsonReal book contentHash size mtime fresh now).1

def run (d : Device) (events : List Event) : Device :=
  events.foldl (perform jsonReal fromStr) d

end

/-! ## The condition on a step -/

/-- A uid that a step looks up resolves to no uid that stands for `u`. -/
def Avoids (m : Mirror) (u uid : String) : Prop :=
  (m.resolveIdentity uid).all fun c => m.canonicalBookUid c ≠ u

instance (m : Mirror) (u uid : String) : Decidable (Avoids m u uid) :=
  inferInstanceAs (Decidable (_ = true))

/-- No step of identity merging starts from a chain of more than 30 hops, or from a row of `u`
that is keyed by another book. -/
def Tidy (m : Mirror) (u : String) : Prop := m.RootedWithin 30 ∧ m.KeyedUnder u

instance (m : Mirror) (u : String) : Decidable (Tidy m u) :=
  inferInstanceAs (Decidable (_ ∧ _))

/-- The step looks up no uid that resolves to `u`: an identity operation its own uid and the
alias of its hash, a binding the alias, the file's binding, its row and the fresh uid. A state
operation names no other book for a row of `u`; a whole-book operation is a discard of `u`. -/
def Spares (d : Device) (u : String) : Event → Prop
  | .receive op =>
    if op.kind = .bookIdentity then
      Tidy d.mirror u ∧ Avoids d.mirror u op.entityUid ∧
        ((op.fields.lookup "content_hash").bind Value.asStr).all fun contentHash =>
          (d.mirror.aliases.lookup contentHash).all fun uid => Avoids d.mirror u uid
    else if op.kind = .book then IsDiscard op ∧ d.mirror.canonicalBookUid op.entityUid = u
    else
      (d.mirror.stateKey op).toOption.all fun key => d.mirror.bookOf (op.kind, key) = some u →
        op.bookUid.all fun uid => d.mirror.canonicalBookUid uid = u
  | .bind book contentHash _ _ fresh _ =>
    Tidy d.mirror u ∧ d.mirror.canonicalBookUid fresh ≠ u ∧
      ((d.mirror.aliases.lookup contentHash).all fun uid => Avoids d.mirror u uid) ∧
      ((d.mirror.bindings.lookup book).all fun b => Avoids d.mirror u b.bookUid) ∧
      (d.catalog.fileUid book).all fun uid => Avoids d.mirror u uid

instance (d : Device) (u : String) : ∀ ev, Decidable (Spares d u ev)
  | .receive _ => by
    dsimp only [Spares]
    infer_instance
  | .bind .. => inferInstanceAs (Decidable (_ ∧ _ ∧ _ ∧ _ ∧ _))

/-- Every step of a run spares `u`, in the state it starts from. -/
def SparesAll (jsonReal : ℚ → Value) (fromStr : String → Option Value) (u : String) :
    Device → List Event → Prop
  | _, [] => True
  | d, ev :: events =>
    Spares d u ev ∧ SparesAll jsonReal fromStr u (perform jsonReal fromStr d ev) events

instance (jsonReal : ℚ → Value) (fromStr : String → Option Value) (u : String) :
    ∀ d events, Decidable (SparesAll jsonReal fromStr u d events)
  | _, [] => inferInstanceAs (Decidable True)
  | d, ev :: events =>
    have : Decidable (SparesAll jsonReal fromStr u (perform jsonReal fromStr d ev) events) :=
      instDecidableSparesAll jsonReal fromStr u _ events
    inferInstanceAs (Decidable (_ ∧ _))

/-! ## Untouched identities -/

/-- From `d₀` to `d`, nothing came to resolve to `u`: no uid was merged into it or out of it, no
alias, binding or file row points at it that did not before, and every mirror row recorded under
it still is. -/
structure Untouched (u : String) (d₀ d : Device) : Prop where
  merged : ∀ uid, d.mirror.canonicalBookUid uid = u ↔ d₀.mirror.canonicalBookUid uid = u
  hash : ∀ h uid, d.mirror.aliases.lookup h = some uid → d.mirror.canonicalBookUid uid = u →
    ∃ uid₀, d₀.mirror.aliases.lookup h = some uid₀ ∧ d₀.mirror.canonicalBookUid uid₀ = u
  binding : ∀ i b, d.mirror.bindings.lookup i = some b → d.mirror.canonicalBookUid b.bookUid = u →
    ∃ b₀, d₀.mirror.bindings.lookup i = some b₀ ∧ d₀.mirror.canonicalBookUid b₀.bookUid = u
  file : ∀ i uid, d.catalog.fileUid i = some uid → d.mirror.canonicalBookUid uid = u →
    ∃ uid₀, d₀.catalog.fileUid i = some uid₀ ∧ d₀.mirror.canonicalBookUid uid₀ = u
  row : ∀ k, d₀.mirror.bookOf k = some u → d.mirror.bookOf k = some u

namespace Untouched

variable {u : String} {d₀ d₁ d₂ : Device}

lemma refl (u : String) (d : Device) : Untouched u d d where
  merged _ := Iff.rfl
  hash _ uid h hu := ⟨uid, h, hu⟩
  binding _ b h hu := ⟨b, h, hu⟩
  file _ uid h hu := ⟨uid, h, hu⟩
  row _ h := h

lemma trans (h : Untouched u d₀ d₁) (h' : Untouched u d₁ d₂) : Untouched u d₀ d₂ where
  merged uid := (h'.merged uid).trans (h.merged uid)
  hash k uid hk hu := by
    obtain ⟨uid₁, h₁, hu₁⟩ := h'.hash k uid hk hu
    exact h.hash k uid₁ h₁ hu₁
  binding i b hb hu := by
    obtain ⟨b₁, h₁, hu₁⟩ := h'.binding i b hb hu
    exact h.binding i b₁ h₁ hu₁
  file i uid hi hu := by
    obtain ⟨uid₁, h₁, hu₁⟩ := h'.file i uid hi hu
    exact h.file i uid₁ h₁ hu₁
  row k hk := h'.row k (h.row k hk)

/-- Only tables that identities do not use differ. -/
lemma of_eq (hmerges : d₁.mirror.merges = d₀.mirror.merges)
    (haliases : d₁.mirror.aliases = d₀.mirror.aliases)
    (hbindings : d₁.mirror.bindings = d₀.mirror.bindings)
    (hfiles : d₁.catalog.files = d₀.catalog.files)
    (hrow : ∀ k, d₀.mirror.bookOf k = some u → d₁.mirror.bookOf k = some u) :
    Untouched u d₀ d₁ := by
  have hcanonical : ∀ uid, d₁.mirror.canonicalBookUid uid = d₀.mirror.canonicalBookUid uid := by
    intro uid
    unfold Mirror.canonicalBookUid
    rw [hmerges]
  have hfile : ∀ i, d₁.catalog.fileUid i = d₀.catalog.fileUid i := by
    intro i
    unfold Catalog.fileUid
    rw [hfiles]
  refine ⟨fun uid => by rw [hcanonical], fun h uid hk hu => ⟨uid, haliases ▸ hk, ?_⟩,
    fun i b hb hu => ⟨b, hbindings ▸ hb, ?_⟩, fun i uid hi hu => ⟨uid, hfile i ▸ hi, ?_⟩, hrow⟩
  · rwa [← hcanonical]
  · rwa [← hcanonical]
  · rwa [← hcanonical]

end Untouched

/-- An untouched identity on a device that is ready for another merge. -/
structure Safe (u : String) (n : ℕ) (d₀ d : Device) : Prop where
  untouched : Untouched u d₀ d
  rooted : d.mirror.RootedWithin n
  keyed : d.mirror.KeyedUnder u

namespace Safe

variable {u : String} {n : ℕ} {d₀ d : Device} (jsonReal : ℚ → Value)

lemma mono (h : Safe u n d₀ d) {k : ℕ} (hk : n ≤ k) : Safe u k d₀ d :=
  ⟨h.untouched, h.rooted.mono hk, h.keyed⟩

/-- Folding two uids other than `u` leaves it untouched. -/
lemma fold (h : Safe u n d₀ d) (hn : n < 32) {l w : String} {d' : Device} (hfold : Folds l w d d')
    (hl : l ≠ u) (hw : w ≠ u) : Safe u (n + 1) d₀ d' := by
  have hmerged : ∀ uid, foldUid l w uid = u ↔ uid = u := by
    intro uid
    unfold foldUid
    split_ifs with huid
    · exact iff_of_false hw fun hu => hl (huid.symm.trans hu)
    · rfl
  have hcanonical : ∀ uid, d'.mirror.canonicalBookUid uid = u ↔
      d.mirror.canonicalBookUid uid = u := by
    intro uid
    rw [hfold.canonical h.rooted hn, hmerged]
  have hback : ∀ uid, d'.mirror.canonicalBookUid (foldUid l w uid) = u →
      d.mirror.canonicalBookUid uid = u := by
    intro uid hu
    rw [hcanonical] at hu
    by_cases huid : uid = l
    · rw [huid, foldUid_self, Mirror.canonical_of_root hfold.winner] at hu
      exact absurd hu hw
    · rwa [foldUid_of_ne huid] at hu
  have hrow : ∀ k, d'.mirror.bookOf k = some u ↔ d.mirror.bookOf k = some u := by
    intro k
    rw [hfold.mirror]
    exact Mirror.bookOf_mergeBookRows h.keyed hfold.ne hl hw
      (Mirror.canonical_of_root hfold.loser) (Mirror.canonical_of_root hfold.winner) k
  refine ⟨h.untouched.trans ⟨hcanonical, fun k uid hk hu => ?_, fun i b hb hu => ?_,
    fun i uid hi hu => ?_, fun k hk => (hrow k).mpr hk⟩, hfold.rootedWithin h.rooted,
    h.keyed.of_bookOf (fun k hk => (hrow k).mp hk) fun x hx => (hcanonical x).mpr hx⟩
  · rw [hfold.lookup_aliases] at hk
    obtain ⟨uid₀, h₀, rfl⟩ := Option.map_eq_some_iff.mp hk
    exact ⟨uid₀, h₀, hback uid₀ hu⟩
  · rw [hfold.lookup_bindings] at hb
    obtain ⟨b₀, h₀, rfl⟩ := Option.map_eq_some_iff.mp hb
    exact ⟨b₀, h₀, hback b₀.bookUid hu⟩
  · rw [hfold.fileUid] at hi
    obtain ⟨uid₀, h₀, rfl⟩ := Option.map_eq_some_iff.mp hi
    exact ⟨uid₀, h₀, hback uid₀ hu⟩

/-- Merging two uids that do not stand for `u` leaves it untouched. -/
lemma merge (h : Safe u n d₀ d) (hn : n < 32) {loser winner : String}
    (hl : d₀.mirror.canonicalBookUid loser ≠ u) (hw : d₀.mirror.canonicalBookUid winner ≠ u) :
    Safe u (n + 1) d₀ (d.mergeBookIdentity jsonReal loser winner).1 := by
  rcases mergeBookIdentity_cases jsonReal h.rooted hn.le loser winner with heq | hfold
  · rw [heq]
    exact h.mono (by omega)
  · refine h.fold hn hfold ?_ ?_
    · rwa [Ne, h.untouched.merged]
    · rwa [Ne, h.untouched.merged]

/-- Pointing a hash at a uid that does not stand for `u`. -/
lemma setAlias (h : Safe u n d₀ d) (contentHash : String) {uid : String}
    (huid : d₀.mirror.canonicalBookUid uid ≠ u) : Safe u n d₀ (d.setAlias contentHash uid) := by
  refine ⟨h.untouched.trans ⟨fun _ => Iff.rfl, fun k uid' hk hu => ?_, fun _ b hb hu => ⟨b, hb, hu⟩,
    fun _ uid' hi hu => ⟨uid', hi, hu⟩, fun _ hk => hk⟩, h.rooted, h.keyed⟩
  replace hk : (d.mirror.aliases.insert contentHash uid).lookup k = some uid' := hk
  rw [Table.lookup_insert'] at hk
  split at hk
  · cases hk
    exact absurd ((h.untouched.merged uid).mp hu) huid
  · exact ⟨uid', hk, hu⟩

end Safe

/-! ## Steps -/

section Steps

variable {u : String} {d : Device} (jsonReal : ℚ → Value) (fromStr : String → Option Value)

lemma Safe.start (h : Tidy d.mirror u) : Safe u 30 d d := ⟨.refl u d, h.1, h.2⟩

/-- The two merges of an identity operation. -/
lemma safe_unifyAlias {d₀ : Device} (h : Safe u 30 d₀ d) {existing : Option String}
    {incoming : String} (hexisting : ∀ uid, existing = some uid →
      d₀.mirror.canonicalBookUid uid ≠ u) (hincoming : d₀.mirror.canonicalBookUid incoming ≠ u) :
    Safe u 32 d₀ (d.unifyAlias jsonReal existing incoming).1 ∧
      ∀ canonical, (d.unifyAlias jsonReal existing incoming).2 = .ok canonical →
        d₀.mirror.canonicalBookUid canonical ≠ u := by
  unfold unifyAlias
  cases existing with
  | none =>
    refine ⟨h.mono (by omega), fun canonical hok => ?_⟩
    cases hok
    exact hincoming
  | some existing =>
    have hmin : d₀.mirror.canonicalBookUid (min existing incoming) ≠ u := by
      rcases min_choice existing incoming with heq | heq
      · rw [heq]
        exact hexisting existing rfl
      · rw [heq]
        exact hincoming
    dsimp only
    constructor
    · refine andThen_post (P := Safe u 31 d₀) ?_ (fun _ hs => hs.mono (by omega)) fun s _ hs =>
        andThen_post (P := Safe u 32 d₀) ?_ (fun _ hs => hs) fun _ _ hs => hs
      · split
        · exact h.merge jsonReal (by omega) (hexisting existing rfl) hmin
        · exact h.mono (by omega)
      · split
        · exact hs.merge jsonReal (by omega) hincoming hmin
        · exact hs.mono (by omega)
    · intro canonical hok
      obtain ⟨_, -, hok⟩ := andThen_eq_ok.mp hok
      obtain ⟨_, -, hok⟩ := andThen_eq_ok.mp hok
      cases hok
      exact hmin

lemma Avoids.canonical_ne {m : Mirror} {uid c : String} (h : Avoids m u uid)
    (hc : m.resolveIdentity uid = some c) : m.canonicalBookUid c ≠ u := by
  unfold Avoids at h
  rw [hc] at h
  simpa using h

/-- What a step looks up in a nullable column avoids `u`. -/
lemma canonical_ne_of_all {m : Mirror} {uid : Option String} {c : String}
    (h : uid.all (fun uid => Avoids m u uid) = true) (hc : uid.bind m.resolveIdentity = some c) :
    m.canonicalBookUid c ≠ u := by
  obtain ⟨uid', rfl, hc⟩ := Option.bind_eq_some_iff.mp hc
  exact Avoids.canonical_ne (by simpa using h) hc

/-- An identity operation that looks up nothing that resolves to `u` spares it. -/
lemma untouched_applyIdentity {op : Op} (htidy : Tidy d.mirror u)
    (hentity : Avoids d.mirror u op.entityUid)
    (halias : ((op.fields.lookup "content_hash").bind Value.asStr).all fun contentHash =>
      (d.mirror.aliases.lookup contentHash).all fun uid => Avoids d.mirror u uid) :
    Untouched u d (d.applyIdentity jsonReal op).1 := by
  unfold applyIdentity
  cases hhash : (op.fields.lookup "content_hash").bind Value.asStr with
  | none => exact .refl u d
  | some contentHash =>
    rw [hhash] at halias
    dsimp only [Option.all_some] at halias ⊢
    cases hresolve : d.mirror.resolveIdentity op.entityUid with
    | none => exact .refl u d
    | some incoming =>
      dsimp only
      rw [htidy.1.existingAlias (by omega)]
      obtain ⟨hsafe, hcanonical⟩ := safe_unifyAlias jsonReal (Safe.start htidy)
        (fun _ hc => canonical_ne_of_all halias hc) (hentity.canonical_ne hresolve)
      generalize hr : d.unifyAlias jsonReal
        ((d.mirror.aliases.lookup contentHash).bind d.mirror.resolveIdentity) incoming = r at *
      obtain ⟨d', _ | canonical⟩ := r
      · exact hsafe.untouched
      · exact (hsafe.setAlias contentHash (hcanonical canonical rfl)).untouched

/-- A uid that a binding may merge does not stand for `u`. -/
lemma Safe.mergeIf {d₀ : Device} {n : ℕ} (h : Safe u n d₀ d) (hn : n < 32) (p : Prop) [Decidable p]
    {loser winner : String} (hl : d₀.mirror.canonicalBookUid loser ≠ u)
    (hw : d₀.mirror.canonicalBookUid winner ≠ u) :
    Safe u (n + 1) d₀ (if p then d.mergeBookIdentity jsonReal loser winner else (d, .ok ())).1 := by
  split
  · exact h.merge jsonReal hn hl hw
  · exact h.mono (by omega)

lemma safe_foldCurrent {d₀ : Device} (h : Safe u 30 d₀ d) {current : Option String} {uid : String}
    (hcurrent : ∀ c, current = some c → d₀.mirror.canonicalBookUid c ≠ u)
    (huid : d₀.mirror.canonicalBookUid uid ≠ u) :
    Safe u 31 d₀ (d.foldCurrent jsonReal current uid).1 := by
  cases current with
  | none => exact h.mono (by omega)
  | some current =>
    refine h.mergeIf jsonReal (by omega) _ ?_ huid
    rw [Ne, ← h.untouched.merged, h.rooted.canonical_canonical (by omega), h.untouched.merged]
    exact hcurrent current rfl

lemma safe_foldKnown {d₀ : Device} (h : Safe u 31 d₀ d) {existing known : Option String}
    {uid : String} (hexisting : ∀ c, existing = some c → d₀.mirror.canonicalBookUid c ≠ u)
    (hknown : ∀ c, known = some c → d₀.mirror.canonicalBookUid c ≠ u)
    (huid : d₀.mirror.canonicalBookUid uid ≠ u) :
    Safe u 32 d₀ (d.foldKnown jsonReal existing known uid).1 := by
  cases existing with
  | none =>
    cases known with
    | none => exact h.mono (by omega)
    | some known => exact h.mergeIf jsonReal (by omega) _ (hknown known rfl) huid
  | some existing =>
    cases known with
    | none => exact h.mergeIf jsonReal (by omega) _ (hexisting existing rfl) huid
    | some known =>
      unfold foldKnown
      dsimp only
      split_ifs with hne hlt
      · exact h.merge jsonReal (by omega) (hknown known rfl) (hexisting existing rfl)
      · exact h.merge jsonReal (by omega) (hexisting existing rfl) (hknown known rfl)
      · exact h.mono (by omega)

/-- Binding a file to a uid that does not stand for `u`. -/
lemma Safe.recordBinding {d₀ : Device} {n : ℕ} (h : Safe u n d₀ d) (book : ℤ) {b : BindingRow}
    (now : String) (hb : d₀.mirror.canonicalBookUid b.bookUid ≠ u) :
    Untouched u d₀ (d.recordBinding book b now) := by
  have hb' : d.mirror.canonicalBookUid b.bookUid ≠ u := by rwa [Ne, h.untouched.merged]
  refine h.untouched.trans ⟨fun _ => Iff.rfl, fun _ uid hk hu => ⟨uid, hk, hu⟩,
    fun i b' hi hu => ?_, fun i uid hi hu => ?_, fun _ hk => hk⟩
  · replace hi : (d.mirror.bindings.insert book b).lookup i = some b' := hi
    rw [Table.lookup_insert'] at hi
    split_ifs at hi with heq
    · cases hi
      exact absurd hu hb'
    · exact ⟨b', hi, hu⟩
  · rw [fileUid_recordBinding] at hi
    split_ifs at hi with heq
    · obtain ⟨_, -, rfl⟩ := Option.map_eq_some_iff.mp hi
      exact absurd hu hb'
    · exact ⟨uid, hi, hu⟩

/-- A binding that looks up nothing that resolves to `u` spares it. -/
lemma untouched_bindHash {book : ℤ} {contentHash : String} {size mtime : ℤ} {fresh now : String}
    (htidy : Tidy d.mirror u) (hfresh : d.mirror.canonicalBookUid fresh ≠ u)
    (halias : (d.mirror.aliases.lookup contentHash).all fun uid => Avoids d.mirror u uid)
    (hbinding : (d.mirror.bindings.lookup book).all fun b => Avoids d.mirror u b.bookUid)
    (hfile : (d.catalog.fileUid book).all fun uid => Avoids d.mirror u uid) :
    Untouched u d (d.bindHash jsonReal book contentHash size mtime fresh now).1 := by
  have hexisting : ∀ c, ((d.mirror.bindings.lookup book).bind fun b =>
      d.mirror.resolveIdentity b.bookUid) = some c → d.mirror.canonicalBookUid c ≠ u := by
    intro c hc
    obtain ⟨b, hb, hc⟩ := Option.bind_eq_some_iff.mp hc
    rw [hb] at hbinding
    exact Avoids.canonical_ne (by simpa using hbinding) hc
  have hknown : ∀ c, (d.mirror.aliases.lookup contentHash).bind d.mirror.resolveIdentity = some c →
      d.mirror.canonicalBookUid c ≠ u := fun _ => canonical_ne_of_all halias
  have hcurrent : ∀ c, (d.catalog.fileUid book).bind d.mirror.resolveIdentity = some c →
      d.mirror.canonicalBookUid c ≠ u := fun _ => canonical_ne_of_all hfile
  have huid := chooseUid_ne (P := fun c => d.mirror.canonicalBookUid c ≠ u) hexisting hknown
    hcurrent hfresh
  unfold bindHash
  dsimp only
  refine andThen_post (P := Safe u 31 d) (safe_foldCurrent jsonReal (Safe.start htidy)
    hcurrent huid)
    (fun _ h => h.untouched) fun d₁ _ h₁ => andThen_post (P := Safe u 32 d)
    (safe_foldKnown jsonReal h₁ hexisting hknown huid) (fun _ h => h.untouched) fun d₂ _ h₂ => ?_
  have h₃ := h₂.setAlias contentHash huid
  split
  · exact h₃.untouched
  · have h₄ := h₃.recordBinding book (b := ⟨_, contentHash, size, mtime⟩) now huid
    obtain ⟨issues, heq⟩ := recordDuplicateBindings_eq
      ((d₂.setAlias contentHash _).recordBinding book ⟨_, contentHash, size, mtime⟩ now) _
    split
    · rw [heq]
      exact h₄.trans (.of_eq rfl rfl rfl rfl fun _ hk => hk)
    · rw [heq]
      exact h₄.trans (.of_eq rfl rfl rfl rfl fun _ hk => hk)

/-- A discard only closes the trash entry. -/
lemma untouched_discard {op : Op} (hdiscard : IsDiscard op)
    (hentity : d.mirror.canonicalBookUid op.entityUid = u) :
    Untouched u d (d.applyOp jsonReal fromStr op).1 := by
  obtain ⟨hkind, hdeleted, hfield⟩ := hdiscard
  have hrestore : ∀ m : Mirror, Untouched u ⟨m, d.catalog⟩
      ⟨(m.restoreBook fromStr op u).markApplied op, d.catalog⟩ := by
    intro m
    unfold Mirror.restoreBook
    simp only [hfield, Option.getD_some, Bool.true_or, Bool.not_true, Bool.false_and, if_true,
      Bool.false_eq_true, if_false]
    refine .of_eq rfl rfl rfl rfl fun k hk => ?_
    change ((m.entities.insert (.book, u) _).lookup k).bind (·.bookUid) = some u
    rw [Table.lookup_insert']
    split_ifs
    · rfl
    · exact hk
  by_cases happlied : op.opId ∈ d.mirror.appliedOps
  · rw [applyOp, if_pos happlied]
    exact .refl u d
  · have hop : (d.applyOp jsonReal fromStr op).1 =
        ⟨((d.mirror.observeHlc op.hlc).applyBook fromStr op).1.markApplied op, d.catalog⟩ := by
      have hidentity : op.kind ≠ .bookIdentity := by
        rw [hkind]
        decide
      unfold applyOp Mirror.applyOp
      rw [if_neg happlied, if_neg hidentity, if_neg happlied]
      dsimp only
      rw [if_neg hidentity, if_pos hkind]
    have hobserve : Untouched u d ⟨d.mirror.observeHlc op.hlc, d.catalog⟩ :=
      .of_eq rfl rfl rfl rfl fun _ hk => hk
    have hbook : (d.mirror.observeHlc op.hlc).canonicalBookUid op.entityUid = u := hentity
    rw [hop]
    refine hobserve.trans ?_
    unfold Mirror.applyBook
    rw [hbook, hdeleted]
    dsimp only
    cases (d.mirror.observeHlc op.hlc).bookTrash.lookup u with
    | none => exact hrestore _
    | some existing =>
      dsimp only
      split_ifs
      · exact .of_eq rfl rfl rfl rfl fun _ hk => hk
      · exact .of_eq rfl rfl rfl rfl fun _ hk => hk
      · exact hrestore _

/-- **A step that spares an identity leaves it untouched.** -/
theorem untouched_perform {ev : Event} (h : Spares d u ev) :
    Untouched u d (perform jsonReal fromStr d ev) := by
  cases ev with
  | bind book contentHash size mtime fresh now =>
    obtain ⟨htidy, hfresh, halias, hbinding, hfile⟩ := h
    exact untouched_bindHash jsonReal htidy hfresh halias hbinding hfile
  | receive op =>
    unfold Spares at h
    dsimp only at h
    change Untouched u d (d.applyOp jsonReal fromStr op).1
    split_ifs at h with hidentity hbook
    · obtain ⟨htidy, hentity, halias⟩ := h
      unfold applyOp
      split_ifs
      · exact .refl u d
      · have hobserve : Untouched u d ⟨d.mirror.observeHlc op.hlc, d.catalog⟩ :=
          .of_eq rfl rfl rfl rfl fun _ hk => hk
        refine andThen_post (P := Untouched u d) ?_ (fun _ hs => hs) fun d' affected hs => ?_
        · exact hobserve.trans (untouched_applyIdentity jsonReal htidy hentity halias)
        · exact hs.trans (.of_eq rfl rfl rfl rfl fun _ hk => hk)
    · exact untouched_discard jsonReal fromStr h.1 h.2
    · have hkeeps := Mirror.keepsIdentity_applyOp (m := d.mirror) fromStr ⟨hidentity, hbook⟩
      unfold applyOp
      split_ifs
      · exact .refl u d
      · refine .of_eq hkeeps.merges hkeeps.aliases hkeeps.bindings rfl fun k hk => ?_
        refine Mirror.bookOf_applyOp fromStr ⟨hidentity, hbook⟩ (fun key hkey hrow uid huid => ?_)
          k hk
        rw [hkey] at h
        simp only [Except.toOption, Option.all_some, decide_eq_true_eq] at h
        have hall := h hrow
        rw [huid] at hall
        simpa using hall

end Steps

section Main

variable (jsonReal : ℚ → Value) (fromStr : String → Option Value)

/-- **A forgotten identity stays dead**: a run whose steps look up nothing that resolves to it
makes no alias, hash or identity resolve to it and keeps its mirror rows. -/
theorem forgotten_stays_dead (u : String) (d₀ : Device) (events : List Event)
    (h : SparesAll jsonReal fromStr u d₀ events) :
    Untouched u d₀ (run jsonReal fromStr d₀ events) := by
  induction events generalizing d₀ with
  | nil => exact .refl u d₀
  | cons ev events ih =>
    obtain ⟨hstep, hrest⟩ := h
    exact (untouched_perform jsonReal fromStr hstep).trans (ih _ hrest)

end Main

/-! ## Sample runs -/

/-- The whole book `a` is forgotten. -/
def sampleForget : Op :=
  { sampleOp .book 2 "22222222222222222222222222222222" true false ∅ with
    entityUid := "a"
    bookUid := some "a" }

/-- The trash entry of `a` is closed and `a` stays forgotten. -/
def sampleDiscard : Op :=
  { sampleOp .book 3 "33333333333333333333333333333333" false false
      ((∅ : Fields).insert "discarded" (.bool true)) with
    entityUid := "a"
    bookUid := some "a" }

/-- A device on which the book `a` was forgotten. -/
def sampleForgotten : Device :=
  run (fun _ => .null) (fun _ => none) {} [.receive sampleForget]

/-- A link of the forgotten uid that arrives before the discard is dropped. -/
theorem forgotten_stays_dead_sample :
    Untouched "a" sampleForgotten (run (fun _ => .null) (fun _ => none) sampleForgotten
      [.receive sampleLinkA, .receive sampleDiscard, .receive sampleLinkB,
        .bind 7 "ffffffffffffffffffffffffffffffff00000000000000000000000000000000" 10 20 "c"
          "2026-01-01T00:00:00.000Z"]) :=
  forgotten_stays_dead (fun _ => .null) (fun _ => none) "a" _ _ (by decide)

/-- A link of the forgotten uid that arrives after the discard merges the live book of the same
bytes into it. -/
theorem forgotten_revived :
    let d := run (fun _ => .null) (fun _ => none) sampleForgotten
      [.receive sampleDiscard, .receive sampleLinkB, .receive sampleLinkA]
    (∀ op ∈ [sampleForget, sampleDiscard, sampleLinkB, sampleLinkA], validateOp op = .ok ()) ∧
      sampleForgotten.mirror.forgottenReplacement "a" = some none ∧
      d.mirror.canonicalBookUid "b" = "a" ∧ d.mirror.aliases.lookup
        "00000000000000000000000000000000ffffffffffffffffffffffffffffffff" = some "a" ∧
      ¬Untouched "a" sampleForgotten d := by
  have hmerged : (run (fun _ => .null) (fun _ => none) sampleForgotten
      [.receive sampleDiscard, .receive sampleLinkB,
        .receive sampleLinkA]).mirror.canonicalBookUid "b" = "a" := by decide
  refine ⟨by decide, by decide, hmerged, by decide, fun h => ?_⟩
  exact absurd ((h.merged "b").mp hmerged) (by decide)

/-- While a trash entry is open, no lookup reaches its uid, unless it is the replacement of
another forgotten identity. -/
theorem avoids_of_open {m : Mirror} {n : ℕ} (hrooted : m.RootedWithin n) (hn : n ≤ 32) {u : String}
    {row : BookTrashRow} (hrow : m.bookTrash.lookup u = some row) (hopen : row.restoredAt = false)
    (hreplacement : ∀ e ∈ m.bookTrash.entries, ∀ c, e.2.replacement = some c →
      m.canonicalBookUid c ≠ u) (uid : String) : Avoids m u uid := by
  unfold Avoids Mirror.resolveIdentity
  dsimp only
  rw [hrooted.forgotten_canonical hn]
  unfold Mirror.forgottenReplacement
  by_cases huid : m.canonicalBookUid uid = u
  · rw [huid, hrow]
    dsimp only
    rw [hopen, if_neg Bool.false_ne_true]
    cases hc : row.replacement with
    | none => rfl
    | some c =>
      simpa using hreplacement ⟨u, row⟩ (Table.lookup_eq_some_iff.mp hrow) c hc
  · cases htrash : m.bookTrash.lookup (m.canonicalBookUid uid) with
    | none => simpa [hrooted.canonical_canonical hn] using huid
    | some row' =>
      dsimp only
      split_ifs
      · simpa [hrooted.canonical_canonical hn] using huid
      · cases hc : row'.replacement with
        | none => rfl
        | some c =>
          simpa using hreplacement ⟨_, row'⟩ (Table.lookup_eq_some_iff.mp htrash) c hc

end Device

end TuxBooks
