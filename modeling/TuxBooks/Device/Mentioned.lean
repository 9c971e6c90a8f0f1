import TuxBooks.Device.Binding

set_option relaxedAutoImplicit false
set_option autoImplicit false

/-!
# The uids a device knows

Which book uids occur in the identity tables, the file rows and the identity markers of a device,
and that identity steps add none but those they are given.

## Main definitions

* `TuxBooks.Device.mentioned` — the uids a device knows.
* `TuxBooks.Device.Within` — all of them lie in a set.

## Main results

* `TuxBooks.Device.Within.applyIdentity`, `TuxBooks.Device.Within.bindHash` — identity steps stay
  within a set that holds what they are given.
-/

namespace TuxBooks

open Fallible Tagging

namespace Device

/-- Every uid in an identity table, a file row or an identity marker. -/
def mentioned (d : Device) : List String :=
  d.mirror.merges.entries.map (·.1) ++ d.mirror.merges.entries.map (·.2) ++
    d.mirror.aliases.entries.map (·.2) ++ d.mirror.bindings.entries.map (·.2.bookUid) ++
    d.catalog.files.entries.filterMap (·.2.bookUid) ++
    d.catalog.dirty.entries.filterMap fun e =>
      if DirtyKey.IsState e.1 then none else (aliasOf e.2).map (·.2)

/-- The uids that a device knows lie in a set. -/
structure Within (S : Set String) (d : Device) : Prop where
  loser : ∀ x y, d.mirror.merges.lookup x = some y → x ∈ S
  winner : ∀ x y, d.mirror.merges.lookup x = some y → y ∈ S
  hash : ∀ h x, d.mirror.aliases.lookup h = some x → x ∈ S
  binding : ∀ i b, d.mirror.bindings.lookup i = some b → b.bookUid ∈ S
  file : ∀ i x, d.catalog.fileUid i = some x → x ∈ S
  marker : ∀ h h' p, d.pending h = some (h', p) → p ∈ S

lemma within_iff {S : Set String} {d : Device} : Within S d ↔ ∀ x ∈ d.mentioned, x ∈ S := by
  constructor
  · intro h x hx
    simp only [mentioned, List.mem_append, List.mem_map, List.mem_filterMap] at hx
    rcases hx with ((((⟨e, he, rfl⟩ | ⟨e, he, rfl⟩) | ⟨e, he, rfl⟩) | ⟨e, he, rfl⟩) |
      ⟨e, he, hx⟩) | ⟨e, he, hx⟩
    · exact h.loser e.1 e.2 (Table.lookup_eq_some_iff.mpr he)
    · exact h.winner e.1 e.2 (Table.lookup_eq_some_iff.mpr he)
    · exact h.hash e.1 e.2 (Table.lookup_eq_some_iff.mpr he)
    · exact h.binding e.1 e.2 (Table.lookup_eq_some_iff.mpr he)
    · exact h.file e.1 x (Option.bind_eq_some_iff.mpr ⟨e.2, Table.lookup_eq_some_iff.mpr he, hx⟩)
    · obtain ⟨key, marker⟩ := e
      split_ifs at hx with hkey
      obtain ⟨⟨h', p⟩, halias, rfl⟩ := Option.map_eq_some_iff.mp hx
      cases key with
      | bookIdentity k =>
        exact h.marker k h' p (Option.bind_eq_some_iff.mpr
          ⟨marker, Table.lookup_eq_some_iff.mpr he, halias⟩)
      | _ => exact absurd trivial hkey
  · intro h
    have hmem : ∀ x, x ∈ d.mentioned → x ∈ S := h
    simp only [mentioned, List.mem_append, List.mem_map, List.mem_filterMap] at hmem
    refine ⟨fun x y hxy => ?_, fun x y hxy => ?_, fun k x hx => ?_, fun i b hb => ?_,
      fun i x hx => ?_, fun k k' p hp => ?_⟩
    · exact hmem x (.inl (.inl (.inl (.inl (.inl ⟨⟨x, y⟩, Table.lookup_eq_some_iff.mp hxy,
        rfl⟩)))))
    · exact hmem y (.inl (.inl (.inl (.inl (.inr ⟨⟨x, y⟩, Table.lookup_eq_some_iff.mp hxy,
        rfl⟩)))))
    · exact hmem x (.inl (.inl (.inl (.inr ⟨⟨k, x⟩, Table.lookup_eq_some_iff.mp hx, rfl⟩))))
    · exact hmem _ (.inl (.inl (.inr ⟨⟨i, b⟩, Table.lookup_eq_some_iff.mp hb, rfl⟩)))
    · obtain ⟨f, hf, hx⟩ := Option.bind_eq_some_iff.mp hx
      exact hmem x (.inl (.inr ⟨⟨i, f⟩, Table.lookup_eq_some_iff.mp hf, hx⟩))
    · obtain ⟨marker, hmarker, halias⟩ := Option.bind_eq_some_iff.mp hp
      refine hmem p (.inr ⟨⟨.bookIdentity k, marker⟩, Table.lookup_eq_some_iff.mp hmarker, ?_⟩)
      rw [if_neg (show ¬DirtyKey.IsState (.bookIdentity k) from id), halias]
      rfl

variable {S : Set String} {d d' : Device} {log : List Op} {E : String → String → Prop} {n : ℕ}

/-- A uid that a device does not know resolves to itself. -/
lemma canonical_of_not_mentioned {x : String} (hx : x ∉ d.mentioned) :
    d.mirror.canonicalBookUid x = x := by
  refine Mirror.canonical_of_root ?_
  by_contra hsome
  obtain ⟨y, hy⟩ := Option.ne_none_iff_exists'.mp hsome
  exact hx ((within_iff (S := {x | x ∈ d.mentioned}).mpr fun _ h => h).loser x y hy)

namespace Within

/-- A uid of the set resolves to a uid of the set. -/
lemma canonical (h : Within S d) {x : String} (hx : x ∈ S) : d.mirror.canonicalBookUid x ∈ S := by
  unfold Mirror.canonicalBookUid
  generalize 32 = k
  induction k generalizing x with
  | zero => exact hx
  | succ k ih =>
    unfold MergeForest.find
    split
    · next y hy =>
      split_ifs
      · exact ih (h.winner x y hy)
      · exact hx
    · exact hx

/-- A fold of two uids of the set. -/
lemma fold {l w : String} (h : Within S d) (hfold : Folds l w d d') (hl : l ∈ S) (hw : w ∈ S) :
    Within S d' := by
  have hfoldUid : ∀ x ∈ S, foldUid l w x ∈ S := by
    intro x hx
    unfold foldUid
    split_ifs
    · exact hw
    · exact hx
  refine ⟨fun x y hxy => ?_, fun x y hxy => ?_, fun k x hx => ?_, fun i b hb => ?_,
    fun i x hx => ?_, fun k k' p hp => h.marker k k' p (hfold.pending k ▸ hp)⟩
  · rw [hfold.merges, Table.lookup_insert'] at hxy
    split_ifs at hxy with hxl
    · exact hxl ▸ hl
    · exact h.loser x y hxy
  · rw [hfold.merges, Table.lookup_insert'] at hxy
    split_ifs at hxy
    · exact Option.some.inj hxy ▸ hw
    · exact h.winner x y hxy
  · rw [hfold.lookup_aliases] at hx
    obtain ⟨x₀, hx₀, rfl⟩ := Option.map_eq_some_iff.mp hx
    exact hfoldUid x₀ (h.hash k x₀ hx₀)
  · rw [hfold.lookup_bindings] at hb
    obtain ⟨b₀, hb₀, rfl⟩ := Option.map_eq_some_iff.mp hb
    exact hfoldUid _ (h.binding i b₀ hb₀)
  · rw [hfold.fileUid] at hx
    obtain ⟨x₀, hx₀, rfl⟩ := Option.map_eq_some_iff.mp hx
    exact hfoldUid x₀ (h.file i x₀ hx₀)

variable (jsonReal : ℚ → Value)

/-- A merge of two uids of the set. -/
lemma merge (h : Within S d) {n : ℕ} (hrooted : d.mirror.RootedWithin n) (hn : n ≤ 32)
    {loser winner : String} (hl : loser ∈ S) (hw : winner ∈ S) :
    Within S (d.mergeBookIdentity jsonReal loser winner).1 := by
  rcases mergeBookIdentity_cases jsonReal hrooted hn loser winner with heq | hfold
  · rw [heq]
    exact h
  · exact h.fold hfold (h.canonical hl) (h.canonical hw)

lemma setAlias (h : Within S d) (k : String) {uid : String} (huid : uid ∈ S) :
    Within S (d.setAlias k uid) := by
  refine ⟨h.loser, h.winner, fun k' x hx => ?_, h.binding, h.file, h.marker⟩
  replace hx : (d.mirror.aliases.insert k uid).lookup k' = some x := hx
  rw [Table.lookup_insert'] at hx
  split_ifs at hx
  · exact Option.some.inj hx ▸ huid
  · exact h.hash k' x hx

/-- The same identity tables. -/
lemma congr (h : Within S d) (hmerges : d'.mirror.merges = d.mirror.merges)
    (haliases : d'.mirror.aliases = d.mirror.aliases)
    (hbindings : d'.mirror.bindings = d.mirror.bindings)
    (hfile : ∀ i x, d'.catalog.fileUid i = some x → x ∈ S)
    (hpending : ∀ k k' p, d'.pending k = some (k', p) → d.pending k = some (k', p)) :
    Within S d' where
  loser x y hxy := h.loser x y (hmerges ▸ hxy)
  winner x y hxy := h.winner x y (hmerges ▸ hxy)
  hash k x hx := h.hash k x (haliases ▸ hx)
  binding i b hb := h.binding i b (hbindings ▸ hb)
  file := hfile
  marker k k' p hp := h.marker k k' p (hpending k k' p hp)

/-- Receiving an identity operation about a uid of the set. -/
lemma applyIdentity (h : Within S d) (hrooted : d.mirror.RootedWithin 30)
    (htrash : ∀ uid, d.mirror.bookTrash.lookup uid = none) {op : Op} (hop : op.entityUid ∈ S) :
    Within S (d.applyIdentity jsonReal op).1 := by
  unfold Device.applyIdentity
  split
  · exact h
  · next k _ =>
    rw [resolveIdentity_eq htrash, hrooted.existingAlias (by omega)]
    dsimp only
    have hc := h.canonical hop
    cases halias : d.mirror.aliases.lookup k with
    | none => exact h.setAlias k hc
    | some y =>
      have hy := h.canonical (h.hash k y halias)
      rw [Option.bind_some, resolveIdentity_eq htrash, unifyAlias_some]
      have hmin : min (d.mirror.canonicalBookUid y) (d.mirror.canonicalBookUid op.entityUid) ∈ S :=
        by rcases min_choice (d.mirror.canonicalBookUid y)
            (d.mirror.canonicalBookUid op.entityUid) with heq | heq <;> rw [heq] <;> assumption
      have hmax : max (d.mirror.canonicalBookUid y) (d.mirror.canonicalBookUid op.entityUid) ∈ S :=
        by rcases max_choice (d.mirror.canonicalBookUid y)
            (d.mirror.canonicalBookUid op.entityUid) with heq | heq <;> rw [heq] <;> assumption
      split_ifs
      · exact h.setAlias k hy
      · have hmerge := h.merge jsonReal hrooted (by omega) hmax hmin
        refine andThen_split (fun _ _ => ?_) fun uid hok => ?_
        · exact andThen_inv (P := Within S) hmerge fun _ _ hs => hs
        · obtain ⟨_, -, hok⟩ := andThen_eq_ok.mp hok
          cases hok
          exact (andThen_inv (P := Within S) hmerge fun _ _ hs => hs).setAlias k hmin

/-- Binding a file, with a fresh uid of the set. -/
lemma bindHash (h : Within S d) (hrooted : d.mirror.RootedWithin 30)
    (htrash : ∀ uid, d.mirror.bookTrash.lookup uid = none) {book : ℤ} {contentHash fresh : String}
    (hfresh : fresh ∈ S) (size mtime : ℤ) (now : String) :
    Within S (d.bindHash jsonReal book contentHash size mtime fresh now).1 := by
  have hresolve : ∀ uid c, uid ∈ S → d.mirror.resolveIdentity uid = some c → c ∈ S := by
    intro uid c huid hc
    rw [resolveIdentity_eq htrash] at hc
    exact Option.some.inj hc ▸ h.canonical huid
  have hexisting : ∀ c, d.boundUid book = some c → c ∈ S := by
    intro c hc
    obtain ⟨b, hb, hc⟩ := Option.bind_eq_some_iff.mp hc
    exact hresolve _ c (h.binding book b hb) hc
  have hknown : ∀ c, d.aliasUid contentHash = some c → c ∈ S := by
    intro c hc
    obtain ⟨x, hx, hc⟩ := Option.bind_eq_some_iff.mp hc
    exact hresolve x c (h.hash contentHash x hx) hc
  have hcurrent : ∀ c, d.rowUid book = some c → c ∈ S := by
    intro c hc
    obtain ⟨x, hx, hc⟩ := Option.bind_eq_some_iff.mp hc
    exact hresolve x c (h.file book x hx) hc
  have huid : d.boundTo book contentHash fresh ∈ S :=
    chooseUid_ne (P := (· ∈ S)) hexisting hknown hcurrent hfresh
  have hmergeIf : ∀ {n : ℕ} {d : Device}, n < 32 → Within S d ∧ d.mirror.RootedWithin n →
      ∀ (p : Prop) [Decidable p] (loser winner : String), loser ∈ S → winner ∈ S →
      Within S (if p then d.mergeBookIdentity jsonReal loser winner else (d, .ok ())).1 ∧
        (if p then d.mergeBookIdentity jsonReal loser winner
          else (d, .ok ())).1.mirror.RootedWithin (n + 1) := by
    rintro n d hn ⟨hd, hrooted⟩ p _ loser winner hl hw
    split
    · refine ⟨hd.merge jsonReal hrooted (by omega) hl hw, ?_⟩
      rcases mergeBookIdentity_cases jsonReal hrooted (by omega) loser winner with heq | hfold
      · rw [heq]
        exact hrooted.mono (by omega)
      · exact hfold.rootedWithin hrooted
    · exact ⟨hd, hrooted.mono (by omega)⟩
  change Within S (andThen (d.foldCurrent jsonReal (d.rowUid book)
    (d.boundTo book contentHash fresh)) fun d₁ _ => andThen (d₁.foldKnown jsonReal
      (d.boundUid book) (d.aliasUid contentHash) (d.boundTo book contentHash fresh)) fun d₂ _ =>
    _).1
  refine andThen_post (P := fun d₁ => Within S d₁ ∧ d₁.mirror.RootedWithin 31) ?_ (fun _ h => h.1)
    fun d₁ _ h₁ => andThen_post (P := Within S) ?_ (fun _ h => h) fun d₂ _ h₂ => ?_
  · unfold foldCurrent
    cases hrow : d.rowUid book with
    | none => exact ⟨h, hrooted.mono (by omega)⟩
    | some c => exact hmergeIf (by omega) ⟨h, hrooted⟩ _ _ _ (h.canonical (hcurrent c hrow)) huid
  · unfold foldKnown
    cases he : d.boundUid book with
    | none =>
      cases hk : d.aliasUid contentHash with
      | none => exact h₁.1
      | some k => exact (hmergeIf (by omega) h₁ _ _ _ (hknown k hk) huid).1
    | some e =>
      cases hk : d.aliasUid contentHash with
      | none => exact (hmergeIf (by omega) h₁ _ _ _ (hexisting e he) huid).1
      | some k =>
        dsimp only
        split_ifs
        · exact h₁.1.merge jsonReal h₁.2 (by omega) (hknown k hk) (hexisting e he)
        · exact h₁.1.merge jsonReal h₁.2 (by omega) (hexisting e he) (hknown k hk)
        · exact h₁.1
  · have h₃ := h₂.setAlias contentHash huid
    dsimp only
    split
    · exact h₃
    · have h₄ : Within S ((d₂.setAlias contentHash (d.boundTo book contentHash fresh)).recordBinding
          book ⟨d.boundTo book contentHash fresh, contentHash, size, mtime⟩ now) := by
        obtain ⟨records, heq⟩ := ensureBookRecord_eq ((d₂.setAlias contentHash
          (d.boundTo book contentHash fresh)).catalog.pointFile book
            (d.boundTo book contentHash fresh)) book now
        refine ⟨h₃.loser, h₃.winner, h₃.hash, fun i b hb => ?_, fun i x hx => ?_,
          fun k k' p hp => h₃.marker k k' p ?_⟩
        · replace hb : (d₂.mirror.bindings.insert book _).lookup i = some b := hb
          rw [Table.lookup_insert'] at hb
          split_ifs at hb
          · exact Option.some.inj hb ▸ huid
          · exact h₃.binding i b hb
        · rw [fileUid_recordBinding] at hx
          split_ifs at hx
          · obtain ⟨_, -, rfl⟩ := Option.map_eq_some_iff.mp hx
            exact huid
          · exact h₃.file i x hx
        · unfold pending Device.recordBinding at hp
          rw [heq] at hp
          exact hp
      obtain ⟨issues, heq⟩ := recordDuplicateBindings_eq ((d₂.setAlias contentHash
        (d.boundTo book contentHash fresh)).recordBinding book
          ⟨d.boundTo book contentHash fresh, contentHash, size, mtime⟩ now)
        (d.boundTo book contentHash fresh)
      have h₅ : Within S (((d₂.setAlias contentHash (d.boundTo book contentHash
          fresh)).recordBinding book ⟨d.boundTo book contentHash fresh, contentHash, size, mtime⟩
            now).recordDuplicateBindings (d.boundTo book contentHash fresh)) := by
        rw [heq]
        exact ⟨h₄.loser, h₄.winner, h₄.hash, h₄.binding, h₄.file, h₄.marker⟩
      split_ifs
      · refine ⟨h₅.loser, h₅.winner, h₅.hash, h₅.binding, h₅.file, fun k k' p hp => ?_⟩
        dsimp only at hp
        rw [pending_markIdentityDirty] at hp
        split_ifs at hp
        · cases hp
          exact huid
        · exact h₅.marker k k' p hp
      · exact h₅

end Within

end Device

end TuxBooks
