import TuxBooks.Device.Steps

set_option relaxedAutoImplicit false
set_option autoImplicit false

/-!
# Binding a file keeps a device consistent

A binding folds the identities that the file row, its last binding and the alias of its hash give
the book into one. The alias is published again afterwards, so other devices learn about a fold
of the alias; they do not learn about a fold of the other two.

## Main definitions

* `TuxBooks.Device.BindCalm` — no published uid is folded except as the alias of the hash.

## Main results

* `TuxBooks.Device.Consistent.bindHash` — a calm binding keeps a device consistent.
-/

namespace TuxBooks

open Fallible Tagging

namespace Device

/-! ## The uids of a binding -/

/-- The uid of the last binding of a file. -/
def boundUid (d : Device) (book : ℤ) : Option String :=
  (d.mirror.bindings.lookup book).bind fun b => d.mirror.resolveIdentity b.bookUid

/-- The uid that the alias of a hash names. -/
def aliasUid (d : Device) (contentHash : String) : Option String :=
  (d.mirror.aliases.lookup contentHash).bind d.mirror.resolveIdentity

/-- The uid of a file row. -/
def rowUid (d : Device) (book : ℤ) : Option String :=
  (d.catalog.fileUid book).bind d.mirror.resolveIdentity

/-- The uid that a binding chooses. -/
def boundTo (d : Device) (book : ℤ) (contentHash fresh : String) : String :=
  chooseUid (d.boundUid book) (d.aliasUid contentHash) (d.rowUid book) fresh

/-- The uids of the file that the binding folds are not published, unless the hash names them;
if the alias of the hash is published and folded, it waits in no marker and the catalog is sound,
so that the new alias is published in its place. Chains of merges have room. -/
def BindCalm (log : List Op) (d : Device) (book : ℤ) (contentHash fresh : String) : Prop :=
  d.mirror.RootedWithin 30 ∧
    (∀ l ∈ (d.boundUid book).toList ++ (d.rowUid book).toList,
      l ≠ d.boundTo book contentHash fresh → d.aliasUid contentHash ≠ some l →
        ¬Loud log d.mirror l) ∧
    ∀ l ∈ (d.aliasUid contentHash).toList, l ≠ d.boundTo book contentHash fresh →
      Loud log d.mirror l → ¬d.Waiting l ∧ d.catalog.Sound

instance (log : List Op) (d : Device) (book : ℤ) (contentHash fresh : String) :
    Decidable (BindCalm log d book contentHash fresh) :=
  inferInstanceAs (Decidable (_ ∧ (∀ l ∈ (d.boundUid book).toList ++ (d.rowUid book).toList, _) ∧
    ∀ l ∈ (d.aliasUid contentHash).toList, _))

section Choice

variable {existing known current : Option String} {fresh : String}

/-- A chosen uid that is not the one of the alias is a smaller one. -/
lemma chooseUid_le {k : String} (hk : known = some k)
    (hne : k ≠ chooseUid existing known current fresh) :
    chooseUid existing known current fresh ≤ k := by
  subst hk
  cases existing with
  | none => exact absurd rfl hne
  | some e => exact min_le_right e k

/-- Which merge `foldKnown` makes. -/
lemma foldKnown_eq (jsonReal : ℚ → Value) (d : Device) :
    d.foldKnown jsonReal existing known (chooseUid existing known current fresh) =
      match existing, known with
      | some e, some k =>
        if e = k then (d, .ok ()) else d.mergeBookIdentity jsonReal (max e k) (min e k)
      | _, _ => (d, .ok ()) := by
  cases existing with
  | none =>
    cases known with
    | none => rfl
    | some k => exact if_neg (not_not.mpr rfl)
  | some e =>
    cases known with
    | none => exact if_neg (not_not.mpr rfl)
    | some k =>
      unfold foldKnown
      dsimp only
      rcases lt_trichotomy e k with hlt | rfl | hgt
      · rw [if_pos hlt.ne, if_pos hlt, if_neg hlt.ne, max_eq_right hlt.le, min_eq_left hlt.le]
      · simp
      · rw [if_pos hgt.ne', if_neg hgt.asymm, if_neg hgt.ne', max_eq_left hgt.le,
          min_eq_right hgt.le]

end Choice

variable {log : List Op} {E : String → String → Prop} {n : ℕ} {d d' : Device} {l w : String}

namespace Consistent

lemma boundUid_eq (h : Consistent n log E d) (book : ℤ) :
    d.boundUid book = (d.mirror.bindings.lookup book).map (·.bookUid) := by
  unfold boundUid
  cases hb : d.mirror.bindings.lookup book with
  | none => rfl
  | some b =>
    rw [Option.bind_some, resolveIdentity_eq h.noTrash,
      Mirror.canonical_of_root (h.bindingRoot book b hb)]
    rfl

lemma aliasUid_eq (h : Consistent n log E d) (k : String) :
    d.aliasUid k = d.mirror.aliases.lookup k := by
  unfold aliasUid
  cases hk : d.mirror.aliases.lookup k with
  | none => rfl
  | some y =>
    rw [Option.bind_some, resolveIdentity_eq h.noTrash,
      Mirror.canonical_of_root (h.aliasRoot k y hk)]

lemma rowUid_eq (h : Consistent n log E d) (book : ℤ) :
    d.rowUid book = d.catalog.fileUid book := by
  unfold rowUid
  cases hx : d.catalog.fileUid book with
  | none => rfl
  | some x =>
    rw [Option.bind_some, resolveIdentity_eq h.noTrash,
      Mirror.canonical_of_root (h.fileRoot book x hx)]

/-- A harmless fold leaves another fold into the same winner harmless. -/
lemma harmless_fold (h : Consistent n log E d) (hlog : WellFormed log) (hn : n < 32) {c : String}
    (hfold : Folds c w d d') (hharmless : Harmless log E d c w) (hlc : l ≠ c) (hlw : l ≠ w)
    (hl : Harmless log E d l w) : Harmless log E d' l w := by
  rcases hl with ⟨hsilent, hE⟩ | ⟨hquiet, hlinked, hle⟩
  · exact Or.inl ⟨fun hloud => hsilent (hfold.loud h.rooted hn hlw hloud), hE⟩
  · refine Or.inr ⟨fun hwaiting => hquiet (hfold.waiting h.rooted hn hlw hwaiting), ?_, hle⟩
    have hmap := h.linked_fold hlog hn hfold hharmless hlinked (Or.inl (foldUid_of_ne hlc).symm)
    rwa [foldUid_of_ne hfold.ne.symm] at hmap

end Consistent

/-! ## The folds -/

lemma Folds.file_isSome (hfold : Folds l w d d') (book : ℤ) :
    (d'.catalog.files.lookup book).isSome = (d.catalog.files.lookup book).isSome := by
  obtain ⟨c, hfolded, hframe⟩ := hfold.catalog
  rw [hframe.files, hfolded.files, Catalog.moveFiles]
  dsimp only
  rw [Table.lookup_mapRows, Option.isSome_map]

/-- The alias is folded although a published uid resolves to it: the hash is then tied to the
chosen uid, which is about to be published for it. -/
def BindTie (log : List Op) (d : Device) (book : ℤ) (contentHash fresh : String) (k x : String) :
    Prop :=
  (∃ l, d.aliasUid contentHash = some l ∧ l ≠ d.boundTo book contentHash fresh ∧
    Loud log d.mirror l) ∧ k = contentHash ∧ x = d.boundTo book contentHash fresh

section Bind

variable (jsonReal : ℚ → Value) {book : ℤ} {contentHash fresh : String}

/-- The uids of a calm binding can be folded into the chosen one. -/
lemma harmless_bound (h : Consistent n log NoTies d) (hcalm : BindCalm log d book contentHash fresh)
    (hl : d.boundUid book = some l ∨ d.rowUid book = some l ∨ d.aliasUid contentHash = some l)
    (hne : l ≠ d.boundTo book contentHash fresh) :
    Harmless log (BindTie log d book contentHash fresh) d l
      (d.boundTo book contentHash fresh) := by
  obtain ⟨-, hown, hknown⟩ := hcalm
  have hE : ∀ k x, BindTie log d book contentHash fresh k x → x ≠ l := by
    rintro k x ⟨-, -, rfl⟩ rfl
    exact hne rfl
  by_cases hloud : Loud log d.mirror l
  · have halias : d.aliasUid contentHash = some l := by
      by_contra hother
      have hmem : l ∈ (d.boundUid book).toList ++ (d.rowUid book).toList := by
        rcases hl with hl | hl | hl
        · simp [hl]
        · simp [hl]
        · exact absurd hl hother
      exact hown l hmem hne hother hloud
    have hquiet := (hknown l (by simp [halias]) hne hloud).1
    have hties : Consistent n log (BindTie log d book contentHash fresh) d :=
      h.mono_ties fun _ _ hE => hE.elim
    obtain ⟨z, hz, hzl⟩ := hties.tied contentHash l (h.aliasUid_eq contentHash ▸ halias)
    have htie : Ties log (BindTie log d book contentHash fresh) d contentHash
        (d.boundTo book contentHash fresh) :=
      Or.inr (Or.inr ⟨⟨l, halias, hne, hloud⟩, rfl, rfl⟩)
    exact Or.inr ⟨hquiet, hzl.symm.trans (Linked.of_share hz htie), chooseUid_le halias hne⟩
  · exact Or.inl ⟨hloud, hE⟩

/-- A state inside a binding: the chosen uid is canonical and the hash has what its alias, found
when the binding started, resolves to. -/
structure Phase (n : ℕ) (log : List Op) (E : String → String → Prop) (book : ℤ)
    (contentHash uid : String) (known : Option String) (d : Device) : Prop where
  consistent : Consistent n log E d
  uid : d.mirror.canonicalBookUid uid = uid
  hash : d.mirror.aliases.lookup contentHash = known.map d.mirror.canonicalBookUid
  file : (d.catalog.files.lookup book).isSome = true

variable {uid : String} {known : Option String}

lemma Phase.mono (h : Phase n log E book contentHash uid known d) {k : ℕ} (hk : n ≤ k) :
    Phase k log E book contentHash uid known d := { h with consistent := h.consistent.mono hk }

/-- A harmless merge into the chosen uid. -/
lemma Phase.merge (h : Phase n log E book contentHash uid known d) (hlog : WellFormed log)
    (hn : n < 32) {loser winner : String} (hw : d.mirror.canonicalBookUid winner = uid)
    (hharmless : d.mirror.canonicalBookUid loser ≠ uid →
      Harmless log E d (d.mirror.canonicalBookUid loser) uid) :
    Phase (n + 1) log E book contentHash uid known
      (d.mergeBookIdentity jsonReal loser winner).1 := by
  have hmerge := h.consistent.canonical_merge jsonReal hn loser winner
  constructor
  · refine h.consistent.merge jsonReal hlog hn fun hne => ?_
    rw [hw] at hne ⊢
    exact hharmless hne
  · rw [h.consistent.merge_congr jsonReal hn (h.uid.trans hw.symm), hmerge.2, hw]
  · cases known with
    | none =>
      by_cases hne : d.mirror.canonicalBookUid loser = d.mirror.canonicalBookUid winner
      · rw [mergeBookIdentity, if_pos hne]
        exact h.hash
      · rw [(h.consistent.folds jsonReal hn.le hne).lookup_aliases, h.hash]
        rfl
    | some k => exact h.consistent.alias_merge jsonReal hn h.hash loser winner
  · by_cases hne : d.mirror.canonicalBookUid loser = d.mirror.canonicalBookUid winner
    · rw [mergeBookIdentity, if_pos hne]
      exact h.file
    · rw [(h.consistent.folds jsonReal hn.le hne).file_isSome]
      exact h.file

/-- The chosen uid is a root. -/
lemma root_boundTo (h : Consistent n log E d) (hfresh : d.mirror.merges.lookup fresh = none) :
    d.mirror.merges.lookup (d.boundTo book contentHash fresh) = none := by
  refine chooseUid_ne (P := fun x => d.mirror.merges.lookup x = none) ?_ ?_ ?_ hfresh
  · intro c hc
    rw [h.boundUid_eq] at hc
    obtain ⟨b, hb, rfl⟩ := Option.map_eq_some_iff.mp hc
    exact h.bindingRoot book b hb
  · intro c hc
    rw [h.aliasUid_eq] at hc
    exact h.aliasRoot contentHash c hc
  · intro c hc
    rw [h.rowUid_eq] at hc
    exact h.fileRoot book c hc

/-- Folding the identity of the file row. The other uids the binding looked up can still be
folded afterwards. -/
lemma phase_foldCurrent (h : Consistent n log NoTies d) (hlog : WellFormed log)
    (hcalm : BindCalm log d book contentHash fresh)
    (hfresh : d.mirror.merges.lookup fresh = none)
    (hfile : (d.catalog.files.lookup book).isSome = true) {d₁ : Device}
    (hd₁ : (d.foldCurrent jsonReal (d.rowUid book) (d.boundTo book contentHash fresh)).1 = d₁) :
    Phase 31 log (BindTie log d book contentHash fresh) book contentHash
        (d.boundTo book contentHash fresh) (d.aliasUid contentHash) d₁ ∧
      ∀ l, (d.boundUid book = some l ∨ d.aliasUid contentHash = some l) →
        d₁.mirror.canonicalBookUid l ≠ d.boundTo book contentHash fresh →
        Harmless log (BindTie log d book contentHash fresh) d₁ (d₁.mirror.canonicalBookUid l)
          (d.boundTo book contentHash fresh) := by
  have huid : d.mirror.canonicalBookUid (d.boundTo book contentHash fresh) =
      d.boundTo book contentHash fresh := Mirror.canonical_of_root (root_boundTo h hfresh)
  have hstart : Phase 30 log (BindTie log d book contentHash fresh) book contentHash
      (d.boundTo book contentHash fresh) (d.aliasUid contentHash) d := by
    refine ⟨?_, huid, ?_, hfile⟩
    · exact { h.mono_ties fun _ _ hE => hE.elim with rooted := hcalm.1 }
    · rw [h.aliasUid_eq]
      cases hk : d.mirror.aliases.lookup contentHash with
      | none => rfl
      | some k =>
        rw [Option.map_some, Mirror.canonical_of_root (h.aliasRoot contentHash k hk)]
  have hroot : ∀ l, (d.boundUid book = some l ∨ d.aliasUid contentHash = some l) →
      d.mirror.canonicalBookUid l = l := by
    rintro l (hl | hl)
    · rw [h.boundUid_eq] at hl
      obtain ⟨b, hb, rfl⟩ := Option.map_eq_some_iff.mp hl
      exact Mirror.canonical_of_root (h.bindingRoot book b hb)
    · rw [h.aliasUid_eq] at hl
      exact Mirror.canonical_of_root (h.aliasRoot contentHash l hl)
  have hharmless : ∀ l, (d.boundUid book = some l ∨ d.aliasUid contentHash = some l) →
      d.mirror.canonicalBookUid l ≠ d.boundTo book contentHash fresh →
      Harmless log (BindTie log d book contentHash fresh) d (d.mirror.canonicalBookUid l)
        (d.boundTo book contentHash fresh) := by
    intro l hl hne
    rw [hroot l hl] at hne ⊢
    exact harmless_bound h hcalm (hl.elim Or.inl fun hl => Or.inr (Or.inr hl)) hne
  subst hd₁
  unfold foldCurrent
  cases hrow : d.rowUid book with
  | none => exact ⟨hstart.mono (by omega), hharmless⟩
  | some c =>
    have hc : d.mirror.canonicalBookUid c = c := by
      rw [h.rowUid_eq] at hrow
      exact Mirror.canonical_of_root (h.fileRoot book c hrow)
    dsimp only
    rw [hc]
    split_ifs with hne
    · have hcu := harmless_bound h hcalm (Or.inr (Or.inl hrow)) hne
      have hne' : d.mirror.canonicalBookUid c ≠
          d.mirror.canonicalBookUid (d.boundTo book contentHash fresh) := by
        rw [hc, huid]
        exact hne
      have hfold := hstart.consistent.folds jsonReal (by omega) hne'
      rw [hc, huid] at hfold
      refine ⟨hstart.merge jsonReal hlog (by omega) huid fun _ => by rwa [hc], ?_⟩
      intro l hl hlu
      rw [hfold.canonical hcalm.1 (by omega), hroot l hl] at hlu ⊢
      have hlc : l ≠ c := by
        rintro rfl
        exact hlu (foldUid_self _ _)
      rw [foldUid_of_ne hlc] at hlu ⊢
      refine hstart.consistent.harmless_fold hlog (by omega) hfold hcu hlc hlu ?_
      have hharm := hharmless l hl
      rw [hroot l hl] at hharm
      exact hharm hlu
    · exact ⟨hstart.mono (by omega), hharmless⟩

/-- Folding the last binding and the alias: then the hash has the chosen uid, if it has any. -/
lemma phase_foldKnown {existing current : Option String} {fresh : String}
    (h : Phase 31 log E book contentHash uid known d) (hlog : WellFormed log)
    (hharmless : ∀ l, (existing = some l ∨ known = some l) → d.mirror.canonicalBookUid l ≠ uid →
      Harmless log E d (d.mirror.canonicalBookUid l) uid)
    (huid : chooseUid existing known current fresh = uid) :
    Phase 32 log E book contentHash uid known (d.foldKnown jsonReal existing known uid).1 ∧
      ∀ k, known = some k →
        (d.foldKnown jsonReal existing known uid).1.mirror.canonicalBookUid k = uid := by
  subst huid
  rw [foldKnown_eq]
  cases known with
  | none =>
    have hmono := h.mono (k := 32) (by omega)
    cases existing <;> exact ⟨hmono, fun _ hk => by cases hk⟩
  | some k =>
    cases existing with
    | none => exact ⟨h.mono (by omega), fun _ hk => Option.some.inj hk ▸ h.uid⟩
    | some e =>
      dsimp only
      split_ifs with heq
      · subst heq
        refine ⟨h.mono (by omega), fun _ hk => ?_⟩
        have huid := h.uid
        rw [chooseUid, min_self] at huid ⊢
        exact Option.some.inj hk ▸ huid
      · have hw : d.mirror.canonicalBookUid (min e k) = min e k := h.uid
        have hmax : some e = some (max e k) ∨ some k = some (max e k) := by
          rcases max_choice e k with hm | hm <;> rw [hm]
          · exact Or.inl rfl
          · exact Or.inr rfl
        refine ⟨h.merge jsonReal hlog (by omega) hw fun hne => hharmless _ hmax hne, ?_⟩
        rintro _ ⟨⟩
        have hmerge := h.consistent.canonical_merge jsonReal (by omega) (max e k) (min e k)
        rw [hw] at hmerge
        rcases le_total e k with hle | hle
        · rw [max_eq_right hle] at hmerge ⊢
          exact hmerge.1
        · rw [min_eq_right hle] at hmerge ⊢
          exact hmerge.2.trans (min_eq_right hle).symm

/-! ## The rows of a binding -/

/-- The payload of an identity marker. -/
lemma pending_markIdentityDirty (d : Device) (contentHash uid k : String) :
    (d.markIdentityDirty contentHash uid).pending k =
      if k = contentHash then some (contentHash, uid) else d.pending k := by
  unfold pending markIdentityDirty Catalog.mark
  dsimp only
  rw [Table.lookup_insert']
  by_cases hk : k = contentHash
  · rw [hk, if_pos rfl, if_pos rfl]
    rfl
  · rw [if_neg (fun heq => hk (DirtyKey.bookIdentity.inj heq)), if_neg hk]

namespace Consistent

/-- Recording a binding to the uid that its hash has. -/
lemma recordBinding (h : Consistent n log E d) (hroot : d.mirror.merges.lookup uid = none)
    (halias : d.mirror.aliases.lookup contentHash = some uid) (size mtime : ℤ) (now : String) :
    Consistent n log E (d.recordBinding book ⟨uid, contentHash, size, mtime⟩ now) := by
  have hlookup : ∀ i b, (d.recordBinding book ⟨uid, contentHash, size, mtime⟩
      now).mirror.bindings.lookup i = some b →
      b = ⟨uid, contentHash, size, mtime⟩ ∨ d.mirror.bindings.lookup i = some b := by
    intro i b hb
    change (d.mirror.bindings.insert book _).lookup i = some b at hb
    rw [Table.lookup_insert'] at hb
    split_ifs at hb
    · exact Or.inl (Option.some.inj hb).symm
    · exact Or.inr hb
  have hpending : ∀ k, (d.recordBinding book ⟨uid, contentHash, size, mtime⟩ now).pending k =
      d.pending k := by
    intro k
    obtain ⟨records, heq⟩ := ensureBookRecord_eq (d.catalog.pointFile book uid) book now
    unfold pending Device.recordBinding
    rw [heq]
    rfl
  have hties : ∀ k x, Ties log E d k x →
      Ties log E (d.recordBinding book ⟨uid, contentHash, size, mtime⟩ now) k x := by
    rintro k x (hx | ⟨p, hp, hx⟩ | hx)
    · exact Or.inl hx
    · exact Or.inr (Or.inl ⟨p, (hpending k).trans hp, hx⟩)
    · exact Or.inr (Or.inr hx)
  refine ⟨h.rooted, h.noTrash, h.aliasRoot, fun i b hb => ?_, fun i x hx => ?_, h.applied,
    fun k k' p hp => h.marked k k' p ((hpending k).symm.trans hp), fun k y hy => ?_,
    fun i b hb => ?_, fun x hx => ?_⟩
  · rcases hlookup i b hb with rfl | hb
    · exact hroot
    · exact h.bindingRoot i b hb
  · rw [fileUid_recordBinding] at hx
    split_ifs at hx
    · obtain ⟨_, -, rfl⟩ := Option.map_eq_some_iff.mp hx
      exact hroot
    · exact h.fileRoot i x hx
  · obtain ⟨z, hz, hzy⟩ := h.tied k y hy
    exact ⟨z, hties k z hz, hzy.mono hties⟩
  · rcases hlookup i b hb with rfl | hb
    · exact halias
    · exact h.bound i b hb
  · exact ⟨(h.linked x hx).1.mono hties, (h.linked x hx).2⟩

/-- The duplicates of a binding only open issues. -/
lemma recordDuplicateBindings (h : Consistent n log E d) (uid : String) :
    Consistent n log E (d.recordDuplicateBindings uid) := by
  obtain ⟨issues, heq⟩ := recordDuplicateBindings_eq d uid
  rw [heq]
  exact h.congr rfl rfl rfl rfl (fun _ _ _ hmem => hmem) h.fileRoot fun _ => rfl

/-- A marker that publishes the alias of a hash takes the place of its tie. -/
lemma markIdentityDirty (h : Consistent n log E d)
    (hE : ∀ k x, E k x → k = contentHash ∧ x = uid) (hroot : d.mirror.merges.lookup uid = none)
    (halias : d.mirror.aliases.lookup contentHash = some uid) :
    Consistent n log NoTies (d.markIdentityDirty contentHash uid) := by
  have huid := Mirror.canonical_of_root hroot
  have hnew : Ties log NoTies (d.markIdentityDirty contentHash uid) contentHash uid := by
    refine Or.inr (Or.inl ⟨uid, ?_, huid⟩)
    rw [pending_markIdentityDirty, if_pos rfl]
  have hties : ∀ k x, Ties log E d k x →
      Ties log NoTies (d.markIdentityDirty contentHash uid) k x := by
    rintro k x (hx | ⟨p, hp, hx⟩ | hx)
    · exact Or.inl hx
    · by_cases hk : k = contentHash
      · subst hk
        have hold := (h.marked k k p hp).2
        rw [halias] at hold
        rw [← hx, ← Option.some.inj hold]
        exact hnew
      · refine Or.inr (Or.inl ⟨p, ?_, hx⟩)
        rw [pending_markIdentityDirty, if_neg hk]
        exact hp
    · obtain ⟨rfl, rfl⟩ := hE k x hx
      exact hnew
  refine ⟨h.rooted, h.noTrash, h.aliasRoot, h.bindingRoot, h.fileRoot, h.applied,
    fun k k' p hp => ?_, fun k y hy => ?_, h.bound, fun x hx => ?_⟩
  · rw [pending_markIdentityDirty] at hp
    split_ifs at hp with hk
    · cases hp
      refine ⟨hk.symm, ?_⟩
      rw [hk]
      exact halias.trans (congrArg some huid.symm)
    · exact h.marked k k' p hp
  · obtain ⟨z, hz, hzy⟩ := h.tied k y hy
    exact ⟨z, hties k z hz, hzy.mono hties⟩
  · exact ⟨(h.linked x hx).1.mono hties, (h.linked x hx).2⟩

end Consistent

/-! ## The whole binding -/

lemma foldCurrent_ok (h : d.catalog.Sound) (current : Option String) (uid : String) :
    (d.foldCurrent jsonReal current uid).2 = .ok () ∧
      (d.foldCurrent jsonReal current uid).1.catalog.Sound := by
  unfold foldCurrent
  cases current with
  | none => exact ⟨rfl, h⟩
  | some c =>
    dsimp only
    split_ifs
    · exact mergeBookIdentity_ok jsonReal h _ _
    · exact ⟨rfl, h⟩

lemma foldKnown_ok (h : d.catalog.Sound) (existing known : Option String) (uid : String) :
    (d.foldKnown jsonReal existing known uid).2 = .ok () := by
  unfold foldKnown
  split
  · split_ifs
    · exact (mergeBookIdentity_ok jsonReal h _ _).1
    · exact (mergeBookIdentity_ok jsonReal h _ _).1
    · rfl
  · split_ifs
    · exact (mergeBookIdentity_ok jsonReal h _ _).1
    · rfl
  · split_ifs
    · exact (mergeBookIdentity_ok jsonReal h _ _).1
    · rfl
  · rfl

/-- A file that is bound to the hash already has the uid of the hash. -/
lemma boundTo_of_bound (h : Consistent n log E d) {b : BindingRow}
    (hb : d.mirror.bindings.lookup book = some b) :
    d.boundTo book b.contentHash fresh = b.bookUid ∧
      d.aliasUid b.contentHash = some b.bookUid := by
  have halias : d.aliasUid b.contentHash = some b.bookUid := by
    rw [h.aliasUid_eq]
    exact h.bound book b hb
  refine ⟨?_, halias⟩
  unfold boundTo
  rw [halias, h.boundUid_eq, hb]
  exact min_self _

/-- The alias and the rows of the binding, and the marker unless the file had this hash before. -/
lemma finish (h : Phase n log E book contentHash uid known d)
    (hknown : ∀ k, known = some k → d.mirror.canonicalBookUid k = uid)
    (hroot : d.mirror.merges.lookup uid = none)
    (hE : ∀ k x, E k x → k = contentHash ∧ x = uid) (marks : Bool)
    (hmarks : marks = false → known.isSome ∧ ∀ k x, ¬E k x) (size mtime : ℤ) (now : String) :
    Consistent n log NoTies
      (if marks then (((d.setAlias contentHash uid).recordBinding book
          ⟨uid, contentHash, size, mtime⟩ now).recordDuplicateBindings uid).markIdentityDirty
            contentHash uid
        else ((d.setAlias contentHash uid).recordBinding book
          ⟨uid, contentHash, size, mtime⟩ now).recordDuplicateBindings uid) := by
  have hold : ∀ y, d.mirror.aliases.lookup contentHash = some y → y = uid := by
    intro y hy
    rw [h.hash] at hy
    obtain ⟨k, hk, rfl⟩ := Option.map_eq_some_iff.mp hy
    exact hknown k hk
  have halias : (d.setAlias contentHash uid).mirror.aliases.lookup contentHash = some uid :=
    AList.lookup_insert _
  cases marks with
  | true =>
    have hties : Consistent n log (fun k x => k = contentHash ∧ x = uid) d :=
      h.consistent.mono_ties hE
    have hset := hties.setAlias hroot hold ⟨uid, Or.inr (Or.inr ⟨rfl, rfl⟩), Linked.refl uid⟩
    have hrecord : Consistent n log _ (((d.setAlias contentHash uid).recordBinding book
        ⟨uid, contentHash, size, mtime⟩ now).recordDuplicateBindings uid) :=
      (hset.recordBinding hroot halias size mtime now).recordDuplicateBindings uid
    obtain ⟨issues, heq⟩ := recordDuplicateBindings_eq ((d.setAlias contentHash uid).recordBinding
      book ⟨uid, contentHash, size, mtime⟩ now) uid
    rw [if_pos rfl]
    rw [heq] at hrecord ⊢
    exact hrecord.markIdentityDirty (fun _ _ hE => hE) hroot halias
  | false =>
    obtain ⟨hsome, hnone⟩ := hmarks rfl
    obtain ⟨k, hk⟩ := Option.isSome_iff_exists.mp hsome
    have hash : d.mirror.aliases.lookup contentHash = some uid := by
      rw [h.hash, hk]
      exact congrArg some (hknown k hk)
    have hties : Consistent n log NoTies d := h.consistent.mono_ties fun k x hE => hnone k x hE
    have hset := hties.setAlias hroot hold (hties.tied contentHash uid hash)
    rw [if_neg Bool.false_ne_true]
    exact (hset.recordBinding hroot halias size mtime now).recordDuplicateBindings uid

/-- **A calm binding keeps a device consistent.** -/
theorem Consistent.bindHash (h : Consistent n log NoTies d) (hlog : WellFormed log)
    (hcalm : BindCalm log d book contentHash fresh)
    (hfresh : d.mirror.merges.lookup fresh = none)
    (hfile : (d.catalog.files.lookup book).isSome = true) (size mtime : ℤ) (now : String) :
    Consistent 32 log NoTies
      (d.bindHash jsonReal book contentHash size mtime fresh now).1 := by
  have hsound : ∀ k x, BindTie log d book contentHash fresh k x → d.catalog.Sound := by
    rintro k x ⟨⟨l, hl, hne, hloud⟩, -, -⟩
    exact (hcalm.2.2 l (by simp [hl]) hne hloud).2
  change Consistent 32 log NoTies (andThen (d.foldCurrent jsonReal (d.rowUid book)
    (d.boundTo book contentHash fresh)) fun d₁ _ => andThen (d₁.foldKnown jsonReal
      (d.boundUid book) (d.aliasUid contentHash) (d.boundTo book contentHash fresh)) fun d₂ _ =>
    _).1
  have hsound₁ : ∀ k x, BindTie log d book contentHash fresh k x →
      (d.foldCurrent jsonReal (d.rowUid book)
        (d.boundTo book contentHash fresh)).1.catalog.Sound := fun k x hE =>
    (foldCurrent_ok jsonReal (hsound k x hE) _ _).2
  refine andThen_split (fun e he => ?_) fun _ _ => ?_
  · obtain ⟨hphase, -⟩ := phase_foldCurrent jsonReal h hlog hcalm hfresh hfile rfl
    refine (hphase.consistent.mono (by omega)).mono_ties fun k x hE => ?_
    rw [(foldCurrent_ok jsonReal (hsound k x hE) _ _).1] at he
    cases he
  generalize hd₁ : (d.foldCurrent jsonReal (d.rowUid book)
    (d.boundTo book contentHash fresh)).1 = d₁ at *
  obtain ⟨hphase, hharmless⟩ := phase_foldCurrent jsonReal h hlog hcalm hfresh hfile hd₁
  obtain ⟨hphase₂, hknown⟩ := phase_foldKnown jsonReal hphase hlog hharmless rfl
  refine andThen_split (fun e he => ?_) fun _ _ => ?_
  · refine hphase₂.consistent.mono_ties fun k x hE => ?_
    rw [foldKnown_ok jsonReal (hsound₁ k x hE)] at he
    cases he
  generalize (d₁.foldKnown jsonReal (d.boundUid book) (d.aliasUid contentHash)
    (d.boundTo book contentHash fresh)).1 = d₂ at *
  have hroot := hphase₂.consistent.canonical_root le_rfl (d.boundTo book contentHash fresh)
  rw [hphase₂.uid] at hroot
  have hfinish := finish hphase₂ hknown hroot (fun k x hE => hE.2)
    ((d.mirror.bindings.lookup book).all fun b => b.contentHash ≠ contentHash) ?_ size mtime now
  · dsimp only
    split
    · next hnone =>
      have hsome : (d₂.catalog.files.lookup book).isSome = true := hphase₂.file
      replace hnone : (d₂.catalog.files.lookup book).isNone = true := hnone
      rw [Option.isNone_iff_eq_none.mp hnone] at hsome
      cases hsome
    · split_ifs at hfinish ⊢ with hmarks
      · exact hfinish
      · exact hfinish
  · intro hmarks
    obtain ⟨b, hb, hhash⟩ : ∃ b, d.mirror.bindings.lookup book = some b ∧
        b.contentHash = contentHash := by
      cases hb : d.mirror.bindings.lookup book with
      | none => simp [hb] at hmarks
      | some b => exact ⟨b, rfl, by simpa [hb] using hmarks⟩
    subst hhash
    obtain ⟨hto, halias⟩ : d.boundTo book b.contentHash fresh = b.bookUid ∧ _ :=
      boundTo_of_bound h hb
    refine ⟨by rw [halias]; rfl, ?_⟩
    rintro k x ⟨⟨l, hl, hne, -⟩, -, -⟩
    rw [halias] at hl
    exact hne (hto.trans (Option.some.inj hl)).symm

end Bind

end Device

end TuxBooks
