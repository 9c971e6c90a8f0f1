import TuxBooks.Device.Mentioned
import TuxBooks.Device.Recorded

set_option relaxedAutoImplicit false
set_option autoImplicit false

/-!
# Publishing and receiving on a consistent device

State operations leave the identity tables alone, a published alias is one the device already
has, and a longer folder asks nothing new of a device that has not applied what was added.

## Main results

* `TuxBooks.Device.Consistent.append` — a longer folder.
* `TuxBooks.Device.Consistent.applyState` — applying a state operation.
* `TuxBooks.Device.Consistent.captureIdentity` — publishing an alias.
* `TuxBooks.Device.Consistent.receive` — applying an operation of the folder.
-/

namespace TuxBooks

open Fallible Tagging

namespace Device

variable {log : List Op} {E : String → String → Prop} {n : ℕ} {d d' : Device}

/-- More operations in the folder: identity operations that the device has not applied, about
uids that are published already or resolve to themselves. -/
lemma Consistent.append (h : Consistent n log E d) {ops : List Op}
    (hnew : ∀ op ∈ ops, op.kind = .bookIdentity → op.opId ∉ d.mirror.appliedOps)
    (hpublished : ∀ op ∈ ops, ∀ x, op.bookUid = some x →
      Published log x ∨ d.mirror.canonicalBookUid x = x) : Consistent n (log ++ ops) E d := by
  have hties : ∀ k x, Ties log E d k x → Ties (log ++ ops) E d k x := by
    rintro k x (⟨op, hop, hx⟩ | hx | hx)
    · exact Or.inl ⟨op, List.mem_append_left _ hop, hx⟩
    · exact Or.inr (Or.inl hx)
    · exact Or.inr (Or.inr hx)
  refine { h with applied := ?_, tied := ?_, linked := ?_ }
  · intro op hop hkind happlied
    rcases List.mem_append.mp hop with hop | hop
    · exact h.applied op hop hkind happlied
    · exact absurd happlied (hnew op hop hkind)
  · intro k y hy
    obtain ⟨z, hz, hzy⟩ := h.tied k y hy
    exact ⟨z, hties k z hz, hzy.mono hties⟩
  · rintro x ⟨op, hop, hx⟩
    have hold : Published log x ∨ d.mirror.canonicalBookUid x = x := by
      rcases List.mem_append.mp hop with hop | hop
      · exact Or.inl ⟨op, hop, hx⟩
      · exact hpublished op hop x hx
    rcases hold with hold | hself
    · exact ⟨(h.linked x hold).1.mono hties, (h.linked x hold).2⟩
    · rw [hself]
      exact ⟨Linked.refl x, le_rfl⟩

variable (jsonReal : ℚ → Value) (fromStr : String → Option Value)

/-! ## State operations -/

lemma applyOp_state (d : Device) {op : Op} (hstate : op.kind.IsState) :
    (d.applyOp jsonReal fromStr op).1 = ⟨(d.mirror.applyOp fromStr op).1, d.catalog⟩ := by
  unfold applyOp
  split_ifs with happlied hidentity
  · rw [Mirror.applyOp, if_pos happlied]
  · exact absurd hidentity hstate.1
  · rfl

/-- Only the id of the operation can be new among the applied ones. -/
lemma mem_appliedOps_applyState {m : Mirror} {op : Op} (hstate : op.kind.IsState) {id : String}
    (h : id ∈ (m.applyOp fromStr op).1.appliedOps) : id = op.opId ∨ id ∈ m.appliedOps := by
  rcases Mirror.applyOp_cases (m := m) fromStr hstate with heq | heq | heq | ⟨uid, hkey, -, heq⟩
  · exact Or.inr (heq ▸ h)
  · rw [heq] at h
    exact Or.inr h
  · rw [heq] at h
    exact (Mirror.mem_markApplied _ _ _).mp h
  · have hkey' : (m.observeHlc op.hlc).stateKey op = .ok uid := hkey
    rw [heq, Mirror.mem_markApplied,
      (Mirror.wrote_applyStateOp (m.observeHlc op.hlc) hkey').appliedOps] at h
    exact h

namespace Consistent

lemma applyState (h : Consistent n log E d) {op : Op} (hstate : op.kind.IsState)
    (hid : ∀ op' ∈ log, op'.kind = .bookIdentity → op'.opId ≠ op.opId) :
    Consistent n log E (d.applyOp jsonReal fromStr op).1 := by
  have hkeeps := Mirror.keepsIdentity_applyOp (m := d.mirror) fromStr hstate
  rw [applyOp_state jsonReal fromStr d hstate]
  refine h.congr hkeeps.merges hkeeps.aliases hkeeps.bindings hkeeps.bookTrash
    (fun op' hop' hkind hmem => ?_) h.fileRoot fun _ => rfl
  exact (mem_appliedOps_applyState fromStr hstate hmem).resolve_left (hid op' hop' hkind)

/-- An applied identity operation counts once its hash has what its uid resolves to. -/
lemma markApplied (h : Consistent n log E d) (hlog : WellFormed log) {op : Op} (hop : op ∈ log)
    (halias : ∀ k, op.hash = some k →
      d.mirror.aliases.lookup k = some (d.mirror.canonicalBookUid op.entityUid)) :
    Consistent n log E { d with mirror := d.mirror.markApplied op } := by
  refine ⟨h.rooted, h.noTrash, h.aliasRoot, h.bindingRoot, h.fileRoot,
    fun op' hop' hkind hmem k hk => ?_, h.marked, h.tied, h.bound, h.linked⟩
  rcases (Mirror.mem_markApplied _ _ _).mp hmem with heq | hmem
  · have heq' := hlog.opId op' hop' op hop heq
    subst heq'
    exact halias k hk
  · exact h.applied op' hop' hkind hmem k hk

/-- **Receiving an operation of the folder keeps a device consistent.** -/
theorem receive (h : Consistent 32 log NoTies d) (hlog : WellFormed log) {op : Op}
    (hop : op ∈ log) (hcalm : op.kind = .bookIdentity → op.opId ∉ d.mirror.appliedOps →
      ReceiveCalm log d op) :
    Consistent 32 log NoTies (d.applyOp jsonReal fromStr op).1 := by
  by_cases hkind : op.kind = .bookIdentity
  · unfold Device.applyOp
    split_ifs with happlied
    · exact h
    · have hobserve : Consistent 32 log NoTies { d with mirror := d.mirror.observeHlc op.hlc } :=
        h.congr rfl rfl rfl rfl (fun _ _ _ hmem => hmem) h.fileRoot fun _ => rfl
      have hcalm' : ReceiveCalm log { d with mirror := d.mirror.observeHlc op.hlc } op :=
        hcalm hkind happlied
      obtain ⟨hidentity, halias⟩ := hobserve.applyIdentity jsonReal hlog hop hkind hcalm'
      refine andThen_split (fun _ _ => hidentity) fun affected hok => ?_
      exact hidentity.markApplied hlog hop (halias affected hok)
  · refine h.applyState jsonReal fromStr ⟨hkind, hlog.kind op hop⟩ fun op' hop' hkind' heq => ?_
    exact hkind (hlog.opId op' hop' op hop heq ▸ hkind')

end Consistent

/-! ## Publishing an alias -/

lemma pending_clearMarker {h : String} {marker : Marker}
    (hmarker : d.catalog.dirty.lookup (.bookIdentity h) = some marker) (k : String) :
    (d.clearMarker (.bookIdentity h) marker).pending k = if k = h then none else d.pending k := by
  unfold clearMarker pending
  rw [if_pos hmarker]
  dsimp only
  rw [Table.lookup_erase']
  by_cases hk : k = h
  · rw [hk, if_pos rfl, if_pos rfl]
    rfl
  · rw [if_neg fun heq => hk (DirtyKey.bookIdentity.inj heq), if_neg hk]

lemma mirror_clearMarker (d : Device) (key : DirtyKey) (marker : Marker) :
    (d.clearMarker key marker).mirror = d.mirror := by
  unfold clearMarker
  split <;> rfl

lemma files_clearMarker (d : Device) (key : DirtyKey) (marker : Marker) :
    (d.clearMarker key marker).catalog.files = d.catalog.files := by
  unfold clearMarker
  split <;> rfl

/-- The device after it published an alias that it already has. -/
def afterPublish (d : Device) (stamp : Stamp) (k y : String) : Device where
  mirror := ({ d.mirror.observeHlc stamp.hlc with
    aliases := d.mirror.aliases.insert k y } : Mirror).markApplied (identityOp stamp k y)
  catalog := d.catalog

/-- An alias that the device already has is applied without a merge. -/
lemma applyOp_ownAlias (h : Consistent n log E d) (hn : n ≤ 32) {stamp : Stamp}
    (hnew : stamp.opId ∉ d.mirror.appliedOps) {k y : String}
    (halias : d.mirror.aliases.lookup k = some y) :
    d.applyOp jsonReal fromStr (identityOp stamp k y) =
      (d.afterPublish stamp k y, .ok [⟨.bookIdentity, y, some y⟩]) := by
  have hresolve : (d.mirror.observeHlc stamp.hlc).resolveIdentity y = some y := by
    rw [resolveIdentity_eq (m := d.mirror.observeHlc stamp.hlc) h.noTrash]
    exact congrArg some (Mirror.canonical_of_root (m := d.mirror) (h.aliasRoot k y halias))
  have hrooted : (d.mirror.observeHlc stamp.hlc).RootedWithin n := h.rooted
  have hexisting : (d.mirror.observeHlc stamp.hlc).existingAlias k = some y := by
    rw [hrooted.existingAlias hn]
    change (d.mirror.aliases.lookup k).bind _ = _
    rw [halias]
    exact hresolve
  have hhash : (((identityOp stamp k y).fields.lookup "content_hash").bind Value.asStr) = some k :=
    rfl
  unfold applyOp
  rw [if_neg (show ¬(identityOp stamp k y).opId ∈ d.mirror.appliedOps from hnew),
    if_pos (show (identityOp stamp k y).kind = .bookIdentity from rfl)]
  unfold applyIdentity
  rw [hhash]
  dsimp only [identityOp]
  rw [hresolve, hexisting]
  dsimp only
  rw [unifyAlias_some, if_pos rfl]
  rfl

namespace Consistent

/-- The tables of a device that published an alias it has are as before. -/
lemma afterPublish (h : Consistent n log E d) {stamp : Stamp} {k y : String}
    (halias : d.mirror.aliases.lookup k = some y)
    (hid : ∀ op ∈ log, op.opId ≠ stamp.opId) : Consistent n log E (d.afterPublish stamp k y) := by
  have hset := h.setAlias (h.aliasRoot k y halias)
    (fun y' hy' => Option.some.inj (hy'.symm.trans halias)) (h.tied k y halias)
  refine hset.congr rfl rfl rfl rfl (fun op hop _ hmem => ?_) hset.fileRoot fun _ => rfl
  exact ((Mirror.mem_markApplied _ _ _).mp hmem).resolve_left (hid op hop)

/-- The operation that publishes an alias takes the place of the marker. -/
lemma clearPublished (h : Consistent n log NoTies d) {op : Op} {k y : String} {marker : Marker}
    (hmarker : d.catalog.dirty.lookup (.bookIdentity k) = some marker)
    (halias : d.mirror.aliases.lookup k = some y) (hkind : op.kind = .bookIdentity)
    (hhash : op.hash = some k) (huid : op.entityUid = y) (hbook : op.bookUid = some y) :
    Consistent n (log ++ [op]) NoTies (d.clearMarker (.bookIdentity k) marker) := by
  have hroot := h.aliasRoot k y halias
  have hself := Mirror.canonical_of_root hroot
  have hmirror := mirror_clearMarker d (.bookIdentity k) marker
  have hfiles := files_clearMarker d (.bookIdentity k) marker
  have hpending := pending_clearMarker hmarker
  generalize d.clearMarker (.bookIdentity k) marker = d' at *
  have hties : ∀ k' x, Ties log NoTies d k' x → Ties (log ++ [op]) NoTies d' k' x := by
    rintro k' x (⟨o, ho, hx⟩ | ⟨p, hp, hx⟩ | hx)
    · exact Or.inl ⟨o, List.mem_append_left _ ho, hx⟩
    · by_cases hk : k' = k
      · subst hk
        have hy := (h.marked k' k' p hp).2
        rw [halias] at hy
        refine Or.inl ⟨op, by simp, hkind, hhash, ?_⟩
        rw [huid, ← hx]
        exact Option.some.inj hy
      · refine Or.inr (Or.inl ⟨p, ?_, ?_⟩)
        · rw [hpending, if_neg hk]
          exact hp
        · rw [hmirror]
          exact hx
    · exact hx.elim
  constructor
  · rw [hmirror]
    exact h.rooted
  · rw [hmirror]
    exact h.noTrash
  · rw [hmirror]
    exact h.aliasRoot
  · rw [hmirror]
    exact h.bindingRoot
  · rw [hmirror]
    unfold Catalog.fileUid
    rw [hfiles]
    exact h.fileRoot
  · rw [hmirror]
    intro o ho hkind' happlied k' hk'
    rcases List.mem_append.mp ho with ho | ho
    · exact h.applied o ho hkind' happlied k' hk'
    · rw [List.mem_singleton] at ho
      subst ho
      rw [hhash] at hk'
      rw [← Option.some.inj hk', huid, hself]
      exact halias
  · rw [hmirror]
    intro k' k'' p hp
    rw [hpending] at hp
    split_ifs at hp
    exact h.marked k' k'' p hp
  · rw [hmirror]
    intro k' y' hy'
    obtain ⟨z, hz, hzy⟩ := h.tied k' y' hy'
    exact ⟨z, hties k' z hz, hzy.mono hties⟩
  · rw [hmirror]
    exact h.bound
  · rw [hmirror]
    rintro x ⟨o, ho, hx⟩
    rcases List.mem_append.mp ho with ho | ho
    · obtain ⟨hlinked, hle⟩ := h.linked x ⟨o, ho, hx⟩
      exact ⟨hlinked.mono hties, hle⟩
    · rw [List.mem_singleton] at ho
      subst ho
      rw [hbook] at hx
      rw [← Option.some.inj hx, hself]
      exact ⟨Linked.refl y, le_rfl⟩

/-- A marker without an alias is dropped. -/
lemma clearUnused (h : Consistent n log NoTies d) {k : String} {marker : Marker}
    (hmarker : d.catalog.dirty.lookup (.bookIdentity k) = some marker)
    (hnone : aliasOf marker = none) :
    Consistent n log NoTies (d.clearMarker (.bookIdentity k) marker) := by
  have hmirror := mirror_clearMarker d (.bookIdentity k) marker
  have hfiles := files_clearMarker d (.bookIdentity k) marker
  refine h.congr (by rw [hmirror]) (by rw [hmirror]) (by rw [hmirror]) (by rw [hmirror])
    (fun _ _ _ hmem => hmirror ▸ hmem) ?_ fun k' => ?_
  · unfold Catalog.fileUid
    rw [hfiles]
    exact h.fileRoot
  · rw [pending_clearMarker hmarker]
    split_ifs with hk
    · rw [hk, pending, hmarker]
      exact hnone.symm
    · rfl

end Consistent

end Device

end TuxBooks
