import TuxBooks.Device.Publish

set_option relaxedAutoImplicit false
set_option autoImplicit false

/-!
# Devices that share a folder

Any number of devices that index books, bind them to hashes, publish operations to a folder and
receive what is in it, in any order. Each device chooses and merges identities on its own; the
folder carries the aliases it publishes, not its merges.

## Main definitions

* `TuxBooks.Fleet`, `TuxBooks.Fleet.Act`, `TuxBooks.Fleet.perform` — the devices and the folder.
* `TuxBooks.Fleet.Legal` — what a device can do: fresh ids are fresh.
* `TuxBooks.Fleet.Calm` — the condition on the state before a step.

## Main results

* `TuxBooks.Fleet.identities_converge` — after a run of calm steps, with every operation received
  and no alias waiting, every published uid resolves to the same uid everywhere.
-/

namespace TuxBooks

open Fallible Tagging

/-- Some devices and the operations in the folder they share. -/
structure Fleet (ι : Type*) where
  dev : ι → Device := fun _ => {}
  log : List Op := []

namespace Fleet

variable {ι : Type*} [DecidableEq ι]

/-! ## Steps -/

/-- What a device does. Indexing, user edits and projections are edits of its catalog. -/
inductive Act where
  | edit (catalog : Catalog)
  | capture (op : Op)
  | bind (book : ℤ) (contentHash : String) (size mtime : ℤ) (fresh now : String)
  | publish (contentHash : String) (stamp : Device.Stamp)
  | receive (op : Op)

section

variable (jsonReal : ℚ → Value) (fromStr : String → Option Value)

/-- Device `i` changes and writes operations to the folder. -/
def write (s : Fleet ι) (i : ι) (d : Device) (ops : List Op) : Fleet ι where
  dev := Function.update s.dev i d
  log := s.log ++ ops

/-- One step of device `i`. A failed step keeps what it wrote. -/
def perform (s : Fleet ι) (i : ι) : Act → Fleet ι
  | .edit catalog => s.write i { s.dev i with catalog := catalog } []
  | .capture op => s.write i ((s.dev i).applyOp jsonReal fromStr op).1 [op]
  | .bind book contentHash size mtime fresh now =>
    s.write i ((s.dev i).bindHash jsonReal book contentHash size mtime fresh now).1 []
  | .publish contentHash stamp =>
    let r := ((s.dev i).captureIdentity jsonReal fromStr (.bookIdentity contentHash) stamp).1
    s.write i r.1 r.2.toList
  | .receive op => s.write i ((s.dev i).applyOp jsonReal fromStr op).1 []

end

/-- No device and no operation mentions the uid. -/
def FreshUid (s : Fleet ι) (uid : String) : Prop :=
  ¬Device.Published s.log uid ∧ ∀ i, uid ∉ (s.dev i).mentioned

/-- No operation has the id and no device applied it. -/
def FreshOp (s : Fleet ι) (opId : String) : Prop :=
  (∀ op ∈ s.log, op.opId ≠ opId) ∧ ∀ i, opId ∉ (s.dev i).mirror.appliedOps

instance (log : List Op) (uid : String) : Decidable (Device.Published log uid) :=
  inferInstanceAs (Decidable (∃ op ∈ log, op.bookUid = some uid))

instance [Fintype ι] (s : Fleet ι) (uid : String) : Decidable (s.FreshUid uid) :=
  inferInstanceAs (Decidable (_ ∧ ∀ _, _ ∉ _))

instance [Fintype ι] (s : Fleet ι) (opId : String) : Decidable (s.FreshOp opId) :=
  inferInstanceAs (Decidable (_ ∧ ∀ _, _ ∉ _))

/-- What a device can do. An edit leaves the identity markers and gives a new file row a fresh
uid; captured state is about a book the device has a file of; a bound file exists; a received
operation is in the folder. Random ids are fresh. -/
def Legal (s : Fleet ι) (i : ι) : Act → Prop
  | .edit catalog =>
    (∀ h, catalog.dirty.lookup (.bookIdentity h) =
      (s.dev i).catalog.dirty.lookup (.bookIdentity h)) ∧
    ∀ file uid, catalog.fileUid file = some uid →
      (∃ file', (s.dev i).catalog.fileUid file' = some uid) ∨ s.FreshUid uid
  | .capture op => op.kind.IsState ∧ s.FreshOp op.opId ∧
    ∀ uid, op.bookUid = some uid → ∃ file, (s.dev i).catalog.fileUid file = some uid
  | .bind book _ _ _ fresh _ =>
    ((s.dev i).catalog.files.lookup book).isSome = true ∧ s.FreshUid fresh
  | .publish _ stamp => s.FreshOp stamp.opId
  | .receive op => op ∈ s.log

/-- The condition on a step: a binding and a new identity operation fold no uid in a way that
other devices do not see. -/
def Calm (s : Fleet ι) (i : ι) : Act → Prop
  | .bind book contentHash _ _ fresh _ =>
    Device.BindCalm s.log (s.dev i) book contentHash fresh
  | .receive op => op.kind = .bookIdentity → op.opId ∉ (s.dev i).mirror.appliedOps →
    Device.ReceiveCalm s.log (s.dev i) op
  | _ => True

/-- The states that legal steps reach, from devices that know nothing and an empty folder, when
every step meets `P`. -/
inductive Run (jsonReal : ℚ → Value) (fromStr : String → Option Value)
    (P : Fleet ι → ι → Act → Prop) : Fleet ι → Prop where
  | start : Run jsonReal fromStr P {}
  | step {s : Fleet ι} (h : Run jsonReal fromStr P s) (i : ι) (act : Act)
    (hlegal : s.Legal i act) (hstep : P s i act) :
    Run jsonReal fromStr P (s.perform jsonReal fromStr i act)

/-- Every step of a list is legal and meets `P`. -/
def Steps (jsonReal : ℚ → Value) (fromStr : String → Option Value)
    (P : Fleet ι → ι → Act → Prop) : Fleet ι → List (ι × Act) → Prop
  | _, [] => True
  | s, e :: acts => (s.Legal e.1 e.2 ∧ P s e.1 e.2) ∧
      Steps jsonReal fromStr P (s.perform jsonReal fromStr e.1 e.2) acts

lemma Run.steps {jsonReal : ℚ → Value} {fromStr : String → Option Value}
    {P : Fleet ι → ι → Act → Prop} {s : Fleet ι} (h : Run jsonReal fromStr P s)
    (acts : List (ι × Act)) (hacts : Steps jsonReal fromStr P s acts) :
    Run jsonReal fromStr P
      (acts.foldl (fun s e => s.perform jsonReal fromStr e.1 e.2) s) := by
  induction acts generalizing s with
  | nil => exact h
  | cons e acts ih =>
    obtain ⟨⟨hlegal, hstep⟩, hrest⟩ := hacts
    exact ih (h.step e.1 e.2 hlegal hstep) hrest

/-! ## The invariant -/

/-- The devices fit the folder, and two devices know the same uid only when it is published. -/
structure Inv (s : Fleet ι) : Prop where
  wellFormed : Device.WellFormed s.log
  consistent : ∀ i, Device.Consistent 32 s.log Device.NoTies (s.dev i)
  apart : ∀ i j, i ≠ j → ∀ x, x ∈ (s.dev i).mentioned → x ∈ (s.dev j).mentioned →
    Device.Published s.log x

variable {s : Fleet ι} {i : ι} {d : Device} {ops : List Op}

/-- What one device changes keeps the invariant, when the device fits the longer folder and knows
no uid of another device that is not published. -/
lemma Inv.write (h : s.Inv) (hlog : Device.WellFormed (s.log ++ ops))
    (hd : Device.Consistent 32 (s.log ++ ops) Device.NoTies d)
    (hnew : ∀ op ∈ ops, op.kind = .bookIdentity →
      ∀ j, op.opId ∉ (s.dev j).mirror.appliedOps)
    (hbook : ∀ op ∈ ops, ∀ x, op.bookUid = some x →
      Device.Published s.log x ∨ x ∈ (s.dev i).mentioned)
    (hwithin : Device.Within {x | x ∈ (s.dev i).mentioned ∨ Device.Published (s.log ++ ops) x ∨
      s.FreshUid x} d) : (s.write i d ops).Inv := by
  have hlog' : ∀ x, Device.Published s.log x → Device.Published (s.log ++ ops) x := by
    rintro x ⟨op, hop, hx⟩
    exact ⟨op, List.mem_append_left _ hop, hx⟩
  have hmem := Device.within_iff.mp hwithin
  refine ⟨hlog, fun j => ?_, fun j k hjk x hj hk => ?_⟩
  · by_cases hj : j = i
    · subst hj
      change Device.Consistent 32 (s.log ++ ops) Device.NoTies (Function.update s.dev j d j)
      rw [Function.update_self]
      exact hd
    · change Device.Consistent 32 (s.log ++ ops) Device.NoTies (Function.update s.dev i d j)
      rw [Function.update_of_ne hj]
      refine (h.consistent j).append (fun op hop hkind => hnew op hop hkind j) fun op hop x hx => ?_
      rcases hbook op hop x hx with hpublished | hmentioned
      · exact Or.inl hpublished
      · by_cases hother : x ∈ (s.dev j).mentioned
        · exact Or.inl (h.apart j i hj x hother hmentioned)
        · exact Or.inr (Device.canonical_of_not_mentioned hother)
  · -- a uid that both devices know and that is new to one of them was published or fresh
    have hnewcase : ∀ k, k ≠ i → x ∈ d.mentioned → x ∈ (s.dev k).mentioned →
        Device.Published (s.log ++ ops) x := by
      intro k hk hx hxk
      rcases hmem x hx with hx | hx | hx
      · exact hlog' x (h.apart i k (Ne.symm hk) x hx hxk)
      · exact hx
      · exact absurd hxk (hx.2 k)
    change x ∈ (Function.update s.dev i d j).mentioned at hj
    change x ∈ (Function.update s.dev i d k).mentioned at hk
    by_cases hji : j = i
    · subst hji
      rw [Function.update_self] at hj
      rw [Function.update_of_ne (Ne.symm hjk)] at hk
      exact hnewcase k (Ne.symm hjk) hj hk
    · rw [Function.update_of_ne hji] at hj
      by_cases hki : k = i
      · subst hki
        rw [Function.update_self] at hk
        exact hnewcase j hji hk hj
      · rw [Function.update_of_ne hki] at hk
        exact hlog' x (h.apart j k hjk x hj hk)

/-- Nothing new in the folder. -/
lemma Inv.write_nil (h : s.Inv) (hd : Device.Consistent 32 s.log Device.NoTies d)
    (hwithin : Device.Within {x | x ∈ (s.dev i).mentioned ∨ Device.Published s.log x ∨
      s.FreshUid x} d) : (s.write i d []).Inv := by
  refine h.write ?_ ?_ (fun _ hop => by cases hop) (fun _ hop => by cases hop) ?_
  · rw [List.append_nil]
    exact h.wellFormed
  · rw [List.append_nil]
    exact hd
  · rw [List.append_nil]
    exact hwithin

omit [DecidableEq ι] in
/-- What a device knows is within what it knows, with more uids. -/
lemma within_self (s : Fleet ι) (i : ι) (log : List Op) :
    Device.Within {x | x ∈ (s.dev i).mentioned ∨ Device.Published log x ∨ s.FreshUid x}
      (s.dev i) := Device.within_iff.mpr fun _ hx => Or.inl hx

omit [DecidableEq ι] in
/-- One more operation keeps the folder well formed. -/
lemma wellFormed_append (h : Device.WellFormed s.log) {op : Op}
    (hid : ∀ op' ∈ s.log, op'.opId ≠ op.opId) (hkind : op.kind ≠ .book)
    (hidentity : op.kind = .bookIdentity → op.bookUid = some op.entityUid) :
    Device.WellFormed (s.log ++ [op]) := by
  have hmem : ∀ o, o ∈ s.log ++ [op] → o ∈ s.log ∨ o = op := by
    intro o ho
    simpa using ho
  refine ⟨fun o ho o' ho' heq => ?_, fun o ho => ?_, fun o ho => ?_⟩
  · rcases hmem o ho with hold | hnew
    · rcases hmem o' ho' with hold' | hnew'
      · exact h.opId o hold o' hold' heq
      · exact absurd (hnew' ▸ heq) (hid o hold)
    · rcases hmem o' ho' with hold' | hnew'
      · exact absurd (hnew ▸ heq).symm (hid o' hold')
      · exact hnew.trans hnew'.symm
  · rcases hmem o ho with ho | rfl
    · exact h.kind o ho
    · exact hkind
  · rcases hmem o ho with ho | rfl
    · exact h.identity o ho
    · exact hidentity

section Steps

variable (jsonReal : ℚ → Value) (fromStr : String → Option Value)

/-- An edit of the catalog. -/
lemma Inv.edit (h : s.Inv) {catalog : Catalog} (hlegal : s.Legal i (.edit catalog)) :
    (s.write i { s.dev i with catalog := catalog } []).Inv := by
  obtain ⟨hidentity, hfiles⟩ := hlegal
  have hpending : ∀ k, ({ s.dev i with catalog := catalog } : Device).pending k =
      (s.dev i).pending k := by
    intro k
    unfold Device.pending
    rw [hidentity]
  refine h.write_nil ?_ ?_
  · refine (h.consistent i).congr rfl rfl rfl rfl (fun _ _ _ hmem => hmem) (fun file x hx => ?_)
      hpending
    rcases hfiles file x hx with ⟨file', hx⟩ | hfresh
    · exact (h.consistent i).fileRoot file' x hx
    · by_contra hsome
      obtain ⟨y, hy⟩ := Option.ne_none_iff_exists'.mp hsome
      have hmentioned := (Device.within_iff (S := {x | x ∈ (s.dev i).mentioned}).mpr
        fun _ hx => hx).loser x y hy
      exact hfresh.2 i hmentioned
  · have hself := s.within_self i s.log
    refine hself.congr rfl rfl rfl (fun file x hx => ?_) fun k k' p hp => (hpending k).symm.trans hp
    rcases hfiles file x hx with ⟨file', hx⟩ | hfresh
    · exact hself.file file' x hx
    · exact Or.inr (Or.inr hfresh)

/-- State captured under the uid of a file. -/
lemma Inv.capture (h : s.Inv) {op : Op} (hlegal : s.Legal i (.capture op)) :
    (s.write i ((s.dev i).applyOp jsonReal fromStr op).1 [op]).Inv := by
  obtain ⟨hstate, ⟨hid, hnew⟩, hfile⟩ := hlegal
  have hself := s.within_self i (s.log ++ [op])
  have hkeeps := Mirror.keepsIdentity_applyOp (m := (s.dev i).mirror) fromStr hstate
  have hcanonical : ∀ x, op.bookUid = some x → x ∈ (s.dev i).mentioned ∧
      (s.dev i).mirror.canonicalBookUid x = x := by
    intro x hx
    obtain ⟨file, hfile⟩ := hfile x hx
    exact ⟨(Device.within_iff (S := {x | x ∈ (s.dev i).mentioned}).mpr fun _ hx => hx).file file x
      hfile, Mirror.canonical_of_root ((h.consistent i).fileRoot file x hfile)⟩
  refine h.write (wellFormed_append h.wellFormed hid hstate.2 fun hkind => absurd hkind hstate.1)
    ?_ ?_ ?_ ?_
  · have happly := (h.consistent i).applyState jsonReal fromStr hstate
      fun op' hop' _ => hid op' hop'
    refine happly.append (fun o ho hkind => ?_) fun o ho x hx => ?_
    · rw [List.mem_singleton] at ho
      exact absurd (ho ▸ hkind) hstate.1
    · rw [List.mem_singleton] at ho
      subst ho
      right
      rw [Device.applyOp_state jsonReal fromStr _ hstate]
      unfold Mirror.canonicalBookUid
      rw [hkeeps.merges]
      exact (hcanonical x hx).2
  · intro o ho hkind
    rw [List.mem_singleton] at ho
    exact absurd (ho ▸ hkind) hstate.1
  · intro o ho x hx
    rw [List.mem_singleton] at ho
    subst ho
    exact Or.inr (hcanonical x hx).1
  · rw [Device.applyOp_state jsonReal fromStr _ hstate]
    exact hself.congr hkeeps.merges hkeeps.aliases hkeeps.bindings hself.file fun _ _ _ hp => hp

/-- A calm binding. -/
lemma Inv.bind (h : s.Inv) {book size mtime : ℤ} {contentHash fresh now : String}
    (hlegal : s.Legal i (.bind book contentHash size mtime fresh now))
    (hcalm : s.Calm i (.bind book contentHash size mtime fresh now)) :
    (s.write i ((s.dev i).bindHash jsonReal book contentHash size mtime fresh now).1 []).Inv := by
  obtain ⟨hfile, hfresh⟩ := hlegal
  refine h.write_nil ?_ ?_
  · refine (h.consistent i).bindHash jsonReal h.wellFormed hcalm ?_ hfile size mtime now
    by_contra hsome
    obtain ⟨y, hy⟩ := Option.ne_none_iff_exists'.mp hsome
    exact hfresh.2 i ((Device.within_iff (S := {x | x ∈ (s.dev i).mentioned}).mpr
      fun _ hx => hx).loser fresh y hy)
  · exact (s.within_self i s.log).bindHash jsonReal hcalm.1 (h.consistent i).noTrash
      (Or.inr (Or.inr hfresh)) size mtime now

/-- A calm receipt. -/
lemma Inv.receive (h : s.Inv) {op : Op} (hlegal : s.Legal i (.receive op))
    (hcalm : s.Calm i (.receive op)) :
    (s.write i ((s.dev i).applyOp jsonReal fromStr op).1 []).Inv := by
  have hself := s.within_self i s.log
  refine h.write_nil ((h.consistent i).receive jsonReal fromStr h.wellFormed hlegal hcalm) ?_
  by_cases hkind : op.kind = .bookIdentity
  · unfold Device.applyOp
    split_ifs with happlied
    · exact hself
    · have hobserve : Device.Within {x | x ∈ (s.dev i).mentioned ∨ Device.Published s.log x ∨
          s.FreshUid x} { s.dev i with mirror := (s.dev i).mirror.observeHlc op.hlc } :=
        hself.congr rfl rfl rfl hself.file fun _ _ _ hp => hp
      refine andThen_inv (P := Device.Within _) (hobserve.applyIdentity jsonReal
        (hcalm hkind happlied).1 (h.consistent i).noTrash ?_) fun d _ hd => ?_
      · exact Or.inr (Or.inl ⟨op, hlegal, h.wellFormed.identity op hlegal hkind⟩)
      · exact hd.congr rfl rfl rfl hd.file fun _ _ _ hp => hp
  · have hstate : op.kind.IsState := ⟨hkind, h.wellFormed.kind op hlegal⟩
    have hkeeps := Mirror.keepsIdentity_applyOp (m := (s.dev i).mirror) fromStr hstate
    rw [Device.applyOp_state jsonReal fromStr _ hstate]
    exact hself.congr hkeeps.merges hkeeps.aliases hkeeps.bindings hself.file fun _ _ _ hp => hp

/-- A published alias. -/
lemma Inv.publish (h : s.Inv) {contentHash : String} {stamp : Device.Stamp}
    (hlegal : s.Legal i (.publish contentHash stamp)) {r : Device × Option Op}
    (hr : ((s.dev i).captureIdentity jsonReal fromStr (.bookIdentity contentHash) stamp).1 = r) :
    (s.write i r.1 r.2.toList).Inv := by
  obtain ⟨hid, hnew⟩ := hlegal
  have hself := s.within_self i s.log
  have hconsistent := h.consistent i
  subst hr
  unfold Device.captureIdentity
  cases hmarker : (s.dev i).catalog.dirty.lookup (.bookIdentity contentHash) with
  | none => exact h.write_nil hconsistent hself
  | some marker =>
    dsimp only
    have hpending : (s.dev i).pending contentHash = Device.aliasOf marker := by
      unfold Device.pending
      rw [hmarker]
      rfl
    have hmirror := Device.mirror_clearMarker (s.dev i) (.bookIdentity contentHash) marker
    cases halias : Device.aliasOf marker with
    | none =>
      refine h.write_nil (hconsistent.clearUnused hmarker halias) ?_
      refine hself.congr (by rw [hmirror]) (by rw [hmirror]) (by rw [hmirror]) ?_ ?_
      · unfold Catalog.fileUid
        rw [Device.files_clearMarker]
        exact hself.file
      · intro k k' p hp
        rw [Device.pending_clearMarker hmarker] at hp
        split_ifs at hp
        exact hp
    | some pair =>
      obtain ⟨k, p⟩ := pair
      rw [halias] at hpending
      obtain ⟨rfl, hhas⟩ := hconsistent.marked contentHash k p hpending
      dsimp only
      rw [Device.applyOp_ownAlias jsonReal fromStr hconsistent le_rfl (hnew i) hhas]
      dsimp only [Option.toList_some]
      generalize hy : (s.dev i).mirror.canonicalBookUid p = y at *
      have hmentioned : y ∈ (s.dev i).mentioned := (Device.within_iff
        (S := {x | x ∈ (s.dev i).mentioned}).mpr fun _ hx => hx).hash k y hhas
      have hafter := hconsistent.afterPublish hhas hid
      refine h.write (wellFormed_append h.wellFormed hid (fun hk => by cases hk) fun _ => rfl) ?_
        ?_ ?_ ?_
      · refine hafter.clearPublished hmarker ?_ rfl rfl rfl rfl
        exact AList.lookup_insert _
      · intro op hop _ j
        rw [List.mem_singleton] at hop
        subst hop
        exact hnew j
      · intro op hop x hx
        rw [List.mem_singleton] at hop
        subst hop
        exact Or.inr (Option.some.inj hx ▸ hmentioned)
      · have hself' := s.within_self i (s.log ++ [Device.identityOp stamp k y])
        have hset : Device.Within _ ((s.dev i).afterPublish stamp k y) :=
          (hself'.setAlias k (Or.inl hmentioned)).congr rfl rfl rfl hself'.file fun _ _ _ hp => hp
        have hmirror' := Device.mirror_clearMarker ((s.dev i).afterPublish stamp k y)
          (.bookIdentity k) marker
        refine hset.congr (by rw [hmirror']) (by rw [hmirror']) (by rw [hmirror']) ?_ ?_
        · unfold Catalog.fileUid
          rw [Device.files_clearMarker]
          exact hset.file
        · intro k' k'' p' hp'
          rw [Device.pending_clearMarker (d := (s.dev i).afterPublish stamp k y) hmarker] at hp'
          split_ifs at hp'
          exact hp'

/-- **A legal and calm step keeps the invariant.** -/
theorem Inv.perform (h : s.Inv) {act : Act} (hlegal : s.Legal i act) (hcalm : s.Calm i act) :
    (s.perform jsonReal fromStr i act).Inv := by
  cases act with
  | edit catalog => exact h.edit hlegal
  | capture op => exact h.capture jsonReal fromStr hlegal
  | bind book contentHash size mtime fresh now => exact h.bind jsonReal hlegal hcalm
  | publish contentHash stamp => exact h.publish jsonReal fromStr hlegal rfl
  | receive op => exact h.receive jsonReal fromStr hlegal hcalm

omit [DecidableEq ι] in
/-- Devices that know nothing. -/
lemma inv_start : ({} : Fleet ι).Inv := by
  have hconsistent : Device.Consistent 32 [] Device.NoTies ({} : Device) := by
    constructor
    · intro e he
      cases he
    · intro uid
      rfl
    · intro h x hx
      cases hx
    · intro i b hb
      cases hb
    · intro i x hx
      cases hx
    · intro op hop
      cases hop
    · intro h h' p hp
      cases hp
    · intro h y hy
      cases hy
    · intro i b hb
      cases hb
    · rintro x ⟨op, hop, -⟩
      cases hop
  refine ⟨⟨?_, ?_, ?_⟩, fun _ => hconsistent, ?_⟩
  · intro op hop
    cases hop
  · intro op hop
    cases hop
  · intro op hop
    cases hop
  · intro i j _ x hx
    cases hx

lemma inv_of_run (h : Run jsonReal fromStr Calm s) : s.Inv := by
  induction h with
  | start => exact inv_start
  | step _ i act hlegal hcalm ih => exact ih.perform jsonReal fromStr hlegal hcalm

end Steps

/-! ## Convergence -/

/-- Every operation in the folder was applied everywhere, and no alias waits to be published. -/
def Settled (s : Fleet ι) : Prop :=
  (∀ op ∈ s.log, ∀ i, op.opId ∈ (s.dev i).mirror.appliedOps) ∧
    ∀ i h, (s.dev i).pending h = none

/-- **Published identities converge**: after a run of calm steps, once every operation was
applied everywhere and no alias waits, a published uid resolves to the same uid everywhere. -/
theorem identities_converge (jsonReal : ℚ → Value) (fromStr : String → Option Value)
    {s : Fleet ι} (hrun : Run jsonReal fromStr Calm s) (hsettled : s.Settled) {uid : String}
    (huid : Device.Published s.log uid) (i j : ι) :
    (s.dev i).mirror.canonicalBookUid uid = (s.dev j).mirror.canonicalBookUid uid := by
  have hinv := inv_of_run jsonReal fromStr hrun
  obtain ⟨happlied, hpending⟩ := hsettled
  have hties : ∀ i k x, Device.Ties s.log Device.NoTies (s.dev i) k x → Links s.log k x := by
    rintro i k x (hx | ⟨p, hp, -⟩ | hx)
    · exact hx
    · rw [hpending] at hp
      cases hp
    · exact hx.elim
  have hagree : ∀ i k a b, Links s.log k a → Links s.log k b →
      (s.dev i).mirror.canonicalBookUid a = (s.dev i).mirror.canonicalBookUid b := by
    rintro i k a b ⟨op, hop, hkind, hhash, rfl⟩ ⟨op', hop', hkind', hhash', rfl⟩
    have ha := (hinv.consistent i).applied op hop hkind (happlied op hop i) k hhash
    have hb := (hinv.consistent i).applied op' hop' hkind' (happlied op' hop' i) k hhash'
    exact Option.some.inj (ha.symm.trans hb)
  have hdown : ∀ i, ∀ x ∈ {x | Device.Published s.log x},
      (s.dev i).mirror.canonicalBookUid x ∈ {x | Device.Published s.log x} ∧
        Linked (Links s.log) x ((s.dev i).mirror.canonicalBookUid x) ∧
          (s.dev i).mirror.canonicalBookUid x ≤ x := by
    intro i x hx
    obtain ⟨hlinked, hle⟩ := (hinv.consistent i).linked x hx
    have hlinked' : Linked (Links s.log) x ((s.dev i).mirror.canonicalBookUid x) :=
      hlinked.mono (hties i)
    refine ⟨?_, hlinked', hle⟩
    rcases hlinked'.eq_or_tag with heq | ⟨-, ⟨k, hk⟩⟩
    · exact heq ▸ hx
    · exact Device.published_of_links hinv.wellFormed hk
  exact representative_unique (hagree i) (hagree j) (hdown i) (hdown j) huid

/-! ## Sample runs -/

/-- The hash of the sample file. -/
def sampleHash : String := "00000000000000000000000000000000ffffffffffffffffffffffffffffffff"

/-- The ids of the two published aliases. -/
def sampleIdA : String := "11111111111111111111111111111111"

@[inherit_doc sampleIdA]
def sampleIdB : String := "22222222222222222222222222222222"

/-- A catalog with one file of the book `uid`. -/
def sampleCatalog (uid : String) : Catalog :=
  { files := (∅ : Table ℤ FileRow).insert 1 { title := "Emma", modifiedAt := "1", bookUid := uid } }

/-- Bind the sample file. -/
def sampleBind : Act := .bind 1 sampleHash 10 20 "fresh" "2026-01-01T00:00:00.000Z"

/-- Publish the alias of the sample file. -/
def samplePublish (opId : String) (wall : ℤ) : Act :=
  .publish sampleHash ⟨opId, ⟨wall, 0, "dddddddddddddddddddddddddddddddd"⟩,
    "2026-01-01T00:00:00.000Z"⟩

/-- The alias that `samplePublish` publishes. -/
def sampleAlias (opId : String) (wall : ℤ) (uid : String) : Op :=
  Device.identityOp ⟨opId, ⟨wall, 0, "dddddddddddddddddddddddddddddddd"⟩,
    "2026-01-01T00:00:00.000Z"⟩ sampleHash uid

/-- A reading position of the book `c`. -/
def sampleCaptured : Op :=
  { sampleOp .progress 3 "33333333333333333333333333333333" false false
      ((∅ : Fields).insert "cfi" (.str "epubcfi(/6/4)")) with
    entityUid := "c"
    bookUid := some "c" }

/-- Two devices after a list of steps. -/
def sampleFleet (acts : List (Bool × Act)) : Fleet Bool :=
  acts.foldl (fun s e => s.perform (fun _ => .null) (fun _ => none) e.1 e.2) {}

/-- A device without files and markers indexes the sample file under a fresh uid. -/
lemma legal_sampleCatalog {s : Fleet Bool} {i : Bool} {uid : String}
    (hdirty : (s.dev i).catalog.dirty = ∅) (hfresh : s.FreshUid uid) :
    s.Legal i (.edit (sampleCatalog uid)) := by
  refine ⟨fun h => ?_, fun file x hx => Or.inr ?_⟩
  · rw [hdirty]
    rfl
  · unfold Catalog.fileUid sampleCatalog at hx
    dsimp only at hx
    rw [Table.lookup_insert'] at hx
    split_ifs at hx
    · cases hx
      exact hfresh
    · cases hx

/-- Both devices bind the sample file under a uid of their own and exchange the aliases. -/
def sampleExchange : List (Bool × Act) :=
  [(true, .edit (sampleCatalog "a")), (true, sampleBind), (true, samplePublish sampleIdA 1),
    (false, .edit (sampleCatalog "b")), (false, sampleBind), (false, samplePublish sampleIdB 2),
    (true, .receive (sampleAlias sampleIdB 2 "b")), (false, .receive (sampleAlias sampleIdA 1 "a"))]

/-- Both devices resolve the larger uid alike in the end. -/
theorem identities_converge_sample :
    ((sampleFleet sampleExchange).dev true).mirror.canonicalBookUid "b" =
      ((sampleFleet sampleExchange).dev false).mirror.canonicalBookUid "b" := by
  have hlog : (sampleFleet sampleExchange).log =
      [sampleAlias sampleIdA 1 "a", sampleAlias sampleIdB 2 "b"] :=
    rfl
  have hrun : Run (fun _ => .null) (fun _ => none) Calm (sampleFleet sampleExchange) := by
    refine Run.start.steps sampleExchange ⟨⟨legal_sampleCatalog rfl (by decide), trivial⟩,
      ⟨⟨by decide, by decide⟩, ?_⟩, ⟨(by decide : FreshOp _ _), trivial⟩,
      ⟨legal_sampleCatalog rfl (by decide), trivial⟩, ⟨⟨by decide, by decide⟩, ?_⟩,
      ⟨(by decide : FreshOp _ _), trivial⟩, ⟨List.Mem.tail _ (List.Mem.head _), fun _ _ => ?_⟩,
      ⟨List.Mem.head _, fun _ _ => ?_⟩, trivial⟩
    · change Device.BindCalm _ _ _ _ _
      decide
    · change Device.BindCalm _ _ _ _ _
      decide
    · decide
    · decide
  have hsettled : (sampleFleet sampleExchange).Settled := by
    constructor
    · rw [hlog]
      decide
    · intro i h
      cases i <;> rfl
  have hpublished : Device.Published (sampleFleet sampleExchange).log "b" := by
    rw [hlog]
    exact ⟨sampleAlias sampleIdB 2 "b", by simp, rfl⟩
  exact identities_converge (fun _ => .null) (fun _ => none) hrun hsettled hpublished true false

/-- One device publishes state of a book under the uid it indexed the book with, and only then
binds the file to a hash that another device published under its own uid. -/
def sampleRebind : List (Bool × Act) :=
  [(true, .edit (sampleCatalog "a")), (true, sampleBind), (true, samplePublish sampleIdA 1),
    (false, .edit (sampleCatalog "c")), (false, .capture sampleCaptured),
    (false, .receive (sampleAlias sampleIdA 1 "a")),
    (false, sampleBind), (false, samplePublish sampleIdB 4),
    (true, .receive sampleCaptured), (true, .receive (sampleAlias sampleIdB 4 "a"))]

/-- Only the device that bound the file learns that the two uids are one book. -/
theorem identities_diverge :
    Run (fun _ => .null) (fun _ => none) (fun _ _ _ => True) (sampleFleet sampleRebind) ∧
      (sampleFleet sampleRebind).Settled ∧
      Device.Published (sampleFleet sampleRebind).log "c" ∧
      ((sampleFleet sampleRebind).dev false).mirror.canonicalBookUid "c" = "a" ∧
      ((sampleFleet sampleRebind).dev true).mirror.canonicalBookUid "c" = "c" := by
  have hlog : (sampleFleet sampleRebind).log =
      [sampleAlias sampleIdA 1 "a", sampleCaptured, sampleAlias sampleIdB 4 "a"] := rfl
  refine ⟨Run.start.steps sampleRebind ?_, ⟨?_, ?_⟩, ?_, by decide, by decide⟩
  · refine ⟨⟨legal_sampleCatalog rfl (by decide), trivial⟩, ⟨⟨by decide, by decide⟩, trivial⟩,
      ⟨(by decide : FreshOp _ _), trivial⟩, ⟨legal_sampleCatalog rfl (by decide), trivial⟩,
      ⟨⟨by decide, by decide, ?_⟩, trivial⟩, ⟨List.Mem.head _, trivial⟩,
      ⟨⟨by decide, by decide⟩, trivial⟩, ⟨(by decide : FreshOp _ _), trivial⟩,
      ⟨List.Mem.tail _ (List.Mem.head _), trivial⟩,
      ⟨List.Mem.tail _ (List.Mem.tail _ (List.Mem.head _)), trivial⟩, trivial⟩
    intro uid huid
    exact ⟨1, huid ▸ rfl⟩
  · rw [hlog]
    decide
  · intro i h
    cases i <;> rfl
  · rw [hlog]
    exact ⟨sampleCaptured, by simp, rfl⟩

end Fleet

end TuxBooks
