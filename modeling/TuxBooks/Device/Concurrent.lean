import TuxBooks.Device.Fold
import TuxBooks.Lib.Routine

set_option relaxedAutoImplicit false
set_option autoImplicit false

/-!
# Concurrent bindings

`bind_hash` of `sidecar/src/sync/identity.rs` as it runs beside other calls of itself: an import,
the background hash pass and the sync sweep bind file rows at the same time, and no transaction
spans the statements of a call. Each statement is one request to the database; the transaction of
`merge_book_identity` is one request too, and so is what touches no identity table.

Two calls for one new hash can both look for its alias before either writes it. Then each binds
its own file row to its own book.

## Main definitions

* `TuxBooks.Binds.Query`, `TuxBooks.Binds.exec` — the statements.
* `TuxBooks.Binds.bindHash` — the call.
* `TuxBooks.Binds.BoundAgree` — file rows of one hash are bound to the book of its alias.
* `TuxBooks.Binds.Unraced` — when no other call has come in between.

## Main results

* `TuxBooks.Binds.run_bindHash` — alone a call does what `Device.bindHash` does.
* `TuxBooks.Binds.concurrent_bindings_agree` — bindings agree after every unraced run.
-/

namespace TuxBooks

namespace Binds

open Routine

/-! ## Statements -/

/-- The statements of `bind_hash` and of what it calls. -/
inductive Query where
  | binding (book : ℤ)
  | aliasUid (contentHash : String)
  | fileUid (book : ℤ)
  | mergeWinner (loser : String)
  | openForget (uid : String)
  | mintUid
  | mergeBooks (loser winner : String)
  | recompute (uid : String)
  | setAlias (contentHash uid : String)
  | putBinding (book : ℤ) (row : BindingRow)
  | pointFile (book : ℤ) (uid : String)
  | ensureBookRecord (book : ℤ)
  | recordDuplicateBindings (uid : String)
  | markIdentityDirty (contentHash uid : String)

/-- What a statement returns. -/
abbrev Query.Answer : Query → Type
  | .binding _ => Option BindingRow
  | .aliasUid _ => Option String
  | .fileUid _ => Option String
  | .mergeWinner _ => Option String
  | .openForget _ => Option (Option String)
  | .mintUid => String
  | .mergeBooks .. | .recompute _ | .setAlias .. | .putBinding .. | .pointFile ..
  | .ensureBookRecord _ | .recordDuplicateBindings _ | .markIdentityDirty .. => Unit

/-- What a statement draws: `randomblob` and the current time. -/
structure Drawn where
  fresh : String
  now : String

/-- `SELECT replacement_book_uid FROM sync_book_trash WHERE ... AND restored_at IS NULL`. -/
def openForgetOf (m : Mirror) (uid : String) : Option (Option String) :=
  match m.bookTrash.lookup uid with
  | some row => if row.restoredAt then none else some row.replacement
  | none => none

/-- The effect and the answer of a statement. -/
def exec (jsonReal : ℚ → Value) (drawn : Drawn) :
    (q : Query) → Device → Device × Except AppError q.Answer
  | .binding book, d => (d, .ok (d.mirror.bindings.lookup book))
  | .aliasUid contentHash, d => (d, .ok (d.mirror.aliases.lookup contentHash))
  | .fileUid book, d => (d, .ok (d.catalog.fileUid book))
  | .mergeWinner loser, d => (d, .ok (d.mirror.merges.lookup loser))
  | .openForget uid, d => (d, .ok (openForgetOf d.mirror uid))
  | .mintUid, d => (d, .ok drawn.fresh)
  | .mergeBooks loser winner, d =>
    (⟨d.mirror.mergeBookRows loser winner, d.catalog.mergeBook jsonReal loser winner⟩, .ok ())
  | .recompute uid, d =>
    let recomputed := d.catalog.recomputePrimary jsonReal uid
    ({ d with catalog := recomputed.1 }, recomputed.2)
  | .setAlias contentHash uid, d => (d.setAlias contentHash uid, .ok ())
  | .putBinding book row, d =>
    if (d.catalog.files.lookup book).isNone then
      (d, .error (.database "FOREIGN KEY constraint failed"))
    else ({ d with mirror := { d.mirror with bindings := d.mirror.bindings.insert book row } },
      .ok ())
  | .pointFile book uid, d => ({ d with catalog := d.catalog.pointFile book uid }, .ok ())
  | .ensureBookRecord book, d =>
    ({ d with catalog := d.catalog.ensureBookRecord book drawn.now }, .ok ())
  | .recordDuplicateBindings uid, d => (d.recordDuplicateBindings uid, .ok ())
  | .markIdentityDirty contentHash uid, d => (d.markIdentityDirty contentHash uid, .ok ())

/-- A routine over the database. -/
abbrev Db (α : Type) : Type := Routine Query.Answer α

/-- Run one statement. -/
abbrev query (q : Query) : Db q.Answer := request q

/-! ## The call -/

/-- `canonical_book_uid`, with the hops that are left. -/
def canonicalBookUid : ℕ → String → Db String
  | 0, current => pure current
  | hops + 1, current => do
    let next : Option String ← query (.mergeWinner current)
    match next with
    | some next => if next ≠ current then canonicalBookUid hops next else pure current
    | none => pure current

def forgottenReplacement (uid : String) : Db (Option (Option String)) := do
  let canonical ← canonicalBookUid 32 uid
  query (.openForget canonical)

def resolveIdentity (uid : String) : Db (Option String) := do
  let uid ← canonicalBookUid 32 uid
  match ← forgottenReplacement uid with
  | some (some replacement) => pure (some replacement)
  | some none => pure none
  | none => pure (some uid)

/-- Resolve a uid that was read, if there is one. -/
def resolveRead : Option String → Db (Option String)
  | some uid => resolveIdentity uid
  | none => pure none

/-- The transaction of `merge_book_identity`, then the effective metadata of the survivor. -/
def mergeRows (loser winner : String) : Db Unit := do
  query (.mergeBooks loser winner)
  query (.recompute winner)

def mergeBookIdentity (loser winner : String) : Db Unit := do
  let winner ← canonicalBookUid 32 winner
  let loser ← canonicalBookUid 32 loser
  if loser = winner then pure ()
  else
    match ← forgottenReplacement winner with
    | some _ => pure ()
    | none =>
      match ← forgottenReplacement loser with
      | some _ => pure ()
      | none => mergeRows loser winner

/-- The chosen uid: a fresh one is drawn only when nothing names the book. -/
def chosenUid (existing known current : Option String) : Db String :=
  match existing, known, current with
  | none, none, none => query .mintUid
  | _, _, _ => pure (Device.chooseUid existing known current "")

def foldCurrent (current : Option String) (uid : String) : Db Unit :=
  match current with
  | some current => do
    let current ← canonicalBookUid 32 current
    if current ≠ uid then mergeBookIdentity current uid else pure ()
  | none => pure ()

def foldKnown (existing known : Option String) (uid : String) : Db Unit :=
  match existing, known with
  | some existing, some known =>
    if existing ≠ known then
      if existing < known then mergeBookIdentity known existing
      else mergeBookIdentity existing known
    else pure ()
  | some existing, none => if existing ≠ uid then mergeBookIdentity existing uid else pure ()
  | none, some known => if known ≠ uid then mergeBookIdentity known uid else pure ()
  | none, none => pure ()

/-- The alias, the binding and the file row, and what follows them. -/
def record (book : ℤ) (row : BindingRow) (hashIsNew : Bool) : Db Unit := do
  query (.setAlias row.contentHash row.bookUid)
  query (.putBinding book row)
  query (.pointFile book row.bookUid)
  query (.ensureBookRecord book)
  query (.recordDuplicateBindings row.bookUid)
  if hashIsNew then query (.markIdentityDirty row.contentHash row.bookUid) else pure ()

/-- The arguments of a call. -/
structure Args where
  book : ℤ
  contentHash : String
  size : ℤ
  mtime : ℤ

def bindHash (args : Args) : Db Unit := do
  let existing : Option BindingRow ← query (.binding args.book)
  let known : Option String ← query (.aliasUid args.contentHash)
  let current : Option String ← query (.fileUid args.book)
  let existingUid ← resolveRead (existing.map (·.bookUid))
  let knownUid ← resolveRead known
  let currentUid ← resolveRead current
  let uid ← chosenUid existingUid knownUid currentUid
  foldCurrent currentUid uid
  foldKnown existingUid knownUid uid
  record args.book ⟨uid, args.contentHash, args.size, args.mtime⟩
    (existing.all fun b => b.contentHash ≠ args.contentHash)

/-! ## A call on its own -/

section Alone

variable (jsonReal : ℚ → Value) (drawn : Drawn) (d : Device)

lemma run_hops (hops : ℕ) (uid : String) :
    (canonicalBookUid hops uid).run (exec jsonReal) drawn d =
      (d, .ok (MergeForest.find (fun u => d.mirror.merges.lookup u) hops uid)) := by
  induction hops generalizing uid with
  | zero => rfl
  | succ hops ih =>
    rw [canonicalBookUid, run_bind, run_request, exec, Fallible.andThen_ok, MergeForest.find]
    cases d.mirror.merges.lookup uid with
    | none => rfl
    | some next =>
      dsimp only
      split_ifs
      · exact ih next
      · rfl

lemma run_canonicalBookUid (uid : String) :
    (canonicalBookUid 32 uid).run (exec jsonReal) drawn d =
      (d, .ok (d.mirror.canonicalBookUid uid)) := run_hops jsonReal drawn d 32 uid

lemma run_forgottenReplacement (uid : String) :
    (forgottenReplacement uid).run (exec jsonReal) drawn d =
      (d, .ok (d.mirror.forgottenReplacement uid)) := by
  rw [forgottenReplacement, run_bind, run_canonicalBookUid, Fallible.andThen_ok, run_request]
  rfl

lemma run_resolveIdentity (uid : String) :
    (resolveIdentity uid).run (exec jsonReal) drawn d =
      (d, .ok (d.mirror.resolveIdentity uid)) := by
  rw [resolveIdentity, run_bind, run_canonicalBookUid, Fallible.andThen_ok, run_bind,
    run_forgottenReplacement, Fallible.andThen_ok, Mirror.resolveIdentity]
  rcases d.mirror.forgottenReplacement (d.mirror.canonicalBookUid uid) with _ | _ | _ <;> rfl

lemma run_resolveRead (uid : Option String) :
    (resolveRead uid).run (exec jsonReal) drawn d =
      (d, .ok (uid.bind d.mirror.resolveIdentity)) := by
  cases uid with
  | none => rfl
  | some uid => exact run_resolveIdentity jsonReal drawn d uid

lemma run_mergeRows (loser winner : String) :
    (mergeRows loser winner).run (exec jsonReal) drawn d =
      (⟨d.mirror.mergeBookRows loser winner,
        ((d.catalog.mergeBook jsonReal loser winner).recomputePrimary jsonReal winner).1⟩,
        ((d.catalog.mergeBook jsonReal loser winner).recomputePrimary jsonReal winner).2) := by
  rw [mergeRows, run_bind, run_request, exec, Fallible.andThen_ok, run_request, exec]

lemma run_mergeBookIdentity (loser winner : String) :
    (mergeBookIdentity loser winner).run (exec jsonReal) drawn d =
      d.mergeBookIdentity jsonReal loser winner := by
  rw [mergeBookIdentity, run_bind, run_canonicalBookUid, Fallible.andThen_ok, run_bind,
    run_canonicalBookUid, Fallible.andThen_ok, Device.mergeBookIdentity]
  generalize d.mirror.canonicalBookUid loser = l
  generalize d.mirror.canonicalBookUid winner = w
  dsimp only
  by_cases heq : l = w
  · rw [if_pos heq, if_pos heq]
    rfl
  · rw [if_neg heq, if_neg heq, run_bind, run_forgottenReplacement, Fallible.andThen_ok]
    cases hw : d.mirror.forgottenReplacement w with
    | some _ =>
      rw [if_pos (Or.inl Option.isSome_some)]
      rfl
    | none =>
      dsimp only
      rw [run_bind, run_forgottenReplacement, Fallible.andThen_ok]
      cases hl : d.mirror.forgottenReplacement l with
      | some _ =>
        rw [if_pos (Or.inr Option.isSome_some)]
        rfl
      | none =>
        rw [if_neg (by simp)]
        exact run_mergeRows jsonReal drawn d l w

lemma run_chosenUid (existing known current : Option String) :
    (chosenUid existing known current).run (exec jsonReal) drawn d =
      (d, .ok (Device.chooseUid existing known current drawn.fresh)) := by
  cases existing <;> cases known <;> cases current <;> rfl

lemma run_foldCurrent (current : Option String) (uid : String) :
    (foldCurrent current uid).run (exec jsonReal) drawn d =
      d.foldCurrent jsonReal current uid := by
  cases current with
  | none => rfl
  | some current =>
    rw [foldCurrent, run_bind, run_canonicalBookUid, Fallible.andThen_ok, Device.foldCurrent]
    split_ifs
    · exact run_mergeBookIdentity jsonReal drawn d _ uid
    · rfl

lemma run_foldKnown (existing known : Option String) (uid : String) :
    (foldKnown existing known uid).run (exec jsonReal) drawn d =
      d.foldKnown jsonReal existing known uid := by
  rcases existing with _ | existing <;> rcases known with _ | known
  · rfl
  · rw [foldKnown, Device.foldKnown]
    split_ifs
    · exact run_mergeBookIdentity jsonReal drawn d known uid
    · rfl
  · rw [foldKnown, Device.foldKnown]
    split_ifs
    · exact run_mergeBookIdentity jsonReal drawn d existing uid
    · rfl
  · rw [foldKnown, Device.foldKnown]
    split_ifs
    · exact run_mergeBookIdentity jsonReal drawn d known existing
    · exact run_mergeBookIdentity jsonReal drawn d existing known
    · rfl

lemma run_record (book : ℤ) (row : BindingRow) (hashIsNew : Bool) :
    (record book row hashIsNew).run (exec jsonReal) drawn d =
      let d := d.setAlias row.contentHash row.bookUid
      if (d.catalog.files.lookup book).isNone then
        (d, .error (.database "FOREIGN KEY constraint failed"))
      else
        let d := (d.recordBinding book row drawn.now).recordDuplicateBindings row.bookUid
        if hashIsNew then (d.markIdentityDirty row.contentHash row.bookUid, .ok ())
        else (d, .ok ()) := by
  rw [record, run_bind, run_request, exec, Fallible.andThen_ok, run_bind, run_request, exec]
  dsimp only
  by_cases hfile : ((d.setAlias row.contentHash row.bookUid).catalog.files.lookup book).isNone
  · rw [if_pos hfile, if_pos hfile, Fallible.andThen_error]
  · rw [if_neg hfile, if_neg hfile, Fallible.andThen_ok, run_bind, run_request, exec,
      Fallible.andThen_ok, run_bind, run_request, exec, Fallible.andThen_ok, run_bind,
      run_request, exec, Fallible.andThen_ok]
    cases hashIsNew with
    | true => rfl
    | false => rfl

/-- **Alone a call does what the binding of a device does.** -/
theorem run_bindHash (args : Args) :
    (bindHash args).run (exec jsonReal) drawn d =
      d.bindHash jsonReal args.book args.contentHash args.size args.mtime drawn.fresh
        drawn.now := by
  rw [bindHash, run_bind, run_request, exec, Fallible.andThen_ok, run_bind, run_request, exec,
    Fallible.andThen_ok, run_bind, run_request, exec, Fallible.andThen_ok, run_bind,
    run_resolveRead, Fallible.andThen_ok, run_bind, run_resolveRead, Fallible.andThen_ok,
    run_bind, run_resolveRead, Fallible.andThen_ok, run_bind, run_chosenUid,
    Fallible.andThen_ok, run_bind, run_foldCurrent, Option.bind_map, Device.bindHash]
  simp only [run_bind, run_foldKnown, run_record]
  rfl

end Alone

/-! ## Agreement -/

/-- Two uids of one book. -/
def Same (d : Device) (x y : String) : Prop :=
  d.mirror.canonicalBookUid x = d.mirror.canonicalBookUid y

instance (d : Device) (x y : String) : Decidable (Same d x y) :=
  inferInstanceAs (Decidable (_ = _))

/-- File rows bound to one hash are bound to one book, and the alias of the hash names it. -/
structure BoundAgree (d : Device) : Prop where
  rows : ∀ i j b b', d.mirror.bindings.lookup i = some b → d.mirror.bindings.lookup j = some b' →
    b.contentHash = b'.contentHash → Same d b.bookUid b'.bookUid
  named : ∀ i b, d.mirror.bindings.lookup i = some b →
    ∃ uid, d.mirror.aliases.lookup b.contentHash = some uid ∧ Same d uid b.bookUid

/-- What every step keeps: chains of merges end, and each binding fits the alias of its hash. -/
structure Ready (d : Device) : Prop where
  rooted : d.mirror.RootedWithin 32
  bound : ∀ i b, d.mirror.bindings.lookup i = some b →
    ∃ uid, d.mirror.aliases.lookup b.contentHash = some uid ∧ Same d uid b.bookUid

lemma Ready.boundAgree {d : Device} (h : Ready d) : BoundAgree d where
  rows i j b b' hb hb' hhash := by
    obtain ⟨uid, huid, hsame⟩ := h.bound i b hb
    obtain ⟨uid', huid', hsame'⟩ := h.bound j b' hb'
    rw [hhash, huid'] at huid
    cases huid
    exact hsame.symm.trans hsame'
  named := h.bound

/-- What other calls may do: uids of one book stay so, and an alias keeps naming its book. -/
structure Grows (d d' : Device) : Prop where
  same : ∀ x y, Same d x y → Same d' x y
  named : ∀ contentHash uid, d.mirror.aliases.lookup contentHash = some uid →
    ∃ uid', d'.mirror.aliases.lookup contentHash = some uid' ∧ Same d' uid' uid

lemma Grows.refl (d : Device) : Grows d d := ⟨fun _ _ h => h, fun _ uid h => ⟨uid, h, rfl⟩⟩

lemma Grows.trans (d d' d'' : Device) (h : Grows d d') (h' : Grows d' d'') : Grows d d'' where
  same x y hxy := h'.same x y (h.same x y hxy)
  named contentHash uid huid := by
    obtain ⟨uid', huid', hsame⟩ := h.named contentHash uid huid
    obtain ⟨uid'', huid'', hsame'⟩ := h'.named contentHash uid' huid'
    exact ⟨uid'', huid'', hsame'.trans (h'.same _ _ hsame)⟩

/-- The book uids that an answer names. -/
def booksOf : Sigma Query.Answer → List String
  | ⟨.binding _, row⟩ => (row.map BindingRow.bookUid).toList
  | ⟨.aliasUid _, uid⟩ => uid.toList
  | ⟨.fileUid _, uid⟩ => uid.toList
  | _ => []

/-- The book uids that a call has read for its file row and its hash. -/
def booksRead (log : Log Query.Answer) : List String := log.flatMap booksOf

/-- No other call and no Forget has come in between: the uids of a merge are not merged away and
have room for one more hop, an alias that is overwritten names a book that the call has read, and
no open Forget is met. -/
def Unraced (log : Log Query.Answer) : Query → Device → Prop
  | .openForget uid, d => openForgetOf d.mirror uid = none
  | .mergeBooks loser winner, d => d.mirror.merges.lookup loser = none ∧
      d.mirror.merges.lookup winner = none ∧ d.mirror.RootedWithin 31
  | .setAlias contentHash _, d => ∀ uid ∈ d.mirror.aliases.lookup contentHash,
      ∃ x ∈ booksRead log, Same d x uid
  | _, _ => True

instance decidableUnraced (log : Log Query.Answer) :
    (q : Query) → (d : Device) → Decidable (Unraced log q d)
  | .openForget uid, d => inferInstanceAs (Decidable (openForgetOf d.mirror uid = none))
  | .mergeBooks loser winner, d => inferInstanceAs (Decidable (
      d.mirror.merges.lookup loser = none ∧ d.mirror.merges.lookup winner = none ∧
        d.mirror.RootedWithin 31))
  | .setAlias contentHash _, d => inferInstanceAs (Decidable (
      ∀ uid ∈ d.mirror.aliases.lookup contentHash, ∃ x ∈ booksRead log, Same d x uid))
  | .binding _, _ | .aliasUid _, _ | .fileUid _, _ | .mergeWinner _, _ | .mintUid, _
  | .recompute _, _ | .putBinding .., _ | .pointFile .., _ | .ensureBookRecord _, _
  | .recordDuplicateBindings _, _ | .markIdentityDirty .., _ => isTrue trivial

/-! ## Steps -/

section Steps

variable {jsonReal : ℚ → Value} {drawn : Drawn} {d d' : Device} {log : Log Query.Answer}

/-- A merged uid names the book it was merged into. -/
lemma Ready.same_of_edge (h : Ready d) {uid next : String}
    (hnext : d.mirror.merges.lookup uid = some next) : Same d next uid := by
  have hroot := h.rooted.forest uid
  have hstep := (@MergeForest.find_succ_of_edge _ _ (fun u => d.mirror.merges.lookup u) _ _ _ hnext
    hroot).2
  rw [hstep] at hroot
  exact (MergeForest.find_add hroot 1).trans hstep.symm

/-- A statement that changes the identity tables. -/
def Query.Writes : Query → Prop
  | .mergeBooks .. | .setAlias .. | .putBinding .. => True
  | _ => False

lemma issues_only (d : Device) (uid : String) :
    (d.recordDuplicateBindings uid).mirror.merges = d.mirror.merges ∧
      (d.recordDuplicateBindings uid).mirror.aliases = d.mirror.aliases ∧
      (d.recordDuplicateBindings uid).mirror.bindings = d.mirror.bindings := by
  obtain ⟨issues, heq⟩ := Device.recordDuplicateBindings_eq d uid
  rw [heq]
  exact ⟨rfl, rfl, rfl⟩

/-- Any other statement leaves them alone. -/
lemma exec_of_not_writes {q : Query} (hq : ¬q.Writes) :
    (exec jsonReal drawn q d).1.mirror.merges = d.mirror.merges ∧
      (exec jsonReal drawn q d).1.mirror.aliases = d.mirror.aliases ∧
      (exec jsonReal drawn q d).1.mirror.bindings = d.mirror.bindings := by
  cases q with
  | mergeBooks => exact absurd trivial hq
  | setAlias => exact absurd trivial hq
  | putBinding => exact absurd trivial hq
  | recordDuplicateBindings uid => exact issues_only d uid
  | _ => exact ⟨rfl, rfl, rfl⟩

/-- Equal identity tables. -/
lemma grows_of_tables (hmerges : d'.mirror.merges = d.mirror.merges)
    (haliases : d'.mirror.aliases = d.mirror.aliases) : Grows d d' := by
  have hsame : ∀ x y, Same d x y → Same d' x y := by
    unfold Same Mirror.canonicalBookUid
    rw [hmerges]
    exact fun _ _ h => h
  refine ⟨hsame, fun contentHash uid huid => ⟨uid, ?_, rfl⟩⟩
  rw [haliases]
  exact huid

lemma Ready.of_tables (h : Ready d) (hmerges : d'.mirror.merges = d.mirror.merges)
    (haliases : d'.mirror.aliases = d.mirror.aliases)
    (hbindings : d'.mirror.bindings = d.mirror.bindings) : Ready d' where
  rooted := by
    unfold Mirror.RootedWithin
    rw [hmerges]
    exact h.rooted
  bound i b hb := by
    rw [hbindings] at hb
    obtain ⟨uid, huid, hsame⟩ := h.bound i b hb
    rw [haliases]
    exact ⟨uid, huid, (grows_of_tables hmerges haliases).same _ _ hsame⟩

/-- How uids resolve after the transaction of a merge. -/
lemma canonical_mergeBookRows {m : Mirror} {loser winner : String}
    (hloser : m.merges.lookup loser = none) (hwinner : m.merges.lookup winner = none)
    (hne : loser ≠ winner) (hrooted : m.RootedWithin 31) (uid : String) :
    (m.mergeBookRows loser winner).canonicalBookUid uid =
      foldUid loser winner (m.canonicalBookUid uid) := by
  have hnext : (fun u => (m.mergeBookRows loser winner).merges.lookup u) =
      MergeForest.link (fun u => m.merges.lookup u) loser winner := by
    funext u
    rw [(Mirror.mergeBookRows_tables m loser winner).2.2.1, Table.lookup_insert']
    rfl
  unfold Mirror.canonicalBookUid
  rw [hnext, MergeForest.find_link hloser hwinner hne (hrooted.forest uid),
    hrooted.forest.find_eq (Nat.le_succ 31)]
  rfl

/-- The transaction of a merge joins two books and keeps everything else. -/
lemma merge_step (h : Ready d) {loser winner : String} (hne : loser ≠ winner)
    (hok : Unraced log (.mergeBooks loser winner) d) :
    (Ready (exec jsonReal drawn (.mergeBooks loser winner) d).1 ∧
      Grows d (exec jsonReal drawn (.mergeBooks loser winner) d).1) ∧
      Same (exec jsonReal drawn (.mergeBooks loser winner) d).1 loser winner := by
  obtain ⟨hloser, hwinner, hrooted⟩ := hok
  obtain ⟨-, -, hmerges, -, -, haliases, hbindings⟩ :=
    Mirror.mergeBookRows_tables d.mirror loser winner
  have hcanonical := canonical_mergeBookRows hloser hwinner hne hrooted
  have hsame : ∀ x y, Same d x y →
      Same (exec jsonReal drawn (.mergeBooks loser winner) d).1 x y := by
    intro x y hxy
    refine (hcanonical x).trans (Eq.trans ?_ (hcanonical y).symm)
    exact congrArg (foldUid loser winner) hxy
  have hjoin : Same (exec jsonReal drawn (.mergeBooks loser winner) d).1 loser winner := by
    refine (hcanonical loser).trans (Eq.trans ?_ (hcanonical winner).symm)
    rw [Mirror.canonical_of_root hloser, Mirror.canonical_of_root hwinner, foldUid_self,
      foldUid_of_ne hne.symm]
  -- a row that is re-keyed still names its book
  have hrekeyed : ∀ x, Same (exec jsonReal drawn (.mergeBooks loser winner) d).1
      (if x = loser then winner else x) x := by
    intro x
    split_ifs with hx
    · rw [hx]
      exact hjoin.symm
    · rfl
  have halias : ∀ contentHash uid, d.mirror.aliases.lookup contentHash = some uid →
      (exec jsonReal drawn (.mergeBooks loser winner) d).1.mirror.aliases.lookup contentHash =
        some (if uid = loser then winner else uid) := by
    intro contentHash uid huid
    change (d.mirror.mergeBookRows loser winner).aliases.lookup contentHash = _
    rw [haliases, Table.lookup_mapRows, huid]
    rfl
  refine ⟨⟨⟨?_, fun i b hb => ?_⟩, hsame, fun contentHash uid huid => ?_⟩, hjoin⟩
  · refine Mirror.rootedWithin_of_forest ?_
    have hnext : (fun u => (d.mirror.mergeBookRows loser winner).merges.lookup u) =
        MergeForest.link (fun u => d.mirror.merges.lookup u) loser winner := by
      funext u
      rw [hmerges, Table.lookup_insert']
      rfl
    change MergeForest.RootedWithin
      (fun u => (d.mirror.mergeBookRows loser winner).merges.lookup u) 32
    rw [hnext]
    exact MergeForest.rootedWithin_link hloser hwinner hne hrooted.forest
  · change (d.mirror.mergeBookRows loser winner).bindings.lookup i = some b at hb
    rw [hbindings, Table.lookup_mapRows] at hb
    obtain ⟨b₀, hb₀, hrow⟩ := Option.map_eq_some_iff.mp hb
    obtain ⟨uid, huid, hbound⟩ := h.bound i b₀ hb₀
    have hb₀b : b.contentHash = b₀.contentHash ∧
        b.bookUid = if b₀.bookUid = loser then winner else b₀.bookUid := by
      rw [← hrow]
      split_ifs
      · exact ⟨rfl, rfl⟩
      · exact ⟨rfl, rfl⟩
    rw [hb₀b.1, hb₀b.2]
    exact ⟨_, halias _ uid huid,
      (hrekeyed uid).trans ((hsame _ _ hbound).trans (hrekeyed b₀.bookUid).symm)⟩
  · exact ⟨_, halias contentHash uid huid, hrekeyed uid⟩

/-- Writing the alias of a hash over one that names the same book. -/
lemma setAlias_step (h : Ready d) {contentHash uid : String}
    (hold : ∀ known, d.mirror.aliases.lookup contentHash = some known → Same d known uid) :
    Ready (d.setAlias contentHash uid) ∧ Grows d (d.setAlias contentHash uid) := by
  have hlookup : ∀ k, (d.setAlias contentHash uid).mirror.aliases.lookup k =
      if k = contentHash then some uid else d.mirror.aliases.lookup k :=
    fun k => Table.lookup_insert' d.mirror.aliases contentHash k uid
  have hgrows : Grows d (d.setAlias contentHash uid) := by
    refine ⟨fun _ _ hxy => hxy, fun k known hknown => ?_⟩
    rw [hlookup]
    by_cases hk : k = contentHash
    · subst hk
      rw [if_pos rfl]
      exact ⟨uid, rfl, (hold known hknown).symm⟩
    · rw [if_neg hk]
      exact ⟨known, hknown, rfl⟩
  refine ⟨⟨h.rooted, fun i b hb => ?_⟩, hgrows⟩
  obtain ⟨known, hknown, hbound⟩ := h.bound i b hb
  obtain ⟨uid', huid', hsame⟩ := hgrows.named _ known hknown
  exact ⟨uid', huid', hsame.trans (hgrows.same _ _ hbound)⟩

/-- Binding a file row to the book of the alias. -/
lemma putBinding_step (h : Ready d) {book : ℤ} {row : BindingRow}
    (hnamed : ∃ uid, d.mirror.aliases.lookup row.contentHash = some uid ∧ Same d uid row.bookUid) :
    Ready (exec jsonReal drawn (.putBinding book row) d).1 ∧
      Grows d (exec jsonReal drawn (.putBinding book row) d).1 := by
  rw [exec]
  split_ifs
  · exact ⟨h, Grows.refl d⟩
  · refine ⟨⟨h.rooted, fun i b hb => ?_⟩, grows_of_tables rfl rfl⟩
    dsimp only at hb
    rw [Table.lookup_insert'] at hb
    split_ifs at hb
    · cases hb
      exact hnamed
    · exact h.bound i b hb

end Steps

/-! ## A call beside others -/

section Beside

variable {jsonReal : ℚ → Value} {d : Device} {log : Log Query.Answer} {books : List String}

variable (jsonReal) in
/-- Safe beside other calls: agreement is kept as long as no step is raced. -/
abbrev Keeps {α : Type} (post : α → Log Query.Answer → Device → Prop) (r : Db α)
    (log : Log Query.Answer) (d : Device) : Prop :=
  Safe (exec jsonReal) Unraced Ready Grows post r log d

/-- A statement that leaves the identity tables alone. -/
lemma keeps_query {q : Query} (hq : ¬q.Writes) {post : q.Answer → Log Query.Answer → Device → Prop}
    (hpost : ∀ d' drawn a, Ready d' → Grows d d' → Unraced log q d' →
      (exec jsonReal drawn q d').2 = .ok a → ∀ d'', Grows d' d'' → post a (⟨q, a⟩ :: log) d'') :
    Keeps jsonReal post (query q) log d := by
  have htables : ∀ (drawn : Drawn) d', Grows d' (exec jsonReal drawn q d').1 := fun drawn d' =>
    grows_of_tables (exec_of_not_writes hq).1 (exec_of_not_writes hq).2.1
  refine safe_request (fun d' _ hready _ drawn => ⟨?_, htables drawn d'⟩) ?_
  · exact hready.of_tables (exec_of_not_writes hq).1 (exec_of_not_writes hq).2.1
      (exec_of_not_writes hq).2.2
  · intro d' hgrows hready hok drawn a ha d'' hgrows' _
    exact hpost d' drawn a hready hgrows hok ha d'' ((htables drawn d').trans _ _ _ hgrows')

/-- A statement whose answer plays no part. -/
lemma keeps_query_true {q : Query} (hq : ¬q.Writes) :
    Keeps jsonReal (fun _ _ _ => True) (query q) log d :=
  keeps_query hq fun _ _ _ _ _ _ _ _ _ => trivial

/-- Following merges stays with the same book. -/
lemma keeps_canonicalBookUid (hready : Ready d) (hlog : booksRead log = books) (hops : ℕ)
    (current uid : String) (hsame : Same d current uid) :
    Keeps jsonReal (fun r log d => booksRead log = books ∧ Same d r uid)
      (canonicalBookUid hops current) log d := by
  induction hops generalizing current log d with
  | zero => exact safe_pure fun d' hgrows _ => ⟨hlog, hgrows.same _ _ hsame⟩
  | succ hops ih =>
    have hread : Keeps jsonReal (fun next log d => booksRead log = books ∧ Same d current uid ∧
        ∀ y, next = some y → Same d y current) (query (.mergeWinner current)) log d := by
      refine keeps_query id fun d' drawn next hready' hgrows _ hnext d'' hgrows' => ?_
      refine ⟨hlog, hgrows'.same _ _ (hgrows.same _ _ hsame), fun y hy => ?_⟩
      cases hnext
      exact hgrows'.same _ _ (hready'.same_of_edge hy)
    refine hread.bind Grows.refl hready fun next log d hready h => ?_
    obtain ⟨hlog, hcurrent, hedge⟩ := h
    cases next with
    | none => exact safe_pure fun d' hgrows _ => ⟨hlog, hgrows.same _ _ hcurrent⟩
    | some y =>
      dsimp only
      split_ifs
      · exact ih hready hlog y ((hedge y rfl).trans hcurrent)
      · exact safe_pure fun d' hgrows _ => ⟨hlog, hgrows.same _ _ hcurrent⟩

/-- No open Forget is met. -/
lemma keeps_forgottenReplacement (hready : Ready d) (hlog : booksRead log = books) (uid : String) :
    Keeps jsonReal (fun r log _ => booksRead log = books ∧ r = none) (forgottenReplacement uid)
      log d := by
  refine (keeps_canonicalBookUid hready hlog 32 uid uid rfl).bind Grows.refl hready ?_
  rintro canonical log d hready ⟨hlog, -⟩
  refine keeps_query id fun d' drawn r _ _ hok hr d'' _ => ⟨hlog, ?_⟩
  cases hr
  exact hok

/-- What a uid that was read resolves to. -/
def Resolved (d : Device) (read resolved : Option String) : Prop :=
  resolved.map d.mirror.canonicalBookUid = read.map d.mirror.canonicalBookUid

lemma keeps_resolveRead (hready : Ready d) (hlog : booksRead log = books) (read : Option String) :
    Keeps jsonReal (fun r log d => booksRead log = books ∧ Resolved d read r) (resolveRead read)
      log d := by
  cases read with
  | none => exact safe_pure fun d' _ _ => ⟨hlog, rfl⟩
  | some uid =>
    refine (keeps_canonicalBookUid hready hlog 32 uid uid rfl).bind Grows.refl hready ?_
    rintro canonical log d hready ⟨hlog, hsame⟩
    refine ((keeps_forgottenReplacement hready hlog canonical).frame
      (F := fun d => Same d canonical uid) (fun _ _ hg => hg.same _ _) hsame).bind Grows.refl
        hready ?_
    rintro _ log d hready ⟨⟨hlog, rfl⟩, hsame⟩
    exact safe_pure fun d' hgrows _ => ⟨hlog, congrArg some (hgrows.same _ _ hsame)⟩

lemma Grows.resolved {d d' : Device} (h : Grows d d') {read resolved : Option String}
    (hr : Resolved d read resolved) : Resolved d' read resolved := by
  rcases read with _ | x <;> rcases resolved with _ | y
  · rfl
  · cases hr
  · cases hr
  · exact congrArg some (h.same y x (Option.some.inj hr))

/-- A read whose resolved uid names the book, if it has any. -/
lemma Resolved.same {read resolved : Option String} (h : Resolved d read resolved) {uid : String}
    (hsame : ∀ y, resolved = some y → Same d y uid) : ∀ x ∈ read.toList, Same d x uid := by
  rintro x hx
  rw [Option.mem_toList] at hx
  cases hx
  obtain ⟨y, hy, hxy⟩ := Option.map_eq_some_iff.mp h
  exact hxy.symm.trans (hsame y hy)

/-- What a call has resolved so far. -/
def AllResolved (reads : List (Option String × Option String)) (d : Device) : Prop :=
  ∀ r ∈ reads, Resolved d r.1 r.2

lemma Grows.allResolved {reads : List (Option String × Option String)} (d d' : Device)
    (h : Grows d d') (hr : AllResolved reads d) : AllResolved reads d' :=
  fun r hmem => h.resolved (hr r hmem)

/-- Resolving one more read. -/
lemma keeps_resolveNext (hready : Ready d) (hlog : booksRead log = books)
    {reads : List (Option String × Option String)} (hreads : AllResolved reads d)
    (read : Option String) :
    Keeps jsonReal (fun r log d => booksRead log = books ∧ AllResolved ((read, r) :: reads) d)
      (resolveRead read) log d := by
  refine ((keeps_resolveRead hready hlog read).frame Grows.allResolved hreads).mono ?_
  rintro r log d - ⟨⟨hlog, hr⟩, hreads⟩
  exact ⟨hlog, List.forall_mem_cons.mpr ⟨hr, hreads⟩⟩

/-- The transaction of a merge. -/
lemma keeps_mergeRows (hready : Ready d) (hlog : booksRead log = books) {loser winner : String}
    (hne : loser ≠ winner) :
    Keeps jsonReal (fun _ log d => booksRead log = books ∧ Same d loser winner)
      (mergeRows loser winner) log d := by
  have hmerge : Keeps jsonReal (fun _ log d => booksRead log = books ∧ Same d loser winner)
      (query (.mergeBooks loser winner)) log d := by
    refine safe_request (fun d' _ hready hok drawn => (merge_step hready hne hok).1) ?_
    intro d' _ hready hok drawn _ _ d'' hgrows _
    exact ⟨hlog, hgrows.same _ _ (merge_step hready hne hok).2⟩
  refine hmerge.bind Grows.refl hready ?_
  rintro _ log d hready ⟨hlog, hsame⟩
  exact keeps_query id fun d' drawn _ _ hgrows _ _ d'' hgrows' =>
    ⟨hlog, hgrows'.same _ _ (hgrows.same _ _ hsame)⟩

/-- **A merge makes two uids name one book.** -/
lemma keeps_mergeBookIdentity (hready : Ready d) (hlog : booksRead log = books)
    (loser winner : String) :
    Keeps jsonReal (fun _ log d => booksRead log = books ∧ Same d loser winner)
      (mergeBookIdentity loser winner) log d := by
  refine (keeps_canonicalBookUid hready hlog 32 winner winner rfl).bind Grows.refl hready ?_
  rintro w log d hready ⟨hlog, hw⟩
  refine ((keeps_canonicalBookUid hready hlog 32 loser loser rfl).frame
    (F := fun d => Same d w winner) (fun _ _ hg => hg.same _ _) hw).bind Grows.refl hready ?_
  rintro l log d hready ⟨⟨hlog, hl⟩, hw⟩
  split_ifs with heq
  · refine safe_pure fun d' hgrows _ => ⟨hlog, hgrows.same _ _ ?_⟩
    exact hl.symm.trans (heq ▸ hw)
  · -- the uids that were looked up keep naming the two books
    have hnames : ∀ d d', Grows d d' → (Same d l loser ∧ Same d w winner) →
        Same d' l loser ∧ Same d' w winner := fun d d' hg h => ⟨hg.same _ _ h.1, hg.same _ _ h.2⟩
    refine ((keeps_forgottenReplacement hready hlog w).frame hnames ⟨hl, hw⟩).bind Grows.refl
      hready ?_
    rintro _ log d hready ⟨⟨hlog, rfl⟩, hlw⟩
    refine ((keeps_forgottenReplacement hready hlog l).frame hnames hlw).bind Grows.refl hready ?_
    rintro _ log d hready ⟨⟨hlog, rfl⟩, hlw⟩
    refine ((keeps_mergeRows hready hlog heq).frame hnames hlw).mono ?_
    rintro _ log d - ⟨⟨hlog, hsame⟩, hl, hw⟩
    exact ⟨hlog, hl.symm.trans (hsame.trans hw)⟩

lemma keeps_chosenUid (hlog : booksRead log = books) (existing known current : Option String) :
    Keeps jsonReal (fun uid log _ => booksRead log = books ∧
        ∃ fresh, uid = Device.chooseUid existing known current fresh)
      (chosenUid existing known current) log d := by
  rcases existing with _ | existing <;> rcases known with _ | known <;>
    rcases current with _ | current
  · exact keeps_query id fun d' drawn uid _ _ _ _ _ _ => ⟨hlog, uid, rfl⟩
  all_goals exact safe_pure fun _ _ _ => ⟨hlog, "", rfl⟩

/-- The book of the file row becomes the chosen one. -/
lemma keeps_foldCurrent (hready : Ready d) (hlog : booksRead log = books)
    (current : Option String) (uid : String) :
    Keeps jsonReal (fun _ log d => booksRead log = books ∧ ∀ x, current = some x → Same d x uid)
      (foldCurrent current uid) log d := by
  cases current with
  | none => exact safe_pure fun d' _ _ => ⟨hlog, fun x hx => by cases hx⟩
  | some current =>
    refine (keeps_canonicalBookUid hready hlog 32 current current rfl).bind Grows.refl hready ?_
    rintro canonical log d hready ⟨hlog, hsame⟩
    split_ifs with hne
    · refine ((keeps_mergeBookIdentity hready hlog canonical uid).frame
        (F := fun d => Same d canonical current) (fun _ _ hg => hg.same _ _) hsame).mono ?_
      rintro _ log d - ⟨⟨hlog, hmerged⟩, hsame⟩
      refine ⟨hlog, fun x hx => ?_⟩
      cases hx
      exact hsame.symm.trans hmerged
    · refine safe_pure fun d' hgrows _ => ⟨hlog, fun x hx => ?_⟩
      cases hx
      rw [not_not] at hne
      exact hne ▸ hgrows.same _ _ hsame.symm

/-- So do the books of the last binding and of the alias. -/
lemma keeps_foldKnown (hready : Ready d) (hlog : booksRead log = books)
    (existing known current : Option String) (fresh : String) :
    Keeps jsonReal (fun _ log d => booksRead log = books ∧
      ∀ x, (existing = some x ∨ known = some x) →
        Same d x (Device.chooseUid existing known current fresh))
      (foldKnown existing known (Device.chooseUid existing known current fresh)) log d := by
  rcases existing with _ | e <;> rcases known with _ | k
  · exact safe_pure fun d' _ _ => ⟨hlog, fun x hx => by rcases hx with hx | hx <;> cases hx⟩
  · change Keeps jsonReal _ (if k ≠ k then _ else _) log d
    rw [if_neg (not_not.mpr rfl)]
    refine safe_pure fun d' _ _ => ⟨hlog, fun x hx => ?_⟩
    rcases hx with hx | hx
    · cases hx
    · cases hx
      rfl
  · change Keeps jsonReal _ (if e ≠ e then _ else _) log d
    rw [if_neg (not_not.mpr rfl)]
    refine safe_pure fun d' _ _ => ⟨hlog, fun x hx => ?_⟩
    rcases hx with hx | hx
    · cases hx
      rfl
    · cases hx
  · have hchosen : ∀ d : Device, Same d e k → ∀ x, (some e = some x ∨ some k = some x) →
        Same d x (min e k) := by
      intro d hek x hx
      have hx' : Same d x e := by
        rcases hx with hx | hx
        · cases hx
          rfl
        · cases hx
          exact hek.symm
      rcases min_choice e k with hmin | hmin
      · rw [hmin]
        exact hx'
      · rw [hmin]
        exact hx'.trans hek
    change Keeps jsonReal _ (if e ≠ k then _ else _) log d
    split_ifs with hne hlt
    · refine (keeps_mergeBookIdentity hready hlog k e).mono ?_
      rintro _ log d - ⟨hlog, hsame⟩
      exact ⟨hlog, hchosen d hsame.symm⟩
    · refine (keeps_mergeBookIdentity hready hlog e k).mono ?_
      rintro _ log d - ⟨hlog, hsame⟩
      exact ⟨hlog, hchosen d hsame⟩
    · rw [not_not] at hne
      exact safe_pure fun d' _ _ => ⟨hlog, hchosen d' (hne ▸ rfl)⟩

/-- The alias names the chosen book before the file row is bound to it. -/
lemma keeps_record (hready : Ready d) (book : ℤ) (row : BindingRow) (hashIsNew : Bool)
    (hread : ∀ x ∈ booksRead log, Same d x row.bookUid) :
    Keeps jsonReal (fun _ _ _ => True) (record book row hashIsNew) log d := by
  have hset : Keeps jsonReal (fun _ _ d => ∃ uid, d.mirror.aliases.lookup row.contentHash =
      some uid ∧ Same d uid row.bookUid) (query (.setAlias row.contentHash row.bookUid)) log d := by
    have hold : ∀ d', Grows d d' → Unraced log (.setAlias row.contentHash row.bookUid) d' →
        ∀ known, d'.mirror.aliases.lookup row.contentHash = some known →
          Same d' known row.bookUid := by
      intro d' hgrows hok known hknown
      obtain ⟨x, hx, hsame⟩ := hok known hknown
      exact hsame.symm.trans (hgrows.same _ _ (hread x hx))
    refine safe_request (fun d' hgrows hready hok _ => setAlias_step hready (hold d' hgrows hok)) ?_
    intro d' _ _ _ drawn _ _ d'' hgrows' _
    have hnamed : (d'.setAlias row.contentHash row.bookUid).mirror.aliases.lookup
        row.contentHash = some row.bookUid := AList.lookup_insert d'.mirror.aliases
    exact hgrows'.named _ _ hnamed
  refine hset.bind Grows.refl hready fun _ log d hready hnamed => ?_
  have hput : Keeps jsonReal (fun _ _ _ => True) (query (.putBinding book row)) log d := by
    refine safe_request (fun d' hgrows hready _ _ => putBinding_step hready ?_)
      fun _ _ _ _ _ _ _ _ _ _ => trivial
    obtain ⟨uid, huid, hsame⟩ := hnamed
    obtain ⟨uid', huid', hsame'⟩ := hgrows.named _ uid huid
    exact ⟨uid', huid', hsame'.trans (hgrows.same _ _ hsame)⟩
  refine hput.bind Grows.refl hready fun _ log d hready _ => ?_
  refine (keeps_query_true id).bind Grows.refl hready fun _ log d hready _ => ?_
  refine (keeps_query_true id).bind Grows.refl hready fun _ log d hready _ => ?_
  refine (keeps_query_true id).bind Grows.refl hready fun _ log d hready _ => ?_
  split_ifs
  · exact keeps_query_true id
  · exact safe_pure fun _ _ _ => trivial

/-- The uids a call reads first. -/
lemma keeps_read (log : Log Query.Answer) {q : Query} (hq : ¬q.Writes) :
    Keeps jsonReal (fun a log' _ => booksRead log' = booksOf ⟨q, a⟩ ++ booksRead log) (query q)
      log d :=
  keeps_query hq fun _ _ _ _ _ _ _ _ _ => rfl

/-- **A call keeps bindings in agreement** whatever calls run beside it. -/
theorem keeps_bindHash (args : Args) (hready : Ready d) :
    Keeps jsonReal (fun _ _ _ => True) (bindHash args) [] d := by
  refine (keeps_read [] id).bind Grows.refl hready fun existing log d hready hlog => ?_
  refine (keeps_read log id).bind Grows.refl hready fun known log' d hready hlog' => ?_
  refine (keeps_read log' id).bind Grows.refl hready fun current log'' d hready hlog'' => ?_
  rw [hlog', hlog] at hlog''
  have hnone : AllResolved [] d := List.forall_mem_nil _
  refine (keeps_resolveNext hready hlog'' hnone _).bind Grows.refl hready ?_
  rintro existingUid log d hready ⟨hbooks, hreads⟩
  refine (keeps_resolveNext hready hbooks hreads known).bind Grows.refl hready ?_
  rintro knownUid log d hready ⟨hbooks, hreads⟩
  refine (keeps_resolveNext hready hbooks hreads current).bind Grows.refl hready ?_
  rintro currentUid log d hready ⟨hbooks, hreads⟩
  refine ((keeps_chosenUid hbooks existingUid knownUid currentUid).frame Grows.allResolved
    hreads).bind Grows.refl hready ?_
  rintro _ log d hready ⟨⟨hbooks, fresh, rfl⟩, hreads⟩
  refine ((keeps_foldCurrent hready hbooks currentUid _).frame Grows.allResolved hreads).bind
    Grows.refl hready ?_
  rintro _ log d hready ⟨⟨hbooks, hcurrent⟩, hreads⟩
  refine ((keeps_foldKnown hready hbooks existingUid knownUid currentUid fresh).frame
    (F := fun d => (∀ x, currentUid = some x → Same d x _) ∧ AllResolved _ d)
    (fun d d' hg h => ⟨fun x hx => hg.same _ _ (h.1 x hx), hg.allResolved d d' h.2⟩)
    ⟨hcurrent, hreads⟩).bind Grows.refl hready ?_
  rintro _ log d hready ⟨⟨hbooks, hfolded⟩, hcurrent, hreads⟩
  -- every uid the call has read names the chosen book
  refine keeps_record hready args.book _ _ fun x hx => ?_
  rw [hbooks] at hx
  rcases List.mem_append.mp hx with hx | hx
  · exact (hreads (current, currentUid) (by simp)).same hcurrent x hx
  rcases List.mem_append.mp hx with hx | hx
  · exact (hreads (known, knownUid) (by simp)).same (fun y hy => hfolded y (Or.inr hy)) x hx
  rcases List.mem_append.mp hx with hx | hx
  · exact (hreads (existing.map BindingRow.bookUid, existingUid) (by simp)).same
      (fun y hy => hfolded y (Or.inl hy)) x hx
  · exact absurd hx List.not_mem_nil

end Beside

/-! ## Runs -/

variable (jsonReal : ℚ → Value)

/-- Calls of `bind_hash` on one database. -/
abbrev Calls : Type := Pool Query.Answer Unit Device

/-- One step of the calls in progress. -/
abbrev step : Calls → Move Args Drawn → Calls := Pool.step (exec jsonReal) bindHash

/-- **Bindings agree after every unraced run.** -/
theorem concurrent_bindings_agree {d : Device} {moves : List (Move Args Drawn)} (hready : Ready d)
    (h : Guarded.Meets (step jsonReal) (Pool.Meets Unraced) ⟨d, []⟩ moves) :
    BoundAgree (moves.foldl (step jsonReal) ⟨d, []⟩).store :=
  (Pool.invariant Grows.trans Grows.refl hready
    (fun args _ hready => keeps_bindHash args hready) h).boundAgree

/-! ## Two copies of one file -/

/-- Two file rows, each with its own book. -/
def twoCopies : Device where
  catalog :=
    { files := (AList.singleton (1 : ℤ)
        ({ bookUid := some "a", modifiedAt := "", title := "A" } : FileRow)).insert 2
          { bookUid := some "b", modifiedAt := "", title := "B" }
      records := (AList.singleton "a" ({ createdAt := "" } : RecordRow)).insert "b"
        { createdAt := "" } }

/-- Both calls start, and their statements alternate. -/
def alternating (hash hash' : String) : List (Move Args Drawn) :=
  [.start ⟨1, hash, 1, 1⟩, .start ⟨2, hash', 1, 1⟩] ++
    (List.replicate 13 [.step 0 ⟨"x", ""⟩, .step 1 ⟨"y", ""⟩]).flatten

lemma ready_twoCopies : Ready twoCopies where
  rooted := by decide
  bound i b hb := by cases hb

/-- Calls for two hashes do not race. -/
theorem concurrent_bindings_agree_sample :
    BoundAgree ((alternating "h" "k").foldl (step fun _ => .null) ⟨twoCopies, []⟩).store :=
  concurrent_bindings_agree (fun _ => .null) ready_twoCopies (by decide +kernel)

/-- Calls for one hash do: neither sees the alias of the other. -/
theorem concurrent_bindings_diverge :
    Ready twoCopies ∧
      ((alternating "h" "h").foldl (step fun _ => .null) ⟨twoCopies, []⟩).Returned ∧
      ¬BoundAgree ((alternating "h" "h").foldl (step fun _ => .null) ⟨twoCopies, []⟩).store := by
  refine ⟨ready_twoCopies, by decide +kernel, fun hagree => ?_⟩
  have hfirst : ((alternating "h" "h").foldl (step fun _ => .null)
      ⟨twoCopies, []⟩).store.mirror.bindings.lookup 1 = some ⟨"a", "h", 1, 1⟩ := by
    decide +kernel
  have hsecond : ((alternating "h" "h").foldl (step fun _ => .null)
      ⟨twoCopies, []⟩).store.mirror.bindings.lookup 2 = some ⟨"b", "h", 1, 1⟩ := by
    decide +kernel
  exact absurd (hagree.rows 1 2 _ _ hfirst hsecond rfl) (by decide +kernel)

end Binds

end TuxBooks
