import Mathlib.Data.List.MinMax

set_option relaxedAutoImplicit false
set_option autoImplicit false

/-!
# Last-writer-wins registers

A register holds the write with the greatest stamp it has seen. Writes are of any type with a
stamp in a linear order; the register after a sequence of writes is `List.argmax` of them, so
what two replicas hold depends only on which writes they have seen, as long as no two of these
share a stamp.

## Main definitions

* `Lww.put` — one write to a register; a write that is not newer is ignored.
* `Lww.join` — fold one register into another.

## Main results

* `Lww.argmax_congr` — two runs of the same writes leave the same register.
* `Lww.argmax_append` — the register of two runs is the join of their registers.
-/

namespace Lww

variable {α τ : Type*} [LinearOrder τ]

/-- One write to a register: it is kept when it is newer than what the register holds. -/
def put (stamp : α → τ) (current : Option α) (a : α) : Option α :=
  match current with
  | none => some a
  | some c => if stamp c < stamp a then some a else some c

/-- Fold the register `incoming` into `current`; a tie keeps `current`. -/
def join (stamp : α → τ) (current incoming : Option α) : Option α :=
  match incoming with
  | none => current
  | some a => put stamp current a

variable {stamp : α → τ}

@[simp] lemma put_none (a : α) : put stamp none a = some a := rfl

@[simp] lemma join_none (current : Option α) : join stamp current none = current := rfl

@[simp] lemma none_join (incoming : Option α) : join stamp none incoming = incoming := by
  cases incoming <;> rfl

/-- A write that is not newer is ignored. -/
lemma put_of_le {c a : α} (h : stamp a ≤ stamp c) : put stamp (some c) a = some c :=
  if_neg h.not_gt

/-- A newer write replaces what the register holds. -/
lemma put_of_lt {c a : α} (h : stamp c < stamp a) : put stamp (some c) a = some a :=
  if_pos h

/-- What a register holds after a write it held before, or it is the write. -/
lemma eq_or_eq_of_put {current : Option α} {a b : α} (h : put stamp current a = some b) :
    current = some b ∨ a = b := by
  cases current with
  | none => exact Or.inr (Option.some.inj h)
  | some c =>
    unfold put at h
    dsimp only at h
    split_ifs at h
    · exact Or.inr (Option.some.inj h)
    · exact Or.inl h

/-- What two registers hold together one of them holds. -/
lemma eq_or_eq_of_join {current incoming : Option α} {b : α}
    (h : join stamp current incoming = some b) : current = some b ∨ incoming = some b := by
  cases incoming with
  | none => exact Or.inl h
  | some a => exact (eq_or_eq_of_put h).imp id (congrArg some)

/-- A write that is newer than what the register holds, if it holds anything. -/
lemma put_of_forall_lt {current : Option α} {a : α} (h : ∀ c ∈ current, stamp c < stamp a) :
    put stamp current a = some a := by
  cases current with
  | none => rfl
  | some c => exact put_of_lt (h c rfl)

/-- A register keeps what is newer than what another one holds, if it holds anything. -/
lemma join_of_forall_lt {incoming : Option α} {c : α} (h : ∀ a ∈ incoming, stamp a < stamp c) :
    join stamp (some c) incoming = some c := by
  cases incoming with
  | none => rfl
  | some a => exact put_of_le (h a rfl).le

/-- One more write at the end of a run. -/
lemma argmax_concat (l : List α) (a : α) :
    (l ++ [a]).argmax stamp = put stamp (l.argmax stamp) a := by
  rw [List.argmax_concat]
  cases l.argmax stamp <;> rfl

/-- Folding in a register one write at a time. -/
lemma join_put (current incoming : Option α) (a : α) :
    join stamp current (put stamp incoming a) = put stamp (join stamp current incoming) a := by
  rcases incoming with _ | b
  · rfl
  rcases current with _ | c
  · rw [none_join, none_join]
  change join stamp (some c) (if stamp b < stamp a then some a else some b) =
    put stamp (if stamp c < stamp b then some b else some c) a
  by_cases hba : stamp b < stamp a <;> by_cases hcb : stamp c < stamp b <;>
    by_cases hca : stamp c < stamp a <;> simp only [hba, hcb, hca, join, put, if_true, if_false]
  · exact absurd (hcb.trans hba) hca
  · exact absurd (hca.trans_le (not_lt.mp hba)) hcb

/-- **The register of two runs is the join of their registers.** -/
theorem argmax_append (l l' : List α) :
    (l ++ l').argmax stamp = join stamp (l.argmax stamp) (l'.argmax stamp) := by
  induction l' using List.reverseRecOn with
  | nil => simp
  | append_singleton l' a ih =>
    rw [← List.append_assoc, argmax_concat, argmax_concat, ih, join_put]

/-- The register holds a write that is newer than every other one. -/
lemma argmax_eq_some_of_forall_lt {l : List α} {a : α} (ha : a ∈ l)
    (hlt : ∀ b ∈ l, b ≠ a → stamp b < stamp a) : l.argmax stamp = some a := by
  rcases hmax : l.argmax stamp with _ | c
  · rw [List.argmax_eq_none] at hmax
    simp [hmax] at ha
  · have hle : stamp a ≤ stamp c := List.le_of_mem_argmax ha hmax
    by_contra hne
    refine absurd hle (hlt c (List.argmax_mem hmax) ?_).not_ge
    rintro rfl
    exact hne rfl

/-- With distinct stamps the register holds `a` exactly when `a` is the newest write. -/
lemma argmax_eq_some_iff {l : List α} {a : α} (hinj : Set.InjOn stamp {b | b ∈ l}) :
    l.argmax stamp = some a ↔ a ∈ l ∧ ∀ b ∈ l, stamp b ≤ stamp a := by
  constructor
  · intro hmax
    exact ⟨List.argmax_mem hmax, fun b hb => List.le_of_mem_argmax hb hmax⟩
  · rintro ⟨ha, hle⟩
    exact argmax_eq_some_of_forall_lt ha fun b hb hne =>
      (hle b hb).lt_of_ne fun heq => hne (hinj hb ha heq)

/-- **Two runs of the same writes leave the same register**, whatever their order and however
often each write is repeated. -/
theorem argmax_congr {l l' : List α} (hinj : Set.InjOn stamp {b | b ∈ l})
    (hmem : ∀ a, a ∈ l ↔ a ∈ l') : l.argmax stamp = l'.argmax stamp := by
  refine Option.ext fun a => ?_
  have hset : {b | b ∈ l} = {b | b ∈ l'} := Set.ext hmem
  rw [argmax_eq_some_iff hinj,
    argmax_eq_some_iff (hset ▸ hinj), hmem]
  simp only [hmem]

end Lww
