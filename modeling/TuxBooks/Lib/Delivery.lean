import Mathlib.Data.List.Nodup
import Mathlib.Data.Set.Function

set_option relaxedAutoImplicit false
set_option autoImplicit false

/-!
# At-least-once delivery

A replica that receives messages in any order and more than once, and keeps a log of the keys
it has handled. A run of such a replica is a run over the first occurrences only, so what holds
for every order without repetition holds for every delivery.

## Main definitions

* `Delivery.Delivers` — a sequence delivers a set: it holds exactly the messages of the set.
* `Delivery.firsts` — the first occurrence of each key.
* `Delivery.Dedupes` — the step of a replica skips what its log has, and logs what it handles.

## Main results

* `Delivery.foldl_firsts` — a run is a run over the first occurrences.
* `Delivery.delivers_firsts`, `Delivery.nodup_firsts` — these are an order of the same messages.
-/

namespace Delivery

variable {σ α κ : Type*}

/-- The sequence `l` delivers the set `S`: every message of `S` at least once, and no other. -/
def Delivers (S : Set α) (l : List α) : Prop := ∀ a, a ∈ l ↔ a ∈ S

/-- A list delivers the messages of another one with the same members. -/
lemma delivers_of_subset {l l' : List α} (h : l ⊆ l') (h' : l' ⊆ l) :
    Delivers {a | a ∈ l} l' := fun _ => ⟨fun ha => h' ha, fun ha => h ha⟩

variable [DecidableEq κ]

/-- The messages whose key is neither in `seen` nor on an earlier message. -/
def firsts (key : α → κ) : List κ → List α → List α
  | _, [] => []
  | seen, a :: l =>
    if key a ∈ seen then firsts key seen l else a :: firsts key (key a :: seen) l

/-- A step that skips messages whose key is in the log, and logs the messages of `p`. -/
structure Dedupes (step : σ → α → σ) (key : α → κ) (log : σ → List κ) (p : α → Prop) :
    Prop where
  skip : ∀ s a, key a ∈ log s → step s a = s
  mark : ∀ s a, p a → ∀ k, k ∈ log (step s a) ↔ k = key a ∨ k ∈ log s

variable {key : α → κ} {seen : List κ} {l : List α} {a : α}

lemma mem_of_mem_firsts (h : a ∈ firsts key seen l) : a ∈ l ∧ key a ∉ seen := by
  induction l generalizing seen with
  | nil => simp [firsts] at h
  | cons b l ih =>
    unfold firsts at h
    split_ifs at h with hb
    · exact ⟨List.mem_cons_of_mem _ (ih h).1, (ih h).2⟩
    · rcases List.mem_cons.mp h with rfl | h
      · exact ⟨List.mem_cons_self, hb⟩
      · exact ⟨List.mem_cons_of_mem _ (ih h).1, fun hs => (ih h).2 (List.mem_cons_of_mem _ hs)⟩

/-- When the key identifies a message, every unseen message is among the first occurrences. -/
lemma mem_firsts (hinj : Set.InjOn key {b | b ∈ l}) :
    a ∈ firsts key seen l ↔ a ∈ l ∧ key a ∉ seen := by
  refine ⟨mem_of_mem_firsts, ?_⟩
  induction l generalizing seen with
  | nil => simp
  | cons b l ih =>
    have hinj' : Set.InjOn key {b | b ∈ l} :=
      hinj.mono fun _ h => List.mem_cons_of_mem _ h
    rintro ⟨hmem, hnew⟩
    unfold firsts
    split_ifs with hb
    · rcases List.mem_cons.mp hmem with rfl | hmem
      · exact absurd hb hnew
      · exact ih hinj' ⟨hmem, hnew⟩
    · by_cases hab : a = b
      · exact hab ▸ List.mem_cons_self
      · have hmem' : a ∈ l := (List.mem_cons.mp hmem).resolve_left hab
        have hkey : key a ≠ key b := fun h => hab (hinj hmem List.mem_cons_self h)
        exact List.mem_cons_of_mem _ (ih hinj' ⟨hmem', by simp [hkey, hnew]⟩)

/-- The first occurrences have distinct keys. -/
lemma nodup_map_firsts : ((firsts key seen l).map key).Nodup := by
  induction l generalizing seen with
  | nil => simp [firsts]
  | cons b l ih =>
    unfold firsts
    split_ifs
    · exact ih
    · refine List.nodup_cons.mpr ⟨fun h => ?_, ih⟩
      obtain ⟨a, ha, hab⟩ := List.mem_map.mp h
      exact (mem_of_mem_firsts ha).2 (hab ▸ List.mem_cons_self)

lemma nodup_firsts : (firsts key seen l).Nodup := nodup_map_firsts.of_map

/-- The first occurrences deliver the same set. -/
lemma delivers_firsts {S : Set α} (hinj : Set.InjOn key S) (hl : Delivers S l)
    (hnew : ∀ a ∈ S, key a ∉ seen) : Delivers S (firsts key seen l) := by
  intro a
  rw [mem_firsts (hinj.mono fun b hb => (hl b).mp hb), hl]
  exact ⟨And.left, fun h => ⟨h, hnew a h⟩⟩

/-- A message at the end is a first occurrence if its key is new. -/
lemma firsts_append_singleton :
    firsts key seen (l ++ [a]) =
      if key a ∈ seen ∨ key a ∈ l.map key then firsts key seen l
      else firsts key seen l ++ [a] := by
  induction l generalizing seen with
  | nil => by_cases h : key a ∈ seen <;> simp [firsts, h]
  | cons b l ih =>
    rw [List.cons_append, firsts, firsts, List.map_cons]
    by_cases hb : key b ∈ seen
    · have hiff : (key a ∈ seen ∨ key a ∈ key b :: l.map key) ↔
          (key a ∈ seen ∨ key a ∈ l.map key) := by
        have hseen : (key a ∈ seen ∨ key a = key b) ↔ key a ∈ seen :=
          or_iff_left_of_imp fun heq => heq ▸ hb
        rw [List.mem_cons, ← or_assoc, hseen]
      rw [if_pos hb, if_pos hb, ih]
      exact if_congr hiff.symm rfl rfl
    · have hiff : (key a ∈ seen ∨ key a ∈ key b :: l.map key) ↔
          (key a ∈ key b :: seen ∨ key a ∈ l.map key) := by
        rw [List.mem_cons, List.mem_cons, or_left_comm, or_assoc]
      rw [if_neg hb, if_neg hb, ih, apply_ite (b :: ·)]
      exact if_congr hiff.symm rfl rfl

/-- The first occurrence of a key is what a search for it finds. -/
lemma mem_firsts_iff_find? :
    a ∈ firsts key seen l ↔ key a ∉ seen ∧ l.find? (fun b => key b = key a) = some a := by
  induction l generalizing seen with
  | nil => simp [firsts]
  | cons b l ih =>
    by_cases hkey : key b = key a
    · rw [List.find?_cons_of_pos (by simpa using hkey), Option.some_inj, firsts]
      by_cases hb : key b ∈ seen
      · rw [if_pos hb, ih, ← hkey]
        simp [hb]
      · rw [if_neg hb, List.mem_cons, ih, ← hkey]
        simp [hb, eq_comm]
    · rw [List.find?_cons_of_neg (by simpa using hkey), firsts]
      by_cases hb : key b ∈ seen
      · rw [if_pos hb, ih]
      · have hne : a ≠ b := fun heq => hkey (heq ▸ rfl)
        rw [if_neg hb, List.mem_cons, ih, List.mem_cons, or_iff_right hne, not_or,
          and_iff_right (Ne.symm hkey)]

/-- **A run is a run over the first occurrences.** -/
theorem foldl_firsts {step : σ → α → σ} {log : σ → List κ} {p : α → Prop}
    (h : Dedupes step key log p) (hp : ∀ a ∈ l, p a) {s : σ}
    (hseen : ∀ k, k ∈ seen ↔ k ∈ log s) :
    l.foldl step s = (firsts key seen l).foldl step s := by
  induction l generalizing s seen with
  | nil => rfl
  | cons b l ih =>
    have hp' : ∀ a ∈ l, p a := fun a ha => hp a (List.mem_cons_of_mem _ ha)
    unfold firsts
    rw [List.foldl_cons]
    split_ifs with hb
    · rw [h.skip s b ((hseen _).mp hb)]
      exact ih hp' hseen
    · rw [List.foldl_cons]
      refine ih hp' fun k => ?_
      rw [h.mark s b (hp b List.mem_cons_self), List.mem_cons, hseen]

end Delivery
