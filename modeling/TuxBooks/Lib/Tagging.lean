import Mathlib.Logic.Relation
import Mathlib.Order.Basic

set_option relaxedAutoImplicit false
set_option autoImplicit false

/-!
# Items that share a tag

A relation `K` that gives tags to items. Two items are linked when a chain of items leads from
one to the other in which neighbours share a tag. A choice of one representative for each class
is determined when every representative is the least item of its class that matters.

## Main definitions

* `Tagging.Linked` — the equivalence that shared tags generate.

## Main results

* `Tagging.Linked.map` — a map that carries tags carries links.
* `Tagging.Linked.const` — a function that agrees on a shared tag agrees on a class.
* `Tagging.representative_unique` — two choices of least representatives agree.
-/

namespace Tagging

variable {κ α β : Type*}

/-- The items share a tag. -/
def Share (K : κ → α → Prop) (a b : α) : Prop := ∃ k, K k a ∧ K k b

/-- A chain of shared tags leads from one item to the other. -/
def Linked (K : κ → α → Prop) : α → α → Prop := Relation.EqvGen (Share K)

namespace Linked

variable {K : κ → α → Prop} {a b c : α}

lemma refl (a : α) : Linked K a a := Relation.EqvGen.refl a

lemma symm (h : Linked K a b) : Linked K b a := Relation.EqvGen.symm _ _ h

lemma trans (h : Linked K a b) (h' : Linked K b c) : Linked K a c :=
  Relation.EqvGen.trans _ _ _ h h'

/-- Two items with one tag are linked. -/
lemma of_share {k : κ} (ha : K k a) (hb : K k b) : Linked K a b := .rel _ _ ⟨k, ha, hb⟩

/-- A map that carries the tags carries the links. -/
lemma map {K' : κ → β → Prop} {f : α → β} (hf : ∀ k a, K k a → K' k (f a)) (h : Linked K a b) :
    Linked K' (f a) (f b) := by
  induction h with
  | rel a b hab =>
    obtain ⟨k, ha, hb⟩ := hab
    exact of_share (hf k a ha) (hf k b hb)
  | refl a => exact refl (f a)
  | symm a b _ ih => exact ih.symm
  | trans a b c _ _ ih ih' => exact ih.trans ih'

/-- More tags link more. -/
lemma mono {K' : κ → α → Prop} (hK : ∀ k a, K k a → K' k a) (h : Linked K a b) :
    Linked K' a b := h.map (f := id) hK

/-- A function that agrees on items with a shared tag agrees on linked items. -/
lemma const {f : α → β} (hf : ∀ k a b, K k a → K k b → f a = f b) (h : Linked K a b) :
    f a = f b := by
  induction h with
  | rel a b hab =>
    obtain ⟨k, ha, hb⟩ := hab
    exact hf k a b ha hb
  | refl a => rfl
  | symm a b _ ih => exact ih.symm
  | trans a b c _ _ ih ih' => exact ih.trans ih'

/-- An item linked to another one has a tag. -/
lemma eq_or_tag (h : Linked K a b) : a = b ∨ (∃ k, K k a) ∧ ∃ k, K k b := by
  induction h with
  | rel a b hab =>
    obtain ⟨k, ha, hb⟩ := hab
    exact Or.inr ⟨⟨k, ha⟩, ⟨k, hb⟩⟩
  | refl a => exact Or.inl rfl
  | symm a b _ ih => exact ih.imp Eq.symm And.symm
  | trans a b c _ _ ih ih' =>
    rcases ih with rfl | ih
    · exact ih'
    · rcases ih' with rfl | ih'
      · exact Or.inr ih
      · exact Or.inr ⟨ih.1, ih'.2⟩

end Linked

/-- **Representatives are unique.** Two choices that are constant on shared tags, stay inside the
class and go down agree on every item of `S`, a set that the choices stay in. -/
theorem representative_unique [PartialOrder α] {K : κ → α → Prop} {S : Set α} {f g : α → α}
    (hf : ∀ k a b, K k a → K k b → f a = f b) (hg : ∀ k a b, K k a → K k b → g a = g b)
    (hlf : ∀ a ∈ S, f a ∈ S ∧ Linked K a (f a) ∧ f a ≤ a)
    (hlg : ∀ a ∈ S, g a ∈ S ∧ Linked K a (g a) ∧ g a ≤ a) {a : α} (ha : a ∈ S) : f a = g a := by
  obtain ⟨hfS, hfa, -⟩ := hlf a ha
  obtain ⟨hgS, hga, -⟩ := hlg a ha
  apply le_antisymm
  · calc f a = f (g a) := hga.const hf
      _ ≤ g a := (hlf (g a) hgS).2.2
  · calc g a = g (f a) := hfa.const hg
      _ ≤ f a := (hlg (f a) hfS).2.2

end Tagging
