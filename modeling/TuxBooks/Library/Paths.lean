import Mathlib.Data.List.Basic

set_option relaxedAutoImplicit false
set_option autoImplicit false

/-!
# Folders and the paths inside them

Containment of a path in a watched folder, as `sidecar/src/repository/library_locations.rs` decides
it on the spelling of the two. The bytes of UTF-8 strings are compared, which is the same as
comparing their characters.

## Main definitions

* `TuxBooks.isUnder` — the separator rule.
* `TuxBooks.overlaps` — one of two folders is inside the other, or they are the same.

## Main results

* `TuxBooks.isUnder_iff` — the path is the folder, or begins with the folder and a separator.
* `TuxBooks.overlaps_of_common` — two folders above one path overlap.
-/

namespace TuxBooks

/-! ## The separator rule -/

/-- `path` is `root` or lies under it. -/
def isUnder (path root : String) : Bool :=
  path == root ||
    (decide (root.length < path.length) && root.toList.isPrefixOf path.toList &&
      path.toList[root.length]? == some '/')

/-- A path begins with a folder and a separator. -/
lemma isUnder_iff {path root : String} :
    isUnder path root = true ↔ path = root ∨ root.toList ++ ['/'] <+: path.toList := by
  have hlength : root.length = root.toList.length := String.length_toList.symm
  unfold isUnder
  simp only [Bool.or_eq_true, beq_iff_eq, Bool.and_eq_true, decide_eq_true_eq,
    List.isPrefixOf_iff_prefix]
  refine or_congr_right ⟨fun ⟨⟨_, rest, hrest⟩, hsep⟩ => ?_, fun ⟨rest, hrest⟩ => ?_⟩
  · rw [← hrest, hlength, List.getElem?_append_right (Nat.le_refl _), Nat.sub_self] at hsep
    obtain ⟨tail, rfl⟩ : ∃ tail, rest = '/' :: tail := by
      cases rest with
      | nil => cases hsep
      | cons c tail => exact ⟨tail, by rw [Option.some.inj hsep]⟩
    exact ⟨tail, by simpa using hrest⟩
  · have hpath : path.toList = root.toList ++ '/' :: rest := by rw [← hrest]; simp
    refine ⟨⟨?_, '/' :: rest, hpath.symm⟩, ?_⟩
    · rw [hlength, ← String.length_toList, hpath, List.length_append, List.length_cons]
      omega
    · rw [hpath, hlength, List.getElem?_append_right (Nat.le_refl _), Nat.sub_self]
      rfl

@[simp] lemma isUnder_self (path : String) : isUnder path path = true :=
  isUnder_iff.mpr (Or.inl rfl)

lemma isUnder_trans {path folder root : String} (h : isUnder path folder = true)
    (h' : isUnder folder root = true) : isUnder path root = true := by
  rw [isUnder_iff] at *
  obtain rfl | h := h
  · exact h'
  · obtain rfl | h' := h'
    · exact Or.inr h
    · exact Or.inr ((h'.trans (List.prefix_append _ _)).trans h)

lemma isUnder_antisymm {left right : String} (h : isUnder left right = true)
    (h' : isUnder right left = true) : left = right := by
  obtain rfl | h := isUnder_iff.mp h
  · rfl
  · obtain rfl | h' := isUnder_iff.mp h'
    · rfl
    · have hlength := h.length_le
      have hlength' := h'.length_le
      simp only [List.length_append, List.length_singleton] at hlength hlength'
      omega

/-! ## Overlapping folders -/

def overlaps (left right : String) : Bool :=
  left == right || isUnder left right || isUnder right left

lemma overlaps_iff {left right : String} :
    overlaps left right = true ↔ isUnder left right = true ∨ isUnder right left = true := by
  unfold overlaps
  rw [Bool.or_eq_true, Bool.or_eq_true, beq_iff_eq]
  refine ⟨?_, fun h => h.imp_left Or.inr⟩
  rintro ((rfl | h) | h)
  · exact Or.inl (isUnder_self _)
  · exact Or.inl h
  · exact Or.inr h

@[simp] lemma overlaps_self (root : String) : overlaps root root = true :=
  overlaps_iff.mpr (Or.inl (isUnder_self root))

lemma overlaps_comm (left right : String) : overlaps left right = overlaps right left := by
  rw [Bool.eq_iff_iff, overlaps_iff, overlaps_iff, or_comm]

lemma isUnder_of_concat {folder root : String}
    (h : root.toList ++ ['/'] <+: folder.toList ++ ['/']) : isUnder folder root = true := by
  rw [isUnder_iff]
  obtain h | h := List.prefix_concat_iff.mp h
  · exact Or.inl (String.toList_injective (List.append_cancel_right h).symm)
  · exact Or.inr h

/-- Two folders above one path overlap. -/
lemma overlaps_of_common {path left right : String} (hleft : isUnder path left = true)
    (hright : isUnder path right = true) : overlaps left right = true := by
  rw [overlaps_iff]
  obtain rfl | hleft' := isUnder_iff.mp hleft
  · exact Or.inl hright
  · obtain rfl | hright' := isUnder_iff.mp hright
    · exact Or.inr hleft
    · exact (List.prefix_or_prefix_of_prefix hright' hleft').imp isUnder_of_concat
        isUnder_of_concat

end TuxBooks
