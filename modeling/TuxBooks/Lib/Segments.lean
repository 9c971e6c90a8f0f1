import Mathlib.Data.List.Basic

set_option relaxedAutoImplicit false
set_option autoImplicit false

/-!
# Texts made of separated segments

A list of segments written with a separator in front of each, as in an absolute path. When no
segment contains the separator, the text determines its segments, and being a prefix of segments
can be read off the texts.

## Main definitions

* `Segments.render` — every segment with the separator in front of it.

## Main results

* `Segments.splitOn_render` — splitting gives the segments back.
* `Segments.render_prefix_iff` — one text, with a separator at its end, begins another.
-/

namespace Segments

variable {α : Type*} {sep : α}

/-- Every segment, with the separator in front of it. -/
def render (sep : α) (segs : List (List α)) : List α := segs.flatMap (sep :: ·)

@[simp] lemma render_nil : render sep [] = [] := rfl

@[simp] lemma render_cons (seg : List α) (segs : List (List α)) :
    render sep (seg :: segs) = sep :: (seg ++ render sep segs) := by
  simp [render]

lemma render_append (segs segs' : List (List α)) :
    render sep (segs ++ segs') = render sep segs ++ render sep segs' :=
  List.flatMap_append

/-- The separator does not occur inside a segment. -/
def Free (sep : α) (segs : List (List α)) : Prop := ∀ seg ∈ segs, sep ∉ seg

lemma Free.head {seg : List α} {segs : List (List α)} (h : Free sep (seg :: segs)) : sep ∉ seg :=
  h seg List.mem_cons_self

lemma Free.tail {seg : List α} {segs : List (List α)} (h : Free sep (seg :: segs)) :
    Free sep segs :=
  fun other hother => h other (List.mem_cons_of_mem seg hother)

/-- The pieces of a split. -/
lemma free_splitOn [DecidableEq α] (text : List α) : Free sep (text.splitOn sep) := by
  induction text with
  | nil => simp [Free]
  | cons a text ih =>
    rw [List.splitOn_cons_eq_if_modifyHead]
    split_ifs with ha
    · intro seg hseg
      obtain rfl | hseg := List.mem_cons.mp hseg
      · exact List.not_mem_nil
      · exact ih seg hseg
    · obtain ⟨first, rest, hsplit⟩ := List.exists_cons_of_ne_nil (List.splitOn_ne_nil sep text)
      rw [hsplit] at ih ⊢
      intro seg hseg
      obtain rfl | hseg := List.mem_cons.mp hseg
      · refine List.not_mem_cons_of_ne_of_not_mem (fun heq => ha ?_) ih.head
        rw [heq, beq_self_eq_true]
      · exact ih.tail seg hseg

lemma splitOn_append_render [DecidableEq α] {seg : List α} {segs : List (List α)}
    (hseg : sep ∉ seg) (h : Free sep segs) :
    (seg ++ render sep segs).splitOn sep = seg :: segs := by
  induction segs generalizing seg with
  | nil => rw [render_nil, List.append_nil, List.splitOn_eq_singleton hseg]
  | cons next segs ih =>
    rw [render_cons, List.splitOn_append_cons_self, List.splitOn_eq_singleton hseg,
      ih h.head h.tail]
    rfl

/-- **Splitting gives the segments back.** -/
theorem splitOn_render [DecidableEq α] {segs : List (List α)} (h : Free sep segs) :
    (render sep segs).splitOn sep = [] :: segs :=
  splitOn_append_render (List.not_mem_nil) h

lemma render_injective [DecidableEq α] {segs segs' : List (List α)} (h : Free sep segs)
    (h' : Free sep segs') (heq : render sep segs = render sep segs') : segs = segs' := by
  have hsplit := (splitOn_render h).symm.trans ((congrArg (·.splitOn sep) heq).trans
    (splitOn_render h'))
  exact List.tail_eq_of_cons_eq hsplit

/-- A joined text, with a separator before it. -/
lemma cons_intercalate {segs : List (List α)} (hne : segs ≠ []) :
    sep :: [sep].intercalate segs = render sep segs := by
  induction segs with
  | nil => exact absurd rfl hne
  | cons seg segs ih =>
    cases segs with
    | nil => simp [List.intercalate]
    | cons next segs =>
      have hsplit : [sep].intercalate (seg :: next :: segs) =
          seg ++ (sep :: [sep].intercalate (next :: segs)) := by
        simp [List.intercalate]
      rw [hsplit, ih (List.cons_ne_nil _ _)]
      rfl

/-- Two texts agree up to the first separator. -/
lemma cut_unique {seg seg' rest rest' : List α} (hseg : sep ∉ seg) (hseg' : sep ∉ seg')
    (h : seg ++ sep :: rest = seg' ++ sep :: rest') : seg = seg' ∧ rest = rest' := by
  classical
  have hsplit := congrArg (·.splitOn sep) h
  simp only [List.splitOn_append_cons_self, List.splitOn_eq_singleton hseg,
    List.splitOn_eq_singleton hseg', List.singleton_append] at hsplit
  obtain rfl := List.head_eq_of_cons_eq hsplit
  exact ⟨rfl, List.tail_eq_of_cons_eq (List.append_cancel_left h)⟩

/-- **A text that begins another one** with a separator after it has fewer segments, the
same ones. -/
theorem render_prefix_iff {segs segs' : List (List α)} (h : Free sep segs)
    (h' : Free sep segs') :
    render sep segs ++ [sep] <+: render sep segs' ↔ segs <+: segs' ∧ segs ≠ segs' := by
  induction segs generalizing segs' with
  | nil => cases segs' <;> simp
  | cons seg segs ih =>
    cases segs' with
    | nil => simp
    | cons seg' segs' =>
      rw [render_cons, render_cons, List.cons_append, List.append_assoc, List.cons_prefix_cons,
        and_iff_right rfl, List.cons_prefix_cons]
      constructor
      · rintro ⟨rest, hrest⟩
        obtain ⟨after, hafter⟩ : ∃ after, render sep segs ++ [sep] ++ rest = sep :: after := by
          cases segs <;> simp
        have htext : seg ++ sep :: after = seg' ++ render sep segs' := by
          rw [← hafter, ← hrest]
          simp only [List.append_assoc]
        cases segs' with
        | nil =>
          rw [render_nil, List.append_nil] at htext
          exact absurd (htext ▸ List.mem_append_right _ List.mem_cons_self) h'.head
        | cons next segs' =>
          rw [render_cons] at htext
          obtain ⟨rfl, rfl⟩ := cut_unique h.head h'.head htext
          have hbegins : render sep segs ++ [sep] <+: render sep (next :: segs') :=
            ⟨rest, hafter.trans (render_cons _ _).symm⟩
          obtain ⟨hsegs, hne⟩ := (ih h.tail h'.tail).mp hbegins
          exact ⟨⟨rfl, hsegs⟩, fun heq => hne (List.tail_eq_of_cons_eq heq)⟩
      · rintro ⟨⟨rfl, hsegs⟩, hne⟩
        rw [List.prefix_append_right_inj]
        exact (ih h.tail h'.tail).mpr ⟨hsegs, fun heq => hne (congrArg _ heq)⟩

end Segments
