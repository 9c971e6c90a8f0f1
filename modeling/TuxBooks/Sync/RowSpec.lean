import TuxBooks.Sync.EntityMode
import TuxBooks.Sync.FieldMode
import TuxBooks.Sync.Rekey

set_option relaxedAutoImplicit false
set_option autoImplicit false

/-!
# Rows that hold the newest of a list of upserts

What the upserts on one entity leave, whatever their order: per field the newest write, or as a
whole the newest operation. One more upsert on such a row, and the merge of two such rows, give
such a row again.

## Main definitions

* `TuxBooks.RowSpec` — the row that a list of upserts leaves.
* `TuxBooks.SameContent` — two rows with the same flag, clock and fields.

## Main results

* `TuxBooks.RowSpec.step` — one more upsert.
* `TuxBooks.RowSpec.merge` — merging two rows holds the newest of both lists.
* `TuxBooks.RowSpec.sameContent` — the row is determined by the upserts.
-/

namespace TuxBooks

/-- The clock and the field rows that an entity-mode upsert writes. -/
def Op.content (op : Op) : Hlc × Table String FieldRow :=
  (op.hlc, op.fields.mapRows fun _ value => ⟨value, op.hlc⟩)

/-- A row that the upserts `ops` on one entity leave, in whatever order: per field the newest
write, or as a whole the newest operation. -/
inductive RowSpec (kind : EntityKind) : List Op → Option EntityRow → Prop
  | absent : RowSpec kind [] none
  | field {ops : List Op} {r : EntityRow} (hmode : kind.mergeMode = .field) (hne : ops ≠ [])
      (hlive : r.deleted = false) (hhlc : r.hlc = Hlc.zero)
      (hfields : ∀ f, r.fields.lookup f = (ops.filterMap (·.write f)).argmax FieldRow.hlc) :
      RowSpec kind ops (some r)
  | entity {ops : List Op} {r : EntityRow} (hmode : kind.mergeMode = .entity)
      (hlive : r.deleted = false)
      (hvalue : (ops.map Op.content).argmax Prod.fst = some (r.hlc, r.fields)) :
      RowSpec kind ops (some r)

/-- Two rows with the same flag, clock and fields. -/
def SameContent (o o' : Option EntityRow) : Prop :=
  match o, o' with
  | none, none => True
  | some r, some r' => r.deleted = r'.deleted ∧ r.hlc = r'.hlc ∧
      ∀ f, r.fields.lookup f = r'.fields.lookup f
  | _, _ => False

section RowSpec

variable {kind : EntityKind} {ops ops' : List Op} {o o' : Option EntityRow}

lemma Op.filterMap_write_concat (ops : List Op) (op : Op) (f : String) :
    ((ops ++ [op]).filterMap (·.write f)).argmax FieldRow.hlc =
      Lww.join FieldRow.hlc ((ops.filterMap (·.write f)).argmax FieldRow.hlc) (op.write f) := by
  rw [List.filterMap_append, Lww.argmax_append]
  cases hw : op.write f with
  | none =>
    have hlast : [op].filterMap (·.write f) = [] := List.filterMap_cons_none hw
    rw [hlast]
    rfl
  | some w =>
    have hlast : [op].filterMap (·.write f) = [w] := List.filterMap_cons_some hw
    rw [hlast]
    rfl

/-- One more upsert on the row. -/
lemma RowSpec.step (h : RowSpec kind ops o) {op : Op} (hkind : op.kind = kind)
    (hup : op.deleted = false) (hpos : Hlc.zero < op.hlc) (bookUid : Option String) :
    RowSpec kind (ops ++ [op]) (some ((o.getD {}).step op bookUid)) := by
  have hlive : ∀ r : EntityRow, r.deleted = false →
      (r.step op bookUid) = (r.touch bookUid).put op := fun r hr =>
    EntityRow.step_of_live hr hup bookUid
  have hkept : ∀ r : EntityRow, r.deleted = false → ((r.touch bookUid).put op).deleted = false :=
    fun r hr => (EntityRow.sameFlags_put op _).deleted.trans hr
  have hmodeOp : op.kind.mergeMode = kind.mergeMode := by rw [hkind]
  cases h with
  | absent =>
    rw [Option.getD_none, hlive _ rfl]
    cases hmode : kind.mergeMode with
    | field =>
      refine .field hmode (by simp) (hkept {} rfl) ?_ fun f => ?_
      · exact EntityRow.hlc_put_of_field (hmodeOp.trans hmode) _
      · rw [EntityRow.lookup_fields_put (hmodeOp.trans hmode), Op.filterMap_write_concat]
        rfl
    | entity =>
      refine .entity hmode (hkept {} rfl) ?_
      have hold : ¬op.hlc ≤ (EntityRow.touch bookUid {}).hlc := not_le.mpr hpos
      rw [EntityRow.put_of_entity (hmodeOp.trans hmode), if_neg hold]
      rfl
  | field hmode hne hr hhlc hfields =>
    rw [Option.getD_some, hlive _ hr]
    refine .field hmode (by simp) (hkept _ hr) ?_ fun f => ?_
    · exact (EntityRow.hlc_put_of_field (hmodeOp.trans hmode) _).trans hhlc
    · rw [EntityRow.lookup_fields_put (hmodeOp.trans hmode), Op.filterMap_write_concat,
        ← hfields f]
      rfl
  | entity hmode hr hvalue =>
    rename_i r
    rw [Option.getD_some, hlive _ hr]
    refine .entity hmode (hkept _ hr) ?_
    rw [List.map_append, List.map_singleton, Lww.argmax_concat, hvalue,
      EntityRow.put_of_entity (hmodeOp.trans hmode)]
    split_ifs with hle
    · exact Lww.put_of_le hle
    · exact Lww.put_of_lt (not_le.mp hle)

/-- **Merging the rows of two uids holds the newest of both.** -/
theorem RowSpec.merge (h : RowSpec kind ops o) (h' : RowSpec kind ops' o') (winner : String) :
    RowSpec kind (ops ++ ops') (mergedByMode kind winner o' o) := by
  unfold mergedByMode
  cases h' with
  | absent =>
    rw [List.append_nil]
    cases kind.mergeMode <;> exact h
  | field hmode' hne' hlive' hhlc' hfields' =>
    rw [hmode']
    cases h with
    | absent =>
      refine .field hmode' hne' hlive' hhlc' fun f => ?_
      rw [lookup_mergeFieldRows, hfields' f]
      exact Lww.none_join _
    | field hmode hne hlive hhlc hfields =>
      refine .field hmode (by simp [hne]) hlive hhlc fun f => ?_
      rw [lookup_mergeFieldRows, List.filterMap_append, Lww.argmax_append, ← hfields f,
        ← hfields' f]
      rfl
    | entity hmode => simp [hmode] at hmode'
  | entity hmode' hlive' hvalue' =>
    rename_i l
    rw [hmode']
    cases h with
    | absent => exact .entity hmode' hlive' hvalue'
    | field hmode => simp [hmode] at hmode'
    | entity hmode hlive hvalue =>
      rename_i w
      have hjoin : ((ops ++ ops').map Op.content).argmax Prod.fst =
          Lww.put Prod.fst (some (w.hlc, w.fields)) (l.hlc, l.fields) := by
        rw [List.map_append, Lww.argmax_append, hvalue, hvalue']
        rfl
      dsimp only [mergedRow]
      by_cases hlt : w.hlc < l.hlc
      · rw [if_pos hlt]
        exact .entity hmode hlive' (hjoin.trans (Lww.put_of_lt hlt))
      · rw [if_neg hlt]
        exact .entity hmode hlive (hjoin.trans (Lww.put_of_le (not_lt.mp hlt)))

/-- The book uid of the row does not matter. -/
lemma RowSpec.map_bookUid (h : RowSpec kind ops o) (f : Option String → Option String) :
    RowSpec kind ops (o.map fun r => { r with bookUid := f r.bookUid }) := by
  cases h with
  | absent => exact .absent
  | field hmode hne hlive hhlc hfields => exact .field hmode hne hlive hhlc hfields
  | entity hmode hlive hvalue => exact .entity hmode hlive hvalue

/-- Neither does the order of the upserts. -/
lemma RowSpec.congr (h : RowSpec kind ops o) (hinj : Set.InjOn Op.hlc {op | op ∈ ops})
    (hmem : ∀ op, op ∈ ops ↔ op ∈ ops') : RowSpec kind ops' o := by
  cases h with
  | absent =>
    have hnil : ops' = [] := List.eq_nil_iff_forall_not_mem.mpr fun op hop => by
      simpa using (hmem op).mpr hop
    rw [hnil]
    exact .absent
  | field hmode hne hlive hhlc hfields =>
    refine .field hmode ?_ hlive hhlc fun f => ?_
    · rintro rfl
      exact hne (List.eq_nil_iff_forall_not_mem.mpr fun op hop => by simpa using (hmem op).mp hop)
    · rw [hfields f]
      refine Lww.argmax_congr ?_ fun w => ?_
      · rintro w hw w' hw' heq
        obtain ⟨op, hop, hwrite⟩ := List.mem_filterMap.mp hw
        obtain ⟨op', hop', hwrite'⟩ := List.mem_filterMap.mp hw'
        have hops : op = op' := hinj hop hop' (by
          rw [← (Op.write_eq_some.mp hwrite).2, ← (Op.write_eq_some.mp hwrite').2]
          exact heq)
        rw [hops, hwrite'] at hwrite
        exact (Option.some_inj.mp hwrite).symm
      · simp only [List.mem_filterMap, hmem]
  | entity hmode hlive hvalue =>
    refine .entity hmode hlive (Eq.trans (Lww.argmax_congr ?_ fun c => ?_).symm hvalue)
    · rintro c hc c' hc' heq
      obtain ⟨op, hop, rfl⟩ := List.mem_map.mp hc
      obtain ⟨op', hop', rfl⟩ := List.mem_map.mp hc'
      exact congrArg Op.content (hinj hop hop' heq)
    · simp only [List.mem_map, hmem]

/-- Two rows that the same upserts leave have the same content. -/
lemma RowSpec.sameContent (h : RowSpec kind ops o) (h' : RowSpec kind ops' o')
    (hwrite : ∀ f, ops'.filterMap (·.write f) = ops.filterMap (·.write f))
    (hcontent : ops'.map Op.content = ops.map Op.content) : SameContent o o' := by
  have hlength : ops'.length = ops.length := by simpa using congrArg List.length hcontent
  cases h with
  | absent =>
    cases h' with
    | absent => trivial
    | field _ hne => exact absurd (List.eq_nil_of_length_eq_zero hlength) hne
    | entity _ _ hvalue' => simp [hcontent] at hvalue'
  | field hmode hne hlive hhlc hfields =>
    cases h' with
    | absent => exact absurd (List.eq_nil_of_length_eq_zero hlength.symm) hne
    | field _ _ hlive' hhlc' hfields' =>
      exact ⟨hlive.trans hlive'.symm, hhlc.trans hhlc'.symm, fun f => by
        rw [hfields f, hfields' f, hwrite f]⟩
    | entity hmode' => simp [hmode] at hmode'
  | entity hmode hlive hvalue =>
    cases h' with
    | absent => simp [← hcontent] at hvalue
    | field hmode' => simp [hmode] at hmode'
    | entity _ hlive' hvalue' =>
      rw [hcontent, hvalue] at hvalue'
      obtain ⟨hhlc, hfields⟩ := Prod.mk.inj (Option.some_inj.mp hvalue')
      exact ⟨hlive.trans hlive'.symm, hhlc, fun f => by rw [hfields]⟩

end RowSpec

end TuxBooks
