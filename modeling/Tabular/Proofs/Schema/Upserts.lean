import Tabular.Proofs.Schema.Fits
import Tabular.Proofs.Schema.Valid

/-!
# Tabular.Proofs.Schema.Upserts — what a merge makes of a row

Overlaying is idempotent and associative, and what it makes of a complete row that fits is one if the cells
of the update fit.  Main statement: `mergeRow_exact`, so it depends on the update alone whether a merge
succeeds, and its result is the update laid over the row.
-/

namespace Tabular

namespace Row

variable {base update later : Row}

theorem overlay_overlay_self (base update : Row) : (base.overlay update).overlay update = base.overlay update := by
  refine Std.ExtTreeMap.ext_getElem? fun column => ?_
  rw [getElem?_overlay_eq_or, getElem?_overlay_eq_or]
  cases update[column]? <;> rfl

theorem overlay_assoc (base update later : Row) :
    (base.overlay update).overlay later = base.overlay (update.overlay later) := by
  refine Std.ExtTreeMap.ext_getElem? fun column => ?_
  simp only [getElem?_overlay_eq_or, Option.or_assoc]

theorem mem_overlay {column : String} : column ∈ base.overlay update ↔ column ∈ update ∨ column ∈ base := by
  simp only [Std.ExtTreeMap.mem_iff_isSome_getElem?, getElem?_overlay_eq_or, Option.isSome_or, Bool.or_eq_true]

end Row

namespace TableSchema

variable {s : TableSchema} {existing : Option Row} {row update later merged : Row}

/-! ### Rows with an update laid over them -/

theorem CellsFit.overlay (hrow : s.CellsFit row) (hupdate : s.CellsFit update) :
    s.CellsFit (row.overlay update) := by
  intro name value hcell
  rw [Row.getElem?_overlay_eq_or, Option.or_eq_some_iff] at hcell
  exact hcell.elim (hupdate name value) fun h => hrow name value h.2

/-- The cells of the update are among those of the overlaid row. -/
theorem CellsFit.of_overlay (h : s.CellsFit (row.overlay update)) : s.CellsFit update := fun name value hcell =>
  h name value (Row.getElem?_overlay hcell)

theorem Complete.overlay (h : s.Complete row) : s.Complete (row.overlay update) := fun column hmem hnullable =>
  Row.mem_overlay.2 (.inr (h column hmem hnullable))

/-! ### Merges -/

/-- A merge succeeds if what it makes passes. -/
theorem mergeRow_eq_ok_iff : s.mergeRow existing update = .ok merged ↔
    merged = existing.elim update (·.overlay update) ∧ s.validateRow merged = .ok () := by
  constructor
  · exact fun h => ⟨eq_of_mergeRow h, validateRow_mergeRow h⟩
  · rintro ⟨rfl, hvalid⟩
    cases existing <;> exact seq_eq_ok_iff.2 ⟨hvalid, rfl⟩

theorem exists_mergeRow_iff : (∃ merged, s.mergeRow existing update = .ok merged) ↔
    s.validateRow (existing.elim update (·.overlay update)) = .ok () := by
  constructor
  · rintro ⟨merged, h⟩
    obtain ⟨rfl, hvalid⟩ := mergeRow_eq_ok_iff.1 h
    exact hvalid
  · exact fun h => ⟨_, mergeRow_eq_ok_iff.2 ⟨rfl, h⟩⟩

/-- A merge that fails tells why what it would make does not pass. -/
theorem validateRow_of_mergeRow_eq_error {e : StoreError} (h : s.mergeRow existing update = .error e) :
    s.validateRow (existing.elim update (·.overlay update)) = .error e := by
  have hvalidated : ∀ row, (s.validateRow row >>= fun _ => pure row) = .error e → s.validateRow row = .error e := by
    intro row hrow
    cases hvalid : s.validateRow row with
    | error e' =>
      rw [hvalid] at hrow
      cases hrow
      rfl
    | ok =>
      rw [hvalid] at hrow
      cases hrow
  cases existing <;> exact hvalidated _ h

/-- Into a row that passes an update is merged if its own cells fit. -/
theorem exists_mergeRow_some_iff (hdistinct : (s.columns.map (·.name)).Nodup) (hrow : s.validateRow row = .ok ()) :
    (∃ merged, s.mergeRow (some row) update = .ok merged) ↔ s.CellsFit update := by
  obtain ⟨hfit, hcomplete⟩ := (validateRow_eq_ok_iff hdistinct).1 hrow
  rw [exists_mergeRow_iff, Option.elim_some, validateRow_eq_ok_iff hdistinct]
  exact ⟨fun h => h.1.of_overlay, fun h => ⟨hfit.overlay h, hcomplete.overlay⟩⟩

/-- If a merge into a row that passes fails, it tells what is wrong with a cell of the update. -/
theorem exists_cell_of_mergeRow_eq_error (hdistinct : (s.columns.map (·.name)).Nodup)
    (hrow : s.validateRow row = .ok ()) {e : StoreError} (h : s.mergeRow (some row) update = .error e) :
    ∃ (name : String) (value : Value) (flaw : RowFlaw), update[name]? = some value ∧
      s.checkCell (name, value) = .error flaw ∧ e = .invalidRow s.name flaw.reason := by
  obtain ⟨hfit, hcomplete⟩ := (validateRow_eq_ok_iff hdistinct).1 hrow
  obtain ⟨flaw, he, ⟨name, value, hcell, hflaw⟩ | ⟨column, hmem, hflaw⟩⟩ :=
    exists_flaw_of_validateRow (validateRow_of_mergeRow_eq_error h)
  · rw [Option.elim_some, Row.getElem?_overlay_eq_or, Option.or_eq_some_iff] at hcell
    rcases hcell with hcell | ⟨-, hcell⟩
    · exact ⟨name, value, flaw, hcell, hflaw, he⟩
    · rw [(checkCell_eq_ok_iff hdistinct).2 (hfit name value hcell)] at hflaw
      cases hflaw
  · rw [Option.elim_some, checkPresent_eq_ok_iff.2 (hcomplete.overlay column hmem)] at hflaw
    cases hflaw

theorem exists_ofValue? {value : Value} {type : FieldType} (htype : value.fieldType? = some type)
    (hcapable : type.isKeyCapable = true) : ∃ part, KeyPart.ofValue? value = some part := by
  cases value <;> cases htype <;> first | exact ⟨_, rfl⟩ | cases hcapable

/-- A value that a key column allows makes a key part. -/
theorem exists_keyPart {name : String} {column : Column} {value : Value} (hcolumn : s.column? name = some column)
    (hcapable : column.type.isKeyCapable = true) (hnullable : column.nullable = false)
    (hallows : column.Allows value) : ∃ part, s.keyPart name value = .ok part := by
  have htype : value.fieldType? = some column.type := hallows.resolve_right fun h => by simp [hnullable] at h
  obtain ⟨part, hpart⟩ := exists_ofValue? htype hcapable
  refine ⟨part, ?_⟩
  unfold keyPart
  rw [hcolumn]
  exact seq_eq_ok_iff.2 ⟨Column.checkCell_eq_ok_iff.2 hallows, by rw [hpart]⟩

theorem exists_mapM {α β ε : Type} {f : α → Except ε β} {as : List α} (h : ∀ a ∈ as, ∃ b, f a = .ok b) :
    ∃ bs, as.mapM f = .ok bs := by
  induction as with
  | nil => exact ⟨[], rfl⟩
  | cons a as ih =>
    obtain ⟨b, hb⟩ := h a List.mem_cons_self
    obtain ⟨bs, hbs⟩ := ih fun other hother => h other (List.mem_cons_of_mem _ hother)
    exact ⟨b :: bs, mapM_cons_eq_ok.2 ⟨b, bs, hb, hbs, rfl⟩⟩

/-- A row that has the key columns, and whose cells fit, has a key. -/
theorem exists_keyOf (hs : s.validate = .ok ()) (hfit : s.CellsFit row)
    (hkeys : ∀ column ∈ s.primaryKey, column ∈ row) : ∃ key, s.keyOf row = .ok key := by
  have hdistinct := distinct_of_validate hs
  have hpart : ∀ column ∈ s.primaryKey, ∃ part, s.keyPartOf row column = .ok part := by
    intro name hname
    obtain ⟨column, hcolumn, hcapable, hnullable⟩ := keyColumn_of_validate hs hname
    obtain ⟨value, hvalue⟩ := Option.isSome_iff_exists.1 (Std.ExtTreeMap.mem_iff_isSome_getElem?.1 (hkeys _ hname))
    obtain ⟨other, hother, hsame, hallows⟩ := hfit _ value hvalue
    rw [(column?_eq_some_iff hdistinct).2 ⟨hother, hsame⟩] at hcolumn
    cases hcolumn
    rw [keyPartOf, hvalue]
    exact exists_keyPart ((column?_eq_some_iff hdistinct).2 ⟨hother, hsame⟩) hcapable hnullable hallows
  obtain ⟨parts, hparts⟩ := exists_mapM hpart
  exact ⟨⟨parts⟩, by rw [keyOf, hparts]; rfl⟩

/-- Merging twice is merging what the second update makes of the first. -/
theorem mergeRow_overlay {again : Row} (h : s.mergeRow existing update = .ok merged)
    (hlater : s.mergeRow (some merged) later = .ok again) : s.mergeRow existing (update.overlay later) = .ok again := by
  obtain ⟨rfl, -⟩ := mergeRow_eq_ok_iff.1 h
  obtain ⟨rfl, hvalid⟩ := mergeRow_eq_ok_iff.1 hlater
  refine mergeRow_eq_ok_iff.2 ⟨?_, hvalid⟩
  cases existing with
  | none => rfl
  | some row => exact Row.overlay_assoc row update later

/-- Merging an update once more changes nothing. -/
theorem mergeRow_again (h : s.mergeRow existing update = .ok merged) :
    s.mergeRow (some merged) update = .ok merged := by
  obtain ⟨rfl, hvalid⟩ := mergeRow_eq_ok_iff.1 h
  refine mergeRow_eq_ok_iff.2 ⟨?_, hvalid⟩
  cases existing with
  | none =>
    refine Std.ExtTreeMap.ext_getElem? fun column => ?_
    rw [Option.elim_some, Option.elim_none, Row.getElem?_overlay_eq_or, Option.or_self]
  | some row => exact (Row.overlay_overlay_self row update).symm

/-- **Merging is exact, and only the update can be wrong.**  An update is merged into a complete row precisely
if each of its cells stands in a declared column that allows it; otherwise the error tells what is wrong with
one of them.  What the merge makes has the cells of the update, those of the row elsewhere, and no others; it
is a complete row, with the key of the update if that has the key columns.  Without a row an update has to be
a complete row by itself, which is then the result.  In either case merging the update again changes nothing,
and merging another one comes to merging both at once. -/
theorem mergeRow_exact (hs : s.validate = .ok ()) :
    (∀ row update : Row, s.validateRow row = .ok () →
      ((∃ merged, s.mergeRow (some row) update = .ok merged) ↔ s.CellsFit update) ∧
      (∀ e, s.mergeRow (some row) update = .error e → ∃ (name : String) (value : Value) (flaw : RowFlaw),
        update[name]? = some value ∧ s.checkCell (name, value) = .error flaw ∧
          e = .invalidRow s.name flaw.reason) ∧
      ∀ merged, s.mergeRow (some row) update = .ok merged →
        (∀ column : String, merged[column]? = update[column]?.or row[column]?) ∧
        s.validateRow merged = .ok () ∧
        ((∀ column ∈ s.primaryKey, column ∈ update) →
          ∃ key, s.keyOf update = .ok key ∧ s.keyOf merged = .ok key)) ∧
    (∀ update : Row,
      ((∃ merged, s.mergeRow none update = .ok merged) ↔ s.CellsFit update ∧ s.Complete update) ∧
      ∀ merged, s.mergeRow none update = .ok merged → merged = update) ∧
    ∀ (existing : Option Row) (update merged : Row), s.mergeRow existing update = .ok merged →
      s.mergeRow (some merged) update = .ok merged ∧
      ∀ later again, s.mergeRow (some merged) later = .ok again →
        s.mergeRow existing (update.overlay later) = .ok again := by
  have hdistinct := distinct_of_validate hs
  refine ⟨fun row update hrow => ⟨exists_mergeRow_some_iff hdistinct hrow,
    fun e he => exists_cell_of_mergeRow_eq_error hdistinct hrow he, fun merged hmerge => ?_⟩, fun update => ?_,
    fun existing update merged hmerge => ⟨mergeRow_again hmerge, fun later again => mergeRow_overlay hmerge⟩⟩
  · obtain ⟨heq, hvalid⟩ := mergeRow_eq_ok_iff.1 hmerge
    refine ⟨fun column => ?_, hvalid, fun hkeys => ?_⟩
    · rw [heq]
      exact Row.getElem?_overlay_eq_or row update column
    · have hfit := (exists_mergeRow_some_iff hdistinct hrow).1 ⟨merged, hmerge⟩
      obtain ⟨key, hkey⟩ := exists_keyOf hs hfit hkeys
      exact ⟨key, hkey, keyOf_mergeRow hmerge hkey⟩
  · refine ⟨exists_mergeRow_iff.trans (validateRow_eq_ok_iff hdistinct), fun merged hmerge => ?_⟩
    exact (mergeRow_eq_ok_iff.1 hmerge).1

/-- A table of goods with a remark that may be missing. -/
def goods : TableSchema where
  name := "goods"
  columns := [⟨"id", .long, false⟩, ⟨"price", .decimal, false⟩, ⟨"remark", .string, true⟩]
  primaryKey := ["id"]
  indexes := []

def lastOne : Row := .ofCells [("id", .long 7), ("price", .decimal 1999 2), ("remark", .string "last one")]

/-- An update that takes the remark away. -/
def unremarked : Row := .ofCells [("id", .long 7), ("remark", .null)]

/-- An update that takes the price away, which has to be there. -/
def unpriced : Row := .ofCells [("id", .long 7), ("price", .null)]

/-- The remark is taken away and the price stays; the price cannot be taken away. -/
theorem mergeRow_exact_goods : goods.validate = .ok () ∧ goods.validateRow lastOne = .ok () ∧
    (∃ merged, goods.mergeRow (some lastOne) unremarked = .ok merged ∧
      merged["price"]? = some (.decimal 1999 2) ∧ merged["remark"]? = some .null ∧
      goods.validateRow merged = .ok () ∧ goods.keyOf merged = .ok ⟨[.long 7]⟩ ∧
      goods.mergeRow (some merged) unremarked = .ok merged) ∧
    (∃ name value flaw, unpriced[name]? = some value ∧ goods.checkCell (name, value) = .error flaw ∧
      goods.mergeRow (some lastOne) unpriced = .error (.invalidRow "goods" flaw.reason)) ∧
    ¬ goods.CellsFit unpriced := by
  obtain ⟨hsome, -, hagain⟩ := mergeRow_exact (s := goods) rfl
  obtain ⟨-, -, hmerged⟩ := hsome lastOne unremarked rfl
  obtain ⟨hexists, hrefused, -⟩ := hsome lastOne unpriced rfl
  have hprice : goods.mergeRow (some lastOne) unpriced =
      .error (.invalidRow "goods" (RowFlaw.nullCell "price").reason) := by rfl
  refine ⟨rfl, rfl, ?_, ?_, fun hfit => ?_⟩
  · obtain ⟨hcells, hvalid, hkey⟩ := hmerged (lastOne.overlay unremarked) rfl
    obtain ⟨key, hkey, hkey'⟩ := hkey (by decide)
    cases hkey.symm.trans (show goods.keyOf unremarked = .ok ⟨[.long 7]⟩ from rfl)
    exact ⟨_, rfl, hcells "price", hcells "remark", hvalid, hkey', (hagain (some lastOne) _ _ rfl).1⟩
  · obtain ⟨name, value, flaw, hcell, hflaw, he⟩ := hrefused _ hprice
    exact ⟨name, value, flaw, hcell, hflaw, hprice.trans (congrArg _ he)⟩
  · obtain ⟨merged, hmerge⟩ := hexists.2 hfit
    rw [hprice] at hmerge
    cases hmerge

end TableSchema

end Tabular
