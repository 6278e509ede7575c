import Tabular.Proofs.Definition.Backends
import Tabular.Proofs.Engine.Stock

/-!
# Tabular.Proofs.Definition.Keyed — a versioned store, step by step

Main statements: what may come of each call that a definition over a versioned store makes, to the catalog
in its metadata and to the store itself.
-/

namespace Tabular.Definition

open Sharing

variable {table : String} {schema : TableSchema}

theorem keyed_find : BackendComes .versioned ((Catalog.keyed askedStore).find table) (·.Found table) := by
  intro w r w' hready hends
  rcases ends_andThen.1 hends with ⟨document, w₁, hget, hrest⟩ | ⟨e, hget, rfl⟩
  · obtain ⟨b, hanswer, rfl⟩ := ends_store.1 hget
    rcases hanswer with ⟨e, he, heq, rfl⟩ | ⟨heq, rfl⟩
    · cases heq
    · cases heq
      cases hentry : w.outside.store.metadata[Catalog.entryKey table]? with
      | some document =>
        rw [hentry] at hrest
        obtain ⟨rfl, rfl⟩ := ends_of.1 hrest
        refine ⟨rfl, trivial, ?_⟩
        cases hdocument : TableSchema.ofDocumentChecked document with
        | ok schema => exact .found schema (by simp [Backends.standing, hentry])
        | error e =>
          obtain ⟨he, hnot⟩ := TableSchema.ofDocumentChecked_error hdocument
          exact .failed he hnot
      | none =>
        rw [hentry] at hrest
        obtain ⟨rfl, rfl⟩ := ends_throw.1 hrest
        exact ⟨rfl, trivial, .missing table hentry⟩
  · obtain ⟨b, ⟨_, he, heq, rfl⟩ | ⟨heq, rfl⟩, rfl⟩ := ends_store.1 hget
    · cases heq
      exact ⟨rfl, trivial, .failed he.ne_tableNotFound he.not_consistency⟩
    · cases heq

/-- One entry of the metadata is added or removed. -/
theorem standing_withEntry {b b' : Backends} (htables : b'.store.tables = b.store.tables)
    {entry : Option String} (hself : b'.store.metadata[Catalog.entryKey table]? = entry)
    (hothers : ∀ key, Catalog.entryKey table ≠ key → b'.store.metadata[key]? = b.store.metadata[key]?) :
    b'.standing .versioned = (b.standing .versioned).withEntry table entry := by
  unfold Backends.standing Standing.withEntry
  rw [htables]
  refine congrArg (Standing.mk _) (funext fun other => ?_)
  by_cases hother : other = table
  · rw [hother, Function.update_self, hself]
  · rw [Function.update_of_ne hother, hothers _ fun heq => hother (Bench.Stocked.entryKey_inj.1 heq).symm]

/-- The storage of one table is added or removed. -/
theorem standing_withStored {b b' : Backends} (hmetadata : b'.store.metadata = b.store.metadata)
    {content : Option VersionedTable} (hself : b'.store.tables[table]? = content)
    (hothers : ∀ other, table ≠ other → b'.store.tables[other]? = b.store.tables[other]?) :
    b'.standing .versioned = (b.standing .versioned).withStored table content := by
  unfold Backends.standing Standing.withStored
  rw [hmetadata]
  refine congrArg (Standing.mk · _) (funext fun other => ?_)
  by_cases hother : other = table
  · rw [hother, Function.update_self, hself]
  · rw [Function.update_of_ne hother, hothers _ (Ne.symm hother)]

theorem keyed_register : BackendComes .versioned ((Catalog.keyed askedStore).register schema)
    (·.Listed schema.name (some schema.document)) := by
  intro w r w' hready hends
  rcases ends_andThen.1 hends with ⟨added, w₁, hadd, hrest⟩ | ⟨e, hadd, rfl⟩
  · obtain ⟨b, ⟨_, he, heq, rfl⟩ | hperform, rfl⟩ := ends_store.1 hadd
    · cases heq
    · by_cases hmem : Catalog.entryKey schema.name ∈ w.outside.store.metadata
      · simp only [VersionedStore.perform, if_pos hmem] at hperform
        obtain ⟨heq, rfl⟩ := hperform
        cases heq
        obtain ⟨rfl, rfl⟩ := ends_throw.1 hrest
        exact ⟨rfl, trivial, .refused (Std.ExtTreeMap.mem_iff_isSome_getElem?.1 hmem)⟩
      · simp only [VersionedStore.perform, if_neg hmem] at hperform
        obtain ⟨heq, rfl⟩ := hperform
        cases heq
        obtain ⟨rfl, rfl⟩ := ends_ok.1 hrest
        refine ⟨rfl, trivial, .made_of ?_ ?_⟩
        · refine standing_withEntry ?_ ?_ fun key hkey => ?_
          · rfl
          · simp
          · simp [Std.ExtTreeMap.getElem?_insert, hkey]
        · simp [Backends.standing, Std.ExtTreeMap.getElem?_eq_none hmem]
  · obtain ⟨b, ⟨_, he, heq, rfl⟩ | hperform, rfl⟩ := ends_store.1 hadd
    · cases heq
      exact ⟨rfl, trivial, .failed he⟩
    · by_cases hmem : Catalog.entryKey schema.name ∈ w.outside.store.metadata
      · simp only [VersionedStore.perform, if_pos hmem] at hperform
        cases hperform.1
      · simp only [VersionedStore.perform, if_neg hmem] at hperform
        cases hperform.1

theorem erase_eq_self {metadata : Std.ExtTreeMap String String} {key : String} (h : metadata[key]? = none) :
    metadata.erase key = metadata := by
  refine Std.ExtTreeMap.ext_getElem? fun other => ?_
  rw [Std.ExtTreeMap.getElem?_erase]
  split
  · rename_i heq
    rw [← Std.compare_eq_iff_eq.1 heq, h]
  · rfl

theorem keyed_remove : BackendComes .versioned ((Catalog.keyed askedStore).remove table)
    (·.Listed table none) := by
  intro w r w' hready hends
  rcases ends_andThen.1 hends with ⟨removed, w₁, hdelete, hrest⟩ | ⟨e, hdelete, rfl⟩
  · obtain ⟨b, ⟨_, he, heq, rfl⟩ | ⟨heq, rfl⟩, rfl⟩ := ends_store.1 hdelete
    · cases heq
    · cases heq
      by_cases hmem : Catalog.entryKey table ∈ w.outside.store.metadata
      · rw [decide_eq_true hmem] at hrest
        obtain ⟨rfl, rfl⟩ := ends_ok.1 hrest
        refine ⟨rfl, trivial, .made_of ?_ ?_⟩
        · refine standing_withEntry ?_ ?_ fun key hkey => ?_
          · rfl
          · simp
          · simp [Std.ExtTreeMap.getElem?_erase, hkey]
        · simpa [Backends.standing] using Std.ExtTreeMap.mem_iff_isSome_getElem?.1 hmem
      · rw [decide_eq_false hmem] at hrest
        obtain ⟨rfl, rfl⟩ := ends_throw.1 hrest
        have hnone := Std.ExtTreeMap.getElem?_eq_none hmem
        rw [erase_eq_self hnone]
        refine ⟨rfl, trivial, .refused ?_⟩
        simp [Backends.standing, hnone]
  · obtain ⟨b, ⟨_, he, heq, rfl⟩ | ⟨heq, rfl⟩, rfl⟩ := ends_store.1 hdelete
    · cases heq
      exact ⟨rfl, trivial, .failed he⟩
    · cases heq

theorem store_createTable : BackendComes .versioned (askedStore (.createTable table))
    (·.Stocked table (some ∅) fun e => ∃ name, e = .tableAlreadyExists name) := by
  intro w r w' hready hends
  obtain ⟨b, ⟨e, he, rfl, rfl⟩ | hperform, rfl⟩ := ends_store.1 hends
  · exact ⟨rfl, trivial, .failed he⟩
  · by_cases hmem : table ∈ w.outside.store.tables
    · simp only [VersionedStore.perform, VersionedStore.createTable, if_pos hmem] at hperform
      obtain ⟨rfl, rfl⟩ := hperform
      exact ⟨rfl, trivial, .refused (Std.ExtTreeMap.mem_iff_isSome_getElem?.1 hmem) ⟨_, rfl⟩⟩
    · simp only [VersionedStore.perform, VersionedStore.createTable, if_neg hmem] at hperform
      obtain ⟨rfl, rfl⟩ := hperform
      refine ⟨rfl, trivial, .made_of ?_ ?_⟩
      · refine standing_withStored ?_ ?_ fun other hother => ?_
        · rfl
        · simp
        · simp [Std.ExtTreeMap.getElem?_insert, hother]
      · simp [Backends.standing, Std.ExtTreeMap.getElem?_eq_none hmem]

theorem store_dropTable : BackendComes .versioned (askedStore (.dropTable table))
    (·.Stocked table none fun e => ∃ name, e = .tableNotFound name) := by
  intro w r w' hready hends
  obtain ⟨b, ⟨e, he, rfl, rfl⟩ | hperform, rfl⟩ := ends_store.1 hends
  · exact ⟨rfl, trivial, .failed he⟩
  · by_cases hmem : table ∈ w.outside.store.tables
    · simp only [VersionedStore.perform, VersionedStore.dropTable, if_pos hmem] at hperform
      obtain ⟨rfl, rfl⟩ := hperform
      refine ⟨rfl, trivial, .made_of ?_ ?_⟩
      · refine standing_withStored ?_ ?_ fun other hother => ?_
        · rfl
        · simp
        · simp [Std.ExtTreeMap.getElem?_erase, hother]
      · simpa [Backends.standing] using Std.ExtTreeMap.mem_iff_isSome_getElem?.1 hmem
    · simp only [VersionedStore.perform, VersionedStore.dropTable, if_neg hmem] at hperform
      obtain ⟨rfl, rfl⟩ := hperform
      refine ⟨rfl, trivial, .refused ?_ ⟨_, rfl⟩⟩
      simp [Backends.standing, Std.ExtTreeMap.getElem?_eq_none hmem]

end Tabular.Definition
