import Tabular.Proofs.Provider.Stages

/-!
# Tabular.Proofs.Provider.Keyed — a change of the tables over a versioned store

Main statements: for each step that creating and dropping a table takes over a versioned store, to the store and
to the catalog in its metadata, that it is safe and what the listing is after it.
-/

namespace Tabular.Provider

open Definition (Backends)

variable {listed : Schemas} {bare : String → Prop} {cache : LookupCache} {w : Place} {table : String}
  {schema : TableSchema}

section Calls

variable {c : VersionedCall} {a : c.Answer} {s : VersionedStore}

/-- A call that writes no row stores none. -/
theorem fewer_store (hperform : w.outside.store.perform c = .ok (a, s))
    (hc : ∀ table key version cell, c ≠ .write table key version cell) :
    Fewer .versioned w.outside { w.outside with store := s } := by
  intro table key row _ hrow
  rcases VersionedStore.holds_perform hperform hrow with hrow | ⟨version, rfl⟩
  · exact hrow
  · exact absurd rfl (hc _ _ _ _)

/-- The stage after a call that leaves the metadata alone and writes no row. -/
theorem Stage.stored {staged : Nat → Option Staged} (h : Stage .versioned listed bare staged cache w)
    (hperform : w.outside.store.perform c = .ok (a, s)) (hmetadata : s.metadata = w.outside.store.metadata)
    (hc : ∀ table key version cell, c ≠ .write table key version cell) :
    Stage .versioned listed bare staged cache { w with outside := { w.outside with store := s } } := by
  refine h.next ?_ (fewer_store hperform hc) h.staged
  simp only [Backends.standing, hmetadata]

end Calls

theorem safely_store_createTable (hw : Settled .versioned listed w) :
    Safely .versioned (fun w _ => Settled .versioned listed w) (store (.createTable table)).run w := by
  have hcreate : Safely .versioned (fun w' _ => Stage .versioned listed (fun _ => False) nothing w.content w')
      (store (.createTable table)).run w := by
    refine Safely.store hw.stage (fun w _ hw => hw.fine) (fun w a s hw hperform => ?_) fun w e hw => hw
    refine hw.stored hperform ?_ fun _ _ _ _ heq => by cases heq
    have hcreated := VersionedStore.eq_ok_of_answered hperform
    unfold VersionedStore.createTable at hcreated
    split at hcreated <;> cases hcreated
    rfl
  exact hcreate.mono fun w _ hw' => hw'.settled hw.coherent

theorem safely_store_dropTable (hw : Settled .versioned listed w) :
    Safely .versioned (fun w r => Settled .versioned listed w ∧ (r = .ok () → Bare .versioned w.outside table))
      (store (.dropTable table)).run w := by
  have hdrop : Safely .versioned (fun w' r => Stage .versioned listed (fun _ => False) nothing w.content w' ∧
      (r = .ok () → Bare .versioned w'.outside table)) (store (.dropTable table)).run w := by
    refine Safely.store hw.stage (fun w _ hw => hw.1.fine) (fun w a s hw hperform => ?_) fun w e hw =>
      ⟨hw, fun h => by cases h⟩
    have hdropped := VersionedStore.eq_ok_of_answered hperform
    unfold VersionedStore.dropTable at hdropped
    split at hdropped
    · have hstage := hw.stored hperform (by cases hdropped; rfl) fun _ _ _ _ heq => by cases heq
      refine ⟨hstage, fun _ key row => VersionedStore.not_holds_of_tables ?_⟩
      cases hdropped
      simp
    · cases hdropped
  exact hdrop.mono fun w _ hw' => ⟨hw'.1.settled hw.coherent, hw'.2⟩

theorem safely_keyed_register (hvalid : schema.validate = .ok ())
    (hw : Stage .versioned listed (· = schema.name) nothing cache w) :
    Safely .versioned (fun w r => ∃ listed' bare, Stage .versioned listed' bare nothing cache w ∧
        Relists listed schema.name (some ⟨schema, rfl⟩) r listed')
      ((Catalog.keyed store).register schema).run w := by
  have hadd : Safely .versioned
      (fun w r => (r = .ok true ∧ Stage .versioned (Function.update listed schema.name (some ⟨schema, rfl⟩))
          (· = schema.name) nothing cache w) ∨
        (r ≠ .ok true ∧ Stage .versioned listed (· = schema.name) nothing cache w))
      (store (.metadataAdd (Catalog.entryKey schema.name) schema.document)).run w := by
    refine Safely.store hw (fun w r hw => hw.elim (·.2.fine) (·.2.fine)) (fun w a s hw hperform => ?_)
      fun w e hw => .inr ⟨by simp, hw⟩
    have hfewer := fewer_store hperform fun _ _ _ _ heq => by cases heq
    by_cases hmem : Catalog.entryKey schema.name ∈ w.outside.store.metadata
    · simp only [VersionedStore.perform, if_pos hmem] at hperform
      cases hperform
      exact .inr ⟨by simp, hw⟩
    · simp only [VersionedStore.perform, if_neg hmem] at hperform
      cases hperform
      refine .inl ⟨rfl, hw.relisted (some schema.document) _ ?_ ?_ hfewer rfl hw.staged⟩
      · refine congrArg Definition.Standing.entries (Definition.standing_withEntry ?_ ?_ fun key hkey => ?_)
        · rfl
        · simp
        · simp [Std.ExtTreeMap.getElem?_insert, hkey]
      · rw [Option.map_some, Option.map_some, entrySchema, TableSchema.ofDocumentChecked_document, hvalid]
        rfl
  refine hadd.andThen ?_ ?_
  · rintro w added - (⟨heq, hw⟩ | ⟨hne, hw⟩)
    · cases heq
      exact ⟨hw.fine, _, _, hw, .made _⟩
    · cases added with
      | true => exact absurd rfl hne
      | false => exact ⟨hw.fine, _, _, hw, .failed _⟩
  · rintro w e (⟨heq, -⟩ | ⟨-, hw⟩)
    · cases heq
    · exact ⟨_, _, hw, .failed e⟩

theorem safely_keyed_remove (hw : Stage .versioned listed (· = table) nothing cache w) :
    Safely .versioned (fun w r => ∃ listed' bare, Stage .versioned listed' bare nothing cache w ∧
        Relists listed table none r listed')
      ((Catalog.keyed store).remove table).run w := by
  have hdelete : Safely .versioned
      (fun w r => ∃ listed' bare, Stage .versioned listed' bare nothing cache w ∧
        Relists listed table none (r.map fun _ => ()) listed')
      (store (.metadataDelete (Catalog.entryKey table))).run w := by
    refine Safely.store hw (fun w r hw => ?_) (fun w a s hw hperform => ?_) fun w e hw => ⟨_, _, hw, .failed e⟩
    · obtain ⟨_, _, hw, -⟩ := hw
      exact hw.fine
    have hfewer := fewer_store hperform fun _ _ _ _ heq => by cases heq
    cases hperform
    refine ⟨_, _, hw.relisted none none ?_ rfl hfewer rfl hw.staged, .made _⟩
    refine congrArg Definition.Standing.entries (Definition.standing_withEntry ?_ ?_ fun key hkey => ?_)
    · rfl
    · simp
    · simp [Std.ExtTreeMap.getElem?_erase, hkey]
  refine hdelete.andThen ?_ fun w e hw => hw
  rintro w deleted - ⟨listed', bare, hw, hrelists⟩
  cases deleted with
  | true => exact ⟨hw.fine, listed', bare, hw, hrelists⟩
  | false => exact ⟨hw.fine, listed', bare, hw, nofun, hrelists.others⟩

end Tabular.Provider
