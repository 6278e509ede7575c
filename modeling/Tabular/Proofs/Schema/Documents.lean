import Tabular.Proofs.Json.RoundTrip
import Tabular.Schema.Document

/-!
# Tabular.Proofs.Schema.Documents — schemas are read back from their documents

Main statements: `TableSchema.documents_read_back`, whatever the schema, valid or not, it is read back from
its document, and from no other schema's; and `ofDocumentChecked_document`, what a catalog finds that stores
the document of a schema.
-/

namespace Tabular

open Json

/-- A member that keeps one field of the draft is read back if its value is. -/
theorem Json.Member.reads_of {Draft α : Type} {name : String} {get : Draft → Option α}
    {set : α → Draft → Draft} {read : List Char → Except Fault (α × List Char)} {a : α} {cs : List Char}
    (h : Reads read a cs) (d : Draft) : Reads ((Member.of name get set read).read d) (set a d) cs := by
  intro rest
  simp only [Member.of, h rest, bind, Except.bind]
  rfl

theorem FieldType.reads_read (t : FieldType) : Reads FieldType.read t (chars (.string t.name)) := by
  intro rest
  have hname := reads_readString "variant identifier" t.name rest
  rw [quoted_append] at hname
  rw [chars, quoted_append, FieldType.read, skipBlanks_cons (by decide)]
  simp only [if_true, readName, hname, bind, Except.bind, ofName?_name]
  rfl

theorem Column.reads_read (column : Column) : Reads Column.form.read column (chars column.toJson) := by
  refine Form.reads_read (d := ⟨some column.name, some column.type, some column.nullable⟩) ?_ rfl
  refine .cons rfl rfl (Member.reads_of (reads_readString _ column.name) _) ?_
  refine .cons rfl rfl (Member.reads_of (FieldType.reads_read column.type) _) ?_
  exact .cons rfl rfl (Member.reads_of (reads_readBoolean column.nullable) _) .nil

theorem reads_ofStrings (l : List String) :
    Reads (readList (readString "a string")) l (chars (Json.ofStrings l)) :=
  reads_readList (reads_readString "a string") l

namespace TableSchema

theorem reads_read (s : TableSchema) : Reads TableSchema.form.read s (chars s.toJson) := by
  refine Form.reads_read
    (d := ⟨some s.name, some s.columns, some s.primaryKey, some s.indexes⟩) ?_ rfl
  refine .cons rfl rfl (Member.reads_of (reads_readString _ s.name) _) ?_
  refine .cons rfl rfl (Member.reads_of (reads_readList Column.reads_read s.columns) _) ?_
  refine .cons rfl rfl (Member.reads_of (reads_ofStrings s.primaryKey) _) ?_
  exact .cons rfl rfl (Member.reads_of (reads_ofStrings s.indexes) _) .nil

/-- Whatever the schema, valid or not, it is read back from its document. -/
theorem ofDocument_document (s : TableSchema) : ofDocument s.document = .ok s := by
  rw [ofDocument, document, readAll_of_reads s.reads_read]
  rfl

/-- Read back and validated, a schema is there if it is valid. -/
theorem ofDocumentChecked_document (s : TableSchema) :
    ofDocumentChecked s.document = (fun _ => s) <$> s.validate := by
  rw [ofDocumentChecked, ofDocument_document]
  rfl

theorem document_injective : Function.Injective document := by
  intro s t h
  have hs := ofDocument_document s
  rw [h, ofDocument_document t] at hs
  exact (Except.ok.inj hs).symm

/-- **A schema is what its document says.**  Whatever the schema, valid or not, and whatever follows its
document, reading gives back just that schema; so different schemas have different documents, and if any
text at all is read as a schema, the document of that schema is read as the same one. -/
theorem documents_read_back :
    (∀ s : TableSchema, ofDocument s.document = .ok s) ∧
      (∀ (s : TableSchema) (rest : List Char), form.read (s.document.toList ++ rest) = .ok (s, rest)) ∧
      Function.Injective document ∧
      ∀ text, (do let s ← ofDocument text; ofDocument s.document) = ofDocument text := by
  refine ⟨ofDocument_document, fun s rest => ?_, document_injective, fun text => ?_⟩
  · rw [document, Json.render, String.toList_ofList]
    exact s.reads_read rest
  · simp only [ofDocument_document]
    cases ofDocument text <;> rfl

end TableSchema

end Tabular
