import Mathlib.Logic.Function.Basic
import Tabular.Runner.Coordinated

/-!
# Tabular.Proofs.Runner.Held — what a transaction holds back

`Cells.held` are the cells that the participants of a transaction hold back, by row; `Contents.overlaid`
lays cells over the rows that there are.  While a unit of work runs its participants are `Fresh`.  Main
statement: `mem_changeSet_iff`, the change set of fresh participants has precisely the rows that they hold
back.
-/

namespace Tabular

/-- The values of a map are those of its entries, in the order of the keys. -/
theorem values_eq_map_toList {α β : Type} [Ord α] [Std.TransOrd α] (map : Std.ExtTreeMap α β) :
    map.values = map.toList.map (·.2) := by
  have hfold : map.values = map.foldr (fun _ b rest => b :: rest) [] := by
    obtain ⟨inner⟩ := map
    induction inner using Std.ExtDTreeMap.inductionOn with
    | mk inner => rfl
  rw [hfold, Std.ExtTreeMap.foldr_eq_foldr_toList]
  induction map.toList with
  | nil => rfl
  | cons entry rest ih => simp [ih]

theorem mem_values_iff {participants : Participants} {p : Participant} :
    p ∈ participants.values ↔ ∃ table : String, participants[table]? = some p := by
  simp [values_eq_map_toList, Std.ExtTreeMap.mem_toList_iff_getElem?_eq_some]

abbrev Cells := Change → Option (Option Row)

/-- The rows of all tables. -/
abbrev Contents := Change → Option Row

/-- The rows with cells laid over them. -/
def Contents.overlaid (contents : Contents) (cells : Cells) : Contents :=
  fun row => (cells row).getD (contents row)

theorem Contents.overlaid_update (contents : Contents) (cells : Cells) (row : Change)
    (cell : Option Row) : contents.overlaid (Function.update cells row (some cell)) =
      Function.update (contents.overlaid cells) row cell := by
  funext other
  by_cases hother : other = row
  · subst hother
    simp [overlaid]
  · simp [overlaid, hother]

namespace Cells

/-- The cells that the participants of a transaction hold back. -/
def held (participants : Participants) : Cells := fun row =>
  participants[row.table]?.bind fun p => p.writes[row.key]?

/-- No cells at all. -/
def empty : Cells := fun _ => none

variable {participants : Participants} {cells cells' cells'' : Cells}

theorem held_empty : held ∅ = empty := by
  funext row
  simp [held, empty]

/-- A table that joins holds nothing back. -/
theorem held_insert_of_writes_eq {p : Participant} {table : String} (hnone : participants[table]? = none)
    (hp : p.writes = ∅) : held (participants.insert table p) = held participants := by
  funext row
  by_cases htable : table = row.table
  · subst htable
    simp [held, hnone, hp]
  · simp [held, Std.ExtTreeMap.getElem?_insert, htable]

theorem held_insert_withWrite {p : Participant} {table : String} (hp : participants[table]? = some p)
    (key : RowKey) (cell : Option Row) : held (participants.insert table (p.withWrite key cell)) =
      Function.update (held participants) ⟨table, key⟩ (some cell) := by
  funext row
  obtain ⟨table', key'⟩ := row
  by_cases htable : table' = table
  · subst htable
    by_cases hkey : key' = key
    · subst hkey
      simp [held, Participant.withWrite]
    · have hne : key ≠ key' := fun heq => hkey heq.symm
      simp [held, Participant.withWrite, Std.ExtTreeMap.getElem?_insert, hp, hkey, hne]
  · have hne : table ≠ table' := fun heq => htable heq.symm
    simp [held, Std.ExtTreeMap.getElem?_insert, htable, hne]

/-- Whether cells differ only where those that are held back have been written, which is within some
rows. -/
def Wrote (participants : Participants) (within : Change → Prop) (cells cells' : Cells) : Prop :=
  ∀ row, cells' row = cells row ∨ (cells' row = held participants row ∧ within row)

theorem Wrote.trans {within within' : Change → Prop} (h : cells.Wrote participants within cells')
    (h' : cells'.Wrote participants within' cells'') :
    cells.Wrote participants (fun row => within row ∨ within' row) cells'' := by
  intro row
  rcases h' row with heq' | ⟨heq', hwithin⟩
  · rcases h row with heq | ⟨heq, hwithin⟩
    · exact .inl (heq'.trans heq)
    · exact .inr ⟨heq'.trans heq, .inl hwithin⟩
  · exact .inr ⟨heq', .inr hwithin⟩

theorem Wrote.mono {within within' : Change → Prop} (h : cells.Wrote participants within cells')
    (hwithin : ∀ row, within row → within' row) : cells.Wrote participants within' cells' :=
  fun row => (h row).imp_right fun hrow => ⟨hrow.1, hwithin row hrow.2⟩

/-- Where cells are those held back, writing leaves them so. -/
theorem Wrote.eq_held {within : Change → Prop} {row : Change} (h : cells.Wrote participants within cells')
    (hrow : cells row = held participants row) : cells' row = held participants row := by
  rcases h row with heq | ⟨heq, -⟩
  · rw [heq, hrow]
  · exact heq

/-- Whether cells differ only where some have been removed. -/
def Undone (cells cells' : Cells) : Prop := ∀ row, cells' row = cells row ∨ cells' row = none

theorem Undone.trans (h : cells.Undone cells') (h' : cells'.Undone cells'') :
    cells.Undone cells'' := by
  intro row
  rcases h' row with heq' | hnone
  · rw [heq']
    exact h row
  · exact .inr hnone

theorem Undone.eq_none {row : Change} (h : cells.Undone cells') (hrow : cells row = none) :
    cells' row = none := by
  rcases h row with heq | hnone
  · rw [heq, hrow]
  · exact hnone

end Cells

/-- Whether participants are those of a unit of work: each has the name of its table, and has written
nothing yet. -/
def Fresh (participants : Participants) : Prop :=
  ∀ (table : String) (p : Participant), participants[table]? = some p →
    p.schema.name = table ∧ p.persisted = []

namespace Fresh

variable {participants : Participants} {p : Participant}

theorem empty : Fresh ∅ := by
  intro table p h
  simp at h

theorem insert {table : String} (h : Fresh participants) (hname : p.schema.name = table)
    (hpersisted : p.persisted = []) : Fresh (participants.insert table p) := by
  intro other q hq
  rw [Std.ExtTreeMap.getElem?_insert] at hq
  split at hq
  · rename_i heq
    cases hq
    exact ⟨hname.trans (Std.compare_eq_iff_eq.1 heq), hpersisted⟩
  · exact h other q hq

theorem map_name (h : Fresh participants) :
    participants.values.map (·.schema.name) = participants.keys := by
  rw [values_eq_map_toList, List.map_map, ← Std.ExtTreeMap.map_fst_toList_eq_keys]
  refine List.map_congr_left fun entry hentry => ?_
  exact (h entry.1 entry.2 (Std.ExtTreeMap.mem_toList_iff_getElem?_eq_some.1 hentry)).1

theorem persisted_eq (h : Fresh participants) (hp : p ∈ participants.values) : p.persisted = [] := by
  obtain ⟨table, htable⟩ := mem_values_iff.1 hp
  exact (h table p htable).2

theorem held_eq (h : Fresh participants) (hp : p ∈ participants.values) (key : RowKey) :
    Cells.held participants ⟨p.schema.name, key⟩ = p.writes[key]? := by
  obtain ⟨table, hp⟩ := mem_values_iff.1 hp
  obtain ⟨rfl, -⟩ := h table p hp
  simp [Cells.held, hp]

theorem exists_of_held {row : Change} (h : Fresh participants)
    (hrow : (Cells.held participants row).isSome) :
    ∃ p ∈ participants.values, p.schema.name = row.table ∧ p.writes[row.key]?.isSome := by
  obtain ⟨cell, hcell⟩ := Option.isSome_iff_exists.1 hrow
  obtain ⟨p, hp, hkey⟩ := Option.bind_eq_some_iff.1 hcell
  exact ⟨p, mem_values_iff.2 ⟨_, hp⟩, (h row.table p hp).1, by rw [hkey]; rfl⟩

/-- The change set names precisely the rows that are held back. -/
theorem mem_changeSet_iff (h : Fresh participants) (row : Change) :
    row ∈ Participant.changeSet participants.values ↔ (Cells.held participants row).isSome := by
  simp only [Participant.changeSet, Std.ExtTreeSet.mem_ofList, List.contains_iff_mem, List.mem_flatMap,
    List.mem_map, Std.ExtTreeMap.mem_keys]
  constructor
  · rintro ⟨p, hp, key, hkey, rfl⟩
    rw [h.held_eq hp]
    exact Std.ExtTreeMap.mem_iff_isSome_getElem?.1 hkey
  · intro hrow
    obtain ⟨p, hp, hname, hkey⟩ := h.exists_of_held hrow
    exact ⟨p, hp, row.key, Std.ExtTreeMap.mem_iff_isSome_getElem?.2 hkey, by rw [hname]⟩

end Fresh

end Tabular
