import Tabular.Proofs.Interleaving.Work
import Tabular.Proofs.Work.Shelf

/-!
# Tabular.Proofs.Interleaving.Steps — read-modify-writes in a transaction

A unit of work in a transaction gets `Faithful` answers if they are those of a snapshot, and does then what
it does on plain tables, but holds the changes back.  Main statement: `performs_all`, a unit of work that
only replaces rows that it has read makes the same of every shelf that agrees with the snapshot on the rows
that it holds back.
-/

namespace Tabular.Interleaving

open Interaction (Follows Runs)

/-- Whether a step was answered from the given schemas and rows. -/
def Faithful (schemas : Schemas) (rows : Contents) : Step → Prop
  | .asked (.find table) (.ok schema) => schemas table = some schema
  | .asked (.store (.read table key _)) (.ok row) => row = rows ⟨table, key⟩
  | _ => True

/-- Whether participants have the schemas of their tables. -/
def Typed (schemas : Schemas) (participants : Participants) : Prop :=
  ∀ (table : String) (p : Participant), participants[table]? = some p →
    ∃ h : p.schema.name = table, schemas table = some ⟨p.schema, h⟩

theorem Typed.empty {schemas : Schemas} : Typed schemas ∅ := by
  intro table p h
  simp at h

theorem Typed.insert {schemas : Schemas} {participants : Participants} {p : Participant} {table : String}
    (h : Typed schemas participants)
    (hp : ∃ h : p.schema.name = table, schemas table = some ⟨p.schema, h⟩) :
    Typed schemas (participants.insert table p) := by
  intro other q hq
  rw [Std.ExtTreeMap.getElem?_insert] at hq
  split at hq
  · rename_i heq
    cases Std.compare_eq_iff_eq.1 heq
    cases hq
    exact hp
  · exact h other q hq

/-! ### Table operations -/

section Operations

variable {schemas : Schemas} {rows : Contents} {tx : Transaction} {participants : Participants}
  {table : String}

/-- Opening a table answers its participant and holds nothing back. -/
theorem runs_join_typed (h : Typed schemas participants) (table : String) :
    LooksOnly tx (Faithful schemas rows)
      (fun r after => ∀ p, r = .ok p → Typed schemas after ∧ Cells.held after = .held participants ∧
        after[table]? = some p)
      (shared.join tx table) participants := by
  refine (runs_join table).mono ?_
  rintro - _ after hjoin p rfl
  rcases hjoin with ⟨hp, rfl⟩ | ⟨hnone, rfl, schema, rfl, hknown⟩
  · exact ⟨h, rfl, hp⟩
  · exact ⟨h.insert ⟨schema.2, hknown⟩, Cells.held_insert_of_writes_eq hnone rfl, by simp⟩

/-- A row that is looked up is the one held back, or else the one that there is. -/
theorem runs_lookup_typed (h : Typed schemas participants) {p : Participant}
    (hp : participants[table]? = some p) (key : RowKey) :
    LooksOnly tx (Faithful schemas rows)
      (fun r after => after = participants ∧
        ∀ row, r = .ok row → row = rows.overlaid (.held participants) ⟨table, key⟩)
      (shared.lookup tx p key).lifted participants := by
  refine Runs.lifted ((follows_lookup p key).mono fun _ r hr => ⟨rfl, ?_⟩)
  rintro row rfl
  obtain ⟨rfl, -⟩ := h table p hp
  have hheld : Cells.held participants ⟨p.schema.name, key⟩ = p.writes[key]? := by
    simp [Cells.held, hp]
  rw [Contents.overlaid, hheld]
  cases hwrite : p.writes[key]? with
  | some cell =>
    rw [hwrite] at hr
    exact Except.ok.inj hr
  | none =>
    rw [hwrite] at hr
    exact hr row rfl

/-- An operation on a row opens its table and finds its key. -/
theorem runs_at_key {γ : Type} (h : Typed schemas participants)
    {keyOf : Participant → Except StoreError RowKey}
    {f : Participant → RowKey → Attempt (StateT Participants Program) γ}
    {post : Except StoreError γ → Participants → Prop}
    (hok : ∀ p joined key, Typed schemas joined → Cells.held joined = .held participants →
      joined[table]? = some p → keyOf p = .ok key →
        (∃ hname : p.schema.name = table, schemas table = some ⟨p.schema, hname⟩) →
          LooksOnly tx (Faithful schemas rows) post (f p key) joined)
    (herror : ∀ e after, post (.error e) after) :
    LooksOnly tx (Faithful schemas rows) post
      (do
        let p ← shared.join tx table
        let key ← Attempt.of (keyOf p)
        f p key)
      participants := by
  refine (runs_join_typed h table).andThen ?_ fun _ e after _ => herror e after
  intro _ p joined hjoined
  obtain ⟨htyped, hheld, hp⟩ := hjoined p rfl
  exact Runs.of_bind (fun key hkey => hok p joined key htyped hheld hp hkey (htyped table p hp))
    fun e _ => herror e joined

theorem runs_read (h : Typed schemas participants) (values : List Value) :
    LooksOnly tx (Faithful schemas rows)
      (fun r after => ∀ row, r = .ok row → Typed schemas after ∧ Cells.held after = .held participants ∧
        ∃ schema key, schemas table = some schema ∧ schema.1.keyFromValues values = .ok key ∧
          row = rows.overlaid (.held participants) ⟨table, key⟩)
      (shared.attempt tx (.read table values)) participants := by
  refine runs_at_key h ?_ fun _ _ _ => nofun
  rintro p joined key htyped hheld hp hkey ⟨hname, hschema⟩
  refine (runs_lookup_typed htyped hp key).mono ?_
  rintro - r after ⟨rfl, hrow⟩ row hr
  exact ⟨htyped, hheld, _, key, hschema, hkey, hheld ▸ hrow row hr⟩

theorem runs_delete (h : Typed schemas participants) (values : List Value) :
    LooksOnly tx (Faithful schemas rows)
      (fun r after => r = .ok () → Typed schemas after ∧
        ∃ schema key, schemas table = some schema ∧ schema.1.keyFromValues values = .ok key ∧
          Cells.held after = Function.update (Cells.held participants) ⟨table, key⟩ (some none))
      (shared.attempt tx (.delete table values)) participants := by
  refine runs_at_key h ?_ fun _ _ => nofun
  rintro p joined key htyped hheld hp hkey ⟨hname, hschema⟩
  have hafter := Cells.held_insert_withWrite hp key none
  rw [hheld] at hafter
  exact fun _ => ⟨htyped.insert ⟨hname, hschema⟩, _, key, hschema, hkey, hafter⟩

theorem runs_upsert (h : Typed schemas participants) (row : Row) :
    LooksOnly tx (Faithful schemas rows)
      (fun r after => r = .ok () → Typed schemas after ∧
        ∃ schema key merged, schemas table = some schema ∧ schema.1.keyOf row = .ok key ∧
          schema.1.mergeRow (rows.overlaid (.held participants) ⟨table, key⟩) row = .ok merged ∧
          Cells.held after = Function.update (Cells.held participants) ⟨table, key⟩ (some (some merged)))
      (shared.attempt tx (.upsert table row)) participants := by
  refine runs_at_key h ?_ fun _ _ => nofun
  rintro p joined key htyped hheld hp hkey ⟨hname, hschema⟩
  refine (runs_lookup_typed htyped hp key).andThen ?_ fun _ _ _ _ => nofun
  rintro - existing _ ⟨rfl, hexisting⟩
  rw [hheld] at hexisting
  refine Runs.of_bind (fun merged hmerged => ?_) fun _ _ => nofun
  rw [hexisting existing rfl] at hmerged
  have hafter := Cells.held_insert_withWrite hp key (some merged)
  rw [hheld] at hafter
  exact fun _ => ⟨htyped.insert ⟨hname, hschema⟩, _, key, merged, hschema, hkey, hmerged, hafter⟩

end Operations

/-! ### Units of work -/

/-- Whether a unit of work in a transaction only looks, and `post` holds of what comes of it, if its
answers are known. -/
def Performs {α : Type} (tx : Transaction) (known : Step → Prop)
    (post : Except Failure α → Participants → Prop) (work : Work Elsewhere α)
    (participants : Participants) : Prop :=
  Follows (fun (_ : Unit) step _ => Looks tx step) known (fun _ r => post r.1 r.2) ()
    (((lifted work).perform (shared.tables tx)).run participants)

namespace Performs

variable {α β : Type} {tx : Transaction} {known : Step → Prop} {participants : Participants}

theorem mono {work : Work Elsewhere α} {post post' : Except Failure α → Participants → Prop}
    (h : Performs tx known post work participants)
    (hpost : ∀ r participants, post r participants → post' r participants) :
    Performs tx known post' work participants :=
  Follows.mono h fun _ r => hpost r.1 r.2

theorem call {c : TableCall} {post : Except Failure c.Answer → Participants → Prop}
    (h : LooksOnly tx known (fun r after => post (r.mapError .error) after) (shared.attempt tx c)
      participants) :
    Performs tx known post (Work.call c) participants :=
  Follows.bind (p := (shared.attempt tx c).run participants) h fun _ _ => id

theorem andThen {work : Work Elsewhere α} {next : α → Work Elsewhere β}
    {post : Except Failure β → Participants → Prop}
    (h : Performs tx known
      (fun r after => match r with
        | .ok a => Performs tx known post (next a) after
        | .error failure => post (.error failure) after)
      work participants) :
    Performs tx known post (work.andThen next) participants := by
  induction work generalizing participants with
  | done r => cases r <;> exact h
  | act x next ih =>
    intro outcome hknown
    obtain ⟨_, hlook, hnext⟩ := h outcome hknown
    exact ⟨(), hlook, ih outcome hnext⟩
  | ask call next ih =>
    exact Follows.bind (p := (shared.attempt tx call).run participants) (Follows.bind_iff.1 h)
      fun _ r hr => ih r.1 hr

/-- Where a unit of work has ended `post` holds. -/
theorem leads {work : Work Elsewhere α} {post : Except Failure α → Participants → Prop}
    {steps : List Step} {r : Except Failure α} {held : Participants} (h : Performs tx known post work ∅)
    (hleads : (working work tx).Leads steps (.done (r, held))) (hknown : ∀ step ∈ steps, known step) :
    post r held := by
  obtain ⟨_, -, hends⟩ := Follows.leads h hleads hknown
  exact hends

end Performs

section Work

variable {schemas : Schemas} {rows : Contents} {tx : Transaction} {participants : Participants}

/-- A step holds back the cell that it leaves of the row that is there or held back already. -/
theorem performs_work (h : Typed schemas participants) {step : ReadModifyWrite}
    (hfits : step.Fits schemas) :
    Performs tx (Faithful schemas rows)
      (fun r after => r = .ok () → Typed schemas after ∧ ∃ key cell,
        step.Leaves schemas key (rows.overlaid (.held participants) ⟨step.table, key⟩) cell ∧
          Cells.held after = Function.update (Cells.held participants) ⟨step.table, key⟩ (some cell))
      step.work participants := by
  refine Performs.andThen (Performs.call ((runs_read h step.key).mono ?_))
  rintro - (e | row) joined hread
  · intro hok
    cases hok
  obtain ⟨htyped, hheld, schema, key, hschema, hkey, hrow⟩ := hread row rfl
  show Performs tx _ _ (step.replace row) joined
  cases hchange : step.change row with
  | none =>
    rw [ReadModifyWrite.replace_of_none hchange]
    refine Performs.call (c := .delete step.table step.key) ((runs_delete htyped step.key).mono ?_)
    rintro - (e | _) after hdelete
    · intro hok
      cases hok
    obtain ⟨htyped', schema', key', hschema', hkey', hafter⟩ := hdelete rfl
    cases Option.some.inj (hschema.symm.trans hschema')
    cases Except.ok.inj (hkey.symm.trans hkey')
    rw [hheld] at hafter
    refine fun _ => ⟨htyped', key, none, ⟨schema, hschema, hkey, ?_⟩, hafter⟩
    rw [← hrow, hchange]
  | some new =>
    rw [ReadModifyWrite.replace_of_some hchange]
    refine Performs.call (c := .upsert step.table new) ((runs_upsert htyped new).mono ?_)
    rintro - (e | _) after hupsert
    · intro hok
      cases hok
    obtain ⟨htyped', schema', key', merged, hschema', hkey', hmerged, hafter⟩ := hupsert rfl
    cases Option.some.inj (hschema.symm.trans hschema')
    cases Except.ok.inj (hkey.symm.trans (hfits schema hschema row new key' hchange hkey'))
    rw [hheld] at hafter hmerged
    refine fun _ => ⟨htyped', key, some merged, ⟨schema, hschema, hkey, ?_⟩, hafter⟩
    rw [← hrow, hchange]
    exact ⟨hkey', merged, hrow ▸ hmerged, rfl⟩

/-- A unit of work that only replaces rows that it has read makes the same of every shelf that agrees with
the snapshot on the rows that it holds back in the end. -/
theorem performs_all (h : Typed schemas participants) {steps : List ReadModifyWrite}
    (hfits : ∀ step ∈ steps, step.Fits schemas) :
    Performs tx (Faithful schemas rows)
      (fun r after => r = .ok () →
        (∀ row, (Cells.held participants row).isSome → (Cells.held after row).isSome) ∧
        ∀ (base : Contents) (shelf : Shelf), (∀ row, (Cells.held after row).isSome → base row = rows row) →
          shelf.row? = base.overlaid (.held participants) → ∃ shelf' : Shelf,
            ((ReadModifyWrite.all steps).perform (Shelf.tables schemas)).run shelf = (.ok (), shelf') ∧
              shelf'.row? = base.overlaid (.held after))
      (ReadModifyWrite.all steps) participants := by
  induction steps generalizing participants with
  | nil => exact fun _ => ⟨fun _ => id, fun base shelf _ hshelf => ⟨shelf, rfl, hshelf⟩⟩
  | cons step rest ih =>
    refine Performs.andThen ((performs_work h (hfits step List.mem_cons_self)).mono ?_)
    rintro (failure | _) joined hwork
    · exact nofun
    obtain ⟨htyped, key, cell, hleaves, hheld⟩ := hwork rfl
    refine (ih htyped fun step hstep => hfits step (List.mem_cons_of_mem _ hstep)).mono ?_
    rintro _ after hrest rfl
    obtain ⟨hgrows, hsame⟩ := hrest rfl
    refine ⟨fun row hrow => hgrows row ?_, fun base shelf hbase hshelf => ?_⟩
    · rw [hheld]
      by_cases hkey : row = ⟨step.table, key⟩
      · rw [hkey, Function.update_self]
        rfl
      · rwa [Function.update_of_ne hkey]
    · -- the row that is read is held back in the end, so the shelf agrees with the snapshot on it
      have hrow : shelf.row? ⟨step.table, key⟩ =
          rows.overlaid (.held participants) ⟨step.table, key⟩ := by
        rw [hshelf, Contents.overlaid, Contents.overlaid, hbase _ (hgrows _ _)]
        rw [hheld, Function.update_self]
        rfl
      rw [← hrow] at hleaves
      have hchanged : (shelf.change ⟨step.table, key⟩ cell).row? = base.overlaid (.held joined) := by
        rw [Shelf.row?_change, hshelf, hheld, Contents.overlaid_update]
      obtain ⟨shelf', hperform, hshelf'⟩ := hsame base _ hbase hchanged
      refine ⟨shelf', ?_, hshelf'⟩
      rw [ReadModifyWrite.all, Work.perform_andThen, ReadModifyWrite.perform_work hleaves]
      exact hperform

end Work

end Tabular.Interleaving
