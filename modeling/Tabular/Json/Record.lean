import Tabular.Json.Reader

/-!
# Tabular.Json.Record — reading JSON records

A `Form` says how a record is read: from an object whose members come in any order, or from an array of
the members in their order.  In an object members of other names are skipped, and no member may be
there twice.
-/

namespace Tabular.Json

/-- A member of a record that is read into a draft. -/
structure Member (Draft : Type) where
  name : String
  /-- Whether a draft has it. -/
  isGiven : Draft → Bool
  /-- Reads its value and puts it into a draft. -/
  read : Draft → List Char → Except Fault (Draft × List Char)

/-- The member of a given name whose value is kept in one field of the draft. -/
def Member.of {Draft α : Type} (name : String) (get : Draft → Option α) (set : α → Draft → Draft)
    (read : List Char → Except Fault (α × List Char)) : Member Draft where
  name
  isGiven draft := (get draft).isSome
  read draft cs := do
    let (value, rest) ← read cs
    return (set value draft, rest)

/-- How a record is read. -/
structure Form (Draft α : Type) where
  /-- The name of such records in messages. -/
  name : String
  empty : Draft
  members : List (Member Draft)
  /-- The record of a draft, or the name of a member that is missing. -/
  finish : Draft → Except String α

/-- A member that has to be there. -/
def needed {α : Type} (name : String) : Option α → Except String α
  | some value => .ok value
  | none => .error name

namespace Form

variable {Draft α : Type}

/-- Reads the members of an object up to its closing brace; `fuel` bounds their number. -/
def readMembers (form : Form Draft α) :
    Nat → Bool → Draft → List Char → Except Fault (Draft × List Char)
  | 0, _, _, cs => stopBefore (.unfinished .object) cs
  | fuel + 1, isFirst, draft, cs => do
    match ← nextName isFirst cs with
    | (none, rest) => return (draft, rest)
    | (some name, rest) =>
      match form.members.find? (·.name == name) with
      | none =>
        let rest ← skipValue (← afterColon rest)
        readMembers form fuel false draft rest
      | some member =>
        if member.isGiven draft then stopBefore (.repeatedMember name) (afterBrace rest)
        else
          let (draft, rest) ← member.read draft (← afterColon rest)
          readMembers form fuel false draft rest
where
  /-- What follows blanks and a closing brace, if there is one. -/
  afterBrace (cs : List Char) : List Char :=
    match skipBlanks cs with
    | '}' :: rest => rest
    | rest => rest

/-- Reads the items of an array for the members that are left, up to its closing bracket: the draft and
the number of all items. -/
def readPlaces : List (Member Draft) → Nat → Draft → List Char → Except Fault (Draft × Nat × List Char)
  | [], count, draft, cs => do return (draft, count, ← closeArray cs)
  | member :: more, count, draft, cs => do
    let (isItem, cs) ← nextItem (count = 0) cs
    if isItem then
      let (draft, cs) ← member.read draft cs
      readPlaces more (count + 1) draft cs
    else return (draft, count, cs)

/-- Reads a record.  Each member takes at least one character, so the length of the text bounds their
number. -/
def read (form : Form Draft α) (cs : List Char) : Except Fault (α × List Char) :=
  match skipBlanks cs with
  | [] => stopBefore (.unfinished .value) []
  | c :: rest =>
    if c = '[' then do
      let (draft, count, rest) ← readPlaces form.members 0 form.empty rest
      match form.finish draft with
      | .ok record => return (record, rest)
      | .error _ =>
        let places := form.members.length
        stopBefore (.tooShort count s!"{form.name} with {places} elements") rest
    else if c = '{' then do
      let (draft, rest) ← form.readMembers (rest.length + 1) true form.empty rest
      match form.finish draft with
      | .ok record => return (record, rest)
      | .error name => stopBefore (.missingMember name) rest
    else mismatch form.name (c :: rest)

end Form

end Tabular.Json
