import ReleaseNotes.Json.Basic

/-!
Reading data out of JSON values. A record is an object with its fields by name or an array with its
fields in order. Fields that the record does not have are passed over in an object; a field of the
record that is given twice makes the object unreadable.
-/

namespace ReleaseNotes.Json

/-- What a record says about one of its fields. An array says nothing about the fields that
its end cuts off. -/
inductive Given where
  | absent
  | cutOff
  | value (json : Json)

structure Record where
  fields : List (String × Given)

namespace Record

def ofItems : List String → List Json → Option (List (String × Given))
  | [], [] => some []
  | [], _ :: _ => none
  | name :: names, [] => (ofItems names []).map ((name, .cutOff) :: ·)
  | name :: names, item :: items => (ofItems names items).map ((name, .value item) :: ·)

/-- What the fields of an object say about a name, if they say it once at most. -/
def ofField (fields : List (Option String × Json)) (name : String) : Option (String × Given) :=
  match fields.filter fun field => field.1 == some name with
  | [] => some (name, .absent)
  | [(_, value)] => some (name, .value value)
  | _ => none

def ofJson? (names : List String) : Json → Option Record
  | .array items => (ofItems names items).map Record.mk
  | .object fields =>
    if fields.all (·.1.isSome) then (names.mapM (ofField fields)).map Record.mk else none
  | _ => none

def get (record : Record) (name : String) : Given :=
  (record.fields.lookup name).getD .absent

def required? {α : Type} (record : Record) (name : String) (read : Json → Option α) : Option α :=
  match record.get name with
  | .value json => read json
  | _ => none

def optional? {α : Type} (record : Record) (name : String) (read : Json → Option α) :
    Option (Option α) :=
  match record.get name with
  | .absent => some none
  | .cutOff => none
  | .value .null => some none
  | .value json => (read json).map some

def withDefault? {α : Type} (record : Record) (name : String) (default : α)
    (read : Json → Option α) : Option α :=
  match record.get name with
  | .value json => read json
  | _ => some default

end Record

def text? : Json → Option String
  | .string text => text
  | _ => none

def word? : Json → Option Nat
  | .number n => n.toWord?
  | _ => none

def list? {α : Type} (read : Json → Option α) : Json → Option (List α)
  | .array items => items.mapM read
  | _ => none

def textMap? : Json → Option (List (String × String))
  | .object fields => fields.mapM fun (name, value) => do return (← name, ← text? value)
  | _ => none

end ReleaseNotes.Json
