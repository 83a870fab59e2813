import Typeset.Json.Display
import Typeset.Schema.Issue
import Typeset.Text.PaddedInteger

/-!
Checking document data against what is expected of it. A check gives a value or the list
of all issues, in the order in which the parts are looked at. The readers of parts hand
on the evidence that a part is smaller than the whole.
-/

set_option autoImplicit false

namespace Typeset

inductive Check (α : Type) where
  | valid (value : α)
  | invalid (issues : List Issue)

namespace Check

variable {α β : Type}

def fail (problem : Problem) : Check α := .invalid [⟨problem, []⟩]

def map (f : α → β) : Check α → Check β
  | .valid value => .valid (f value)
  | .invalid issues => .invalid issues

/-- Both checks are made. The issues of the first come first. -/
def seq : Check (α → β) → (Unit → Check α) → Check β
  | .valid f, argument => (argument ()).map f
  | .invalid issues, argument =>
      match argument () with
      | .valid _ => .invalid issues
      | .invalid others => .invalid (issues ++ others)

instance : Applicative Check where
  pure := .valid
  seq := seq

/-- The second check depends on the value of the first. -/
def andThen : Check α → (α → Check β) → Check β
  | .valid value, next => next value
  | .invalid issues, _ => .invalid issues

/-- Every issue is moved below a part of the whole. -/
def under (place : Place) : Check α → Check α
  | .valid value => .valid value
  | .invalid issues =>
      .invalid (issues.map fun issue => { issue with place := place :: issue.place })

/-- The first alternative that succeeds. If neither does, the issues of both are given,
each below the name of its alternative. -/
def either (first : String × Check α) (second : String × (Unit → Check α)) : Check α :=
  match first.2.under (.field first.1) with
  | .valid value => .valid value
  | .invalid issues =>
      match (second.2 ()).under (.field second.1) with
      | .valid value => .valid value
      | .invalid others => .invalid (issues ++ others)

/-- A field that must be there. -/
def field
    (fields : List (String × Json))
    (name : String)
    (read : (value : Json) → sizeOf value < sizeOf fields → Check α) :
    Check α :=
  match found : Json.field? fields name with
  | none => (fail .missing).under (.field name)
  | some value => (read value (Json.size_of_field_lt found)).under (.field name)

/-- The items of a list, each below its position. All of them are known to be small. -/
def eachFrom
    {Small : Json → Prop}
    (read : (item : Json) → Small item → Check α)
    (position : Nat) :
    (items : List Json) → (∀ item ∈ items, Small item) → Check (List α)
  | [], _ => .valid []
  | item :: rest, small =>
      List.cons <$> (read item (small item List.mem_cons_self)).under (.index position) <*>
        eachFrom read (position + 1) rest fun other member =>
          small other (List.mem_cons_of_mem item member)

def list (value : Json) (read : (item : Json) → sizeOf item < sizeOf value → Check α) :
    Check (List α) :=
  match value, read with
  | .arr items, read =>
      eachFrom read 0 items fun item member => by
        have := List.sizeOf_lt_of_mem member
        simp only [Json.arr.sizeOf_spec]
        omega
  | _, _ => fail .notList

/-- A list field. Where it is left out, the list is empty. -/
def listField
    (fields : List (String × Json))
    (name : String)
    (read : (item : Json) → sizeOf item < sizeOf fields → Check α) :
    Check (List α) :=
  match found : Json.field? fields name with
  | none => .valid []
  | some value =>
      (list value fun item smaller =>
        read item (Nat.lt_trans smaller (Json.size_of_field_lt found))).under (.field name)

/-- The fields of a record. -/
def record (value : Json) (read : List (String × Json) → Check α) : Check α :=
  match value with
  | .obj fields => read fields
  | _ => fail .notRecord

def text : Json → Check String
  | .str content => .valid content
  | _ => fail .notText

/-- The kind of a record, where it is given, must be the expected one. -/
def expectKind (expected : String) (fields : List (String × Json)) : Check Unit :=
  match Json.field? fields "kind" with
  | none => .valid ()
  | some value =>
      if value = .str expected then .valid ()
      else (fail (.wrongKind expected)).under (.field "kind")

/-- The kind of a record that may be of several. -/
def chooseKind {κ : Type} (tag : κ → String) (kinds : List κ)
    (fields : List (String × Json)) : Check κ :=
  match Json.field? fields "kind" with
  | none => fail .kindMissing
  | some value =>
      match kinds.find? fun kind => value = .str (tag kind) with
      | some kind => .valid kind
      | none => fail (.kindUnknown value.plain (kinds.map tag))

/-- A whole number written in text. A size problem is told from others only when the
text starts with the digits that are too many. -/
def wholeText (content : String) : Check Int :=
  if Text.startsOversized content.toList then fail .oversizedWhole
  else match Text.paddedInt? content.toList with
    | some value => .valid value
    | none => fail .unreadableWhole

/-- A whole number. Truth values count as one and zero, and other numbers and texts are
taken when they spell a whole number. -/
def whole : Json → Check Int
  | .int value => .valid value
  | .bool value => .valid (if value then 1 else 0)
  | .str content => wholeText content
  | .real value =>
      if !value.isFinite then fail .notFinite
      else match value.whole? with
        | none => fail .fractional
        | some number =>
            if number.natAbs < Nat.pow 2 63 then .valid number else fail .oversizedWhole
  | _ => fail .notWhole

end Check

end Typeset
