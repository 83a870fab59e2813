import Typeset.Number.Binary64

/-!
Document data: the values of JSON. Whole numbers have no size limit and are kept
apart from numbers with a fraction or an exponent. An object keeps its fields in
the order in which their names first appear.
-/

set_option autoImplicit false

namespace Typeset

inductive Json where
  | null
  | bool (value : Bool)
  | int (value : Int)
  | real (value : Binary64)
  | str (value : String)
  | arr (items : List Json)
  | obj (fields : List (String × Json))
  deriving Repr, Inhabited

namespace Json

mutual

def decEq : (left right : Json) → Decidable (left = right)
  | .null, .null => isTrue rfl
  | .bool a, .bool b => decidable_of_iff (a = b) (by simp)
  | .int a, .int b => decidable_of_iff (a = b) (by simp)
  | .real a, .real b => decidable_of_iff (a = b) (by simp)
  | .str a, .str b => decidable_of_iff (a = b) (by simp)
  | .arr a, .arr b =>
      have := decEqItems a b
      decidable_of_iff (a = b) (by simp)
  | .obj a, .obj b =>
      have := decEqFields a b
      decidable_of_iff (a = b) (by simp)
  | .null, .bool _ | .null, .int _ | .null, .real _ | .null, .str _ | .null, .arr _
  | .null, .obj _ | .bool _, .null | .bool _, .int _ | .bool _, .real _ | .bool _, .str _
  | .bool _, .arr _ | .bool _, .obj _ | .int _, .null | .int _, .bool _ | .int _, .real _
  | .int _, .str _ | .int _, .arr _ | .int _, .obj _ | .real _, .null | .real _, .bool _
  | .real _, .int _ | .real _, .str _ | .real _, .arr _ | .real _, .obj _ | .str _, .null
  | .str _, .bool _ | .str _, .int _ | .str _, .real _ | .str _, .arr _ | .str _, .obj _
  | .arr _, .null | .arr _, .bool _ | .arr _, .int _ | .arr _, .real _ | .arr _, .str _
  | .arr _, .obj _ | .obj _, .null | .obj _, .bool _ | .obj _, .int _ | .obj _, .real _
  | .obj _, .str _ | .obj _, .arr _ => isFalse nofun

def decEqItems : (left right : List Json) → Decidable (left = right)
  | [], [] => isTrue rfl
  | a :: as, b :: bs =>
      have := decEq a b
      have := decEqItems as bs
      decidable_of_iff (a = b ∧ as = bs) (by simp)
  | [], _ :: _ | _ :: _, [] => isFalse nofun

def decEqFields : (left right : List (String × Json)) → Decidable (left = right)
  | [], [] => isTrue rfl
  | (name, a) :: as, (other, b) :: bs =>
      have := decEq a b
      have := decEqFields as bs
      decidable_of_iff (name = other ∧ a = b ∧ as = bs) (by simp [and_assoc])
  | [], _ :: _ | _ :: _, [] => isFalse nofun

end

instance : DecidableEq Json := decEq

/-- A field written again takes the new value in its old place. -/
def putField (fields : List (String × Json)) (name : String) (value : Json) :
    List (String × Json) :=
  match fields with
  | [] => [(name, value)]
  | (other, old) :: rest =>
      if other = name then (name, value) :: rest else (other, old) :: putField rest name value

/-- An object from its fields as they were read: a repeated name takes its last value. -/
def ofFields (fields : List (String × Json)) : Json :=
  .obj (fields.foldl (fun known field => putField known field.1 field.2) [])

def field? (fields : List (String × Json)) (name : String) : Option Json :=
  (fields.find? fun field => field.1 == name).map Prod.snd

theorem field_put_field (fields : List (String × Json)) (name other : String) (value : Json) :
    field? (putField fields name value) other =
      if name = other then some value else field? fields other := by
  induction fields with
  | nil => by_cases same : name = other <;> simp [putField, field?, same]
  | cons head rest ih =>
      obtain ⟨key, old⟩ := head
      by_cases held : key = name
      · subst held
        by_cases same : key = other <;> simp [putField, field?, same]
      · simp only [putField, held, if_false]
        by_cases here : key = other
        · subst here
          simp [field?, Ne.symm held]
        · have skip : (key == other) = false := by simpa using here
          simpa [field?, skip] using ih

theorem size_of_field_lt
    {fields : List (String × Json)}
    {name : String}
    {value : Json}
    (found : field? fields name = some value) :
    sizeOf value < sizeOf fields := by
  simp only [field?, Option.map_eq_some_iff] at found
  obtain ⟨⟨key, held⟩, here, rfl⟩ := found
  have := List.sizeOf_lt_of_mem (List.mem_of_find?_eq_some here)
  simp only [Prod.mk.sizeOf_spec] at this
  show sizeOf held < sizeOf fields
  omega

end Json

end Typeset
