import StyledEffects.Json.Number

/-! JSON values. The fields of an object are kept in the order of their keys, each key once,
so two objects with the same fields are the same value. -/

namespace StyledEffects.Json

inductive Value where
  | null
  | bool (b : Bool)
  | number (n : Number)
  | string (s : String)
  | array (items : List Value)
  | object (fields : List (String × Value))
  deriving Repr, Inhabited

abbrev Fields := List (String × Value)

namespace Fields

/-- Puts a field in its place; a field with the same key is replaced. -/
def insert (key : String) (value : Value) : Fields → Fields
  | [] => [(key, value)]
  | (k, v) :: rest =>
    if key < k then (key, value) :: (k, v) :: rest
    else if key = k then (key, value) :: rest
    else (k, v) :: insert key value rest

def ofList (fields : List (String × Value)) : Fields :=
  fields.foldl (fun sorted (k, v) => insert k v sorted) []

def get? (key : String) : Fields → Option Value
  | [] => none
  | (k, v) :: rest => if k = key then some v else get? key rest

theorem get?_insert (key k : String) (value : Value) (fields : Fields) :
    get? k (insert key value fields) = if k = key then some value else get? k fields := by
  induction fields with
  | nil => simp only [insert, get?, eq_comm]
  | cons field rest ih =>
    unfold insert
    by_cases before : key < field.1
    · simp only [before, if_true, get?, eq_comm]
    · by_cases same : key = field.1
      · subst same
        by_cases h : k = field.1 <;> simp [get?, h, eq_comm]
      · by_cases h : k = key
        · subst h
          simp [before, same, get?, ih, eq_comm]
        · simp [before, same, get?, ih, h]

end Fields

namespace Value

def get? (key : String) : Value → Option Value
  | object fields => Fields.get? key fields
  | _ => none

def present? : Value → Option Value
  | null => none
  | v => some v

/-- The field with this key, where a missing field and one that is `null` are the same. -/
def field? (key : String) (v : Value) : Option Value := (v.get? key).bind present?

def string? : Value → Option String
  | string s => some s
  | _ => none

end Value

end StyledEffects.Json
