/-
  Library.PyJson
  **JSON VALUES AS PYTHON HOLDS THEM.**

  What `json.loads` returns: `None`, truth values, integers of any size,
  floats, texts, lists, and dicts with text keys in the order of insertion.
  The floats are a parameter; of them a program sees the text that `repr`
  writes, and whether they are zero.
-/
import DeterminFlow.Library.Dict

namespace DeterminFlow.Library

inductive PyJson (F : Type) where
  | null
  | bool (value : Bool)
  | int (value : Int)
  | float (value : F)
  | str (value : String)
  | list (items : List (PyJson F))
  | dict (entries : List (String × PyJson F))

/-- What `int(value)` makes of a float. -/
inductive FloatInt where
  | finite (value : Int)
  /-- `ValueError` -/
  | nan
  /-- `OverflowError` -/
  | infinite
  deriving DecidableEq

/-- What Python's formatting says of floats, lists and dicts. -/
structure PyFormat (F : Type) where
  floatRepr : F → String
  floatTruthy : F → Bool
  /-- `str` of a list or of a dict. -/
  containerStr : PyJson F → String

/-- What Python makes of the values it read: texts of floats and containers,
none of them empty, and the conversions of floats. -/
structure PyRuntime (F : Type) extends PyFormat F where
  floatInt : F → FloatInt
  /-- `float(text)`; `none` stands for `ValueError`. -/
  floatOf : String → Option F
  floatRepr_ne : ∀ f, floatRepr f ≠ ""
  containerStr_ne : ∀ v, containerStr v ≠ ""

namespace PyJson

variable {F : Type}

/-- `str(value)`. -/
def toText (fmt : PyFormat F) : PyJson F → String
  | null => "None"
  | bool true => "True"
  | bool false => "False"
  | int i => toString i
  | float f => fmt.floatRepr f
  | str s => s
  | list items => fmt.containerStr (.list items)
  | dict entries => fmt.containerStr (.dict entries)

/-- `bool(value)`. -/
def truthy (fmt : PyFormat F) : PyJson F → Bool
  | null => false
  | bool b => b
  | int i => i != 0
  | float f => fmt.floatTruthy f
  | str s => s != ""
  | list items => !items.isEmpty
  | dict entries => !entries.isEmpty

/-- `value.get(key, default)` of a dict. -/
def getD (entries : Dict String (PyJson F)) (key : String) (default : PyJson F) : PyJson F :=
  (entries.get? key).getD default

/-- A field of a dict that is left out unless it is `present`. -/
def optField (present : Bool) (key : String) (value : PyJson F) : Dict String (PyJson F) :=
  if present then [(key, value)] else []

/-! ## Fields of dicts -/

lemma getD_append_of_get?_none {first : Dict String (PyJson F)} (rest : Dict String (PyJson F))
    {key : String} (default : PyJson F) (h : first.get? key = none) :
    getD (first ++ rest) key default = getD rest key default := by
  have hnone : first.find? (·.1 = key) = none := by
    rw [Dict.get?, Option.map_eq_none_iff] at h
    exact h
  rw [getD, getD, Dict.get?, Dict.get?, List.find?_append, hnone, Option.none_or]

lemma getD_optField_ne {present : Bool} {key other : String} (value : PyJson F)
    (rest : Dict String (PyJson F)) (default : PyJson F) (h : key ≠ other) :
    getD (optField present key value ++ rest) other default = getD rest other default := by
  apply getD_append_of_get?_none
  cases present with
  | false => rfl
  | true => simp [optField, Dict.get?_cons, h]

lemma getD_optField_self (present : Bool) (key : String) (value : PyJson F)
    (rest : Dict String (PyJson F)) (default : PyJson F) :
    getD (optField present key value ++ rest) key default
      = if present then value else getD rest key default := by
  cases present with
  | false => rfl
  | true => simp [optField, getD, Dict.get?_cons]

end PyJson
end DeterminFlow.Library
