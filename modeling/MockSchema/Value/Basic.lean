/-
  MockSchema.Value.Basic — the values that schemas, requests and expressions work on: the
  values of a JSON text, with integers kept apart from floats.

  An integer lies between -2^63 and 2^64 - 1. Arithmetic knows only the lower half of that
  range: an integer from 2^63 on counts as the nearest float (`Value.num?`).
-/

import MockSchema.Value.Dict

namespace MockSchema

inductive Value where
  | null
  | bool (b : Bool)
  | int (n : Int)
  /-- A float is finite: no text and no operation yields another. -/
  | float (x : Float)
  | str (s : String)
  | list (xs : List Value)
  | object (fields : List (String × Value))
  deriving Inhabited

/-- The integers that arithmetic works on. -/
def smallest : Int := -0x8000000000000000
def largest : Int := 0x7FFFFFFFFFFFFFFF

def InRange (n : Int) : Prop := smallest ≤ n ∧ n ≤ largest

instance (n : Int) : Decidable (InRange n) := inferInstanceAs (Decidable (_ ∧ _))

/-- A number as arithmetic sees it. -/
inductive Num where
  | int (n : Int)
  | float (x : Float)

def Num.toFloat : Num → Float
  | .int n => Float.ofInt n
  | .float x => x

namespace Value

def empty : Value := .object []

def typeName : Value → String
  | null => "NoneType"
  | bool _ => "bool"
  | int n => if InRange n then "int" else "float"
  | float _ => "float"
  | str _ => "str"
  | list _ => "list"
  | object _ => "dict"

/-- Nothing, zero and every empty collection are false. -/
def truthy : Value → Bool
  | null => false
  | bool b => b
  | int n => n != 0
  | float x => x != 0
  | str s => s != ""
  | list xs => !xs.isEmpty
  | object fields => !fields.isEmpty

/-- The number that a value stands for; a truth value is 0 or 1. -/
def num? : Value → Option Num
  | bool b => some (.int (if b then 1 else 0))
  | int n => some (if InRange n then .int n else .float (Float.ofInt n))
  | float x => some (.float x)
  | _ => none

def int? (v : Value) : Option Int :=
  match v.num? with
  | some (.int n) => some n
  | _ => none

theorem num?_of_int? {v : Value} {n : Int} (h : v.int? = some n) : v.num? = some (.int n) := by
  unfold int? at h
  split at h
  · rename_i hn
    cases h
    exact hn
  · cases h

theorem int?_int {n : Int} (h : InRange n) : (Value.int n).int? = some n := by
  simp only [int?, num?, if_pos h]

theorem inRange_of_int? {v : Value} {n : Int} (h : v.int? = some n) : InRange n := by
  have hn := num?_of_int? h
  cases v with
  | bool b => cases b <;> cases hn <;> decide
  | int m =>
    rw [num?] at hn
    split at hn
    · cases hn
      assumption
    · cases hn
  | _ => cases hn

def isNull : Value → Bool
  | null => true
  | _ => false

end Value

end MockSchema
