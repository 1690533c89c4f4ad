/-
Template.Data -- the JSON values callers send, and the floats in them

`Value` is `serde_json::Value`; the accessors are the ones the templates use.
`Floats` stands for `f64`: the conversions, and the text `{:?}` prints for a
number.  Relied on are two things: an integer in range is a finite float, and
what is printed for a finite float has no quote in it.
-/
import Mathlib.Tactic

namespace TypstMcp.Template

set_option autoImplicit false

/-- `f64` and its formatting. -/
structure Floats (F : Type) where
  ofInt : Int → F
  isFinite : F → Bool
  /-- `{:?}`. -/
  debug : F → String
  /-- `to_string`. -/
  display : F → String
  ofInt_finite : ∀ i, |i| < 2 ^ 64 → isFinite (ofInt i) = true
  debug_plain : ∀ f, isFinite f = true → '"' ∉ (debug f).toList

/-- `serde_json::Number`: a `u64`, a negative `i64` or an `f64`. -/
inductive Number (F : Type)
  | posInt (n : Nat)
  | negInt (n : Int)
  | float (f : F)
  deriving DecidableEq, Repr

/-- `serde_json::Value`, an object by its members. -/
inductive Value (F : Type)
  | null
  | bool (b : Bool)
  | number (n : Number F)
  | string (s : String)
  | array (items : List (Value F))
  | object (members : List (String × Value F))
  deriving Repr

variable {F : Type}

namespace Number

def asI64 : Number F → Option Int
  | .posInt n => if n < 2 ^ 63 then some n else none
  | .negInt n => some n
  | .float _ => none

def asF64 (floats : Floats F) : Number F → F
  | .posInt n => floats.ofInt n
  | .negInt n => floats.ofInt n
  | .float f => f

end Number

namespace Value

/-- `Value::get` on a key: only an object has members. -/
def get (field : String) : Value F → Option (Value F)
  | .object members => members.lookup field
  | _ => none

def isNull : Value F → Bool
  | .null => true
  | _ => false

def asStr : Value F → Option String
  | .string s => some s
  | _ => none

def asI64 : Value F → Option Int
  | .number n => n.asI64
  | _ => none

def asF64 (floats : Floats F) : Value F → Option F
  | .number n => some (n.asF64 floats)
  | _ => none

def asBool : Value F → Option Bool
  | .bool b => some b
  | _ => none

def asArray : Value F → Option (List (Value F))
  | .array items => some items
  | _ => none

end Value

end TypstMcp.Template
