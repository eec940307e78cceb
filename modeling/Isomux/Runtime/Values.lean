import Isomux.Runtime.Maps
import Isomux.Runtime.Text
import Mathlib.Data.Rat.Init

set_option autoImplicit false

/-!
# Values of the runtime

A value whose type the code does not know, as `JSON.parse` returns it or an object literal makes it.

## Main definitions

* `Isomux.JsValue` — a value.
* `Isomux.JsValue.field` — what a value has under a name.
-/

namespace Isomux

/-- A value. A finite number is the rational number it stands for. -/
inductive JsValue where
  | undefined
  | null
  | bool (b : Bool)
  | number (n : ℚ)
  | notFinite
  | string (s : JsString)
  | array (items : List JsValue)
  /-- An object that is not an array: its fields. -/
  | object (fields : List (String × JsValue))

namespace JsValue

/-- The items of an array; any other value has none. -/
def items : JsValue → List JsValue
  | array items => items
  | _ => []

/-- The fields of an object that is not an array; any other value has none. -/
def fields : JsValue → List (String × JsValue)
  | object fields => fields
  | _ => []

def field (v : JsValue) (name : String) : JsValue :=
  (JsMap.get v.fields name).getD undefined

end JsValue

end Isomux
