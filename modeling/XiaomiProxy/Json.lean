import XiaomiProxy.Http

/-!
# JSON values

`serde_json::Value`, as far as the proxy looks into one.  Reading and writing JSON text
is left to the crate; `SerdeJson` stands for the two functions the proxy calls.
-/

namespace XiaomiProxy

/-- `serde_json::Number`, a float by its bits. -/
inductive Number where
  | posInt (n : UInt64)
  | negInt (n : Int64)
  | float (bits : UInt64)
  deriving DecidableEq, Repr

/-- `serde_json::Value`.  The names of an object's fields are distinct. -/
inductive Json where
  | null
  | bool (b : Bool)
  | number (n : Number)
  | string (s : String)
  | array (elems : List Json)
  | object (fields : List (String × Json))

namespace Json

/-- `Value::get`, by name. -/
def get (name : String) : Json → Option Json
  | .object fields => (fields.find? fun field => field.1 = name).map Prod.snd
  | _ => none

/-- `Value::as_bool`. -/
def asBool : Json → Option Bool
  | .bool b => some b
  | _ => none

/-- `Value::as_str`. -/
def asStr : Json → Option String
  | .string s => some s
  | _ => none

/-- `Value::as_u64`: a number that was read as a negative integer or as a float is
none. -/
def asU64 : Json → Option UInt64
  | .number (.posInt n) => some n
  | _ => none

/-- The body the proxy answers with when it refuses a request itself. -/
def error (message type : String) : Json :=
  .object [("error", .object [("message", .string message), ("type", .string type)])]

mutual

/-- Values are compared part by part. -/
def decEq : (a b : Json) → Decidable (a = b)
  | .null, .null => isTrue rfl
  | .bool a, .bool b => decidable_of_iff (a = b) (Json.bool.injEq a b).to_iff.symm
  | .number a, .number b => decidable_of_iff (a = b) (Json.number.injEq a b).to_iff.symm
  | .string a, .string b => decidable_of_iff (a = b) (Json.string.injEq a b).to_iff.symm
  | .array as, .array bs =>
      have := decEqElems as bs
      decidable_of_iff (as = bs) (Json.array.injEq as bs).to_iff.symm
  | .object as, .object bs =>
      have := decEqFields as bs
      decidable_of_iff (as = bs) (Json.object.injEq as bs).to_iff.symm
  | .null, .bool _ | .null, .number _ | .null, .string _ | .null, .array _ | .null, .object _
  | .bool _, .null | .bool _, .number _ | .bool _, .string _ | .bool _, .array _
  | .bool _, .object _
  | .number _, .null | .number _, .bool _ | .number _, .string _ | .number _, .array _
  | .number _, .object _
  | .string _, .null | .string _, .bool _ | .string _, .number _ | .string _, .array _
  | .string _, .object _
  | .array _, .null | .array _, .bool _ | .array _, .number _ | .array _, .string _
  | .array _, .object _
  | .object _, .null | .object _, .bool _ | .object _, .number _ | .object _, .string _
  | .object _, .array _ => isFalse Json.noConfusion

def decEqElems : (as bs : List Json) → Decidable (as = bs)
  | [], [] => isTrue rfl
  | [], _ :: _ => isFalse nofun
  | _ :: _, [] => isFalse nofun
  | a :: as, b :: bs =>
      have := decEq a b
      have := decEqElems as bs
      decidable_of_iff (a = b ∧ as = bs) (List.cons.injEq a as b bs).to_iff.symm

def decEqFields : (as bs : List (String × Json)) → Decidable (as = bs)
  | [], [] => isTrue rfl
  | [], _ :: _ => isFalse nofun
  | _ :: _, [] => isFalse nofun
  | (a, x) :: as, (b, y) :: bs =>
      have := decEq x y
      have := decEqFields as bs
      decidable_of_iff ((a = b ∧ x = y) ∧ as = bs) (by
        rw [List.cons.injEq, Prod.mk.injEq])

end

instance : DecidableEq Json := decEq

end Json

/-- `serde_json::to_vec` and `serde_json::from_slice`, with the texts of their errors. -/
structure SerdeJson where
  toVec : Json → Except String Bytes
  fromSlice : Bytes → Except String Json

/-- The text written for a value is read back as that value. -/
def SerdeJson.ReadsBack (serde : SerdeJson) (body : Json) : Prop :=
  ∀ bytes, serde.toVec body = .ok bytes → serde.fromSlice bytes = .ok body

end XiaomiProxy
