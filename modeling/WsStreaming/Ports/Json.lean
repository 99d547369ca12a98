import WsStreaming.Verified.OrderedMap
import WsStreaming.Verified.Wire

/-!
# JSON values

`nlohmann::json` as the rest of the program uses it.  An object is an ordered
map.  Signed and unsigned integers are one constructor, since they compare
equal and no caller tells them apart; a floating-point number is its bits.

`j.find? key` is none of a value that is no object, so a chain of `contains`,
`is_object` and `operator[]` in the source is a chain of binds here.

At the end are the messages that two connections exchange.
-/

namespace WsStreaming.Ports

open WsStreaming.Verified
open WsStreaming.Verified.Wire (Bytes)

/-- `nlohmann::json`. -/
inductive Json where
  | null
  | bool (value : Bool)
  | integer (value : Int)
  | float (bits : UInt64)
  | string (value : String)
  | array (elements : List Json)
  | object (members : List (String × Json))
deriving Repr

namespace Json

/-! ## Equality -/

mutual

/-- Equality of JSON values is decided along their structure. -/
def decEq (a b : Json) : Decidable (a = b) :=
  match a, b with
  | .null, .null => isTrue rfl
  | .bool x, .bool y => decidable_of_iff (x = y) (by simp)
  | .integer x, .integer y => decidable_of_iff (x = y) (by simp)
  | .float x, .float y => decidable_of_iff (x = y) (by simp)
  | .string x, .string y => decidable_of_iff (x = y) (by simp)
  | .array xs, .array ys =>
      match decEqList xs ys with
      | isTrue h => isTrue (by rw [h])
      | isFalse h => isFalse fun e => h (array.inj e)
  | .object xs, .object ys =>
      match decEqMembers xs ys with
      | isTrue h => isTrue (by rw [h])
      | isFalse h => isFalse fun e => h (object.inj e)
  | .null, .bool _ | .null, .integer _ | .null, .float _ | .null, .string _
  | .null, .array _ | .null, .object _
  | .bool _, .null | .bool _, .integer _ | .bool _, .float _ | .bool _, .string _
  | .bool _, .array _ | .bool _, .object _
  | .integer _, .null | .integer _, .bool _ | .integer _, .float _ | .integer _, .string _
  | .integer _, .array _ | .integer _, .object _
  | .float _, .null | .float _, .bool _ | .float _, .integer _ | .float _, .string _
  | .float _, .array _ | .float _, .object _
  | .string _, .null | .string _, .bool _ | .string _, .integer _ | .string _, .float _
  | .string _, .array _ | .string _, .object _
  | .array _, .null | .array _, .bool _ | .array _, .integer _ | .array _, .float _
  | .array _, .string _ | .array _, .object _
  | .object _, .null | .object _, .bool _ | .object _, .integer _ | .object _, .float _
  | .object _, .string _ | .object _, .array _ => isFalse nofun

/-- Equality of elements. -/
def decEqList (xs ys : List Json) : Decidable (xs = ys) :=
  match xs, ys with
  | [], [] => isTrue rfl
  | [], _ :: _ => isFalse nofun
  | _ :: _, [] => isFalse nofun
  | x :: xs, y :: ys =>
      match decEq x y, decEqList xs ys with
      | isTrue h, isTrue t => isTrue (by rw [h, t])
      | isFalse h, _ => isFalse fun e => h (List.cons.inj e).1
      | _, isFalse t => isFalse fun e => t (List.cons.inj e).2

/-- Equality of members. -/
def decEqMembers (xs ys : List (String × Json)) : Decidable (xs = ys) :=
  match xs, ys with
  | [], [] => isTrue rfl
  | [], _ :: _ => isFalse nofun
  | _ :: _, [] => isFalse nofun
  | (j, x) :: xs, (k, y) :: ys =>
      if hk : j = k then
        match decEq x y, decEqMembers xs ys with
        | isTrue h, isTrue t => isTrue (by rw [hk, h, t])
        | isFalse h, _ => isFalse fun e => h (Prod.mk.inj (List.cons.inj e).1).2
        | _, isFalse t => isFalse fun e => t (List.cons.inj e).2
      else isFalse fun e => hk (Prod.mk.inj (List.cons.inj e).1).1

end

instance : DecidableEq Json := decEq

/-! ## Access -/

/-- `is_object`. -/
def isObject : Json → Bool
  | .object _ => true
  | _ => false

/-- A member of an object. -/
def find? (key : String) : Json → Option Json
  | .object members => OrderedMap.find? members key
  | _ => none

/-- `contains`. -/
def contains (key : String) (j : Json) : Bool := (j.find? key).isSome

/-- The value of a string. -/
def string? : Json → Option String
  | .string s => some s
  | _ => none

/-- The elements of an array. -/
def array? : Json → Option (List Json)
  | .array elements => some elements
  | _ => none

/-- The value of an integer (`is_number_integer`). -/
def integer? : Json → Option Int
  | .integer n => some n
  | _ => none

/-- A member that is a string. -/
def stringAt? (key : String) (j : Json) : Option String := (j.find? key).bind string?

/-- Assignment through `operator[]`, which turns null into an object. -/
def set (j : Json) (key : String) (value : Json) : Json :=
  match j with
  | .object members => .object (OrderedMap.set members key value)
  | .null => .object [(key, value)]
  | j => j

theorem find?_set {j : Json} (h : j.isObject = true) (key : String) (value : Json)
    (other : String) :
    (j.set key value).find? other = if key = other then some value else j.find? other := by
  cases j with
  | object members => exact OrderedMap.find?_set members key value other
  | null => cases h
  | bool b => cases h
  | integer n => cases h
  | float bits => cases h
  | string s => cases h
  | array elements => cases h

/-! ## Numbers -/

/-- A double cut off to an integer; out of range the conversion is undefined,
and the value is the one the hardware has for that. -/
def truncate (bits : UInt64) : Int64 :=
  let mantissa := bits.toNat % 2 ^ 52
  let exponent := bits.toNat / 2 ^ 52 % 2 ^ 11
  let magnitude : Nat :=
    if exponent = 0 then 0
    else if exponent < 1075 then (2 ^ 52 + mantissa) / 2 ^ (1075 - exponent)
    else (2 ^ 52 + mantissa) * 2 ^ (exponent - 1075)
  if magnitude < 2 ^ 63 then
    if bits.toNat < 2 ^ 63 then Int64.ofInt magnitude else Int64.ofInt (-magnitude)
  else Int64.minValue

/-- A number converted to `std::int64_t`, if the value is one (`is_number`). -/
def int64? : Json → Option Int64
  | .integer n => some (Int64.ofInt n)
  | .float bits => some (truncate bits)
  | _ => none

/-- `get<std::uint32_t>`, which takes numbers and booleans. -/
def uint32? : Json → Option UInt32
  | .integer n => some (UInt32.ofInt n)
  | .float bits => some (truncate bits).toUInt64.toUInt32
  | .bool b => some (if b then 1 else 0)
  | _ => none

/-! ## JSON pointers -/

/-- The value that a JSON pointer leads to, or null; none if the pointer does
not fit an array on the way, which raises a `parse_error`.  The tokens that the
program uses are names, so they never fit one. -/
def resolve (j : Json) : List String → Option Json
  | [] => some j
  | token :: tokens =>
      match j with
      | .array _ => none
      | j => match j.find? token with
          | some j => j.resolve tokens
          | none => some .null

/-- `detail::json_ptr`: the fallback takes the place of a value of another
type, and of every value if `j` is no object. -/
def jsonPtr {α : Type} (get : Json → Option α) (j : Json) (tokens : List String)
    (fallback : α) : Option α :=
  if j.isObject then (j.resolve tokens).map fun v => (get v).getD fallback else some fallback

end Json

/-! ## Messages -/

/-- The arguments of `send_metadata` and of `on_metadata_received`. -/
structure MetadataMessage where
  signo : UInt32
  method : String
  params : Json
deriving Repr, DecidableEq

/-- What a connection sends to its peer: `send_metadata` or `send_data`. -/
inductive Message where
  | metadata (m : MetadataMessage)
  | data (signo : UInt32) (data : Bytes)
deriving Repr, DecidableEq

/-- A metadata message. -/
def Message.ofMetadata (signo : UInt32) (method : String) (params : Json) : Message :=
  .metadata { signo := signo, method := method, params := params }

end WsStreaming.Ports
