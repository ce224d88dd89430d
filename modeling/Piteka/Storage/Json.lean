import Mathlib.Algebra.Group.Nat.Defs
import Piteka.Storage.Model
import Piteka.Text.Hex

/-!
# JSON values and content addresses

The values of `serde_json` and the queries that the repository makes of them. How
a value is written and read as bytes is not part of the repository, and neither is
the reading of an RFC 3339 time; they are the fields of `Codec`. The last section
is about the hexadecimal text of a content address.
-/
namespace Piteka.Storage

set_option autoImplicit false

/-- A number is unsigned, negative, or a float, which is kept as its bits. -/
inductive JsonNumber where
  | posInt (n : UInt64)
  | negInt (n : Int64)
  | float (bits : UInt64)
  deriving DecidableEq

/-- The fields of an object are listed as the code writes them; the sorted map that they
end up in is seen by nothing but the writer. -/
inductive Json where
  | null
  | bool (value : Bool)
  | number (value : JsonNumber)
  | string (value : String)
  | array (items : List Json)
  | object (fields : List (String × Json))

namespace Json

def get : Json → String → Option Json
  | .object fields, key => (fields.find? fun field => field.1 = key).map (·.2)
  | _, _ => none

def asU64 : Json → Option UInt64
  | .number (.posInt n) => some n
  | _ => none

def asI64 : Json → Option Int64
  | .number (.posInt n) => if n.toNat < 2 ^ 63 then some n.toInt64 else none
  | .number (.negInt n) => some n
  | _ => none

def asStr : Json → Option String
  | .string value => some value
  | _ => none

def ofUInt64 (n : UInt64) : Json := .number (.posInt n)

def ofInt64 (n : Int64) : Json :=
  if n < 0 then .number (.negInt n) else .number (.posInt n.toUInt64)

def ofNat (n : Nat) : Json := .number (.posInt (UInt64.ofNat n))

def ofOption {α : Type} (f : α → Json) : Option α → Json
  | none => .null
  | some value => f value

def ofStrings (values : List String) : Json := .array (values.map .string)

end Json

/-- The runtime with the reader and the writer of JSON texts. Writing a value does not
fail: its keys are strings and it is written to memory. -/
structure Codec extends Runtime where
  toVec : Json → Array UInt8
  fromSlice : Array UInt8 → Option Json
  /-- The Unix time of an RFC 3339 text. -/
  parseFromRfc3339 : String → Option Int64

/-- `str::as_bytes` -/
def asBytes (text : String) : Array UInt8 := text.toUTF8.data

theorem asBytes_injective {a b : String} (h : asBytes a = asBytes b) : a = b := by
  have hb : a.toByteArray = b.toByteArray := by
    rw [ByteArray.ext_iff]
    exact h
  exact String.toByteArray_inj.mp hb

/-! ## Content addresses in hexadecimal -/

theorem ContentDigest.toHex_toList (d : ContentDigest) :
    d.toHex.toList = Text.Hex.encode d.bytes.toList := String.toList_ofList

theorem ContentDigest.toHex_injective {d d' : ContentDigest} (h : d.toHex = d'.toHex) : d = d' := by
  have hread := congrArg (fun s => Text.Hex.decode s.toList) h
  rw [d.toHex_toList, d'.toHex_toList, Text.Hex.decode_encode, Text.Hex.decode_encode] at hread
  have hbytes : d.bytes = d'.bytes := Vector.toList_inj.mp (Option.some.inj hread)
  cases d
  exact congrArg ContentDigest.mk hbytes

end Piteka.Storage
