import Mathlib.Data.List.Basic
import Piteka.Checks.Guards

/-!
# Dynamic values

The values that a JSON reader of a dynamic language makes, with the tests and the
lookups that programs use on them: a missing key raises, a Boolean and a float
may be equal to an integer, and a text may hold a lone surrogate.
-/
namespace Piteka.Python

set_option autoImplicit false

open Piteka.Checks

/-- A `str`: its code points. -/
structure Str where
  points : List Nat
  deriving DecidableEq

def lit (text : String) : Str := ⟨text.toList.map Char.toNat⟩

/-- A `float` is kept as its bits. -/
inductive Value where
  | none
  | bool (b : Bool)
  | int (n : Int)
  | float (bits : UInt64)
  | str (s : Str)
  | list (items : List Value)
  | dict (entries : List (Str × Value))

abbrev Dict := List (Str × Value)

inductive PyException where
  | valueError (message : String)
  | jsonDecodeError
  | keyError (key : Str)
  | recursionError
  | memoryError
  deriving DecidableEq

/-- The exceptions that `except ValueError` catches. -/
def PyException.isValueError : PyException → Bool
  | .valueError _ => true
  | .jsonDecodeError => true
  | _ => false

section
variable {α β : Type}

/-- `raise ValueError(message)` -/
def raise (message : String) : Except PyException α := .error (.valueError message)

/-- `if not p: raise ValueError(message)` -/
def require (p : Bool) (message : String) : Except PyException Unit :=
  if p then .ok () else raise message

/-- An exception that `except ValueError` does not catch leaves the computation. -/
def Escapes (x : Except PyException α) : Prop := ∃ e, x = .error e ∧ e.isValueError = false

variable {x : Except PyException α} {f : α → Except PyException β} {message : String}

theorem require_ok {p : Bool} {u : Unit} : require p message = .ok u ↔ p = true := by
  cases p with
  | false => exact iff_of_false (fun h => by cases h) Bool.false_ne_true
  | true => exact iff_of_true rfl rfl

theorem not_escapes_ok {a : α} : ¬ Escapes (.ok a : Except PyException α) := by
  rintro ⟨_, h, _⟩
  cases h

theorem not_escapes_raise : ¬ Escapes (raise message : Except PyException α) := by
  rintro ⟨_, h, he⟩
  obtain rfl := Except.error.inj h
  cases he

theorem not_escapes_require {p : Bool} : ¬ Escapes (require p message) := by
  cases p with
  | false => exact not_escapes_raise
  | true => exact not_escapes_ok

theorem not_escapes_ite {p : Prop} [Decidable p] {y : Except PyException α} (hx : ¬ Escapes x)
    (hy : ¬ Escapes y) : ¬ Escapes (if p then x else y) := by
  split
  · exact hx
  · exact hy

/-- An exception leaves a sequence from its first part or from what follows it. -/
theorem escapes_bind : Escapes (x >>= f) ↔ Escapes x ∨ ∃ a, x = .ok a ∧ Escapes (f a) := by
  constructor
  · rintro ⟨e, h, he⟩
    rcases bind_eq_error.mp h with h | ⟨a, ha, h⟩
    · exact Or.inl ⟨e, h, he⟩
    · exact Or.inr ⟨a, ha, e, h, he⟩
  · rintro (⟨e, h, he⟩ | ⟨a, ha, e, h, he⟩)
    · exact ⟨e, bind_eq_error.mpr (Or.inl h), he⟩
    · exact ⟨e, bind_eq_error.mpr (Or.inr ⟨a, ha, h⟩), he⟩

theorem not_escapes_bind (hx : ¬ Escapes x) (hf : ∀ a, ¬ Escapes (f a)) :
    ¬ Escapes (x >>= f) := by
  rw [escapes_bind]
  rintro (h | ⟨a, _, h⟩)
  · exact hx h
  · exact hf a h

end

/-- The bits of `1.0`. -/
def oneBits : UInt64 := 0x3FF0000000000000

/-- `value == 1` -/
def Value.equalsOne : Value → Bool
  | .bool b => b
  | .int n => n == 1
  | .float bits => bits == oneBits
  | _ => false

/-- `value == s` -/
def Value.equalsStr (s : Str) : Value → Bool
  | .str t => t == s
  | _ => false

namespace Dict

def get? (d : Dict) (key : Str) : Option Value := (d.find? fun e => e.1 = key).map (·.2)

def hasKey (d : Dict) (key : Str) : Bool := (get? d key).isSome

/-- `d[key]` -/
def subscript (d : Dict) (key : Str) : Except PyException Value :=
  match get? d key with
  | some value => .ok value
  | none => .error (.keyError key)

/-- Every key is one of the names. -/
def within (d : Dict) (names : List Str) : Bool :=
  d.all fun e => names.any fun name => name == e.1

/-- `names.issubset(d)` -/
def hasAll (d : Dict) (names : List Str) : Bool := names.all (hasKey d)

/-- `set(d) < names` -/
def properSubset (d : Dict) (names : List Str) : Bool := within d names && !hasAll d names

/-- `set(d) == names` -/
def sameKeys (d : Dict) (names : List Str) : Bool := within d names && hasAll d names

variable {d : Dict} {key : Str} {names : List Str}

theorem subscript_ok {v : Value} : subscript d key = .ok v ↔ get? d key = some v := by
  unfold subscript
  cases get? d key with
  | none => exact iff_of_false (fun h => by cases h) (fun h => by cases h)
  | some w => exact ⟨fun h => congrArg _ (Except.ok.inj h), fun h => congrArg _ (Option.some.inj h)⟩

theorem subscript_error {e : PyException} :
    subscript d key = .error e ↔ get? d key = none ∧ e = .keyError key := by
  unfold subscript
  cases get? d key with
  | none => exact ⟨fun h => ⟨rfl, (Except.error.inj h).symm⟩, fun h => congrArg _ h.2.symm⟩
  | some w => exact iff_of_false (fun h => by cases h) (fun h => by cases h.1)

theorem not_escapes_subscript {v : Value} (h : get? d key = some v) :
    ¬ Escapes (subscript d key) := by
  rw [subscript_ok.mpr h]
  exact not_escapes_ok

theorem escapes_subscript : Escapes (subscript d key) ↔ get? d key = none := by
  constructor
  · rintro ⟨e, h, _⟩
    exact (subscript_error.mp h).1
  · exact fun h => ⟨.keyError key, subscript_error.mpr ⟨h, rfl⟩, rfl⟩

theorem hasKey_iff : hasKey d key = true ↔ ∃ v, get? d key = some v := Option.isSome_iff_exists

theorem not_hasKey_iff : hasKey d key = false ↔ get? d key = none :=
  Option.isSome_eq_false_iff.trans Option.isNone_iff_eq_none

theorem hasKey_of_mem {e : Str × Value} (he : e ∈ d) : hasKey d e.1 = true := by
  rw [hasKey, get?, Option.isSome_map, List.find?_isSome]
  exact ⟨e, he, decide_eq_true rfl⟩

theorem mem_of_hasKey (h : hasKey d key = true) : ∃ e ∈ d, e.1 = key := by
  rw [hasKey, get?, Option.isSome_map, List.find?_isSome] at h
  obtain ⟨e, he, hkey⟩ := h
  exact ⟨e, he, of_decide_eq_true hkey⟩

theorem hasKey_iff_mem : hasKey d key = true ↔ ∃ e ∈ d, e.1 = key :=
  ⟨mem_of_hasKey, fun ⟨_, he, hkey⟩ => hkey ▸ hasKey_of_mem he⟩

theorem within_iff : within d names = true ↔ ∀ key, hasKey d key = true → key ∈ names := by
  rw [within, List.all_eq_true]
  constructor
  · intro h key hkey
    obtain ⟨e, he, rfl⟩ := mem_of_hasKey hkey
    obtain ⟨name, hname, heq⟩ := List.any_eq_true.mp (h e he)
    exact eq_of_beq heq ▸ hname
  · intro h e he
    exact List.any_eq_true.mpr ⟨e.1, h e.1 (hasKey_of_mem he), beq_self_eq_true _⟩

theorem hasAll_iff : hasAll d names = true ↔ ∀ name ∈ names, hasKey d name = true :=
  List.all_eq_true

/-- The keys are a proper subset of the names exactly when each is one of them and one is left. -/
theorem properSubset_iff : properSubset d names = true ↔
    (∀ key, hasKey d key = true → key ∈ names) ∧ ∃ name ∈ names, hasKey d name = false := by
  rw [properSubset, Bool.and_eq_true, within_iff, Bool.not_eq_true', hasAll, List.all_eq_false]
  simp only [Bool.not_eq_true]

theorem sameKeys_iff :
    sameKeys d names = true ↔ ∀ key, hasKey d key = true ↔ key ∈ names := by
  rw [sameKeys, Bool.and_eq_true, within_iff, hasAll_iff]
  exact ⟨fun h key => ⟨h.1 key, h.2 key⟩, fun h => ⟨fun key => (h key).mp, fun key => (h key).mpr⟩⟩

end Dict

end Piteka.Python
