import Mathlib.Data.List.Basic

/-!
# Records read by name or by position

The derived reading of a record that denies unknown fields. The entries of an
object fill one slot each, in any order; the items of a sequence are taken in the
order of the fields. Every field knows the raw value that its values stand for, so
what has been read says what was there (`readRecord_object`, `readRecord_sequence`).
-/
namespace Piteka.Text.Record

set_option autoImplicit false

/-- A field of type `Val` in a raw value `V`. -/
structure Field (V E : Type) where
  name : String
  Val : Type
  read : V → Except E Val
  write : Val → V
  sound : ∀ {v x}, read v = .ok x → v = write x

inductive RecordError (E : Type) where
  | value (e : E)
  | unknownField (key : String)
  | duplicateField (name : String)
  | missingField (name : String)
  | tooShort (length : Nat)
  | tooLong (length : Nat)
  | notARecord

/-- What a raw value offers to the reader of a record. -/
inductive Shape (V : Type) where
  | object (entries : List (String × V))
  | sequence (items : List V)
  | other

variable {V E : Type}

def Values : List (Field V E) → Type
  | [] => Unit
  | f :: fs => f.Val × Values fs

/-- The fields of a record that is being read. -/
def Slots : List (Field V E) → Type
  | [] => Unit
  | f :: fs => Option f.Val × Slots fs

/-- The raw fields that the values stand for. -/
def Values.fields : {fs : List (Field V E)} → Values fs → List (String × V)
  | [], _ => []
  | f :: _, (x, rest) => (f.name, f.write x) :: fields rest

/-- A value for a slot that must still be empty. -/
def Field.fill (f : Field V E) : Option f.Val → V → Except (RecordError E) f.Val
  | some _, _ => .error (.duplicateField f.name)
  | none, v =>
    match f.read v with
    | .error e => .error (.value e)
    | .ok x => .ok x

namespace Slots

def empty : (fs : List (Field V E)) → Slots fs
  | [] => ()
  | _ :: fs => (none, empty fs)

def put : (fs : List (Field V E)) → Slots fs → String → V → Except (RecordError E) (Slots fs)
  | [], _, key, _ => .error (.unknownField key)
  | f :: fs, (slot, slots), key, v =>
    if key = f.name then
      match f.fill slot v with
      | .error e => .error e
      | .ok x => .ok (some x, slots)
    else
      match put fs slots key v with
      | .error e => .error e
      | .ok slots' => .ok (slot, slots')

def finish : (fs : List (Field V E)) → Slots fs → Except (RecordError E) (Values fs)
  | [], _ => .ok ()
  | f :: _, (none, _) => .error (.missingField f.name)
  | _ :: fs, (some x, slots) =>
    match finish fs slots with
    | .error e => .error e
    | .ok rest => .ok (x, rest)

/-- The raw fields that have been read. -/
def fields : {fs : List (Field V E)} → Slots fs → List (String × V)
  | [], _ => []
  | _ :: _, (none, slots) => fields slots
  | f :: _, (some x, slots) => (f.name, f.write x) :: fields slots

end Slots

def readEntries (fs : List (Field V E)) :
    Slots fs → List (String × V) → Except (RecordError E) (Values fs)
  | slots, [] => slots.finish fs
  | slots, (key, v) :: entries =>
    match slots.put fs key v with
    | .error e => .error e
    | .ok slots' => readEntries fs slots' entries

/-- The items that are left, behind `taken` of them. -/
def readItems : (fs : List (Field V E)) → (taken : Nat) → List V →
    Except (RecordError E) (Values fs)
  | [], _, [] => .ok ()
  | [], taken, items => .error (.tooLong (taken + items.length))
  | _ :: _, taken, [] => .error (.tooShort taken)
  | f :: fs, taken, v :: items =>
    match f.read v with
    | .error e => .error (.value e)
    | .ok x =>
      match readItems fs (taken + 1) items with
      | .error e => .error e
      | .ok rest => .ok (x, rest)

def readRecord (fs : List (Field V E)) : Shape V → Except (RecordError E) (Values fs)
  | .object entries => readEntries fs (.empty fs) entries
  | .sequence items => readItems fs 0 items
  | .other => .error .notARecord

theorem Slots.fields_empty (fs : List (Field V E)) : (Slots.empty fs).fields = [] := by
  induction fs with
  | nil => rfl
  | cons f fs ih => exact ih

theorem Field.fill_ok {f : Field V E} {slot : Option f.Val} {v : V} {x : f.Val}
    (h : f.fill slot v = .ok x) : slot = none ∧ v = f.write x := by
  cases slot with
  | some y => cases h
  | none =>
    rw [fill] at h
    cases hread : f.read v with
    | error e =>
      rw [hread] at h
      cases h
    | ok y =>
      rw [hread] at h
      obtain rfl := Except.ok.inj h
      exact ⟨rfl, f.sound hread⟩

theorem Slots.put_ok {fs : List (Field V E)} {slots slots' : Slots fs} {key : String} {v : V}
    (h : slots.put fs key v = .ok slots') : slots'.fields.Perm ((key, v) :: slots.fields) := by
  induction fs with
  | nil => cases h
  | cons f fs ih =>
    obtain ⟨slot, slots⟩ := slots
    rw [put] at h
    split at h
    · next hkey =>
      cases hfill : f.fill slot v with
      | error e =>
        rw [hfill] at h
        cases h
      | ok x =>
        rw [hfill] at h
        obtain rfl := Except.ok.inj h
        obtain ⟨rfl, rfl⟩ := Field.fill_ok hfill
        rw [hkey]
        exact .refl _
    · cases hput : slots.put fs key v with
      | error e =>
        rw [hput] at h
        cases h
      | ok rest =>
        rw [hput] at h
        obtain rfl := Except.ok.inj h
        cases slot with
        | none => exact ih hput
        | some x => exact ((ih hput).cons _).trans (.swap ..)

theorem Slots.finish_ok {fs : List (Field V E)} {slots : Slots fs} {values : Values fs}
    (h : slots.finish fs = .ok values) : values.fields = slots.fields := by
  induction fs with
  | nil => rfl
  | cons f fs ih =>
    obtain ⟨slot, slots⟩ := slots
    cases slot with
    | none => cases h
    | some x =>
      rw [finish] at h
      cases hrest : slots.finish fs with
      | error e =>
        rw [hrest] at h
        cases h
      | ok rest =>
        rw [hrest] at h
        obtain rfl := Except.ok.inj h
        exact congrArg ((f.name, f.write x) :: ·) (ih hrest)

theorem readEntries_ok {fs : List (Field V E)} {entries : List (String × V)} {slots : Slots fs}
    {values : Values fs} (h : readEntries fs slots entries = .ok values) :
    values.fields.Perm (entries ++ slots.fields) := by
  induction entries generalizing slots with
  | nil => exact .of_eq (Slots.finish_ok h)
  | cons entry entries ih =>
    obtain ⟨key, v⟩ := entry
    unfold readEntries at h
    cases hput : slots.put fs key v with
    | error e =>
      rw [hput] at h
      cases h
    | ok slots' =>
      rw [hput] at h
      exact (ih h).trans (((Slots.put_ok hput).append_left entries).trans List.perm_middle)

/-- An object that is read has exactly the fields of the record. -/
theorem readRecord_object {fs : List (Field V E)} {entries : List (String × V)}
    {values : Values fs} (h : readRecord fs (.object entries) = .ok values) :
    entries.Perm values.fields := by
  have hperm := readEntries_ok h
  rw [Slots.fields_empty, List.append_nil] at hperm
  exact hperm.symm

theorem readItems_ok {fs : List (Field V E)} {taken : Nat} {items : List V} {values : Values fs}
    (h : readItems fs taken items = .ok values) : items = values.fields.map Prod.snd := by
  induction fs generalizing taken items with
  | nil =>
    cases items with
    | nil => rfl
    | cons v items => cases h
  | cons f fs ih =>
    cases items with
    | nil => cases h
    | cons v items =>
      unfold readItems at h
      cases hread : f.read v with
      | error e =>
        rw [hread] at h
        cases h
      | ok x =>
        rw [hread] at h
        dsimp only at h
        cases hrest : readItems fs (taken + 1) items with
        | error e =>
          rw [hrest] at h
          cases h
        | ok rest =>
          rw [hrest] at h
          obtain rfl := Except.ok.inj h
          rw [f.sound hread, ih hrest]
          rfl

/-- A sequence that is read lists the values of the fields, and nothing behind them. -/
theorem readRecord_sequence {fs : List (Field V E)} {items : List V} {values : Values fs}
    (h : readRecord fs (.sequence items) = .ok values) : items = values.fields.map Prod.snd :=
  readItems_ok h

/-! ## What is written is read -/

/-- Every field reads the raw value of each of its values. -/
def Lossless (fs : List (Field V E)) : Prop := ∀ f ∈ fs, ∀ x, f.read (f.write x) = .ok x

/-- The fields that have been read have the values' contents. -/
def Slots.Agrees : {fs : List (Field V E)} → Slots fs → Values fs → Prop
  | [], _, _ => True
  | _ :: _, (slot, slots), (x, rest) => (slot = none ∨ slot = some x) ∧ slots.Agrees rest

theorem Values.fields_names {fs : List (Field V E)} (values : Values fs) :
    values.fields.map Prod.fst = fs.map Field.name := by
  induction fs with
  | nil => rfl
  | cons f fs ih =>
    obtain ⟨x, rest⟩ := values
    exact congrArg (f.name :: ·) (ih rest)

theorem Slots.agrees_empty {fs : List (Field V E)} (values : Values fs) :
    (Slots.empty fs).Agrees values := by
  induction fs with
  | nil => trivial
  | cons f fs ih => exact ⟨Or.inl rfl, ih values.2⟩

theorem Slots.length_fields {fs : List (Field V E)} (slots : Slots fs) :
    slots.fields.length ≤ fs.length := by
  induction fs with
  | nil => exact Nat.le_refl 0
  | cons f fs ih =>
    obtain ⟨slot, slots⟩ := slots
    have hrest := ih slots
    cases slot with
    | none => exact Nat.le_succ_of_le hrest
    | some x => exact Nat.succ_le_succ hrest

theorem Slots.finish_agrees {fs : List (Field V E)} {slots : Slots fs} {values : Values fs}
    (ha : slots.Agrees values) (hlen : slots.fields.length = fs.length) :
    slots.finish fs = .ok values := by
  induction fs with
  | nil => rfl
  | cons f fs ih =>
    obtain ⟨slot, slots⟩ := slots
    obtain ⟨x, rest⟩ := values
    cases slot with
    | none =>
      have hle : (Slots.fields slots).length ≤ fs.length := slots.length_fields
      have hfull : (Slots.fields slots).length = fs.length + 1 := hlen
      omega
    | some y =>
      obtain ⟨hy, ha⟩ := ha
      obtain rfl : y = x := by simpa using hy
      rw [finish, ih ha (Nat.succ.inj hlen)]

/-- A field that is not filled yet takes the value it has among the values. -/
theorem Slots.put_agrees {fs : List (Field V E)} (hl : Lossless fs)
    (hn : (fs.map Field.name).Nodup) {slots : Slots fs} {values : Values fs}
    (ha : slots.Agrees values) {key : String} {v : V} (hmem : (key, v) ∈ values.fields)
    (hnew : key ∉ slots.fields.map Prod.fst) :
    ∃ slots', slots.put fs key v = .ok slots' ∧ slots'.Agrees values := by
  induction fs with
  | nil => cases hmem
  | cons f fs ih =>
    obtain ⟨slot, slots⟩ := slots
    obtain ⟨x, rest⟩ := values
    obtain ⟨hslot, ha⟩ := ha
    have hfirst : f.name ∉ fs.map Field.name := (List.nodup_cons.mp hn).1
    by_cases hkey : key = f.name
    · subst hkey
      have hv : v = f.write x := by
        rcases List.mem_cons.mp hmem with h | h
        · exact (Prod.mk.inj h).2
        · exact absurd (rest.fields_names ▸ List.mem_map_of_mem h) hfirst
      have hempty : slot = none := by
        rcases hslot with h | h
        · exact h
        · subst h
          exact absurd List.mem_cons_self hnew
      subst hempty
      refine ⟨(some x, slots), ?_, Or.inr rfl, ha⟩
      rw [put, if_pos rfl, Field.fill, hv, hl f List.mem_cons_self x]
    · have hrest : (key, v) ∈ rest.fields := by
        rcases List.mem_cons.mp hmem with h | h
        · exact absurd (Prod.mk.inj h).1 hkey
        · exact h
      have hnew' : key ∉ (Slots.fields slots).map Prod.fst := by
        cases slot with
        | none => exact hnew
        | some y => exact fun h => hnew (List.mem_cons_of_mem _ h)
      obtain ⟨slots', hput, ha'⟩ := ih (fun g hg => hl g (List.mem_cons_of_mem f hg))
        (List.nodup_cons.mp hn).2 ha hrest hnew'
      refine ⟨(slot, slots'), ?_, hslot, ha'⟩
      rw [put, if_neg hkey, hput]

theorem readEntries_complete {fs : List (Field V E)} (hl : Lossless fs)
    (hn : (fs.map Field.name).Nodup) {entries : List (String × V)} {slots : Slots fs}
    {values : Values fs} (ha : slots.Agrees values)
    (hperm : (entries ++ slots.fields).Perm values.fields) :
    readEntries fs slots entries = .ok values := by
  have hlen : values.fields.length = fs.length := by
    simpa using congrArg List.length values.fields_names
  induction entries generalizing slots with
  | nil => exact Slots.finish_agrees ha (hperm.length_eq.trans hlen)
  | cons entry entries ih =>
    obtain ⟨key, v⟩ := entry
    have hnames : ((((key, v) :: entries) ++ slots.fields).map Prod.fst).Nodup := by
      rw [(hperm.map Prod.fst).nodup_iff, values.fields_names]
      exact hn
    have hnew : key ∉ slots.fields.map Prod.fst := by
      rw [List.cons_append, List.map_cons, List.map_append] at hnames
      exact fun hin => (List.nodup_cons.mp hnames).1 (List.mem_append_right _ hin)
    obtain ⟨slots', hput, ha'⟩ :=
      Slots.put_agrees hl hn ha (hperm.mem_iff.mp List.mem_cons_self) hnew
    unfold readEntries
    rw [hput]
    refine ih ha' (.trans ?_ hperm)
    exact ((Slots.put_ok hput).append_left entries).trans List.perm_middle

/-- An object with exactly the fields of the record is read. -/
theorem readRecord_complete {fs : List (Field V E)} (hl : Lossless fs)
    (hn : (fs.map Field.name).Nodup) {entries : List (String × V)} {values : Values fs}
    (hperm : entries.Perm values.fields) : readRecord fs (.object entries) = .ok values := by
  refine readEntries_complete hl hn (Slots.agrees_empty values) ?_
  rw [Slots.fields_empty, List.append_nil]
  exact hperm

end Piteka.Text.Record
