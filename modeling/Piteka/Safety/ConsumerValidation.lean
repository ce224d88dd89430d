import Piteka.Deploy.WellFormedEvent

/-!
# The consumer's validation is exact

The consumer ends with a `ValueError` or with the fields of a well-formed event,
apart from three kinds of event: one without a key that the comparison of sets does
not miss, one whose payload the reader fails on for another reason than its text,
and one whose schema version is only equal to the integer 1.
-/
namespace Piteka.Safety

set_option autoImplicit false

open Piteka.Python Piteka.Deploy

variable {loads : Loads} {event : Value} {environment : Str}

def Accepts (loads : Loads) (event : Value) (environment : Str) : Prop :=
  ∃ r, validate loads event environment = .ok r

/-- Only a `ValueError` is raised, and what is accepted is what is well formed. -/
def FailsClosed (loads : Loads) (event : Value) (environment : Str) : Prop :=
  (∀ e, validate loads event environment = .error e → e.isValueError = true) ∧
    (Accepts loads event environment ↔ WellFormed loads IntegerOne event environment)

theorem wellFormed_or {p q : Value → Prop} :
    WellFormed loads (fun v => p v ∨ q v) event environment ↔
      WellFormed loads p event environment ∨ WellFormed loads q event environment := by
  constructor
  · rintro ⟨n, sha, digest, m, d, rep, hopen, hfields, ⟨v, payload, hv, hobject, hpayload⟩, hid⟩
    obtain ⟨hkeys, ⟨one, hone, hp | hq⟩, hdigest, hhex⟩ := hpayload
    · exact Or.inl ⟨n, sha, digest, m, d, rep, hopen, hfields,
        ⟨v, payload, hv, hobject, hkeys, ⟨one, hone, hp⟩, hdigest, hhex⟩, hid⟩
    · exact Or.inr ⟨n, sha, digest, m, d, rep, hopen, hfields,
        ⟨v, payload, hv, hobject, hkeys, ⟨one, hone, hq⟩, hdigest, hhex⟩, hid⟩
  · have weaken : ∀ {p q : Value → Prop}, (∀ v, p v → q v) →
        WellFormed loads p event environment → WellFormed loads q event environment := by
      rintro p q hpq ⟨n, sha, digest, m, d, rep, hopen, hfields, ⟨v, payload, hv, hobject,
        hkeys, ⟨one, hone, hp⟩, hdigest, hhex⟩, hid⟩
      exact ⟨n, sha, digest, m, d, rep, hopen, hfields, ⟨v, payload, hv, hobject,
        hkeys, ⟨one, hone, hpq one hp⟩, hdigest, hhex⟩, hid⟩
    rintro (h | h)
    · exact weaken (fun _ => Or.inl) h
    · exact weaken (fun _ => Or.inr) h

theorem accepts_iff : Accepts loads event environment ↔
    WellFormed loads IntegerOne event environment ∨
      WellFormed loads LooseOne event environment := by
  have hequal : (fun v : Value => v.equalsOne = true) = fun v => IntegerOne v ∨ LooseOne v :=
    funext fun _ => propext equalsOne_iff
  rw [← wellFormed_or, ← hequal]
  constructor
  · rintro ⟨r, h⟩
    obtain ⟨n, sha, digest, m, hdesc, _⟩ := validate_ok.mp h
    exact ⟨n, sha, digest, m, hdesc⟩
  · rintro ⟨n, sha, digest, m, hdesc⟩
    exact ⟨_, validate_ok.mpr ⟨n, sha, digest, m, hdesc, rfl⟩⟩

theorem isObject_unique {v : Value} {payload payload' : Dict} (h : IsObject loads v payload)
    (h' : IsObject loads v payload') : payload = payload' := by
  rcases h with rfl | ⟨text, rfl, h⟩
  · rcases h' with h' | ⟨_, h', _⟩
    · exact Value.dict.inj h'
    · cases h'
  · rcases h' with h' | ⟨text', ht, h'⟩
    · cases h'
    · obtain rfl := Value.str.inj ht
      exact Value.dict.inj (Except.ok.inj (h.symm.trans h'))

/-- The version of one event is one value. -/
theorem wellFormed_exclusive {p q : Value → Prop} (hpq : ∀ v, p v → ¬ q v)
    (hp : WellFormed loads p event environment) : ¬ WellFormed loads q event environment := by
  rintro ⟨_, _, _, _, d', _, ⟨fields', rfl, hd', _⟩, _, ⟨v', payload', hv', ho', hq⟩, _⟩
  obtain ⟨_, _, _, _, d, _, ⟨fields, hfields, hd, _⟩, _, ⟨v, payload, hv, ho, hp⟩, _⟩ := hp
  obtain rfl := Value.dict.inj hfields
  obtain rfl := Value.dict.inj (Option.some.inj (hd.symm.trans hd'))
  obtain rfl := Option.some.inj (hv.symm.trans hv')
  obtain rfl := isObject_unique ho ho'
  obtain ⟨one, hone, hp⟩ := hp.hasVersion
  obtain ⟨one', hone', hq⟩ := hq.hasVersion
  obtain rfl := Option.some.inj (hone.symm.trans hone')
  exact hpq one hp hq

theorem not_loose_of_integer {v : Value} (h : IntegerOne v) : ¬ LooseOne v := by
  obtain rfl := h
  rintro (h | h) <;> cases h

theorem validate_fails_closed (loads : Loads) (event : Value) (environment : Str) :
    FailsClosed loads event environment ↔
      ¬ MissingKey event ∧ ¬ LoadsFails loads event environment ∧
        ¬ WellFormed loads LooseOne event environment := by
  have hraises : (∀ e, validate loads event environment = .error e → e.isValueError = true) ↔
      ¬ Escapes (validate loads event environment) := by
    simp only [Escapes, not_exists, not_and, Bool.not_eq_false]
  have hexact : (Accepts loads event environment ↔
      WellFormed loads IntegerOne event environment) ↔
        ¬ WellFormed loads LooseOne event environment := by
    rw [accepts_iff]
    constructor
    · exact fun h hloose => wellFormed_exclusive (fun _ => not_loose_of_integer)
        (h.mp (Or.inr hloose)) hloose
    · exact fun h => or_iff_left h
  rw [FailsClosed, hraises, hexact, escapes_validate, not_or, and_assoc]

/-- A third key stands in for the missing one. -/
theorem validate_raises_keyError : ¬ FailsClosed (fun _ => .error .jsonDecodeError)
    (.dict [(lit "action", .str (lit "created")), (lit "deployment", .dict [])])
    (lit "production") := by
  rintro ⟨h, _⟩
  cases h (.keyError (lit "repository")) rfl

end Piteka.Safety
