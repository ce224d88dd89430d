import Mathlib.Data.List.Basic

/-!
# Markup made of literals and values

A page is a list of pieces: literal markup and values put between. Values are emitted as
they are or with the five special characters replaced. The tags of a page are read off
its text, without the quoted parts. An escaped value stays within the text or within the
quoted part in which it stands, so the tags of an escaped page are those of its literals.
-/
namespace Piteka.Text.Markup

set_option autoImplicit false

inductive Piece where
  | lit (text : String)
  | value (text : String)

inductive Escape where
  | none
  | html

def escapeChar (c : Char) : List Char :=
  if c = '&' then "&amp;".toList
  else if c = '<' then "&lt;".toList
  else if c = '>' then "&gt;".toList
  else if c = '"' then "&quot;".toList
  else if c = '\x27' then "&#x27;".toList
  else [c]

def Escape.text (escape : Escape) (text : String) : List Char :=
  match escape with
  | .none => text.toList
  | .html => text.toList.flatMap escapeChar

def Piece.emit (escape : Escape) : Piece → List Char
  | .lit text => text.toList
  | .value text => escape.text text

def emit (escape : Escape) (pieces : List Piece) : List Char := pieces.flatMap (Piece.emit escape)

def render (escape : Escape) (pieces : List Piece) : String := String.ofList (emit escape pieces)

/-! ## What escaping changes -/

def IsSpecial (c : Char) : Prop := c = '&' ∨ c = '<' ∨ c = '>' ∨ c = '"' ∨ c = '\x27'

instance (c : Char) : Decidable (IsSpecial c) := by
  unfold IsSpecial
  infer_instance

/-- No character is replaced. -/
def IsPlain (text : String) : Prop := ∀ c ∈ text.toList, ¬ IsSpecial c

instance (text : String) : Decidable (IsPlain text) :=
  List.decidableBAll (fun c => ¬ IsSpecial c) text.toList

theorem escapeChar_of_not_special {c : Char} (h : ¬ IsSpecial c) : escapeChar c = [c] := by
  simp only [IsSpecial, not_or] at h
  obtain ⟨h₁, h₂, h₃, h₄, h₅⟩ := h
  rw [escapeChar, if_neg h₁, if_neg h₂, if_neg h₃, if_neg h₄, if_neg h₅]

theorem length_escapeChar {c : Char} (h : IsSpecial c) : 1 < (escapeChar c).length := by
  rcases h with rfl | rfl | rfl | rfl | rfl <;> simp [escapeChar]

theorem length_escapeChar_pos (c : Char) : 1 ≤ (escapeChar c).length := by
  by_cases h : IsSpecial c
  · exact Nat.le_of_lt (length_escapeChar h)
  · exact Nat.le_of_eq (congrArg List.length (escapeChar_of_not_special h)).symm

theorem length_le_escape (cs : List Char) : cs.length ≤ (cs.flatMap escapeChar).length := by
  induction cs with
  | nil => exact Nat.le_refl 0
  | cons c cs ih =>
    rw [List.flatMap_cons, List.length_append, List.length_cons]
    have := length_escapeChar_pos c
    omega

theorem escape_eq_iff (cs : List Char) :
    cs = cs.flatMap escapeChar ↔ ∀ c ∈ cs, ¬ IsSpecial c := by
  induction cs with
  | nil => simp
  | cons c cs ih =>
    rw [List.flatMap_cons, List.forall_mem_cons]
    constructor
    · intro h
      have hc : ¬ IsSpecial c := by
        intro hspecial
        have hlen := congrArg List.length h
        rw [List.length_append, List.length_cons] at hlen
        have := length_escapeChar hspecial
        have := length_le_escape cs
        omega
      rw [escapeChar_of_not_special hc] at h
      exact ⟨hc, ih.mp (List.cons.inj h).2⟩
    · rintro ⟨hc, hcs⟩
      rw [escapeChar_of_not_special hc, ← ih.mpr hcs]
      rfl

theorem length_emit_le (p : Piece) : (p.emit .none).length ≤ (p.emit .html).length := by
  cases p with
  | lit text => exact Nat.le_refl _
  | value text => exact length_le_escape text.toList

theorem length_emit_list_le (ps : List Piece) :
    (emit .none ps).length ≤ (emit .html ps).length := by
  induction ps with
  | nil => exact Nat.le_refl 0
  | cons p ps ih =>
    simp only [emit, List.flatMap_cons, List.length_append] at ih ⊢
    have := length_emit_le p
    omega

theorem piece_emit_eq_iff (p : Piece) :
    p.emit .none = p.emit .html ↔ ∀ text, p = .value text → IsPlain text := by
  cases p with
  | lit text => exact iff_of_true rfl fun _ h => by cases h
  | value text =>
    refine (escape_eq_iff text.toList).trans ⟨fun h t ht => ?_, fun h => h text rfl⟩
    rw [← Piece.value.inj ht]
    exact h

/-- No value has a character that is replaced. -/
def PlainValues (ps : List Piece) : Prop := ∀ text, Piece.value text ∈ ps → IsPlain text

theorem emit_eq_iff (ps : List Piece) : emit .none ps = emit .html ps ↔ PlainValues ps := by
  unfold PlainValues
  induction ps with
  | nil => simp [emit]
  | cons p ps ih =>
    have hcons : ∀ e, emit e (p :: ps) = p.emit e ++ emit e ps := fun _ => List.flatMap_cons
    rw [hcons, hcons]
    constructor
    · intro h text ht
      -- No piece and no rest gets shorter, so each keeps its length.
      have hlen := congrArg List.length h
      rw [List.length_append, List.length_append] at hlen
      have hp := length_emit_le p
      have hps := length_emit_list_le ps
      obtain ⟨hpiece, hrest⟩ := List.append_inj h (by omega)
      rcases List.mem_cons.mp ht with rfl | ht
      · exact (piece_emit_eq_iff _).mp hpiece text rfl
      · exact ih.mp hrest text ht
    · intro h
      rw [(piece_emit_eq_iff p).mpr fun t ht => h t (ht ▸ List.mem_cons_self),
        ih.mpr fun t ht => h t (List.mem_cons_of_mem p ht)]

/-- Escaping changes nothing exactly if no value has a special character. -/
theorem render_eq_iff (ps : List Piece) :
    render .none ps = render .html ps ↔ PlainValues ps := by
  rw [← emit_eq_iff, render, render, String.ofList_inj]

@[simp] theorem plainValues_nil : PlainValues [] := fun _ h => absurd h List.not_mem_nil

@[simp] theorem plainValues_lit (text : String) (ps : List Piece) :
    PlainValues (.lit text :: ps) ↔ PlainValues ps := by
  simp [PlainValues]

@[simp] theorem plainValues_value (text : String) (ps : List Piece) :
    PlainValues (.value text :: ps) ↔ IsPlain text ∧ PlainValues ps := by
  simp [PlainValues]

@[simp] theorem plainValues_append (ps qs : List Piece) :
    PlainValues (ps ++ qs) ↔ PlainValues ps ∧ PlainValues qs := by
  simp only [PlainValues, List.mem_append, or_imp, forall_and]

@[simp] theorem plainValues_flatMap {α : Type} (rows : List α) (row : α → List Piece) :
    PlainValues (rows.flatMap row) ↔ ∀ r ∈ rows, PlainValues (row r) := by
  simp only [PlainValues, List.mem_flatMap]
  exact ⟨fun h r hr text ht => h text ⟨r, hr, ht⟩, fun h text ⟨r, hr, ht⟩ => h r hr text ht⟩

theorem isPlain_ofList {cs : List Char} (h : ∀ c ∈ cs, ¬ IsSpecial c) :
    IsPlain (String.ofList cs) := by
  rw [IsPlain, String.toList_ofList]
  exact h

@[simp] theorem isPlain_append (a b : String) : IsPlain (a ++ b) ↔ IsPlain a ∧ IsPlain b := by
  simp only [IsPlain, String.toList_append, List.forall_mem_append]

/-! ## Tags -/

inductive State where
  | data
  | tag
  | equals
  | quoted (quote : Char)
  deriving DecidableEq

def State.next : State → Char → State
  | .data, c => if c = '<' then .tag else .data
  | .tag, c => if c = '>' then .data else if c = '=' then .equals else .tag
  | .equals, c => if c = '"' ∨ c = '\x27' then .quoted c else if c = '>' then .data else .tag
  | .quoted quote, c => if c = quote then .tag else .quoted quote

/-- The tags read so far, each without its quoted parts, and the one being read. -/
structure Scan where
  state : State
  tags : List (List Char)
  current : List Char

def Scan.start : Scan := ⟨.data, [], []⟩

def Scan.step (s : Scan) (c : Char) : Scan where
  state := s.state.next c
  tags := if s.state ≠ .data ∧ s.state.next c = .data then s.tags ++ [s.current] else s.tags
  current :=
    match s.state with
    | .data => if c = '<' then [] else s.current
    | .tag => s.current ++ [c]
    | .equals => s.current ++ [c]
    | .quoted _ => s.current

def Scan.feed (s : Scan) (cs : List Char) : Scan := cs.foldl Scan.step s

def tags (page : String) : List (List Char) := (Scan.start.feed page.toList).tags

theorem Scan.feed_append (s : Scan) (cs ds : List Char) :
    s.feed (cs ++ ds) = (s.feed cs).feed ds := List.foldl_append

theorem Scan.feed_state (s : Scan) (cs : List Char) :
    (s.feed cs).state = cs.foldl State.next s.state := by
  induction cs generalizing s with
  | nil => rfl
  | cons c cs ih => exact ih (s.step c)

/-- Where a value may stand: in the text, or in a quoted part. -/
def State.HoldsText : State → Prop
  | .data => True
  | .tag => False
  | .equals => False
  | .quoted quote => quote = '"' ∨ quote = '\x27'

instance (s : State) : Decidable s.HoldsText := by
  unfold State.HoldsText
  cases s <;> infer_instance

/-- What an escaped text is made of. -/
theorem mem_escape {cs : List Char} {c : Char} (h : c ∈ cs.flatMap escapeChar) :
    c ≠ '<' ∧ c ≠ '"' ∧ c ≠ '\x27' := by
  obtain ⟨d, _, hc⟩ := List.mem_flatMap.mp h
  by_cases hd : IsSpecial d
  · rcases hd with rfl | rfl | rfl | rfl | rfl <;> simp [escapeChar] at hc <;>
      rcases hc with rfl | rfl | rfl | rfl | rfl | rfl <;> decide
  · rw [escapeChar_of_not_special hd] at hc
    obtain rfl := List.mem_singleton.mp hc
    exact ⟨fun h => hd (.inr (.inl h)), fun h => hd (.inr (.inr (.inr (.inl h)))),
      fun h => hd (.inr (.inr (.inr (.inr h))))⟩

theorem Scan.step_text {s : Scan} (hs : s.state.HoldsText) {c : Char}
    (hc : c ≠ '<' ∧ c ≠ '"' ∧ c ≠ '\x27') : s.step c = s := by
  obtain ⟨state, tags, current⟩ := s
  obtain ⟨hlt, hdouble, hsingle⟩ := hc
  cases state with
  | data => simp [Scan.step, State.next, hlt]
  | tag => exact hs.elim
  | equals => exact hs.elim
  | quoted quote =>
    have hne : c ≠ quote := by
      rcases hs with rfl | rfl
      · exact hdouble
      · exact hsingle
    simp [Scan.step, State.next, hne]

/-- An escaped text opens and closes nothing. -/
theorem Scan.feed_escape {s : Scan} (hs : s.state.HoldsText) (text : String) :
    s.feed (Escape.html.text text) = s := by
  have main : ∀ cs : List Char, (∀ c ∈ cs, c ≠ '<' ∧ c ≠ '"' ∧ c ≠ '\x27') → s.feed cs = s := by
    intro cs hcs
    induction cs with
    | nil => rfl
    | cons c cs ih =>
      rw [feed, List.foldl_cons, step_text hs (hcs c List.mem_cons_self)]
      exact ih fun d hd => hcs d (List.mem_cons_of_mem c hd)
  exact main _ fun c hc => mem_escape hc

/-- The literal text of a page. -/
def literals (ps : List Piece) : List Char :=
  ps.flatMap fun
    | .lit text => text.toList
    | .value _ => []

/-- The state after the pieces, if every value stands where a value may. -/
def after (state : State) : List Piece → Option State
  | [] => some state
  | .lit text :: ps => after (text.toList.foldl State.next state) ps
  | .value _ :: ps => if state.HoldsText then after state ps else none

theorem after_lit (state : State) (cs : List Char) (ps : List Piece) :
    after state (.lit (String.ofList cs) :: ps) = after (cs.foldl State.next state) ps := by
  rw [after, String.toList_ofList]

theorem after_value (state : State) (text : String) (ps : List Piece) :
    after state (.value text :: ps) = if state.HoldsText then after state ps else none := rfl

theorem after_append (state : State) (ps qs : List Piece) :
    after state (ps ++ qs) = (after state ps).bind fun mid => after mid qs := by
  induction ps generalizing state with
  | nil => rfl
  | cons p ps ih =>
    cases p with
    | lit text => exact ih _
    | value text =>
      simp only [List.cons_append, after]
      split
      · exact ih _
      · rfl

theorem after_both {state : State} {ps qs : List Piece} (hp : after state ps = some state)
    (hq : after state qs = some state) : after state (ps ++ qs) = some state := by
  rw [after_append, hp, Option.bind_some, hq]

theorem after_flatMap {α : Type} {state : State} {rows : List α} {row : α → List Piece}
    (h : ∀ r ∈ rows, after state (row r) = some state) :
    after state (rows.flatMap row) = some state := by
  induction rows with
  | nil => rfl
  | cons r rows ih =>
    rw [List.flatMap_cons]
    exact after_both (h r List.mem_cons_self) (ih fun r' hr' => h r' (List.mem_cons_of_mem r hr'))

theorem literals_append (ps qs : List Piece) :
    literals (ps ++ qs) = literals ps ++ literals qs := List.flatMap_append

theorem literals_flatMap {α : Type} {rows rows' : List α} {row : α → List Piece}
    (hlen : rows.length = rows'.length) (h : ∀ r r', literals (row r) = literals (row r')) :
    literals (rows.flatMap row) = literals (rows'.flatMap row) := by
  induction rows generalizing rows' with
  | nil =>
    obtain rfl := List.length_eq_zero_iff.mp hlen.symm
    rfl
  | cons r rows ih =>
    cases rows' with
    | nil => cases hlen
    | cons r' rows' =>
      rw [List.flatMap_cons, List.flatMap_cons, literals_append, literals_append, h r r',
        ih (Nat.succ.inj hlen)]

theorem Scan.feed_emit {s : Scan} {ps : List Piece} {state : State}
    (h : after s.state ps = some state) : s.feed (emit .html ps) = s.feed (literals ps) := by
  induction ps generalizing s with
  | nil => rfl
  | cons p ps ih =>
    have hemit : emit .html (p :: ps) = p.emit .html ++ emit .html ps := List.flatMap_cons
    cases p with
    | lit text =>
      have hlits : literals (.lit text :: ps) = text.toList ++ literals ps := List.flatMap_cons
      rw [hemit, hlits, feed_append, feed_append]
      refine ih ?_
      rw [feed_state]
      exact h
    | value text =>
      have hlits : literals (.value text :: ps) = literals ps := List.flatMap_cons
      simp only [after] at h
      split at h
      · next hholds =>
        rw [hemit, hlits, feed_append]
        have hsame : s.feed (Piece.emit .html (.value text)) = s := feed_escape hholds text
        rw [hsame]
        exact ih h
      · cases h

/-- The tags of an escaped page are those of its literals; the pieces after its last value
need not be looked at. -/
theorem tags_render {front rest : List Piece} {state : State}
    (hfront : after .data front = some state) (hrest : ∀ text, Piece.value text ∉ rest) :
    tags (render .html (front ++ rest)) =
      (Scan.start.feed (literals (front ++ rest))).tags := by
  have hlits : emit .html rest = literals rest := by
    refine List.flatMap_congr fun p hp => ?_
    cases p with
    | lit text => rfl
    | value text => exact absurd hp (hrest text)
  have hsplit : emit .html (front ++ rest) = emit .html front ++ emit .html rest :=
    List.flatMap_append
  rw [tags, render, String.toList_ofList, hsplit, literals_append, hlits, Scan.feed_append,
    Scan.feed_append, Scan.feed_emit hfront]

end Piteka.Text.Markup
