import Mathlib.Data.List.Infix

/-!
# The `LIKE` of SQL

In a pattern `%` stands for any text, `_` for any character, and a backslash takes
the character after it literally. A pattern that ends in a lone backslash is an
error of the database; here it matches nothing.
-/
namespace Piteka.Text

set_option autoImplicit false

/-- The first character of the text is `c`, and the rest is accepted. -/
def startsWith (c : Char) (rest : List Char → Bool) : List Char → Bool
  | [] => false
  | d :: text => decide (d = c) && rest text

def skipOne (rest : List Char → Bool) : List Char → Bool
  | [] => false
  | _ :: text => rest text

/-- Some suffix of the text is accepted. -/
def skipAny (rest : List Char → Bool) (text : List Char) : Bool := text.tails.any rest

def like : List Char → List Char → Bool
  | [] => List.isEmpty
  | c :: pattern =>
    if c = '%' then skipAny (like pattern)
    else if c = '_' then skipOne (like pattern)
    else if c = '\\' then
      match pattern with
      | [] => fun _ => false
      | d :: pattern => startsWith d (like pattern)
    else startsWith c (like pattern)

/-- The character stands for itself in a pattern. -/
def Literal (c : Char) : Prop := c ≠ '\\' ∧ c ≠ '%' ∧ c ≠ '_'

theorem like_percent (text : List Char) : like ['%'] text = true := by
  rw [like, if_pos rfl, skipAny, List.any_eq_true]
  exact ⟨[], (List.mem_tails _ _).mpr List.nil_suffix, rfl⟩

theorem like_literal {c : Char} (hc : Literal c) (pattern text : List Char) :
    like (c :: pattern) text = startsWith c (like pattern) text := by
  obtain ⟨hback, hany, hone⟩ := hc
  rw [like.eq_def]
  dsimp only
  rw [if_neg hany, if_neg hone, if_neg hback]

/-- A literal text before a final wildcard matches what it is a prefix of. -/
theorem like_prefix_iff {p : List Char} (hp : ∀ c ∈ p, Literal c) (text : List Char) :
    like (p ++ ['%']) text = true ↔ p <+: text := by
  induction p generalizing text with
  | nil => exact iff_of_true (like_percent text) List.nil_prefix
  | cons c p ih =>
    have hlit : Literal c := hp c List.mem_cons_self
    have hrest : ∀ c' ∈ p, Literal c' := fun c' h => hp c' (List.mem_cons_of_mem c h)
    rw [List.cons_append, like_literal hlit]
    cases text with
    | nil => simp [startsWith]
    | cons d text =>
      rw [startsWith, Bool.and_eq_true, decide_eq_true_eq, ih hrest, List.cons_prefix_cons]
      exact and_congr_left fun _ => eq_comm

example : like "e_-%".toList "ev-00".toList = true := by decide

end Piteka.Text
