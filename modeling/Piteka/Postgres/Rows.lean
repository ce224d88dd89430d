import Piteka.Postgres.MandateProjections
import Piteka.Storage.Memory
import Piteka.Table.Query

/-!
# Rows of the Postgres stores

What the single-statement stores share: an insertion that a taken key refuses, and
columns that may be NULL. The texts of these errors stand for those of the driver.
-/
namespace Piteka.Postgres

set_option autoImplicit false

open Piteka.Storage Piteka.Table

/-- `try_get` of a text column, which fails on NULL. -/
def notNull (column : String) : Option String → StorageResult String
  | some text => .ok text
  | none => .error (sqlError ("error occurred while decoding column " ++ column ++ ": unexpected null"))

/-- `INSERT` of a row; its key must be free. -/
def insertUnique {K W : Type} [DecidableEq K] {key : W → K} (t : Keyed K W key) (w : W) :
    StorageResult Unit × Keyed K W key :=
  match t.get (key w) with
  | some _ => (.error (sqlError "duplicate key value violates unique constraint"), t)
  | none => (.ok (), t.insert w)

/-- The answer of a statement is an error of the database or of the connection. -/
def BackendFails {Op : Type} {Rows : Op → Type} (q : Op) (a : StorageResult (Rows q)) : Prop :=
  ∃ message, a = .error (sqlError message)

/-- Both calls succeed or both fail; the texts of their errors may differ. -/
def SameVerdict {α : Type} (a b : StorageResult α) : Prop := a.isOk = b.isOk

/-- The table takes the image of what the indexed store takes. -/
theorem insertUnique_indexed {V W : Type} {key group : V → String} {key' : W → String} {f : V → W}
    {t : Indexed String String V key group} {t' : Keyed String W key'}
    (h : Keyed.Image f t.toKeyed t') (hkey : ∀ v, key' (f v) = key v) (field what : String) {v : V}
    (hne : key v ≠ "") :
    SameVerdict (insertUnique t' (f v)).1 (insertIndexed field what t v).1 ∧
      Keyed.Image f (insertIndexed field what t v).2.toKeyed (insertUnique t' (f v)).2 := by
  rw [insertIndexed, if_neg hne, insertUnique, hkey, h.get_eq]
  by_cases hfresh : t.get (key v) = none
  · rw [dif_pos hfresh, show t.toKeyed.get (key v) = none from hfresh]
    exact ⟨rfl, h.insert hkey v⟩
  · obtain ⟨old, hold⟩ := Option.ne_none_iff_exists'.mp hfresh
    rw [dif_neg hfresh, show t.toKeyed.get (key v) = some old from hold]
    exact ⟨rfl, h⟩

end Piteka.Postgres
