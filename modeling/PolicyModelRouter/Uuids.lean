import PolicyModelRouter.DigitStrings
import Mathlib.Data.String.Basic

/-! # Universally unique identifiers and their hyphenated hexadecimal text -/

namespace Uuids
open DigitStrings

structure UUID where
  int : Fin (2 ^ 128)
  deriving DecidableEq

instance neZero_uuids : NeZero (2 ^ 128) := ⟨by decide⟩

def UUID.str (u : UUID) : String :=
  let hex := padded 16 32 u.int
  String.ofList (hex.take 8 ++ '-' :: ((hex.drop 8).take 4 ++ '-' :: ((hex.drop 12).take 4 ++
    '-' :: ((hex.drop 16).take 4 ++ '-' :: hex.drop 20))))

theorem append_pieces (hex : List Char) :
    hex.take 8 ++ ((hex.drop 8).take 4 ++ ((hex.drop 12).take 4 ++ ((hex.drop 16).take 4 ++
      hex.drop 20))) = hex := by
  rw [← List.drop_drop (i := 4) (j := 16), List.take_append_drop,
    ← List.drop_drop (i := 4) (j := 12), List.take_append_drop,
    ← List.drop_drop (i := 4) (j := 8), List.take_append_drop, List.take_append_drop]

theorem str_inj {u v : UUID} (h : u.str = v.str) : u = v := by
  have piece : ∀ (w : UUID) (i n : ℕ), i + n ≤ 32 →
      (((padded 16 32 w.int).drop i).take n).length = n := by
    intro w i n hin
    rw [List.length_take, List.length_drop, length_padded]
    omega
  have hex : padded 16 32 u.int = padded 16 32 v.int := by
    obtain ⟨h₁, h⟩ := List.append_inj (String.ofList_inj.mp h)
      ((piece u 0 8 (by decide)).trans (piece v 0 8 (by decide)).symm)
    obtain ⟨h₂, h⟩ := List.append_inj (List.cons.inj h).2
      ((piece u 8 4 (by decide)).trans (piece v 8 4 (by decide)).symm)
    obtain ⟨h₃, h⟩ := List.append_inj (List.cons.inj h).2
      ((piece u 12 4 (by decide)).trans (piece v 12 4 (by decide)).symm)
    obtain ⟨h₄, h⟩ := List.append_inj (List.cons.inj h).2
      ((piece u 16 4 (by decide)).trans (piece v 16 4 (by decide)).symm)
    rw [← append_pieces (padded 16 32 u.int), ← append_pieces (padded 16 32 v.int), h₁, h₂, h₃, h₄,
      (List.cons.inj h).2]
  have fits : ∀ w : UUID, w.int.val < 16 ^ 32 := by
    intro w
    have hw := w.int.isLt
    omega
  have hint : u.int.val = v.int.val := padded_inj (by decide) (by decide) (fits u) (fits v) hex
  cases u
  cases v
  exact congrArg UUID.mk (Fin.ext hint)

@[simp] theorem str_eq_str_iff {u v : UUID} : u.str = v.str ↔ u = v :=
  ⟨str_inj, congrArg UUID.str⟩

theorem length_str (u : UUID) : u.str.length = 36 := by
  simp only [UUID.str, String.length_ofList, List.length_append, List.length_cons, List.length_take,
    List.length_drop, length_padded]
  rfl

theorem str_ne_empty (u : UUID) : u.str ≠ "" := by
  intro h
  have hlength := congrArg (fun s : String => s.toList.length) h
  simp [UUID.str] at hlength

example : UUID.str ⟨⟨0x12345678123456781234567812345678, by decide⟩⟩ =
    "12345678-1234-5678-1234-567812345678" := by decide

end Uuids
