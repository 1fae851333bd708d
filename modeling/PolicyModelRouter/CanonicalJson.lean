import PolicyModelRouter.DigitStrings
import Mathlib.Data.List.Perm.Subperm
import Mathlib.Data.List.Sort
import Mathlib.Data.String.Basic

/-!
# Canonical JSON text

JSON values without fractional numbers, and the compact text with sorted object
keys. Objects are lists of fields in insertion order, so that independence of the
order is a statement. The text is prefix-free up to the end of a number, from
which it follows that it determines the value up to the order of object fields.
-/

namespace CanonicalJson
open DigitStrings

inductive Json where
  | null
  | bool (b : Bool)
  | int (n : ℤ)
  | str (s : String)
  | arr (items : List Json)
  | obj (fields : List (String × Json))

/-- Induction with a hypothesis for every item and every field value. -/
theorem Json.induction {P : Json → Prop} (null : P .null) (bool : ∀ b, P (.bool b))
    (int : ∀ n, P (.int n)) (str : ∀ s, P (.str s))
    (arr : ∀ items, (∀ v ∈ items, P v) → P (.arr items))
    (obj : ∀ fields, (∀ f ∈ fields, P f.2) → P (.obj fields)) : ∀ v, P v
  | .null => null
  | .bool b => bool b
  | .int n => int n
  | .str s => str s
  | .arr items => arr items fun v _ => Json.induction null bool int str arr obj v
  | .obj fields => obj fields fun f _ => Json.induction null bool int str arr obj f.2
termination_by v => sizeOf v
decreasing_by
  · simp only [Json.arr.sizeOf_spec]
    have := List.sizeOf_lt_of_mem ‹v ∈ items›
    omega
  · simp only [Json.obj.sizeOf_spec]
    have := List.sizeOf_lt_of_mem ‹f ∈ fields›
    rcases f with ⟨k, v⟩
    simp only [Prod.mk.sizeOf_spec] at this ⊢
    omega

/-- The characters a string literal writes with a letter behind a backslash: quote,
backslash, newline, carriage return, tab, form feed and backspace. -/
def shortEscapes : List (Char × Char) :=
  [('\x22', '\x22'), ('\x5c', '\x5c'), ('\n', 'n'), ('\r', 'r'), ('\t', 't'),
    ('\x0c', 'f'), ('\x08', 'b')]

/-- One character inside a string literal. Characters above the control range are
written as themselves. -/
def escapeChar (c : Char) : List Char :=
  match shortEscapes.lookup c with
  | some e => ['\x5c', e]
  | none => if c.toNat < 0x20 then '\x5c' :: 'u' :: padded 16 4 c.toNat else [c]

def quoted (s : String) : List Char :=
  '\x22' :: (s.toList.flatMap escapeChar ++ ['\x22'])

mutual

/-- The compact text of a value, fields in the order given. -/
def Json.render : Json → List Char
  | .null => ['n', 'u', 'l', 'l']
  | .bool true => ['t', 'r', 'u', 'e']
  | .bool false => ['f', 'a', 'l', 's', 'e']
  | .int n => intText n
  | .str s => quoted s
  | .arr [] => ['[', ']']
  | .arr (v :: vs) => '[' :: (v.render ++ renderItems vs)
  | .obj [] => ['\x7b', '\x7d']
  | .obj ((k, v) :: fs) => '\x7b' :: (quoted k ++ ':' :: (v.render ++ renderFields fs))

def renderItems : List Json → List Char
  | [] => [']']
  | v :: vs => ',' :: (v.render ++ renderItems vs)

def renderFields : List (String × Json) → List Char
  | [] => ['\x7d']
  | (k, v) :: fs => ',' :: (quoted k ++ ':' :: (v.render ++ renderFields fs))

end

private theorem mem_of_lookup {table : List (Char × Char)} {c e : Char}
    (h : table.lookup c = some e) : (c, e) ∈ table := by
  induction table with
  | nil => simp at h
  | cons p table ih =>
    rw [List.lookup_cons] at h
    split at h
    · rename_i hc
      obtain rfl := eq_of_beq hc
      obtain rfl := Option.some.inj h
      exact List.mem_cons_self
    · exact List.mem_cons_of_mem _ (ih h)

private theorem shortEscapes_inj {c d e : Char} (hc : shortEscapes.lookup c = some e)
    (hd : shortEscapes.lookup d = some e) : c = d := by
  have table : ∀ p ∈ shortEscapes, ∀ q ∈ shortEscapes, p.2 = q.2 → p.1 = q.1 := by decide
  exact table _ (mem_of_lookup hc) _ (mem_of_lookup hd) rfl

private theorem shortEscapes_ne_u {c e : Char} (h : shortEscapes.lookup c = some e) : e ≠ 'u' := by
  have table : ∀ p ∈ shortEscapes, p.2 ≠ 'u' := by decide
  exact table _ (mem_of_lookup h)

/-- An escaped character is a letter behind a backslash, four hexadecimal digits
behind a backslash, or a character that needs no escape. -/
theorem escapeChar_cases (c : Char) :
    (∃ e, shortEscapes.lookup c = some e ∧ escapeChar c = ['\x5c', e]) ∨
    (c.toNat < 0x20 ∧ escapeChar c = '\x5c' :: 'u' :: padded 16 4 c.toNat) ∨
    (c ≠ '\x5c' ∧ c ≠ '\x22' ∧ escapeChar c = [c]) := by
  unfold escapeChar
  split
  · rename_i e he
    exact .inl ⟨e, he, rfl⟩
  · rename_i he
    refine .inr ?_
    split
    · rename_i hc
      exact .inl ⟨hc, rfl⟩
    · refine .inr ⟨?_, ?_, rfl⟩
      · rintro rfl
        exact absurd he (by decide)
      · rintro rfl
        exact absurd he (by decide)

private theorem escapeChar_append_inj {c d : Char} {s t : List Char}
    (h : escapeChar c ++ s = escapeChar d ++ t) : c = d ∧ s = t := by
  rcases escapeChar_cases c with ⟨e, hc, he⟩ | ⟨hc, he⟩ | ⟨hc, -, he⟩ <;>
    rcases escapeChar_cases d with ⟨e', hd, he'⟩ | ⟨hd, he'⟩ | ⟨hd, -, he'⟩ <;>
    rw [he, he'] at h <;> simp only [List.cons_append, List.nil_append, List.cons.injEq] at h
  · obtain ⟨-, rfl, rfl⟩ := h
    exact ⟨shortEscapes_inj hc hd, rfl⟩
  · exact absurd h.2.1 (shortEscapes_ne_u hc)
  · exact absurd h.1.symm hd
  · exact absurd h.2.1.symm (shortEscapes_ne_u hd)
  · obtain ⟨hp, rfl⟩ := List.append_inj h.2.2 (by simp)
    refine ⟨Char.toNat_inj.mp (padded_inj (by decide) (by decide) ?_ ?_ hp), rfl⟩
    · omega
    · omega
  · exact absurd h.1.symm hd
  · exact absurd h.1 hc
  · exact absurd h.1 hc
  · obtain ⟨rfl, rfl⟩ := h
    exact ⟨rfl, rfl⟩

private theorem head_escapeChar (c : Char) : ∃ d s, escapeChar c = d :: s ∧ d ≠ '\x22' := by
  rcases escapeChar_cases c with ⟨e, -, h⟩ | ⟨-, h⟩ | ⟨-, hc, h⟩
  · exact ⟨_, _, h, by decide⟩
  · exact ⟨_, _, h, by decide⟩
  · exact ⟨_, _, h, hc⟩

private theorem flatMap_escapeChar_inj {cs ds s t : List Char}
    (h : cs.flatMap escapeChar ++ '\x22' :: s = ds.flatMap escapeChar ++ '\x22' :: t) :
    cs = ds ∧ s = t := by
  induction cs generalizing ds with
  | nil =>
    cases ds with
    | nil => exact ⟨rfl, (List.cons.inj h).2⟩
    | cons d ds =>
      obtain ⟨e, u, he, hne⟩ := head_escapeChar d
      simp only [List.flatMap_cons, he, List.append_assoc, List.cons_append, List.flatMap_nil,
        List.nil_append, List.cons.injEq] at h
      exact absurd h.1.symm hne
  | cons c cs ih =>
    cases ds with
    | nil =>
      obtain ⟨e, u, he, hne⟩ := head_escapeChar c
      simp only [List.flatMap_cons, he, List.append_assoc, List.cons_append, List.flatMap_nil,
        List.nil_append, List.cons.injEq] at h
      exact absurd h.1 hne
    | cons d ds =>
      simp only [List.flatMap_cons, List.append_assoc] at h
      obtain ⟨rfl, htail⟩ := escapeChar_append_inj h
      obtain ⟨rfl, rfl⟩ := ih htail
      exact ⟨rfl, rfl⟩

theorem quoted_append_inj {a b : String} {s t : List Char} (h : quoted a ++ s = quoted b ++ t) :
    a = b ∧ s = t := by
  simp only [quoted, List.cons_append, List.append_assoc, List.nil_append] at h
  obtain ⟨hab, hst⟩ := flatMap_escapeChar_inj (List.cons.inj h).2
  exact ⟨String.toList_inj.mp hab, hst⟩

/-- The forms of JSON text that can be told apart by their first character. -/
private inductive Form where
  | null | true | false | number | string | array | object

private def Form.of : Json → Form
  | .null => .null
  | .bool Bool.true => .true
  | .bool Bool.false => .false
  | .int _ => .number
  | .str _ => .string
  | .arr _ => .array
  | .obj _ => .object

private def Form.at (c : Char) : Form :=
  if c = 'n' then .null
  else if c = 't' then .true
  else if c = 'f' then .false
  else if c = '\x22' then .string
  else if c = '[' then .array
  else if c = '\x7b' then .object
  else .number

private theorem number_start {c : Char} (h : c.isDigit = true ∨ c = '-') :
    Form.at c = .number ∧ c ≠ ']' := by
  have hne : c ≠ 'n' ∧ c ≠ 't' ∧ c ≠ 'f' ∧ c ≠ '\x22' ∧ c ≠ '[' ∧ c ≠ '\x7b' ∧ c ≠ ']' := by
    refine ⟨?_, ?_, ?_, ?_, ?_, ?_, ?_⟩ <;> rintro rfl <;> exact absurd h (by decide)
  obtain ⟨h₁, h₂, h₃, h₄, h₅, h₆, h₇⟩ := hne
  exact ⟨by simp [Form.at, h₁, h₂, h₃, h₄, h₅, h₆], h₇⟩

private theorem head_render (v : Json) :
    ∃ c s, v.render = c :: s ∧ Form.at c = Form.of v ∧ c ≠ ']' := by
  cases v with
  | null => exact ⟨_, _, rfl, rfl, by decide⟩
  | bool b => cases b <;> exact ⟨_, _, rfl, rfl, by decide⟩
  | int n =>
    obtain ⟨c, s, h, hc⟩ := head_intText n
    exact ⟨c, s, h, number_start hc⟩
  | str s => exact ⟨_, _, rfl, rfl, by decide⟩
  | arr items => cases items <;> exact ⟨_, _, rfl, rfl, by decide⟩
  | obj fields => cases fields <;> exact ⟨_, _, rfl, rfl, by decide⟩

private theorem form_eq_of_render_eq {v w : Json} {s t : List Char}
    (h : v.render ++ s = w.render ++ t) : Form.of v = Form.of w := by
  obtain ⟨c, s', hv, hc, -⟩ := head_render v
  obtain ⟨d, t', hw, hd, -⟩ := head_render w
  rw [hv, hw] at h
  obtain ⟨rfl, -⟩ := List.cons.inj h
  exact hc.symm.trans hd

private theorem render_ne_close {v : Json} {s t : List Char} : v.render ++ s ≠ ']' :: t := by
  obtain ⟨c, s', hv, -, hc⟩ := head_render v
  rw [hv]
  intro h
  exact hc (List.cons.inj h).1

private theorem endsNumeral_renderItems (vs : List Json) (s : List Char) :
    EndsNumeral (renderItems vs ++ s) := by
  cases vs <;> exact endsNumeral_cons (by decide)

private theorem endsNumeral_renderFields (fs : List (String × Json)) (s : List Char) :
    EndsNumeral (renderFields fs ++ s) := by
  cases fs <;> exact endsNumeral_cons (by decide)

/-- A value's text can be told from what follows it, unless both are digits. -/
private def Prefixed (v : Json) : Prop :=
  ∀ w s t, EndsNumeral s → EndsNumeral t → v.render ++ s = w.render ++ t → v = w ∧ s = t

private theorem renderItems_inj {vs : List Json} (hvs : ∀ v ∈ vs, Prefixed v) :
    ∀ ws s t, renderItems vs ++ s = renderItems ws ++ t → vs = ws ∧ s = t := by
  induction vs with
  | nil =>
    intro ws s t h
    cases ws with
    | nil => exact ⟨rfl, (List.cons.inj h).2⟩
    | cons w ws => exact absurd (List.cons.inj h).1 (by decide)
  | cons v vs ih =>
    intro ws s t h
    cases ws with
    | nil => exact absurd (List.cons.inj h).1 (by decide)
    | cons w ws =>
      simp only [renderItems, List.cons_append, List.append_assoc] at h
      obtain ⟨rfl, htail⟩ := hvs v List.mem_cons_self w _ _ (endsNumeral_renderItems _ _)
        (endsNumeral_renderItems _ _) (List.cons.inj h).2
      obtain ⟨rfl, rfl⟩ := ih (fun u hu => hvs u (List.mem_cons_of_mem _ hu)) ws s t htail
      exact ⟨rfl, rfl⟩

private theorem field_inj {k k' : String} {v v' : Json} {s t : List Char} (hv : Prefixed v)
    (hs : EndsNumeral s) (ht : EndsNumeral t)
    (h : quoted k ++ ':' :: (v.render ++ s) = quoted k' ++ ':' :: (v'.render ++ t)) :
    (k, v) = (k', v') ∧ s = t := by
  obtain ⟨rfl, htail⟩ := quoted_append_inj h
  obtain ⟨rfl, rfl⟩ := hv v' s t hs ht (List.cons.inj htail).2
  exact ⟨rfl, rfl⟩

private theorem renderFields_inj {fs : List (String × Json)} (hfs : ∀ f ∈ fs, Prefixed f.2) :
    ∀ gs s t, renderFields fs ++ s = renderFields gs ++ t → fs = gs ∧ s = t := by
  induction fs with
  | nil =>
    intro gs s t h
    cases gs with
    | nil => exact ⟨rfl, (List.cons.inj h).2⟩
    | cons g gs => exact absurd (List.cons.inj h).1 (by decide)
  | cons f fs ih =>
    intro gs s t h
    cases gs with
    | nil => exact absurd (List.cons.inj h).1 (by decide)
    | cons g gs =>
      simp only [renderFields, List.cons_append, List.append_assoc] at h
      obtain ⟨hfg, htail⟩ := field_inj (hfs f List.mem_cons_self) (endsNumeral_renderFields _ _)
        (endsNumeral_renderFields _ _) (List.cons.inj h).2
      obtain rfl : f = g := hfg
      obtain ⟨rfl, rfl⟩ := ih (fun u hu => hfs u (List.mem_cons_of_mem _ hu)) gs s t htail
      exact ⟨rfl, rfl⟩

private theorem render_append_inj (v : Json) : Prefixed v := by
  induction v using Json.induction with
  | null =>
    intro w s t _ _ h
    have hform := form_eq_of_render_eq h
    rcases w with _ | (_ | _) | _ | _ | _ | _ <;> try contradiction
    exact ⟨rfl, List.append_cancel_left h⟩
  | bool b =>
    intro w s t _ _ h
    have hform := form_eq_of_render_eq h
    cases b <;> rcases w with _ | (_ | _) | _ | _ | _ | _ <;> try contradiction
    all_goals exact ⟨rfl, List.append_cancel_left h⟩
  | int n =>
    intro w s t hs ht h
    have hform := form_eq_of_render_eq h
    rcases w with _ | (_ | _) | _ | _ | _ | _ <;> try contradiction
    obtain ⟨rfl, rfl⟩ := intText_append_inj hs ht h
    exact ⟨rfl, rfl⟩
  | str a =>
    intro w s t _ _ h
    have hform := form_eq_of_render_eq h
    rcases w with _ | (_ | _) | _ | _ | _ | _ <;> try contradiction
    obtain ⟨rfl, rfl⟩ := quoted_append_inj h
    exact ⟨rfl, rfl⟩
  | arr items ih =>
    intro w s t _ _ h
    have hform := form_eq_of_render_eq h
    rcases w with _ | (_ | _) | _ | _ | ws | _ <;> try contradiction
    cases items with
    | nil =>
      cases ws with
      | nil => exact ⟨rfl, List.append_cancel_left h⟩
      | cons w ws =>
        simp only [Json.render, List.cons_append, List.append_assoc] at h
        exact absurd (List.cons.inj h).2.symm render_ne_close
    | cons v vs =>
      cases ws with
      | nil =>
        simp only [Json.render, List.cons_append, List.append_assoc] at h
        exact absurd (List.cons.inj h).2 render_ne_close
      | cons w ws =>
        simp only [Json.render, List.cons_append, List.append_assoc] at h
        obtain ⟨rfl, htail⟩ := ih v List.mem_cons_self w _ _ (endsNumeral_renderItems _ _)
          (endsNumeral_renderItems _ _) (List.cons.inj h).2
        obtain ⟨rfl, rfl⟩ :=
          renderItems_inj (fun u hu => ih u (List.mem_cons_of_mem _ hu)) ws s t htail
        exact ⟨rfl, rfl⟩
  | obj fields ih =>
    intro w s t _ _ h
    have hform := form_eq_of_render_eq h
    rcases w with _ | (_ | _) | _ | _ | _ | gs <;> try contradiction
    cases fields with
    | nil =>
      cases gs with
      | nil => exact ⟨rfl, List.append_cancel_left h⟩
      | cons g gs => exact absurd (List.cons.inj (List.cons.inj h).2).1 (by decide)
    | cons f fs =>
      cases gs with
      | nil => exact absurd (List.cons.inj (List.cons.inj h).2).1 (by decide)
      | cons g gs =>
        simp only [Json.render, List.cons_append, List.append_assoc] at h
        obtain ⟨hfg, htail⟩ := field_inj (ih f List.mem_cons_self) (endsNumeral_renderFields _ _)
          (endsNumeral_renderFields _ _) (List.cons.inj h).2
        obtain rfl : f = g := hfg
        obtain ⟨rfl, rfl⟩ :=
          renderFields_inj (fun u hu => ih u (List.mem_cons_of_mem _ hu)) gs s t htail
        exact ⟨rfl, rfl⟩

/-- The compact text determines the value, its fields in their order. -/
theorem render_inj {v w : Json} (h : v.render = w.render) : v = w :=
  (render_append_inj v w [] [] endsNumeral_nil endsNumeral_nil (by rw [h])).1

mutual

/-- No object repeats a key. -/
def Json.WellFormed : Json → Prop
  | .arr items => ItemsWellFormed items
  | .obj fields => (fields.map Prod.fst).Nodup ∧ FieldsWellFormed fields
  | _ => True

def ItemsWellFormed : List Json → Prop
  | [] => True
  | v :: vs => v.WellFormed ∧ ItemsWellFormed vs

def FieldsWellFormed : List (String × Json) → Prop
  | [] => True
  | (_, v) :: fs => v.WellFormed ∧ FieldsWellFormed fs

end

mutual

/-- Two values are equal as values: objects agree when they have the same number of
fields and every field of the first is a field of the second, in any order. -/
def Json.Same : Json → Json → Prop
  | .null, .null => True
  | .bool a, .bool b => a = b
  | .int a, .int b => a = b
  | .str a, .str b => a = b
  | .arr xs, .arr ys => SameItems xs ys
  | .obj fs, .obj gs => fs.length = gs.length ∧ SameFields fs gs
  | _, _ => False

def SameItems : List Json → List Json → Prop
  | [], [] => True
  | x :: xs, y :: ys => x.Same y ∧ SameItems xs ys
  | _, _ => False

def SameFields : List (String × Json) → List (String × Json) → Prop
  | [], _ => True
  | (k, v) :: fs, gs => (∃ w, (k, w) ∈ gs ∧ v.Same w) ∧ SameFields fs gs

end

mutual

/-- Every object with its fields in ascending order of their keys. -/
def Json.sortKeys : Json → Json
  | .arr items => .arr (sortItems items)
  | .obj fields => .obj ((sortFields fields).insertionSort fun a b => a.1 ≤ b.1)
  | v => v

def sortItems : List Json → List Json
  | [] => []
  | v :: vs => v.sortKeys :: sortItems vs

def sortFields : List (String × Json) → List (String × Json)
  | [] => []
  | (k, v) :: fs => (k, v.sortKeys) :: sortFields fs

end

section Atoms

variable (a b : ℤ) (s t : String) (x y : Bool)

@[simp] theorem wellFormed_int : (Json.int a).WellFormed := trivial

@[simp] theorem wellFormed_str : (Json.str s).WellFormed := trivial

@[simp] theorem wellFormed_bool : (Json.bool x).WellFormed := trivial

@[simp] theorem same_int : (Json.int a).Same (.int b) ↔ a = b := Iff.rfl

@[simp] theorem same_str : (Json.str s).Same (.str t) ↔ s = t := Iff.rfl

@[simp] theorem same_bool : (Json.bool x).Same (.bool y) ↔ x = y := Iff.rfl

end Atoms

theorem itemsWellFormed_iff {vs : List Json} : ItemsWellFormed vs ↔ ∀ v ∈ vs, v.WellFormed := by
  induction vs with
  | nil => simp [ItemsWellFormed]
  | cons v vs ih => simp [ItemsWellFormed, ih]

theorem fieldsWellFormed_iff {fs : List (String × Json)} :
    FieldsWellFormed fs ↔ ∀ f ∈ fs, f.2.WellFormed := by
  induction fs with
  | nil => simp [FieldsWellFormed]
  | cons f fs ih => simp [FieldsWellFormed, ih]

theorem sameFields_iff {fs gs : List (String × Json)} :
    SameFields fs gs ↔ ∀ f ∈ fs, ∃ w, (f.1, w) ∈ gs ∧ f.2.Same w := by
  induction fs with
  | nil => simp [SameFields]
  | cons f fs ih => simp [SameFields, ih]

theorem sortFields_eq_map (fs : List (String × Json)) :
    sortFields fs = fs.map fun f => (f.1, f.2.sortKeys) := by
  induction fs with
  | nil => rfl
  | cons f fs ih => simp [sortFields, ih]

private theorem keys_sortFields (fs : List (String × Json)) :
    (sortFields fs).map Prod.fst = fs.map Prod.fst := by
  rw [sortFields_eq_map, List.map_map]
  rfl

/-- Lists of fields with distinct keys have one ascending arrangement. -/
private theorem sort_eq_iff_perm {fs gs : List (String × Json)} (hfs : (fs.map Prod.fst).Nodup) :
    fs.insertionSort (fun a b => a.1 ≤ b.1) = gs.insertionSort (fun a b => a.1 ≤ b.1) ↔
      fs.Perm gs := by
  have : Std.Total fun a b : String × Json => a.1 ≤ b.1 := ⟨fun a b => le_total a.1 b.1⟩
  have : IsTrans (String × Json) fun a b => a.1 ≤ b.1 := ⟨fun a b c => le_trans⟩
  constructor
  · intro h
    have hf := List.perm_insertionSort (fun a b : String × Json => a.1 ≤ b.1) fs
    rw [h] at hf
    exact hf.symm.trans (List.perm_insertionSort _ gs)
  · intro h
    refine List.Perm.eq_of_pairwise ?_ (List.pairwise_insertionSort _ fs)
      (List.pairwise_insertionSort _ gs)
      ((List.perm_insertionSort _ fs).trans (h.trans (List.perm_insertionSort _ gs).symm))
    intro a b ha hb hab hba
    have ha := (List.perm_insertionSort _ fs).mem_iff.mp ha
    have hb := h.mem_iff.mpr ((List.perm_insertionSort _ gs).mem_iff.mp hb)
    exact List.inj_on_of_nodup_map hfs ha hb (le_antisymm hab hba)

private theorem sortItems_eq_iff {xs : List Json}
    (ih : ∀ v ∈ xs, ∀ w, v.WellFormed → w.WellFormed → (v.sortKeys = w.sortKeys ↔ v.Same w))
    (hxs : ItemsWellFormed xs) :
    ∀ ys, ItemsWellFormed ys → (sortItems xs = sortItems ys ↔ SameItems xs ys) := by
  induction xs with
  | nil =>
    intro ys _
    cases ys <;> simp [sortItems, SameItems]
  | cons x xs ihx =>
    intro ys hys
    cases ys with
    | nil => simp [sortItems, SameItems]
    | cons y ys =>
      rw [sortItems, sortItems, List.cons.injEq, SameItems,
        ih x List.mem_cons_self y hxs.1 hys.1,
        ihx (fun v hv => ih v (List.mem_cons_of_mem _ hv)) hxs.2 ys hys.2]

private theorem sortFields_perm_iff {fs gs : List (String × Json)}
    (ih : ∀ f ∈ fs, ∀ w, f.2.WellFormed → w.WellFormed → (f.2.sortKeys = w.sortKeys ↔ f.2.Same w))
    (hfs : (Json.obj fs).WellFormed) (hgs : (Json.obj gs).WellFormed) :
    (sortFields fs).Perm (sortFields gs) ↔ fs.length = gs.length ∧ SameFields fs gs := by
  have hvalues := fieldsWellFormed_iff.mp hfs.2
  have hvalues' := fieldsWellFormed_iff.mp hgs.2
  rw [sameFields_iff]
  constructor
  · intro h
    refine ⟨by simpa [sortFields_eq_map] using h.length_eq, ?_⟩
    intro f hf
    have hmem : (f.1, f.2.sortKeys) ∈ sortFields gs := by
      rw [← h.mem_iff, sortFields_eq_map]
      exact List.mem_map.mpr ⟨f, hf, rfl⟩
    rw [sortFields_eq_map] at hmem
    obtain ⟨⟨k, w⟩, hg, heq⟩ := List.mem_map.mp hmem
    obtain ⟨rfl, hw⟩ := Prod.mk.inj heq
    exact ⟨w, hg, (ih f hf w (hvalues f hf) (hvalues' _ hg)).mp hw.symm⟩
  · rintro ⟨hlen, h⟩
    have hnodup : (sortFields fs).Nodup :=
      List.Nodup.of_map Prod.fst (by rw [keys_sortFields]; exact hfs.1)
    refine (List.subperm_of_subset hnodup ?_).perm_of_length_le (by simp [sortFields_eq_map, hlen])
    intro g hg
    rw [sortFields_eq_map] at hg
    obtain ⟨f, hf, rfl⟩ := List.mem_map.mp hg
    obtain ⟨w, hw, hsame⟩ := h f hf
    rw [sortFields_eq_map]
    exact List.mem_map.mpr ⟨(f.1, w), hw, by
      rw [(ih f hf w (hvalues f hf) (hvalues' _ hw)).mpr hsame]⟩

/-- Sorting the keys identifies exactly the equal values. -/
theorem sortKeys_eq_iff (v : Json) :
    ∀ w, v.WellFormed → w.WellFormed → (v.sortKeys = w.sortKeys ↔ v.Same w) := by
  induction v using Json.induction with
  | null => intro w _ _; cases w <;> simp [Json.sortKeys, Json.Same]
  | bool b => intro w _ _; cases w <;> simp [Json.sortKeys, Json.Same]
  | int n => intro w _ _; cases w <;> simp [Json.sortKeys, Json.Same]
  | str s => intro w _ _; cases w <;> simp [Json.sortKeys, Json.Same]
  | arr items ih =>
    intro w hv hw
    cases w with
    | arr ys =>
      simp only [Json.sortKeys, Json.arr.injEq, Json.Same]
      exact sortItems_eq_iff ih hv ys hw
    | _ => simp [Json.sortKeys, Json.Same]
  | obj fields ih =>
    intro w hv hw
    cases w with
    | obj gs =>
      simp only [Json.sortKeys, Json.obj.injEq, Json.Same]
      rw [sort_eq_iff_perm (by rw [keys_sortFields]; exact hv.1)]
      exact sortFields_perm_iff ih hv hw
    | _ => simp [Json.sortKeys, Json.Same]

/-- The compact text with sorted keys. -/
def Json.canonicalText (v : Json) : String := String.ofList v.sortKeys.render

/-- Canonical text is equal exactly for equal values, in whatever order their fields
were inserted. -/
theorem canonicalText_eq_iff {v w : Json} (hv : v.WellFormed) (hw : w.WellFormed) :
    v.canonicalText = w.canonicalText ↔ v.Same w := by
  rw [Json.canonicalText, Json.canonicalText, String.ofList_inj, ← sortKeys_eq_iff v w hv hw]
  exact ⟨render_inj, congrArg Json.render⟩

/-- The text does not depend on the order in which the fields of an object were inserted. -/
theorem canonicalText_eq_of_perm {fs gs : List (String × Json)} (hfs : (Json.obj fs).WellFormed)
    (h : fs.Perm gs) : (Json.obj fs).canonicalText = (Json.obj gs).canonicalText := by
  have hnodup : ((sortFields fs).map Prod.fst).Nodup := by
    rw [keys_sortFields]
    exact hfs.1
  have hperm : (sortFields fs).Perm (sortFields gs) := by
    rw [sortFields_eq_map, sortFields_eq_map]
    exact h.map _
  rw [Json.canonicalText, Json.canonicalText, Json.sortKeys, Json.sortKeys,
    (sort_eq_iff_perm hnodup).mpr hperm]

/-- An encoding whose values are well formed and equal only for equal arguments. -/
structure Faithful {α : Type} (encode : α → Json) : Prop where
  wellFormed : ∀ a, (encode a).WellFormed
  determines : ∀ {a b}, (encode a).Same (encode b) → a = b

theorem forall₂_of_same {fs gs : List (String × Json)} (hkeys : fs.map Prod.fst = gs.map Prod.fst)
    (hnodup : (gs.map Prod.fst).Nodup) (h : (Json.obj fs).Same (Json.obj gs)) :
    List.Forall₂ (fun f g => f.2.Same g.2) fs gs := by
  have hfields := sameFields_iff.mp h.2
  refine List.forall₂_iff_get.mpr ⟨h.1, ?_⟩
  intro i hf hg
  obtain ⟨w, hmem, hsame⟩ := hfields _ (List.get_mem fs ⟨i, hf⟩)
  have hkey : (fs.get ⟨i, hf⟩).1 = (gs.get ⟨i, hg⟩).1 := by
    have := List.getElem_of_eq hkeys (i := i) (by simpa using hf)
    simpa using this
  have heq := List.inj_on_of_nodup_map hnodup hmem (List.get_mem gs ⟨i, hg⟩) hkey
  rw [← heq]
  exact hsame

namespace Faithful

variable {α β : Type}

theorem canonicalText_eq_iff {encode : α → Json} (h : Faithful encode) {a b : α} :
    (encode a).canonicalText = (encode b).canonicalText ↔ a = b := by
  constructor
  · intro htext
    exact h.determines ((CanonicalJson.canonicalText_eq_iff (h.wellFormed a) (h.wellFormed b)).mp htext)
  · rintro rfl
    rfl

theorem str {encode : α → String} (h : ∀ {a b}, encode a = encode b → a = b) :
    Faithful fun a => Json.str (encode a) :=
  ⟨fun _ => trivial, fun hsame => h hsame⟩

theorem int {encode : α → ℤ} (h : ∀ {a b}, encode a = encode b → a = b) :
    Faithful fun a => Json.int (encode a) :=
  ⟨fun _ => trivial, fun hsame => h hsame⟩

theorem bool : Faithful Json.bool := ⟨fun _ => trivial, fun hsame => hsame⟩

theorem arr {encode : α → Json} (h : Faithful encode) :
    Faithful fun xs : List α => Json.arr (xs.map encode) := by
  constructor
  · intro xs
    apply itemsWellFormed_iff.mpr
    intro v hv
    obtain ⟨x, -, rfl⟩ := List.mem_map.mp hv
    exact h.wellFormed x
  · intro xs ys hsame
    change SameItems (xs.map encode) (ys.map encode) at hsame
    induction xs generalizing ys with
    | nil =>
      cases ys with
      | nil => rfl
      | cons y ys => exact hsame.elim
    | cons x xs ih =>
      cases ys with
      | nil => exact hsame.elim
      | cons y ys => rw [h.determines hsame.1, ih hsame.2]

/-- An absent value is null; a present one must not be. -/
theorem option {encode : α → Json} (h : Faithful encode) (present : ∀ a, encode a ≠ .null) :
    Faithful fun x : Option α => (x.map encode).getD .null := by
  have not_null : ∀ a, ¬ Json.Same .null (encode a) ∧ ¬ (encode a).Same .null := by
    intro a
    cases ha : encode a with
    | null => exact absurd ha (present a)
    | _ => simp [Json.Same]
  constructor
  · intro x
    cases x with
    | none => trivial
    | some a => exact h.wellFormed a
  · intro x y hsame
    cases x with
    | none =>
      cases y with
      | none => rfl
      | some b => exact absurd hsame (not_null b).1
    | some a =>
      cases y with
      | none => exact absurd hsame (not_null a).2
      | some b => rw [h.determines hsame]

/-- A record is faithful when its keys are fixed and distinct, its fields are well formed and
they determine it. -/
theorem obj {fields : α → List (String × Json)} (keys : List String) (hnodup : keys.Nodup)
    (hkeys : ∀ a, (fields a).map Prod.fst = keys) (hfields : ∀ a, ∀ f ∈ fields a, f.2.WellFormed)
    (h : ∀ {a b}, List.Forall₂ (fun f g => f.2.Same g.2) (fields a) (fields b) → a = b) :
    Faithful fun a => Json.obj (fields a) := by
  constructor
  · intro a
    exact ⟨by rw [hkeys a]; exact hnodup, fieldsWellFormed_iff.mpr (hfields a)⟩
  · intro a b hsame
    exact h (forall₂_of_same ((hkeys a).trans (hkeys b).symm) (by rw [hkeys b]; exact hnodup) hsame)

end Faithful

example : (Json.obj [("b", .arr [.int (-1), .null]), ("a", .str "x\n")]).canonicalText =
    "\x7b\"a\":\"x\\n\",\"b\":[-1,null]\x7d" := by decide

end CanonicalJson
