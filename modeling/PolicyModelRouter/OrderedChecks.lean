import Mathlib.Data.List.Basic
import Mathlib.Tactic.Tauto

/-!
# Computations that make checks in a fixed order

A list of conditions, each with the code its violation is reported under. A
computation decides such a list when it returns exactly if all of them hold and
raises exactly the code of the first that does not. Deciding is compositional.
-/

namespace OrderedChecks

variable {ε κ α β : Type}

def AllHold (checks : List (Prop × κ)) : Prop := ∀ check ∈ checks, check.1

/-- The first condition of the list that does not hold is reported under this code. -/
def FirstFailed : List (Prop × κ) → κ → Prop
  | [], _ => False
  | (condition, code) :: rest, k => (¬ condition ∧ k = code) ∨ (condition ∧ FirstFailed rest k)

@[simp] theorem allHold_nil : AllHold ([] : List (Prop × κ)) := by simp [AllHold]

@[simp] theorem allHold_cons {condition : Prop} {code : κ} {rest : List (Prop × κ)} :
    AllHold ((condition, code) :: rest) ↔ condition ∧ AllHold rest := by
  simp [AllHold]

theorem allHold_append {checks rest : List (Prop × κ)} :
    AllHold (checks ++ rest) ↔ AllHold checks ∧ AllHold rest := by
  simp only [AllHold, List.mem_append]
  exact ⟨fun h => ⟨fun c hc => h c (.inl hc), fun c hc => h c (.inr hc)⟩,
    fun h c hc => hc.elim (h.1 c) (h.2 c)⟩

theorem firstFailed_append {checks rest : List (Prop × κ)} {code : κ} :
    FirstFailed (checks ++ rest) code ↔
      FirstFailed checks code ∨ (AllHold checks ∧ FirstFailed rest code) := by
  induction checks with
  | nil => simp [FirstFailed]
  | cons check checks ih =>
    obtain ⟨condition, c⟩ := check
    simp only [List.cons_append, FirstFailed, ih, allHold_cons]
    tauto

/-- When not all conditions hold, there is a first one that does not. -/
theorem exists_firstFailed {checks : List (Prop × κ)} (h : ¬ AllHold checks) :
    ∃ code, FirstFailed checks code := by
  induction checks with
  | nil => exact absurd allHold_nil h
  | cons check checks ih =>
    obtain ⟨condition, c⟩ := check
    by_cases hc : condition
    · obtain ⟨code, hcode⟩ := ih fun hrest => h (allHold_cons.mpr ⟨hc, hrest⟩)
      exact ⟨code, .inr ⟨hc, hcode⟩⟩
    · exact ⟨c, .inl ⟨hc, rfl⟩⟩

/-- The computation returns exactly when all conditions hold, and otherwise raises an
exception with the code of the first one that does not. -/
structure Decides (codeOf : ε → Option κ) (x : Except ε α) (checks : List (Prop × κ)) : Prop where
  returns : (∃ a, x = .ok a) ↔ AllHold checks
  raises : ∀ code, (∃ e, x = .error e ∧ codeOf e = some code) ↔ FirstFailed checks code

variable {codeOf : ε → Option κ}

def raiseIf (condition : Prop) [Decidable condition] (e : ε) : Except ε Unit :=
  if condition then .error e else .ok ()

theorem raiseIf_eq_ok {condition : Prop} [Decidable condition] {e : ε} :
    raiseIf condition e = .ok () ↔ ¬ condition := by
  unfold raiseIf
  split <;> simp_all

theorem bind_eq_ok {x : Except ε α} {f : α → Except ε β} {b : β} :
    x.bind f = .ok b ↔ ∃ a, x = .ok a ∧ f a = .ok b := by
  cases x <;> simp [Except.bind]

theorem toOption_eq_some {x : Except ε α} {a : α} : x.toOption = some a ↔ x = .ok a := by
  cases x <;> simp [Except.toOption]

theorem mapError_eq_ok {ε' : Type} {x : Except ε α} {f : ε → ε'} {a : α} :
    x.mapError f = .ok a ↔ x = .ok a := by
  cases x <;> simp [Except.mapError]

theorem mapError_eq_error {ε' : Type} {x : Except ε α} {f : ε → ε'} {e' : ε'} :
    x.mapError f = .error e' ↔ ∃ e, x = .error e ∧ f e = e' := by
  cases x <;> simp [Except.mapError]

/-- Every error of a computation is of a given kind. -/
def OnlyErrors (kind : ε → Prop) (x : Except ε α) : Prop := ∀ e, x = .error e → kind e

section Kinds

variable {kind : ε → Prop}

theorem OnlyErrors.ok (a : α) : OnlyErrors kind (.ok a : Except ε α) := by
  intro e h
  cases h

theorem OnlyErrors.error {e : ε} (h : kind e) : OnlyErrors kind (.error e : Except ε α) := by
  rintro e' ⟨⟩
  exact h

theorem OnlyErrors.bind {x : Except ε α} {f : α → Except ε β} (hx : OnlyErrors kind x)
    (hf : ∀ a, OnlyErrors kind (f a)) : OnlyErrors kind (x >>= f) := by
  intro e h
  cases x with
  | error e' =>
    cases h
    exact hx e rfl
  | ok a => exact hf a e h

/-- A head whose continuations raise only such errors decides the whole composition. -/
theorem onlyErrors_bind_iff {x : Except ε α} {f : α → Except ε β}
    (hf : ∀ a, OnlyErrors kind (f a)) : OnlyErrors kind (x >>= f) ↔ OnlyErrors kind x := by
  constructor
  · rintro h e rfl
    exact h e rfl
  · exact fun hx => hx.bind hf

theorem onlyErrors_mapError {ε' : Type} {x : Except ε' α} {f : ε' → ε} :
    OnlyErrors kind (x.mapError f) ↔ OnlyErrors (fun e => kind (f e)) x := by
  simp only [OnlyErrors, mapError_eq_error]
  constructor
  · exact fun h e he => h (f e) ⟨e, he, rfl⟩
  · rintro h _ ⟨e, he, rfl⟩
    exact h e he

theorem OnlyErrors.raiseIf {condition : Prop} [Decidable condition] {e : ε} (h : kind e) :
    OnlyErrors kind (raiseIf condition e) := by
  intro e' he
  unfold OrderedChecks.raiseIf at he
  split_ifs at he
  cases he
  exact h

end Kinds

theorem Decides.pure (a : α) : Decides codeOf (.ok a) [] := by
  constructor
  · simp
  · intro code
    simp [FirstFailed]

theorem Decides.raiseIf {condition expected : Prop} [Decidable condition] {e : ε} {code : κ}
    (hcode : codeOf e = some code) (h : condition ↔ ¬ expected) :
    Decides codeOf (raiseIf condition e) [(expected, code)] := by
  constructor
  · simp only [OrderedChecks.raiseIf, allHold_cons, allHold_nil, and_true]
    split <;> simp_all
  · intro k
    simp only [OrderedChecks.raiseIf, FirstFailed, and_false, or_false]
    split <;> simp_all [eq_comm]

theorem Decides.violated {condition : Prop} {code : κ} {rest : List (Prop × κ)} {e : ε}
    (hcode : codeOf e = some code) (h : ¬ condition) :
    Decides codeOf (.error e : Except ε α) ((condition, code) :: rest) := by
  constructor
  · simp [h]
  · intro k
    simp [FirstFailed, h, hcode, eq_comm]

theorem Decides.satisfied {x : Except ε α} {condition : Prop} {code : κ} {rest : List (Prop × κ)}
    (h : condition) (hx : Decides codeOf x rest) : Decides codeOf x ((condition, code) :: rest) := by
  constructor
  · simpa [h] using hx.returns
  · intro k
    simpa [FirstFailed, h] using hx.raises k

/-- A computation that is followed by another decides both lists, one after the other. -/
theorem Decides.bind {x : Except ε α} {f : α → Except ε β} {checks rest : List (Prop × κ)}
    (hx : Decides codeOf x checks) (hf : ∀ a, x = .ok a → Decides codeOf (f a) rest) :
    Decides codeOf (x.bind f) (checks ++ rest) := by
  cases x with
  | error e =>
    have hfails : ¬ AllHold checks := by
      rw [← hx.returns]
      simp
    constructor
    · simp [Except.bind, allHold_append, hfails]
    · intro code
      rw [firstFailed_append, ← hx.raises code]
      simp [Except.bind, hfails]
  | ok a =>
    have hholds : AllHold checks := hx.returns.mp ⟨a, rfl⟩
    have hnone : ∀ code, ¬ FirstFailed checks code := by
      intro code h
      obtain ⟨e, he, -⟩ := (hx.raises code).mpr h
      cases he
    have hrest := hf a rfl
    constructor
    · rw [allHold_append, ← hrest.returns]
      simp [Except.bind, hholds]
    · intro code
      rw [firstFailed_append, ← hrest.raises code]
      simp [Except.bind, hholds, hnone code]

theorem Decides.raiseIf_bind {condition expected : Prop} [Decidable condition] {e : ε} {code : κ}
    {f : Unit → Except ε β} {rest : List (Prop × κ)} (hcode : codeOf e = some code)
    (h : condition ↔ ¬ expected) (hf : expected → Decides codeOf (f ()) rest) :
    Decides codeOf ((OrderedChecks.raiseIf condition e).bind f) ((expected, code) :: rest) := by
  apply (Decides.raiseIf hcode h).bind
  rintro ⟨⟩ hok
  refine hf (not_not.mp fun hne => ?_)
  exact raiseIf_eq_ok.mp hok (h.mpr hne)

theorem Decides.bind_ok {x : Except ε α} {f : α → Except ε β} {a : α} {rest : List (Prop × κ)}
    (hx : x = .ok a) (hf : Decides codeOf (f a) rest) : Decides codeOf (x.bind f) rest := by
  subst hx
  exact hf

/-- The conditions may be rephrased one by one. -/
theorem Decides.congr {x : Except ε α} {checks checks' : List (Prop × κ)}
    (hx : Decides codeOf x checks)
    (h : List.Forall₂ (fun a b => (a.1 ↔ b.1) ∧ a.2 = b.2) checks checks') :
    Decides codeOf x checks' := by
  have hall : AllHold checks ↔ AllHold checks' := by
    clear hx
    induction h with
    | nil => exact Iff.rfl
    | @cons a b as bs hab _ ih =>
      obtain ⟨p, c⟩ := a
      obtain ⟨q, d⟩ := b
      have hpq : p ↔ q := hab.1
      rw [allHold_cons, allHold_cons, ih, hpq]
  have hfirst : ∀ code, FirstFailed checks code ↔ FirstFailed checks' code := by
    clear hx hall
    intro code
    induction h with
    | nil => exact Iff.rfl
    | @cons a b as bs hab _ ih =>
      obtain ⟨p, c⟩ := a
      obtain ⟨q, d⟩ := b
      obtain ⟨hpq, hcd⟩ := hab
      simp only at hpq hcd
      rw [FirstFailed, FirstFailed, ih, hpq, hcd]
  exact ⟨hx.returns.trans hall, fun code => (hx.raises code).trans (hfirst code)⟩

/-- Without a failed condition to report, the computation raises nothing that has a code. -/
theorem Decides.ok_or_error {x : Except ε α} {checks : List (Prop × κ)}
    (hx : Decides codeOf x checks) :
    (∃ a, x = .ok a) ∨ ∃ e code, x = .error e ∧ codeOf e = some code ∧ FirstFailed checks code := by
  by_cases h : AllHold checks
  · exact .inl (hx.returns.mpr h)
  · obtain ⟨code, hcode⟩ := exists_firstFailed h
    obtain ⟨e, he, hcodeOf⟩ := (hx.raises code).mpr hcode
    exact .inr ⟨e, code, he, hcodeOf, hcode⟩

end OrderedChecks
