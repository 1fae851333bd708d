import Mathlib.Data.List.Basic
import Mathlib.Tactic.Tauto

/-!
# Programs that suspend at calls

An asynchronous function is a tree: it is finished, or it is suspended at a call
and resumes with the reply. Exceptions are layered on top with `ExceptT`. The
relations below describe one program alone, along the list of calls it made and
the replies it got: `Completes` reads the result of a finished run, `Issues` the
call a run has reached. Both are compositional, so a property of every run of a
sequential composition is read off the runs of its parts.
-/

namespace AwaitingPrograms

variable {Call : Type} {Reply : Call → Type} {ε ε' α β : Type}

/-- A program suspended at calls, with one continuation for each reply. -/
inductive Async (Call : Type) (Reply : Call → Type) (α : Type) : Type where
  | done (value : α)
  | await (call : Call) (resume : Reply call → Async Call Reply α)

abbrev Event (Reply : Call → Type) := Σ call, Reply call

def Async.bind : Async Call Reply α → (α → Async Call Reply β) → Async Call Reply β
  | .done a, f => f a
  | .await c k, f => .await c (fun r => (k r).bind f)

instance : Monad (Async Call Reply) where
  pure := .done
  bind := .bind

@[simp] theorem bind_done (a : α) (f : α → Async Call Reply β) :
    (Async.done a >>= f) = f a := rfl

@[simp] theorem bind_await (c : Call) (k : Reply c → Async Call Reply α)
    (f : α → Async Call Reply β) :
    (Async.await c k >>= f) = .await c (fun r => k r >>= f) := rfl

theorem async_bind_assoc {γ : Type} (p : Async Call Reply α) (f : α → Async Call Reply β)
    (g : β → Async Call Reply γ) : (p >>= f) >>= g = p >>= fun a => f a >>= g := by
  induction p with
  | done a => rfl
  | await c k ih =>
    simp only [bind_await]
    exact congrArg _ (funext ih)

theorem async_bind_done (p : Async Call Reply α) : (p >>= fun a => Async.done a) = p := by
  induction p with
  | done a => rfl
  | await c k ih =>
    simp only [bind_await]
    exact congrArg _ (funext ih)

/-- The run of a program that got every reply it waited for. -/
inductive Completes : Async Call Reply α → List (Event Reply) → α → Prop where
  | done (a : α) : Completes (.done a) [] a
  | await {c : Call} {k : Reply c → Async Call Reply α} {r : Reply c}
      {es : List (Event Reply)} {a : α} (tail : Completes (k r) es a) :
      Completes (.await c k) (⟨c, r⟩ :: es) a

/-- The program has reached a call that is not answered yet. -/
inductive Issues : Async Call Reply α → List (Event Reply) → Call → Prop where
  | now (c : Call) (k : Reply c → Async Call Reply α) : Issues (.await c k) [] c
  | later {c d : Call} {k : Reply c → Async Call Reply α} {r : Reply c}
      {es : List (Event Reply)} (tail : Issues (k r) es d) :
      Issues (.await c k) (⟨c, r⟩ :: es) d

/-- The part of a program that is left after the given calls were answered. -/
inductive Advances : Async Call Reply α → List (Event Reply) → Async Call Reply α → Prop where
  | refl (p : Async Call Reply α) : Advances p [] p
  | await {c : Call} {k : Reply c → Async Call Reply α} {r : Reply c}
      {es : List (Event Reply)} {q : Async Call Reply α} (tail : Advances (k r) es q) :
      Advances (.await c k) (⟨c, r⟩ :: es) q

@[simp] theorem completes_done_iff (a b : α) (es : List (Event Reply)) :
    Completes (.done a : Async Call Reply α) es b ↔ es = [] ∧ b = a := by
  constructor
  · intro h
    cases h
    exact ⟨rfl, rfl⟩
  · rintro ⟨rfl, rfl⟩
    exact .done _

theorem completes_await_iff {c : Call} {k : Reply c → Async Call Reply α}
    {es : List (Event Reply)} {a : α} :
    Completes (.await c k) es a ↔ ∃ r tail, es = ⟨c, r⟩ :: tail ∧ Completes (k r) tail a := by
  constructor
  · intro h
    cases h with
    | await tail => exact ⟨_, _, rfl, tail⟩
  · rintro ⟨r, tail, rfl, h⟩
    exact .await h

@[simp] theorem not_issues_done (a : α) (es : List (Event Reply)) (d : Call) :
    ¬ Issues (.done a : Async Call Reply α) es d := by
  intro h
  cases h

theorem issues_await_iff {c d : Call} {k : Reply c → Async Call Reply α}
    {es : List (Event Reply)} :
    Issues (.await c k) es d ↔
      (es = [] ∧ d = c) ∨ ∃ r tail, es = ⟨c, r⟩ :: tail ∧ Issues (k r) tail d := by
  constructor
  · intro h
    cases h with
    | now => exact .inl ⟨rfl, rfl⟩
    | later tail => exact .inr ⟨_, _, rfl, tail⟩
  · rintro (⟨rfl, rfl⟩ | ⟨r, tail, rfl, h⟩)
    · exact .now _ _
    · exact .later h

/-- A run of a sequential composition is a run of its head followed by a run of
the continuation. -/
theorem completes_bind_iff {p : Async Call Reply α} {f : α → Async Call Reply β}
    {es : List (Event Reply)} {b : β} :
    Completes (p >>= f) es b ↔
      ∃ es₁ es₂ a, es = es₁ ++ es₂ ∧ Completes p es₁ a ∧ Completes (f a) es₂ b := by
  induction p generalizing es with
  | done a => simp
  | await c k ih =>
    rw [bind_await, completes_await_iff]
    constructor
    · rintro ⟨r, tail, rfl, h⟩
      obtain ⟨es₁, es₂, a, rfl, h₁, h₂⟩ := (ih r).mp h
      exact ⟨⟨c, r⟩ :: es₁, es₂, a, rfl, .await h₁, h₂⟩
    · rintro ⟨es₁, es₂, a, rfl, h₁, h₂⟩
      obtain ⟨r, tail, rfl, h⟩ := completes_await_iff.mp h₁
      exact ⟨r, tail ++ es₂, rfl, (ih r).mpr ⟨tail, es₂, a, rfl, h, h₂⟩⟩

theorem issues_bind_iff {p : Async Call Reply α} {f : α → Async Call Reply β}
    {es : List (Event Reply)} {d : Call} :
    Issues (p >>= f) es d ↔
      Issues p es d ∨
        ∃ es₁ es₂ a, es = es₁ ++ es₂ ∧ Completes p es₁ a ∧ Issues (f a) es₂ d := by
  induction p generalizing es with
  | done a => simp
  | await c k ih =>
    rw [bind_await, issues_await_iff, issues_await_iff]
    constructor
    · rintro (h | ⟨r, tail, rfl, h⟩)
      · exact .inl (.inl h)
      · rcases (ih r).mp h with h | ⟨es₁, es₂, a, rfl, h₁, h₂⟩
        · exact .inl (.inr ⟨r, tail, rfl, h⟩)
        · exact .inr ⟨⟨c, r⟩ :: es₁, es₂, a, rfl, .await h₁, h₂⟩
    · rintro ((h | ⟨r, tail, rfl, h⟩) | ⟨es₁, es₂, a, rfl, h₁, h₂⟩)
      · exact .inl h
      · exact .inr ⟨r, tail, rfl, (ih r).mpr (.inl h)⟩
      · obtain ⟨r, tail, rfl, h⟩ := completes_await_iff.mp h₁
        exact .inr ⟨r, tail ++ es₂, rfl, (ih r).mpr (.inr ⟨tail, es₂, a, rfl, h, h₂⟩)⟩

@[simp] theorem advances_nil_iff {p q : Async Call Reply α} : Advances p [] q ↔ q = p := by
  constructor
  · intro h
    cases h
    rfl
  · rintro rfl
    exact .refl _

theorem advances_cons_iff {p q : Async Call Reply α} {c : Call} {r : Reply c}
    {es : List (Event Reply)} :
    Advances p (⟨c, r⟩ :: es) q ↔ ∃ k, p = .await c k ∧ Advances (k r) es q := by
  constructor
  · intro h
    cases h with
    | await tail => exact ⟨_, rfl, tail⟩
  · rintro ⟨k, rfl, h⟩
    exact .await h

/-- Answering the call a program is suspended at advances it by that event. -/
theorem Advances.resume {p : Async Call Reply α} {es : List (Event Reply)} {c : Call}
    {k : Reply c → Async Call Reply α} (h : Advances p es (.await c k)) (r : Reply c) :
    Advances p (es ++ [⟨c, r⟩]) (k r) := by
  generalize hq : Async.await c k = q at h
  induction h with
  | refl p =>
    subst hq
    exact .await (.refl _)
  | await tail ih => exact .await (ih hq)

theorem Advances.completes {p : Async Call Reply α} {es : List (Event Reply)} {a : α}
    (h : Advances p es (.done a)) : Completes p es a := by
  generalize hq : Async.done a = q at h
  induction h with
  | refl p =>
    subst hq
    exact .done a
  | await tail ih => exact .await (ih hq)

theorem Advances.issues {p : Async Call Reply α} {es : List (Event Reply)} {c : Call}
    {k : Reply c → Async Call Reply α} (h : Advances p es (.await c k)) : Issues p es c := by
  generalize hq : Async.await c k = q at h
  induction h with
  | refl p =>
    subst hq
    exact .now c k
  | await tail ih => exact .later (ih hq)

/-- Every answered call was issued after the calls answered before it. -/
theorem Advances.issues_of_eq_append {p q : Async Call Reply α} {es before after : List (Event Reply)}
    {e : Event Reply} (h : Advances p es q) (split : es = before ++ e :: after) :
    Issues p before e.1 := by
  induction h generalizing before with
  | refl p => simp at split
  | await tail ih =>
    cases before with
    | nil =>
      obtain ⟨rfl, rfl⟩ := List.cons.inj split
      exact .now _ _
    | cons b before =>
      obtain ⟨rfl, htail⟩ := List.cons.inj split
      exact .later (ih htail)

theorem Completes.advances {p : Async Call Reply α} {es : List (Event Reply)} {a : α}
    (h : Completes p es a) : Advances p es (.done a) := by
  induction h with
  | done a => exact .refl _
  | await tail ih => exact .await ih

abbrev Fallible (Call : Type) (Reply : Call → Type) (ε α : Type) :=
  ExceptT ε (Async Call Reply) α

def perform (c : Call) : Fallible Call Reply ε (Reply c) :=
  ExceptT.mk (.await c (fun r => .done (.ok r)))

def compute (x : Except ε α) : Fallible Call Reply ε α := ExceptT.mk (.done x)

def mapError (f : ε → ε') (x : Fallible Call Reply ε α) : Fallible Call Reply ε' α :=
  ExceptT.mk (x.run >>= fun r => .done (r.mapError f))

def recover (handler : ε → Fallible Call Reply ε' α) (x : Fallible Call Reply ε α) :
    Fallible Call Reply ε' α :=
  ExceptT.mk (x.run >>= fun
    | .ok a => .done (.ok a)
    | .error e => (handler e).run)

def Returns (x : Fallible Call Reply ε α) (es : List (Event Reply)) (a : α) : Prop :=
  Completes x.run es (.ok a)

def Raises (x : Fallible Call Reply ε α) (es : List (Event Reply)) (e : ε) : Prop :=
  Completes x.run es (.error e)

variable {es : List (Event Reply)}

@[simp] theorem returns_pure (a b : α) :
    Returns (pure a : Fallible Call Reply ε α) es b ↔ es = [] ∧ b = a := by
  change Completes (Async.done (Except.ok a)) es (Except.ok b) ↔ _
  simp

@[simp] theorem not_raises_pure (a : α) (e : ε) :
    ¬ Raises (pure a : Fallible Call Reply ε α) es e := by
  change ¬ Completes (Async.done (Except.ok a)) es (Except.error e)
  simp

@[simp] theorem not_returns_throw (e : ε) (a : α) :
    ¬ Returns (throw e : Fallible Call Reply ε α) es a := by
  change ¬ Completes (Async.done (Except.error e)) es (Except.ok a)
  simp

@[simp] theorem raises_throw (e e' : ε) :
    Raises (throw e : Fallible Call Reply ε α) es e' ↔ es = [] ∧ e' = e := by
  change Completes (Async.done (Except.error e)) es (Except.error e') ↔ _
  simp

@[simp] theorem returns_compute (x : Except ε α) (a : α) :
    Returns (compute x : Fallible Call Reply ε α) es a ↔ es = [] ∧ x = .ok a := by
  change Completes (.done x) es (.ok a) ↔ _
  simp [eq_comm]

@[simp] theorem raises_compute (x : Except ε α) (e : ε) :
    Raises (compute x : Fallible Call Reply ε α) es e ↔ es = [] ∧ x = .error e := by
  change Completes (.done x) es (.error e) ↔ _
  simp [eq_comm]

@[simp] theorem returns_perform (c : Call) (r : Reply c) :
    Returns (perform c : Fallible Call Reply ε (Reply c)) es r ↔ es = [⟨c, r⟩] := by
  change Completes (Async.await c fun r => Async.done (Except.ok r)) es (Except.ok r) ↔ _
  rw [completes_await_iff]
  constructor
  · rintro ⟨r', tail, rfl, h⟩
    obtain ⟨rfl, h⟩ := (completes_done_iff _ _ _).mp h
    cases h
    rfl
  · rintro rfl
    exact ⟨r, [], rfl, .done _⟩

@[simp] theorem not_raises_perform (c : Call) (e : ε) :
    ¬ Raises (perform c : Fallible Call Reply ε (Reply c)) es e := by
  change ¬ Completes (Async.await c fun r => Async.done (Except.ok r)) es (Except.error e)
  rw [completes_await_iff]
  rintro ⟨r', tail, rfl, h⟩
  simp at h

theorem returns_bind {x : Fallible Call Reply ε α} {f : α → Fallible Call Reply ε β} {b : β} :
    Returns (x >>= f) es b ↔
      ∃ es₁ es₂ a, es = es₁ ++ es₂ ∧ Returns x es₁ a ∧ Returns (f a) es₂ b := by
  change Completes (x.run >>= fun r => (ExceptT.bindCont f r : Async Call Reply _)) es (.ok b) ↔ _
  rw [completes_bind_iff]
  constructor
  · rintro ⟨es₁, es₂, r, rfl, h₁, h₂⟩
    cases r with
    | error e => simp [ExceptT.bindCont, pure] at h₂
    | ok a => exact ⟨es₁, es₂, a, rfl, h₁, h₂⟩
  · rintro ⟨es₁, es₂, a, rfl, h₁, h₂⟩
    exact ⟨es₁, es₂, .ok a, rfl, h₁, h₂⟩

theorem raises_bind {x : Fallible Call Reply ε α} {f : α → Fallible Call Reply ε β} {e : ε} :
    Raises (x >>= f) es e ↔
      Raises x es e ∨
        ∃ es₁ es₂ a, es = es₁ ++ es₂ ∧ Returns x es₁ a ∧ Raises (f a) es₂ e := by
  change Completes (x.run >>= fun r => (ExceptT.bindCont f r : Async Call Reply _)) es (.error e) ↔ _
  rw [completes_bind_iff]
  constructor
  · rintro ⟨es₁, es₂, r, rfl, h₁, h₂⟩
    cases r with
    | error e' =>
      obtain ⟨rfl, h⟩ := (completes_done_iff _ _ _).mp h₂
      cases h
      exact .inl (by simpa [Raises] using h₁)
    | ok a => exact .inr ⟨es₁, es₂, a, rfl, h₁, h₂⟩
  · rintro (h | ⟨es₁, es₂, a, rfl, h₁, h₂⟩)
    · exact ⟨es, [], .error e, by simp, h, .done _⟩
    · exact ⟨es₁, es₂, .ok a, rfl, h₁, h₂⟩

theorem issues_bind {x : Fallible Call Reply ε α} {f : α → Fallible Call Reply ε β} {d : Call} :
    Issues (x >>= f).run es d ↔
      Issues x.run es d ∨
        ∃ es₁ es₂ a, es = es₁ ++ es₂ ∧ Returns x es₁ a ∧ Issues (f a).run es₂ d := by
  change Issues (x.run >>= fun r => (ExceptT.bindCont f r : Async Call Reply _)) es d ↔ _
  rw [issues_bind_iff]
  constructor
  · rintro (h | ⟨es₁, es₂, r, rfl, h₁, h₂⟩)
    · exact .inl h
    · cases r with
      | error e => simp [ExceptT.bindCont, pure] at h₂
      | ok a => exact .inr ⟨es₁, es₂, a, rfl, h₁, h₂⟩
  · rintro (h | ⟨es₁, es₂, a, rfl, h₁, h₂⟩)
    · exact .inl h
    · exact .inr ⟨es₁, es₂, .ok a, rfl, h₁, h₂⟩

theorem compute_ok_bind (a : α) (f : α → Fallible Call Reply ε β) :
    ((compute (.ok a) : Fallible Call Reply ε α) >>= f) = f a := rfl

theorem compute_error_bind (e : ε) (f : α → Fallible Call Reply ε β) :
    ((compute (.error e) : Fallible Call Reply ε α) >>= f) = throw e := rfl

theorem returns_compute_bind {x : Except ε α} {f : α → Fallible Call Reply ε β} {b : β} :
    Returns ((compute x : Fallible Call Reply ε α) >>= f) es b ↔
      ∃ a, x = .ok a ∧ Returns (f a) es b := by
  cases x with
  | error e =>
    rw [compute_error_bind]
    constructor
    · exact fun h => absurd h (not_returns_throw _ _)
    · rintro ⟨a, ha, -⟩
      cases ha
  | ok a =>
    rw [compute_ok_bind]
    constructor
    · exact fun h => ⟨a, rfl, h⟩
    · rintro ⟨_, ha, h⟩
      cases ha
      exact h

theorem returns_perform_bind {c : Call} {f : Reply c → Fallible Call Reply ε β} {b : β} :
    Returns ((perform c : Fallible Call Reply ε (Reply c)) >>= f) es b ↔
      ∃ r rest, es = ⟨c, r⟩ :: rest ∧ Returns (f r) rest b := by
  rw [returns_bind]
  constructor
  · rintro ⟨_, rest, r, rfl, hperform, h⟩
    rw [(returns_perform c r).mp hperform]
    exact ⟨r, rest, rfl, h⟩
  · rintro ⟨r, rest, rfl, h⟩
    exact ⟨[⟨c, r⟩], rest, r, rfl, (returns_perform c r).mpr rfl, h⟩

theorem completes_run_bind {x : Fallible Call Reply ε α} {f : α → Fallible Call Reply ε β}
    {r : Except ε β} :
    Completes (x >>= f).run es r ↔
      (∃ e, r = .error e ∧ Raises x es e) ∨
        ∃ es₁ es₂ a, es = es₁ ++ es₂ ∧ Returns x es₁ a ∧ Completes (f a).run es₂ r := by
  cases r with
  | error e =>
    refine raises_bind.trans (or_congr_left ?_)
    simp
  | ok b =>
    refine returns_bind.trans (Iff.symm (or_iff_right ?_))
    simp

@[simp] theorem completes_run_pure (a : α) (r : Except ε α) :
    Completes (pure a : Fallible Call Reply ε α).run es r ↔ es = [] ∧ r = .ok a :=
  completes_done_iff _ _ _

@[simp] theorem completes_run_throw (e : ε) (r : Except ε α) :
    Completes (throw e : Fallible Call Reply ε α).run es r ↔ es = [] ∧ r = .error e :=
  completes_done_iff _ _ _

@[simp] theorem completes_run_compute (x r : Except ε α) :
    Completes (compute x : Fallible Call Reply ε α).run es r ↔ es = [] ∧ r = x :=
  completes_done_iff _ _ _

@[simp] theorem not_issues_pure (a : α) (d : Call) :
    ¬ Issues (pure a : Fallible Call Reply ε α).run es d :=
  not_issues_done _ _ _

@[simp] theorem not_issues_throw (e : ε) (d : Call) :
    ¬ Issues (throw e : Fallible Call Reply ε α).run es d :=
  not_issues_done _ _ _

@[simp] theorem not_issues_compute (x : Except ε α) (d : Call) :
    ¬ Issues (compute x : Fallible Call Reply ε α).run es d :=
  not_issues_done _ _ _

@[simp] theorem issues_perform (c d : Call) :
    Issues (perform c : Fallible Call Reply ε (Reply c)).run es d ↔ es = [] ∧ d = c := by
  change Issues (Async.await c fun r => Async.done (Except.ok r)) es d ↔ _
  rw [issues_await_iff]
  simp

@[simp] theorem returns_mapError (f : ε → ε') (x : Fallible Call Reply ε α) (a : α) :
    Returns (mapError f x) es a ↔ Returns x es a := by
  change Completes (x.run >>= fun r => Async.done (r.mapError f)) es (Except.ok a) ↔ _
  rw [completes_bind_iff]
  constructor
  · rintro ⟨es₁, es₂, r, rfl, h₁, h₂⟩
    cases r with
    | error e => simp [Except.mapError] at h₂
    | ok b =>
      obtain ⟨rfl, h⟩ := (completes_done_iff _ _ _).mp h₂
      cases h
      simpa [Returns] using h₁
  · intro h
    exact ⟨es, [], .ok a, by simp, h, .done _⟩

@[simp] theorem raises_mapError (f : ε → ε') (x : Fallible Call Reply ε α) (e' : ε') :
    Raises (mapError f x) es e' ↔ ∃ e, f e = e' ∧ Raises x es e := by
  change Completes (x.run >>= fun r => Async.done (r.mapError f)) es (Except.error e') ↔ _
  rw [completes_bind_iff]
  constructor
  · rintro ⟨es₁, es₂, r, rfl, h₁, h₂⟩
    cases r with
    | error e =>
      obtain ⟨rfl, h⟩ := (completes_done_iff _ _ _).mp h₂
      cases h
      exact ⟨e, rfl, by simpa [Raises] using h₁⟩
    | ok b => simp [Except.mapError] at h₂
  · rintro ⟨e, rfl, h⟩
    exact ⟨es, [], .error e, by simp, h, .done _⟩

@[simp] theorem issues_mapError (f : ε → ε') (x : Fallible Call Reply ε α) (d : Call) :
    Issues (mapError f x).run es d ↔ Issues x.run es d := by
  change Issues (x.run >>= fun r => Async.done (r.mapError f)) es d ↔ _
  rw [issues_bind_iff]
  simp

section Recover

variable {handler : ε → Fallible Call Reply ε' α} {x : Fallible Call Reply ε α}

theorem returns_recover {a : α} :
    Returns (recover handler x) es a ↔ Returns x es a ∨
      ∃ es₁ es₂ e, es = es₁ ++ es₂ ∧ Raises x es₁ e ∧ Returns (handler e) es₂ a := by
  change Completes (x.run >>= _) es (Except.ok a) ↔ _
  rw [completes_bind_iff]
  constructor
  · rintro ⟨es₁, es₂, r, rfl, h₁, h₂⟩
    cases r with
    | error e => exact .inr ⟨es₁, es₂, e, rfl, h₁, h₂⟩
    | ok b =>
      obtain ⟨rfl, h⟩ := (completes_done_iff _ _ _).mp h₂
      cases h
      exact .inl (by simpa [Returns] using h₁)
  · rintro (h | ⟨es₁, es₂, e, rfl, h₁, h₂⟩)
    · exact ⟨es, [], .ok a, by simp, h, .done _⟩
    · exact ⟨es₁, es₂, .error e, rfl, h₁, h₂⟩

theorem raises_recover {e' : ε'} :
    Raises (recover handler x) es e' ↔
      ∃ es₁ es₂ e, es = es₁ ++ es₂ ∧ Raises x es₁ e ∧ Raises (handler e) es₂ e' := by
  change Completes (x.run >>= _) es (Except.error e') ↔ _
  rw [completes_bind_iff]
  constructor
  · rintro ⟨es₁, es₂, r, rfl, h₁, h₂⟩
    cases r with
    | error e => exact ⟨es₁, es₂, e, rfl, h₁, h₂⟩
    | ok b => simp at h₂
  · rintro ⟨es₁, es₂, e, rfl, h₁, h₂⟩
    exact ⟨es₁, es₂, .error e, rfl, h₁, h₂⟩

theorem issues_recover {d : Call} :
    Issues (recover handler x).run es d ↔ Issues x.run es d ∨
      ∃ es₁ es₂ e, es = es₁ ++ es₂ ∧ Raises x es₁ e ∧ Issues (handler e).run es₂ d := by
  change Issues (x.run >>= _) es d ↔ _
  rw [issues_bind_iff]
  constructor
  · rintro (h | ⟨es₁, es₂, r, rfl, h₁, h₂⟩)
    · exact .inl h
    · cases r with
      | error e => exact .inr ⟨es₁, es₂, e, rfl, h₁, h₂⟩
      | ok b => simp at h₂
  · rintro (h | ⟨es₁, es₂, e, rfl, h₁, h₂⟩)
    · exact .inl h
    · exact .inr ⟨es₁, es₂, .error e, rfl, h₁, h₂⟩

end Recover

theorem completes_run_recover {handler : ε → Fallible Call Reply ε' α} {x : Fallible Call Reply ε α}
    {r : Except ε' α} :
    Completes (recover handler x).run es r ↔
      (∃ a, r = .ok a ∧ Returns x es a) ∨
        ∃ es₁ es₂ e, es = es₁ ++ es₂ ∧ Raises x es₁ e ∧ Completes (handler e).run es₂ r := by
  cases r with
  | ok a =>
    refine returns_recover.trans (or_congr_left ?_)
    simp
  | error e =>
    refine raises_recover.trans (Iff.symm (or_iff_right ?_))
    simp

theorem Issues.advances {p : Async Call Reply α} {c : Call} (h : Issues p es c) :
    ∃ k, Advances p es (.await c k) := by
  induction h with
  | now c k => exact ⟨k, .refl _⟩
  | later tail ih =>
    obtain ⟨k, hk⟩ := ih
    exact ⟨k, .await hk⟩

/-- What holds of every call a program issues holds of every call answered before. -/
theorem Issues.each_call {p : Async Call Reply α} {c : Call} (h : Issues p es c)
    (P : Call → Prop) (issued : ∀ es c, Issues p es c → P c) : ∀ e ∈ es, P e.1 := by
  intro e he
  obtain ⟨before, after, rfl⟩ := List.append_of_mem he
  obtain ⟨k, hk⟩ := h.advances
  exact issued before e.1 (hk.issues_of_eq_append rfl)

/-- What holds of every call a program issues holds of every call it got answered. -/
theorem Completes.each_call {p : Async Call Reply α} {a : α} (h : Completes p es a)
    (P : Call → Prop) (issued : ∀ es c, Issues p es c → P c) : ∀ e ∈ es, P e.1 := by
  intro e he
  obtain ⟨before, after, rfl⟩ := List.append_of_mem he
  exact issued before e.1 (h.advances.issues_of_eq_append rfl)

/-- The result of a program every call of which is answered by the same function. -/
def Async.value (answer : (call : Call) → Reply call) : Async Call Reply α → α
  | .done a => a
  | .await c k => (k (answer c)).value answer

/-- The result of a function that may raise, for fixed answers. -/
def outcome (answer : (call : Call) → Reply call) (x : Fallible Call Reply ε α) : Except ε α :=
  x.run.value answer

/-- A run has the outcome of the answers it was given. -/
theorem Completes.value_eq {p : Async Call Reply α} {es : List (Event Reply)} {a : α}
    (h : Completes p es a) (answer : (call : Call) → Reply call)
    (agree : ∀ e ∈ es, e.2 = answer e.1) : p.value answer = a := by
  induction h with
  | done a => rfl
  | @await c k r es a tail ih =>
    obtain rfl : r = answer c := agree ⟨c, r⟩ List.mem_cons_self
    exact ih fun e he => agree e (List.mem_cons_of_mem _ he)

theorem value_bind (answer : (call : Call) → Reply call) (p : Async Call Reply α)
    (f : α → Async Call Reply β) : (p >>= f).value answer = (f (p.value answer)).value answer := by
  induction p with
  | done a => rfl
  | await c k ih => exact ih (answer c)

section Outcome

variable (answer : (call : Call) → Reply call)

@[simp] theorem outcome_pure (a : α) :
    outcome answer (pure a : Fallible Call Reply ε α) = .ok a := rfl

@[simp] theorem outcome_throw (e : ε) :
    outcome answer (throw e : Fallible Call Reply ε α) = .error e := rfl

@[simp] theorem outcome_compute (x : Except ε α) :
    outcome answer (compute x : Fallible Call Reply ε α) = x := rfl

@[simp] theorem outcome_perform (c : Call) :
    outcome answer (perform c : Fallible Call Reply ε (Reply c)) = .ok (answer c) := rfl

@[simp] theorem outcome_bind (x : Fallible Call Reply ε α) (f : α → Fallible Call Reply ε β) :
    outcome answer (x >>= f) = (outcome answer x).bind fun a => outcome answer (f a) := by
  change (x.run >>= fun r => (ExceptT.bindCont f r : Async Call Reply _)).value answer = _
  rw [value_bind]
  cases h : x.run.value answer <;> simp only [outcome, h] <;> rfl

@[simp] theorem outcome_mapError (f : ε → ε') (x : Fallible Call Reply ε α) :
    outcome answer (mapError f x) = (outcome answer x).mapError f := by
  change (x.run >>= fun r => Async.done (r.mapError f)).value answer = _
  rw [value_bind]
  rfl

end Outcome

/-- A store that answers calls moves along the events it answered. -/
inductive Served {σ : Type} (serve : σ → (call : Call) → Reply call → σ → Prop) :
    σ → List (Event Reply) → σ → Prop where
  | nil (s : σ) : Served serve s [] s
  | cons {s s' s'' : σ} {e : Event Reply} {es : List (Event Reply)}
      (head : serve s e.1 e.2 s') (tail : Served serve s' es s'') :
      Served serve s (e :: es) s''

/-- The frame rule: what every answer keeps, a whole run keeps. -/
theorem Served.invariant {σ : Type} {serve : σ → (call : Call) → Reply call → σ → Prop}
    {s s' : σ} (h : Served serve s es s') (P : σ → Prop)
    (keep : ∀ s e s', e ∈ es → serve s e.1 e.2 s' → P s → P s') (start : P s) : P s' := by
  induction h with
  | nil s => exact start
  | @cons s t s'' e es head tail ih =>
    exact ih (fun s e s' he => keep s e s' (List.mem_cons_of_mem _ he))
      (keep s e t List.mem_cons_self head start)

/-- One program alone against a store whose answers are determined by its state. -/
def Async.run {σ : Type} (serve : (call : Call) → σ → Reply call × σ) :
    Async Call Reply α → σ → α × List (Event Reply) × σ
  | .done a, s => (a, [], s)
  | .await c k, s =>
    let answer := serve c s
    let rest := (k answer.1).run serve answer.2
    (rest.1, ⟨c, answer.1⟩ :: rest.2.1, rest.2.2)

def Answers {σ : Type} (serve : (call : Call) → σ → Reply call × σ) (s : σ) (c : Call)
    (r : Reply c) (s' : σ) : Prop :=
  serve c s = (r, s')

theorem run_eq_iff {σ : Type} (serve : (call : Call) → σ → Reply call × σ)
    (p : Async Call Reply α) (s : σ) (a : α) (s' : σ) :
    p.run serve s = (a, es, s') ↔ Completes p es a ∧ Served (Answers serve) s es s' := by
  induction p generalizing s es with
  | done b =>
    simp only [Async.run, Prod.mk.injEq, completes_done_iff]
    constructor
    · rintro ⟨rfl, rfl, rfl⟩
      exact ⟨⟨rfl, rfl⟩, .nil s⟩
    · rintro ⟨⟨rfl, rfl⟩, h⟩
      cases h
      exact ⟨rfl, rfl, rfl⟩
  | await c k ih =>
    simp only [Async.run, Prod.mk.injEq, completes_await_iff]
    constructor
    · rintro ⟨ha, rfl, hs⟩
      obtain ⟨hc, hserved⟩ := (ih (serve c s).1 (serve c s).2).mp (Prod.ext ha (Prod.ext rfl hs))
      exact ⟨⟨_, _, rfl, hc⟩, .cons rfl hserved⟩
    · rintro ⟨⟨r, tail, rfl, hc⟩, h⟩
      cases h with
      | @cons _ t _ _ _ head rest =>
        have hserve : serve c s = (r, t) := head
        have hrun := (ih r t).mpr ⟨hc, rest⟩
        rw [hserve, hrun]
        exact ⟨rfl, rfl, rfl⟩

theorem completes_run {σ : Type} (serve : (call : Call) → σ → Reply call × σ)
    (p : Async Call Reply α) (s : σ) : Completes p (p.run serve s).2.1 (p.run serve s).1 :=
  ((run_eq_iff serve p s _ _).mp rfl).1

theorem completes_of_run {σ : Type} {serve : (call : Call) → σ → Reply call × σ}
    {p : Async Call Reply α} {s : σ} {result : α × List (Event Reply) × σ}
    (h : p.run serve s = result) : Completes p result.2.1 result.1 := by
  rw [← h]
  exact completes_run serve p s

theorem run_bind {σ : Type} (serve : (call : Call) → σ → Reply call × σ)
    (p : Async Call Reply α) (f : α → Async Call Reply β) (s : σ) :
    (p >>= f).run serve s =
      (((f (p.run serve s).1).run serve (p.run serve s).2.2).1,
        (p.run serve s).2.1 ++ ((f (p.run serve s).1).run serve (p.run serve s).2.2).2.1,
        ((f (p.run serve s).1).run serve (p.run serve s).2.2).2.2) := by
  induction p generalizing s with
  | done a => rfl
  | await c k ih =>
    rw [bind_await]
    simp only [Async.run, ih, List.cons_append]

/-- Against fixed answers, every event carries the fixed answer to its call. -/
theorem fixed_of_mem_run {σ : Type} (answer : (call : Call) → Reply call) (p : Async Call Reply α)
    (s : σ) {e : Event Reply} (h : e ∈ (p.run (fun c s => (answer c, s)) s).2.1) :
    e.2 = answer e.1 := by
  induction p with
  | done a => simp [Async.run] at h
  | await c k ih =>
    rcases List.mem_cons.mp h with rfl | h
    · rfl
    · exact ih (answer c) h

end AwaitingPrograms
