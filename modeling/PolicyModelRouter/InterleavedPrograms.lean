import PolicyModelRouter.AwaitingPrograms
import Mathlib.Data.List.Basic

/-!
# Interleaved programs over one shared state

Any number of suspended programs runs over one shared state. A step lets the
surroundings move, launches one more program, or answers the call one program is
suspended at; nothing orders the programs among themselves. Every process keeps
its own log, each answer stamped with the shared state it was given in, so facts
about one program alone carry over to any interleaving.
-/

namespace InterleavedPrograms
open AwaitingPrograms

/-- A finite run, with its labels in order. -/
inductive Run {σ L : Type} (step : σ → L → σ → Prop) : σ → List L → σ → Prop where
  | nil (s : σ) : Run step s [] s
  | snoc {s t u : σ} {ls : List L} {l : L} (init : Run step s ls t) (last : step t l u) :
      Run step s (ls ++ [l]) u

namespace Run

variable {σ L : Type} {step step' : σ → L → σ → Prop} {s t u : σ} {ls ls' : List L} {l : L}

/-- An invariant that the steps with the labels of this run keep. -/
theorem invariant_of_labels (h : Run step s ls t) (Inv : σ → Prop) (start : Inv s)
    (keep : ∀ a l b, l ∈ ls → Inv a → step a l b → Inv b) : Inv t := by
  induction h with
  | nil => exact start
  | snoc init last ih =>
    have hinit := ih fun a l b hl => keep a l b (List.mem_append_left _ hl)
    exact keep _ _ _ (List.mem_append_right _ (List.mem_singleton_self _)) hinit last

theorem invariant (h : Run step s ls t) (Inv : σ → Prop) (start : Inv s)
    (keep : ∀ a l b, Inv a → step a l b → Inv b) : Inv t :=
  h.invariant_of_labels Inv start fun a l b _ => keep a l b

theorem split (h : Run step s ls t) {before after : List L} (labels : ls = before ++ after) :
    ∃ u, Run step s before u ∧ Run step u after t := by
  induction h generalizing after with
  | nil =>
    obtain ⟨rfl, rfl⟩ := List.append_eq_nil_iff.mp labels.symm
    exact ⟨s, .nil s, .nil s⟩
  | @snoc t v ls l init last ih =>
    rcases List.eq_nil_or_concat after with rfl | ⟨initial, final, rfl⟩
    · rw [List.append_nil] at labels
      exact ⟨v, labels ▸ .snoc init last, .nil v⟩
    · rw [List.concat_eq_append] at labels ⊢
      rw [← List.append_assoc] at labels
      obtain ⟨hls, hl⟩ := List.append_inj' labels rfl
      obtain ⟨u, hbefore, hafter⟩ := ih hls
      rw [← (List.cons.inj hl).1]
      exact ⟨u, hbefore, .snoc hafter last⟩

theorem mono (h : Run step s ls t) (weaker : ∀ a l b, step a l b → step' a l b) :
    Run step' s ls t := by
  induction h with
  | nil => exact .nil s
  | snoc init last ih => exact .snoc ih (weaker _ _ _ last)

theorem trans (h : Run step s ls t) (h' : Run step t ls' u) : Run step s (ls ++ ls') u := by
  induction h' with
  | nil => simpa using h
  | snoc init last ih =>
    rw [← List.append_assoc]
    exact .snoc ih last

theorem cons (head : step s l t) (tail : Run step t ls u) : Run step s (l :: ls) u := by
  simpa using (Run.snoc (.nil s) head).trans tail

/-- A run may be refined step by step where its end says enough about its steps. -/
theorem refine_of_end (h : Run step s ls t) (P : σ → Prop) (ending : P t)
    (back : ∀ a l b, step a l b → P b → P a ∧ step' a l b) : Run step' s ls t := by
  induction h with
  | nil => exact .nil s
  | snoc init last ih =>
    obtain ⟨hprev, hstep⟩ := back _ _ _ last ending
    exact .snoc (ih hprev) hstep

/-- A relation every step follows, and that composes, holds between the ends. -/
theorem related (h : Run step s ls t) (R : σ → σ → Prop) (refl : ∀ a, R a a)
    (compose : ∀ a b c, R a b → R b c → R a c) (follows : ∀ a l b, step a l b → R a b) :
    R s t := by
  induction h with
  | nil => exact refl s
  | snoc init last ih => exact compose _ _ _ ih (follows _ _ _ last)

theorem uncons (h : Run step s (l :: ls) t) : ∃ u, step s l u ∧ Run step u ls t := by
  have hlabels : l :: ls = [l] ++ ls := rfl
  obtain ⟨u, hfirst, hrest⟩ := h.split hlabels
  obtain ⟨v, hnil, hlast⟩ : ∃ v, Run step s [] v ∧ step v l u := by
    generalize hl : [l] = labels at hfirst
    cases hfirst with
    | nil => cases hl
    | @snoc t u ls l' init last =>
      have hsingle : [] ++ [l] = ls ++ [l'] := hl
      obtain ⟨rfl, hlast⟩ := List.append_inj' hsingle rfl
      cases hlast
      exact ⟨_, init, last⟩
  generalize hempty : ([] : List L) = labels at hnil
  cases hnil with
  | nil => exact ⟨u, hlast, hrest⟩
  | snoc init last => exact absurd hempty.symm (by simp)

end Run

/-- The programs a pool may launch, and how its shared state answers and moves. -/
structure System (σ τ Call : Type) (Reply : Call → Type) (α : Type) where
  program : τ → Async Call Reply α
  admits : σ → τ → Prop
  surroundings : σ → σ → Prop
  serve : σ → (call : Call) → Reply call → σ → Prop

variable {σ τ Call : Type} {Reply : Call → Type} {α : Type}

/-- A launched program: what it was launched with, the answers it got so far with
the shared state each one was given in, and what is left of it. -/
structure Process (sys : System σ τ Call Reply α) where
  tag : τ
  log : List (σ × Event Reply)
  rest : Async Call Reply α
  advances : Advances (sys.program tag) (log.map Prod.snd) rest

namespace Process

variable {sys : System σ τ Call Reply α}

def launched (sys : System σ τ Call Reply α) (tag : τ) : Process sys :=
  ⟨tag, [], sys.program tag, .refl _⟩

def resume (p : Process sys) {c : Call} {k : Reply c → Async Call Reply α}
    (h : p.rest = .await c k) (before : σ) (r : Reply c) : Process sys :=
  ⟨p.tag, p.log ++ [(before, ⟨c, r⟩)], k r, by
    have hp := p.advances
    rw [h] at hp
    simpa using hp.resume r⟩

@[simp] theorem launched_log (tag : τ) : (launched sys tag).log = [] := rfl

@[simp] theorem launched_tag (tag : τ) : (launched sys tag).tag = tag := rfl

@[simp] theorem resume_log (p : Process sys) {c : Call} {k : Reply c → Async Call Reply α}
    (h : p.rest = .await c k) (before : σ) (r : Reply c) :
    (p.resume h before r).log = p.log ++ [(before, ⟨c, r⟩)] := rfl

@[simp] theorem resume_tag (p : Process sys) {c : Call} {k : Reply c → Async Call Reply α}
    (h : p.rest = .await c k) (before : σ) (r : Reply c) :
    (p.resume h before r).tag = p.tag := rfl

def Finished (p : Process sys) (a : α) : Prop := p.rest = .done a

theorem Finished.completes {p : Process sys} {a : α} (h : p.Finished a) :
    Completes (sys.program p.tag) (p.log.map Prod.snd) a := by
  have hp := p.advances
  rw [h] at hp
  exact hp.completes

theorem issues_of_rest {p : Process sys} {c : Call} {k : Reply c → Async Call Reply α}
    (h : p.rest = .await c k) : Issues (sys.program p.tag) (p.log.map Prod.snd) c := by
  have hp := p.advances
  rw [h] at hp
  exact hp.issues

/-- An answer in the log was issued by the program after the answers before it. -/
theorem issues_of_log {p : Process sys} {before after : List (σ × Event Reply)} {s : σ}
    {e : Event Reply} (h : p.log = before ++ (s, e) :: after) :
    Issues (sys.program p.tag) (before.map Prod.snd) e.1 := by
  have hsplit : p.log.map Prod.snd = before.map Prod.snd ++ e :: after.map Prod.snd := by
    rw [h]
    simp
  exact p.advances.issues_of_eq_append hsplit

def Calls (p : Process sys) (c : Call) : Prop :=
  ∃ before after, p.log = before ++ after ∧ Issues (sys.program p.tag) (before.map Prod.snd) c

theorem calls_of_mem {p : Process sys} {s : σ} {e : Event Reply} (h : (s, e) ∈ p.log) :
    p.Calls e.1 := by
  obtain ⟨before, after, hlog⟩ := List.append_of_mem h
  exact ⟨before, (s, e) :: after, hlog, issues_of_log hlog⟩

end Process

structure Pool (sys : System σ τ Call Reply α) where
  shared : σ
  processes : List (Process sys)

inductive Label (τ : Type) {Call : Type} (Reply : Call → Type) where
  | surroundings
  | launch (tag : τ)
  | serve (index : ℕ) (event : Event Reply)

/-- One step of a pool. -/
inductive Step (sys : System σ τ Call Reply α) :
    Pool sys → Label τ Reply → Pool sys → Prop where
  | surroundings {s s' : σ} {ps : List (Process sys)} (move : sys.surroundings s s') :
      Step sys ⟨s, ps⟩ .surroundings ⟨s', ps⟩
  | launch {s : σ} {ps : List (Process sys)} {tag : τ} (admitted : sys.admits s tag) :
      Step sys ⟨s, ps⟩ (.launch tag) ⟨s, ps ++ [Process.launched sys tag]⟩
  | serve {s s' : σ} {ps : List (Process sys)} {i : ℕ} {p : Process sys} {c : Call}
      {k : Reply c → Async Call Reply α} {r : Reply c} (pending : ps[i]? = some p)
      (suspended : p.rest = .await c k) (answer : sys.serve s c r s') :
      Step sys ⟨s, ps⟩ (.serve i ⟨c, r⟩) ⟨s', ps.set i (p.resume suspended s r)⟩

def Pool.start (sys : System σ τ Call Reply α) (s : σ) : Pool sys := ⟨s, []⟩

section Invariants

variable {sys : System σ τ Call Reply α}

/-- A property of the shared state that every answer and every move of the
surroundings keeps. -/
theorem shared_invariant {a b : Pool sys} {l : Label τ Reply} (h : Step sys a l b)
    (P : σ → Prop) (moves : ∀ s s', sys.surroundings s s' → P s → P s')
    (answers : ∀ s c r s', sys.serve s c r s' → P s → P s') (start : P a.shared) :
    P b.shared := by
  cases h with
  | surroundings move => exact moves _ _ move start
  | launch admitted => exact start
  | serve pending suspended answer => exact answers _ _ _ _ answer start

/-- What one process has, some process keeps when answering a call keeps it. -/
theorem some_process {a b : Pool sys} {l : Label τ Reply} (h : Step sys a l b)
    (P : Process sys → Prop)
    (answers : ∀ (p : Process sys) (c : Call) (k : Reply c → Async Call Reply α) (r : Reply c)
      (suspended : p.rest = .await c k), sys.serve a.shared c r b.shared → P p →
      P (p.resume suspended a.shared r)) (held : ∃ p ∈ a.processes, P p) :
    ∃ q ∈ b.processes, P q := by
  obtain ⟨p, hp, hheld⟩ := held
  cases h with
  | surroundings move => exact ⟨p, hp, hheld⟩
  | launch admitted => exact ⟨p, List.mem_append_left _ hp, hheld⟩
  | @serve s s' ps i p₀ c k r pending suspended answer =>
    obtain ⟨j, hj, rfl⟩ := List.mem_iff_getElem.mp hp
    rcases eq_or_ne i j with rfl | hne
    · obtain ⟨_, rfl⟩ := List.getElem?_eq_some_iff.mp pending
      exact ⟨_, List.mem_set hj _, answers _ _ _ _ suspended answer hheld⟩
    · refine ⟨ps[j], List.mem_of_getElem? (i := j) ?_, hheld⟩
      rw [List.getElem?_set_ne hne, List.getElem?_eq_getElem hj]

theorem exists_same_tag {a b : Pool sys} {l : Label τ Reply} (h : Step sys a l b)
    {p : Process sys} (hp : p ∈ a.processes) : ∃ q ∈ b.processes, q.tag = p.tag :=
  some_process h (·.tag = p.tag) (fun _ _ _ _ _ _ htag => htag) ⟨p, hp, rfl⟩

/-- A property of single answers is kept when giving an answer establishes it and the
shared state cannot break it. -/
theorem each_answer {a b : Pool sys} {l : Label τ Reply} (h : Step sys a l b)
    (P : τ → σ → Event Reply → σ → Prop)
    (held : ∀ p ∈ a.processes, ∀ x ∈ p.log, P p.tag x.1 x.2 a.shared)
    (moves : ∀ tag s e, sys.surroundings a.shared b.shared → P tag s e a.shared →
      P tag s e b.shared)
    (answers : ∀ tag s e c r, sys.serve a.shared c r b.shared → P tag s e a.shared →
      P tag s e b.shared)
    (fresh : ∀ (i : ℕ) (p : Process sys) (c : Call) (k : Reply c → Async Call Reply α)
      (r : Reply c), l = .serve i ⟨c, r⟩ → a.processes[i]? = some p → p.rest = .await c k →
      sys.serve a.shared c r b.shared → P p.tag a.shared ⟨c, r⟩ b.shared) :
    ∀ p ∈ b.processes, ∀ x ∈ p.log, P p.tag x.1 x.2 b.shared := by
  cases h with
  | surroundings move => exact fun p hp x hx => moves _ _ _ move (held p hp x hx)
  | launch admitted =>
    intro p hp x hx
    rcases List.mem_append.mp hp with hp | hp
    · exact held p hp x hx
    · obtain rfl := List.mem_singleton.mp hp
      simp at hx
  | @serve s s' ps i p₀ c k r pending suspended answer =>
    intro p hp x hx
    rcases List.mem_or_eq_of_mem_set hp with hp | rfl
    · exact answers _ _ _ _ _ answer (held p hp x hx)
    · rcases List.mem_append.mp hx with hx | hx
      · exact answers _ _ _ _ _ answer (held _ (List.mem_of_getElem? pending) x hx)
      · obtain rfl := List.mem_singleton.mp hx
        exact fresh i p₀ c k r rfl pending suspended answer

/-- A symmetric relation between different processes is kept when a launched process has
it with every other one and a resumed process keeps it. -/
theorem each_pair {a b : Pool sys} {l : Label τ Reply} (h : Step sys a l b)
    (R : Process sys → Process sys → Prop) (symm : ∀ p q, R p q → R q p)
    (held : ∀ (i j : ℕ) (p q : Process sys), i ≠ j → a.processes[i]? = some p → a.processes[j]? = some q → R p q)
    (launches : ∀ tag, ∀ p ∈ a.processes, R (Process.launched sys tag) p)
    (answers : ∀ (p q : Process sys) (c : Call) (k : Reply c → Async Call Reply α) (r : Reply c)
      (suspended : p.rest = .await c k), sys.serve a.shared c r b.shared → q ∈ a.processes →
      R p q → R (p.resume suspended a.shared r) q) :
    ∀ (i j : ℕ) (p q : Process sys), i ≠ j → b.processes[i]? = some p → b.processes[j]? = some q → R p q := by
  cases h with
  | surroundings move => exact held
  | @launch s ps tag admitted =>
    have hcase : ∀ {i : ℕ} {p : Process sys}, (ps ++ [Process.launched sys tag])[i]? = some p →
        ps[i]? = some p ∨ (i = ps.length ∧ p = Process.launched sys tag) := by
      intro i p hp
      rcases Nat.lt_trichotomy i ps.length with hi | rfl | hi
      · exact .inl (by rwa [List.getElem?_append_left hi] at hp)
      · exact .inr ⟨rfl, by simpa [eq_comm] using hp⟩
      · rw [List.getElem?_eq_none (by simpa using Nat.succ_le_of_lt hi)] at hp
        cases hp
    intro i j p q hne hp hq
    rcases hcase hp with hp' | ⟨rfl, rfl⟩
    · rcases hcase hq with hq' | ⟨rfl, rfl⟩
      · exact held i j p q hne hp' hq'
      · exact symm _ _ (launches tag p (List.mem_of_getElem? hp'))
    · rcases hcase hq with hq' | ⟨rfl, rfl⟩
      · exact launches tag q (List.mem_of_getElem? hq')
      · exact absurd rfl hne
  | @serve s s' ps n p₀ c k r pending suspended answer =>
    have hcase : ∀ {i : ℕ} {p : Process sys}, (ps.set n (p₀.resume suspended s r))[i]? = some p →
        (i = n ∧ p = p₀.resume suspended s r) ∨ (i ≠ n ∧ ps[i]? = some p) := by
      intro i p hp
      rcases eq_or_ne i n with rfl | hi
      · refine .inl ⟨rfl, ?_⟩
        obtain ⟨hlt, -⟩ := List.getElem?_eq_some_iff.mp pending
        rw [List.getElem?_set_self hlt] at hp
        exact (Option.some.inj hp).symm
      · exact .inr ⟨hi, by rwa [List.getElem?_set_ne (Ne.symm hi)] at hp⟩
    intro i j p q hne hp hq
    rcases hcase hp with ⟨rfl, rfl⟩ | ⟨hi, hp'⟩
    · rcases hcase hq with ⟨rfl, rfl⟩ | ⟨hj, hq'⟩
      · exact absurd rfl hne
      · exact answers _ _ _ _ _ suspended answer (List.mem_of_getElem? hq')
          (held _ _ _ _ hne pending hq')
    · rcases hcase hq with ⟨rfl, rfl⟩ | ⟨hj, hq'⟩
      · exact symm _ _ (answers _ _ _ _ _ suspended answer (List.mem_of_getElem? hp')
          (held _ _ _ _ (Ne.symm hne) pending hp'))
      · exact held i j p q hne hp' hq'

end Invariants

/-- The stamps of a log follow each other, and the present state follows them all. -/
structure Process.Ordered {sys : System σ τ Call Reply α} (R : σ → σ → Prop) (now : σ)
    (p : Process sys) : Prop where
  stamps : p.log.Pairwise fun x y => R x.1 y.1
  reached : ∀ x ∈ p.log, R x.1 now

/-- Stamps are ordered by every transitive relation the shared state follows. -/
theorem ordered_of_run {sys : System σ τ Call Reply α} {s : σ} {ls : List (Label τ Reply)}
    {pool : Pool sys} (h : Run (Step sys) (Pool.start sys s) ls pool) (R : σ → σ → Prop)
    (trans : ∀ s t u, R s t → R t u → R s u)
    (moves : ∀ s s', sys.surroundings s s' → R s s')
    (answers : ∀ s c r s', sys.serve s c r s' → R s s') :
    ∀ p ∈ pool.processes, p.Ordered R pool.shared := by
  refine h.invariant (fun pool => ∀ p ∈ pool.processes, p.Ordered R pool.shared)
    (by simp [Pool.start]) ?_
  intro a l b held hstep p hp
  cases hstep with
  | surroundings move =>
    exact ⟨(held p hp).stamps, fun x hx => trans _ _ _ ((held p hp).reached x hx) (moves _ _ move)⟩
  | launch admitted =>
    rcases List.mem_append.mp hp with hp | hp
    · exact held p hp
    · obtain rfl := List.mem_singleton.mp hp
      exact ⟨.nil, by simp⟩
  | serve pending suspended answer =>
    have hnext := answers _ _ _ _ answer
    rcases List.mem_or_eq_of_mem_set hp with hp | rfl
    · exact ⟨(held p hp).stamps, fun x hx => trans _ _ _ ((held p hp).reached x hx) hnext⟩
    · have hold := held _ (List.mem_of_getElem? pending)
      constructor
      · refine List.pairwise_append.mpr ⟨hold.stamps, List.pairwise_singleton _ _, ?_⟩
        intro x hx y hy
        obtain rfl := List.mem_singleton.mp hy
        exact hold.reached x hx
      · intro x hx
        rcases List.mem_append.mp hx with hx | hx
        · exact trans _ _ _ (hold.reached x hx) hnext
        · obtain rfl := List.mem_singleton.mp hx
          exact hnext

/-- Along a run the shared state follows a relation from its start on, and every answer
the start does not have yet is given in a state that follows it. -/
theorem answered_since {sys : System σ τ Call Reply α} {mid pool : Pool sys}
    {ls : List (Label τ Reply)} (h : Run (Step sys) mid ls pool) (R : σ → σ → Prop)
    (refl : ∀ s, R s s) (trans : ∀ s t u, R s t → R t u → R s u)
    (moves : ∀ s s', sys.surroundings s s' → R s s')
    (answers : ∀ s c r s', sys.serve s c r s' → R s s') :
    R mid.shared pool.shared ∧ ∀ (i : ℕ) (p : Process sys), pool.processes[i]? = some p →
      ∀ x ∈ p.log, (∃ q, mid.processes[i]? = some q ∧ x ∈ q.log) ∨ R mid.shared x.1 := by
  refine h.invariant (fun pool => R mid.shared pool.shared ∧
    ∀ (i : ℕ) (p : Process sys), pool.processes[i]? = some p →
      ∀ x ∈ p.log, (∃ q, mid.processes[i]? = some q ∧ x ∈ q.log) ∨ R mid.shared x.1)
    ⟨refl _, fun i p hp x hx => .inl ⟨p, hp, hx⟩⟩ ?_
  rintro a l b ⟨hshared, held⟩ hstep
  cases hstep with
  | surroundings move => exact ⟨trans _ _ _ hshared (moves _ _ move), held⟩
  | @launch s ps tag admitted =>
    refine ⟨hshared, fun i p hp x hx => ?_⟩
    rcases Nat.lt_or_ge i ps.length with hi | hi
    · exact held i p (by rwa [List.getElem?_append_left hi] at hp) x hx
    · obtain rfl : p = Process.launched sys tag := by
        rw [List.getElem?_append_right hi] at hp
        exact List.mem_singleton.mp (List.mem_of_getElem? hp)
      simp at hx
  | @serve s s' ps n p₀ c k r pending suspended answer =>
    refine ⟨trans _ _ _ hshared (answers _ _ _ _ answer), fun i p hp x hx => ?_⟩
    rcases eq_or_ne n i with rfl | hne
    · obtain ⟨hlt, -⟩ := List.getElem?_eq_some_iff.mp pending
      rw [List.getElem?_set_self hlt] at hp
      obtain rfl := Option.some.inj hp
      rcases List.mem_append.mp hx with hx | hx
      · exact held n p₀ pending x hx
      · rw [List.mem_singleton.mp hx]
        exact .inr hshared
    · exact held i p (by rwa [List.getElem?_set_ne hne] at hp) x hx

/-- The answers one program gets while the surroundings move. -/
inductive Amid (sys : System σ τ Call Reply α) : σ → List (σ × Event Reply) → σ → Prop where
  | nil (s : σ) : Amid sys s [] s
  | move {s s' s'' : σ} {log : List (σ × Event Reply)} (head : sys.surroundings s s')
      (tail : Amid sys s' log s'') : Amid sys s log s''
  | answer {s s' s'' : σ} {e : Event Reply} {log : List (σ × Event Reply)}
      (head : sys.serve s e.1 e.2 s') (tail : Amid sys s' log s'') : Amid sys s ((s, e) :: log) s''

section Alone

variable {sys : System σ τ Call Reply α}

theorem run_resumed {s s' : σ} {log : List (σ × Event Reply)} (h : Amid sys s log s')
    (ps : List (Process sys)) (p : Process sys) {q : Async Call Reply α}
    (advances : Advances p.rest (log.map Prod.snd) q) :
    ∃ ls p', Run (Step sys) ⟨s, ps ++ [p]⟩ ls ⟨s', ps ++ [p']⟩ ∧ p'.tag = p.tag ∧
      p'.log = p.log ++ log ∧ p'.rest = q := by
  induction h generalizing p with
  | nil s =>
    exact ⟨[], p, .nil _, rfl, (List.append_nil _).symm, (advances_nil_iff.mp advances).symm⟩
  | move head tail ih =>
    obtain ⟨ls, p', hrun, htag, hlog, hrest⟩ := ih p advances
    exact ⟨_, p', .cons (.surroundings head) hrun, htag, hlog, hrest⟩
  | @answer s t s'' e log head tail ih =>
    obtain ⟨c, r⟩ := e
    obtain ⟨k, hp, htail⟩ := advances_cons_iff.mp advances
    obtain ⟨ls, p', hrun, htag, hlog, hrest⟩ := ih (p.resume hp s r) htail
    have hpending : (ps ++ [p])[ps.length]? = some p := by simp
    have hset : (ps ++ [p]).set ps.length (p.resume hp s r) = ps ++ [p.resume hp s r] := by simp
    have hstep := Step.serve hpending hp head
    rw [hset] at hstep
    exact ⟨_, p', .cons hstep hrun, htag, by simp [hlog], hrest⟩

/-- A program that completes with answers given amid the surroundings is one run of a pool. -/
theorem run_alone {s s' : σ} {log : List (σ × Event Reply)} (h : Amid sys s log s')
    (ps : List (Process sys)) {tag : τ} (admitted : sys.admits s tag) {a : α}
    (completes : Completes (sys.program tag) (log.map Prod.snd) a) :
    ∃ ls p, Run (Step sys) ⟨s, ps⟩ ls ⟨s', ps ++ [p]⟩ ∧ p.tag = tag ∧ p.log = log ∧
      p.Finished a := by
  obtain ⟨ls, p, hrun, htag, hlog, hrest⟩ :=
    run_resumed h ps (Process.launched sys tag) completes.advances
  exact ⟨_, p, .cons (.launch admitted) hrun, htag, hlog, hrest⟩

end Alone

section Forgetting

variable {ρ : Type} {sys : System σ τ Call Reply α} {sys' : System ρ τ Call Reply α}
variable (part : σ → ρ) (programs : sys.program = sys'.program)

/-- The process, with its answers stamped with a part of the shared state only. -/
def Process.forget (p : Process sys) : Process sys' :=
  ⟨p.tag, p.log.map fun x => (part x.1, x.2), p.rest, by
    rw [List.map_map, ← programs]
    exact p.advances⟩

def Pool.forget (pool : Pool sys) : Pool sys' :=
  ⟨part pool.shared, pool.processes.map (Process.forget part programs)⟩

/-- Where the part moves and answers as another system does, a step is a step of the other. -/
theorem step_forget (moves : ∀ s s', sys.surroundings s s' → sys'.surroundings (part s) (part s'))
    (admits : ∀ s tag, sys.admits s tag → sys'.admits (part s) tag)
    (answers : ∀ s c r s', sys.serve s c r s' → sys'.serve (part s) c r (part s')) {a b : Pool sys}
    {l : Label τ Reply} (h : Step sys a l b) :
    Step sys' (a.forget part programs) l (b.forget part programs) := by
  cases h with
  | surroundings move => exact .surroundings (moves _ _ move)
  | @launch s ps tag admitted =>
    have hlaunched : (Process.launched sys tag).forget part programs = Process.launched sys' tag := by
      simp only [Process.forget, Process.launched, List.map_nil, programs]
    simp only [Pool.forget, List.map_append, List.map_singleton, hlaunched]
    exact .launch (admits _ _ admitted)
  | @serve s s' ps i p c k r pending suspended answer =>
    have hpending : (ps.map (Process.forget part programs))[i]? =
        some (p.forget part programs) := by
      rw [List.getElem?_map, pending]
      rfl
    have hresumed : (p.resume suspended s r).forget part programs =
        (p.forget part programs).resume suspended (part s) r := by
      simp only [Process.forget, Process.resume, List.map_append, List.map_singleton]
    simp only [Pool.forget, List.map_set, hresumed]
    exact .serve hpending suspended (answers _ _ _ _ answer)

/-- And a run is a run of the other. -/
theorem run_forget (moves : ∀ s s', sys.surroundings s s' → sys'.surroundings (part s) (part s'))
    (admits : ∀ s tag, sys.admits s tag → sys'.admits (part s) tag)
    (answers : ∀ s c r s', sys.serve s c r s' → sys'.serve (part s) c r (part s')) {s : σ}
    {ls : List (Label τ Reply)} {pool : Pool sys} (h : Run (Step sys) (Pool.start sys s) ls pool) :
    Run (Step sys') (Pool.start sys' (part s)) ls (pool.forget part programs) := by
  induction h with
  | nil => exact .nil _
  | snoc init last ih => exact .snoc ih (step_forget part programs moves admits answers last)

end Forgetting

end InterleavedPrograms
