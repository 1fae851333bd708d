import Mathlib.Algebra.BigOperators.Group.List.Basic
import Mathlib.Algebra.Order.BigOperators.Group.List
import Mathlib.Algebra.Order.Group.Multiset
import Mathlib.Tactic.Abel
import PolicyModelRouter.AnnotatedPrograms
import PolicyModelRouter.InterleavedPrograms

/-!
# Systems whose programs take notes

The notes of all programs of a pool end up in one record, which nothing else changes. The
record holds what the programs noted and no more, however they interleave, and without it
the pool is a pool of the plain programs.
-/

namespace RecordingSystems
open AnnotatedPrograms AwaitingPrograms InterleavedPrograms

variable {σ τ Call Note : Type} {Reply : Call → Type} {α : Type}

section Sums

variable {M : Type} [AddCommMonoid M] {sys : System σ τ Call Reply α}

def added (weight : σ → Event Reply → M) (p : Process sys) : M :=
  (p.log.map fun x => weight x.1 x.2).sum

theorem added_resume (weight : σ → Event Reply → M) (p : Process sys) {c : Call}
    {k : Reply c → Async Call Reply α} (h : p.rest = .await c k) (s : σ) (r : Reply c) :
    added weight (p.resume h s r) = added weight p + weight s ⟨c, r⟩ := by
  simp [added]

/-- Whatever one process adds, the sum over all processes has. -/
theorem sum_map_set {γ : Type} {f : γ → M} {ps : List γ} {i : ℕ} {p q : γ} {w : M}
    (h : ps[i]? = some p) (hq : f q = f p + w) :
    ((ps.set i q).map f).sum = (ps.map f).sum + w := by
  induction ps generalizing i with
  | nil => simp at h
  | cons r rest ih =>
    cases i with
    | zero =>
      obtain rfl : r = p := by simpa using h
      simp only [List.set_cons_zero, List.map_cons, List.sum_cons, hq]
      abel
    | succ i =>
      simp only [List.set_cons_succ, List.map_cons, List.sum_cons,
        ih (by simpa using h : rest[i]? = some p)]
      abel

theorem mem_sum {β γ : Type} {f : γ → Multiset β} {ps : List γ} {x : β} :
    x ∈ (ps.map f).sum ↔ ∃ p ∈ ps, x ∈ f p := by
  induction ps with
  | nil => simp
  | cons p ps ih => simp [ih]

theorem countP_sum {β γ : Type} (P : β → Bool) (f : γ → Multiset β) (ps : List γ) :
    (ps.map f).sum.countP (P · = true) = (ps.map fun p => (f p).countP (P · = true)).sum := by
  induction ps with
  | nil => simp
  | cons p ps ih => simp [ih]

theorem count_sum {β γ : Type} [DecidableEq β] (x : β) (f : γ → Multiset β) (ps : List γ) :
    (ps.map f).sum.count x = (ps.map fun p => (f p).count x).sum := by
  induction ps with
  | nil => simp
  | cons p ps ih => simp [ih]

theorem countP_added {β : Type} {weight : σ → Event Reply → Multiset β} {P : β → Bool}
    {counted : σ × Event Reply → Bool}
    (each : ∀ x, (weight x.1 x.2).countP (P · = true) = if counted x then 1 else 0)
    (p : Process sys) : (added weight p).countP (P · = true) = p.log.countP counted := by
  rw [added]
  induction p.log with
  | nil => rfl
  | cons x log ih =>
    rw [List.map_cons, List.sum_cons, Multiset.countP_add, each, ih, List.countP_cons, Nat.add_comm]

/-- What the shared state stands for, when only answers change it and each by what it adds,
is at every moment what all processes have added, however their answers interleave. -/
theorem summed_of_run (weight : σ → Event Reply → M) (StandsFor : σ → M → Prop)
    (moves : ∀ s s' m, sys.surroundings s s' → StandsFor s m → StandsFor s' m)
    (answers : ∀ s c r s' m, sys.serve s c r s' → StandsFor s m →
      StandsFor s' (m + weight s ⟨c, r⟩))
    {s : σ} {m : M} (start : StandsFor s m) {ls : List (Label τ Reply)} {pool : Pool sys}
    (h : Run (Step sys) (Pool.start sys s) ls pool) :
    StandsFor pool.shared (m + (pool.processes.map (added weight)).sum) := by
  refine h.invariant
    (fun pool => StandsFor pool.shared (m + (pool.processes.map (added weight)).sum))
    (by simpa [Pool.start] using start) fun a l b held hstep => ?_
  cases hstep with
  | surroundings move => exact moves _ _ _ move held
  | @launch s' ps tag admitted => simpa [added] using held
  | @serve s₁ s₂ ps i p c k r pending suspended answer =>
    have hset := sum_map_set (f := added weight) pending (added_resume weight p suspended s₁ r)
    change StandsFor s₂ (m + ((ps.set i (p.resume suspended s₁ r)).map (added weight)).sum)
    rw [hset, ← add_assoc]
    exact answers _ _ _ _ _ answer held

end Sums

/-- Where each term is at least what is expected and at most one more, and none more but for
those that are open, the sum is bounded by what is expected and by how many are open. -/
theorem sum_between {γ : Type} {f g : γ → ℕ} {isOpen : γ → Bool} {ps : List γ}
    (lower : ∀ p ∈ ps, g p ≤ f p) (upper : ∀ p ∈ ps, f p ≤ g p + (isOpen p).toNat) :
    (ps.map g).sum ≤ (ps.map f).sum ∧ (ps.map f).sum ≤ (ps.map g).sum + ps.countP isOpen := by
  induction ps with
  | nil => simp
  | cons p ps ih =>
    obtain ⟨hlower, hlowers⟩ := List.forall_mem_cons.mp lower
    obtain ⟨hupper, huppers⟩ := List.forall_mem_cons.mp upper
    have hrest := ih hlowers huppers
    simp only [List.countP_cons, List.map_cons, List.sum_cons]
    cases hopen : isOpen p with
    | false =>
      simp only [hopen, Bool.toNat_false] at hupper
      simp only [Bool.false_eq_true, if_false]
      omega
    | true =>
      simp only [hopen, Bool.toNat_true] at hupper
      simp only [if_true]
      omega

/-- A system whose programs also take notes, all of them in one record. -/
def recording (sys : System σ τ Call Reply α)
    (noting : τ → Async (Annotated Call Note) (Answer Note Reply) α) :
    System (σ × Multiset Note) τ (Annotated Call Note) (Answer Note Reply) α where
  program := noting
  admits s tag := sys.admits s.1 tag
  surroundings s s' := sys.surroundings s.1 s'.1 ∧ s'.2 = s.2
  serve s
    | .call c, r, s' => sys.serve s.1 c r s'.1 ∧ s'.2 = s.2
    | .note n, _, s' => s'.1 = s.1 ∧ s'.2 = n ::ₘ s.2

section Records

variable {sys : System σ τ Call Reply α}
variable {noting : τ → Async (Annotated Call Note) (Answer Note Reply) α}

def notedBy (p : Process (recording sys noting)) : List Note := notes (p.log.map Prod.snd)

def noteWeight : Event (Answer Note Reply) → Multiset Note
  | ⟨.call _, _⟩ => 0
  | ⟨.note n, _⟩ => {n}

theorem sum_noteWeight (es : List (Event (Answer Note Reply))) :
    (es.map noteWeight).sum = (notes es : Multiset Note) := by
  induction es with
  | nil => rfl
  | cons e es ih =>
    obtain ⟨c | n, r⟩ := e
    · simpa [noteWeight, notes] using ih
    · simp [noteWeight, notes, ih]

/-- The record is what was there at first and what the processes have noted since. -/
theorem record_of_run {s : σ} {m : Multiset Note} {ls : List (Label τ (Answer Note Reply))}
    {pool : Pool (recording sys noting)}
    (h : Run (Step (recording sys noting)) (Pool.start _ (s, m)) ls pool) :
    pool.shared.2 = m + (pool.processes.map fun p => (notedBy p : Multiset Note)).sum := by
  have hanswers : ∀ (t : σ × Multiset Note) c r t' m', (recording sys noting).serve t c r t' →
      t.2 = m' → t'.2 = m' + noteWeight ⟨c, r⟩ := by
    rintro t c r t' _ answer rfl
    cases c with
    | call c => simpa [noteWeight] using answer.2
    | note n =>
      rw [answer.2, noteWeight, add_comm]
      rfl
  have hmoves : ∀ (t t' : σ × Multiset Note) m', (recording sys noting).surroundings t t' →
      t.2 = m' → t'.2 = m' := fun _ _ _ move held => move.2.trans held
  rw [summed_of_run (fun _ e => noteWeight e) (fun t m' => t.2 = m') hmoves hanswers rfl h]
  congr 2
  refine List.map_congr_left fun p _ => ?_
  rw [added, notedBy, ← sum_noteWeight, List.map_map]
  rfl

theorem count_record [DecidableEq Note] {s : σ} {m : Multiset Note}
    {ls : List (Label τ (Answer Note Reply))} {pool : Pool (recording sys noting)}
    (h : Run (Step (recording sys noting)) (Pool.start _ (s, m)) ls pool) (n : Note) :
    pool.shared.2.count n = m.count n + (pool.processes.map fun p => (notedBy p).count n).sum := by
  rw [record_of_run h, Multiset.count_add, count_sum]
  simp only [Multiset.coe_count]

theorem mem_record {s : σ} {m : Multiset Note} {ls : List (Label τ (Answer Note Reply))}
    {pool : Pool (recording sys noting)}
    (h : Run (Step (recording sys noting)) (Pool.start _ (s, m)) ls pool) {n : Note} :
    n ∈ pool.shared.2 ↔ n ∈ m ∨ ∃ p ∈ pool.processes, n ∈ notedBy p := by
  rw [record_of_run h, Multiset.mem_add, mem_sum]
  rfl

def plainLog : List ((σ × Multiset Note) × Event (Answer Note Reply)) → List (σ × Event Reply)
  | [] => []
  | (s, ⟨.call c, r⟩) :: log => (s.1, ⟨c, r⟩) :: plainLog log
  | (_, ⟨.note _, _⟩) :: log => plainLog log

theorem plainLog_append (log log' : List ((σ × Multiset Note) × Event (Answer Note Reply))) :
    plainLog (log ++ log') = plainLog log ++ plainLog log' := by
  induction log with
  | nil => rfl
  | cons x log ih =>
    obtain ⟨s, c | n, r⟩ := x
    · exact congrArg (_ :: ·) ih
    · exact ih

theorem plainLog_map_snd (log : List ((σ × Multiset Note) × Event (Answer Note Reply))) :
    (plainLog log).map Prod.snd = calls (log.map Prod.snd) := by
  induction log with
  | nil => rfl
  | cons x log ih =>
    obtain ⟨s, c | n, r⟩ := x
    · exact congrArg (_ :: ·) ih
    · exact ih

theorem mem_plainLog {log : List ((σ × Multiset Note) × Event (Answer Note Reply))} {e : Event Reply}
    (h : e ∈ calls (log.map Prod.snd)) : ∃ s, (s, e) ∈ plainLog log := by
  rw [← plainLog_map_snd] at h
  obtain ⟨x, hx, rfl⟩ := List.mem_map.mp h
  exact ⟨x.1, hx⟩

variable (erases : ∀ tag, erase (noting tag) = sys.program tag)

def plain (p : Process (recording sys noting)) : Process sys :=
  ⟨p.tag, plainLog p.log, erase p.rest, by
    rw [plainLog_map_snd, ← erases]
    exact advances_erase p.advances⟩

def plainPool (pool : Pool (recording sys noting)) : Pool sys :=
  ⟨pool.shared.1, pool.processes.map (plain erases)⟩

def plainLabel : Label τ (Answer Note Reply) → Option (Label τ Reply)
  | .surroundings => some .surroundings
  | .launch tag => some (.launch tag)
  | .serve i ⟨.call c, r⟩ => some (.serve i ⟨c, r⟩)
  | .serve _ ⟨.note _, _⟩ => none

theorem process_ext {p q : Process sys} (tag : p.tag = q.tag) (log : p.log = q.log)
    (rest : p.rest = q.rest) : p = q := by
  obtain ⟨tag, log, rest, advances⟩ := p
  cases tag
  cases log
  cases rest
  rfl

theorem plain_resume_call (p : Process (recording sys noting)) {c : Call}
    {k : Reply c → Async (Annotated Call Note) (Answer Note Reply) α}
    (h : p.rest = .await (.call c) k) (s : σ × Multiset Note) (r : Reply c)
    (h' : (plain erases p).rest = .await c fun r => erase (k r)) :
    plain erases (p.resume h s r) = (plain erases p).resume h' s.1 r :=
  process_ext rfl (plainLog_append _ _) rfl

theorem plain_resume_note (p : Process (recording sys noting)) {n : Note}
    {k : Unit → Async (Annotated Call Note) (Answer Note Reply) α}
    (h : p.rest = .await (.note n) k) (s : σ × Multiset Note) :
    plain erases (p.resume h s ()) = plain erases p := by
  apply process_ext
  · rfl
  · change plainLog (p.log ++ _) = plainLog p.log
    rw [plainLog_append]
    exact List.append_nil _
  · change erase (k ()) = erase p.rest
    rw [h]
    rfl

theorem plain_of_step {a b : Pool (recording sys noting)} {l : Label τ (Answer Note Reply)}
    (h : Step (recording sys noting) a l b) :
    (plainLabel l = none ∧ plainPool erases b = plainPool erases a) ∨
      ∃ l', plainLabel l = some l' ∧ Step sys (plainPool erases a) l' (plainPool erases b) := by
  cases h with
  | surroundings move => exact .inr ⟨_, rfl, .surroundings move.1⟩
  | @launch s ps tag admitted =>
    refine .inr ⟨_, rfl, ?_⟩
    have hlaunched : plain erases (Process.launched (recording sys noting) tag) =
        Process.launched sys tag := process_ext rfl rfl (erases tag)
    simp only [plainPool, List.map_append, List.map_cons, List.map_nil, hlaunched]
    exact .launch admitted
  | @serve s s' ps i p c k r pending suspended answer =>
    have hpending : (ps.map (plain erases))[i]? = some (plain erases p) := by
      rw [List.getElem?_map, pending]
      rfl
    cases c with
    | call c =>
      refine .inr ⟨_, rfl, ?_⟩
      have hrest : (plain erases p).rest = .await c fun r => erase (k r) := by
        change erase p.rest = _
        rw [suspended]
        rfl
      simp only [plainPool, List.map_set, plain_resume_call erases p suspended s r hrest]
      exact .serve hpending hrest answer.1
    | note n =>
      refine .inl ⟨rfl, ?_⟩
      obtain ⟨hs, -⟩ := answer
      obtain ⟨hlt, hp⟩ := List.getElem?_eq_some_iff.mp hpending
      simp only [plainPool, List.map_set, hs]
      rw [show plain erases (p.resume suspended s r) = plain erases p from
        plain_resume_note erases p suspended s, ← hp, List.set_getElem_self]

/-- Without its record a run is a run of the plain pool. -/
theorem plain_of_run {s : σ} {m : Multiset Note} {ls : List (Label τ (Answer Note Reply))}
    {pool : Pool (recording sys noting)}
    (h : Run (Step (recording sys noting)) (Pool.start _ (s, m)) ls pool) :
    Run (Step sys) (Pool.start sys s) (ls.filterMap plainLabel) (plainPool erases pool) := by
  induction h with
  | nil => exact .nil _
  | snoc init last ih =>
    rw [List.filterMap_append]
    rcases plain_of_step erases last with ⟨hnone, hsame⟩ | ⟨l', hsome, hstep⟩
    · rw [hsame]
      simpa [hnone] using ih
    · simpa [hsome] using Run.snoc ih hstep

/-- The notes in front of a call can be taken. -/
theorem run_notes {s : σ} {m : Multiset Note} {ps : List (Process (recording sys noting))} {i : ℕ}
    {p : Process (recording sys noting)} {q : Async (Annotated Call Note) (Answer Note Reply) α}
    {ns : List Note} (pending : ps[i]? = some p) (left : Advances p.rest (ns.map (noted Reply)) q) :
    ∃ ls m' p', Run (Step (recording sys noting)) ⟨(s, m), ps⟩ ls ⟨(s, m'), ps.set i p'⟩ ∧
      ls.filterMap plainLabel = [] ∧ p'.rest = q ∧ plain erases p' = plain erases p := by
  induction ns generalizing m ps p with
  | nil =>
    obtain ⟨hlt, rfl⟩ := List.getElem?_eq_some_iff.mp pending
    refine ⟨[], m, ps[i], ?_, rfl, ?_, rfl⟩
    · rw [List.set_getElem_self]
      exact .nil _
    · exact (advances_nil_iff.mp left).symm
  | cons n ns ih =>
    obtain ⟨k, hrest, hleft⟩ := advances_cons_iff.mp left
    have hstep : Step (recording sys noting) ⟨(s, m), ps⟩ (.serve i ⟨.note n, ()⟩)
        ⟨(s, n ::ₘ m), ps.set i (p.resume hrest (s, m) ())⟩ := .serve pending hrest ⟨rfl, rfl⟩
    obtain ⟨hlt, -⟩ := List.getElem?_eq_some_iff.mp pending
    obtain ⟨ls, m', p', hrun, hnone, hrest', hplain⟩ :=
      ih (m := n ::ₘ m) (p := p.resume hrest (s, m) ()) (List.getElem?_set_self hlt) hleft
    rw [List.set_set] at hrun
    exact ⟨_, m', p', .cons hstep hrun, hnone, hrest',
      hplain.trans (plain_resume_note erases p hrest (s, m))⟩

/-- Every run of the plain pool is what is left of a run with notes. -/
theorem exists_run_of_plain {s : σ} {ls : List (Label τ Reply)} {pool : Pool sys}
    (h : Run (Step sys) (Pool.start sys s) ls pool) (m : Multiset Note) :
    ∃ ls' pool', Run (Step (recording sys noting)) (Pool.start _ (s, m)) ls' pool' ∧
      ls'.filterMap plainLabel = ls ∧ plainPool erases pool' = pool := by
  induction h with
  | nil => exact ⟨[], _, .nil _, rfl, rfl⟩
  | snoc init last ih =>
    obtain ⟨ls, ⟨⟨s, m'⟩, ps⟩, hrun, hls, rfl⟩ := ih
    cases last with
    | @surroundings _ t _ move =>
      have hstep : Step (recording sys noting) ⟨(s, m'), ps⟩ .surroundings ⟨(t, m'), ps⟩ :=
        .surroundings ⟨move, rfl⟩
      exact ⟨_, _, .snoc hrun hstep, by simp [hls, plainLabel], rfl⟩
    | @launch _ _ tag admitted =>
      have hstep : Step (recording sys noting) ⟨(s, m'), ps⟩ (.launch tag)
          ⟨(s, m'), ps ++ [Process.launched _ tag]⟩ := .launch admitted
      have hlaunched : plain erases (Process.launched (recording sys noting) tag) =
          Process.launched sys tag := process_ext rfl rfl (erases tag)
      exact ⟨_, _, .snoc hrun hstep, by simp [hls, plainLabel], by simp [plainPool, hlaunched]⟩
    | @serve _ t _ i p c k r pending suspended answer =>
      change (ps.map (plain erases))[i]? = some p at pending
      rw [List.getElem?_map, Option.map_eq_some_iff] at pending
      obtain ⟨p, hp, rfl⟩ := pending
      obtain ⟨ns, k', hleft, hrest⟩ := exists_notes_of_erase_eq_await suspended
      obtain ⟨notes, m'', p', hnotes, hnone, hrest', hplain⟩ :=
        run_notes erases (s := s) (m := m') hp hleft
      obtain ⟨hlt, -⟩ := List.getElem?_eq_some_iff.mp hp
      have hstep : Step (recording sys noting) ⟨(s, m''), ps.set i p'⟩ (.serve i ⟨.call c, r⟩)
          ⟨(t, m''), (ps.set i p').set i (p'.resume hrest' (s, m'') r)⟩ :=
        .serve (List.getElem?_set_self hlt) hrest' ⟨answer, rfl⟩
      refine ⟨_, _, .snoc (hrun.trans hnotes) hstep, by simp [hls, hnone, plainLabel], ?_⟩
      have hresumed : plain erases (p'.resume hrest' (s, m'') r) =
          (plain erases p).resume suspended s r := by
        have htag : p'.tag = p.tag := congrArg (fun q : Process sys => q.tag) hplain
        have hlog : plainLog p'.log = plainLog p.log :=
          congrArg (fun q : Process sys => q.log) hplain
        apply process_ext
        · exact htag
        · change plainLog (p'.log ++ _) = plainLog p.log ++ _
          rw [plainLog_append, hlog]
          rfl
        · exact hrest r
      simp only [plainPool, List.set_set, List.map_set, hresumed]

end Records

section Completions

variable {sys : System σ τ Call Reply α}

theorem completes_of_advances {p q : Async Call Reply α} {es rest : List (Event Reply)} {a : α}
    (h : Advances p es q) (completes : Completes q rest a) : Completes p (es ++ rest) a := by
  induction h with
  | refl p => exact completes
  | await tail ih => exact .await (ih completes)

theorem exists_completes [answers : ∀ c, Nonempty (Reply c)] (p : Async Call Reply α) :
    ∃ es a, Completes p es a := by
  induction p with
  | done a => exact ⟨[], a, .done a⟩
  | await c k ih =>
    obtain ⟨r⟩ := answers c
    obtain ⟨es, a, h⟩ := ih r
    exact ⟨⟨c, r⟩ :: es, a, .await h⟩

/-- The log of a process is the beginning of a finished run. -/
theorem log_begins [∀ c, Nonempty (Reply c)] (p : Process sys) :
    ∃ rest a, Completes (sys.program p.tag) (p.log.map Prod.snd ++ rest) a := by
  obtain ⟨rest, a, h⟩ := exists_completes p.rest
  exact ⟨rest, a, completes_of_advances p.advances h⟩

end Completions

end RecordingSystems
