import Mathlib.Algebra.Order.Group.Defs
import Mathlib.Algebra.Order.Group.Basic
import Mathlib.Algebra.Order.Interval.Finset.Basic
import Mathlib.Data.Finset.Card
import Mathlib.Order.Interval.Finset.Nat
import Mathlib.Tactic.Abel

/-!
# Fixed windows

A counter whose window starts with the first hit and is over once its length has elapsed;
the next hit then starts another one. Along hits at instants that never decrease, the hits
of one window are numbered from one on, and two windows start at least a length apart.
-/

namespace FixedWindows

variable {τ : Type}

/-- The start of the current window, and the hits counted in it. -/
structure Window (τ : Type) where
  start : τ
  hits : ℕ
  deriving DecidableEq

section Hits

variable [Sub τ] [LinearOrder τ]

/-- The window after a hit. -/
def hit (length now : τ) : Option (Window τ) → Window τ
  | none => ⟨now, 1⟩
  | some w => if length ≤ now - w.start then ⟨now, 1⟩ else ⟨w.start, w.hits + 1⟩

def record (length : τ) : Option (Window τ) → List τ → List (τ × Window τ)
  | _, [] => []
  | current, now :: rest =>
    (now, hit length now current) :: record length (some (hit length now current)) rest

/-- A hit starts a window, or is one more in the current one. -/
theorem hit_cases (length now : τ) (current : Option (Window τ)) :
    (hit length now current = ⟨now, 1⟩ ∧ ∀ w, current = some w → length ≤ now - w.start) ∨
      ∃ w, current = some w ∧ now - w.start < length ∧
        hit length now current = ⟨w.start, w.hits + 1⟩ := by
  cases current with
  | none => exact .inl ⟨rfl, by simp⟩
  | some w =>
    by_cases helapsed : length ≤ now - w.start
    · refine .inl ⟨if_pos helapsed, ?_⟩
      rintro _ ⟨⟩
      exact helapsed
    · exact .inr ⟨w, rfl, not_le.mp helapsed, if_neg helapsed⟩

theorem one_le_hits (length now : τ) (current : Option (Window τ)) :
    1 ≤ (hit length now current).hits := by
  rcases hit_cases length now current with ⟨h, -⟩ | ⟨w, -, -, h⟩
  · rw [h]
  · rw [h]
    exact Nat.le_add_left _ _

end Hits

section Order

variable [AddCommGroup τ] [LinearOrder τ] [IsOrderedAddMonoid τ] {length now : τ}

def Within (length now : τ) (w : Window τ) : Prop := w.start ≤ now ∧ now < w.start + length

theorem within_hit (positive : 0 < length) {current : Option (Window τ)}
    (started : ∀ w, current = some w → w.start ≤ now) : Within length now (hit length now current) := by
  rcases hit_cases length now current with ⟨h, -⟩ | ⟨w, hw, hlt, h⟩
  · rw [h]
    exact ⟨le_rfl, lt_add_of_pos_right _ positive⟩
  · rw [h]
    exact ⟨started w hw, sub_lt_iff_lt_add'.mp hlt⟩

/-- A later hit has a higher number in the same window, or a window that starts at least
a length later. -/
def Follows (length : τ) (v w : Window τ) : Prop :=
  (w.start = v.start ∧ v.hits < w.hits) ∨ v.start + length ≤ w.start

theorem Follows.trans (positive : 0 < length) {u v w : Window τ} (h : Follows length u v)
    (h' : Follows length v w) : Follows length u w := by
  rcases h with ⟨hs, hn⟩ | hs
  · rcases h' with ⟨hs', hn'⟩ | hs'
    · exact .inl ⟨hs'.trans hs, hn.trans hn'⟩
    · exact .inr (hs ▸ hs')
  · rcases h' with ⟨hs', hn'⟩ | hs'
    · exact .inr (hs'.symm ▸ hs)
    · exact .inr (hs.trans ((le_add_of_nonneg_right positive.le).trans hs'))

theorem follows_hit (w : Window τ) : Follows length w (hit length now (some w)) := by
  rcases hit_cases length now (some w) with ⟨h, helapsed⟩ | ⟨_, ⟨⟩, -, h⟩
  · rw [h]
    exact .inr (le_sub_iff_add_le'.mp (helapsed w rfl))
  · rw [h]
    exact .inl ⟨rfl, Nat.lt_succ_self _⟩

structure Recorded (length : τ) (hits : List (τ × Window τ)) : Prop where
  within : ∀ x ∈ hits, Within length x.1 x.2
  numbered : ∀ x ∈ hits, 1 ≤ x.2.hits
  ordered : hits.Pairwise fun x y => Follows length x.2 y.2

omit [IsOrderedAddMonoid τ] in
theorem Recorded.sublist {hits hits' : List (τ × Window τ)} (h : Recorded length hits)
    (sub : hits'.Sublist hits) : Recorded length hits' :=
  ⟨fun x hx => h.within x (sub.subset hx), fun x hx => h.numbered x (sub.subset hx),
    h.ordered.sublist sub⟩

theorem recorded_record (positive : 0 < length) {instants : List τ}
    (ascending : instants.Pairwise (· ≤ ·)) {current : Option (Window τ)}
    (started : ∀ w, current = some w → ∀ t ∈ instants, w.start ≤ t) :
    Recorded length (record length current instants) ∧
      ∀ w, current = some w → ∀ x ∈ record length current instants, Follows length w x.2 := by
  induction instants generalizing current with
  | nil => exact ⟨⟨by simp [record], by simp [record], .nil⟩, by simp [record]⟩
  | cons now rest ih =>
    obtain ⟨hnow, hrest⟩ := List.pairwise_cons.mp ascending
    have hwithin : Within length now (hit length now current) :=
      within_hit positive fun w hw => started w hw now List.mem_cons_self
    have hlater : ∀ w, some (hit length now current) = some w → ∀ t ∈ rest, w.start ≤ t := by
      rintro _ ⟨⟩ t ht
      exact hwithin.1.trans (hnow t ht)
    obtain ⟨hrecorded, hfollows⟩ := ih hrest hlater
    refine ⟨⟨?_, ?_, ?_⟩, ?_⟩
    · exact List.forall_mem_cons.mpr ⟨hwithin, hrecorded.within⟩
    · exact List.forall_mem_cons.mpr ⟨one_le_hits _ _ _, hrecorded.numbered⟩
    · exact List.pairwise_cons.mpr ⟨hfollows _ rfl, hrecorded.ordered⟩
    · rintro w rfl
      refine List.forall_mem_cons.mpr ⟨follows_hit w, fun x hx => ?_⟩
      exact (follows_hit w).trans positive (hfollows _ rfl x hx)

variable {quota : ℕ} {hits : List (τ × Window τ)}

/-- At most a quota of hits of one window has a number up to the quota. -/
theorem length_le_quota (positive : 0 < length) (h : Recorded length hits)
    (bounded : ∀ x ∈ hits, x.2.hits ≤ quota) {start : τ} (same : ∀ x ∈ hits, x.2.start = start) :
    hits.length ≤ quota := by
  have hascending : (hits.map fun x => x.2.hits).Pairwise (· < ·) := by
    refine List.pairwise_map.mpr (h.ordered.imp_of_mem fun {x y} hx hy hfollows => ?_)
    rcases hfollows with ⟨-, hlt⟩ | hlater
    · exact hlt
    · rw [same x hx, same y hy] at hlater
      exact absurd hlater (not_le.mpr (lt_add_of_pos_right _ positive))
  have hsubset : (hits.map fun x => x.2.hits).toFinset ⊆ Finset.Icc 1 quota := by
    intro n hn
    obtain ⟨x, hx, rfl⟩ := List.mem_map.mp (List.mem_toFinset.mp hn)
    exact Finset.mem_Icc.mpr ⟨h.numbered x hx, bounded x hx⟩
  have hcard := Finset.card_le_card hsubset
  rw [List.toFinset_card_of_nodup (hascending.imp ne_of_lt), List.length_map, Nat.card_Icc] at hcard
  exact hcard

/-- Windows that start in a span of some window lengths hold as many quotas at most. -/
theorem length_le_starts (positive : 0 < length) (h : Recorded length hits)
    (bounded : ∀ x ∈ hits, x.2.hits ≤ quota) {t : τ} (n : ℕ)
    (started : ∀ x ∈ hits, t ≤ x.2.start ∧ x.2.start < t + n • length) :
    hits.length ≤ n * quota := by
  induction n generalizing hits t with
  | zero =>
    cases hits with
    | nil => exact Nat.zero_le _
    | cons first rest =>
      obtain ⟨hbegin, hend⟩ := started first List.mem_cons_self
      rw [zero_nsmul, add_zero] at hend
      exact absurd hend (not_lt.mpr hbegin)
  | succ n ih =>
    cases hits with
    | nil => exact Nat.zero_le _
    | cons first rest =>
      obtain ⟨hfirst, -⟩ := List.pairwise_cons.mp h.ordered
      let same := (first :: rest).filter fun x => x.2.start = first.2.start
      let later := (first :: rest).filter fun x => !decide (x.2.start = first.2.start)
      have hsame : same.length ≤ quota := by
        have hstart : ∀ x ∈ same, x.2.start = first.2.start := fun x hx => by
          simpa using (List.mem_filter.mp hx).2
        exact length_le_quota positive (h.sublist List.filter_sublist)
          (fun x hx => bounded x (List.mem_of_mem_filter hx)) hstart
      have hafter : ∀ x ∈ later, first.2.start + length ≤ x.2.start := by
        intro x hx
        obtain ⟨hx, hne⟩ := List.mem_filter.mp hx
        simp only [Bool.not_eq_true', decide_eq_false_iff_not] at hne
        rcases List.mem_cons.mp hx with rfl | hin
        · exact absurd rfl hne
        · rcases hfirst x hin with ⟨heq, -⟩ | hlater
          · exact absurd heq hne
          · exact hlater
      -- the other windows start a length later, in a span one length shorter
      have hspan : ∀ x ∈ later, first.2.start + length ≤ x.2.start ∧
          x.2.start < first.2.start + length + n • length := by
        intro x hx
        refine ⟨hafter x hx, (started x (List.mem_of_mem_filter hx)).2.trans_le ?_⟩
        rw [succ_nsmul', ← add_assoc]
        have hbegin := (started first List.mem_cons_self).1
        gcongr
      have hlater : later.length ≤ n * quota :=
        ih (h.sublist List.filter_sublist) (fun x hx => bounded x (List.mem_of_mem_filter hx)) hspan
      have hsplit := List.length_eq_length_filter_add (l := first :: rest)
        fun x => decide (x.2.start = first.2.start)
      calc (first :: rest).length = same.length + later.length := hsplit
        _ ≤ quota + n * quota := Nat.add_le_add hsame hlater
        _ = (n + 1) * quota := by rw [Nat.succ_mul, Nat.add_comm]

/-- A span of some window lengths meets one window more at most. -/
theorem length_le_span (positive : 0 < length) (h : Recorded length hits)
    (bounded : ∀ x ∈ hits, x.2.hits ≤ quota) {t : τ} (n : ℕ)
    (interval : ∀ x ∈ hits, t ≤ x.1 ∧ x.1 < t + n • length) : hits.length ≤ (n + 1) * quota := by
  cases hits with
  | nil => exact Nat.zero_le _
  | cons first rest =>
    obtain ⟨hfirst, -⟩ := List.pairwise_cons.mp h.ordered
    have hcurrent := (h.within first List.mem_cons_self).2
    have hbegin : t < first.2.start + length :=
      (interval first List.mem_cons_self).1.trans_lt hcurrent
    have hfrom : ∀ x ∈ first :: rest, first.2.start ≤ x.2.start := by
      intro x hx
      rcases List.mem_cons.mp hx with rfl | hin
      · exact le_rfl
      · rcases hfirst x hin with ⟨heq, -⟩ | hlater
        · exact heq.ge
        · exact (le_add_of_nonneg_right positive.le).trans hlater
    refine length_le_starts positive h bounded (n + 1) fun x hx => ⟨hfrom x hx, ?_⟩
    calc x.2.start ≤ x.1 := (h.within x hx).1
      _ < t + n • length := (interval x hx).2
      _ ≤ first.2.start + length + n • length := by gcongr
      _ = first.2.start + (n + 1) • length := by rw [succ_nsmul', add_assoc]

/-- An interval as long as a window meets two windows at most. -/
theorem length_le_double (positive : 0 < length) (h : Recorded length hits)
    (bounded : ∀ x ∈ hits, x.2.hits ≤ quota) {t : τ}
    (interval : ∀ x ∈ hits, t ≤ x.1 ∧ x.1 < t + length) : hits.length ≤ 2 * quota := by
  apply length_le_span positive h bounded 1
  rwa [one_nsmul]

end Order

end FixedWindows
