import Mathlib.Data.List.Dedup
import Mathlib.Data.List.Induction
import Mathlib.Data.List.Nodup

/-!
# Dictionaries that remember an order

A dictionary lists its items in an order that assignment keeps and that moving a key to
the end changes. Touching keys and dropping the first one whenever there are too many
keeps the keys touched last, in the order of their last touches.
-/

namespace OrderedDicts

variable {κ ν : Type} [DecidableEq κ]

/-- The items of a dictionary in their order, with no key twice. -/
structure OrderedDict (κ ν : Type) where
  items : List (κ × ν)
  nodupKeys : (items.map Prod.fst).Nodup

namespace OrderedDict

variable {d : OrderedDict κ ν} {key other : κ} {value found : ν}

def empty : OrderedDict κ ν := ⟨[], List.nodup_nil⟩

def keys (d : OrderedDict κ ν) : List κ := d.items.map Prod.fst

def length (d : OrderedDict κ ν) : ℕ := d.items.length

def get? (d : OrderedDict κ ν) (key : κ) : Option ν :=
  (d.items.find? fun item => item.1 = key).map Prod.snd

/-- Assignment keeps the place of a key that is there, and appends one that is not. -/
def setItem (d : OrderedDict κ ν) (key : κ) (value : ν) : OrderedDict κ ν :=
  if h : key ∈ d.keys then
    ⟨d.items.map fun item => if item.1 = key then (key, value) else item, by
      have hkeys : (d.items.map fun item => if item.1 = key then (key, value) else item).map Prod.fst =
          d.items.map Prod.fst := by
        rw [List.map_map]
        refine List.map_congr_left fun item _ => ?_
        by_cases hitem : item.1 = key <;> simp [hitem]
      rw [hkeys]
      exact d.nodupKeys⟩
  else
    ⟨d.items ++ [(key, value)], by
      rw [List.map_append, List.map_cons, List.map_nil]
      exact List.nodup_append.mpr ⟨d.nodupKeys, List.nodup_singleton _, by
        rintro a ha b hb rfl
        rw [List.mem_singleton.mp hb] at ha
        exact h ha⟩⟩

def moveToEnd (d : OrderedDict κ ν) (key : κ) : OrderedDict κ ν :=
  ⟨d.items.filter (fun item => item.1 ≠ key) ++ d.items.filter (fun item => item.1 = key), by
    have hperm := List.filter_append_perm (fun item : κ × ν => decide (item.1 ≠ key)) d.items
    have hsame : (d.items.filter fun item => !decide (item.1 ≠ key)) =
        d.items.filter fun item => decide (item.1 = key) := by
      refine List.filter_congr fun item _ => ?_
      by_cases hitem : item.1 = key <;> simp [hitem]
    rw [hsame] at hperm
    exact (hperm.map Prod.fst).nodup_iff.mpr d.nodupKeys⟩

def popFirst (d : OrderedDict κ ν) : OrderedDict κ ν :=
  ⟨d.items.tail, by
    rw [List.map_tail]
    exact d.nodupKeys.tail⟩

theorem get?_eq_some : d.get? key = some value ↔ (key, value) ∈ d.items := by
  unfold get?
  rw [Option.map_eq_some_iff]
  constructor
  · rintro ⟨⟨k, v⟩, hfind, rfl⟩
    have hkey := List.find?_some hfind
    simp only [decide_eq_true_eq] at hkey
    subst hkey
    exact List.mem_of_find?_eq_some hfind
  · intro hmem
    have hsome : (d.items.find? fun item => item.1 = key).isSome :=
      List.find?_isSome.mpr ⟨(key, value), hmem, decide_eq_true rfl⟩
    obtain ⟨item, hitem⟩ := Option.isSome_iff_exists.mp hsome
    have hkey := List.find?_some hitem
    simp only [decide_eq_true_eq] at hkey
    have hsame : item = (key, value) :=
      List.inj_on_of_nodup_map d.nodupKeys (List.mem_of_find?_eq_some hitem) hmem hkey
    exact ⟨item, hitem, by rw [hsame]⟩

theorem mem_keys : key ∈ d.keys ↔ ∃ value, d.get? key = some value := by
  simp only [get?_eq_some, keys, List.mem_map]
  constructor
  · rintro ⟨⟨k, v⟩, hmem, rfl⟩
    exact ⟨v, hmem⟩
  · rintro ⟨v, hmem⟩
    exact ⟨_, hmem, rfl⟩

theorem get?_eq_none : d.get? key = none ↔ key ∉ d.keys := by
  rw [mem_keys, ← Option.not_isSome_iff_eq_none, Option.isSome_iff_exists]

/-- Two dictionaries agree on a key when they have the same items under it. -/
theorem get?_congr {d' : OrderedDict κ ν}
    (h : ∀ value, (key, value) ∈ d.items ↔ (key, value) ∈ d'.items) : d.get? key = d'.get? key := by
  refine Option.ext fun value => ?_
  rw [get?_eq_some, get?_eq_some, h]

@[simp] theorem get?_empty : (empty : OrderedDict κ ν).get? key = none := rfl

omit [DecidableEq κ] in
@[simp] theorem keys_empty : (empty : OrderedDict κ ν).keys = [] := rfl

omit [DecidableEq κ] in
theorem length_keys : d.keys.length = d.length := List.length_map ..

theorem mem_setItem {item : κ × ν} : item ∈ (d.setItem key value).items ↔
    item = (key, value) ∨ (item.1 ≠ key ∧ item ∈ d.items) := by
  unfold setItem
  split_ifs with hkey
  · obtain ⟨⟨k, v⟩, hmem, rfl⟩ := List.mem_map.mp hkey
    simp only [List.mem_map]
    constructor
    · rintro ⟨old, hold, rfl⟩
      by_cases h : old.1 = k
      · exact .inl (by simp [h])
      · exact .inr ⟨by simp [h], by simpa [h] using hold⟩
    · rintro (rfl | ⟨hne, hold⟩)
      · exact ⟨(k, v), hmem, by simp⟩
      · exact ⟨item, hold, by simp [hne]⟩
  · simp only [List.mem_append, List.mem_singleton]
    constructor
    · rintro (hold | rfl)
      · exact .inr ⟨fun h => hkey (h ▸ List.mem_map_of_mem hold), hold⟩
      · exact .inl rfl
    · rintro (rfl | ⟨-, hold⟩)
      · exact .inr rfl
      · exact .inl hold

@[simp] theorem get?_setItem_self : (d.setItem key value).get? key = some value := by
  rw [get?_eq_some, mem_setItem]
  exact .inl rfl

theorem get?_setItem_of_ne (h : other ≠ key) : (d.setItem key value).get? other = d.get? other := by
  refine get?_congr fun found => ?_
  rw [mem_setItem]
  simp [h]

@[simp] theorem mem_moveToEnd {item : κ × ν} : item ∈ (d.moveToEnd key).items ↔ item ∈ d.items := by
  simp only [moveToEnd, List.mem_append, List.mem_filter]
  by_cases h : item.1 = key <;> simp [h]

@[simp] theorem get?_moveToEnd : (d.moveToEnd key).get? other = d.get? other :=
  get?_congr fun _ => mem_moveToEnd

theorem keys_setItem : (d.setItem key value).keys =
    if key ∈ d.keys then d.keys else d.keys ++ [key] := by
  unfold setItem
  split_ifs with hkey
  · simp only [keys, List.map_map]
    refine List.map_congr_left fun item _ => ?_
    by_cases hitem : item.1 = key <;> simp [hitem]
  · simp [keys]

omit [DecidableEq κ] in
theorem nodup_keys : d.keys.Nodup := d.nodupKeys

theorem keys_moveToEnd (h : key ∈ d.keys) :
    (d.moveToEnd key).keys = d.keys.erase key ++ [key] := by
  have hothers : (d.items.filter fun item => decide (item.1 ≠ key)).map Prod.fst =
      d.keys.erase key := by
    rw [List.Nodup.erase_eq_filter nodup_keys, keys, List.filter_map]
    refine congrArg (List.map Prod.fst) (List.filter_congr fun item _ => ?_)
    by_cases hitem : item.1 = key <;> simp [hitem]
  have hkey : (d.items.filter fun item => decide (item.1 = key)).map Prod.fst = [key] := by
    have hfilter : (d.items.filter fun item => decide (item.1 = key)).map Prod.fst =
        d.keys.filter fun k => decide (k = key) := by
      rw [keys, List.filter_map]
      rfl
    have hcount := List.count_eq_one_of_mem nodup_keys h
    rw [hfilter, List.filter_eq, hcount, List.replicate_one]
  rw [moveToEnd, keys, List.map_append, hothers, hkey]

/-- A key that was set and moved to the end is the last one. -/
theorem keys_touched : ((d.setItem key value).moveToEnd key).keys = d.keys.erase key ++ [key] := by
  have hmem : key ∈ (d.setItem key value).keys := mem_keys.mpr ⟨value, get?_setItem_self⟩
  rw [keys_moveToEnd hmem, keys_setItem]
  split_ifs with hkey
  · rfl
  · rw [List.erase_append_right _ hkey, List.erase_of_not_mem hkey]
    simp

omit [DecidableEq κ] in
@[simp] theorem keys_popFirst : d.popFirst.keys = d.keys.tail := List.map_tail ..

theorem get?_popFirst {rest : List κ} {first : κ} (h : d.keys = first :: rest)
    (hne : other ≠ first) : d.popFirst.get? other = d.get? other := by
  refine get?_congr fun found => ?_
  obtain ⟨item, items, hitems, rfl, -⟩ := List.map_eq_cons_iff.mp h
  simp only [popFirst, hitems, List.tail_cons, List.mem_cons]
  refine (or_iff_right ?_).symm
  rintro rfl
  exact hne rfl

end OrderedDict

theorem exists_last {α : Type} {P : α → Prop} {l : List α} (h : ∃ x ∈ l, P x) :
    ∃ before x after, l = before ++ x :: after ∧ P x ∧ ∀ y ∈ after, ¬ P y := by
  induction l using List.reverseRecOn with
  | nil => simp at h
  | append_singleton l a ih =>
    by_cases ha : P a
    · exact ⟨l, a, [], rfl, ha, by simp⟩
    · obtain ⟨x, hx, hP⟩ := h
      have hold : x ∈ l := by
        refine (List.mem_append.mp hx).resolve_right fun hlast => ?_
        exact ha (List.mem_singleton.mp hlast ▸ hP)
      obtain ⟨before, y, after, rfl, hy, hafter⟩ := ih ⟨x, hold, hP⟩
      refine ⟨before, y, after ++ [a], by simp, hy, fun z hz => ?_⟩
      rcases List.mem_append.mp hz with hz | hz
      · exact hafter z hz
      · exact List.mem_singleton.mp hz ▸ ha

def lastN {α : Type} (n : ℕ) (l : List α) : List α := l.drop (l.length - n)

theorem length_lastN_le {α : Type} (n : ℕ) (l : List α) : (lastN n l).length ≤ n := by
  rw [lastN, List.length_drop]
  omega

theorem lastN_of_length_le {α : Type} {n : ℕ} {l : List α} (h : l.length ≤ n) : lastN n l = l := by
  rw [lastN, Nat.sub_eq_zero_of_le h, List.drop_zero]

theorem lastN_append {α : Type} {n : ℕ} (l l' : List α) (h : l'.length ≤ n) :
    lastN n (l ++ l') = lastN (n - l'.length) l ++ l' := by
  have hsplit : (l ++ l').length - n = l.length - (n - l'.length) := by
    rw [List.length_append]
    omega
  rw [lastN, hsplit, List.drop_append_of_le_length (Nat.sub_le _ _), lastN]

theorem tail_of_length_eq {α : Type} {n : ℕ} {l : List α} (h : l.length = n + 1) :
    l.tail = lastN n l := by
  rw [lastN, h, Nat.add_sub_cancel_left, List.drop_one]

/-- The distinct elements in the order of their last occurrences, with one more occurrence. -/
theorem dedup_append_singleton (l : List κ) (key : κ) :
    (l ++ [key]).dedup = l.dedup.erase key ++ [key] := by
  induction l with
  | nil => simp
  | cons a l ih =>
    rw [List.cons_append]
    by_cases hal : a ∈ l
    · rw [List.dedup_cons_of_mem (List.mem_append_left _ hal), List.dedup_cons_of_mem hal, ih]
    · rw [List.dedup_cons_of_notMem hal]
      by_cases hkey : a = key
      · subst hkey
        rw [List.dedup_cons_of_mem (by simp), ih, List.erase_cons_head,
          List.erase_of_not_mem (by simpa using hal)]
      · rw [List.dedup_cons_of_notMem (by simp [hal, hkey]), ih,
          List.erase_cons_tail (by simpa using hkey), List.cons_append]

theorem lastN_append_of_le {α : Type} {n : ℕ} (l : List α) {l' : List α} (h : n ≤ l'.length) :
    lastN n (l ++ l') = lastN n l' := by
  have hsplit : (l ++ l').length - n = l.length + (l'.length - n) := by
    rw [List.length_append]
    omega
  rw [lastN, hsplit, ← List.drop_drop, List.drop_left, lastN]

/-- Of the keys touched last, touching one more keeps as many. -/
theorem lastN_erase_append {n : ℕ} (hn : 0 < n) {l : List κ} (hl : l.Nodup) (key : κ) :
    lastN n ((lastN n l).erase key ++ [key]) = lastN n (l.erase key ++ [key]) := by
  rw [lastN_append _ [key] hn, lastN_append _ [key] hn, List.length_singleton]
  apply congrArg (· ++ [key])
  rcases Nat.lt_or_ge l.length n with hlt | hge
  · rw [lastN_of_length_le (Nat.le_of_lt hlt)]
  have hsplit : l.take (l.length - n) ++ lastN n l = l := List.take_append_drop ..
  have hlength : (lastN n l).length = n := by
    rw [lastN, List.length_drop]
    omega
  generalize l.take (l.length - n) = before at hsplit
  generalize lastN n l = last at hsplit hlength
  subst hsplit
  -- what is dropped in front does not matter, and the key is on one side only
  obtain ⟨rest, hrest⟩ : ∃ rest, (before ++ last).erase key = rest ++ last.erase key := by
    rw [List.erase_append]
    split_ifs with hbefore
    · have hout : key ∉ last := fun h => (List.nodup_append.mp hl).2.2 key hbefore key h rfl
      exact ⟨before.erase key, by rw [List.erase_of_not_mem hout]⟩
    · exact ⟨before, rfl⟩
  have hlong : n - 1 ≤ (last.erase key).length := by
    rw [← hlength]
    exact List.le_length_erase
  rw [hrest, lastN_append_of_le _ hlong]

end OrderedDicts
