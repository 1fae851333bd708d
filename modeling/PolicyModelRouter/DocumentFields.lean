import PolicyModelRouter.RuntimeControl

/-!
# Fields of decoded documents

Which keys a document has, and the same document with another value under one of them.
-/

namespace PolicyModelRouter.DocumentFields
open RuntimeControl

abbrev Fields := List (List ℕ × PyValue)

def onlyFields (names : List String) (fields : Fields) : Bool :=
  fields.all fun field => field.1 ∈ names.map points

def hasExactly (names : List String) (fields : Fields) : Bool :=
  fields.all (fun field => field.1 ∈ names.map points) &&
    names.all fun name => points name ∈ fields.map Prod.fst

def withField (fields : Fields) (name : String) (v : PyValue) : Fields :=
  fields.map fun field => if field.1 = points name then (field.1, v) else field

variable {fields : Fields} {names : List String} {name : String} {v : PyValue} {key : List ℕ}

theorem isSome_lookup_iff : (fields.lookup key).isSome = true ↔ key ∈ fields.map Prod.fst := by
  induction fields with
  | nil => simp
  | cons field fields ih =>
    obtain ⟨k, value⟩ := field
    rw [List.lookup_cons, List.map_cons, List.mem_cons, ← ih]
    by_cases hkey : key = k
    · simp [hkey]
    · have hne : (key == k) = false := beq_eq_false_iff_ne.mpr hkey
      simp [hne, hkey]

theorem onlyFields_iff :
    onlyFields names fields = true ↔ ∀ key ∈ fields.map Prod.fst, key ∈ names.map points := by
  simp only [onlyFields, List.all_eq_true, decide_eq_true_eq, List.forall_mem_map]

theorem hasExactly_iff : hasExactly names fields = true ↔
    ∀ key, key ∈ fields.map Prod.fst ↔ key ∈ names.map points := by
  simp only [hasExactly, Bool.and_eq_true, List.all_eq_true, decide_eq_true_eq]
  constructor
  · rintro ⟨hall, hpresent⟩ key
    constructor
    · intro hkey
      obtain ⟨field, hfield, rfl⟩ := List.mem_map.mp hkey
      exact hall field hfield
    · intro hkey
      obtain ⟨name, hname, rfl⟩ := List.mem_map.mp hkey
      exact hpresent name hname
  · intro h
    exact ⟨fun field hfield => (h _).mp (List.mem_map_of_mem hfield),
      fun name hname => (h _).mpr (List.mem_map_of_mem hname)⟩

theorem map_fst_withField : (withField fields name v).map Prod.fst = fields.map Prod.fst := by
  rw [withField, List.map_map]
  refine List.map_congr_left fun field _ => ?_
  rw [Function.comp_apply]
  split_ifs <;> rfl

theorem hasExactly_withField (h : hasExactly names fields = true) :
    hasExactly names (withField fields name v) = true := by
  rw [hasExactly_iff, map_fst_withField]
  exact hasExactly_iff.mp h

theorem lookup_withField_of_ne (h : key ≠ points name) :
    (withField fields name v).lookup key = fields.lookup key := by
  induction fields with
  | nil => rfl
  | cons field fields ih =>
    obtain ⟨k, value⟩ := field
    simp only [withField, List.map_cons]
    by_cases hkey : k = points name
    · have hne : (key == k) = false := beq_eq_false_iff_ne.mpr (hkey ▸ h)
      rw [if_pos hkey, List.lookup_cons, List.lookup_cons, hne]
      exact ih
    · rw [if_neg hkey, List.lookup_cons, List.lookup_cons]
      cases key == k with
      | true => rfl
      | false => exact ih

theorem lookup_withField_self {old : PyValue} (h : fields.lookup (points name) = some old) :
    (withField fields name v).lookup (points name) = some v := by
  induction fields with
  | nil => cases h
  | cons field fields ih =>
    obtain ⟨k, value⟩ := field
    simp only [withField, List.map_cons]
    rw [List.lookup_cons] at h
    by_cases hkey : k = points name
    · rw [if_pos hkey, List.lookup_cons, hkey, beq_self_eq_true]
    · have hne : (points name == k) = false := beq_eq_false_iff_ne.mpr (Ne.symm hkey)
      rw [hne] at h
      rw [if_neg hkey, List.lookup_cons, hne]
      exact ih h

end PolicyModelRouter.DocumentFields
