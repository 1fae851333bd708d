import Mathlib.Data.List.DropRight
import PolicyModelRouter.Uuids

/-!
# Reading an identifier from its text

The constructor of identifiers drops the decoration of its text and reads the rest as a
number in base sixteen, with all the liberties that numbers have: white space around them,
a sign, a marker of the base, underscores between the digits, digits of other scripts.
-/

namespace UuidTexts
open DigitStrings Uuids

/-- The interpreter's tables for characters beyond ASCII. -/
class NumeralTables where
  isSpace : ℕ → Bool
  decimal : ℕ → Option (Fin 10)

/-- ASCII text is left alone; in any other text spaces and digits become those of ASCII. -/
def transformDecimalAndSpace [NumeralTables] (text : List ℕ) : List ℕ :=
  if text.all (· < 128) then text
  else text.map fun c =>
    if c < 127 then c
    else if NumeralTables.isSpace c then ' '.toNat
    else match NumeralTables.decimal c with
      | some d => '0'.toNat + d
      | none => '?'.toNat

def isAsciiSpace (c : ℕ) : Bool := (9 ≤ c && c ≤ 13) || c == 32

def hexValue (c : ℕ) : Option ℕ :=
  if 48 ≤ c ∧ c ≤ 57 then some (c - 48)
  else if 97 ≤ c ∧ c ≤ 102 then some (c - 87)
  else if 65 ≤ c ∧ c ≤ 70 then some (c - 55)
  else none

/-- A letter of a run of digits, which underscores may group. -/
def inRun (c : ℕ) : Bool := (hexValue c).isSome || c == '_'.toNat

/-- The marker of base sixteen, which an underscore may follow. -/
def skipMarker : List ℕ → List ℕ
  | 48 :: x :: rest =>
    if x = 'x'.toNat ∨ x = 'X'.toNat then
      match rest with
      | 95 :: rest => rest
      | _ => rest
    else 48 :: x :: rest
  | text => text

def doubled : List ℕ → Bool
  | a :: b :: rest => (a == '_'.toNat && b == '_'.toNat) || doubled (b :: rest)
  | _ => false

/-- The run is not empty, and each underscore in it is between two digits. -/
def wellFormed (run : List ℕ) : Bool :=
  run ≠ [] && run.head? ≠ some '_'.toNat && run.getLast? ≠ some '_'.toNat && !doubled run

def number (digits : List ℕ) : ℕ := digits.foldl (fun n d => 16 * n + d) 0

def int16 [NumeralTables] (text : List ℕ) : Option ℕ :=
  let trimmed := (transformDecimalAndSpace text).dropWhile isAsciiSpace
  let unsigned := if trimmed.head? = some '+'.toNat then trimmed.tail else trimmed
  let digits := skipMarker unsigned
  let run := digits.takeWhile inRun
  if wellFormed run && (digits.dropWhile inRun).all isAsciiSpace then
    some (number (run.filterMap hexValue))
  else none

/-- Every occurrence of a needle removed, from left to right; `skip` letters of the last one
are still to go. -/
def removed (needle : List ℕ) : (skip : ℕ) → List ℕ → List ℕ
  | _, [] => []
  | skip + 1, _ :: rest => removed needle skip rest
  | 0, c :: rest =>
    if needle.isPrefixOf (c :: rest) then removed needle (needle.length - 1) rest
    else c :: removed needle 0 rest

def codes (s : String) : List ℕ := s.toList.map Char.toNat

def isBrace (c : ℕ) : Bool := c == '\x7b'.toNat || c == '\x7d'.toNat

def uuidDigits (text : List ℕ) : List ℕ :=
  let bare := removed (codes "uuid:") 0 (removed (codes "urn:") 0 text)
  ((bare.dropWhile isBrace).rdropWhile isBrace).filter (· ≠ '-'.toNat)

def uuidOf [NumeralTables] (text : List ℕ) : Option UUID :=
  let digits := uuidDigits text
  if digits.length = 32 then
    (int16 digits).bind fun n => if h : n < 2 ^ 128 then some ⟨⟨n, h⟩⟩ else none
  else none

section Digits

variable {c d : ℕ} {digits : List ℕ}

/-- A letter with a value is neither a space nor a sign, and no decoration. -/
theorem hexValue_spec (h : (hexValue c).isSome) :
    c < 127 ∧ isAsciiSpace c = false ∧ c ≠ '+'.toNat ∧ c ≠ '-'.toNat ∧ c ≠ '_'.toNat ∧ c ≠ ':'.toNat ∧
      c ≠ 'x'.toNat ∧ c ≠ 'X'.toNat ∧ isBrace c = false := by
  have hrange : (48 ≤ c ∧ c ≤ 57) ∨ (97 ≤ c ∧ c ≤ 102) ∨ 65 ≤ c ∧ c ≤ 70 := by
    unfold hexValue at h
    split_ifs at h with h₁ h₂ h₃
    · exact .inl h₁
    · exact .inr (.inl h₂)
    · exact .inr (.inr h₃)
    · cases h
  simp only [isAsciiSpace, isBrace, Char.reduceToNat, Bool.or_eq_false_iff, Bool.and_eq_false_iff,
    decide_eq_false_iff_not, beq_eq_false_iff_ne, ne_eq]
  omega

private theorem number_append_singleton (ds : List ℕ) (d : ℕ) : number
    (ds ++ [d]) = 16 * number ds + d := by
  simp [number, List.foldl_append]

theorem number_lt (h : ∀ d ∈ digits, d < 16) : number digits < 16 ^ digits.length := by
  induction digits using List.reverseRecOn with
  | nil => simp [number]
  | append_singleton ds d ih =>
    have hd := h d (by simp)
    have hds := ih fun e he => h e (by simp [he])
    rw [number_append_singleton, List.length_append, List.length_singleton, pow_succ]
    omega

private theorem doubled_of_digits (h : ∀ c ∈ digits, (hexValue c).isSome) : doubled digits = false := by
  induction digits with
  | nil => rfl
  | cons a rest ih =>
    cases rest with
    | nil => rfl
    | cons b rest =>
      have ha := (hexValue_spec (h a List.mem_cons_self)).2.2.2.2.1
      simp only [doubled, beq_eq_false_iff_ne.mpr ha, Bool.false_and, Bool.false_or]
      exact ih fun c hc => h c (List.mem_cons_of_mem _ hc)

private theorem wellFormed_of_digits (nonempty : digits ≠ []) (h : ∀ c ∈ digits, (hexValue c).isSome) :
    wellFormed digits = true := by
  have hne : ∀ c ∈ digits, c ≠ '_'.toNat := fun c hc => (hexValue_spec (h c hc)).2.2.2.2.1
  have hhead : digits.head? ≠ some '_'.toNat := fun hc => hne _ (List.mem_of_head? hc) rfl
  have hlast : digits.getLast? ≠ some '_'.toNat := fun hc => hne _ (List.mem_of_getLast? hc) rfl
  rw [wellFormed, doubled_of_digits h]
  simp only [ne_eq, nonempty, hhead, hlast, not_false_eq_true, decide_true, Bool.and_self, Bool.not_false]

private theorem skipMarker_of_digits (h : ∀ c ∈ digits, (hexValue c).isSome) :
    skipMarker digits = digits := by
  unfold skipMarker
  split
  · rename_i x rest
    have hx := hexValue_spec (h x (by simp))
    exact if_neg (by tauto)
  · rfl

variable [NumeralTables]

theorem int16_of_digits (nonempty : digits ≠ []) (h : ∀ c ∈ digits, (hexValue c).isSome) :
    int16 digits = some (number (digits.filterMap hexValue)) := by
  have hascii : transformDecimalAndSpace digits = digits := by
    refine if_pos (List.all_eq_true.mpr fun c hc => decide_eq_true ?_)
    have := (hexValue_spec (h c hc)).1
    omega
  obtain ⟨c, rest, rfl⟩ := List.exists_cons_of_ne_nil nonempty
  have hc := hexValue_spec (h c List.mem_cons_self)
  have htrimmed : (c :: rest).dropWhile isAsciiSpace = c :: rest := by
    rw [List.dropWhile_cons, hc.2.1]
    rfl
  have hsign : (c :: rest).head? ≠ some '+'.toNat := fun heq => hc.2.2.1 (Option.some.inj heq)
  have hrun : ∀ d ∈ c :: rest, inRun d = true := fun d hd => by simp [inRun, h d hd]
  simp only [int16, hascii, htrimmed, if_neg hsign, skipMarker_of_digits h, List.takeWhile_eq_self_iff.mpr hrun,
    List.dropWhile_eq_nil_iff.mpr hrun, wellFormed_of_digits nonempty h, List.all_nil, Bool.and_self, if_true]

omit [NumeralTables] in
private theorem hexValue_digitChar {d : ℕ} (h : d < 16) : hexValue
    (Nat.digitChar d).toNat = some d := by
  have table : ∀ d < 16, hexValue (Nat.digitChar d).toNat = some d := by decide
  exact table d h

omit [NumeralTables] in
theorem hexValue_of_padded {width n c : ℕ} (h : c ∈ (padded 16 width n).map Char.toNat) :
    (hexValue c).isSome := by
  obtain ⟨letter, hletter, rfl⟩ := List.mem_map.mp h
  obtain ⟨d, hd, rfl⟩ := mem_padded (by decide) hletter
  rw [hexValue_digitChar hd]
  rfl

omit [NumeralTables] in
theorem number_padded {width n : ℕ} (h : n < 16 ^ width) :
    number (((padded 16 width n).map Char.toNat).filterMap hexValue) = n := by
  induction width generalizing n with
  | zero =>
    rw [pow_zero, Nat.lt_one_iff] at h
    subst h
    rfl
  | succ width ih =>
    have hdiv : n / 16 < 16 ^ width := Nat.div_lt_of_lt_mul (by rwa [pow_succ, Nat.mul_comm] at h)
    have hmod : n % 16 < 16 := Nat.mod_lt _ (by decide)
    rw [padded, List.map_append, List.filterMap_append, List.map_cons, List.map_nil,
      List.filterMap_cons_some (hexValue_digitChar hmod), List.filterMap_nil, number_append_singleton,
      ih hdiv]
    omega

end Digits

section Reading

variable {text needle : List ℕ}

/-- A needle with a letter of its own does not occur. -/
theorem removed_eq_self {c : ℕ} (own : c ∈ needle) (absent : c ∉ text) :
    removed needle 0 text = text := by
  induction text with
  | nil => rfl
  | cons a rest ih =>
    have hprefix : needle.isPrefixOf (a :: rest) = false := by
      refine Bool.eq_false_iff.mpr fun h => absent ?_
      exact (List.isPrefixOf_iff_prefix.mp h).subset own
    rw [removed, hprefix, ih fun h => absent (List.mem_cons_of_mem _ h)]
    rfl

private theorem dropWhile_eq_self {p : ℕ → Bool} (h : ∀ c ∈ text, p c = false) :
    text.dropWhile p = text := by
  cases text with
  | nil => rfl
  | cons c rest => rw [List.dropWhile_cons, h c List.mem_cons_self]; rfl

private theorem rdropWhile_eq_self {p : ℕ → Bool} (h : ∀ c ∈ text, p c = false) :
    text.rdropWhile p = text := by
  rw [List.rdropWhile_eq_self_iff]
  intro hne hlast
  rw [h _ (List.getLast_mem hne)] at hlast
  cases hlast

/-- Hyphens between digits are all the decoration there is. -/
theorem uuidDigits_of_hyphenated (h : ∀ c ∈ text, (hexValue c).isSome ∨ c = '-'.toNat) :
    uuidDigits text = text.filter (· ≠ '-'.toNat) := by
  have hcolon : ':'.toNat ∉ text := fun hmem => by
    rcases h _ hmem with hdigit | hhyphen
    · exact (hexValue_spec hdigit).2.2.2.2.2.1 rfl
    · exact absurd hhyphen (by decide)
  have hbrace : ∀ c ∈ text, isBrace c = false := by
    intro c hc
    rcases h c hc with hdigit | rfl
    · exact (hexValue_spec hdigit).2.2.2.2.2.2.2.2
    · rfl
  have hurn : ':'.toNat ∈ codes "urn:" := by decide
  have huuid : ':'.toNat ∈ codes "uuid:" := by decide
  rw [uuidDigits, removed_eq_self hurn hcolon, removed_eq_self huuid hcolon,
    dropWhile_eq_self hbrace, rdropWhile_eq_self hbrace]

/-- The letters of an identifier's text are the padded digits of its number, and hyphens. -/
theorem mem_codes_str {u : UUID} {c : ℕ} (h : c ∈ codes u.str) :
    (hexValue c).isSome ∨ c = '-'.toNat := by
  obtain ⟨letter, hletter, rfl⟩ := List.mem_map.mp h
  have hpadded : ∀ letter ∈ padded 16 32 u.int, (hexValue letter.toNat).isSome := fun letter hletter =>
    hexValue_of_padded (List.mem_map_of_mem hletter)
  simp only [UUID.str, String.toList_ofList, List.mem_append, List.mem_cons] at hletter
  rcases hletter with h | rfl | h | rfl | h | rfl | h | rfl | h
  · exact .inl (hpadded _ (List.mem_of_mem_take h))
  · exact .inr rfl
  · exact .inl (hpadded _ (List.mem_of_mem_drop (List.mem_of_mem_take h)))
  · exact .inr rfl
  · exact .inl (hpadded _ (List.mem_of_mem_drop (List.mem_of_mem_take h)))
  · exact .inr rfl
  · exact .inl (hpadded _ (List.mem_of_mem_drop (List.mem_of_mem_take h)))
  · exact .inr rfl
  · exact .inl (hpadded _ (List.mem_of_mem_drop h))

/-- Without its hyphens the text is the number in 32 digits. -/
theorem filter_codes_str (u : UUID) :
    (codes u.str).filter (· ≠ '-'.toNat) = (padded 16 32 u.int).map Char.toNat := by
  have hplain : ∀ piece : List Char, (∀ letter ∈ piece, letter ∈ padded 16 32 u.int) →
      (piece.map Char.toNat).filter (· ≠ '-'.toNat) = piece.map Char.toNat := by
    intro piece hpiece
    refine List.filter_eq_self.mpr fun c hc => ?_
    obtain ⟨letter, hletter, rfl⟩ := List.mem_map.mp hc
    have hdigit := hexValue_of_padded (List.mem_map_of_mem (f := Char.toNat) (hpiece letter hletter))
    exact decide_eq_true (hexValue_spec hdigit).2.2.2.1
  have hhyphen : ∀ rest : List ℕ, ('-'.toNat :: rest).filter (· ≠ '-'.toNat) =
      rest.filter (· ≠ '-'.toNat) := fun rest => List.filter_cons_of_neg (by simp)
  conv_rhs => rw [← append_pieces (padded 16 32 u.int)]
  simp only [codes, UUID.str, String.toList_ofList, List.map_append, List.map_cons, List.filter_append,
    hhyphen]
  rw [hplain _ fun _ h => List.mem_of_mem_take h,
    hplain _ fun _ h => List.mem_of_mem_drop (List.mem_of_mem_take h),
    hplain _ fun _ h => List.mem_of_mem_drop (List.mem_of_mem_take h),
    hplain _ fun _ h => List.mem_of_mem_drop (List.mem_of_mem_take h),
    hplain _ fun _ h => List.mem_of_mem_drop h]

/-- The text of an identifier is read as that identifier. -/
theorem uuidOf_str [NumeralTables] (u : UUID) : uuidOf (codes u.str) = some u := by
  have hdigits : uuidDigits (codes u.str) = (padded 16 32 u.int).map Char.toNat :=
    (uuidDigits_of_hyphenated fun c hc => mem_codes_str hc).trans (filter_codes_str u)
  have hlength : ((padded 16 32 u.int).map Char.toNat).length = 32 := by
    rw [List.length_map, length_padded]
  have hsmall : u.int.val < 16 ^ 32 := by
    have := u.int.isLt
    omega
  have hread : int16 ((padded 16 32 u.int).map Char.toNat) = some u.int.val := by
    rw [int16_of_digits (List.ne_nil_of_length_pos (by omega)) fun c hc => hexValue_of_padded hc,
      number_padded hsmall]
  simp only [uuidOf, hdigits, hlength, if_true, hread, Option.bind_some]
  rw [dif_pos u.int.isLt]

end Reading

end UuidTexts
