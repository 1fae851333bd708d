import PolicyModelRouter.NumeralOrder
import PolicyModelRouter.RouteEndpoint

/-!
# Declared body lengths

The check of the declared length compares digit strings and computes no number. It decides
as the comparison of the numbers does, and every list of header fields that does not hold
one well-formed length is refused or declares none.
-/

namespace PolicyModelRouter.DeclaredLengths
open AuthorizationContract DigitStrings NumeralOrder PythonText RouteEndpoint

def isContentLength (name : Bytes) : Bool := name.map lowerAscii = ascii "content-length"

/-- The values of the Content-Length fields, in the order of the list. -/
def declarations (headers : List (Bytes × Bytes)) : List Bytes :=
  (headers.filter fun field => isContentLength field.1).map Prod.snd

def decimal : Digits UInt8 10 where
  isDigit := isAsciiDigit
  value b := b.toNat - 48
  zero := 48
  isDigit_zero := by decide
  value_zero := by decide
  value_lt b h := by
    simp only [isAsciiDigit, Bool.and_eq_true, decide_eq_true_eq, UInt8.le_iff_toNat_le] at h
    have hlow : 48 ≤ b.toNat := h.1
    have hhigh : b.toNat ≤ 57 := h.2
    omega
  value_lt_value a b ha hb := by
    simp only [isAsciiDigit, Bool.and_eq_true, decide_eq_true_eq, UInt8.le_iff_toNat_le] at ha hb
    have ha : 48 ≤ a.toNat := ha.1
    have hb : 48 ≤ b.toNat := hb.1
    rw [UInt8.lt_iff_toNat_lt]
    omega
  value_inj a b ha hb h := by
    simp only [isAsciiDigit, Bool.and_eq_true, decide_eq_true_eq, UInt8.le_iff_toNat_le] at ha hb
    have ha : 48 ≤ a.toNat := ha.1
    have hb : 48 ≤ b.toNat := hb.1
    exact UInt8.toNat_inj.mp (by omega)

/-- A field value that denotes a number: a digit string between blanks. -/
inductive Denotes : Bytes → ℕ → Prop where
  | between {before digits after : Bytes} (blankBefore : ∀ b ∈ before, isBlank b = true)
      (blankAfter : ∀ b ∈ after, isBlank b = true) (given : digits ≠ [])
      (numeral : decimal.IsNumeral digits) :
      Denotes (before ++ digits ++ after) (decimal.number digits)

theorem declarations_cons_of_named {name value : Bytes} {rest : List (Bytes × Bytes)}
    (named : name.map lowerAscii = ascii "content-length") :
    declarations ((name, value) :: rest) = value :: declarations rest := by
  simp [declarations, isContentLength, named]

theorem declarations_cons_of_not_named {name value : Bytes} {rest : List (Bytes × Bytes)}
    (other : name.map lowerAscii ≠ ascii "content-length") :
    declarations ((name, value) :: rest) = declarations rest := by
  simp [declarations, isContentLength, other]

def trimmed (value : Bytes) : Bytes := (value.dropWhile isBlank).rdropWhile isBlank

/-- Once a field was found, every other one is an error. -/
theorem contentLength_found (headers : List (Bytes × Bytes)) (found : Bytes) :
    contentLength headers (some found) =
      if declarations headers = [] then some (some found) else none := by
  induction headers with
  | nil => rfl
  | cons field rest ih =>
    obtain ⟨name, value⟩ := field
    unfold contentLength
    by_cases hname : name.map lowerAscii = ascii "content-length"
    · rw [if_pos hname, declarations_cons_of_named hname]
      simp
    · rw [if_neg hname, declarations_cons_of_not_named hname, ih]

private theorem contentLength_none_iff {headers : List (Bytes × Bytes)} :
    contentLength headers none = some none ↔ declarations headers = [] := by
  induction headers with
  | nil => simp [contentLength, declarations]
  | cons field rest ih =>
    obtain ⟨name, value⟩ := field
    unfold contentLength
    by_cases hname : name.map lowerAscii = ascii "content-length"
    · rw [if_pos hname, declarations_cons_of_named hname]
      simp only [contentLength_found]
      split_ifs <;> simp
    · rw [if_neg hname, declarations_cons_of_not_named hname, ih]

private theorem contentLength_one_iff {headers : List (Bytes × Bytes)} {found : Bytes} :
    contentLength headers none = some (some found) ↔
      ∃ value, declarations headers = [value] ∧ trimmed value = found := by
  induction headers with
  | nil => simp [contentLength, declarations]
  | cons field rest ih =>
    obtain ⟨name, value⟩ := field
    unfold contentLength
    by_cases hname : name.map lowerAscii = ascii "content-length"
    · rw [if_pos hname, declarations_cons_of_named hname]
      simp only [contentLength_found]
      by_cases hrest : declarations rest = []
      · simp [hrest, trimmed]
      · simp [hrest]
    · rw [if_neg hname, declarations_cons_of_not_named hname, ih]

private theorem not_isBlank_of_isAsciiDigit {b : UInt8} (h : isAsciiDigit b = true) :
    isBlank b ≠ true := by
  intro hblank
  simp only [isBlank, Bool.or_eq_true, decide_eq_true_eq] at hblank
  rcases hblank with rfl | rfl
  · exact absurd h (by decide)
  · exact absurd h (by decide)

private theorem trimmed_between {before digits after : Bytes}
    (blankBefore : ∀ b ∈ before, isBlank b = true)
    (blankAfter : ∀ b ∈ after, isBlank b = true) (given : digits ≠ [])
    (numeral : decimal.IsNumeral digits) : trimmed (before ++ digits ++ after) = digits := by
  have hfront : (before ++ digits ++ after).dropWhile isBlank = digits ++ after := by
    rw [List.append_assoc, List.dropWhile_append_of_pos blankBefore]
    obtain ⟨d, rest, rfl⟩ := List.exists_cons_of_ne_nil given
    exact List.dropWhile_cons_of_neg (not_isBlank_of_isAsciiDigit numeral.head)
  rw [trimmed, hfront, List.rdropWhile, List.reverse_append,
    List.dropWhile_append_of_pos (fun b hb => blankAfter b (List.mem_reverse.mp hb))]
  obtain ⟨d, rest, hrest⟩ := List.exists_cons_of_ne_nil (List.reverse_ne_nil_iff.mpr given)
  have hlast : isAsciiDigit d = true :=
    numeral d (List.mem_reverse.mp (by rw [hrest]; exact List.mem_cons_self))
  rw [hrest, List.dropWhile_cons_of_neg (not_isBlank_of_isAsciiDigit hlast), ← hrest,
    List.reverse_reverse]

private theorem exists_blanks (value : Bytes) :
    ∃ before after, value = before ++ trimmed value ++ after ∧
    (∀ b ∈ before, isBlank b = true) ∧ ∀ b ∈ after, isBlank b = true := by
  refine ⟨value.takeWhile isBlank, (value.dropWhile isBlank).rtakeWhile isBlank, ?_,
    fun b hb => List.mem_takeWhile_imp hb, fun b hb => List.mem_rtakeWhile_imp hb⟩
  rw [trimmed, List.append_assoc, List.rdropWhile_append_rtakeWhile, List.takeWhile_append_dropWhile]

private theorem denotes_iff {value : Bytes} {n : ℕ} :
    Denotes value n ↔ trimmed value ≠ [] ∧ decimal.IsNumeral (trimmed value) ∧
      decimal.number (trimmed value) = n := by
  constructor
  · intro h
    cases h with
    | between blankBefore blankAfter given numeral =>
      rw [trimmed_between blankBefore blankAfter given numeral]
      exact ⟨given, numeral, rfl⟩
  · rintro ⟨hgiven, hnumeral, rfl⟩
    obtain ⟨before, after, hvalue, hbefore, hafter⟩ := exists_blanks value
    have hbetween := Denotes.between hbefore hafter hgiven hnumeral
    rwa [← hvalue] at hbetween

theorem ascii_decimalText (n : ℕ) : ascii (decimalText n) = (natText n).map fun c => c.toNat.toUInt8 := by
  simp [ascii, decimalText, intText]

theorem isAsciiDigit_of_isDigit {c : Char} (h : c.isDigit = true) :
    isAsciiDigit c.toNat.toUInt8 = true ∧ c.toNat.toUInt8.toNat = c.toNat := by
  obtain ⟨hlow, hhigh⟩ : 48 ≤ c.toNat ∧ c.toNat ≤ 57 := Char.isDigit_iff_toNat.mp h
  have hbyte : c.toNat.toUInt8.toNat = c.toNat := by
    rw [Nat.toUInt8_eq, UInt8.toNat_ofNat']
    omega
  refine ⟨?_, hbyte⟩
  simp only [isAsciiDigit, Bool.and_eq_true, decide_eq_true_eq, UInt8.le_iff_toNat_le, hbyte]
  exact ⟨hlow, hhigh⟩

private theorem isNumeral_ascii_decimalText (n : ℕ) : decimal.IsNumeral (ascii (decimalText n)) := by
  intro b hb
  rw [ascii_decimalText] at hb
  obtain ⟨c, hc, rfl⟩ := List.mem_map.mp hb
  exact (isAsciiDigit_of_isDigit (isDigit_of_mem_natText hc)).1

private theorem number_ascii_decimalText (n : ℕ) : decimal.number (ascii (decimalText n)) = n := by
  have hdigits : ∀ c ∈ natText n, c.toNat.toUInt8.toNat = c.toNat := fun c hc =>
    (isAsciiDigit_of_isDigit (isDigit_of_mem_natText hc)).2
  calc decimal.number (ascii (decimalText n))
      = (natText n).foldl (fun m c => 10 * m + (c.toNat.toUInt8.toNat - 48)) 0 := by
        rw [ascii_decimalText, Digits.number, List.foldl_map]
        rfl
    _ = (natText n).foldl (fun m c => 10 * m + (c.toNat - 48)) 0 :=
        List.foldl_ext _ _ _ fun m c hc => by rw [hdigits c hc]
    _ = n := Nat.ofDigitChars_ten_toDigits

private theorem plain_ascii_decimalText (n : ℕ) : decimal.Plain (ascii (decimalText n)) := by
  rw [ascii_decimalText]
  cases n with
  | zero => exact .single _
  | succ n =>
    obtain ⟨c, rest, htext, hc⟩ := head_natText_of_pos n.succ_pos
    have hdigit := isAsciiDigit_of_isDigit
      (isDigit_of_mem_natText (n := n + 1) (by rw [htext]; exact List.mem_cons_self))
    rw [htext, List.map_cons]
    refine .leading _ fun hzero => hc ?_
    have hcode : c.toNat = '0'.toNat := by
      rw [← hdigit.2, hzero]
      rfl
    exact Char.toNat_inj.mp hcode

/-- There is one Content-Length field, and its value denotes the number. -/
def Declares (headers : List (Bytes × Bytes)) (n : ℕ) : Prop :=
  ∃ value, declarations headers = [value] ∧ Denotes value n

/-- The fields declare no length, a length up to the cap or beyond it, or are malformed. -/
theorem declares_cases (headers : List (Bytes × Bytes)) (cap : ℕ) :
    (declarations headers = [] ∨ ∃ n ≤ cap, Declares headers n) ∨ (∃ n > cap, Declares headers n) ∨
      (declarations headers ≠ [] ∧ ∀ n, ¬ Declares headers n) := by
  by_cases habsent : declarations headers = []
  · exact .inl (.inl habsent)
  by_cases hdeclares : ∃ n, Declares headers n
  · obtain ⟨n, hn⟩ := hdeclares
    rcases Nat.lt_or_ge cap n with hlarge | hsmall
    · exact .inr (.inl ⟨n, hlarge, hn⟩)
    · exact .inl (.inr ⟨n, hsmall, hn⟩)
  · exact .inr (.inr ⟨habsent, not_exists.mp hdeclares⟩)

/-- Of three cases with different answers, each is the one its answer is given in. -/
theorem answers_iff {α : Type} {answer a b c : α} {A B C : Prop} (exhaustive : A ∨ B ∨ C)
    (hA : A → answer = a) (hB : B → answer = b) (hC : C → answer = c) (ab : a ≠ b) (ac : a ≠ c)
    (bc : b ≠ c) : (answer = a ↔ A) ∧ (answer = b ↔ B) ∧ (answer = c ↔ C) := by
  rcases exhaustive with h | h | h
  · have hanswer := hA h
    subst hanswer
    exact ⟨iff_of_true rfl h, iff_of_false ab fun h' => ab (hB h'),
      iff_of_false ac fun h' => ac (hC h')⟩
  · have hanswer := hB h
    subst hanswer
    exact ⟨iff_of_false ab.symm fun h' => ab (hA h').symm, iff_of_true rfl h,
      iff_of_false bc fun h' => bc (hC h')⟩
  · have hanswer := hC h
    subst hanswer
    exact ⟨iff_of_false ac.symm fun h' => ac (hA h').symm,
      iff_of_false bc.symm fun h' => bc (hB h').symm, iff_of_true rfl h⟩

section Precheck

variable [Cryptography]

/-- A digit string passes up to the cap, whatever its length. -/
theorem declaredBodySizeError_of_declares {headers : List (Bytes × Bytes)} {n : ℕ} (cap : ℕ)
    (h : Declares headers n) :
    declaredBodySizeError headers cap = if cap < n then some (bodyTooLarge cap) else none := by
  obtain ⟨value, honly, hdenotes⟩ := h
  obtain ⟨hgiven, hnumeral, rfl⟩ := denotes_iff.mp hdenotes
  have hscan := contentLength_one_iff.mpr ⟨value, honly, rfl⟩
  have hall : (trimmed value).all isAsciiDigit = true := List.all_eq_true.mpr hnumeral
  have hcompare := number_lt_number_iff (isNumeral_ascii_decimalText cap) hnumeral.stripped
    (plain_ascii_decimalText cap) (plain_stripped _)
  rw [number_ascii_decimalText, number_stripped] at hcompare
  unfold declaredBodySizeError
  rw [hscan]
  simp only [if_pos (And.intro hgiven hall), hcompare]
  rfl

private theorem declaredBodySizeError_of_absent {headers : List (Bytes × Bytes)} (cap : ℕ)
    (absent : declarations headers = []) : declaredBodySizeError headers cap = none := by
  unfold declaredBodySizeError
  rw [contentLength_none_iff.mpr absent]

/-- Fields that declare no number are refused, unless there are none. -/
theorem declaredBodySizeError_of_malformed {headers : List (Bytes × Bytes)} (cap : ℕ)
    (given : declarations headers ≠ []) (malformed : ∀ n, ¬ Declares headers n) :
    declaredBodySizeError headers cap = some invalidContentLength := by
  unfold declaredBodySizeError
  cases hscan : contentLength headers none with
  | none => rfl
  | some found =>
    cases found with
    | none => exact absurd (contentLength_none_iff.mp hscan) given
    | some found =>
      obtain ⟨value, honly, rfl⟩ := contentLength_one_iff.mp hscan
      have hnot : ¬ (trimmed value ≠ [] ∧ (trimmed value).all isAsciiDigit = true) := fun h =>
        malformed _ ⟨value, honly, denotes_iff.mpr ⟨h.1, List.all_eq_true.mp h.2, rfl⟩⟩
      simp only [if_neg hnot]

structure Prechecked (headers : List (Bytes × Bytes)) (cap : ℕ) : Prop where
  passes : declaredBodySizeError headers cap = none ↔
    declarations headers = [] ∨ ∃ n ≤ cap, Declares headers n
  tooLarge : declaredBodySizeError headers cap = some (bodyTooLarge cap) ↔
    ∃ n > cap, Declares headers n
  refused : declaredBodySizeError headers cap = some invalidContentLength ↔
    declarations headers ≠ [] ∧ ∀ n, ¬ Declares headers n

theorem precheck_compares_numbers (headers : List (Bytes × Bytes)) (cap : ℕ) :
    Prechecked headers cap := by
  have hpasses : (declarations headers = [] ∨ ∃ n ≤ cap, Declares headers n) →
      declaredBodySizeError headers cap = none := by
    rintro (habsent | ⟨n, hsmall, hn⟩)
    · exact declaredBodySizeError_of_absent cap habsent
    · rw [declaredBodySizeError_of_declares cap hn, if_neg (Nat.not_lt.mpr hsmall)]
  have hlarge : (∃ n > cap, Declares headers n) →
      declaredBodySizeError headers cap = some (bodyTooLarge cap) := by
    rintro ⟨n, hlarge, hn⟩
    rw [declaredBodySizeError_of_declares cap hn, if_pos hlarge]
  have hrefused : (declarations headers ≠ [] ∧ ∀ n, ¬ Declares headers n) →
      declaredBodySizeError headers cap = some invalidContentLength := fun h =>
    declaredBodySizeError_of_malformed cap h.1 h.2
  have hdiffer : some (bodyTooLarge cap) ≠ some invalidContentLength := by
    simp [bodyTooLarge, invalidContentLength]
  obtain ⟨hnone, htooLarge, hinvalid⟩ := answers_iff (declares_cases headers cap) hpasses hlarge
    hrefused nofun nofun hdiffer
  exact ⟨hnone, htooLarge, hinvalid⟩

end Precheck

/-- Leading zeros count for nothing. -/
example [Cryptography] : declaredBodySizeError
    [(ascii "host", ascii "router"), (ascii "Content-Length", ascii " 0000000000000000000128\t")] 128 =
      none := rfl

end PolicyModelRouter.DeclaredLengths
