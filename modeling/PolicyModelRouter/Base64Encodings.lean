import Mathlib.Data.List.Induction
import PolicyModelRouter.Base64Text

/-!
# Base64 encodings

The unpadded encoder for the URL alphabet, and exactly which texts the strict decoder
takes. A text is the encoding of some bytes when the bits its last digit leaves over
are zero.
-/

namespace Base64Text

def urlDigit (n : ℕ) : Char :=
  if n < 26 then Char.ofNat (n + 'A'.toNat)
  else if n < 52 then Char.ofNat (n - 26 + 'a'.toNat)
  else if n < 62 then Char.ofNat (n - 52 + '0'.toNat)
  else if n = 62 then '-'
  else '_'

/-- The URL alphabet writes two digits in its own way. -/
def translate (c : Char) : Char := if c = '-' then '+' else if c = '_' then '/' else c

def digitValue (c : Char) : Option ℕ := sextet (translate c)

/-- The values of the digits of an encoding: four for each three bytes. -/
def encodeValues : List UInt8 → List ℕ
  | a :: b :: c :: rest =>
    a.toNat / 4 :: (a.toNat % 4 * 16 + b.toNat / 16) :: (b.toNat % 16 * 4 + c.toNat / 64) ::
      c.toNat % 64 :: encodeValues rest
  | [a, b] => [a.toNat / 4, a.toNat % 4 * 16 + b.toNat / 16, b.toNat % 16 * 4]
  | [a] => [a.toNat / 4, a.toNat % 4 * 16]
  | [] => []

def encode (bytes : List UInt8) : List Char := (encodeValues bytes).map urlDigit

/-- The bytes of the digits with these values. -/
def decodeValues : List ℕ → List UInt8
  | a :: b :: c :: d :: rest =>
    UInt8.ofNat (a * 4 + b / 16) :: UInt8.ofNat (b % 16 * 16 + c / 4) ::
      UInt8.ofNat (c % 4 * 64 + d) :: decodeValues rest
  | [a, b, c] => [UInt8.ofNat (a * 4 + b / 16), UInt8.ofNat (b % 16 * 16 + c / 4)]
  | [a, b] => [UInt8.ofNat (a * 4 + b / 16)]
  | _ => []

/-- The bits of the last digit that belong to no byte. -/
def spareBits : List ℕ → ℕ
  | _ :: _ :: _ :: _ :: rest => spareBits rest
  | [_, _, c] => c % 4
  | [_, b] => b % 16
  | _ => 0

theorem ofNat_eq {n : ℕ} {a : UInt8} (h : n = a.toNat) : UInt8.ofNat n = a := by
  rw [h, UInt8.ofNat_toNat]

theorem decodeValues_encodeValues (bytes : List UInt8) :
    decodeValues (encodeValues bytes) = bytes := by
  induction bytes using encodeValues.induct with
  | case1 a b c rest ih =>
    have ha := a.toNat_lt
    have hb := b.toNat_lt
    have hc := c.toNat_lt
    simp only [encodeValues, decodeValues, ih]
    rw [ofNat_eq (a := a) (by omega), ofNat_eq (a := b) (by omega), ofNat_eq (a := c) (by omega)]
  | case2 a b =>
    have ha := a.toNat_lt
    have hb := b.toNat_lt
    simp only [encodeValues, decodeValues]
    rw [ofNat_eq (a := a) (by omega), ofNat_eq (a := b) (by omega)]
  | case3 a =>
    have ha := a.toNat_lt
    simp only [encodeValues, decodeValues]
    rw [ofNat_eq (a := a) (by omega)]
  | case4 => rfl

theorem length_decodeValues (values : List ℕ) :
    (decodeValues values).length = values.length * 3 / 4 := by
  induction values using decodeValues.induct with
  | case1 a b c d rest ih =>
    simp only [decodeValues, List.length_cons, ih]
    omega
  | case2 a b c => simp [decodeValues]
  | case3 a b => simp [decodeValues]
  | case4 values hfour hthree htwo =>
    match values with
    | [] => rfl
    | [a] => simp [decodeValues]
    | [a, b] => exact absurd rfl (htwo a b)
    | [a, b, c] => exact absurd rfl (hthree a b c)
    | a :: b :: c :: d :: rest => exact absurd rfl (hfour a b c d rest)

/-- The values of an encoding are those of digits, and leave nothing over. -/
theorem encodeValues_spec (bytes : List UInt8) :
    (∀ v ∈ encodeValues bytes, v < 64) ∧ (encodeValues bytes).length % 4 ≠ 1 ∧
      spareBits (encodeValues bytes) = 0 := by
  induction bytes using encodeValues.induct with
  | case1 a b c rest ih =>
    have ha := a.toNat_lt
    have hb := b.toNat_lt
    have hc := c.toNat_lt
    obtain ⟨hvalues, hlength, hspare⟩ := ih
    refine ⟨?_, ?_, hspare⟩
    · simp only [encodeValues, List.mem_cons, forall_eq_or_imp]
      exact ⟨by omega, by omega, by omega, by omega, hvalues⟩
    · simp only [encodeValues, List.length_cons]
      omega
  | case2 a b =>
    have ha := a.toNat_lt
    have hb := b.toNat_lt
    simp [encodeValues, spareBits]
    omega
  | case3 a =>
    have ha := a.toNat_lt
    simp [encodeValues, spareBits]
    omega
  | case4 => simp [encodeValues, spareBits]

theorem length_encodeValues (bytes : List UInt8) :
    (encodeValues bytes).length = (4 * bytes.length + 2) / 3 := by
  induction bytes using encodeValues.induct with
  | case1 a b c rest ih =>
    simp only [encodeValues, List.length_cons, ih]
    omega
  | _ => simp [encodeValues]

theorem encodeValues_decodeValues {values : List ℕ} (bounded : ∀ v ∈ values, v < 64)
    (complete : values.length % 4 ≠ 1) (spare : spareBits values = 0) :
    encodeValues (decodeValues values) = values := by
  induction values using spareBits.induct with
  | case1 a b c d rest ih =>
    simp only [List.mem_cons, forall_eq_or_imp] at bounded
    obtain ⟨ha, hb, hc, hd, hrest⟩ := bounded
    simp only [List.length_cons] at complete
    simp only [decodeValues, encodeValues, ih hrest (by omega) spare, UInt8.toNat_ofNat']
    congr 1
    · omega
    congr 1
    · omega
    congr 1
    · omega
    congr 1
    omega
  | case2 a b c =>
    simp only [List.mem_cons, forall_eq_or_imp, List.not_mem_nil, false_imp_iff, implies_true,
      and_true] at bounded
    obtain ⟨ha, hb, hc⟩ := bounded
    simp only [spareBits] at spare
    simp only [decodeValues, encodeValues, UInt8.toNat_ofNat', List.cons.injEq, and_true]
    omega
  | case3 a b =>
    simp only [List.mem_cons, forall_eq_or_imp, List.not_mem_nil, false_imp_iff, implies_true,
      and_true] at bounded
    obtain ⟨ha, hb⟩ := bounded
    simp only [spareBits] at spare
    simp only [decodeValues, encodeValues, UInt8.toNat_ofNat', List.cons.injEq, and_true]
    omega
  | case4 values h1 h2 h3 =>
    match values, h1, h2, h3, complete with
    | [], _, _, _, _ => rfl
    | [a], _, _, _, h => simp at h
    | [a, b], _, _, h3, _ => exact absurd rfl (h3 a b)
    | [a, b, c], _, h2, _, _ => exact absurd rfl (h2 a b c)
    | a :: b :: c :: d :: rest, h1, _, _, _ => exact absurd rfl (h1 a b c d rest)

theorem digitValue_urlDigit {n : ℕ} (h : n < 64) : digitValue (urlDigit n) = some n := by
  have hall : ∀ n : Fin 64, digitValue (urlDigit n) = some n.val := by decide
  exact hall ⟨n, h⟩

theorem urlDigit_ne {n : ℕ} (h : n < 64) : urlDigit n ≠ '+' ∧ urlDigit n ≠ '/' := by
  have hall : ∀ n : Fin 64, urlDigit n ≠ '+' ∧ urlDigit n ≠ '/' := by decide
  exact hall ⟨n, h⟩

theorem toNat_lt_of_sextet {c : Char} {n : ℕ} (h : sextet c = some n) : c.toNat < 128 := by
  have hle : ∀ d : Char, c ≤ d → c.toNat ≤ d.toNat := fun d hcd => UInt32.le_iff_toNat_le.mp hcd
  unfold sextet at h
  split_ifs at h with hupper hlower hdigit hplus hslash
  · exact (hle _ hupper.2).trans_lt (by decide)
  · exact (hle _ hlower.2).trans_lt (by decide)
  · exact (hle _ hdigit.2).trans_lt (by decide)
  · rw [hplus]
    decide
  · rw [hslash]
    decide

theorem sextet_lt {c : Char} {n : ℕ} (h : sextet c = some n) : n < 64 := by
  have hall : ∀ k : Fin 128, (sextet (Char.ofNat k)).all (fun n => n < 64) = true := by
    decide +kernel
  have hc := hall ⟨c.toNat, toNat_lt_of_sextet h⟩
  rw [Char.ofNat_toNat, h] at hc
  simpa using hc

theorem toNat_lt_of_digitValue {c : Char} {n : ℕ} (h : digitValue c = some n) : c.toNat < 128 := by
  unfold digitValue translate at h
  split_ifs at h with hminus hunderscore
  · rw [hminus]
    decide
  · rw [hunderscore]
    decide
  · exact toNat_lt_of_sextet h

theorem urlDigit_eq {c : Char} {n : ℕ} (h : digitValue c = some n) (plus : c ≠ '+')
    (slash : c ≠ '/') : urlDigit n = c := by
  have hall : ∀ k : Fin 128, (digitValue (Char.ofNat k)).all (fun n =>
      Char.ofNat k = '+' ∨ Char.ofNat k = '/' ∨ urlDigit n = Char.ofNat k) = true := by
    decide +kernel
  have hc := hall ⟨c.toNat, toNat_lt_of_digitValue h⟩
  rw [Char.ofNat_toNat, h] at hc
  simpa [plus, slash] using hc

theorem sextet_equals : sextet '=' = none := by decide

theorem ne_equals_of_sextet {c : Char} {n : ℕ} (h : sextet c = some n) : c ≠ '=' := by
  rintro rfl
  exact nomatch sextet_equals.symm.trans h

/-- The padding that closes the last group of so many digits. Behind a complete group any
amount of it is taken. -/
def Closes (digits pads : ℕ) : Prop :=
  digits % 4 = 0 ∨ (digits % 4 = 2 ∧ pads = 2) ∨ (digits % 4 = 3 ∧ pads = 1)

theorem decodeFrom_group {c₁ c₂ c₃ c₄ : Char} {a b c d : ℕ} (h₁ : sextet c₁ = some a)
    (h₂ : sextet c₂ = some b) (h₃ : sextet c₃ = some c) (h₄ : sextet c₄ = some d) (cs : List Char)
    (left : ℕ) :
    decodeFrom (c₁ :: c₂ :: c₃ :: c₄ :: cs) 0 left 0 false =
      (decodeFrom cs 0 0 0 false).map fun rest =>
        UInt8.ofNat (a * 4 + b / 16) :: UInt8.ofNat (b % 16 * 16 + c / 4) ::
          UInt8.ofNat (c % 4 * 64 + d) :: rest := by
  simp only [decodeFrom, if_neg (ne_equals_of_sextet h₁), if_neg (ne_equals_of_sextet h₂),
    if_neg (ne_equals_of_sextet h₃), if_neg (ne_equals_of_sextet h₄), h₁, h₂, h₃, h₄,
    Bool.false_eq_true, if_false]
  cases decodeFrom cs 0 0 0 false <;> rfl

theorem decodeFrom_padding_complete (m left pads : ℕ) (padded : Bool) :
    decodeFrom (List.replicate m '=') 0 left pads padded = .ok [] := by
  induction m generalizing padded with
  | zero => rfl
  | succ m ih => simp [List.replicate_succ, decodeFrom, ih]

/-- Digits with the padding that closes them are decoded. -/
theorem decodeFrom_of_closes {digits : List Char} {values : List ℕ} {m : ℕ}
    (h : digits.map sextet = values.map some) (closes : Closes digits.length m) (left : ℕ) :
    decodeFrom (digits ++ List.replicate m '=') 0 left 0 false = .ok (decodeValues values) := by
  induction values using decodeValues.induct generalizing digits left with
  | case1 a b c d rest ih =>
    obtain ⟨c₁, cs, rfl, h₁, h⟩ := List.map_eq_cons_iff.mp h
    obtain ⟨c₂, cs, rfl, h₂, h⟩ := List.map_eq_cons_iff.mp h
    obtain ⟨c₃, cs, rfl, h₃, h⟩ := List.map_eq_cons_iff.mp h
    obtain ⟨c₄, cs, rfl, h₄, h⟩ := List.map_eq_cons_iff.mp h
    have hrest : Closes cs.length m := by
      simp only [Closes, List.length_cons] at closes ⊢
      omega
    simp only [List.cons_append, decodeFrom_group h₁ h₂ h₃ h₄, ih h hrest]
    rfl
  | case2 a b c =>
    obtain ⟨c₁, cs, rfl, h₁, h⟩ := List.map_eq_cons_iff.mp h
    obtain ⟨c₂, cs, rfl, h₂, h⟩ := List.map_eq_cons_iff.mp h
    obtain ⟨c₃, cs, rfl, h₃, h⟩ := List.map_eq_cons_iff.mp h
    obtain rfl := List.map_eq_nil_iff.mp h
    obtain rfl : m = 1 := by
      simp only [Closes, List.length_cons, List.length_nil] at closes
      omega
    simp [decodeFrom, ne_equals_of_sextet h₁, ne_equals_of_sextet h₂, ne_equals_of_sextet h₃, h₁, h₂,
      h₃, decodeValues, Except.map]
  | case3 a b =>
    obtain ⟨c₁, cs, rfl, h₁, h⟩ := List.map_eq_cons_iff.mp h
    obtain ⟨c₂, cs, rfl, h₂, h⟩ := List.map_eq_cons_iff.mp h
    obtain rfl := List.map_eq_nil_iff.mp h
    obtain rfl : m = 2 := by
      simp only [Closes, List.length_cons, List.length_nil] at closes
      omega
    simp [decodeFrom, List.replicate_succ, ne_equals_of_sextet h₁, ne_equals_of_sextet h₂, h₁, h₂,
      decodeValues, Except.map]
  | case4 values h1 h2 h3 =>
    match values, h1, h2, h3 with
    | [], _, _, _ =>
      obtain rfl := List.map_eq_nil_iff.mp h
      exact decodeFrom_padding_complete m left 0 false
    | [a], _, _, _ =>
      obtain ⟨c, cs, rfl, -, h⟩ := List.map_eq_cons_iff.mp h
      obtain rfl := List.map_eq_nil_iff.mp h
      simp [Closes] at closes
    | [a, b], _, _, h3 => exact absurd rfl (h3 a b)
    | [a, b, c], _, h2, _ => exact absurd rfl (h2 a b c)
    | a :: b :: c :: d :: rest, h1, _, _ => exact absurd rfl (h1 a b c d rest)

theorem exists_of_map_ok {ε α β : Type} {f : α → β} {x : Except ε α} {b : β} (h : x.map f = .ok b) :
    ∃ a, x = .ok a := by
  cases x with
  | ok a => exact ⟨a, rfl⟩
  | error e => cases h

theorem decodeFrom_padding {cs : List Char} {place left pads : ℕ} {padded : Bool}
    {bytes : List UInt8} (h : decodeFrom ('=' :: cs) place left pads padded = .ok bytes) :
    (cs = [] ∧ 2 ≤ place ∧ 4 ≤ place + (pads + 1)) ∨
      ∃ pads', decodeFrom cs place left pads' true = .ok bytes ∧
        ((2 ≤ place ∧ place + (pads + 1) < 4 ∧ pads' = pads + 1) ∨ (place < 2 ∧ pads' = pads)) := by
  unfold decodeFrom at h
  rw [if_pos rfl] at h
  by_cases hplace : 2 ≤ place
  · rw [if_pos hplace] at h
    by_cases hfull : 4 ≤ place + (pads + 1)
    · rw [if_pos hfull] at h
      split_ifs at h with hend
      exact .inl ⟨List.isEmpty_iff.mp hend, hplace, hfull⟩
    · rw [if_neg hfull] at h
      exact .inr ⟨pads + 1, h, .inl ⟨hplace, by omega, rfl⟩⟩
  · rw [if_neg hplace] at h
    exact .inr ⟨pads, h, .inr ⟨by omega, rfl⟩⟩

/-- A digit is one more in the group, and the padding is counted anew. -/
theorem decodeFrom_digit {c : Char} {cs : List Char} {place left pads : ℕ} {padded : Bool}
    {bytes : List UInt8} (digit : c ≠ '=') (inGroup : place < 4)
    (h : decodeFrom (c :: cs) place left pads padded = .ok bytes) :
    (sextet c).isSome = true ∧ padded = false ∧
      ∃ place' left' bytes', decodeFrom cs place' left' 0 false = .ok bytes' ∧ place' < 4 ∧
        (place' = place + 1 ∨ place' + 4 = place + 1) := by
  unfold decodeFrom at h
  rw [if_neg digit] at h
  cases hdigit : sextet c with
  | none => simp [hdigit] at h
  | some d =>
    simp only [hdigit] at h
    cases padded with
    | true => simp at h
    | false =>
      refine ⟨rfl, rfl, ?_⟩
      match place, h with
      | 0, h => exact ⟨1, d, bytes, h, by omega, by omega⟩
      | 1, h =>
        obtain ⟨rest, hrest⟩ := exists_of_map_ok h
        exact ⟨2, _, rest, hrest, by omega, by omega⟩
      | 2, h =>
        obtain ⟨rest, hrest⟩ := exists_of_map_ok h
        exact ⟨3, _, rest, hrest, by omega, by omega⟩
      | 3, h =>
        obtain ⟨rest, hrest⟩ := exists_of_map_ok h
        exact ⟨0, _, rest, hrest, by omega, by omega⟩

/-- What is decoded is digits with the padding that closes them. -/
theorem closes_of_decodeFrom {cs : List Char} {place left pads : ℕ} {padded : Bool}
    {bytes : List UInt8} (inGroup : place < 4) (unclosed : 2 ≤ place → place + pads < 4)
    (h : decodeFrom cs place left pads padded = .ok bytes) :
    ∃ digits m, cs = digits ++ List.replicate m '=' ∧ (∀ c ∈ digits, (sextet c).isSome = true) ∧
      (padded = true → digits = []) ∧
      Closes (place + digits.length) ((if digits = [] then pads else 0) + m) := by
  induction cs generalizing place left pads padded bytes with
  | nil =>
    refine ⟨[], 0, rfl, by simp, fun _ => rfl, ?_⟩
    unfold decodeFrom at h
    split_ifs at h with hplace
    exact .inl (by simp [hplace])
  | cons c cs ih =>
    by_cases hpad : c = '='
    · subst hpad
      have hresult : ∃ m, cs = List.replicate m '=' ∧ Closes place (pads + (m + 1)) := by
        rcases decodeFrom_padding h with ⟨hend, hplace, hfull⟩ | ⟨pads', hrest, hpads'⟩
        · have hroom := unclosed hplace
          refine ⟨0, hend, ?_⟩
          simp only [Closes]
          omega
        · obtain ⟨digits, m, hcs, -, hnil, hcloses⟩ := ih inGroup (by omega) hrest
          obtain rfl := hnil rfl
          refine ⟨m, hcs, ?_⟩
          simp only [Closes, List.length_nil, if_true] at hcloses ⊢
          omega
      obtain ⟨m, hcs, hcloses⟩ := hresult
      exact ⟨[], m + 1, by rw [hcs]; rfl, by simp, fun _ => rfl, by simpa using hcloses⟩
    · obtain ⟨hdigit, rfl, place', left', bytes', hrest, hplace', hnext⟩ :=
        decodeFrom_digit hpad inGroup h
      obtain ⟨digits, m, hcs, hdigits, -, hcloses⟩ := ih hplace' (by omega) hrest
      refine ⟨c :: digits, m, by rw [hcs]; rfl, ?_, by simp, ?_⟩
      · intro x hx
        rcases List.mem_cons.mp hx with rfl | hx
        · exact hdigit
        · exact hdigits x hx
      · have hzero : (if digits = [] then 0 else 0 : ℕ) = 0 := ite_self 0
        simp only [Closes, List.length_cons, reduceCtorEq, if_false, hzero] at hcloses ⊢
        omega

theorem exists_values {digits : List Char} {value : Char → Option ℕ}
    (h : ∀ c ∈ digits, (value c).isSome = true) :
    ∃ values : List ℕ, digits.map value = values.map some := by
  induction digits with
  | nil => exact ⟨[], rfl⟩
  | cons c digits ih =>
    obtain ⟨v, hv⟩ := Option.isSome_iff_exists.mp (h c List.mem_cons_self)
    obtain ⟨values, hvalues⟩ := ih fun x hx => h x (List.mem_cons_of_mem _ hx)
    exact ⟨v :: values, by rw [List.map_cons, hv, hvalues, List.map_cons]⟩

/-- What the strict decoder takes, and the bytes it returns. -/
theorem decodeStrict_eq_ok {cs : List Char} {bytes : List UInt8} :
    decodeStrict cs = .ok bytes ↔ ∃ digits m values, cs = digits ++ List.replicate m '=' ∧
      (digits = [] → m = 0) ∧ Closes digits.length m ∧ digits.map sextet = values.map some ∧
      bytes = decodeValues values := by
  constructor
  · intro h
    unfold decodeStrict at h
    split_ifs at h with hhead
    obtain ⟨digits, m, rfl, hdigits, -, hcloses⟩ := closes_of_decodeFrom (by omega) (by omega) h
    rw [ite_self, Nat.zero_add, Nat.zero_add] at hcloses
    obtain ⟨values, hvalues⟩ := exists_values hdigits
    rw [decodeFrom_of_closes hvalues hcloses] at h
    refine ⟨digits, m, values, rfl, ?_, hcloses, hvalues, (Except.ok.inj h).symm⟩
    rintro rfl
    by_contra hm
    obtain ⟨k, rfl⟩ := Nat.exists_eq_succ_of_ne_zero hm
    exact hhead rfl
  · rintro ⟨digits, m, values, rfl, hempty, hcloses, hvalues, rfl⟩
    have hhead : (digits ++ List.replicate m '=').head? ≠ some '=' := by
      cases digits with
      | nil =>
        rw [hempty rfl]
        simp
      | cons c digits =>
        obtain ⟨v, values, rfl, hv, -⟩ := List.map_eq_cons_iff.mp hvalues.symm
        simpa using ne_equals_of_sextet hv.symm
    rw [decodeStrict, if_neg hhead]
    exact decodeFrom_of_closes hvalues hcloses 0

end Base64Text
