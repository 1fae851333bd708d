import PolicyModelRouter.Base64Encodings
import PolicyModelRouter.StrippedTexts
import PolicyModelRouter.TrustedKeys

/-!
# Unpadded base64url

Which texts the decoder of keys and signatures takes, and which of them are encodings. It
restores the padding and translates the URL alphabet, so it also takes the two digits of
the standard alphabet and padding that is there already; the bits that the last digit
leaves over are dropped.
-/

namespace PolicyModelRouter.UnpaddedEncodings
open AuthorizationContract Base64Text StrippedTexts TrustedKeys

def encodeBase64url (bytes : List UInt8) : String := String.ofList (encode bytes)

/-- Digits of either alphabet, and behind them padding that is missing or does not exceed
what closes the last group. -/
structure Decodable (encoded digits : List Char) (pads : ℕ) : Prop where
  split : encoded = digits ++ List.replicate pads '='
  valued : ∀ c ∈ digits, (digitValue c).isSome = true
  leading : digits = [] → pads = 0
  closes : digits.length % 4 = 0 ∨ (digits.length % 4 = 2 ∧ pads ≤ 2) ∨
    (digits.length % 4 = 3 ∧ pads ≤ 1)

/-- Digits of the URL alphabet alone, with no bits left over. -/
structure Clean (encoded : List Char) : Prop where
  valued : ∀ c ∈ encoded, (digitValue c).isSome = true ∧ c ≠ '+' ∧ c ≠ '/'
  complete : encoded.length % 4 ≠ 1
  spare : spareBits (encoded.filterMap digitValue) = 0

private theorem translate_equals {c : Char} : translate c = '=' ↔ c = '=' := by
  unfold Base64Text.translate
  split_ifs with hminus hunderscore
  · simp [hminus]
  · simp [hunderscore]
  · rfl

private theorem map_translate_replicate (n : ℕ) :
    (List.replicate n '=').map translate = List.replicate n '=' := by
  rw [List.map_replicate]
  rfl

private theorem map_translate_eq_replicate {cs : List Char} {n : ℕ}
    (h : cs.map translate = List.replicate n '=') : cs = List.replicate n '=' := by
  rw [List.eq_replicate_iff] at h ⊢
  obtain ⟨hlength, hall⟩ := h
  exact ⟨by simpa using hlength, fun c hc => translate_equals.mp (hall _ (List.mem_map_of_mem hc))⟩

theorem filterMap_of_map_eq {digits : List Char} {values : List ℕ}
    (h : digits.map digitValue = values.map some) : digits.filterMap digitValue = values := by
  have hid : digits.filterMap digitValue = (digits.map digitValue).filterMap id := by
    rw [List.filterMap_map]
    rfl
  rw [hid, h, List.filterMap_map]
  exact List.filterMap_some

/-- Texts that end in the same padding differ in front of it. -/
theorem split_of_append_eq {encoded digits : List Char} {restored pads : ℕ}
    (h : encoded ++ List.replicate restored '=' = digits ++ List.replicate pads '=')
    (hdigits : '=' ∉ digits) :
    ∃ given, pads = given + restored ∧ encoded = digits ++ List.replicate given '=' := by
  rcases List.append_eq_append_iff.mp h with ⟨middle, rfl, hmiddle⟩ | ⟨middle, rfl, hmiddle⟩
  · have hlength := congrArg List.length hmiddle
    have hnil : middle = [] := by
      refine List.eq_nil_iff_forall_not_mem.mpr fun c hc => ?_
      have hpad : c ∈ List.replicate restored '=' := hmiddle ▸ List.mem_append_left _ hc
      exact hdigits (List.mem_append_right _ (List.eq_of_mem_replicate hpad ▸ hc))
    subst hnil
    simp only [List.length_replicate, List.nil_append] at hlength
    exact ⟨0, by omega, by simp⟩
  · have hlength := congrArg List.length hmiddle
    simp only [List.length_replicate, List.length_append] at hlength
    have hall : middle = List.replicate middle.length '=' := by
      refine List.eq_replicate_iff.mpr ⟨rfl, fun c hc => ?_⟩
      have hpad : c ∈ List.replicate pads '=' := hmiddle ▸ List.mem_append_left _ hc
      exact List.eq_of_mem_replicate hpad
    exact ⟨middle.length, hlength, by rw [← hall]⟩

section Decoding

variable {value : String} {bytes : List UInt8} {digits : List Char} {pads : ℕ}

theorem Decodable.ascii (h : Decodable value.toList digits pads) :
    (value.toList.all fun c => c.toNat < 128) = true := by
  rw [List.all_eq_true]
  intro c hc
  rw [decide_eq_true_eq]
  rw [h.split] at hc
  rcases List.mem_append.mp hc with hdigit | hpad
  · obtain ⟨n, hn⟩ := Option.isSome_iff_exists.mp (h.valued c hdigit)
    exact toNat_lt_of_digitValue hn
  · rw [List.eq_of_mem_replicate hpad]
    decide

def restored (value : String) : List Char :=
  List.replicate ((4 - value.toList.length % 4) % 4) '='

private theorem decodeBase64url_of_ascii (ascii : (value.toList.all fun c => c.toNat < 128) = true) :
    decodeBase64url value =
      (decodeStrict (value.toList.map translate ++ restored value)).mapError .binascii := by
  have htranslated : value.toList.map translate ++ restored value =
      (value.toList ++ restored value).map translate := by
    rw [List.map_append, restored, map_translate_replicate]
  rw [htranslated]
  exact if_pos ascii

theorem decodeBase64url_eq_ok : decodeBase64url value = .ok bytes ↔ ∃ digits pads,
    Decodable value.toList digits pads ∧ bytes = decodeValues (digits.filterMap digitValue) := by
  constructor
  · intro h
    have hascii : (value.toList.all fun c => c.toNat < 128) = true := by
      by_contra hascii
      exact nomatch h.symm.trans (if_neg hascii)
    rw [decodeBase64url_of_ascii hascii] at h
    have hstrict : decodeStrict (value.toList.map translate ++ restored value) = .ok bytes := by
      cases hdecoded : decodeStrict (value.toList.map translate ++ restored value) with
      | ok found =>
        rw [hdecoded] at h
        cases h
        rfl
      | error e =>
        rw [hdecoded] at h
        cases h
    obtain ⟨digits, m, values, hsplit, hleading, hcloses, hvalues, rfl⟩ :=
      decodeStrict_eq_ok.mp hstrict
    have hequals : '=' ∉ digits := by
      intro hmem
      have hvalue : sextet '=' ∈ values.map some := hvalues ▸ List.mem_map_of_mem hmem
      obtain ⟨v, -, hv⟩ := List.mem_map.mp hvalue
      exact nomatch hv.trans sextet_equals
    obtain ⟨given, rfl, hencoded⟩ := split_of_append_eq hsplit hequals
    obtain ⟨front, back, hfront, rfl, hback⟩ := List.map_eq_append_iff.mp hencoded
    have hpads : back = List.replicate given '=' := map_translate_eq_replicate hback
    have hmap : front.map digitValue = values.map some := by
      rw [List.map_map] at hvalues
      exact hvalues
    have hlength : value.toList.length = front.length + given := by
      rw [hfront, hpads, List.length_append, List.length_replicate]
    refine ⟨front, given, ⟨by rw [hfront, hpads], ?_, ?_, ?_⟩, by rw [filterMap_of_map_eq hmap]⟩
    · intro c hc
      have hvalue : digitValue c ∈ values.map some := hmap ▸ List.mem_map_of_mem hc
      obtain ⟨v, -, hv⟩ := List.mem_map.mp hvalue
      rw [← hv]
      rfl
    · rintro rfl
      have := hleading rfl
      omega
    · rw [List.length_map] at hcloses
      simp only [Closes] at hcloses
      omega
  · rintro ⟨digits, pads, h, rfl⟩
    obtain ⟨values, hmap⟩ := exists_values h.valued
    have hvalues : (digits.map translate).map sextet = values.map some := by
      rw [List.map_map]
      exact hmap
    have hlength : value.toList.length = digits.length + pads := by
      rw [h.split, List.length_append, List.length_replicate]
    have hcloses := h.closes
    have hstrict : decodeStrict (value.toList.map translate ++ restored value) =
        .ok (decodeValues values) := by
      refine decodeStrict_eq_ok.mpr ⟨digits.map translate,
        pads + (4 - value.toList.length % 4) % 4, values, ?_, ?_, ?_, hvalues, rfl⟩
      · rw [restored, hlength, h.split, List.map_append, map_translate_replicate, List.append_assoc,
          List.replicate_append_replicate]
      · intro hnil
        obtain rfl := List.map_eq_nil_iff.mp hnil
        have := h.leading rfl
        simp only [List.length_nil] at hlength
        omega
      · simp only [Closes, List.length_map]
        omega
    rw [filterMap_of_map_eq hmap, decodeBase64url_of_ascii h.ascii, hstrict]
    rfl

theorem clean_encode (bytes : List UInt8) : Clean (encode bytes) ∧
    (encode bytes).filterMap digitValue = encodeValues bytes := by
  obtain ⟨hbounded, hcomplete, hspare⟩ := encodeValues_spec bytes
  have hvalues : (encode bytes).filterMap digitValue = encodeValues bytes := by
    apply filterMap_of_map_eq
    rw [encode, List.map_map]
    exact List.map_congr_left fun v hv => digitValue_urlDigit (hbounded v hv)
  refine ⟨⟨?_, ?_, by rwa [hvalues]⟩, hvalues⟩
  · intro c hc
    obtain ⟨v, hv, rfl⟩ := List.mem_map.mp hc
    exact ⟨by rw [digitValue_urlDigit (hbounded v hv)]; rfl, urlDigit_ne (hbounded v hv)⟩
  · rwa [encode, List.length_map]

theorem encode_of_clean {encoded : List Char} (h : Clean encoded) :
    encode (decodeValues (encoded.filterMap digitValue)) = encoded := by
  obtain ⟨values, hmap⟩ : ∃ values : List ℕ, encoded.map digitValue = values.map some := by
    obtain ⟨values, hvalues⟩ := exists_values fun c hc => by
      obtain ⟨d, hd, rfl⟩ := List.mem_map.mp (show c ∈ encoded.map translate from hc)
      exact (h.valued d hd).1
    rw [List.map_map] at hvalues
    exact ⟨values, hvalues⟩
  have hlength : values.length = encoded.length := by
    simpa using (congrArg List.length hmap).symm
  have hspare := h.spare
  rw [filterMap_of_map_eq hmap] at hspare ⊢
  have hbounded : ∀ v ∈ values, v < 64 := by
    intro v hv
    have hsome : some v ∈ encoded.map digitValue := hmap ▸ List.mem_map_of_mem hv
    obtain ⟨c, -, hc⟩ := List.mem_map.mp hsome
    exact sextet_lt hc
  rw [encode, encodeValues_decodeValues hbounded (by rw [hlength]; exact h.complete) hspare]
  have hdigits : (values.map urlDigit).map some = encoded.map some :=
    calc (values.map urlDigit).map some = (values.map some).map (Option.map urlDigit) := by simp
      _ = encoded.map (Option.map urlDigit ∘ digitValue) := by rw [← hmap, List.map_map]
      _ = encoded.map some := by
        refine List.map_congr_left fun c hc => ?_
        obtain ⟨hsome, hplus, hslash⟩ := h.valued c hc
        obtain ⟨v, hv⟩ := Option.isSome_iff_exists.mp hsome
        rw [Function.comp_apply, hv, Option.map_some, urlDigit_eq hv hplus hslash]
  exact List.map_injective_iff.mpr (Option.some_injective _) hdigits

private theorem clean_iff : Clean value.toList ↔ ∃ bytes, value = encodeBase64url bytes := by
  constructor
  · intro h
    refine ⟨decodeValues (value.toList.filterMap digitValue), ?_⟩
    rw [encodeBase64url, encode_of_clean h, String.ofList_toList]
  · rintro ⟨bytes, rfl⟩
    rw [encodeBase64url, String.toList_ofList]
    exact (clean_encode bytes).1

theorem decodeBase64url_encode (bytes : List UInt8) :
    decodeBase64url (encodeBase64url bytes) = .ok bytes := by
  obtain ⟨hclean, hvalues⟩ := clean_encode bytes
  refine decodeBase64url_eq_ok.mpr ⟨encode bytes, 0, ⟨?_, fun c hc => (hclean.valued c hc).1,
    fun _ => rfl, ?_⟩, ?_⟩
  · rw [encodeBase64url, String.toList_ofList, List.replicate_zero, List.append_nil]
  · have := hclean.complete
    omega
  · rw [hvalues, decodeValues_encodeValues]

theorem decodeSignature_eq_ok : decodeSignature value = .ok bytes ↔
    decodeBase64url value = .ok bytes ∧ bytes.length = 64 := by
  unfold decodeSignature
  cases decodeBase64url value with
  | error e => simp [bind, Except.bind]
  | ok found =>
    simp only [bind, Except.bind, Except.ok.injEq]
    constructor
    · intro h
      split_ifs at h with hlength
      obtain rfl := Except.ok.inj h
      exact ⟨rfl, hlength⟩
    · rintro ⟨rfl, hlength⟩
      exact if_pos hlength

private theorem isSome_digitValue {c : Char} (h : (isAlphanumeric c || c == '_' || c == '-') = true) :
    (digitValue c).isSome = true := by
  simp only [isAlphanumeric, Bool.or_eq_true, Bool.and_eq_true, decide_eq_true_eq, beq_iff_eq] at h
  by_cases hminus : c = '-'
  · subst hminus
    rfl
  by_cases hunderscore : c = '_'
  · subst hunderscore
    rfl
  have hsame : Base64Text.translate c = c := by
    rw [Base64Text.translate, if_neg hminus, if_neg hunderscore]
  rw [digitValue, hsame, sextet]
  rcases h with (((h | h) | h) | h) | h
  · rw [if_pos h]
    rfl
  · split_ifs <;> rfl
  · split_ifs <;> rfl
  · exact absurd h hunderscore
  · exact absurd h hminus

/-- The signature of a validated envelope is always decoded. -/
theorem decodeSignature_of_isSignatureText (h : isSignatureText value = true) :
    ∃ bytes, decodeSignature value = .ok bytes := by
  have hvalued : ∀ c ∈ value.toList, (digitValue c).isSome = true := fun c hc =>
    (of_hasShape h hc).elim isSome_digitValue isSome_digitValue
  have hlength : value.toList.length = 86 := by
    have hbounds := length_of_hasShape h
    rw [String.length_toList]
    omega
  have hvalues : (value.toList.filterMap digitValue).length = 86 := by
    obtain ⟨values, hmap⟩ := exists_values hvalued
    rw [filterMap_of_map_eq hmap, ← List.length_map some, ← hmap, List.length_map, hlength]
  refine ⟨_, decodeSignature_eq_ok.mpr ⟨decodeBase64url_eq_ok.mpr ⟨value.toList, 0,
    ⟨by simp, hvalued, fun _ => rfl, .inr (.inl ⟨by rw [hlength], by omega⟩)⟩, rfl⟩, ?_⟩⟩
  rw [length_decodeValues, hvalues]

private theorem length_encodeBase64url (bytes : List UInt8) :
    (encodeBase64url bytes).length = (4 * bytes.length + 2) / 3 := by
  rw [encodeBase64url, ← String.length_toList, String.toList_ofList, encode, List.length_map,
    length_encodeValues]

/-- Exactly the encodings are decoded, and each to what it encodes. -/
structure RoundTrips (value : String) : Prop where
  accepts : (∃ bytes, decodeBase64url value = .ok bytes) ↔ ∃ bytes, value = encodeBase64url bytes
  reencodes : ∀ bytes, decodeBase64url value = .ok bytes → encodeBase64url bytes = value
  signature : (∃ bytes, decodeSignature value = .ok bytes) ↔
    ∃ bytes, bytes.length = 64 ∧ value.length = 86 ∧ value = encodeBase64url bytes

/-- The text is not taken at all, or it has only digits of the URL alphabet and no bits are
left over. -/
def CleanIfTaken (value : String) : Prop :=
  ∀ digits pads, Decodable value.toList digits pads → Clean value.toList

theorem encode_eq_of_cleanIfTaken (h : CleanIfTaken value)
    (decoded : decodeBase64url value = .ok bytes) : encodeBase64url bytes = value := by
  obtain ⟨digits, pads, hdecodable, -⟩ := decodeBase64url_eq_ok.mp decoded
  obtain ⟨original, rfl⟩ := clean_iff.mp (h digits pads hdecodable)
  rw [decodeBase64url_encode] at decoded
  rw [Except.ok.inj decoded]

private theorem roundTrips_iff : RoundTrips value ↔ CleanIfTaken value := by
  constructor
  · intro h digits pads hdecodable
    exact clean_iff.mpr (h.accepts.mp ⟨_, decodeBase64url_eq_ok.mpr ⟨digits, pads, hdecodable, rfl⟩⟩)
  · intro h
    refine ⟨?_, fun bytes => encode_eq_of_cleanIfTaken h, ?_⟩
    · constructor
      · rintro ⟨bytes, hbytes⟩
        exact ⟨bytes, (encode_eq_of_cleanIfTaken h hbytes).symm⟩
      · rintro ⟨bytes, rfl⟩
        exact ⟨bytes, decodeBase64url_encode bytes⟩
    · constructor
      · rintro ⟨bytes, hbytes⟩
        obtain ⟨hdecoded, hlength⟩ := decodeSignature_eq_ok.mp hbytes
        have hvalue := encode_eq_of_cleanIfTaken h hdecoded
        refine ⟨bytes, hlength, ?_, hvalue.symm⟩
        rw [← hvalue, length_encodeBase64url, hlength]
      · rintro ⟨bytes, hlength, -, rfl⟩
        exact ⟨bytes, decodeSignature_eq_ok.mpr ⟨decodeBase64url_encode bytes, hlength⟩⟩

/-- Two clean texts are never decoded alike. -/
theorem eq_of_decodes_alike {other : String} (h : CleanIfTaken value) (h' : CleanIfTaken other)
    (first : decodeBase64url value = .ok bytes) (second : decodeBase64url other = .ok bytes) :
    value = other := by
  rw [← encode_eq_of_cleanIfTaken h first, encode_eq_of_cleanIfTaken h' second]

/-- The decoder is exact on the texts that are clean or not taken, and only there. Two of
these are never decoded alike. -/
theorem exactly_encodings (value : String) : (RoundTrips value ↔ CleanIfTaken value) ∧
    ∀ other bytes, CleanIfTaken value → CleanIfTaken other →
      (decodeBase64url value = .ok bytes → decodeBase64url other = .ok bytes → value = other) ∧
        (decodeSignature value = .ok bytes → decodeSignature other = .ok bytes → value = other) := by
  refine ⟨roundTrips_iff, fun other bytes hvalue hother => ⟨eq_of_decodes_alike hvalue hother, ?_⟩⟩
  intro hfirst hsecond
  exact eq_of_decodes_alike hvalue hother (decodeSignature_eq_ok.mp hfirst).1
    (decodeSignature_eq_ok.mp hsecond).1

/-- The digits of the standard alphabet, padding and bits left over are all taken. -/
theorem not_only_encodings : ¬ RoundTrips "+/+/" ∧ ¬ RoundTrips "AA==" ∧ ¬ RoundTrips "AB" := by
  have hstandard : decodeBase64url "+/+/" = .ok [251, 255, 191] := by decide +kernel
  have hpadded : decodeBase64url "AA==" = .ok [0] := by decide +kernel
  have hspare : decodeBase64url "AB" = .ok [0] := by decide +kernel
  refine ⟨fun h => ?_, fun h => ?_, fun h => ?_⟩
  · exact absurd (h.reencodes _ hstandard) (by decide +kernel)
  · exact absurd (h.reencodes _ hpadded) (by decide +kernel)
  · exact absurd (h.reencodes _ hspare) (by decide +kernel)

end Decoding

end PolicyModelRouter.UnpaddedEncodings
