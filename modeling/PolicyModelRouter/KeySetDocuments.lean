import Mathlib.Data.List.Forall2
import Mathlib.Data.List.Perm.Basic
import PolicyModelRouter.DocumentFields
import PolicyModelRouter.SnapshotPayloads
import PolicyModelRouter.TrustedKeys
import PolicyModelRouter.VerificationSpecification

/-!
# Key-set documents

How the key file is parsed once it is decoded. Whatever is wrong with a document is one
error; a document that is accepted lists the trusted keys, each under an identifier of its
own, so that resolving one does not depend on their order.
-/

namespace PolicyModelRouter.KeySetDocuments
open DocumentFields OrderedChecks RouterCalls RuntimeControl TrustedKeys UtcTimestamps

inductive ParseException where
  /-- The error of an invalid key set. -/
  | keySet (message : String)
  | authorization (e : PyException)
  | valueError
  | keyError
  deriving DecidableEq

/-- The clock format of the standard library and the loader of public keys. What they do not
read is a `ValueError`. -/
class KeyLibraries where
  fromisoformat : List ℕ → Option ClockReading
  fromPublicBytes : List UInt8 → Bool

def item (fields : Fields) (name : String) : Except ParseException PyValue :=
  match fields.lookup (points name) with
  | some v => .ok v
  | none => .error .keyError

def keyStatusOf (v : PyValue) : Option RuntimeAuthorizationKeyStatus :=
  [.active, .retiring, .revoked].find? fun status => v.isText status.value

def replaceZ (text : List ℕ) : List ℕ :=
  text.flatMap fun c => if c = 'Z'.toNat then points "+00:00" else [c]

/-- What is expressed in UTC keeps its wall clock there. -/
def parseUtc [KeyLibraries] : PyValue → Except ParseException Datetime
  | .str text =>
    match KeyLibraries.fromisoformat (replaceZ text) with
    | none => .error .valueError
    | some parsed => do
      (requireUtc parsed).mapError .authorization
      .ok parsed.wall
  | _ => .error .valueError

/-- Only ASCII characters can be encoded. -/
def decodePoints (text : List ℕ) : Except ParseException (List UInt8) :=
  if text.all (· < 128) then
    (decodeBase64url (String.ofList (text.map Char.ofNat))).mapError fun _ => .valueError
  else .error .valueError

def keyMaterial [KeyLibraries] (fields : Fields) (x : List ℕ) :
    Except ParseException (List UInt8 × Datetime × Datetime) := do
  let publicBytes ← decodePoints x
  raiseIf (KeyLibraries.fromPublicBytes publicBytes = false) .valueError
  let notBefore ← item fields "not_before"
  let notBefore ← parseUtc notBefore
  let verifyUntil ← item fields "verify_until"
  let verifyUntil ← parseUtc verifyUntil
  .ok (publicBytes, notBefore, verifyUntil)

/-- Everything wrong with key material is an invalid key set. -/
def normalize : ParseException → ParseException
  | .keyError => .keyError
  | _ => .keySet "Runtime authorization key material is invalid"

def parseJwk : PyValue → Except ParseException (List ℕ)
  | .dict fields => do
    raiseIf (hasExactly ["kty", "crv", "x"] fields = false) (.keySet "Invalid Ed25519 JWK")
    raiseIf (((field fields "kty").isText "OKP" && (field fields "crv").isText "Ed25519") = false)
      (.keySet "Only Ed25519 OKP keys are trusted")
    match field fields "x" with
    | .str x => .ok x
    | _ => .error (.keySet "Missing Ed25519 public key")
  | _ => .error (.keySet "Invalid Ed25519 JWK")

def entryFields : List String := ["kid", "status", "not_before", "verify_until", "jwk"]

def parseKeyEntry [KeyLibraries] : PyValue → Except ParseException TrustedRuntimeAuthorizationKey
  | .dict fields => do
    raiseIf (hasExactly entryFields fields = false) (.keySet "Key entry contains unsupported fields")
    let kid ← item fields "kid"
    let status ← item fields "status"
    let jwk ← item fields "jwk"
    match kid with
    | .str kid => do
      raiseIf (kid = []) (.keySet "Invalid key identifier")
      match keyStatusOf status with
      | none => .error (.keySet "Invalid key status")
      | some status => do
        let x ← parseJwk jwk
        let (publicBytes, notBefore, verifyUntil) ← (keyMaterial fields x).mapError normalize
        if h : publicBytes.length = 32 ∧ notBefore < verifyUntil then
          .ok ⟨kid, status, publicBytes, notBefore, verifyUntil, h.1, h.2⟩
        else .error (.keySet "Runtime authorization key window or size is invalid")
    | _ => .error (.keySet "Invalid key identifier")
  | _ => .error (.keySet "Key entry must be an object")

/-- The loop over the entries, with the identifiers seen so far. -/
def parseKeyEntries [KeyLibraries] (seen : List (List ℕ)) :
    List PyValue → Except ParseException (List TrustedRuntimeAuthorizationKey)
  | [] => .ok []
  | entry :: rest => do
    let key ← parseKeyEntry entry
    raiseIf (key.kid ∈ seen) (.keySet "Duplicate key identifier")
    let keys ← parseKeyEntries (key.kid :: seen) rest
    .ok (key :: keys)

def keySetFields : List String := ["schema_version", "generation", "keys"]

def parseKeySet [KeyLibraries] :
    PyValue → Except ParseException TrustedRuntimeAuthorizationKeySet
  | .dict fields => do
    raiseIf (hasExactly keySetFields fields = false) (.keySet "Key set contains unsupported fields")
    let schemaVersion ← item fields "schema_version"
    raiseIf (schemaVersion.isText "1.0" = false) (.keySet "Unsupported key-set schema version")
    let generation ← item fields "generation"
    let entries ← item fields "keys"
    match generation with
    | .int generation => do
      raiseIf (generation < 1) (.keySet "Invalid key-set generation")
      match entries with
      | .list entries => do
        raiseIf (entries.isEmpty = true) (.keySet "Key set must contain keys")
        let keys ← parseKeyEntries [] entries
        raiseIf (keys.any (fun key => key.status = .active) = false)
          (.keySet "Key set must contain at least one active key")
        .ok ⟨generation, keys⟩
      | _ => .error (.keySet "Key set must contain keys")
    | _ => .error (.keySet "Invalid key-set generation")
  | _ => .error (.keySet "Key set must be an object")

def IsKeySet (e : ParseException) : Prop := ∃ message, e = .keySet message

section Errors

variable {fields : Fields} {names : List String} {name : String}

theorem item_eq_ok {v : PyValue} :
    item fields name = .ok v ↔ fields.lookup (points name) = some v := by
  unfold item
  cases fields.lookup (points name) <;> simp

theorem exists_item (exact_ : hasExactly names fields = true) (mem : name ∈ names) :
    ∃ v, item fields name = .ok v := by
  have hkey : points name ∈ fields.map Prod.fst :=
    (hasExactly_iff.mp exact_ _).mpr (List.mem_map_of_mem mem)
  simp only [item_eq_ok]
  exact Option.isSome_iff_exists.mp (isSome_lookup_iff.mpr hkey)

theorem onlyErrors_item_bind {α : Type} {kind : ParseException → Prop} {v : PyValue}
    {f : PyValue → Except ParseException α} (h : item fields name = .ok v)
    (hf : OnlyErrors kind (f v)) : OnlyErrors kind (item fields name >>= f) := by
  rw [h]
  exact hf

theorem onlyErrors_raiseIf {condition : Prop} [Decidable condition] {e : ParseException}
    {kind : ParseException → Prop} (h : kind e) : OnlyErrors kind (raiseIf condition e) := by
  unfold raiseIf
  split_ifs
  · exact .error h
  · exact .ok ()

private theorem onlyErrors_of_raised {α : Type} {condition : Prop} [Decidable condition]
    {e : ParseException} {kind : ParseException → Prop} {f : Unit → Except ParseException α}
    (met : condition) (h : kind e) : OnlyErrors kind (raiseIf condition e >>= f) := by
  rw [raiseIf, if_pos met]
  exact .error h

variable [KeyLibraries]

private theorem onlyErrors_parseUtc (v : PyValue) : OnlyErrors (· ≠ .keyError) (parseUtc v) := by
  unfold parseUtc
  split
  · split
    · exact .error nofun
    · refine OnlyErrors.bind (onlyErrors_mapError.mpr fun e _ => nofun) fun _ => .ok _
  · exact .error nofun

private theorem onlyErrors_keyMaterial (exact_ : hasExactly entryFields fields = true) (x : List ℕ) :
    OnlyErrors (· ≠ .keyError) (keyMaterial fields x) := by
  obtain ⟨notBefore, hnotBefore⟩ := exists_item exact_ (show "not_before" ∈ entryFields by decide)
  obtain ⟨verifyUntil, hverifyUntil⟩ :=
    exists_item exact_ (show "verify_until" ∈ entryFields by decide)
  have hdecode : OnlyErrors (· ≠ ParseException.keyError) (decodePoints x) := by
    unfold decodePoints
    split_ifs
    · exact onlyErrors_mapError.mpr fun e _ => nofun
    · exact .error nofun
  unfold keyMaterial
  refine hdecode.bind fun publicBytes => (onlyErrors_raiseIf nofun).bind fun _ => ?_
  refine onlyErrors_item_bind hnotBefore ((onlyErrors_parseUtc _).bind fun _ => ?_)
  exact onlyErrors_item_bind hverifyUntil ((onlyErrors_parseUtc _).bind fun _ => .ok _)

omit [KeyLibraries] in
private theorem onlyErrors_parseJwk (jwk : PyValue) : OnlyErrors IsKeySet (parseJwk jwk) := by
  unfold parseJwk
  split
  · refine (onlyErrors_raiseIf ⟨_, rfl⟩).bind fun _ => (onlyErrors_raiseIf ⟨_, rfl⟩).bind fun _ => ?_
    split
    · exact .ok _
    · exact .error ⟨_, rfl⟩
  · exact .error ⟨_, rfl⟩

private theorem onlyErrors_parseKeyEntry (entry : PyValue) : OnlyErrors IsKeySet
    (parseKeyEntry entry) := by
  unfold parseKeyEntry
  split
  · rename_i fields
    by_cases hexact : hasExactly entryFields fields = true
    · obtain ⟨kid, hkid⟩ := exists_item hexact (show "kid" ∈ entryFields by decide)
      obtain ⟨status, hstatus⟩ := exists_item hexact (show "status" ∈ entryFields by decide)
      obtain ⟨jwk, hjwk⟩ := exists_item hexact (show "jwk" ∈ entryFields by decide)
      refine (onlyErrors_raiseIf ⟨_, rfl⟩).bind fun _ => onlyErrors_item_bind hkid ?_
      refine onlyErrors_item_bind hstatus (onlyErrors_item_bind hjwk ?_)
      split
      · refine (onlyErrors_raiseIf ⟨_, rfl⟩).bind fun _ => ?_
        split
        · exact .error ⟨_, rfl⟩
        · refine (onlyErrors_parseJwk jwk).bind fun x => OnlyErrors.bind ?_ fun material => ?_
          · refine onlyErrors_mapError.mpr fun e he => ?_
            have hne := onlyErrors_keyMaterial hexact x e he
            cases e with
            | keyError => exact absurd rfl hne
            | _ => exact ⟨_, rfl⟩
          · obtain ⟨publicBytes, notBefore, verifyUntil⟩ := material
            dsimp only
            split
            · exact .ok _
            · exact .error ⟨_, rfl⟩
      · exact .error ⟨_, rfl⟩
    · exact onlyErrors_of_raised (Bool.eq_false_of_not_eq_true hexact) ⟨_, rfl⟩
  · exact .error ⟨_, rfl⟩

private theorem onlyErrors_parseKeyEntries (seen : List (List ℕ)) (entries : List PyValue) :
    OnlyErrors IsKeySet (parseKeyEntries seen entries) := by
  induction entries generalizing seen with
  | nil => exact .ok _
  | cons entry rest ih =>
    exact (onlyErrors_parseKeyEntry entry).bind fun key =>
      (onlyErrors_raiseIf ⟨_, rfl⟩).bind fun _ => (ih _).bind fun _ => .ok _

private theorem onlyErrors_parseKeySet (document : PyValue) :
    OnlyErrors IsKeySet (parseKeySet document) := by
  unfold parseKeySet
  split
  · rename_i fields
    by_cases hexact : hasExactly keySetFields fields = true
    · obtain ⟨schemaVersion, hschema⟩ :=
        exists_item hexact (show "schema_version" ∈ keySetFields by decide)
      obtain ⟨generation, hgeneration⟩ :=
        exists_item hexact (show "generation" ∈ keySetFields by decide)
      obtain ⟨entries, hentries⟩ := exists_item hexact (show "keys" ∈ keySetFields by decide)
      refine (onlyErrors_raiseIf ⟨_, rfl⟩).bind fun _ => onlyErrors_item_bind hschema ?_
      refine (onlyErrors_raiseIf ⟨_, rfl⟩).bind fun _ => onlyErrors_item_bind hgeneration ?_
      refine onlyErrors_item_bind hentries ?_
      split
      · refine (onlyErrors_raiseIf ⟨_, rfl⟩).bind fun _ => ?_
        split
        · refine (onlyErrors_raiseIf ⟨_, rfl⟩).bind fun _ => ?_
          refine (onlyErrors_parseKeyEntries _ _).bind fun keys => ?_
          exact (onlyErrors_raiseIf ⟨_, rfl⟩).bind fun _ => .ok _
        · exact .error ⟨_, rfl⟩
      · exact .error ⟨_, rfl⟩
    · exact onlyErrors_of_raised (Bool.eq_false_of_not_eq_true hexact) ⟨_, rfl⟩
  · exact .error ⟨_, rfl⟩

end Errors

/-- A timestamp that reads as an instant expressed in UTC. -/
def IsUtc [KeyLibraries] (v : PyValue) (instant : Datetime) : Prop :=
  ∃ text, v = .str text ∧ KeyLibraries.fromisoformat (replaceZ text) = some ⟨instant, some 0⟩

/-- The entry has exactly the fields of this key. -/
def Describes [KeyLibraries] (entry : PyValue) (key : TrustedRuntimeAuthorizationKey) : Prop :=
  ∃ fields, entry = .dict fields ∧ hasExactly entryFields fields = true ∧
    fields.lookup (points "kid") = some (.str key.kid) ∧ key.kid ≠ [] ∧
    fields.lookup (points "status") =
      some (.str (points key.status.value)) ∧
    (∃ notBefore, fields.lookup (points "not_before") = some notBefore ∧
      IsUtc notBefore key.notBefore) ∧
    (∃ verifyUntil, fields.lookup (points "verify_until") = some verifyUntil ∧
      IsUtc verifyUntil key.verifyUntil) ∧
    ∃ jwk x, fields.lookup (points "jwk") = some (.dict jwk) ∧
      hasExactly ["kty", "crv", "x"] jwk = true ∧ field jwk "kty" = .str (points "OKP") ∧
      field jwk "crv" = .str (points "Ed25519") ∧ field jwk "x" = .str x ∧
      decodePoints x = .ok key.publicKey ∧ KeyLibraries.fromPublicBytes key.publicKey = true

section Accepted

variable [KeyLibraries] {entry : PyValue} {key : TrustedRuntimeAuthorizationKey}

theorem parseUtc_eq_ok {v : PyValue} {instant : Datetime} :
    parseUtc v = .ok instant ↔ IsUtc v instant := by
  unfold parseUtc IsUtc
  cases v with
  | str text =>
    simp only [PyValue.str.injEq, exists_eq_left']
    cases KeyLibraries.fromisoformat (replaceZ text) with
    | none => simp
    | some parsed =>
      obtain ⟨wall, utcoffset⟩ := parsed
      simp only [Option.some.injEq, ClockReading.mk.injEq]
      constructor
      · intro h
        obtain ⟨_, hutc, h⟩ := bind_eq_ok.mp h
        have hoffset := raiseIf_eq_ok.mp (mapError_eq_ok.mp hutc)
        cases h
        exact ⟨rfl, not_ne_iff.mp hoffset⟩
      · rintro ⟨rfl, rfl⟩
        rfl
  | _ => simp

omit [KeyLibraries] in
private theorem keyStatusOf_eq_some {v : PyValue} {status : RuntimeAuthorizationKeyStatus} :
    keyStatusOf v = some status ↔ v = .str (points status.value) := by
  constructor
  · intro h
    have htext := List.find?_some h
    exact SnapshotPayloads.isText_iff.mp htext
  · rintro rfl
    cases status <;> rfl

private theorem keyMaterial_eq_ok {fields : Fields} {x : List ℕ} {publicBytes : List UInt8}
    {notBefore verifyUntil : Datetime} :
    keyMaterial fields x = .ok (publicBytes, notBefore, verifyUntil) ↔
      decodePoints x = .ok publicBytes ∧ KeyLibraries.fromPublicBytes publicBytes = true ∧
        (∃ v, fields.lookup (points "not_before") = some v ∧ IsUtc v notBefore) ∧
        ∃ v, fields.lookup (points "verify_until") = some v ∧ IsUtc v verifyUntil := by
  unfold keyMaterial
  constructor
  · intro h
    obtain ⟨bytes, hbytes, h⟩ := bind_eq_ok.mp h
    obtain ⟨_, hload, h⟩ := bind_eq_ok.mp h
    obtain ⟨first, hfirst, h⟩ := bind_eq_ok.mp h
    obtain ⟨begins, hbegins, h⟩ := bind_eq_ok.mp h
    obtain ⟨second, hsecond, h⟩ := bind_eq_ok.mp h
    obtain ⟨ends, hends, h⟩ := bind_eq_ok.mp h
    cases h
    exact ⟨hbytes, by simpa using raiseIf_eq_ok.mp hload,
      ⟨first, item_eq_ok.mp hfirst, parseUtc_eq_ok.mp hbegins⟩,
      ⟨second, item_eq_ok.mp hsecond, parseUtc_eq_ok.mp hends⟩⟩
  · rintro ⟨hbytes, hload, ⟨first, hfirst, hbegins⟩, second, hsecond, hends⟩
    refine bind_eq_ok.mpr ⟨publicBytes, hbytes, ?_⟩
    refine bind_eq_ok.mpr ⟨(), raiseIf_eq_ok.mpr (by simp [hload]), ?_⟩
    refine bind_eq_ok.mpr ⟨first, item_eq_ok.mpr hfirst, ?_⟩
    refine bind_eq_ok.mpr ⟨notBefore, parseUtc_eq_ok.mpr hbegins, ?_⟩
    refine bind_eq_ok.mpr ⟨second, item_eq_ok.mpr hsecond, ?_⟩
    exact bind_eq_ok.mpr ⟨verifyUntil, parseUtc_eq_ok.mpr hends, rfl⟩

omit [KeyLibraries] in
private theorem parseJwk_eq_ok {jwk : PyValue} {x : List ℕ} : parseJwk jwk = .ok x ↔
    ∃ fields, jwk = .dict fields ∧ hasExactly ["kty", "crv", "x"] fields = true ∧
      field fields "kty" = .str (points "OKP") ∧ field fields "crv" = .str (points "Ed25519") ∧
      field fields "x" = .str x := by
  unfold parseJwk
  constructor
  · intro h
    cases jwk with
    | dict fields =>
      obtain ⟨_, hexact, h⟩ := bind_eq_ok.mp h
      obtain ⟨_, hkind, h⟩ := bind_eq_ok.mp h
      have hexact := raiseIf_eq_ok.mp hexact
      have hkind := raiseIf_eq_ok.mp hkind
      rw [Bool.not_eq_false] at hexact hkind
      obtain ⟨hkty, hcrv⟩ := Bool.and_eq_true_iff.mp hkind
      split at h
      · rename_i text htext
        cases h
        exact ⟨fields, rfl, hexact, SnapshotPayloads.isText_iff.mp hkty,
          SnapshotPayloads.isText_iff.mp hcrv, htext⟩
      · cases h
    | _ => cases h
  · rintro ⟨fields, rfl, hexact, hkty, hcrv, hx⟩
    refine bind_eq_ok.mpr ⟨(), raiseIf_eq_ok.mpr (by simp [hexact]), ?_⟩
    refine bind_eq_ok.mpr ⟨(), raiseIf_eq_ok.mpr (by simp [hkty, hcrv, PyValue.isText]), ?_⟩
    rw [hx]

/-- A key is parsed from an entry that says what it is, and from no other. -/
theorem parseKeyEntry_eq_ok : parseKeyEntry entry = .ok key ↔ Describes entry key := by
  unfold parseKeyEntry
  constructor
  · intro h
    cases entry with
    | dict fields =>
      obtain ⟨_, hexact, h⟩ := bind_eq_ok.mp h
      have hexact := raiseIf_eq_ok.mp hexact
      rw [Bool.not_eq_false] at hexact
      obtain ⟨kid, hkid, h⟩ := bind_eq_ok.mp h
      obtain ⟨status, hstatus, h⟩ := bind_eq_ok.mp h
      obtain ⟨jwk, hjwk, h⟩ := bind_eq_ok.mp h
      cases kid with
      | str kid =>
        obtain ⟨_, hnamed, h⟩ := bind_eq_ok.mp h
        have hnamed := raiseIf_eq_ok.mp hnamed
        split at h
        · cases h
        · rename_i found hfound
          obtain ⟨x, hx, h⟩ := bind_eq_ok.mp h
          obtain ⟨⟨publicBytes, notBefore, verifyUntil⟩, hmaterial, h⟩ := bind_eq_ok.mp h
          dsimp only at h
          split at h
          · cases h
            obtain ⟨hbytes, hload, hnotBefore, hverifyUntil⟩ :=
              keyMaterial_eq_ok.mp (mapError_eq_ok.mp hmaterial)
            obtain ⟨jwkFields, rfl, hjwkExact, hkty, hcrv, hx⟩ := parseJwk_eq_ok.mp hx
            have hstatus := item_eq_ok.mp hstatus
            rw [keyStatusOf_eq_some.mp hfound] at hstatus
            exact ⟨fields, rfl, hexact, item_eq_ok.mp hkid, hnamed, hstatus, hnotBefore, hverifyUntil,
              jwkFields, x, item_eq_ok.mp hjwk, hjwkExact, hkty, hcrv, hx, hbytes, hload⟩
          · cases h
      | _ => cases h
    | _ => cases h
  · rintro ⟨fields, rfl, hexact, hkid, hnamed, hstatus, hnotBefore, hverifyUntil, jwk, x, hjwk,
      hjwkExact, hkty, hcrv, hx, hbytes, hload⟩
    have hmaterial := keyMaterial_eq_ok.mpr ⟨hbytes, hload, hnotBefore, hverifyUntil⟩
    have hread := parseJwk_eq_ok.mpr ⟨jwk, rfl, hjwkExact, hkty, hcrv, hx⟩
    refine bind_eq_ok.mpr ⟨(), raiseIf_eq_ok.mpr (by simp [hexact]), ?_⟩
    refine bind_eq_ok.mpr ⟨_, item_eq_ok.mpr hkid, ?_⟩
    refine bind_eq_ok.mpr ⟨_, item_eq_ok.mpr hstatus, ?_⟩
    refine bind_eq_ok.mpr ⟨_, item_eq_ok.mpr hjwk, ?_⟩
    refine bind_eq_ok.mpr ⟨(), raiseIf_eq_ok.mpr hnamed, ?_⟩
    rw [keyStatusOf_eq_some.mpr rfl]
    refine bind_eq_ok.mpr ⟨x, hread, ?_⟩
    refine bind_eq_ok.mpr ⟨_, mapError_eq_ok.mpr hmaterial, ?_⟩
    exact dif_pos ⟨key.keySize, key.window⟩

/-- The loop keeps every entry, in order, and rejects an identifier it has seen. -/
theorem parseKeyEntries_eq_ok {seen : List (List ℕ)} {entries : List PyValue}
    {keys : List TrustedRuntimeAuthorizationKey} :
    parseKeyEntries seen entries = .ok keys ↔
      List.Forall₂ Describes entries keys ∧ (keys.map TrustedRuntimeAuthorizationKey.kid).Nodup ∧
        ∀ key ∈ keys, key.kid ∉ seen := by
  induction entries generalizing seen keys with
  | nil =>
    simp only [parseKeyEntries, Except.ok.injEq, List.forall₂_nil_left_iff]
    constructor
    · rintro rfl
      simp
    · exact fun h => h.1.symm
  | cons entry rest ih =>
    constructor
    · intro h
      obtain ⟨key, hkey, h⟩ := bind_eq_ok.mp h
      obtain ⟨_, hnew, h⟩ := bind_eq_ok.mp h
      obtain ⟨others, hothers, h⟩ := bind_eq_ok.mp h
      cases h
      obtain ⟨hall, hnodup, hunseen⟩ := ih.mp hothers
      refine ⟨.cons (parseKeyEntry_eq_ok.mp hkey) hall, List.nodup_cons.mpr ⟨?_, hnodup⟩, ?_⟩
      · intro hmem
        obtain ⟨other, hother, hsame⟩ := List.mem_map.mp hmem
        exact hunseen other hother (hsame ▸ List.mem_cons_self)
      · intro other hother
        rcases List.mem_cons.mp hother with rfl | hother
        · exact raiseIf_eq_ok.mp hnew
        · exact fun hmem => hunseen other hother (List.mem_cons_of_mem _ hmem)
    · rintro ⟨hall, hnodup, hunseen⟩
      obtain ⟨key, others, hkey, hothers, rfl⟩ := List.forall₂_cons_left_iff.mp hall
      obtain ⟨hnew, hnodup⟩ := List.nodup_cons.mp hnodup
      refine bind_eq_ok.mpr ⟨key, parseKeyEntry_eq_ok.mpr hkey, ?_⟩
      refine bind_eq_ok.mpr ⟨(), ?_, bind_eq_ok.mpr ⟨others, ?_, rfl⟩⟩
      · exact raiseIf_eq_ok.mpr (hunseen key List.mem_cons_self)
      · refine ih.mpr ⟨hothers, hnodup, fun other hother hmem => ?_⟩
        rcases List.mem_cons.mp hmem with hsame | hmem
        · exact hnew (List.mem_map.mpr ⟨other, hother, hsame⟩)
        · exact hunseen other (List.mem_cons_of_mem _ hother) hmem

/-- The document states this key set: every key in an entry of its own, under an identifier of
its own, and one of them active. -/
structure States (fields : Fields) (entries : List PyValue)
    (keySet : TrustedRuntimeAuthorizationKeySet) : Prop where
  exact_ : hasExactly keySetFields fields = true
  schemaVersion : fields.lookup (points "schema_version") = some (.str (points "1.0"))
  generation : fields.lookup (points "generation") = some (.int keySet.generation)
  positive : 1 ≤ keySet.generation
  keys : fields.lookup (points "keys") = some (.list entries)
  listed : List.Forall₂ Describes entries keySet.keys
  distinct : (keySet.keys.map TrustedRuntimeAuthorizationKey.kid).Nodup
  active : ∃ key ∈ keySet.keys, key.status = .active

/-- Exactly the documents that state a key set are parsed. -/
theorem parseKeySet_eq_ok {document : PyValue} {keySet : TrustedRuntimeAuthorizationKeySet} :
    parseKeySet document = .ok keySet ↔
      ∃ fields entries, document = .dict fields ∧ States fields entries keySet := by
  constructor
  · intro h
    unfold parseKeySet at h
    cases document with
    | dict fields =>
      obtain ⟨_, hexact, h⟩ := bind_eq_ok.mp h
      obtain ⟨schemaVersion, hschema, h⟩ := bind_eq_ok.mp h
      obtain ⟨_, hversion, h⟩ := bind_eq_ok.mp h
      obtain ⟨generation, hgeneration, h⟩ := bind_eq_ok.mp h
      obtain ⟨entries, hentries, h⟩ := bind_eq_ok.mp h
      have hexact := raiseIf_eq_ok.mp hexact
      have hversion := raiseIf_eq_ok.mp hversion
      rw [Bool.not_eq_false] at hexact hversion
      have hschema := item_eq_ok.mp hschema
      rw [SnapshotPayloads.isText_iff.mp hversion] at hschema
      cases generation with
      | int generation =>
        obtain ⟨_, hpositive, h⟩ := bind_eq_ok.mp h
        cases entries with
        | list entries =>
          obtain ⟨_, hsome, h⟩ := bind_eq_ok.mp h
          obtain ⟨keys, hkeys, h⟩ := bind_eq_ok.mp h
          obtain ⟨_, hactive, h⟩ := bind_eq_ok.mp h
          cases h
          have hactive := raiseIf_eq_ok.mp hactive
          rw [Bool.not_eq_false, List.any_eq_true] at hactive
          simp only [decide_eq_true_eq] at hactive
          obtain ⟨hall, hdistinct, -⟩ := parseKeyEntries_eq_ok.mp hkeys
          exact ⟨fields, entries, rfl, hexact, hschema, item_eq_ok.mp hgeneration,
            not_lt.mp (raiseIf_eq_ok.mp hpositive), item_eq_ok.mp hentries, hall, hdistinct, hactive⟩
        | _ => cases h
      | _ => cases h
    | _ => cases h
  · rintro ⟨fields, entries, rfl, hexact, hschema, hgeneration, hpositive, hentries, hall, hdistinct,
      hactive⟩
    have hkeys := parseKeyEntries_eq_ok.mpr
      ⟨hall, hdistinct, fun key _ => List.not_mem_nil (a := key.kid)⟩
    have hsome : entries ≠ [] := by
      rintro rfl
      obtain ⟨key, hkey, -⟩ := hactive
      rw [List.forall₂_nil_left_iff.mp hall] at hkey
      cases hkey
    refine bind_eq_ok.mpr ⟨(), raiseIf_eq_ok.mpr (by simp [hexact]), ?_⟩
    refine bind_eq_ok.mpr ⟨_, item_eq_ok.mpr hschema, ?_⟩
    refine bind_eq_ok.mpr ⟨(), raiseIf_eq_ok.mpr (by simp [PyValue.isText]), ?_⟩
    refine bind_eq_ok.mpr ⟨_, item_eq_ok.mpr hgeneration, ?_⟩
    refine bind_eq_ok.mpr ⟨_, item_eq_ok.mpr hentries, ?_⟩
    refine bind_eq_ok.mpr ⟨(), raiseIf_eq_ok.mpr (not_lt.mpr hpositive), ?_⟩
    refine bind_eq_ok.mpr ⟨(), raiseIf_eq_ok.mpr (by simpa using hsome), ?_⟩
    refine bind_eq_ok.mpr ⟨_, hkeys, ?_⟩
    refine bind_eq_ok.mpr ⟨(), raiseIf_eq_ok.mpr (by simpa using hactive), rfl⟩

end Accepted

section TrustSet

variable {keySet other : TrustedRuntimeAuthorizationKeySet} {fields : Fields} {entries : List PyValue}

/-- Under distinct identifiers the key with an identifier is resolved, wherever it is. -/
theorem resolve_eq_some {kid : List ℕ} {key : TrustedRuntimeAuthorizationKey}
    (distinct : (keySet.keys.map TrustedRuntimeAuthorizationKey.kid).Nodup) :
    keySet.resolve kid = some key ↔ key ∈ keySet.keys ∧ key.kid = kid := by
  unfold TrustedRuntimeAuthorizationKeySet.resolve
  constructor
  · intro h
    have hkid := List.find?_some h
    exact ⟨List.mem_of_find?_eq_some h, by simpa using hkid⟩
  · rintro ⟨hmem, rfl⟩
    have hsome : (keySet.keys.find? fun k => k.kid = key.kid).isSome :=
      List.find?_isSome.mpr ⟨key, hmem, decide_eq_true rfl⟩
    obtain ⟨found, hfound⟩ := Option.isSome_iff_exists.mp hsome
    have hkid := List.find?_some hfound
    simp only [decide_eq_true_eq] at hkid
    rw [hfound, List.inj_on_of_nodup_map distinct (List.mem_of_find?_eq_some hfound) hmem hkid]

/-- The order of the keys does not matter. -/
theorem resolve_congr (distinct : (keySet.keys.map TrustedRuntimeAuthorizationKey.kid).Nodup)
    (perm : other.keys.Perm keySet.keys) (kid : List ℕ) : other.resolve kid = keySet.resolve kid := by
  have hdistinct : (other.keys.map TrustedRuntimeAuthorizationKey.kid).Nodup :=
    (perm.map _).nodup_iff.mpr distinct
  refine Option.ext fun key => ?_
  rw [resolve_eq_some hdistinct, resolve_eq_some distinct, perm.mem_iff]

private theorem exists_related {α β : Type} {r : α → β → Prop} {l : List α} {l' : List β}
    (h : List.Forall₂ r l l') {a : α} (mem : a ∈ l) : ∃ b ∈ l', r a b := by
  induction h with
  | nil => cases mem
  | cons hr _ ih =>
    rcases List.mem_cons.mp mem with rfl | mem
    · exact ⟨_, List.mem_cons_self, hr⟩
    · obtain ⟨b, hb, hrel⟩ := ih mem
      exact ⟨b, List.mem_cons_of_mem _ hb, hrel⟩

def Names (entry : PyValue) (kid : List ℕ) : Prop :=
  ∃ fields, entry = .dict fields ∧ fields.lookup (points "kid") = some (.str kid)

variable [KeyLibraries]

/-- The key set is exactly the keys of the document. -/
structure Loads (fields : Fields) (entries : List PyValue)
    (keySet : TrustedRuntimeAuthorizationKeySet) : Prop where
  generation : 1 ≤ keySet.generation ∧
    fields.lookup (points "generation") = some (.int keySet.generation)
  listed : List.Forall₂ Describes entries keySet.keys
  distinct : (keySet.keys.map TrustedRuntimeAuthorizationKey.kid).Nodup
  trusted : ∀ key ∈ keySet.keys, key.publicKey.length = 32 ∧ key.notBefore < key.verifyUntil
  active : ∃ key ∈ keySet.keys, key.status = .active
  resolves : ∀ kid key, keySet.resolve kid = some key ↔ key ∈ keySet.keys ∧ key.kid = kid
  unknown : ∀ kid, keySet.resolve kid = none ↔ ∀ entry ∈ entries, ¬ Names entry kid
  /-- The same entries in another order are accepted too, and resolve alike. -/
  reordered : ∀ entries', entries'.Perm entries → ∃ keySet' : TrustedRuntimeAuthorizationKeySet,
    parseKeySet (.dict (withField fields "keys" (.list entries'))) = .ok keySet' ∧
      keySet'.generation = keySet.generation ∧ ∀ kid, keySet'.resolve kid = keySet.resolve kid

theorem Describes.names {entry : PyValue} {key : TrustedRuntimeAuthorizationKey}
    (h : Describes entry key) {kid : List ℕ} : Names entry kid ↔ key.kid = kid := by
  obtain ⟨fields, rfl, -, hkid, -⟩ := h
  constructor
  · rintro ⟨_, ⟨⟩, hnamed⟩
    exact PyValue.str.inj (Option.some.inj (hkid.symm.trans hnamed))
  · rintro rfl
    exact ⟨fields, rfl, hkid⟩

private theorem loads_of_states (h : States fields entries keySet) : Loads fields entries keySet where
  generation := ⟨h.positive, h.generation⟩
  listed := h.listed
  distinct := h.distinct
  trusted key _ := ⟨key.keySize, key.window⟩
  active := h.active
  resolves _ _ := resolve_eq_some h.distinct
  unknown kid := by
    have hnone : keySet.resolve kid = none ↔ ∀ key ∈ keySet.keys, key.kid ≠ kid := by
      simp [TrustedRuntimeAuthorizationKeySet.resolve]
    rw [hnone]
    constructor
    · intro hunused entry hentry hnamed
      obtain ⟨key, hkey, hdescribes⟩ := exists_related h.listed hentry
      exact hunused key hkey (hdescribes.names.mp hnamed)
    · intro hunnamed key hkey hkid
      obtain ⟨entry, hentry, hdescribes⟩ := exists_related h.listed.flip hkey
      exact hunnamed entry hentry ((Describes.names hdescribes).mpr hkid)
  reordered entries' hperm := by
    obtain ⟨keys', hlisted, hkeys⟩ := List.perm_comp_forall₂ hperm h.listed
    have hstates : States (withField fields "keys" (.list entries')) entries'
        ⟨keySet.generation, keys'⟩ := by
      refine ⟨hasExactly_withField h.exact_, ?_, ?_, h.positive, lookup_withField_self h.keys, hlisted,
        (hkeys.map _).nodup_iff.mpr h.distinct, ?_⟩
      · rw [lookup_withField_of_ne (by decide)]
        exact h.schemaVersion
      · rw [lookup_withField_of_ne (by decide)]
        exact h.generation
      · obtain ⟨key, hkey, hstatus⟩ := h.active
        exact ⟨key, hkeys.mem_iff.mpr hkey, hstatus⟩
    exact ⟨_, parseKeySet_eq_ok.mpr ⟨_, entries', rfl, hstates⟩, rfl, resolve_congr h.distinct hkeys⟩

/-- Every document is an invalid key set or is loaded exactly, and it is loaded exactly when it
states a key set. -/
theorem loads_or_invalid (document : PyValue) :
    ((∃ message, parseKeySet document = .error (.keySet message)) ∨
      ∃ fields entries keySet, document = .dict fields ∧
        fields.lookup (points "keys") = some (.list entries) ∧
        parseKeySet document = .ok keySet ∧ Loads fields entries keySet) ∧
      ∀ keySet, parseKeySet document = .ok keySet ↔
        ∃ fields entries, document = .dict fields ∧ States fields entries keySet := by
  refine ⟨?_, fun keySet => parseKeySet_eq_ok⟩
  cases hparse : parseKeySet document with
  | error e =>
    obtain ⟨message, rfl⟩ := onlyErrors_parseKeySet document e hparse
    exact .inl ⟨message, rfl⟩
  | ok keySet =>
    obtain ⟨fields, entries, rfl, hstates⟩ := parseKeySet_eq_ok.mp hparse
    exact .inr ⟨fields, entries, keySet, rfl, hstates.keys, rfl, loads_of_states hstates⟩

end TrustSet

namespace Deployed

open RoutingSpecification.Deployed (noon)
open VerificationSpecification.Deployed (afterNoon key)

@[reducible] def keyLibraries : KeyLibraries where
  fromisoformat text :=
    if text = points "2026-01-01T12:00:00+00:00" then some (.utc noon)
    else if text = points "2026-01-01T12:15:00+00:00" then some (.utc (afterNoon 900))
    else none
  fromPublicBytes _ := true

def entryOf (kid : List ℕ) (status : RuntimeAuthorizationKeyStatus) : PyValue :=
  .dict [(points "kid", .str kid), (points "status", .str (points status.value)),
    (points "not_before", .str (points "2026-01-01T12:00:00Z")),
    (points "verify_until", .str (points "2026-01-01T12:15:00Z")),
    (points "jwk", .dict [(points "kty", .str (points "OKP")), (points "crv", .str (points "Ed25519")),
      (points "x", .str (List.replicate 43 65))])]

def documentOf (entries : List PyValue) : PyValue :=
  .dict [(points "schema_version", .str (points "1.0")), (points "generation", .int 1),
    (points "keys", .list entries)]

def keyOf (kid : List ℕ) (status : RuntimeAuthorizationKeyStatus) : TrustedRuntimeAuthorizationKey :=
  { key with kid := kid, status := status }

def rotated : PyValue :=
  documentOf [entryOf (points "2025") .retiring, entryOf (points "2026") .active]

theorem loads_or_invalid_rotated : ∃ keySet, @parseKeySet keyLibraries rotated = .ok keySet ∧
    keySet.keys.map TrustedRuntimeAuthorizationKey.kid = [points "2025", points "2026"] ∧
    (∃ key, keySet.resolve (points "2026") = some key ∧ key.status = .active) ∧
    keySet.resolve (points "2027") = none := by
  obtain ⟨hloads, -⟩ := @loads_or_invalid keyLibraries rotated
  have hparsed : @parseKeySet keyLibraries rotated =
    .ok ⟨1, [keyOf (points "2025") .retiring, keyOf (points "2026") .active]⟩ := rfl
  rw [hparsed] at hloads
  rcases hloads with ⟨message, hmessage⟩ | ⟨fields, entries, keySet, -, -, hsame, hloads⟩
  · cases hmessage
  · cases hsame
    have hresolves := @Loads.resolves keyLibraries _ _ _ hloads
    have hlisted : keyOf (points "2026") .active ∈ [keyOf (points "2025") .retiring,
        keyOf (points "2026") .active] := by simp
    exact ⟨_, hparsed, rfl, ⟨_, (hresolves _ _).mpr ⟨hlisted, rfl⟩, rfl⟩, rfl⟩

end Deployed

end PolicyModelRouter.KeySetDocuments
