import PolicyModelRouter.KeySetDocuments
import PolicyModelRouter.OrderedDicts
import PolicyModelRouter.UuidTexts

/-!
# The documents of a deployment

What is read once before the service starts: the keys of the agents, the identifiers they
are bound to, and the file of trusted keys. Each is accepted as a whole or not at all.
-/

namespace PolicyModelRouter.StartupDocuments
open DocumentFields KeySetDocuments OrderedChecks OrderedDicts RouterCalls RuntimeControl TrustedKeys
open Uuids UuidTexts

/-- What the service raises before it has started. -/
inductive StartupException where
  | runtimeError (message : String)
  | authorization (code message : String)
  | policy (e : PyException)
  | validation
  | valueError
  | other
  deriving DecidableEq

def isKeyPair : List ℕ × PyValue → Bool
  | (name, .str key) => name ≠ [] && key ≠ []
  | _ => false

def requiredApiKeys [JsonDecoder] (raw : Option String) : Except StartupException Fields :=
  let raw := raw.getD ""
  if raw = "" then
    .error (.runtimeError "API_KEYS environment variable is required to start this service")
  else
    match JsonDecoder.loads raw with
    | .error .jsonDecodeError => .error (.runtimeError
        "API_KEYS environment variable must be a JSON object mapping agent_name to API key")
    | .error .other => .error .other
    | .ok (.dict parsed) =>
      if parsed ≠ [] ∧ parsed.all isKeyPair then .ok parsed else .error malformed
    | .ok _ => .error malformed
where
  malformed : StartupException := .runtimeError
    "API_KEYS environment variable must be a non-empty JSON object of non-empty string agent_name/key pairs"

abbrev AgentBindings := OrderedDict (List ℕ) UUID

def invalidBindings (message : String) : StartupException :=
  .authorization "invalid_agent_bindings" message

def bindAgents [NumeralTables] :
    List (List ℕ × PyValue) → AgentBindings → Except StartupException AgentBindings
  | [], bindings => .ok bindings
  | (agentName, .str agentId) :: rest, bindings => do
    raiseIf (agentName = [] ∨ 200 < agentName.length)
      (invalidBindings "Runtime authorization agent bindings are invalid")
    match uuidOf agentId with
    | none =>
      .error (invalidBindings "Runtime authorization agent binding must contain UUIDs")
    | some parsed => bindAgents rest (bindings.setItem agentName parsed)
  | _ :: _, _ => .error (invalidBindings "Runtime authorization agent bindings are invalid")

def parseAgentBindings [JsonDecoder] [NumeralTables] (rawJson : String) :
    Except StartupException AgentBindings :=
  match JsonDecoder.loads rawJson with
  | .error .jsonDecodeError =>
    .error (invalidBindings "Runtime authorization agent bindings must be valid JSON")
  | .error .other => .error .other
  | .ok (.dict (field :: fields)) => bindAgents (field :: fields) .empty
  | .ok _ =>
    .error (invalidBindings "Runtime authorization agent bindings must be a non-empty object")

/-- What is at the path of the key set. -/
inductive KeyFile where
  | unreadable
  | content (bytes : List UInt8)

inductive BytesFailure where
  | unicodeDecodeError
  | jsonDecodeError
  | other

/-- The JSON decoder on bytes, which detects their encoding. -/
class BytesDecoder where
  loads : List UInt8 → Except BytesFailure PyValue

def keySetException : ParseException → StartupException
  | .keySet message => .authorization "invalid_key_set" message
  | .valueError => .valueError
  | .authorization _ | .keyError => .other

def loadTrustedKeySet [BytesDecoder] [KeyLibraries] (maxBytes : ℕ) :
    KeyFile → Except StartupException TrustedRuntimeAuthorizationKeySet
  | .unreadable => .error (.authorization "key_set_unavailable"
      "Runtime authorization key set could not be loaded")
  | .content raw => do
    raiseIf (maxBytes < raw.length) (.authorization "key_set_too_large"
      "Runtime authorization key set exceeds the configured limit")
    match BytesDecoder.loads raw with
    | .error .other => .error .other
    | .error _ =>
      .error (.authorization "invalid_key_set" "Runtime authorization key set is invalid")
    | .ok document => (parseKeySet document).mapError keySetException

section Accepted

theorem isKeyPair_iff {field : List ℕ × PyValue} :
    isKeyPair field = true ↔ field.1 ≠ [] ∧ ∃ key, field.2 = .str key ∧ key ≠ [] := by
  obtain ⟨name, value⟩ := field
  cases value <;> simp [isKeyPair]

/-- The keys are those of an object that has some, none of them empty. -/
theorem requiredApiKeys_eq_ok [JsonDecoder] {raw : Option String} {keys : Fields} :
    requiredApiKeys raw = .ok keys ↔ ∃ text, raw = some text ∧ text ≠ "" ∧
      JsonDecoder.loads text = .ok (.dict keys) ∧ keys ≠ [] ∧ ∀ field ∈ keys, isKeyPair field := by
  unfold requiredApiKeys
  cases raw with
  | none => simp
  | some text =>
    simp only [Option.getD_some, Option.some.injEq, exists_eq_left']
    split_ifs with hempty
    · simp [hempty]
    · rcases hload : JsonDecoder.loads text with (_ | _) | parsed
      · simp
      · simp
      · cases parsed with
        | dict parsed =>
          simp only [Except.ok.injEq, PyValue.dict.injEq, List.all_eq_true]
          split_ifs with hkeys
          · simp only [Except.ok.injEq]
            constructor
            · rintro rfl
              exact ⟨hempty, rfl, hkeys⟩
            · exact fun h => h.2.1
          · simp only [false_iff]
            rintro ⟨-, rfl, h⟩
            exact hkeys h
        | _ => simp

variable [NumeralTables]

/-- An item of the document that binds a name to an identifier. -/
structure Binds (field : List ℕ × PyValue) (binding : List ℕ × UUID) : Prop where
  name : binding.1 = field.1
  stated : field.1 ≠ []
  short : field.1.length ≤ 200
  identifier : ∃ text, field.2 = .str text ∧ uuidOf text = some binding.2

omit [NumeralTables] in
theorem items_setItem_of_notMem {κ ν : Type} [DecidableEq κ] {d : OrderedDict κ ν} {key : κ} {value : ν}
    (h : key ∉ d.keys) : (d.setItem key value).items = d.items ++ [(key, value)] := by
  rw [OrderedDict.setItem, dif_neg h]

/-- The loop appends a binding for each item, in their order. -/
theorem bindAgents_eq_ok {fields : Fields} {start bindings : AgentBindings}
    (distinct : (fields.map Prod.fst).Nodup) (fresh : ∀ field ∈ fields, field.1 ∉ start.keys) :
    bindAgents fields start = .ok bindings ↔
      ∃ added, List.Forall₂ Binds fields added ∧ bindings.items = start.items ++ added := by
  induction fields generalizing start with
  | nil =>
    simp only [bindAgents, Except.ok.injEq, List.forall₂_nil_left_iff]
    constructor
    · rintro rfl
      exact ⟨[], rfl, (List.append_nil _).symm⟩
    · rintro ⟨_, rfl, h⟩
      obtain ⟨items, nodup⟩ := start
      obtain ⟨items', nodup'⟩ := bindings
      obtain rfl : items' = items := h.trans (List.append_nil _)
      rfl
  | cons field fields ih =>
    obtain ⟨name, value⟩ := field
    obtain ⟨hname, hdistinct⟩ := List.nodup_cons.mp distinct
    have hfresh := fresh _ List.mem_cons_self
    cases value with
    | str text =>
      rw [bindAgents]
      have hset : ∀ id, ∀ field ∈ fields, field.1 ∉ (start.setItem name id).keys := by
        intro id field hfield hmem
        rw [OrderedDict.keys, items_setItem_of_notMem hfresh, List.map_append, List.mem_append] at hmem
        rcases hmem with hmem | hmem
        · exact fresh field (List.mem_cons_of_mem _ hfield) hmem
        · obtain hsame : field.1 = name := by simpa using hmem
          have hlisted : field.1 ∈ fields.map Prod.fst := List.mem_map_of_mem hfield
          exact hname (hsame ▸ hlisted)
      constructor
      · intro h
        obtain ⟨_, hchecked, h⟩ := bind_eq_ok.mp h
        have hshape := raiseIf_eq_ok.mp hchecked
        rw [not_or, not_lt] at hshape
        cases hid : uuidOf text with
        | none =>
          rw [hid] at h
          cases h
        | some id =>
          rw [hid] at h
          obtain ⟨added, hadded, hitems⟩ := (ih hdistinct (hset id)).mp h
          refine ⟨(name, id) :: added, .cons ⟨rfl, hshape.1, hshape.2, text, rfl, hid⟩ hadded, ?_⟩
          rw [hitems, items_setItem_of_notMem hfresh, List.append_assoc]
          rfl
      · rintro ⟨added, hadded, hitems⟩
        obtain ⟨⟨name', id⟩, rest, hbinds, hrest, rfl⟩ := List.forall₂_cons_left_iff.mp hadded
        obtain ⟨rfl, hstated, hshort, text', htext, hid⟩ := hbinds
        cases htext
        refine bind_eq_ok.mpr ⟨(), raiseIf_eq_ok.mpr (not_or.mpr ⟨hstated, not_lt.mpr hshort⟩), ?_⟩
        rw [hid]
        refine (ih hdistinct (hset id)).mpr ⟨rest, hrest, ?_⟩
        rw [hitems, items_setItem_of_notMem hfresh, List.append_assoc]
        rfl
    | _ =>
      simp only [bindAgents, reduceCtorEq, false_iff, not_exists, not_and]
      intro added hadded
      obtain ⟨binding, rest, hbinds, -⟩ := List.forall₂_cons_left_iff.mp hadded
      obtain ⟨text, htext, -⟩ := hbinds.identifier
      cases htext

/-- The bindings are exactly those of an object that has some, each of them a short name with
the text of an identifier. -/
theorem parseAgentBindings_eq_ok [JsonDecoder] {rawJson : String} {bindings : AgentBindings}
    (python : ∀ fields, JsonDecoder.loads rawJson = .ok (.dict fields) → (fields.map Prod.fst).Nodup) :
    parseAgentBindings rawJson = .ok bindings ↔ ∃ fields, JsonDecoder.loads rawJson = .ok (.dict fields) ∧
      fields ≠ [] ∧ List.Forall₂ Binds fields bindings.items := by
  unfold parseAgentBindings
  rcases hload : JsonDecoder.loads rawJson with (_ | _) | parsed
  · simp
  · simp
  · cases parsed with
    | dict fields =>
      cases fields with
      | nil => simp
      | cons field fields =>
        dsimp only
        rw [bindAgents_eq_ok (python _ hload) fun _ _ => by simp [OrderedDict.keys, OrderedDict.empty]]
        simp [OrderedDict.empty]
    | _ => simp

/-- Nothing else is wrong with bindings than that they are invalid. -/
theorem error_of_bindAgents {fields : Fields} {start : AgentBindings} {e : StartupException}
    (h : bindAgents fields start = .error e) : ∃ message, e = invalidBindings message := by
  induction fields generalizing start with
  | nil => cases h
  | cons field fields ih =>
    obtain ⟨name, value⟩ := field
    cases value with
    | str text =>
      rw [bindAgents, raiseIf] at h
      split_ifs at h
      · cases h
        exact ⟨_, rfl⟩
      · change (match uuidOf text with
          | none => _
          | some parsed => bindAgents fields (start.setItem name parsed)) = _ at h
        cases hid : uuidOf text with
        | none =>
          rw [hid] at h
          cases h
          exact ⟨_, rfl⟩
        | some id =>
          rw [hid] at h
          exact ih h
    | _ =>
      cases h
      exact ⟨_, rfl⟩

end Accepted

section Writing

def bindingsDocument (bindings : AgentBindings) : PyValue :=
  .dict (bindings.items.map fun binding => (binding.1, .str (codes binding.2.str)))

/-- Bindings that are written are read back. -/
theorem parseAgentBindings_document [NumeralTables] [JsonDecoder] {rawJson : String}
    {bindings : AgentBindings} (written : JsonDecoder.loads rawJson = .ok (bindingsDocument bindings))
    (given : bindings.items ≠ [])
    (named : ∀ binding ∈ bindings.items, binding.1 ≠ [] ∧ binding.1.length ≤ 200) :
    parseAgentBindings rawJson = .ok bindings := by
  have hnodup : ∀ fields, JsonDecoder.loads rawJson = .ok (.dict fields) →
      (fields.map Prod.fst).Nodup := by
    intro fields hfields
    rw [written, bindingsDocument] at hfields
    cases hfields
    rw [List.map_map]
    exact bindings.nodupKeys
  refine (parseAgentBindings_eq_ok hnodup).mpr ⟨_, written, ?_, ?_⟩
  · exact fun h => given (List.map_eq_nil_iff.mp h)
  · rw [List.forall₂_map_left_iff]
    refine List.forall₂_same.mpr fun binding hbinding => ?_
    obtain ⟨hstated, hshort⟩ := named binding hbinding
    exact ⟨rfl, hstated, hshort, _, rfl, uuidOf_str binding.2⟩

end Writing

namespace Deployed

def analyst : UUID := ⟨⟨0x12345678123456781234567812345678, by decide⟩⟩

def reviewer : UUID := ⟨⟨0x87654321876543218765432187654321, by decide⟩⟩

def bindings : AgentBindings := ⟨[(codes "reviewer", reviewer), (codes "analyst", analyst)], by decide⟩

def bindingsText : String :=
  "\x7b\x22reviewer\x22: \x2287654321-8765-4321-8765-432187654321\x22, " ++
    "\x22analyst\x22: \x2212345678-1234-5678-1234-567812345678\x22\x7d"

@[reducible] def decoder : JsonDecoder :=
  ⟨fun text =>
    if text = bindingsText then .ok (bindingsDocument bindings) else .error .jsonDecodeError⟩

@[reducible] def asciiNumerals : NumeralTables := ⟨fun _ => false, fun _ => none⟩

theorem parseAgentBindings_document_deployed :
    @parseAgentBindings decoder asciiNumerals bindingsText = .ok bindings ∧
      bindingsDocument bindings =
        .dict [(codes "reviewer", .str (codes "87654321-8765-4321-8765-432187654321")),
          (codes "analyst", .str (codes "12345678-1234-5678-1234-567812345678"))] := by
  refine ⟨@parseAgentBindings_document asciiNumerals decoder _ _ (if_pos rfl) (by simp [bindings]) ?_,
    rfl⟩
  simp [bindings, codes]

end Deployed

end PolicyModelRouter.StartupDocuments
