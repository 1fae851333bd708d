import PolicyModelRouter.ModelRouting
import PolicyModelRouter.OrderedChecks
import PolicyModelRouter.RoutingSpecification
import PolicyModelRouter.WireContracts
import Mathlib.Data.Finset.Lattice.Lemmas

/-!
# Loading the routing policy

The file is decoded, parsed, validated and converted. Parsing and field validation belong
to libraries: what the parser hands to the overridden mapping constructor is a list of
key nodes, each of which may be any constructed key.
-/

namespace PolicyModelRouter.RoutingPolicyLoader
open AuthorizationContract DecimalArithmetic GovernedVocabularies OrderedChecks RouterCalls
open RoutingCatalog WireContracts

abbrev NonEmptyList (α : Type) := { xs : List α // xs ≠ [] }

/-- A price of at least zero; a zero may carry a sign. -/
abbrev Price := { d : Decimal // (Decimal.ofInt 0).le d = true }

structure ModelGroupProfileConfig where
  authorizedDataClassifications : NonEmptyList DataClassification
  authorizedRiskLevels : NonEmptyList RiskLevel
  supportsStructuredOutput : Bool
  supportsToolCalling : Bool
  maxContextTokens : AtLeast 1
  typicalLatencyMs : AtLeast 1
  inputCostUsdPerMillionTokens : Price
  outputCostUsdPerMillionTokens : Price
  available : Bool
  allowedAgents : List String
  staged : Bool

structure WorkloadRuleConfig where
  modelGroup : ModelGroupId
  requiresToolCalling : Bool

/-- The whole file; its schema version is fixed by the contract. -/
structure RoutingPolicyConfig where
  policyId : NonEmptyText
  policyVersion : NonEmptyText
  modelGroups : AList fun _ : ModelGroupId => ModelGroupProfileConfig
  modelGroupsGiven : modelGroups.entries ≠ []
  workloads : AList fun _ : WorkloadId => WorkloadRuleConfig
  workloadsGiven : workloads.entries ≠ []

/-- One key node of a mapping, in the order of the file. -/
inductive KeyNode (Key : Type) where
  | key (key : Key)
  | unhashable
  | yamlError
  | other

/-- Constructing the native value of a text: each overridden mapping construction it comes to,
and what it comes to in the end. -/
inductive Construction (Key Document : Type) where
  | finished (document : Document)
  | yamlError
  | other
  | mapping (node : List (KeyNode Key)) (rest : Construction Key Document)

/-- What reading, parsing and validating raise. -/
inductive Raised where
  | osError
  | unicodeDecodeError
  | yamlError
  | typeError
  | valueError
  | validationError
  | other
  deriving DecidableEq

/-- The YAML parser, and the validation of the declared fields of a document. Every key can be
written but an integer of more digits than the interpreter converts. -/
class PolicyLibraries where
  Document : Type
  Key : Type
  decidableEqKey : DecidableEq Key
  isWritten : Key → Bool
  construct : String → Construction Key Document
  validateFields : Document → Except Raised RoutingPolicyConfig

instance [PolicyLibraries] : DecidableEq PolicyLibraries.Key := PolicyLibraries.decidableEqKey

def Raised.escaped : Raised → PyException
  | .unicodeDecodeError => .unicodeDecode
  | .typeError => .typeError
  | .valueError => .valueError
  | .validationError => .validation
  | .osError | .yamlError | .other => .backend

/-- One except clause: the handled exception is raised again as a load error. -/
def reraise (handled raised : Raised) : PyException :=
  if raised = handled then .routingPolicyLoad else raised.escaped

/-- Text mode translates every line ending. -/
def universalNewlines : List Char → List Char
  | [] => []
  | '\r' :: '\n' :: rest => '\n' :: universalNewlines rest
  | '\r' :: rest => '\n' :: universalNewlines rest
  | c :: rest => c :: universalNewlines rest

def inTextMode (text : String) : String := String.ofList (universalNewlines text.toList)

def readText : PolicyFile → Except Raised String
  | .unreadable => .error .osError
  | .content bytes =>
    match String.fromUTF8? ⟨bytes.toArray⟩ with
    | some text => .ok (inTextMode text)
    | none => .error .unicodeDecodeError

/-- The loop over the key nodes of a mapping. The message of the error for a repeated key writes
that key. -/
def constructMapping {Key : Type} [DecidableEq Key] (isWritten : Key → Bool) :
    List (KeyNode Key) → Finset Key → Except Raised Unit
  | [], _ => .ok ()
  | .unhashable :: _, _ => .error .typeError
  | .yamlError :: _, _ => .error .yamlError
  | .other :: _, _ => .error .other
  | .key k :: rest, seen =>
    if k ∈ seen then .error (if isWritten k then .yamlError else .valueError)
    else constructMapping isWritten rest (insert k seen)

def yamlLoad {Key Document : Type} [DecidableEq Key] (isWritten : Key → Bool) :
    Construction Key Document → Except Raised Document
  | .finished document => .ok document
  | .yamlError => .error .yamlError
  | .other => .error .other
  | .mapping node rest => do
    constructMapping isWritten node ∅
    yamlLoad isWritten rest

def groupNames (groups : List ModelGroupId) : String :=
  String.intercalate ", " ((groups.dedup.map ModelGroupId.value).insertionSort (· ≤ ·))

def RoutingPolicyConfig.referenced (config : RoutingPolicyConfig) : List ModelGroupId :=
  config.workloads.entries.map fun workload => workload.2.modelGroup

def RoutingPolicyConfig.undefined (config : RoutingPolicyConfig) : List ModelGroupId :=
  config.referenced.filter fun group => group ∉ config.modelGroups

/-- The declared groups no workload maps to, but for the staged ones. -/
def RoutingPolicyConfig.unreferenced (config : RoutingPolicyConfig) : List ModelGroupId :=
  (config.modelGroups.entries.filter fun group =>
    group.1 ∉ config.referenced ∧ group.2.staged = false).map Sigma.fst

def requireReferentialIntegrity (config : RoutingPolicyConfig) : Except String Unit := do
  raiseIf (config.undefined ≠ [])
    ("workloads reference undefined model groups: " ++ groupNames config.undefined)
  raiseIf (config.unreferenced ≠ [])
    ("model_groups contains unreachable entries: " ++ groupNames config.unreferenced ++
      ". Mark a group 'staged: true' if it is provisioned deliberately ahead of the workload that " ++
      "will map to it.")

section Loading

variable [PolicyLibraries]

/-- An error of the integrity check is one more validation error. -/
def modelValidate (document : PolicyLibraries.Document) : Except Raised RoutingPolicyConfig := do
  let config ← PolicyLibraries.validateFields document
  (requireReferentialIntegrity config).mapError fun _ => .validationError
  .ok config

def mapValues {α β γ : Type} (f : β → γ) (m : AList fun _ : α => β) : AList fun _ : α => γ :=
  ⟨m.entries.map (.map id fun _ => f), m.nodupKeys.map₂ (fun _ => f)⟩

def toModelGroupProfile (profile : ModelGroupProfileConfig) : ModelGroupProfile :=
  { authorizedDataClassifications := profile.authorizedDataClassifications.val.toFinset
    authorizedRiskLevels := profile.authorizedRiskLevels.val.toFinset
    supportsStructuredOutput := profile.supportsStructuredOutput
    supportsToolCalling := profile.supportsToolCalling
    maxContextTokens := profile.maxContextTokens
    typicalLatencyMs := profile.typicalLatencyMs
    inputCostUsdPerMillionTokens := profile.inputCostUsdPerMillionTokens
    outputCostUsdPerMillionTokens := profile.outputCostUsdPerMillionTokens
    available := profile.available
    allowedAgents := profile.allowedAgents.toFinset
    staged := profile.staged }

def toWorkloadRule (rule : WorkloadRuleConfig) : WorkloadRule :=
  { modelGroup := rule.modelGroup
    requiresToolCalling := rule.requiresToolCalling }

def toDomain (config : RoutingPolicyConfig) (policyDigest : String) : RoutingPolicy :=
  { schemaVersion := "1.0"
    policyId := config.policyId
    policyVersion := config.policyVersion
    policyDigest := policyDigest
    modelGroups := mapValues toModelGroupProfile config.modelGroups
    workloads := mapValues toWorkloadRule config.workloads }

variable [Cryptography]

def policyDigest (rawText : String) : String := "sha256:" ++ sha256Hex rawText.toUTF8

def loadRoutingPolicy (file : PolicyFile) : Except PyException RoutingPolicy := do
  let rawText ← (readText file).mapError (reraise .osError)
  let rawData ← (yamlLoad PolicyLibraries.isWritten (PolicyLibraries.construct rawText)).mapError
    (reraise .yamlError)
  let config ← (modelValidate rawData).mapError (reraise .validationError)
  .ok (toDomain config (policyDigest rawText))

end Loading

section Raising

variable {Key Document : Type}

/-- Different keys, none of which was seen before. -/
def Fresh (keys : List Key) (seen : Finset Key) : Prop := keys.Nodup ∧ ∀ k ∈ keys, k ∉ seen

def Distinct (node : List (KeyNode Key)) (seen : Finset Key) : Prop :=
  ∃ keys : List Key, node = keys.map .key ∧ Fresh keys seen

private theorem fresh_nil (seen : Finset Key) : Fresh ([] : List Key) seen := ⟨.nil, by simp⟩

theorem fresh_cons [DecidableEq Key] {k : Key} {keys : List Key} {seen : Finset Key} :
    Fresh (k :: keys) seen ↔ k ∉ seen ∧ Fresh keys (insert k seen) := by
  simp only [Fresh, List.nodup_cons, List.forall_mem_cons, Finset.mem_insert, not_or]
  constructor
  · rintro ⟨⟨hk, hdistinct⟩, hseen, hfresh⟩
    refine ⟨hseen, hdistinct, fun other hother => ⟨?_, hfresh other hother⟩⟩
    rintro rfl
    exact hk hother
  · rintro ⟨hseen, hdistinct, hfresh⟩
    exact ⟨⟨fun hk => (hfresh k hk).1 rfl, hdistinct⟩, hseen, fun other hother => (hfresh other hother).2⟩

private theorem distinct_cons [DecidableEq Key] {head : KeyNode Key} {rest : List (KeyNode Key)}
    {seen : Finset Key} : Distinct (head :: rest) seen ↔
      ∃ k, head = .key k ∧ k ∉ seen ∧ Distinct rest (insert k seen) := by
  constructor
  · rintro ⟨_ | ⟨k, keys⟩, hnode, hfresh⟩
    · cases hnode
    · obtain ⟨rfl, rfl⟩ := List.cons.inj hnode
      obtain ⟨hk, hfresh⟩ := fresh_cons.mp hfresh
      exact ⟨k, rfl, hk, keys, rfl, hfresh⟩
  · rintro ⟨k, rfl, hk, keys, rfl, hfresh⟩
    exact ⟨k :: keys, rfl, fresh_cons.mpr ⟨hk, hfresh⟩⟩

variable [DecidableEq Key] {isWritten : Key → Bool}

/-- A key node at which the loop raises anything but a YAML error, after these keys. -/
def Escapes (isWritten : Key → Bool) (seen : Finset Key) : KeyNode Key → Prop
  | .key k => k ∈ seen ∧ isWritten k = false
  | .yamlError => False
  | .unhashable | .other => True

/-- Only different keys stand before such a key node. -/
def Breaks (isWritten : Key → Bool) (node : List (KeyNode Key)) (seen : Finset Key) : Prop :=
  ∃ keys stop after, node = keys.map .key ++ stop :: after ∧ Fresh keys seen ∧
    Escapes isWritten (seen ∪ keys.toFinset) stop

private theorem breaks_cons {head : KeyNode Key} {rest : List (KeyNode Key)} {seen : Finset Key} :
    Breaks isWritten (head :: rest) seen ↔ Escapes isWritten seen head ∨
      ∃ k, head = .key k ∧ k ∉ seen ∧ Breaks isWritten rest (insert k seen) := by
  have hunion : ∀ (k : Key) (keys : List Key),
      seen ∪ (k :: keys).toFinset = insert k seen ∪ keys.toFinset := fun k keys => by
    rw [List.toFinset_cons, Finset.insert_union_comm]
  constructor
  · rintro ⟨_ | ⟨k, keys⟩, stop, after, hnode, hfresh, hescapes⟩
    · obtain ⟨rfl, -⟩ := List.cons.inj hnode
      exact .inl (by simpa using hescapes)
    · obtain ⟨rfl, rfl⟩ := List.cons.inj hnode
      obtain ⟨hk, hfresh⟩ := fresh_cons.mp hfresh
      exact .inr ⟨k, rfl, hk, keys, stop, after, rfl, hfresh, hunion k keys ▸ hescapes⟩
  · rintro (hescapes | ⟨k, rfl, hk, keys, stop, after, rfl, hfresh, hescapes⟩)
    · exact ⟨[], head, rest, rfl, fresh_nil seen, by simpa using hescapes⟩
    · exact ⟨k :: keys, stop, after, rfl, fresh_cons.mpr ⟨hk, hfresh⟩, hunion k keys ▸ hescapes⟩

/-- The loop goes past different keys only. -/
theorem constructMapping_eq_ok {node : List (KeyNode Key)} {seen : Finset Key} :
    constructMapping isWritten node seen = .ok () ↔ Distinct node seen := by
  induction node generalizing seen with
  | nil => exact iff_of_true rfl ⟨[], rfl, fresh_nil seen⟩
  | cons head rest ih =>
    rw [distinct_cons]
    cases head with
    | key k => by_cases hk : k ∈ seen <;> simp [constructMapping, hk, ih]
    | unhashable | yamlError | other => simp [constructMapping]

/-- A key node it cannot handle stops the loop when only different keys stand before it. -/
theorem constructMapping_eq_error {node : List (KeyNode Key)} {seen : Finset Key} :
    (∃ raised ≠ Raised.yamlError, constructMapping isWritten node seen = .error raised) ↔
      Breaks isWritten node seen := by
  induction node generalizing seen with
  | nil => simp [constructMapping, Breaks]
  | cons head rest ih =>
    rw [breaks_cons]
    cases head with
    | key k =>
      by_cases hk : k ∈ seen
      · cases hwritten : isWritten k <;> simp [constructMapping, hk, hwritten, Escapes]
      · simp [constructMapping, hk, ih, Escapes]
    | unhashable | yamlError | other => simp [constructMapping, Escapes]

theorem reraise_eq_iff {handled raised : Raised} :
    reraise handled raised = .routingPolicyLoad ↔ raised = handled := by
  unfold reraise
  split
  next h => simp [h]
  next h => cases raised <;> simp [h, Raised.escaped]

/-- No construction of a mapping reaches a key node it cannot handle, the library itself raises
YAML errors only, and the document it comes to is a valid one. -/
def Orderly (isWritten : Key → Bool) (valid : Document → Prop) : Construction Key Document → Prop
  | .finished document => valid document
  | .yamlError => True
  | .other => False
  | .mapping node rest =>
    ¬ Breaks isWritten node ∅ ∧ (Distinct node ∅ → Orderly isWritten valid rest)

/-- Whatever is done with the document, the parser adds no error exactly where it is orderly. -/
theorem onlyErrors_yamlLoad_bind {α : Type} {f : Document → Except PyException α}
    {construction : Construction Key Document} :
    OnlyErrors (· = .routingPolicyLoad)
        ((yamlLoad isWritten construction).mapError (reraise .yamlError) >>= f) ↔
      Orderly isWritten (fun document => OnlyErrors (· = .routingPolicyLoad) (f document))
        construction := by
  induction construction with
  | finished document => exact Iff.rfl
  | yamlError => exact iff_of_true (OnlyErrors.error rfl) trivial
  | other => exact iff_of_false (fun h => nomatch h _ rfl) id
  | mapping node rest ih =>
    have hok := @constructMapping_eq_ok _ _ isWritten node ∅
    have herror := @constructMapping_eq_error _ _ isWritten node ∅
    rw [Orderly, yamlLoad, ← ih]
    cases hscan : constructMapping isWritten node ∅ with
    | ok u =>
      have hunbroken : ¬ Breaks isWritten node ∅ := by
        intro hbreaks
        obtain ⟨raised, -, hraised⟩ := herror.mpr hbreaks
        cases hscan.symm.trans hraised
      exact ⟨fun h => ⟨hunbroken, fun _ => h⟩, fun h => h.2 (hok.mp hscan)⟩
    | error raised =>
      have hdistinct : ¬ Distinct node ∅ := by
        intro h
        cases hscan.symm.trans (hok.mpr h)
      constructor
      · intro h
        refine ⟨?_, fun hd => absurd hd hdistinct⟩
        intro hbreaks
        obtain ⟨again, hne, hagain⟩ := herror.mpr hbreaks
        obtain rfl := Except.error.inj (hscan.symm.trans hagain)
        exact hne (reraise_eq_iff.mp (h _ rfl))
      · rintro ⟨hunbroken, -⟩ _ ⟨⟩
        apply reraise_eq_iff.mpr
        by_contra hne
        exact hunbroken (herror.mp ⟨raised, hne, hscan⟩)

end Raising

section Files

variable [PolicyLibraries]

/-- The validation of the fields raises validation errors only. -/
def Validated (document : PolicyLibraries.Document) : Prop :=
  OnlyErrors (· = .validationError) (PolicyLibraries.validateFields document)

/-- The file is unreadable, or its bytes are UTF-8 and its text is constructed in order and
validated. -/
inductive Sound : PolicyFile → Prop where
  | unreadable : Sound .unreadable
  | text {bytes : List UInt8} {text : String} (decoded : String.fromUTF8? ⟨bytes.toArray⟩ = some text)
      (orderly : Orderly PolicyLibraries.isWritten Validated
        (PolicyLibraries.construct (inTextMode text))) :
      Sound (.content bytes)

/-- The check of the integrity adds no other error. -/
private theorem onlyErrors_modelValidate_iff (document : PolicyLibraries.Document) :
    OnlyErrors (· = .validationError) (modelValidate document) ↔ Validated document := by
  refine onlyErrors_bind_iff fun config => .bind ?_ fun _ => .ok _
  intro raised h
  obtain ⟨_, -, rfl⟩ := mapError_eq_error.mp h
  rfl

variable [Cryptography]

private theorem loadRoutingPolicy_of_decoded {bytes : List UInt8} {text : String}
    (decoded : String.fromUTF8? ⟨bytes.toArray⟩ = some text) :
    loadRoutingPolicy (.content bytes) =
      (yamlLoad PolicyLibraries.isWritten (PolicyLibraries.construct (inTextMode text))).mapError
          (reraise .yamlError) >>= fun rawData =>
        (modelValidate rawData).mapError (reraise .validationError) >>= fun config =>
          .ok (toDomain config (policyDigest (inTextMode text))) := by
  rw [loadRoutingPolicy, readText, decoded]
  rfl

private theorem loadRoutingPolicy_of_undecoded {bytes : List UInt8}
    (undecoded : String.fromUTF8? ⟨bytes.toArray⟩ = none) :
    loadRoutingPolicy (.content bytes) = .error .unicodeDecode := by
  rw [loadRoutingPolicy, readText, undecoded]
  rfl

/-- Loading depends on the text of the file only. -/
theorem loadRoutingPolicy_congr {file file' : PolicyFile}
    (same : readText file' = readText file) : loadRoutingPolicy file' = loadRoutingPolicy file := by
  unfold loadRoutingPolicy
  rw [same]

/-- A policy carries the digest of the text it was loaded from. -/
theorem digest_of_loadRoutingPolicy {file : PolicyFile} {policy : RoutingPolicy}
    (loaded : loadRoutingPolicy file = .ok policy) :
    ∃ text, readText file = .ok text ∧ policy.policyDigest = policyDigest text := by
  unfold loadRoutingPolicy at loaded
  obtain ⟨text, htext, loaded⟩ := bind_eq_ok.mp loaded
  obtain ⟨rawData, -, loaded⟩ := bind_eq_ok.mp loaded
  obtain ⟨config, -, heq⟩ := bind_eq_ok.mp loaded
  cases heq
  exact ⟨text, mapError_eq_ok.mp htext, rfl⟩

/-- Past the decoding, only the libraries can raise anything else. -/
theorem onlyErrors_load_iff {bytes : List UInt8} {text : String}
    (decoded : String.fromUTF8? ⟨bytes.toArray⟩ = some text) :
    OnlyErrors (· = .routingPolicyLoad) (loadRoutingPolicy (.content bytes)) ↔
      Orderly PolicyLibraries.isWritten Validated (PolicyLibraries.construct (inTextMode text)) := by
  rw [loadRoutingPolicy_of_decoded decoded, onlyErrors_yamlLoad_bind]
  suffices hvalid : ∀ document, OnlyErrors (· = PyException.routingPolicyLoad)
      ((modelValidate document).mapError (reraise .validationError) >>= fun config =>
        .ok (toDomain config (policyDigest (inTextMode text)))) ↔ Validated document by
    simp only [hvalid]
  intro document
  rw [onlyErrors_bind_iff fun config => .ok _, onlyErrors_mapError, ← onlyErrors_modelValidate_iff]
  simp only [reraise_eq_iff]

/-- Loading raises nothing but load errors exactly for sound files. -/
theorem onlyErrors_loadRoutingPolicy_iff {file : PolicyFile} :
    OnlyErrors (· = .routingPolicyLoad) (loadRoutingPolicy file) ↔ Sound file := by
  cases file with
  | unreadable => exact iff_of_true (fun e h => (Except.error.inj h).symm) .unreadable
  | content bytes =>
    cases decoded : String.fromUTF8? ⟨bytes.toArray⟩ with
    | some text =>
      rw [onlyErrors_load_iff decoded]
      constructor
      · exact .text decoded
      · intro h
        cases h with
        | text again orderly =>
          obtain rfl := Option.some.inj (decoded.symm.trans again)
          exact orderly
    | none =>
      refine iff_of_false ?_ ?_
      · intro h
        cases h _ (loadRoutingPolicy_of_undecoded decoded)
      · intro h
        cases h with
        | text again orderly => cases decoded.symm.trans again

end Files

def encoded (text : String) : PolicyFile := .content text.toUTF8.data.toList

private theorem fromUTF8?_toUTF8 (s : String) :
    String.fromUTF8? ⟨s.toUTF8.data.toList.toArray⟩ = some s := by
  have hbytes : (⟨s.toUTF8.data.toList.toArray⟩ : ByteArray) = s.toUTF8 := by simp
  have hvalid : s.toUTF8.IsValidUTF8 := s.isValidUTF8
  rw [hbytes, String.fromUTF8?, dif_pos hvalid]
  rfl

/-- Text without carriage returns is read as it stands. -/
def isUnixText (s : String) : Bool := s.toList.all (· != '\r')

private theorem universalNewlines_eq_self {cs : List Char} (h : ∀ c ∈ cs, c ≠ '\r') :
    universalNewlines cs = cs := by
  fun_induction universalNewlines cs with
  | case1 => rfl
  | case2 rest ih => exact absurd rfl (h _ List.mem_cons_self)
  | case3 rest _ ih => exact absurd rfl (h _ List.mem_cons_self)
  | case4 c rest _ _ ih => rw [ih fun d hd => h d (List.mem_cons_of_mem _ hd)]

private theorem inTextMode_eq_self {s : String} (h : isUnixText s = true) : inTextMode s = s := by
  have hall : ∀ c ∈ s.toList, c ≠ '\r' := by simpa [isUnixText] using h
  rw [inTextMode, universalNewlines_eq_self hall, String.ofList_toList]

theorem isUnixText_append (s t : String) :
    isUnixText (s ++ t) = (isUnixText s && isUnixText t) := by
  simp [isUnixText]

theorem readText_encoded {text : String} (unix : isUnixText text = true) :
    readText (encoded text) = .ok text := by
  rw [encoded, readText, fromUTF8?_toUTF8]
  simp only [inTextMode_eq_self unix]

/-- A file in one encoding and with one kind of line ending is what its text makes it. -/
theorem loadRoutingPolicy_encoded [PolicyLibraries] [Cryptography] {text : String}
    {document : PolicyLibraries.Document} {config : RoutingPolicyConfig}
    (unix : isUnixText text = true)
    (parsed : yamlLoad PolicyLibraries.isWritten (PolicyLibraries.construct text) = .ok document)
    (valid : modelValidate document = .ok config) :
    loadRoutingPolicy (encoded text) = .ok (toDomain config (policyDigest text)) := by
  rw [loadRoutingPolicy, readText_encoded unix]
  simp only [Except.mapError, bind, Except.bind, parsed, valid]

namespace Deployed

open RoutingSpecification.Deployed (group workload)

def concat : List String → String
  | [] => ""
  | line :: rest => line ++ concat rest

theorem isUnixText_concat (lines : List String) :
    isUnixText (concat lines) = lines.all isUnixText := by
  induction lines with
  | nil => rfl
  | cons line lines ih => rw [concat, isUnixText_append, ih, List.all_cons]

def opening : List String :=
  ["schema_version: '1.0'\n", "policy_id: baseline\n", "policy_version: '"]

def closing : List String :=
  ["'\n",
    "model_groups:\n",
    "  fast-small:\n",
    "    authorized_data_classifications: [public, internal]\n",
    "    authorized_risk_levels: [low]\n",
    "    supports_structured_output: true\n",
    "    supports_tool_calling: true\n",
    "    max_context_tokens: 8192\n",
    "    typical_latency_ms: 500\n",
    "    input_cost_usd_per_million_tokens: '0.15'\n",
    "    output_cost_usd_per_million_tokens: '0.60'\n",
    "    available: true\n",
    "    allowed_agents: []\n",
    "workloads:\n",
    "  rag.answer:\n",
    "    model_group: fast-small\n",
    "    requires_tool_calling: false\n"]

def policyText (version : String) : String := concat opening ++ version ++ concat closing

private theorem append_append_inj {a b v w : String} (h : a ++ v ++ b = a ++ w ++ b) : v = w :=
  (String.append_right_inj a).mp ((String.append_left_inj b).mp h)

theorem policyText_inj {v w : String} (h : policyText v = policyText w) : v = w :=
  append_append_inj h

private theorem isUnixText_policyText {version : String} (h : isUnixText version = true) :
    isUnixText (policyText version) = true := by
  rw [policyText, isUnixText_append, isUnixText_append, h, isUnixText_concat, isUnixText_concat]
  decide +kernel

def profileConfig : ModelGroupProfileConfig :=
  { authorizedDataClassifications := ⟨[.public, .internal], by decide⟩
    authorizedRiskLevels := ⟨[.low], by decide⟩
    supportsStructuredOutput := true
    supportsToolCalling := true
    maxContextTokens := ⟨8192, by decide⟩
    typicalLatencyMs := ⟨500, by decide⟩
    inputCostUsdPerMillionTokens := ⟨⟨false, 15, -2⟩, by decide⟩
    outputCostUsdPerMillionTokens := ⟨⟨false, 60, -2⟩, by decide⟩
    available := true
    allowedAgents := []
    staged := false }

def policyId : NonEmptyText := ⟨"baseline", by decide⟩

def rules : AList fun _ : WorkloadId => WorkloadRuleConfig := AList.singleton workload ⟨group, false⟩

theorem rules_given : rules.entries ≠ [] := by decide

def config (version : NonEmptyText) : RoutingPolicyConfig :=
  { policyId := policyId
    policyVersion := version
    modelGroups := AList.singleton group profileConfig
    modelGroupsGiven := by decide
    workloads := rules
    workloadsGiven := rules_given }

def constructed (version : NonEmptyText) : Construction String RoutingPolicyConfig :=
  let keys := List.map fun k : String => KeyNode.key k
  .mapping (keys ["schema_version", "policy_id", "policy_version", "model_groups", "workloads"])
    (.mapping (keys ["fast-small"])
      (.mapping (keys ["rag.answer"])
        (.mapping (keys ["authorized_data_classifications", "authorized_risk_levels",
            "supports_structured_output", "supports_tool_calling", "max_context_tokens",
            "typical_latency_ms", "input_cost_usd_per_million_tokens",
            "output_cost_usd_per_million_tokens", "available", "allowed_agents"])
          (.mapping (keys ["model_group", "requires_tool_calling"])
            (.finished (config version))))))

def baseline : NonEmptyText := ⟨"1.0.0", by decide⟩

def revised : NonEmptyText := ⟨"1.1.0", by decide⟩

def sequenceKeyText : String := "? [1]\n: 2\n"

@[reducible] def libraries : PolicyLibraries where
  Document := RoutingPolicyConfig
  Key := String
  decidableEqKey := inferInstance
  isWritten _ := true
  construct text :=
    if text = policyText baseline then constructed baseline
    else if text = policyText revised then constructed revised
    else if text = sequenceKeyText then .mapping [.unhashable] .other
    else .yamlError
  validateFields := .ok

def policyFile (version : NonEmptyText) : PolicyFile := encoded (policyText version)

def policyOf [Cryptography] (version : NonEmptyText) : RoutingPolicy :=
  toDomain (config version) (policyDigest (policyText version))

private theorem construct_policyText {version : NonEmptyText}
    (known : version = baseline ∨ version = revised) :
    libraries.construct (policyText version) = constructed version := by
  have hdifferent : policyText revised ≠ policyText baseline := by
    intro h
    exact absurd (policyText_inj h) (by decide)
  rcases known with rfl | rfl
  · exact if_pos rfl
  · exact (if_neg hdifferent).trans (if_pos rfl)

theorem isUnixText_known {version : NonEmptyText} (known : version = baseline ∨ version = revised) :
    isUnixText (policyText version) = true := by
  apply isUnixText_policyText
  rcases known with rfl | rfl <;> decide

theorem load_policyFile [Cryptography] {version : NonEmptyText}
    (known : version = baseline ∨ version = revised) :
    @loadRoutingPolicy libraries _ (policyFile version) = .ok (policyOf version) := by
  have hconstructed : yamlLoad libraries.isWritten (constructed version) = .ok (config version) := rfl
  exact @loadRoutingPolicy_encoded libraries _ _ _ _ (isUnixText_known known)
    ((congrArg (yamlLoad libraries.isWritten) (construct_policyText known)).trans hconstructed) rfl

theorem load_latin1 [Cryptography] :
    @loadRoutingPolicy libraries _ (.content [255]) = .error .unicodeDecode :=
  @loadRoutingPolicy_of_undecoded libraries _ _ (by decide +kernel)

theorem load_sequenceKey [Cryptography] :
    @loadRoutingPolicy libraries _ (encoded sequenceKeyText) = .error .typeError := by
  have hbaseline : sequenceKeyText ≠ policyText baseline := by decide +kernel
  have hrevised : sequenceKeyText ≠ policyText revised := by decide +kernel
  have hconstruct : libraries.construct sequenceKeyText = .mapping [.unhashable] .other :=
    (if_neg hbaseline).trans ((if_neg hrevised).trans (if_pos rfl))
  rw [encoded, @loadRoutingPolicy_of_decoded libraries _ _ _ (fromUTF8?_toUTF8 _),
    inTextMode_eq_self (by decide), hconstruct]
  rfl

end Deployed

end PolicyModelRouter.RoutingPolicyLoader
