import PolicyModelRouter.RuntimeControl

/-!
# The payloads of runtime control

Which payloads are a snapshot for an agent, said of the payload itself. The store accepts
these and no others.
-/

namespace PolicyModelRouter.SnapshotPayloads
open OrderedChecks RouterCalls RuntimeControl

inductive HasText : GetReply → String → Prop where
  | str (text : String) : HasText (.str text) text
  | bytes {raw : List UInt8} {text : String} (decodes : String.fromUTF8? ⟨raw.toArray⟩ = some text) :
      HasText (.bytes raw) text

/-- The transition identifier of a document: null, or a text of 1 to 200 characters. -/
inductive Transition : PyValue → Option (List ℕ) → Prop where
  | none : Transition .none none
  | str {p : List ℕ} (some_ : 1 ≤ p.length) (bounded : p.length ≤ 200) : Transition (.str p) (some p)

/-- The fields of a document are exactly those of a snapshot for the agent. -/
structure Describes (fields : List (List ℕ × PyValue)) (agentId : String)
    (snapshot : RuntimeControlSnapshot) : Prop where
  exact : ∀ key, key ∈ fields.map Prod.fst ↔ key ∈ expectedFields.map points
  agent : field fields "agent_id" = .str (points agentId)
  schemaVersion : field fields "schema_version" = .str (points "1.0")
  controlEpoch : field fields "control_epoch" = .int snapshot.controlEpoch ∧
    0 ≤ snapshot.controlEpoch
  revoked : field fields "revoked_through_agent_version" =
    .int snapshot.revokedThroughAgentVersion ∧ 0 ≤ snapshot.revokedThroughAgentVersion
  transitionId : Transition (field fields "transition_id") snapshot.transitionId
  state : field fields "state" = .str (points snapshot.state.value)
  bound : snapshot.agentId = agentId

/-- A payload is present, and is a well-formed snapshot for the agent. -/
def WellFormed [JsonDecoder] (store : RedisRuntimeControlStore) (agentId : String)
    (payload : GetReply) (snapshot : RuntimeControlSnapshot) : Prop :=
  ∃ text fields, HasText payload text ∧ text.toUTF8.size ≤ store.maxSnapshotBytes ∧
    JsonDecoder.loads text = .ok (.dict fields) ∧ Describes fields agentId snapshot

theorem isText_iff {v : PyValue} {s : String} : v.isText s = true ↔ v = .str (points s) := by
  cases v <;> simp [PyValue.isText]

theorem counter_eq_some {v : PyValue} {n : ℤ} : v.counter = some n ↔ v = .int n ∧ 0 ≤ n := by
  cases v with
  | int m =>
    simp only [PyValue.counter, PyValue.int.injEq]
    by_cases hm : 0 ≤ m
    · rw [if_pos hm]
      constructor
      · rintro ⟨⟩
        exact ⟨rfl, hm⟩
      · rintro ⟨rfl, -⟩
        rfl
    · rw [if_neg hm]
      constructor
      · rintro ⟨⟩
      · rintro ⟨rfl, hn⟩
        exact absurd hn hm
  | _ => simp [PyValue.counter]

private theorem transitionIdOf_eq_some {v : PyValue} {transitionId : Option (List ℕ)} :
    transitionIdOf v = some transitionId ↔ Transition v transitionId := by
  constructor
  · intro h
    unfold transitionIdOf at h
    split at h
    · cases h
      exact .none
    · split_ifs at h with hlength
      cases h
      exact .str hlength.1 hlength.2
    · cases h
  · intro h
    cases h with
    | none => rfl
    | str some_ bounded => exact if_pos ⟨some_, bounded⟩

private theorem stateOf_eq_some {v : PyValue} {state : RuntimeControlState} :
    stateOf v = some state ↔ v = .str (points state.value) := by
  have hne : points "active" ≠ points "inactive" := by decide
  unfold stateOf
  constructor
  · intro h
    split_ifs at h with hinactive hactive
    · cases h
      exact isText_iff.mp hinactive
    · cases h
      exact isText_iff.mp hactive
  · rintro rfl
    cases state with
    | inactive => simp [PyValue.isText, RuntimeControlState.value]
    | active => simp [PyValue.isText, RuntimeControlState.value, hne]

private theorem hasExpectedFields_iff {fields : List (List ℕ × PyValue)} :
    hasExpectedFields fields = true ↔
      ∀ key, key ∈ fields.map Prod.fst ↔ key ∈ expectedFields.map points := by
  simp only [hasExpectedFields, Bool.and_eq_true, List.all_eq_true, decide_eq_true_eq]
  constructor
  · rintro ⟨hall, hpresent⟩ key
    constructor
    · intro hkey
      obtain ⟨field, hfield, rfl⟩ := List.mem_map.mp hkey
      exact hall field hfield
    · intro hkey
      obtain ⟨name, hname, rfl⟩ := List.mem_map.mp hkey
      exact hpresent name hname
  · intro h
    exact ⟨fun field hfield => (h _).mp (List.mem_map_of_mem hfield),
      fun name hname => (h _).mpr (List.mem_map_of_mem hname)⟩

section Payloads

variable [JsonDecoder] {store : RedisRuntimeControlStore} {agentId : String}
variable {payload : GetReply} {snapshot : RuntimeControlSnapshot}

private theorem parseSnapshot_eq_ok {raw : String} :
    parseSnapshot raw agentId = .ok snapshot ↔
      ∃ fields, JsonDecoder.loads raw = .ok (.dict fields) ∧ Describes fields agentId snapshot := by
  unfold parseSnapshot
  constructor
  · intro h
    obtain ⟨document, hload, h⟩ := bind_eq_ok.mp h
    have hloads : JsonDecoder.loads raw = .ok document := by
      unfold loadDocument at hload
      split at hload
      · cases hload
        assumption
      · cases hload
      · cases hload
    cases document with
    | dict fields =>
      obtain ⟨_, hexact, h⟩ := bind_eq_ok.mp h
      obtain ⟨_, hagent, h⟩ := bind_eq_ok.mp h
      obtain ⟨_, hschema, h⟩ := bind_eq_ok.mp h
      have hexact := raiseIf_eq_ok.mp hexact
      have hagent := raiseIf_eq_ok.mp hagent
      have hschema := raiseIf_eq_ok.mp hschema
      rw [Bool.not_eq_false] at hexact hagent hschema
      split at h
      · rename_i controlEpoch revokedVersion hepoch hrevoked
        split at h
        · rename_i transitionId htransition
          split at h
          · rename_i state hstate
            cases h
            exact ⟨fields, hloads, hasExpectedFields_iff.mp hexact, isText_iff.mp hagent,
              isText_iff.mp hschema, counter_eq_some.mp hepoch, counter_eq_some.mp hrevoked,
              transitionIdOf_eq_some.mp htransition, stateOf_eq_some.mp hstate, rfl⟩
          · cases h
        · cases h
      · cases h
    | _ => cases h
  · rintro ⟨fields, hloads, h⟩
    obtain ⟨boundId, controlEpoch, state, revokedVersion, transitionId⟩ := snapshot
    obtain rfl : boundId = agentId := h.bound
    have hload : loadDocument raw = .ok (.dict fields) := by
      simp only [loadDocument, hloads]
    have hepoch := counter_eq_some.mpr h.controlEpoch
    have hrevoked := counter_eq_some.mpr h.revoked
    have htransition := transitionIdOf_eq_some.mpr h.transitionId
    have hstate := stateOf_eq_some.mpr h.state
    refine bind_eq_ok.mpr ⟨_, hload, ?_⟩
    refine bind_eq_ok.mpr ⟨(), raiseIf_eq_ok.mpr ?_, ?_⟩
    · simp [hasExpectedFields_iff.mpr h.exact]
    refine bind_eq_ok.mpr ⟨(), raiseIf_eq_ok.mpr ?_, ?_⟩
    · simp [isText_iff.mpr h.agent]
    refine bind_eq_ok.mpr ⟨(), raiseIf_eq_ok.mpr ?_, ?_⟩
    · simp [isText_iff.mpr h.schemaVersion]
    simp only [hepoch, hrevoked, htransition, hstate]

/-- The store accepts exactly the well-formed snapshots. -/
theorem wellFormed_iff :
    interpretReply store agentId payload = .ok (some snapshot) ↔
      WellFormed store agentId payload snapshot := by
  have hbounded : ∀ text, interpretReply.bounded store agentId text = .ok (some snapshot) ↔
      text.toUTF8.size ≤ store.maxSnapshotBytes ∧
        ∃ fields, JsonDecoder.loads text = .ok (.dict fields) ∧
          Describes fields agentId snapshot := by
    intro text
    rw [← parseSnapshot_eq_ok]
    unfold interpretReply.bounded
    split_ifs with hsize
    · constructor
      · rintro ⟨⟩
      · rintro ⟨hfits, -⟩
        exact absurd hsize (Nat.not_lt.mpr hfits)
    · have hfits := Nat.not_lt.mp hsize
      cases parseSnapshot text agentId with
      | ok parsed => simpa [Except.map] using fun _ => hfits
      | error e => simp [Except.map]
  constructor
  · intro h
    cases payload with
    | raises => cases h
    | none => cases h
    | other => cases h
    | str text =>
      obtain ⟨hsize, fields, hloads, hdescribes⟩ := (hbounded text).mp h
      exact ⟨text, fields, .str text, hsize, hloads, hdescribes⟩
    | bytes raw =>
      simp only [interpretReply] at h
      split at h
      · rename_i text hdecodes
        obtain ⟨hsize, fields, hloads, hdescribes⟩ := (hbounded text).mp h
        exact ⟨text, fields, .bytes hdecodes, hsize, hloads, hdescribes⟩
      · cases h
  · rintro ⟨text, fields, htext, hsize, hloads, hdescribes⟩
    have h := (hbounded text).mpr ⟨hsize, fields, hloads, hdescribes⟩
    cases htext with
    | str => exact h
    | bytes decodes => simpa only [interpretReply, decodes] using h

/-- A payload is a snapshot in one way only. -/
theorem WellFormed.unique {other : RuntimeControlSnapshot}
    (h : WellFormed store agentId payload snapshot) (h' : WellFormed store agentId payload other) :
    snapshot = other :=
  Option.some.inj (Except.ok.inj ((wellFormed_iff.mpr h).symm.trans (wellFormed_iff.mpr h')))

end Payloads

end PolicyModelRouter.SnapshotPayloads
