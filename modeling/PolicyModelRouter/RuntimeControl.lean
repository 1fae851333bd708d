import PolicyModelRouter.OrderedChecks
import PolicyModelRouter.RouterCalls

/-!
# Runtime control

The projection of the kill switch and the revocation floor: how a stored snapshot
is read and parsed, and which snapshots let a request through. The state `active`
means that the switch is engaged.
-/

namespace PolicyModelRouter.RuntimeControl
open AwaitingPrograms OrderedChecks RouterCalls

/-- A value as the JSON decoder of the standard library returns it. Its strings are lists of
code points, because an escape may name half of a surrogate pair. -/
inductive PyValue where
  | none
  | bool (b : Bool)
  | int (n : ℤ)
  | float (bits : UInt64)
  | str (points : List ℕ)
  | list (items : List PyValue)
  | dict (fields : List (List ℕ × PyValue))

instance lawfulBEq_points : LawfulBEq (List ℕ) := inferInstance

def points (s : String) : List ℕ := s.toList.map Char.toNat

theorem points_inj {s t : String} (h : points s = points t) : s = t := by
  have hinj : Function.Injective Char.toNat := fun _ _ hc => Char.toNat_inj.mp hc
  exact String.toList_inj.mp (hinj.list_map h)

def PyValue.isText (v : PyValue) (s : String) : Bool :=
  match v with
  | .str p => p = points s
  | _ => false

/-- A non-negative integer; booleans are not integers here. -/
def PyValue.counter (v : PyValue) : Option ℤ :=
  match v with
  | .int n => if 0 ≤ n then some n else Option.none
  | _ => Option.none

inductive LoadsFailure where
  | jsonDecodeError
  | other

/-- The JSON decoder of the standard library. -/
class JsonDecoder where
  loads : String → Except LoadsFailure PyValue

inductive RuntimeControlState where
  | inactive
  | active
  deriving DecidableEq

def RuntimeControlState.value : RuntimeControlState → String
  | .inactive => "inactive"
  | .active => "active"

structure RuntimeControlSnapshot where
  agentId : String
  controlEpoch : ℤ
  state : RuntimeControlState
  revokedThroughAgentVersion : ℤ
  transitionId : Option (List ℕ)
  deriving DecidableEq

def expectedFields : List String :=
  ["agent_id", "control_epoch", "revoked_through_agent_version", "schema_version", "state",
    "transition_id"]

def hasExpectedFields (fields : List (List ℕ × PyValue)) : Bool :=
  fields.all (fun field => field.1 ∈ expectedFields.map points) &&
    expectedFields.all fun name => points name ∈ fields.map Prod.fst

def field (fields : List (List ℕ × PyValue)) (name : String) : PyValue :=
  (fields.lookup (points name)).getD .none

/-- The transition identifier: null, or text of 1 to 200 characters. -/
def transitionIdOf : PyValue → Option (Option (List ℕ))
  | .none => some Option.none
  | .str p => if 1 ≤ p.length ∧ p.length ≤ 200 then some (some p) else Option.none
  | _ => Option.none

def stateOf (v : PyValue) : Option RuntimeControlState :=
  if v.isText "inactive" then some .inactive
  else if v.isText "active" then some .active
  else Option.none

variable [JsonDecoder]

def loadDocument (raw : String) : Except PyException PyValue :=
  match JsonDecoder.loads raw with
  | .ok document => .ok document
  | .error .jsonDecodeError => .error (.runtimeControlStore "Runtime-control snapshot is invalid JSON")
  | .error .other => .error .backend

def parseSnapshot (raw expectedAgentId : String) : Except PyException RuntimeControlSnapshot := do
  match ← loadDocument raw with
  | .dict fields =>
    raiseIf (hasExpectedFields fields = false)
      (.runtimeControlStore "Runtime-control snapshot contains unsupported fields")
    raiseIf ((field fields "agent_id").isText expectedAgentId = false)
      (.runtimeControlStore "Runtime-control snapshot agent binding is invalid")
    raiseIf ((field fields "schema_version").isText "1.0" = false)
      (.runtimeControlStore "Runtime-control snapshot schema is unsupported")
    match (field fields "control_epoch").counter,
        (field fields "revoked_through_agent_version").counter with
    | some controlEpoch, some revokedVersion =>
      match transitionIdOf (field fields "transition_id") with
      | some transitionId =>
        match stateOf (field fields "state") with
        | some state => .ok ⟨expectedAgentId, controlEpoch, state, revokedVersion, transitionId⟩
        | none => .error (.runtimeControlStore "Runtime-control state is invalid")
      | none => .error (.runtimeControlStore "Runtime-control transition identifier is invalid")
    | _, _ => .error (.runtimeControlStore "Runtime-control snapshot counters are invalid")
  | _ => .error (.runtimeControlStore "Runtime-control snapshot contains unsupported fields")

structure RedisRuntimeControlStore where
  keyPrefix : String
  maxSnapshotBytes : ℕ
  limit : 512 ≤ maxSnapshotBytes ∧ maxSnapshotBytes ≤ 65536

/-- What one reply of the client is worth for an agent. -/
def interpretReply (store : RedisRuntimeControlStore) (agentId : String) :
    GetReply → Except PyException (Option RuntimeControlSnapshot)
  | .raises => .error (.runtimeControlStore "Runtime-control Redis is unavailable")
  | .none => .ok none
  | .bytes raw =>
    match String.fromUTF8? ⟨raw.toArray⟩ with
    | some text => bounded text
    | none => .error (.runtimeControlStore "Runtime-control snapshot is not UTF-8")
  | .str text => bounded text
  | .other => .error (.runtimeControlStore "Runtime-control snapshot has an invalid representation")
where
  bounded (text : String) : Except PyException (Option RuntimeControlSnapshot) :=
    if store.maxSnapshotBytes < text.toUTF8.size then
      .error (.runtimeControlStore "Runtime-control snapshot exceeds its size limit")
    else (parseSnapshot text agentId).map some

def RedisRuntimeControlStore.read (store : RedisRuntimeControlStore) (agentId : String) :
    Coroutine (Option RuntimeControlSnapshot) := do
  compute (raiseIf (agentId = "")
    (.runtimeControlStore "Runtime-control agent identifier is empty"))
  let reply ← ask (.redisGet (store.keyPrefix ++ agentId))
  compute (interpretReply store agentId reply)

def unavailable : PyException :=
  .runtimeControlEnforcement .runtimeControlUnavailable "Runtime control state is unavailable"

/-- The rule for a snapshot, once one could be read. -/
def permit (agentVersion : ℤ) : Option RuntimeControlSnapshot →
    Except PyException RuntimeControlSnapshot
  | none => .error unavailable
  | some snapshot => do
    raiseIf (snapshot.state = .active)
      (.runtimeControlEnforcement .killSwitchEngaged "Governance runtime kill switch is engaged")
    raiseIf (agentVersion ≤ snapshot.revokedThroughAgentVersion)
      (.runtimeControlEnforcement .runtimeAuthorizationRevoked
        "Runtime authorization predates the current Governance revocation floor")
    .ok snapshot

/-- Every exception of the store is a denial. -/
def enforce (store : RedisRuntimeControlStore) (agentId : String) (agentVersion : ℤ) :
    Coroutine RuntimeControlSnapshot := do
  let snapshot ← mapError (fun _ => unavailable) (store.read agentId)
  compute (permit agentVersion snapshot)

end PolicyModelRouter.RuntimeControl
