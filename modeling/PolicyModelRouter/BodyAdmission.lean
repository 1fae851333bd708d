import PolicyModelRouter.AuthorizedDecisions

/-!
# Admission of a request body

The middleware in front of the framework consults the limit per address, checks the declared
length, and reads the body under its cap. Only then is the application behind it invoked: its
first receive yields one message with the whole body, or the disconnect that came first, and
the later ones what is left on the channel.
-/

namespace PolicyModelRouter.BodyAdmission
open AuthorizationContract AwaitingPrograms PythonText RouteEndpoint RouterCalls

variable {α : Type}

section Middleware

variable [Cryptography]

/-- What the middleware does before the application is invoked: a response of its own, or the
message the application will receive first. -/
def admission (app : Application) (scope : RouteScope) : Coroutine (Response ⊕ AsgiMessage) := do
  let ipAllowed ← ask (.allow .perIp ("ip:" ++ clientHost scope))
  match ipAllowed with
  | false => pure (.inl tooManyRequests)
  | true =>
    match declaredBodySizeError scope.headers app.maxRequestBodyBytes with
    | some response => pure (.inl response)
    | none =>
      match ← admitBody app.maxRequestBodyBytes scope.patience [] with
      | .tooLarge => pure (.inl (bodyTooLarge app.maxRequestBodyBytes))
      | .disconnected => pure (.inr .disconnect)
      | .complete body => pure (.inr (.request body false))

/-- The channel handed to the application yields the admitted message once, and then reads on. -/
def receiveAdmitted (admittedMessage : AsgiMessage) : Async Call Reply α → Async Call Reply α
  | .done a => .done a
  | .await c k =>
    match c, k with
    | .receive, k => k admittedMessage
    | c, k => .await c fun r => receiveAdmitted admittedMessage (k r)

/-- The middleware ends on the left where it never invoked the application. -/
def guard (app : Application) (scope : RouteScope) (downstream : Async Call Reply α) :
    Async Call Reply (Except PyException Response ⊕ α) :=
  (admission app scope).run >>= fun
    | .ok (.inr message) => receiveAdmitted message downstream >>= fun a => .done (.inr a)
    | .ok (.inl response) => .done (.inl (.ok response))
    | .error e => .done (.inl (.error e))

/-- The framework behind the middleware receives once, and takes a body or a disconnect. -/
theorem bodySizeAndIpRateLimit_eq_guard (app : Application) (scope : RouteScope)
    (k : AsgiMessage → Coroutine Response) :
    (bodySizeAndIpRateLimit app scope fun body => k (body.elim .disconnect (.request · false))).run =
      guard app scope (.await .receive fun message => (k message).run) >>= fun result =>
        .done (result.elim id id) := by
  have hpassed : ∀ message, (receiveAdmitted message (.await .receive fun m => (k m).run) >>=
      fun a => (.done (.inr a) : Async Call Reply (Except PyException Response ⊕ _))) >>=
        (fun result => .done (result.elim id id)) = (k message).run := by
    intro message
    rw [async_bind_assoc]
    exact async_bind_done _
  refine congrArg (Async.await _) (funext fun allowed => ?_)
  cases allowed with
  | false => rfl
  | true =>
    simp only
    cases declaredBodySizeError scope.headers app.maxRequestBodyBytes with
    | some response => rfl
    | none =>
      change (admitBody _ _ _).run >>= _ = (((admitBody _ _ _).run >>= _) >>= _) >>= _
      rw [async_bind_assoc, async_bind_assoc]
      refine congrArg _ (funext fun admission => ?_)
      rcases admission with e | body | _ | _
      · rfl
      · exact (hpassed (.request body false)).symm
      · exact (hpassed .disconnect).symm
      · rfl

end Middleware

def body : AsgiMessage → Bytes
  | .request chunk _ => chunk
  | _ => []

def bodies (messages : List AsgiMessage) : Bytes := messages.flatMap body

def ends : AsgiMessage → Bool
  | .request _ moreBody => !moreBody
  | .disconnect => true
  | .other => false

def Continues (message : AsgiMessage) : Prop := ∃ chunk, message = .request chunk true

def arrived (message : AsgiMessage) : Event Reply := ⟨.receive, message⟩

/-- A channel delivers the messages in order; every other call has a fixed answer. -/
def channel (answer : (call : Call) → Reply call) :
    (call : Call) → List AsgiMessage → Reply call × List AsgiMessage
  | .receive, message :: rest => (message, rest)
  | call, rest => (answer call, rest)

section Loop

variable {answer : (call : Call) → Reply call} {cap patience : ℕ} {start chunk : Bytes}
variable {rest : List AsgiMessage}

theorem run_receive_bind (f : AsgiMessage → Coroutine α) (message : AsgiMessage) :
    (ask .receive >>= f).run.run (channel answer) (message :: rest) =
      let next := (f message).run.run (channel answer) rest
      (next.1, arrived message :: next.2.1, next.2.2) := rfl

theorem run_admitBody_of_fits (fits : start.length + chunk.length ≤ cap) :
    (admitBody cap (patience + 1) start).run.run (channel answer) (.request chunk true :: rest) =
      let next := (admitBody cap patience (start ++ chunk)).run.run (channel answer) rest
      (next.1, arrived (.request chunk true) :: next.2.1, next.2.2) := by
  rw [admitBody]
  apply (run_receive_bind _ _).trans
  simp only [if_neg (show ¬ cap - start.length < chunk.length by omega), if_true]

theorem run_admitBody_complete (fits : start.length + chunk.length ≤ cap) :
    (admitBody cap (patience + 1) start).run.run (channel answer) (.request chunk false :: rest) =
      (.ok (.complete (start ++ chunk)), [arrived (.request chunk false)], rest) := by
  rw [admitBody]
  apply (run_receive_bind _ _).trans
  simp only [if_neg (show ¬ cap - start.length < chunk.length by omega), Bool.false_eq_true, if_false]
  rfl

theorem run_admitBody_exceeds {moreBody : Bool} (held : start.length ≤ cap)
    (exceeds : cap < start.length + chunk.length) :
    (admitBody cap (patience + 1) start).run.run (channel answer) (.request chunk moreBody :: rest) =
      (.ok .tooLarge, [arrived (.request chunk moreBody)], rest) := by
  rw [admitBody]
  apply (run_receive_bind _ _).trans
  simp only [if_pos (show cap - start.length < chunk.length by omega)]
  rfl

private theorem run_admitBody_disconnect :
    (admitBody cap (patience + 1) start).run.run (channel answer) (.disconnect :: rest) =
      (.ok .disconnected, [arrived .disconnect], rest) := by
  rw [admitBody]
  apply (run_receive_bind _ _).trans
  rfl

def unexpectedEvent : PyException :=
  .runtime "unexpected ASGI event during request body admission"

private theorem run_admitBody_other :
    (admitBody cap (patience + 1) start).run.run (channel answer) (.other :: rest) =
      (.error unexpectedEvent, [arrived .other], rest) := by
  rw [admitBody]
  apply (run_receive_bind _ _).trans
  rfl

/-- The loop invariant: what was read is held, and is within the cap. -/
theorem run_admitBody_append {before after : List AsgiMessage}
    (continues : ∀ m ∈ before, Continues m) (fits : start.length + (bodies before).length ≤ cap) :
    (admitBody cap (patience + before.length) start).run.run (channel answer) (before ++ after) =
      let next := (admitBody cap patience (start ++ bodies before)).run.run (channel answer) after
      (next.1, before.map arrived ++ next.2.1, next.2.2) := by
  induction before generalizing start with
  | nil => simp [bodies]
  | cons m before ih =>
    obtain ⟨chunk, rfl⟩ := continues m List.mem_cons_self
    have hbodies : bodies (.request chunk true :: before) = chunk ++ bodies before := rfl
    rw [hbodies, List.length_append] at fits
    have hrest := @ih (start ++ chunk) (fun m hm => continues m (List.mem_cons_of_mem _ hm))
      (by rw [List.length_append]; omega)
    rw [List.length_cons, ← Nat.add_assoc, List.cons_append, run_admitBody_of_fits (by omega), hrest,
      hbodies, List.append_assoc]
    rfl

/-- The message at which the loop stops without admitting the body, with so many bytes held. -/
inductive Stops (cap held : ℕ) : AsgiMessage → Prop where
  | exceeds (chunk : Bytes) (moreBody : Bool) (exceeds : cap < held + chunk.length) :
      Stops cap held (.request chunk moreBody)
  | other : Stops cap held .other

/-- Up to the message that ends the body, the loop reads on, or there is a first message at
which it stops. -/
theorem continues_or_stops {init : List AsgiMessage} {last : AsgiMessage} {held : ℕ}
    (unended : ∀ m ∈ init, ends m = false) (ended : ends last = true) (within : held ≤ cap) :
    ((∀ m ∈ init, Continues m) ∧ held + (bodies (init ++ [last])).length ≤ cap) ∨
      ∃ before m after, init ++ [last] = before ++ m :: after ∧ (∀ b ∈ before, Continues b) ∧
        held + (bodies before).length ≤ cap ∧ Stops cap (held + (bodies before).length) m := by
  induction init generalizing held with
  | nil =>
    rcases Nat.lt_or_ge cap (held + (body last).length) with hexceeds | hfits
    · refine .inr ⟨[], last, [], rfl, by simp, by simpa [bodies] using within, ?_⟩
      cases last with
      | request chunk moreBody => exact .exceeds chunk moreBody hexceeds
      | disconnect => simp only [body, List.length_nil] at hexceeds; omega
      | other => cases ended
    · exact .inl ⟨by simp, by simpa [bodies] using hfits⟩
  | cons m init ih =>
    have hunended := List.forall_mem_cons.mp unended
    cases m with
    | disconnect => cases hunended.1
    | other =>
      exact .inr ⟨[], .other, init ++ [last], rfl, by simp, by simpa [bodies] using within, .other⟩
    | request chunk moreBody =>
      obtain rfl : moreBody = true := by simpa [ends] using hunended.1
      rcases Nat.lt_or_ge cap (held + chunk.length) with hexceeds | hfits
      · exact .inr ⟨[], _, init ++ [last], rfl, by simp, by simpa [bodies] using within,
          .exceeds chunk true hexceeds⟩
      · have hbodies : ∀ messages, (bodies (.request chunk true :: messages)).length =
            chunk.length + (bodies messages).length := fun messages => List.length_append
        rcases ih hunended.2 hfits with ⟨hcontinues, htotal⟩ |
          ⟨before, m, after, hsplit, hcontinues, hheld, hstops⟩
        · refine .inl ⟨List.forall_mem_cons.mpr ⟨⟨chunk, rfl⟩, hcontinues⟩, ?_⟩
          rw [List.cons_append, hbodies]
          omega
        · refine .inr ⟨.request chunk true :: before, m, after, by rw [List.cons_append, hsplit]; rfl,
            List.forall_mem_cons.mpr ⟨⟨chunk, rfl⟩, hcontinues⟩, ?_, ?_⟩
          · rw [hbodies]
            omega
          · rw [hbodies, ← Nat.add_assoc]
            exact hstops

end Loop

section Guard

variable [Cryptography] {app : Application} {scope : RouteScope} {downstream : Async Call Reply α}
variable {answer : (call : Call) → Reply call} {messages init rest : List AsgiMessage}
variable {last : AsgiMessage}

def limited (scope : RouteScope) (answer : (call : Call) → Reply call) : Event Reply :=
  ⟨.allow .perIp ("ip:" ++ clientHost scope), answer (.allow .perIp ("ip:" ++ clientHost scope))⟩

def ipAllowed (scope : RouteScope) (answer : (call : Call) → Reply call) : Bool :=
  answer (.allow .perIp ("ip:" ++ clientHost scope))

def admitted (cap : ℕ) : Admission → Response ⊕ AsgiMessage
  | .tooLarge => .inl (bodyTooLarge cap)
  | .disconnected => .inr .disconnect
  | .complete body => .inr (.request body false)

private theorem run_admission_refused (refused : ipAllowed scope answer = false) :
    (admission app scope).run.run (channel answer) messages =
      (.ok (.inl tooManyRequests), [limited scope answer], messages) := by
  unfold ipAllowed at refused
  change (_, _, _) = _
  simp only [channel, limited, refused]
  rfl

private theorem run_admission_declared {response : Response} (allowed : ipAllowed scope answer = true)
    (declared : declaredBodySizeError scope.headers app.maxRequestBodyBytes = some response) :
    (admission app scope).run.run (channel answer) messages =
      (.ok (.inl response), [limited scope answer], messages) := by
  unfold ipAllowed at allowed
  change (_, _, _) = _
  simp only [channel, limited, allowed, declared]
  rfl

private theorem run_admission_reads (allowed : ipAllowed scope answer = true)
    (declared : declaredBodySizeError scope.headers app.maxRequestBodyBytes = none) :
    (admission app scope).run.run (channel answer) messages =
      let loop := (admitBody app.maxRequestBodyBytes scope.patience []).run.run (channel answer) messages
      (loop.1.map (admitted app.maxRequestBodyBytes), limited scope answer :: loop.2.1, loop.2.2) := by
  unfold ipAllowed at allowed
  have hrun : (admission app scope).run.run (channel answer) messages =
      let loop := ((admitBody app.maxRequestBodyBytes scope.patience []).run >>= fun result =>
        .done (result.map (admitted app.maxRequestBodyBytes))).run (channel answer) messages
      (loop.1, limited scope answer :: loop.2.1, loop.2.2) := by
    have htree : ∀ loop : Coroutine Admission, loop.run >>= ExceptT.bindCont (fun admission =>
        match admission with
        | .tooLarge => pure (.inl (bodyTooLarge app.maxRequestBodyBytes))
        | .disconnected => pure (.inr .disconnect)
        | .complete body => pure (.inr (.request body false))) = loop.run >>= fun result =>
          .done (result.map (admitted app.maxRequestBodyBytes)) := by
      intro loop
      refine congrArg _ (funext fun result => ?_)
      rcases result with e | body | _ | _ <;> rfl
    rw [← htree]
    change (_, _, _) = _
    simp only [channel, limited, allowed, declared]
    rfl
  rw [hrun, run_bind]
  simp [Async.run]

omit [Cryptography] in
/-- The application receives the admitted message first, and then what is left. -/
theorem run_receiveAdmitted (message : AsgiMessage) (p : Async Call Reply α) :
    ((receiveAdmitted message p).run (channel answer) rest).1 =
      (p.run (channel answer) (message :: rest)).1 := by
  induction p with
  | done a => rfl
  | await c k ih =>
    cases c with
    | receive => rfl
    | _ => exact ih _

def admittedMessage (init : List AsgiMessage) (last : AsgiMessage) : AsgiMessage :=
  match last with
  | .disconnect => .disconnect
  | _ => .request (bodies (init ++ [last])) false

/-- What the middleware does with the message at which it stops. -/
def stopping (cap : ℕ) : AsgiMessage → Except PyException Response
  | .other => .error unexpectedEvent
  | _ => .ok (bodyTooLarge cap)

theorem run_guard_of_stopped {r : Except PyException Response} {es : List (Event Reply)}
    (h : (admission app scope).run.run (channel answer) messages =
      (match r with | .ok response => .ok (.inl response) | .error e => .error e, es, rest)) :
    (guard app scope downstream).run (channel answer) messages = (.inl r, es, rest) := by
  unfold guard
  rw [run_bind, h]
  cases r <;> simp [Async.run]

private theorem run_guard_of_admitted {message : AsgiMessage} {es : List (Event Reply)}
    (h : (admission app scope).run.run (channel answer) messages = (.ok (.inr message), es, rest)) :
    ((guard app scope downstream).run (channel answer) messages).1 =
        .inr (downstream.run (channel answer) (message :: rest)).1 ∧
      ∃ calls, ((guard app scope downstream).run (channel answer) messages).2.1 = es ++ calls := by
  unfold guard
  rw [run_bind, h]
  simp only
  rw [run_bind]
  exact ⟨congrArg Sum.inr (run_receiveAdmitted message downstream), _, rfl⟩

structure Acceptable (app : Application) (scope : RouteScope) (answer : (call : Call) → Reply call)
    (init : List AsgiMessage) (last : AsgiMessage) : Prop where
  allowed : ipAllowed scope answer = true
  declared : declaredBodySizeError scope.headers app.maxRequestBodyBytes = none
  requests : AsgiMessage.other ∉ init
  fits : (bodies (init ++ [last])).length ≤ app.maxRequestBodyBytes

/-- The message at which the loop stops, after messages it read on over. -/
structure StopsAt (cap : ℕ) (messages : List AsgiMessage) (before : List AsgiMessage)
    (message : AsgiMessage) (after : List AsgiMessage) : Prop where
  split : messages = before ++ message :: after
  continues : ∀ m ∈ before, Continues m
  fits : (bodies before).length ≤ cap
  stops : Stops cap (bodies before).length message

private theorem run_admission_stopped {before after : List AsgiMessage} {message : AsgiMessage}
    (allowed : ipAllowed scope answer = true)
    (declared : declaredBodySizeError scope.headers app.maxRequestBodyBytes = none)
    (patient : before.length < scope.patience)
    (h : StopsAt app.maxRequestBodyBytes messages before message after) :
    (guard app scope downstream).run (channel answer) messages =
      (.inl (stopping app.maxRequestBodyBytes message),
        limited scope answer :: (before ++ [message]).map arrived, after) := by
  obtain ⟨patience, hpatience⟩ : ∃ patience, scope.patience = patience + 1 + before.length :=
    ⟨scope.patience - before.length - 1, by omega⟩
  have hloop := @run_admitBody_append answer app.maxRequestBodyBytes (patience + 1) [] before
    (message :: after) h.continues (by simpa using h.fits)
  apply run_guard_of_stopped
  rw [run_admission_reads allowed declared, h.split, hpatience, hloop, List.nil_append]
  cases h.stops with
  | other => simp [run_admitBody_other, stopping, Except.map]
  | exceeds chunk moreBody exceeds =>
    simp [run_admitBody_exceeds h.fits exceeds, stopping, Except.map, admitted]

private theorem run_admission_acceptable (h : Acceptable app scope answer init last)
    (continues : ∀ m ∈ init, Continues m) (ended : ends last = true)
    (patient : init.length < scope.patience) :
    (admission app scope).run.run (channel answer) (init ++ last :: rest) =
      (.ok (.inr (admittedMessage init last)),
        limited scope answer :: (init ++ [last]).map arrived, rest) := by
  obtain ⟨patience, hpatience⟩ : ∃ patience, scope.patience = patience + 1 + init.length :=
    ⟨scope.patience - init.length - 1, by omega⟩
  have htotal : (bodies (init ++ [last])).length = (bodies init).length + (body last).length := by
    simp [bodies]
  have hfits := h.fits
  have hloop := @run_admitBody_append answer app.maxRequestBodyBytes (patience + 1) [] init
    (last :: rest) continues (by simp only [List.length_nil]; omega)
  rw [run_admission_reads h.allowed h.declared, hpatience, hloop, List.nil_append]
  cases last with
  | other => cases ended
  | disconnect => simp [run_admitBody_disconnect, Except.map, admitted, admittedMessage]
  | request chunk moreBody =>
    obtain rfl : moreBody = false := by simpa [ends] using ended
    have hchunk : (bodies init).length + chunk.length ≤ app.maxRequestBodyBytes := htotal ▸ hfits
    have hwhole : bodies (init ++ [.request chunk false]) = bodies init ++ chunk := by
      simp [bodies, body]
    simp [run_admitBody_complete hchunk, Except.map, admitted, admittedMessage, hwhole]

/-- What the middleware does with a body that comes to an end on the channel. -/
structure Exact (app : Application) (scope : RouteScope) (downstream : Async Call Reply α)
    (answer : (call : Call) → Reply call) (init : List AsgiMessage) (last : AsgiMessage)
    (rest : List AsgiMessage) (result : Except PyException Response ⊕ α) (es : List (Event Reply))
    (remaining : List AsgiMessage) : Prop where
  limitedOnce : ∃ reads calls, es = limited scope answer :: (reads.map arrived ++ calls) ∧
    reads <+: init ++ [last] ∧
    (¬ Acceptable app scope answer init last → calls = [] ∧ reads ++ remaining = init ++ last :: rest)
  invoked : (∃ a, result = .inr a) ↔ Acceptable app scope answer init last
  handedOver : Acceptable app scope answer init last →
    result = .inr (downstream.run (channel answer) (admittedMessage init last :: rest)).1
  refused : ipAllowed scope answer = false →
    result = .inl (.ok tooManyRequests) ∧ remaining = init ++ last :: rest
  declared : ∀ response, ipAllowed scope answer = true →
    declaredBodySizeError scope.headers app.maxRequestBodyBytes = some response →
    result = .inl (.ok response) ∧ remaining = init ++ last :: rest ∧
      (response = invalidContentLength ∨ response = bodyTooLarge app.maxRequestBodyBytes)
  stopped : ipAllowed scope answer = true →
    declaredBodySizeError scope.headers app.maxRequestBodyBytes = none →
    ¬ Acceptable app scope answer init last → ∃ before message after,
      StopsAt app.maxRequestBodyBytes (init ++ last :: rest) before message after ∧
      result = .inl (stopping app.maxRequestBodyBytes message) ∧ remaining = after

private theorem eq_of_declaredBodySizeError {headers : List (Bytes × Bytes)} {cap : ℕ}
    {response : Response}
    (h : declaredBodySizeError headers cap = some response) :
    response = invalidContentLength ∨ response = bodyTooLarge cap := by
  unfold declaredBodySizeError at h
  split at h
  · exact .inl (Option.some.inj h).symm
  · cases h
  · dsimp only at h
    split_ifs at h
    all_goals first
      | exact .inl (Option.some.inj h).symm
      | exact .inr (Option.some.inj h).symm

theorem not_acceptable_of_stops {before after : List AsgiMessage} {message : AsgiMessage}
    (ended : ends last = true) (split : init ++ [last] = before ++ message :: after)
    (stops : Stops app.maxRequestBodyBytes (bodies before).length message) :
    ¬ Acceptable app scope answer init last := by
  intro h
  cases stops with
  | other =>
    have hmem : AsgiMessage.other ∈ init ++ [last] := by simp [split]
    rcases List.mem_append.mp hmem with hmem | hmem
    · exact h.requests hmem
    · rw [← List.mem_singleton.mp hmem] at ended
      cases ended
  | exceeds chunk moreBody exceeds =>
    have hfits := h.fits
    rw [split] at hfits
    simp only [bodies, body, List.flatMap_append, List.flatMap_cons, List.length_append] at hfits exceeds
    omega

theorem body_admission_exact (app : Application) (scope : RouteScope)
    (downstream : Async Call Reply α) (answer : (call : Call) → Reply call)
    (init : List AsgiMessage) (last : AsgiMessage) (rest : List AsgiMessage)
    (unended : ∀ m ∈ init, ends m = false) (ended : ends last = true)
    (patient : init.length < scope.patience) :
    let run := (guard app scope downstream).run (channel answer) (init ++ last :: rest)
    Exact app scope downstream answer init last rest run.1 run.2.1 run.2.2 := by
  intro run
  cases hallowed : ipAllowed scope answer with
  | false =>
    have hrun : run = (.inl (.ok tooManyRequests), [limited scope answer], init ++ last :: rest) :=
      run_guard_of_stopped (run_admission_refused hallowed)
    have hunacceptable : ¬ Acceptable app scope answer init last := fun h => by
      simp [h.allowed] at hallowed
    rw [hrun]
    exact ⟨⟨[], [], rfl, List.nil_prefix, fun _ => ⟨rfl, rfl⟩⟩, by simp [hunacceptable],
      fun h => absurd h hunacceptable, fun _ => ⟨rfl, rfl⟩, by simp [hallowed], by simp [hallowed]⟩
  | true =>
    cases hdeclared : declaredBodySizeError scope.headers app.maxRequestBodyBytes with
    | some response =>
      have hrun : run = (.inl (.ok response), [limited scope answer], init ++ last :: rest) :=
        run_guard_of_stopped (run_admission_declared hallowed hdeclared)
      have hunacceptable : ¬ Acceptable app scope answer init last := fun h => by
        simp [h.declared] at hdeclared
      rw [hrun]
      refine ⟨⟨[], [], rfl, List.nil_prefix, fun _ => ⟨rfl, rfl⟩⟩, by simp [hunacceptable],
        fun h => absurd h hunacceptable, by simp [hallowed], ?_, by simp [hdeclared]⟩
      intro other _ hother
      rw [hdeclared] at hother
      cases hother
      exact ⟨rfl, rfl, eq_of_declaredBodySizeError hdeclared⟩
    | none =>
      rcases continues_or_stops unended ended (Nat.zero_le app.maxRequestBodyBytes) with
        ⟨hcontinues, hfits⟩ | ⟨before, message, after, hsplit, hcontinues, hheld, hstops⟩
      · have hacceptable : Acceptable app scope answer init last := by
          refine ⟨hallowed, hdeclared, fun hother => ?_, by simpa using hfits⟩
          obtain ⟨chunk, hchunk⟩ := hcontinues _ hother
          cases hchunk
        have hadmitted : (admission app scope).run.run (channel answer) (init ++ last :: rest) =
            (.ok (.inr (admittedMessage init last)),
              limited scope answer :: (init ++ [last]).map arrived, rest) :=
          run_admission_acceptable hacceptable hcontinues ended patient
        obtain ⟨hresult, calls, hcalls⟩ :
            run.1 = .inr (downstream.run (channel answer) (admittedMessage init last :: rest)).1 ∧
              ∃ calls, run.2.1 = limited scope answer :: (init ++ [last]).map arrived ++ calls :=
          run_guard_of_admitted hadmitted
        exact ⟨⟨_, calls, hcalls, List.prefix_rfl, fun h => absurd hacceptable h⟩,
          ⟨fun _ => hacceptable, fun _ => ⟨_, hresult⟩⟩, fun _ => hresult, by simp [hallowed],
          by simp [hdeclared], fun _ _ h => absurd hacceptable h⟩
      · rw [Nat.zero_add] at hheld hstops
        have hunacceptable : ¬ Acceptable app scope answer init last :=
          not_acceptable_of_stops ended hsplit hstops
        have hwhole : init ++ last :: rest = before ++ message :: (after ++ rest) := by
          simpa using congrArg (· ++ rest) hsplit
        have hlength := congrArg List.length hsplit
        simp only [List.length_append, List.length_cons, List.length_nil] at hlength
        have hstopsAt : StopsAt app.maxRequestBodyBytes (init ++ last :: rest) before message
            (after ++ rest) := ⟨hwhole, hcontinues, hheld, hstops⟩
        have hrun : run = (.inl (stopping app.maxRequestBodyBytes message),
            limited scope answer :: (before ++ [message]).map arrived, after ++ rest) :=
          run_admission_stopped hallowed hdeclared (by omega) hstopsAt
        rw [hrun]
        refine ⟨⟨before ++ [message], [], by simp, ?_, fun _ => ⟨rfl, by simp [hwhole]⟩⟩,
          by simp [hunacceptable], fun h => absurd h hunacceptable, by simp [hallowed],
          by simp [hdeclared], fun _ _ _ => ⟨before, message, _, hstopsAt, rfl, rfl⟩⟩
        exact ⟨after, by simp [hsplit]⟩

end Guard

namespace Deployed

open AuthorizedDecisions.Deployed
open VerificationSpecification.Deployed (genuine)

def receivesTwice : Async Call Reply (AsgiMessage × AsgiMessage) :=
  .await .receive fun first => .await .receive fun second => .done (first, second)

def capped : Application := { application with maxRequestBodyBytes := 8 }

def chunked : RouteScope := { headers := [], clientHost := none, patience := 2 }

/-- A body in two chunks arrives whole, and the disconnect after it arrives next. -/
theorem body_admission_exact_deployed : ∃ es, @Exact _ genuine capped chunked receivesTwice answer
    [.request [1, 2] true] (.request [3] false) [.disconnect]
    (.inr (.request [1, 2, 3] false, .disconnect)) es [] :=
  ⟨_, @body_admission_exact _ genuine capped chunked receivesTwice answer
    [.request [1, 2] true] (.request [3] false) [.disconnect] (by decide) (by decide) (by decide)⟩

end Deployed

end PolicyModelRouter.BodyAdmission
