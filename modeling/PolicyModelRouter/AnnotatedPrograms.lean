import PolicyModelRouter.AwaitingPrograms

/-!
# Programs that take notes

A program that keeps a record of itself takes notes between its calls. A note is a call of
its own that nothing answers, so that the notes of several programs interleave as their
calls do. Erasing the notes leaves the program without its record, with the same runs.
-/

namespace AnnotatedPrograms
open AwaitingPrograms

variable {Call Note : Type} {Reply : Call → Type} {ε ε' α β : Type}

/-- What a program with notes suspends at. -/
inductive Annotated (Call Note : Type) where
  | call (c : Call)
  | note (n : Note)

def Answer (Note : Type) (Reply : Call → Type) : Annotated Call Note → Type
  | .call c => Reply c
  | .note _ => Unit

def calls : List (Event (Answer Note Reply)) → List (Event Reply)
  | [] => []
  | ⟨.call c, r⟩ :: es => ⟨c, r⟩ :: calls es
  | ⟨.note _, _⟩ :: es => calls es

def notes : List (Event (Answer Note Reply)) → List Note
  | [] => []
  | ⟨.call _, _⟩ :: es => notes es
  | ⟨.note n, _⟩ :: es => n :: notes es

def called (Note : Type) (e : Event Reply) : Event (Answer Note Reply) := ⟨.call e.1, e.2⟩

def noted (Reply : Call → Type) (n : Note) : Event (Answer Note Reply) := ⟨.note n, ()⟩

variable {es es' : List (Event (Answer Note Reply))}

@[simp] theorem calls_nil : calls ([] : List (Event (Answer Note Reply))) = [] := rfl

@[simp] theorem notes_nil : notes ([] : List (Event (Answer Note Reply))) = [] := rfl

@[simp] theorem calls_called_cons (e : Event Reply) :
    calls (called Note e :: es) = e :: calls es := rfl

@[simp] theorem notes_called_cons (e : Event Reply) :
    notes (called Note e :: es) = notes es := rfl

@[simp] theorem calls_noted_cons (n : Note) : calls (noted Reply n :: es) = calls es := rfl

@[simp] theorem notes_noted_cons (n : Note) : notes (noted Reply n :: es) = n :: notes es := rfl

@[simp] theorem calls_append : calls (es ++ es') = calls es ++ calls es' := by
  induction es with
  | nil => rfl
  | cons e es ih =>
    obtain ⟨c | n, r⟩ := e
    · exact congrArg (⟨c, r⟩ :: ·) ih
    · exact ih

@[simp] theorem notes_append : notes (es ++ es') = notes es ++ notes es' := by
  induction es with
  | nil => rfl
  | cons e es ih =>
    obtain ⟨c | n, r⟩ := e
    · exact ih
    · exact congrArg (n :: ·) ih

@[simp] theorem calls_map_called (es : List (Event Reply)) :
    calls (es.map (called Note)) = es := by
  induction es with
  | nil => rfl
  | cons e es ih => exact congrArg (e :: ·) ih

@[simp] theorem notes_map_called (es : List (Event Reply)) :
    notes (es.map (called Note)) = [] := by
  induction es with
  | nil => rfl
  | cons e es ih => exact ih

/-- A program that takes no notes. -/
def silent : Async Call Reply α → Async (Annotated Call Note) (Answer Note Reply) α
  | .done a => .done a
  | .await c k => .await (.call c) fun r => silent (k r)

/-- The program without its notes. -/
def erase : Async (Annotated Call Note) (Answer Note Reply) α → Async Call Reply α
  | .done a => .done a
  | .await (.call c) k => .await c fun r => erase (k r)
  | .await (.note _) k => erase (k ())

@[simp] theorem erase_silent (p : Async Call Reply α) :
    erase (silent p : Async (Annotated Call Note) (Answer Note Reply) α) = p := by
  induction p with
  | done a => rfl
  | await c k ih => exact congrArg _ (funext ih)

@[simp] theorem erase_bind (p : Async (Annotated Call Note) (Answer Note Reply) α)
    (f : α → Async (Annotated Call Note) (Answer Note Reply) β) :
    erase (p >>= f) = erase p >>= fun a => erase (f a) := by
  induction p with
  | done a => rfl
  | await c k ih =>
    cases c with
    | call c => exact congrArg (Async.await c) (funext ih)
    | note n => exact ih ()

theorem completes_silent {p : Async Call Reply α} {a : α} :
    Completes (silent p) es a ↔ ∃ cs, es = cs.map (called Note) ∧ Completes p cs a := by
  induction p generalizing es with
  | done b =>
    simp only [silent, completes_done_iff]
    constructor
    · rintro ⟨rfl, rfl⟩
      exact ⟨[], rfl, rfl, rfl⟩
    · rintro ⟨_, rfl, rfl, rfl⟩
      exact ⟨rfl, rfl⟩
  | await c k ih =>
    simp only [silent, completes_await_iff]
    constructor
    · rintro ⟨r, tail, rfl, h⟩
      obtain ⟨cs, rfl, hcs⟩ := (ih r).mp h
      exact ⟨⟨c, r⟩ :: cs, rfl, r, cs, rfl, hcs⟩
    · rintro ⟨_, rfl, r, cs, rfl, hcs⟩
      exact ⟨r, cs.map (called Note), rfl, (ih r).mpr ⟨cs, rfl, hcs⟩⟩

/-- Erasing the notes of a program erases them from its runs. -/
theorem completes_erase {p : Async (Annotated Call Note) (Answer Note Reply) α} {a : α}
    (h : Completes p es a) : Completes (erase p) (calls es) a := by
  induction h with
  | done a => exact .done a
  | @await c k r es a tail ih =>
    cases c with
    | call c => exact .await ih
    | note n => exact ih

/-- Every run of the program without its notes is a run of the program. -/
theorem exists_of_completes_erase {p : Async (Annotated Call Note) (Answer Note Reply) α}
    {cs : List (Event Reply)} {a : α} (h : Completes (erase p) cs a) :
    ∃ es, Completes p es a ∧ calls es = cs := by
  induction p generalizing cs with
  | done b =>
    obtain ⟨rfl, rfl⟩ := (completes_done_iff _ _ _).mp h
    exact ⟨[], .done _, rfl⟩
  | await c k ih =>
    cases c with
    | call c =>
      obtain ⟨r, tail, rfl, htail⟩ := completes_await_iff.mp h
      obtain ⟨es, hes, rfl⟩ := ih r htail
      exact ⟨called Note ⟨c, r⟩ :: es, .await hes, rfl⟩
    | note n =>
      obtain ⟨es, hes, rfl⟩ := ih () h
      exact ⟨noted Reply n :: es, .await hes, rfl⟩

theorem advances_erase {p q : Async (Annotated Call Note) (Answer Note Reply) α}
    (h : Advances p es q) : Advances (erase p) (calls es) (erase q) := by
  induction h with
  | refl p => exact .refl _
  | @await c k r es q tail ih =>
    cases c with
    | call c => exact .await ih
    | note n => exact ih

/-- What a program has to note before it goes on can be noted. -/
theorem exists_drained (p : Async (Annotated Call Note) (Answer Note Reply) α) :
    ∃ ns : List Note, ∃ q, Advances p (ns.map (noted Reply)) q ∧ erase q = erase p ∧
      ∀ n k, q ≠ .await (.note n) k := by
  induction p with
  | done a => exact ⟨[], _, .refl _, rfl, fun _ _ h => nomatch h⟩
  | await c k ih =>
    cases c with
    | call c => exact ⟨[], _, .refl _, rfl, fun _ _ h => nomatch h⟩
    | note n =>
      obtain ⟨ns, q, hadvances, herase, hdrained⟩ := ih ()
      exact ⟨n :: ns, q, .await hadvances, herase, hdrained⟩

theorem exists_notes_of_erase_eq_await {p : Async (Annotated Call Note) (Answer Note Reply) α}
    {c : Call} {k : Reply c → Async Call Reply α} (h : erase p = .await c k) :
    ∃ (ns : List Note) (k' : Reply c → Async (Annotated Call Note) (Answer Note Reply) α),
      Advances p (ns.map (noted Reply)) (.await (.call c) k') ∧ ∀ r, erase (k' r) = k r := by
  obtain ⟨ns, q, hadvances, herase, hdrained⟩ := exists_drained p
  rw [h] at herase
  rcases q with a | ⟨d | n, k'⟩
  · cases herase
  · cases herase
    exact ⟨ns, k', hadvances, fun _ => rfl⟩
  · exact absurd rfl (hdrained n k')

theorem exists_notes_of_erase_eq_done {p : Async (Annotated Call Note) (Answer Note Reply) α} {a : α}
    (h : erase p = .done a) : ∃ ns : List Note, Advances p (ns.map (noted Reply)) (.done a) := by
  obtain ⟨ns, q, hadvances, herase, hdrained⟩ := exists_drained p
  rw [h] at herase
  rcases q with b | ⟨d | n, k'⟩
  · cases herase
    exact ⟨ns, hadvances⟩
  · cases herase
  · exact absurd rfl (hdrained n k')

/-- An asynchronous function that takes notes. -/
abbrev Recording (Call : Type) (Reply : Call → Type) (Note ε α : Type) :=
  Fallible (Annotated Call Note) (Answer Note Reply) ε α

def unrecorded (x : Fallible Call Reply ε α) : Recording Call Reply Note ε α :=
  ExceptT.mk (silent x.run)

def forget (x : Recording Call Reply Note ε α) : Fallible Call Reply ε α := ExceptT.mk (erase x.run)

def takeNote (n : Note) : Recording Call Reply Note ε Unit :=
  ExceptT.mk (.await (.note n) fun _ => .done (.ok ()))

def takeNotes : List Note → Async (Annotated Call Note) (Answer Note Reply) Unit
  | [] => .done ()
  | n :: ns => .await (.note n) fun _ => takeNotes ns

/-- Take the notes that an outcome calls for, and go on with the outcome. -/
def concluding (conclude : Except ε α → List Note) (x : Recording Call Reply Note ε α) :
    Recording Call Reply Note ε α :=
  ExceptT.mk (x.run >>= fun r => takeNotes (conclude r) >>= fun _ => .done r)

section Forget

@[simp] theorem forget_pure (a : α) :
    forget (pure a : Recording Call Reply Note ε α) = pure a := rfl

@[simp] theorem forget_throw (e : ε) :
    forget (throw e : Recording Call Reply Note ε α) = throw e := rfl

@[simp] theorem forget_compute (x : Except ε α) :
    forget (compute x : Recording Call Reply Note ε α) = compute x := rfl

@[simp] theorem forget_unrecorded (x : Fallible Call Reply ε α) :
    forget (unrecorded x : Recording Call Reply Note ε α) = x := erase_silent _

@[simp] theorem forget_bind (x : Recording Call Reply Note ε α)
    (f : α → Recording Call Reply Note ε β) :
    forget (x >>= f) = forget x >>= fun a => forget (f a) := by
  change erase (x.run >>= ExceptT.bindCont f) = erase x.run >>= _
  rw [erase_bind]
  refine congrArg _ (funext fun r => ?_)
  cases r <;> rfl

@[simp] theorem forget_takeNote_bind (n : Note) (f : Unit → Fallible Call Reply ε β) :
    (forget (takeNote n : Recording Call Reply Note ε Unit) >>= f) = f () := rfl

@[simp] theorem forget_mapError (f : ε → ε') (x : Recording Call Reply Note ε α) :
    forget (mapError f x) = mapError f (forget x) :=
  erase_bind _ _

@[simp] theorem forget_recover (handler : ε → Recording Call Reply Note ε' α)
    (x : Recording Call Reply Note ε α) :
    forget (recover handler x) = recover (fun e => forget (handler e)) (forget x) := by
  change erase (x.run >>= _) = erase x.run >>= _
  rw [erase_bind]
  refine congrArg _ (funext fun r => ?_)
  cases r <;> rfl

theorem erase_takeNotes (ns : List Note) :
    erase (takeNotes ns : Async (Annotated Call Note) (Answer Note Reply) Unit) = .done () := by
  induction ns with
  | nil => rfl
  | cons n ns ih => exact ih

@[simp] theorem forget_concluding (conclude : Except ε α → List Note)
    (x : Recording Call Reply Note ε α) : forget (concluding conclude x) = forget x := by
  change erase (x.run >>= _) = erase x.run
  rw [erase_bind]
  simp only [erase_bind, erase_takeNotes]
  exact async_bind_done _

end Forget

section Runs

theorem completes_takeNotes {ns : List Note} {u : Unit} :
    Completes (takeNotes ns : Async (Annotated Call Note) (Answer Note Reply) Unit) es u ↔
      es = ns.map (noted Reply) := by
  induction ns generalizing es with
  | nil => simp [takeNotes]
  | cons n ns ih =>
    simp only [takeNotes, completes_await_iff, ih, List.map_cons]
    constructor
    · rintro ⟨⟨⟩, tail, rfl, rfl⟩
      rfl
    · rintro rfl
      exact ⟨(), _, rfl, rfl⟩

@[simp] theorem calls_map_noted (ns : List Note) :
    calls (ns.map (noted Reply)) = [] := by
  induction ns with
  | nil => rfl
  | cons n ns ih => exact ih

@[simp] theorem notes_map_noted (ns : List Note) :
    notes (ns.map (noted Reply)) = ns := by
  induction ns with
  | nil => rfl
  | cons n ns ih => exact congrArg (n :: ·) ih

theorem completes_concluding {conclude : Except ε α → List Note}
    {x : Recording Call Reply Note ε α} {r : Except ε α} :
    Completes (concluding conclude x).run es r ↔
      ∃ es', es = es' ++ (conclude r).map (noted Reply) ∧ Completes x.run es' r := by
  change Completes (x.run >>= _) es r ↔ _
  simp only [completes_bind_iff, completes_takeNotes, completes_done_iff]
  constructor
  · rintro ⟨es', _, r', rfl, hx, _, _, _, rfl, rfl, rfl, rfl⟩
    exact ⟨es', by simp, hx⟩
  · rintro ⟨es', rfl, hx⟩
    exact ⟨es', _, r, rfl, hx, _, [], (), by simp, rfl, rfl, rfl⟩

theorem completes_unrecorded {x : Fallible Call Reply ε α} {r : Except ε α} :
    Completes (unrecorded x : Recording Call Reply Note ε α).run es r ↔
      ∃ cs, es = cs.map (called Note) ∧ Completes x.run cs r :=
  completes_silent

theorem completes_unrecorded_perform {c : Call} {r : Except ε (Reply c)} :
    Completes (unrecorded (perform c) : Recording Call Reply Note ε (Reply c)).run es r ↔
      ∃ reply, es = [called Note ⟨c, reply⟩] ∧ r = .ok reply := by
  rw [completes_unrecorded]
  cases r with
  | ok reply =>
    constructor
    · rintro ⟨cs, rfl, h⟩
      obtain rfl := (returns_perform c reply).mp h
      exact ⟨reply, rfl, rfl⟩
    · rintro ⟨_, rfl, ⟨⟩⟩
      exact ⟨_, rfl, (returns_perform c reply).mpr rfl⟩
  | error e =>
    constructor
    · rintro ⟨cs, -, h⟩
      exact absurd h (not_raises_perform c e)
    · rintro ⟨_, -, ⟨⟩⟩

@[simp] theorem completes_takeNote {n : Note} {r : Except ε Unit} :
    Completes (takeNote n : Recording Call Reply Note ε Unit).run es r ↔
      es = [noted Reply n] ∧ r = .ok () := by
  change Completes (Async.await (Annotated.note n) _) es r ↔ _
  rw [completes_await_iff]
  constructor
  · rintro ⟨⟨⟩, tail, rfl, h⟩
    obtain ⟨rfl, rfl⟩ := (completes_done_iff _ _ _).mp h
    exact ⟨rfl, rfl⟩
  · rintro ⟨rfl, rfl⟩
    exact ⟨(), [], rfl, .done _⟩

end Runs

end AnnotatedPrograms
