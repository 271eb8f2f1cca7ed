import EagerLoad.Transaction

/-!
# Playing operations

An operation is played step by step: what its first part asks comes first, and unless this part fails the
rest goes on with the answers that are left. A part that asks nothing uses no answer, and a single
statement uses one.
-/

namespace EagerLoad

open Sql

variable {α β γ : Type} {responses : List Response}

/-- Playing a dialogue that continues by a result plays both parts, one after the other. -/
theorem Dialogue.play_bind (d : Dialogue α) (f : α → Dialogue β) (responses : List Response) :
    (d.bind f).play responses =
      let first := d.play responses
      let second := (f first.result).play first.unused
      ⟨second.result, first.asked ++ second.asked, second.unused⟩ := by
  induction d generalizing responses with
  | done result => rfl
  | ask call query next ih =>
    rw [Dialogue.bind, Dialogue.play, Dialogue.play, ih]
    rfl

/-- Go on after an operation was played, unless it failed. -/
def Played.andThen (p : Played (Except Error α)) (next : α → List Response → Played (Except Error β)) :
    Played (Except Error β) :=
  match p.result with
  | .error e => ⟨.error e, p.asked, p.unused⟩
  | .ok a =>
    let rest := next a p.unused
    ⟨rest.result, p.asked ++ rest.asked, rest.unused⟩

@[simp] theorem Played.andThen_error (e : Error) (asked : List (Call × Query)) (unused : List Response)
    (next : α → List Response → Played (Except Error β)) :
    (Played.mk (.error e) asked unused).andThen next = ⟨.error e, asked, unused⟩ := rfl

@[simp] theorem Played.andThen_ok (a : α) (asked : List (Call × Query)) (unused : List Response)
    (next : α → List Response → Played (Except Error β)) :
    (Played.mk (.ok a) asked unused).andThen next =
      ⟨(next a unused).result, asked ++ (next a unused).asked, (next a unused).unused⟩ := rfl

namespace Transaction

theorem play_bind (x : Transaction α) (next : α → Transaction β) (responses : List Response) :
    (x >>= next).run.play responses =
      (x.run.play responses).andThen fun a unused => (next a).run.play unused := by
  change (x.run.bind (ExceptT.bindCont next)).play responses = _
  rw [Dialogue.play_bind]
  obtain ⟨result, asked, unused⟩ := x.run.play responses
  cases result with
  | error e => simp [ExceptT.bindCont, pure, Dialogue.play]
  | ok a => rfl

@[simp] theorem play_pure (a : α) :
    (pure a : Transaction α).run.play responses = ⟨.ok a, [], responses⟩ := rfl

/-- A result that is only changed afterwards. -/
theorem play_bind_pure (x : Transaction α) (f : α → β) (responses : List Response) :
    (x >>= fun a => pure (f a)).run.play responses =
      ⟨(x.run.play responses).result.map f, (x.run.play responses).asked,
        (x.run.play responses).unused⟩ := by
  rw [play_bind]
  obtain ⟨result, asked, unused⟩ := x.run.play responses
  cases result with
  | error e => rfl
  | ok a =>
    simp only [Played.andThen_ok, play_pure, List.append_nil]
    rfl

@[simp] theorem play_ofExcept (x : Except Error α) :
    (ofExcept x).run.play responses = ⟨x, [], responses⟩ := rfl

/-- A result that is checked afterwards. -/
theorem play_bind_ofExcept (x : Transaction α) (f : α → Except Error β) (responses : List Response) :
    (x >>= fun a => ofExcept (f a)).run.play responses =
      ⟨(x.run.play responses).result.bind f, (x.run.play responses).asked,
        (x.run.play responses).unused⟩ := by
  rw [play_bind]
  obtain ⟨result, asked, unused⟩ := x.run.play responses
  cases result with
  | error e => rfl
  | ok a => simp only [Played.andThen_ok, play_ofExcept, List.append_nil, Except.bind]

@[simp] theorem play_ask (call : Call) (query : Query) : (ask call query).run.play responses =
    ⟨Response.answer call responses.head?, [(call, query)], responses.tail⟩ := rfl

@[simp] theorem play_mapError (change : Error → Error) (x : Transaction α) :
    (x.mapError change).run.play responses =
      ⟨(x.run.play responses).result.mapError change, (x.run.play responses).asked,
        (x.run.play responses).unused⟩ := by
  change (x.run.bind fun result => .done (result.mapError change)).play responses = _
  rw [Dialogue.play_bind]
  simp [Dialogue.play]

/-- Parts that ask nothing can be taken together. -/
theorem ofExcept_bind (x : Except Error α) (f : α → Except Error β) (next : β → Transaction γ) :
    ofExcept (x >>= f) >>= next = ofExcept x >>= fun a => ofExcept (f a) >>= next := by
  cases x <;> rfl

end Transaction

end EagerLoad
