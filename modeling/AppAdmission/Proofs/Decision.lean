import AppAdmission.Decision

/-!
# What decisions come to

A decision is run by running its program. One step after another is one run after another, and
the first failure is the failure of the whole. A run that succeeds therefore splits into runs that
succeed, which is how later proofs take decisions apart.
-/

namespace AppAdmission

instance : LawfulMonad Program := .mk' Program
  (fun p => Program.bind_done p)
  (fun _ _ => rfl)
  (fun p f g => Program.bind_assoc p f g)

namespace Decision

variable {α β σ : Type} {env : Environment σ}

/-- The result of a decision in an environment, and the state that it leaves. -/
def eval (env : Environment σ) (d : Decision α) (s : σ) : Except AdmissionError α × σ :=
  d.program.run env s

@[simp] theorem eval_pure (a : α) (s : σ) : eval env (pure a : Decision α) s = (.ok a, s) := rfl

@[simp] theorem eval_throw (e : AdmissionError) (s : σ) :
    eval env (throw e : Decision α) s = (.error e, s) := rfl

@[simp] theorem eval_ofProgram (p : Program (Except AdmissionError α)) (s : σ) :
    eval env (ofProgram p) s = p.run env s := rfl

theorem eval_bind (d : Decision α) (f : α → Decision β) (s : σ) :
    eval env (d >>= f) s = match eval env d s with
      | (.ok a, t) => eval env (f a) t
      | (.error e, t) => (.error e, t) := by
  have h : eval env (d >>= f) s = (d.program.bind (ExceptT.bindCont f)).run env s := rfl
  rw [h, Program.run_bind]
  show _ = match d.program.run env s with
    | (.ok a, t) => eval env (f a) t
    | (.error e, t) => (.error e, t)
  rcases d.program.run env s with ⟨_ | _, t⟩ <;> rfl

/-- A first step that succeeds is followed by the second. -/
theorem eval_bind_of_ok {d : Decision α} {f : α → Decision β} {s t : σ} {a : α}
    (h : eval env d s = (.ok a, t)) : eval env (d >>= f) s = eval env (f a) t := by
  rw [eval_bind, h]

/-- A run that succeeds is two runs that succeed. -/
theorem eval_bind_ok_iff {d : Decision α} {f : α → Decision β} {s u : σ} {b : β} :
    eval env (d >>= f) s = (.ok b, u) ↔
      ∃ a t, eval env d s = (.ok a, t) ∧ eval env (f a) t = (.ok b, u) := by
  rw [eval_bind]
  rcases h : eval env d s with ⟨e | a, t⟩
  · constructor
    · intro h
      cases h
    · rintro ⟨a, t, h, _⟩
      cases h
  · constructor
    · intro h
      exact ⟨a, t, rfl, h⟩
    · rintro ⟨_, _, h1, h2⟩
      cases h1
      exact h2

/-- A run that fails fails in its first step or after it. -/
theorem eval_bind_error_iff {d : Decision α} {f : α → Decision β} {s u : σ} {e : AdmissionError} :
    eval env (d >>= f) s = (.error e, u) ↔ eval env d s = (.error e, u) ∨
      ∃ a t, eval env d s = (.ok a, t) ∧ eval env (f a) t = (.error e, u) := by
  rw [eval_bind]
  rcases h : eval env d s with ⟨e' | a, t⟩
  · constructor
    · intro h
      cases h
      exact Or.inl rfl
    · rintro (h | ⟨a, t, h, _⟩)
      · cases h
        rfl
      · cases h
  · constructor
    · intro h
      exact Or.inr ⟨a, t, rfl, h⟩
    · rintro (h | ⟨_, _, h1, h2⟩)
      · cases h
      · cases h1
        exact h2

@[simp] theorem eval_pure_ok_iff {a b : α} {s t : σ} :
    eval env (pure a : Decision α) s = (.ok b, t) ↔ a = b ∧ s = t := by
  rw [eval_pure, Prod.mk.injEq, Except.ok.injEq]

/-- A value that converts is the result; the state stays. -/
theorem eval_converted_ok_iff {value : Option α} {a : α} {s t : σ} :
    eval env (converted value) s = (.ok a, t) ↔ value = some a ∧ s = t := by
  cases value with
  | none => simp [converted]
  | some b => simp [converted]

/-- A call that is wanted and answered comes to its answer. -/
theorem eval_storeCall_of_answer {operation : String} {c : StoreCall} {answer : c.Answer} {s t u : σ}
    (wanted : env.poll s = (false, t)) (answered : env.answer t c = (some (.ok answer), u)) :
    eval env (storeCall operation c) s = (.ok answer, u) := by
  have active : eval env (ensureActive operation) s = (.ok (), t) := by
    show (if (env.poll s).1 then _ else _, (env.poll s).2) = _
    rw [wanted]
    rfl
  have tried : eval env (tryCall operation c) s = (.ok (.ok answer), u) := by
    unfold tryCall
    rw [eval_bind_of_ok active]
    show (settle operation c (env.answer t c).1, (env.answer t c).2) = _
    rw [answered]
    rfl
  unfold storeCall
  rw [eval_bind_of_ok tried, eval_pure]

/-- Two runs with the same result both fail or both succeed. -/
theorem cases_of_agree {ε τ : Type} {x : Except ε α × σ} {y : Except ε α × τ} (agree : x.1 = y.1) :
    (∃ e s t, x = (.error e, s) ∧ y = (.error e, t)) ∨
      ∃ a s t, x = (.ok a, s) ∧ y = (.ok a, t) := by
  obtain ⟨result, s⟩ := x
  obtain ⟨result', t⟩ := y
  obtain rfl : result = result' := agree
  cases result with
  | error e => exact Or.inl ⟨e, s, t, rfl, rfl⟩
  | ok a => exact Or.inr ⟨a, s, t, rfl, rfl⟩

/-- A decision that is made at once, without a question. -/
def Immediate (d : Decision α) : Prop := ∃ result, d = ofProgram (.done result)

namespace Immediate

theorem pure (a : α) : Immediate (Pure.pure a : Decision α) := ⟨.ok a, rfl⟩

theorem throw (e : AdmissionError) : Immediate (MonadExcept.throw e : Decision α) := ⟨.error e, rfl⟩

theorem converted (value : Option α) : Immediate (Decision.converted value) := by
  cases value with
  | none => exact throw .serialization
  | some a => exact pure a

/-- A decision that is made at once has one result and leaves the state as it is. -/
theorem bind {d : Decision α} {f : α → Decision β} (first : Immediate d) (rest : ∀ a, Immediate (f a)) :
    Immediate (d >>= f) := by
  obtain ⟨result, rfl⟩ := first
  cases result with
  | error e => exact .throw e
  | ok a => exact rest a

theorem eval_iff {d : Decision α} (immediate : Immediate d) {result : Except AdmissionError α}
    {s t : σ} : eval env d s = (result, t) ↔ d = ofProgram (.done result) ∧ s = t := by
  obtain ⟨result', rfl⟩ := immediate
  constructor
  · intro h
    cases h
    exact ⟨rfl, rfl⟩
  · rintro ⟨h, rfl⟩
    cases h
    rfl

end Immediate

theorem throw_ne_pure {e : AdmissionError} {a : α} : (throw e : Decision α) ≠ pure a :=
  fun h => nomatch Program.done.inj h

theorem pure_inj {a b : α} : (pure a : Decision α) = pure b ↔ a = b :=
  ⟨fun h => Except.ok.inj (Program.done.inj h), congrArg _⟩

theorem converted_eq_pure_iff {value : Option α} {a : α} :
    converted value = pure a ↔ value = some a := by
  cases value with
  | none => exact ⟨fun h => absurd h throw_ne_pure, nofun⟩
  | some b => exact pure_inj.trans (Option.some.injEq b a).symm.to_iff

/-- A property of decisions that passes from the steps of a decision to the whole. -/
structure Composable (P : (α : Type) → Decision α → Prop) : Prop where
  pure {α : Type} (a : α) : P α (Pure.pure a)
  bind {α β : Type} {d : Decision α} {f : α → Decision β} (first : P α d) (rest : ∀ a, P β (f a)) :
    P β (d >>= f)

/-- The program of a decision and what follows it, as one run. -/
theorem run_program_bind (d : Decision α) (f : Except AdmissionError α → Program β) (s : σ) :
    (d.program >>= f).run env s = (f (eval env d s).1).run env (eval env d s).2 :=
  Program.run_bind env d.program f s

end Decision

end AppAdmission
