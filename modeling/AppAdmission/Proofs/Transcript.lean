import AppAdmission.Proofs.Decision

/-!
# Transcripts

What happens while a program runs is a row of events: looks at the cancellation, and calls with
their replies. `Plays` says which rows a program can go through when every question may be answered in
any way; the row of a run in an environment is one of them. Statements about all plays are therefore
statements about every store and every moment of cancellation.
-/

namespace AppAdmission

/-- Something that happens while a program runs. A call without a reply was given up. -/
inductive Event where
  | polled (cancelled : Bool)
  | called (c : StoreCall) (reply : Option c.Reply)

namespace Event

/-- The call of an event. -/
def call? : Event → Option StoreCall
  | polled _ => none
  | called c _ => some c

/-- The program learns that its request is no longer wanted. -/
def Cancelled : Event → Prop
  | polled cancelled => cancelled = true
  | called _ reply => reply = none

/-- The calls of a row of events, in order. -/
def calls (h : List Event) : List StoreCall := h.filterMap call?

@[simp] theorem calls_nil : calls [] = [] := rfl

@[simp] theorem calls_polled (b : Bool) (h : List Event) : calls (polled b :: h) = calls h := rfl

@[simp] theorem calls_called (c : StoreCall) (reply : Option c.Reply) (h : List Event) :
    calls (called c reply :: h) = c :: calls h := rfl

@[simp] theorem calls_append (h h' : List Event) : calls (h ++ h') = calls h ++ calls h' :=
  List.filterMap_append

end Event

namespace Program

variable {α β σ : Type}

/-- The events of a run, in order. -/
def transcript (env : Environment σ) : Program α → σ → List Event
  | done _, _ => []
  | poll next, s => .polled (env.poll s).1 :: (next (env.poll s).1).transcript env (env.poll s).2
  | call c next, s =>
    .called c (env.answer s c).1 :: (next (env.answer s c).1).transcript env (env.answer s c).2

/-- A program can go through some events and come to a value. -/
inductive Plays : Program α → List Event → α → Prop where
  | done (a : α) : Plays (done a) [] a
  | poll {next : Bool → Program α} {b : Bool} {h : List Event} {a : α} (rest : Plays (next b) h a) :
      Plays (poll next) (.polled b :: h) a
  | call {c : StoreCall} {next : Option c.Reply → Program α} {reply : Option c.Reply}
      {h : List Event} {a : α} (rest : Plays (next reply) h a) :
      Plays (call c next) (.called c reply :: h) a

/-- A run in an environment is a play. -/
theorem plays_run (env : Environment σ) (p : Program α) (s : σ) :
    p.Plays (p.transcript env s) (p.run env s).1 := by
  induction p generalizing s with
  | done a => exact .done a
  | poll next ih => exact .poll (ih _ _)
  | call c next ih => exact .call (ih _ _)

/-- What happens in one program after another is what happens in each. -/
theorem transcript_bind (env : Environment σ) (p : Program α) (f : α → Program β) (s : σ) :
    (p.bind f).transcript env s =
      p.transcript env s ++ (f (p.run env s).1).transcript env (p.run env s).2 := by
  induction p generalizing s with
  | done a => rfl
  | poll next ih => exact congrArg (List.cons _) (ih _ _)
  | call c next ih => exact congrArg (List.cons _) (ih _ _)

/-- A play of one program after another is a play of each. -/
theorem Plays.of_bind {p : Program α} {f : α → Program β} {h : List Event} {b : β}
    (play : (p.bind f).Plays h b) :
    ∃ first a rest, p.Plays first a ∧ (f a).Plays rest b ∧ h = first ++ rest := by
  induction p generalizing h with
  | done a => exact ⟨[], a, h, .done a, play, rfl⟩
  | poll next ih =>
    cases play with
    | poll rest =>
      obtain ⟨first, a, later, play, play', rfl⟩ := ih _ rest
      exact ⟨_, a, later, .poll play, play', rfl⟩
  | call c next ih =>
    cases play with
    | call rest =>
      obtain ⟨first, a, later, play, play', rfl⟩ := ih _ rest
      exact ⟨_, a, later, .call play, play', rfl⟩

end Program

namespace Decision

variable {α β σ : Type} {h : List Event}

/-- The events of a run of a decision, in order. -/
def transcript (env : Environment σ) (d : Decision α) (s : σ) : List Event :=
  d.program.transcript env s

/-- A decision can go through some events and come to a result. -/
def Plays (d : Decision α) (h : List Event) (result : Except AdmissionError α) : Prop :=
  d.program.Plays h result

theorem transcript_bind_of_ok {env : Environment σ} {d : Decision α} {f : α → Decision β} {s t : σ}
    {a : α} (came : eval env d s = (.ok a, t)) :
    (d >>= f).transcript env s = d.transcript env s ++ (f a).transcript env t := by
  have whole := Program.transcript_bind env d.program (ExceptT.bindCont f) s
  have came' : d.program.run env s = (.ok a, t) := came
  rw [came'] at whole
  exact whole

theorem transcript_bind_of_error {env : Environment σ} {d : Decision α} {f : α → Decision β} {s t : σ}
    {e : AdmissionError} (failed : eval env d s = (.error e, t)) :
    (d >>= f).transcript env s = d.transcript env s := by
  have whole := Program.transcript_bind env d.program (ExceptT.bindCont f) s
  have failed' : d.program.run env s = (.error e, t) := failed
  rw [failed'] at whole
  exact whole.trans (List.append_nil _)

theorem plays_eval (env : Environment σ) (d : Decision α) (s : σ) :
    d.Plays (d.transcript env s) (eval env d s).1 :=
  Program.plays_run env d.program s

/-- When a decision is made at once, nothing happens, and it has one result. -/
theorem Immediate.plays_iff {d : Decision α} (immediate : d.Immediate)
    {result : Except AdmissionError α} :
    d.Plays h result ↔ h = [] ∧ d = ofProgram (.done result) := by
  obtain ⟨result', rfl⟩ := immediate
  constructor
  · intro play
    cases play
    exact ⟨rfl, rfl⟩
  · rintro ⟨rfl, same⟩
    cases same
    exact .done _

/-- What is decided at once adds no events. -/
theorem transcript_bind_of_immediate (env : Environment σ) (d : Decision α) {f : α → Decision β}
    (immediate : ∀ a, (f a).Immediate) (s : σ) : (d >>= f).transcript env s = d.transcript env s := by
  cases result : (eval env d s).1 with
  | error e => exact transcript_bind_of_error (Prod.ext result rfl)
  | ok a =>
    have later : (f a).transcript env (eval env d s).2 = [] :=
      ((immediate a).plays_iff.1 (plays_eval env (f a) _)).1
    rw [transcript_bind_of_ok (Prod.ext result rfl), later, List.append_nil]

theorem plays_pure_iff {a : α} {result : Except AdmissionError α} :
    (pure a : Decision α).Plays h result ↔ h = [] ∧ result = .ok a := by
  rw [(Immediate.pure a).plays_iff]
  exact and_congr_right fun _ => ⟨fun same => (Program.done.inj same).symm, fun same => same ▸ rfl⟩

theorem plays_throw_iff {e : AdmissionError} {result : Except AdmissionError α} :
    (throw e : Decision α).Plays h result ↔ h = [] ∧ result = .error e := by
  rw [(Immediate.throw e).plays_iff]
  exact and_congr_right fun _ => ⟨fun same => (Program.done.inj same).symm, fun same => same ▸ rfl⟩

/-- A play of a first step and what follows ends with the first step if that fails, and goes on with
what follows otherwise. -/
theorem Plays.of_bind {d : Decision α} {f : α → Decision β} {result : Except AdmissionError β}
    (play : (d >>= f).Plays h result) :
    (∃ e, d.Plays h (.error e) ∧ result = .error e) ∨
      ∃ first a rest, d.Plays first (.ok a) ∧ (f a).Plays rest result ∧ h = first ++ rest := by
  have play' : (d.program.bind (ExceptT.bindCont f)).Plays h result := play
  obtain ⟨first, r, rest, played, followed, rfl⟩ := play'.of_bind
  cases r with
  | error e =>
    cases followed
    rw [List.append_nil]
    exact Or.inl ⟨e, played, rfl⟩
  | ok a => exact Or.inr ⟨first, a, rest, played, followed, rfl⟩

theorem plays_ensureActive {operation : String} {result : Except AdmissionError Unit}
    (play : (ensureActive operation).Plays h result) :
    h = [.polled true] ∧ result = .error (.cancelled operation) ∨
      h = [.polled false] ∧ result = .ok () := by
  cases play with
  | @poll _ b _ _ rest =>
    cases b with
    | true =>
      cases rest
      exact Or.inl ⟨rfl, rfl⟩
    | false =>
      cases rest
      exact Or.inr ⟨rfl, rfl⟩

/-- What happens when a call is to be made: it is not made, or given up, or answered. -/
inductive Tried (operation : String) (c : StoreCall) :
    List Event → Except AdmissionError c.Reply → Prop where
  | unwanted : Tried operation c [.polled true] (.error (.cancelled operation))
  | abandoned :
      Tried operation c [.polled false, .called c none] (.error (.cancelled operation))
  | answered (reply : c.Reply) :
      Tried operation c [.polled false, .called c (some reply)] (.ok reply)

theorem Tried.of_plays {operation : String} {c : StoreCall} {result : Except AdmissionError c.Reply}
    (play : (tryCall operation c).Plays h result) : Tried operation c h result := by
  rcases Plays.of_bind play with ⟨e, active, rfl⟩ | ⟨first, _, rest, active, asked, rfl⟩
  · rcases plays_ensureActive active with ⟨rfl, same⟩ | ⟨-, same⟩
    · cases same
      exact .unwanted
    · cases same
  · rcases plays_ensureActive active with ⟨-, same⟩ | ⟨rfl, -⟩
    · cases same
    · cases asked with
      | @call _ _ reply _ _ rest =>
        cases rest
        cases reply with
        | none => exact .abandoned
        | some reply => exact .answered reply

theorem Tried.calls_eq {operation : String} {c : StoreCall}
    {result : Except AdmissionError c.Reply} (tried : Tried operation c h result) :
    Event.calls h = [] ∨ Event.calls h = [c] := by
  cases tried with
  | unwanted => exact Or.inl rfl
  | abandoned | answered => exact Or.inr rfl

/-- What happens when a call is to be made whose failure is a failure of the decision. -/
inductive Asked (operation : String) (c : StoreCall) :
    List Event → Except AdmissionError c.Answer → Prop where
  | unwanted : Asked operation c [.polled true] (.error (.cancelled operation))
  | abandoned :
      Asked operation c [.polled false, .called c none] (.error (.cancelled operation))
  | failed (e : StoreError) :
      Asked operation c [.polled false, .called c (some (.error e))] (.error (.store operation e))
  | answered (answer : c.Answer) :
      Asked operation c [.polled false, .called c (some (.ok answer))] (.ok answer)

theorem Asked.of_plays {operation : String} {c : StoreCall}
    {result : Except AdmissionError c.Answer} (play : (storeCall operation c).Plays h result) :
    Asked operation c h result := by
  rcases Plays.of_bind play with ⟨e, tried, rfl⟩ | ⟨first, reply, rest, tried, settled, rfl⟩
  · cases Tried.of_plays tried with
    | unwanted => exact .unwanted
    | abandoned => exact .abandoned
  · cases Tried.of_plays tried with
    | answered =>
      cases reply with
      | error e =>
        obtain ⟨rfl, rfl⟩ := plays_throw_iff.1 settled
        exact .failed e
      | ok answer =>
        obtain ⟨rfl, rfl⟩ := plays_pure_iff.1 settled
        exact .answered answer

theorem Asked.calls_eq {operation : String} {c : StoreCall}
    {result : Except AdmissionError c.Answer} (asked : Asked operation c h result) :
    Event.calls h = [] ∨ Event.calls h = [c] := by
  cases asked with
  | unwanted => exact Or.inl rfl
  | abandoned | failed | answered => exact Or.inr rfl

/-- A call is made if the request is wanted, and only then. -/
theorem calls_storeCall {σ : Type} (env : Environment σ) (operation : String) (c : StoreCall) (s : σ) :
    Event.calls ((storeCall operation c).transcript env s) = if (env.poll s).1 then [] else [c] := by
  have asked := Asked.of_plays (plays_eval env (storeCall operation c) s)
  have looked : ((storeCall operation c).transcript env s).head? = some (.polled (env.poll s).1) := rfl
  generalize (storeCall operation c).transcript env s = h at asked looked
  generalize (eval env (storeCall operation c) s).1 = result at asked
  generalize (env.poll s).1 = unwanted at looked
  cases asked <;> cases looked <;> rfl

end Decision

/-- Cancellation is heeded: every call comes right after a look that found the request wanted, and
nothing comes after the program has learnt that it is not. -/
inductive Heeded : List Event → Prop where
  | nil : Heeded []
  | unwanted : Heeded [.polled true]
  | wanted {h : List Event} (rest : Heeded h) : Heeded (.polled false :: h)
  | abandoned (c : StoreCall) : Heeded [.polled false, .called c none]
  | answered {c : StoreCall} (reply : c.Reply) {h : List Event} (rest : Heeded h) :
      Heeded (.polled false :: .called c (some reply) :: h)

namespace Heeded

variable {h h' : List Event}

/-- Events that bring no such news may be followed by others. -/
theorem append (heeded : Heeded h) (quiet : ∀ e ∈ h, ¬e.Cancelled) (rest : Heeded h') :
    Heeded (h ++ h') := by
  induction heeded with
  | nil => exact rest
  | unwanted => exact absurd rfl (quiet _ List.mem_cons_self)
  | wanted _ ih => exact .wanted (ih fun e there => quiet e (List.mem_cons_of_mem _ there))
  | abandoned c => exact absurd rfl (quiet (.called c none) (by simp))
  | answered reply _ ih => exact .answered reply (ih fun e there => quiet e (by simp [there]))

end Heeded

namespace Decision

variable {α β : Type} {d : Decision α}

/-- A decision heeds cancellation: whatever it is answered, its events do, and it comes to a value only
if it never learnt that its request is no longer wanted. -/
def Heeds (d : Decision α) : Prop :=
  ∀ h result, d.Plays h result → Heeded h ∧ ∀ a, result = .ok a → ∀ e ∈ h, ¬e.Cancelled

namespace Heeds

theorem immediate (immediate : d.Immediate) : Heeds d := by
  intro h result play
  obtain ⟨rfl, -⟩ := immediate.plays_iff.1 play
  exact ⟨.nil, fun _ _ _ there => nomatch there⟩

theorem pure (a : α) : Heeds (Pure.pure a : Decision α) := immediate (.pure a)

theorem throw (e : AdmissionError) : Heeds (MonadExcept.throw e : Decision α) := immediate (.throw e)

theorem bind {f : α → Decision β} (first : Heeds d) (rest : ∀ a, Heeds (f a)) :
    Heeds (d >>= f) := by
  intro h result play
  rcases Plays.of_bind play with ⟨e, played, rfl⟩ | ⟨before, a, after, played, followed, rfl⟩
  · exact ⟨(first _ _ played).1, fun _ same => nomatch same⟩
  · obtain ⟨heeded, quiet⟩ := first _ _ played
    obtain ⟨heeded', quiet'⟩ := rest a _ _ followed
    refine ⟨heeded.append (quiet a rfl) heeded', ?_⟩
    intro b same e there
    rcases List.mem_append.1 there with there | there
    · exact quiet a rfl e there
    · exact quiet' b same e there

theorem composable : Composable fun _ d => Heeds d := ⟨pure, bind⟩

theorem ensureActive (operation : String) : Heeds (Decision.ensureActive operation) := by
  intro h result play
  rcases plays_ensureActive play with ⟨rfl, rfl⟩ | ⟨rfl, rfl⟩
  · exact ⟨.unwanted, fun _ same => nomatch same⟩
  · exact ⟨.wanted .nil, by simp [Event.Cancelled]⟩

theorem tryCall (operation : String) (c : StoreCall) : Heeds (Decision.tryCall operation c) := by
  intro h result play
  cases Tried.of_plays play with
  | unwanted => exact ⟨.unwanted, fun _ same => nomatch same⟩
  | abandoned => exact ⟨.abandoned c, fun _ same => nomatch same⟩
  | answered reply => exact ⟨.answered reply .nil, by simp [Event.Cancelled]⟩

theorem storeCall (operation : String) (c : StoreCall) : Heeds (Decision.storeCall operation c) := by
  refine bind (tryCall operation c) fun reply => ?_
  cases reply with
  | error e => exact throw _
  | ok answer => exact pure answer

end Heeds

/-- A decision fails exactly if something of a kind happens. -/
def FailsBy (p : Event → Prop) (d : Decision α) : Prop :=
  ∀ h result, d.Plays h result → ((∃ e, result = .error e) ↔ ∃ event ∈ h, p event)

/-- Cancellation is among the events of a kind. -/
structure Cancelling (p : Event → Prop) : Prop where
  unwanted : p (.polled true)
  wanted : ¬p (.polled false)
  abandoned : ∀ c, p (.called c none)

namespace FailsBy

variable {p : Event → Prop}

theorem pure (a : α) : FailsBy p (Pure.pure a : Decision α) := by
  intro h result play
  obtain ⟨rfl, rfl⟩ := plays_pure_iff.1 play
  simp

theorem bind {f : α → Decision β} (first : FailsBy p d) (rest : ∀ a, FailsBy p (f a)) :
    FailsBy p (d >>= f) := by
  intro h result play
  rcases Plays.of_bind play with ⟨e, played, rfl⟩ | ⟨before, a, after, played, followed, rfl⟩
  · have troubled := (first _ _ played).1 ⟨e, rfl⟩
    simp [troubled]
  · have calm : ¬∃ event ∈ before, p event := by
      intro troubled
      obtain ⟨e, same⟩ := (first _ _ played).2 troubled
      cases same
    rw [rest a _ _ followed]
    simp only [List.mem_append, or_and_right, exists_or, calm, false_or]

theorem composable (p : Event → Prop) : Composable fun _ d => FailsBy p d := ⟨pure, bind⟩

theorem ensureActive (cancelling : Cancelling p) (operation : String) :
    FailsBy p (Decision.ensureActive operation) := by
  intro h result play
  rcases plays_ensureActive play with ⟨rfl, rfl⟩ | ⟨rfl, rfl⟩
  · simp [cancelling.unwanted]
  · simp [cancelling.wanted]

/-- A call and what is made of its reply: whether they fail is seen from the reply and what follows. -/
theorem tryCall_bind (cancelling : Cancelling p) {operation : String} {c : StoreCall}
    {f : c.Reply → Decision β} (rest : ∀ reply h result, (f reply).Plays h result →
      ((∃ e, result = .error e) ↔ p (.called c (some reply)) ∨ ∃ event ∈ h, p event)) :
    FailsBy p (Decision.tryCall operation c >>= f) := by
  intro h result play
  rcases Plays.of_bind play with ⟨e, tried, rfl⟩ | ⟨before, reply, after, tried, followed, rfl⟩
  · cases Tried.of_plays tried with
    | unwanted => simp [cancelling.unwanted]
    | abandoned => simp [cancelling.abandoned]
  · cases Tried.of_plays tried with
    | answered =>
      rw [rest reply _ _ followed]
      simp [cancelling.wanted]

theorem storeCall (cancelling : Cancelling p) (operation : String) {c : StoreCall}
    (failed : ∀ e, p (.called c (some (.error e))))
    (answered : ∀ answer, ¬p (.called c (some (.ok answer)))) :
    FailsBy p (Decision.storeCall operation c) := by
  refine tryCall_bind cancelling fun reply h result play => ?_
  cases reply with
  | error e =>
    obtain ⟨rfl, rfl⟩ := plays_throw_iff.1 play
    simp [failed]
  | ok answer =>
    obtain ⟨rfl, rfl⟩ := plays_pure_iff.1 play
    simp [answered]

end FailsBy

end Decision

end AppAdmission
