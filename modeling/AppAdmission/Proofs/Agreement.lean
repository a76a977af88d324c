import AppAdmission.Proofs.Transcript

/-!
# Programs that agree

Two programs agree if they ask the same questions as long as the answers they get are alike, and come to
results that are related. What counts as alike is a relation on events; it is all that is known of the
two environments. Of decisions that fail only the public wordings of their errors are compared.
-/

namespace AppAdmission

/-- Wherever the same was asked in both rows of events, the answers are related. -/
def Event.Matched (alike : Event → Event → Prop) (h h' : List Event) : Prop :=
  ∀ (i : Nat) (e e' : Event), h[i]? = some e → h'[i]? = some e' → e.call? = e'.call? → alike e e'

theorem Event.Matched.of_cons {alike : Event → Event → Prop} {e e' : Event} {h h' : List Event}
    (matched : Matched alike (e :: h) (e' :: h')) (same : e.call? = e'.call?) :
    alike e e' ∧ Matched alike h h' :=
  ⟨matched 0 e e' rfl rfl same, fun i d d' at' at'' same => matched (i + 1) d d' at' at'' same⟩

namespace Program

/-- Without a state the same question always has the same answer. -/
theorem mem_transcript_unit {α : Type} {env : Environment Unit} {p : Program α} {e : Event}
    (there : e ∈ p.transcript env ()) :
    e = .polled (env.poll ()).1 ∨ ∃ c, e = .called c (env.answer () c).1 := by
  induction p with
  | done a => cases there
  | poll next ih =>
    rcases List.mem_cons.1 there with rfl | later
    · exact Or.inl rfl
    · exact ih _ later
  | call c next ih =>
    rcases List.mem_cons.1 there with rfl | later
    · exact Or.inr ⟨c, rfl⟩
    · exact ih _ later

variable {α β γ δ : Type} {alike : Event → Event → Prop} {R : α → β → Prop} {S : γ → δ → Prop}

/-- Programs with the same questions and related results. -/
inductive Agree (alike : Event → Event → Prop) (R : α → β → Prop) :
    Program α → Program β → Prop where
  | done {a : α} {b : β} (related : R a b) : Agree alike R (.done a) (.done b)
  | poll {next : Bool → Program α} {next' : Bool → Program β}
      (each : ∀ b b', alike (.polled b) (.polled b') → Agree alike R (next b) (next' b')) :
      Agree alike R (.poll next) (.poll next')
  | call {c : StoreCall} {next : Option c.Reply → Program α} {next' : Option c.Reply → Program β}
      (each : ∀ r r', alike (.called c r) (.called c r') → Agree alike R (next r) (next' r')) :
      Agree alike R (.call c next) (.call c next')

namespace Agree

theorem mono {R' : α → β → Prop} {p : Program α} {p' : Program β} (agree : Agree alike R p p')
    (weaker : ∀ a b, R a b → R' a b) : Agree alike R' p p' := by
  induction agree with
  | done related => exact .done (weaker _ _ related)
  | poll _ ih => exact .poll ih
  | call _ ih => exact .call ih

theorem bind {p : Program α} {p' : Program β} {f : α → Program γ} {f' : β → Program δ}
    (first : Agree alike R p p') (rest : ∀ a b, R a b → Agree alike S (f a) (f' b)) :
    Agree alike S (p.bind f) (p'.bind f') := by
  induction first with
  | done related => exact rest _ _ related
  | poll _ ih => exact .poll fun b b' answers => ih b b' answers
  | call _ ih => exact .call fun r r' answers => ih r r' answers

/-- Plays of programs that agree, with answers that are alike, make the same calls and come to related
results. -/
theorem plays {p : Program α} {p' : Program β} {h h' : List Event} {a : α} {b : β}
    (agree : Agree alike R p p') (play : p.Plays h a) (play' : p'.Plays h' b)
    (matched : Event.Matched alike h h') : R a b ∧ Event.calls h = Event.calls h' := by
  induction agree generalizing h h' with
  | done related =>
    cases play
    cases play'
    exact ⟨related, rfl⟩
  | poll _ ih =>
    cases play with
    | poll rest =>
      cases play' with
      | poll rest' =>
        obtain ⟨answers, later⟩ := matched.of_cons rfl
        obtain ⟨related, calls⟩ := ih _ _ answers rest rest' later
        exact ⟨related, calls⟩
  | call _ ih =>
    cases play with
    | call rest =>
      cases play' with
      | call rest' =>
        obtain ⟨answers, later⟩ := matched.of_cons rfl
        obtain ⟨related, calls⟩ := ih _ _ answers rest rest' later
        exact ⟨related, congrArg (List.cons _) calls⟩

end Agree

end Program

namespace Decision

variable {α β γ δ : Type} {alike : Event → Event → Prop} {R : α → β → Prop} {S : γ → δ → Prop}

/-- Results that are related, or errors with the same public wording. -/
inductive Shown (R : α → β → Prop) :
    Except AdmissionError α → Except AdmissionError β → Prop where
  | ok {a : α} {b : β} (related : R a b) : Shown R (.ok a) (.ok b)
  | error {e e' : AdmissionError} (same : e.publicMessage = e'.publicMessage) :
      Shown R (.error e) (.error e')

/-- Decisions whose programs agree, up to what is shown. -/
def Agree (alike : Event → Event → Prop) (R : α → β → Prop) (d : Decision α)
    (d' : Decision β) : Prop :=
  d.program.Agree alike (Shown R) d'.program

namespace Agree

theorem mono {R' : α → β → Prop} {d : Decision α} {d' : Decision β} (agree : Agree alike R d d')
    (weaker : ∀ a b, R a b → R' a b) : Agree alike R' d d' := by
  refine Program.Agree.mono agree fun result result' shown => ?_
  cases shown with
  | ok related => exact .ok (weaker _ _ related)
  | error same => exact .error same

theorem pure {a : α} {b : β} (related : R a b) :
    Agree alike R (Pure.pure a : Decision α) (Pure.pure b : Decision β) :=
  .done (.ok related)

theorem throw {e e' : AdmissionError} (same : e.publicMessage = e'.publicMessage) :
    Agree alike R (MonadExcept.throw e : Decision α) (MonadExcept.throw e' : Decision β) :=
  .done (.error same)

theorem bind {d : Decision α} {d' : Decision β} {f : α → Decision γ} {f' : β → Decision δ}
    (first : Agree alike R d d') (rest : ∀ a b, R a b → Agree alike S (f a) (f' b)) :
    Agree alike S (d >>= f) (d' >>= f') := by
  refine Program.Agree.bind first fun result result' shown => ?_
  cases shown with
  | ok related => exact rest _ _ related
  | error same => exact .done (.error same)

end Agree

end Decision

end AppAdmission
