import AppAdmission.Proofs.Decision
import AppAdmission.Store.Memory
import Mathlib.Logic.Function.Basic
import Mathlib.Logic.Relation

/-!
# Programs that share a store

A crowd is any number of programs over one store in memory. They take their steps in any order: each
looks at its own cancellation, or makes one call as a whole, and may be cancelled at any moment. What all
of them do to the store is bounded by a relation. A program is `Safe` if its calls keep to the relation
and its end is as it may be, whatever the others do to the store within the same relation; a crowd of safe
programs stays within the relation in every run.
-/

namespace AppAdmission

/-- Programs under way, which of them are cancelled, and the store that they share. -/
structure Crowd (ι α : Type) where
  programs : ι → Program α
  cancelled : ι → Bool
  store : MemoryStore

namespace Crowd

variable {ι α : Type} [DecidableEq ι]

/-- Programs at their start. None is cancelled yet. -/
def start (programs : ι → Program α) (s : MemoryStore) : Crowd ι α :=
  ⟨programs, fun _ => false, s⟩

/-- A program of a crowd has gone on, and the store is another. -/
def advance (p : Crowd ι α) (i : ι) (rest : Program α) (s : MemoryStore) : Crowd ι α :=
  { p with programs := Function.update p.programs i rest, store := s }

@[simp] theorem programs_advance_self (p : Crowd ι α) (i : ι) (rest : Program α) (s : MemoryStore) :
    (p.advance i rest s).programs i = rest := by
  simp [advance]

theorem programs_advance_of_ne {i j : ι} (other : j ≠ i) (p : Crowd ι α) (rest : Program α)
    (s : MemoryStore) : (p.advance i rest s).programs j = p.programs j := by
  simp [advance, other]

/-- One step of one program. A cancelled program may give up its call, before or after the store has
answered it. -/
inductive Step : Crowd ι α → Crowd ι α → Prop where
  | cancel (p : Crowd ι α) (i : ι) :
      Step p { p with cancelled := Function.update p.cancelled i true }
  | look {p : Crowd ι α} {i : ι} {next : Bool → Program α} (here : p.programs i = .poll next) :
      Step p (p.advance i (next (p.cancelled i)) p.store)
  | call {p : Crowd ι α} {i : ι} {c : StoreCall} {next : Option c.Reply → Program α}
      (here : p.programs i = .call c next) :
      Step p (p.advance i (next (some (p.store.answer c).1)) (p.store.answer c).2)
  | abandon {p : Crowd ι α} {i : ι} {c : StoreCall} {next : Option c.Reply → Program α}
      (here : p.programs i = .call c next) (cancelled : p.cancelled i = true) :
      Step p (p.advance i (next none) p.store)
  | lose {p : Crowd ι α} {i : ι} {c : StoreCall} {next : Option c.Reply → Program α}
      (here : p.programs i = .call c next) (cancelled : p.cancelled i = true) :
      Step p (p.advance i (next none) (p.store.answer c).2)

/-- Any number of steps. -/
abbrev Steps : Crowd ι α → Crowd ι α → Prop := Relation.ReflTransGen Step

/-- The next step of a program, with an answer to its call; none if it has come to its end. -/
def turn (p : Crowd ι α) (i : ι) : Crowd ι α :=
  match p.programs i with
  | .done _ => p
  | .poll next => p.advance i (next (p.cancelled i)) p.store
  | .call c next => p.advance i (next (some (p.store.answer c).1)) (p.store.answer c).2

/-- Programs take turns in any order. -/
theorem steps_turns (order : List ι) (p : Crowd ι α) : Steps p (order.foldl turn p) := by
  induction order generalizing p with
  | nil => exact .refl
  | cons i rest ih =>
    have first : Steps p (p.turn i) := by
      unfold turn
      split
      · exact .refl
      · next here => exact .single (.look here)
      · next here => exact .single (.call here)
    exact first.trans (ih _)

end Crowd

/-- How a store may change over time, and how a program may end, which knows whether it learnt that it was
cancelled. What the store may turn into keeps what was true at the end. -/
structure Bounds (α : Type) where
  turns : MemoryStore → MemoryStore → Prop
  ends : Bool → α → MemoryStore → Prop
  refl : ∀ s, turns s s
  trans : ∀ {s t u}, turns s t → turns t u → turns s u
  stable : ∀ {told a s t}, ends told a s → turns s t → ends told a t

namespace Program

variable {α β : Type} {bounds : Bounds α} {s t : MemoryStore} {told : Bool}

/-- Whatever the store turns into before each of its calls, the program keeps within the bounds. -/
def Safe (bounds : Bounds α) : Program α → Bool → MemoryStore → Prop
  | done a, told, s => bounds.ends told a s
  | poll next, told, s => (next false).Safe bounds told s ∧ (next true).Safe bounds true s
  | call c next, told, s => (next none).Safe bounds true s ∧ ∀ t, bounds.turns s t →
      bounds.turns t (t.answer c).2 ∧ (next (some (t.answer c).1)).Safe bounds told (t.answer c).2

/-- A program that is safe stays so when others change the store. -/
theorem Safe.mono {p : Program α} (safe : p.Safe bounds told s) (turned : bounds.turns s t) :
    p.Safe bounds told t := by
  induction p generalizing told with
  | done a => exact bounds.stable safe turned
  | poll next ih => exact ⟨ih _ safe.1, ih _ safe.2⟩
  | call c next ih => exact ⟨ih _ safe.1, fun u later => safe.2 u (bounds.trans turned later)⟩

end Program

namespace Decision

variable {α β : Type} {bounds : Bounds (Except AdmissionError α)} {s : MemoryStore} {told : Bool}
  {operation : String}

/-- The program of the decision is safe. -/
def Safe (bounds : Bounds (Except AdmissionError α)) (d : Decision α) (told : Bool) (s : MemoryStore) :
    Prop :=
  d.program.Safe bounds told s

/-- A decision that learnt of its cancellation may end with it. -/
def Leaves (bounds : Bounds (Except AdmissionError α)) : Prop :=
  ∀ operation s, bounds.ends true (.error (.cancelled operation)) s

theorem safe_ensureActive_bind (leaves : Leaves bounds) {f : Unit → Decision α}
    (rest : (f ()).Safe bounds told s) : (ensureActive operation >>= f).Safe bounds told s :=
  ⟨rest, leaves operation s⟩

/-- A call is safe if every answer that it may get is followed safely. -/
theorem safe_tryCall_bind (leaves : Leaves bounds) {c : StoreCall} {f : c.Reply → Decision α}
    (rest : ∀ t, bounds.turns s t → ∃ reply u, t.answer c = (reply, u) ∧ bounds.turns t u ∧
      (f reply).Safe bounds told u) : (tryCall operation c >>= f).Safe bounds told s := by
  refine ⟨⟨leaves operation s, fun t turned => ?_⟩, leaves operation s⟩
  obtain ⟨reply, u, answered, turned', safe⟩ := rest t turned
  rw [answered]
  exact ⟨turned', safe⟩

/-- A call that is bound to succeed is safe if its answer is followed safely. -/
theorem safe_storeCall_bind (leaves : Leaves bounds) {c : StoreCall} {f : c.Answer → Decision α}
    (rest : ∀ t, bounds.turns s t → ∃ answer u, t.answer c = (.ok answer, u) ∧ bounds.turns t u ∧
      (f answer).Safe bounds told u) : (storeCall operation c >>= f).Safe bounds told s := by
  unfold storeCall
  rw [bind_assoc]
  refine safe_tryCall_bind leaves fun t turned => ?_
  obtain ⟨answer, u, answered, turned', safe⟩ := rest t turned
  exact ⟨.ok answer, u, answered, turned', safe⟩

end Decision

namespace Crowd

variable {ι α : Type} [DecidableEq ι] {bounds : Bounds α} {p q : Crowd ι α}

/-- Every program is safe, and knows of its cancellation only if it is cancelled. -/
def Sound (bounds : Bounds α) (p : Crowd ι α) : Prop :=
  ∀ i, ∃ told, (told = true → p.cancelled i = true) ∧ (p.programs i).Safe bounds told p.store

/-- The program that goes on stays safe, and so do the others if the store turned within the bounds. -/
theorem Sound.advance {i : ι} {rest : Program α} {told : Bool} {s : MemoryStore} (sound : p.Sound bounds)
    (turned : bounds.turns p.store s) (known : told = true → p.cancelled i = true)
    (safe : rest.Safe bounds told s) : (p.advance i rest s).Sound bounds := by
  intro j
  by_cases same : j = i
  · subst same
    refine ⟨told, known, ?_⟩
    rw [programs_advance_self]
    exact safe
  · obtain ⟨told', known', safe'⟩ := sound j
    refine ⟨told', known', ?_⟩
    rw [programs_advance_of_ne same]
    exact safe'.mono turned

/-- One step keeps all programs safe and the store within the bounds. -/
theorem Sound.step (sound : p.Sound bounds) (step : Step p q) :
    q.Sound bounds ∧ bounds.turns p.store q.store := by
  cases step with
  | cancel i =>
    refine ⟨fun j => ?_, bounds.refl _⟩
    obtain ⟨told, known, safe⟩ := sound j
    refine ⟨told, fun knows => ?_, safe⟩
    by_cases same : j = i
    · subst same
      exact Function.update_self _ _ _
    · exact (Function.update_of_ne same _ _).trans (known knows)
  | @look i next here =>
    obtain ⟨told, known, safe⟩ := sound i
    rw [here] at safe
    refine ⟨?_, bounds.refl _⟩
    cases gone : p.cancelled i with
    | false => exact sound.advance (bounds.refl _) known safe.1
    | true => exact sound.advance (bounds.refl _) (fun _ => gone) safe.2
  | @call i c next here =>
    obtain ⟨told, known, safe⟩ := sound i
    rw [here] at safe
    obtain ⟨turned, onward⟩ := safe.2 p.store (bounds.refl _)
    exact ⟨sound.advance turned known onward, turned⟩
  | @abandon i c next here gone =>
    obtain ⟨told, known, safe⟩ := sound i
    rw [here] at safe
    exact ⟨sound.advance (bounds.refl _) (fun _ => gone) safe.1, bounds.refl _⟩
  | @lose i c next here gone =>
    obtain ⟨told, known, safe⟩ := sound i
    rw [here] at safe
    obtain ⟨turned, -⟩ := safe.2 p.store (bounds.refl _)
    exact ⟨sound.advance turned (fun _ => gone) (safe.1.mono turned), turned⟩

/-- Any number of steps keep all programs safe and the store within the bounds. -/
theorem Sound.steps (sound : p.Sound bounds) (steps : Steps p q) :
    q.Sound bounds ∧ bounds.turns p.store q.store := by
  induction steps with
  | refl => exact ⟨sound, bounds.refl _⟩
  | tail _ step ih =>
    obtain ⟨sound', turned⟩ := ih.1.step step
    exact ⟨sound', bounds.trans ih.2 turned⟩

omit [DecidableEq ι] in
/-- Programs that are safe each for itself start as a sound crowd. -/
theorem sound_start {programs : ι → Program α} {s : MemoryStore}
    (safe : ∀ i, (programs i).Safe bounds false s) : (start programs s).Sound bounds :=
  fun i => ⟨false, nofun, safe i⟩

end Crowd

end AppAdmission
