import AppAdmission.Store.Call

/-!
# Programs over a store

A decision needs two things from outside: whether its request is still wanted, and the store. A
`Program` is a decision as a tree of these questions, each with what follows for every answer. What
answers them is an `Environment`; the same program can run against a store in memory, one that never
answers, or one that answers at will. A call is *abandoned* when the request is given up while the
call is under way; the program then learns nothing from it.
-/

namespace AppAdmission

/-- A computation that looks at the cancellation of its request and calls a store. -/
inductive Program (α : Type) where
  | done (value : α)
  | poll (next : Bool → Program α)
  | call (c : StoreCall) (next : Option c.Reply → Program α)

namespace Program

variable {α β σ : Type}

/-- One computation after another. -/
def bind : Program α → (α → Program β) → Program β
  | done a, f => f a
  | poll next, f => poll fun cancelled => (next cancelled).bind f
  | call c next, f => call c fun reply => (next reply).bind f

instance : Monad Program where
  pure := done
  bind := bind

@[simp] theorem pure_eq (a : α) : (pure a : Program α) = done a := rfl

@[simp] theorem bind_eq (p : Program α) (f : α → Program β) : p >>= f = p.bind f := rfl

@[simp] theorem bind_done (p : Program α) : p.bind done = p := by
  induction p with
  | done a => rfl
  | poll next ih => simp only [bind]; congr; funext b; exact ih b
  | call c next ih => simp only [bind]; congr; funext r; exact ih r

theorem bind_assoc {γ : Type} (p : Program α) (f : α → Program β) (g : β → Program γ) :
    (p.bind f).bind g = p.bind fun a => (f a).bind g := by
  induction p with
  | done a => rfl
  | poll next ih => simp only [bind]; congr; funext b; exact ih b
  | call c next ih => simp only [bind]; congr; funext r; exact ih r

end Program

/-- What answers the questions of programs, with a state of its own. A call without a reply is
abandoned. -/
structure Environment (σ : Type) where
  poll : σ → Bool × σ
  answer : σ → (c : StoreCall) → Option c.Reply × σ

/-- Runs a program to its end. -/
def Program.run {α σ : Type} (env : Environment σ) : Program α → σ → α × σ
  | done a, s => (a, s)
  | poll next, s => (next (env.poll s).1).run env (env.poll s).2
  | call c next, s => (next (env.answer s c).1).run env (env.answer s c).2

@[simp] theorem Program.run_bind {α β σ : Type} (env : Environment σ) (p : Program α)
    (f : α → Program β) (s : σ) :
    (p.bind f).run env s = (f (p.run env s).1).run env (p.run env s).2 := by
  induction p generalizing s with
  | done a => rfl
  | poll next ih => exact ih _ _
  | call c next ih => exact ih _ _

end AppAdmission
