/-!
# Tabular.Interaction — computations that ask

An `Interaction` acts in a monad `m` and asks requests whose answers come from outside.  Whoever runs
it decides what each request means (`Interaction.run`).  Being a tree of its steps, an interaction can be
run by several parties, and statements about all interactions are proved by induction on it.
-/

namespace Tabular

/-- A computation in `m` that may ask requests; `Answer r` is the type of the answers to `r`. -/
inductive Interaction {Request : Type w} (Answer : Request → Type) (m : Type → Type u) (α : Type) :
    Type (max 1 u w) where
  | done (a : α)
  /-- Acts in `m` and goes on with what came of it. -/
  | act {β : Type} (x : m β) (next : β → Interaction Answer m α)
  /-- Asks a request and goes on with its answer. -/
  | ask (r : Request) (next : Answer r → Interaction Answer m α)

namespace Interaction

variable {Request : Type w} {Answer : Request → Type} {m : Type → Type u} {α β : Type}

/-- Goes on with `f` where an interaction ends. -/
def bind (f : α → Interaction Answer m β) : Interaction Answer m α → Interaction Answer m β
  | done a => f a
  | act x next => act x fun b => bind f (next b)
  | ask r next => ask r fun b => bind f (next b)

instance : Monad (Interaction Answer m) where
  pure := done
  bind x f := bind f x

instance : MonadLift m (Interaction Answer m) := ⟨fun x => act x done⟩

/-- Asks one request. -/
def request (r : Request) : Interaction Answer m (Answer r) := ask r done

theorem bind_done_right (x : Interaction Answer m α) : bind done x = x := by
  induction x with
  | done a => rfl
  | act x next ih => exact congrArg _ (funext ih)
  | ask r next ih => exact congrArg _ (funext ih)

theorem bind_assoc {γ : Type} (x : Interaction Answer m α) (f : α → Interaction Answer m β)
    (g : β → Interaction Answer m γ) : bind g (bind f x) = bind (fun a => bind g (f a)) x := by
  induction x with
  | done a => rfl
  | act x next ih => exact congrArg _ (funext ih)
  | ask r next ih => exact congrArg _ (funext ih)

instance : LawfulMonad (Interaction Answer m) :=
  LawfulMonad.mk' _ bind_done_right (fun _ _ => rfl) bind_assoc

/-- Runs an interaction in `n`, given what its actions and its requests mean there. -/
def run {n : Type → Type v} [Monad n] (lift : {γ : Type} → m γ → n γ)
    (answer : (r : Request) → n (Answer r)) : Interaction Answer m α → n α
  | done a => pure a
  | act x next => lift x >>= fun b => run lift answer (next b)
  | ask r next => answer r >>= fun b => run lift answer (next b)

end Interaction

end Tabular
