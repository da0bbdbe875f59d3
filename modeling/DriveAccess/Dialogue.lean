/-!
Programs that put questions to their surroundings: a question of type `Q` is answered by a value
of type `A q`, or ends the program with an error of type `ε`.
-/
namespace DriveAccess

inductive Dialogue (Q : Type) (A : Q → Type) (ε α : Type) : Type
  | done (value : α)
  | fail (error : ε)
  | ask (question : Q) (next : A question → Dialogue Q A ε α)

namespace Dialogue

variable {Q : Type} {A : Q → Type} {ε ε' α β σ : Type}

def bind : Dialogue Q A ε α → (α → Dialogue Q A ε β) → Dialogue Q A ε β
  | done a, f => f a
  | fail e, _ => fail e
  | ask q next, f => ask q fun answer => (next answer).bind f

instance : Monad (Dialogue Q A ε) where
  pure := done
  bind := bind

/-- Puts one question. -/
def query (q : Q) : Dialogue Q A ε (A q) := ask q done

def ofExcept : Except ε α → Dialogue Q A ε α
  | .ok a => done a
  | .error e => fail e

/-- Puts questions of another kind instead, and reports errors in another type. -/
def rephrase {Q' : Type} {A' : Q' → Type} (question : Q → Q') (answer : ∀ q, A' (question q) → A q)
    (error : ε → ε') : Dialogue Q A ε α → Dialogue Q' A' ε' α
  | done a => done a
  | fail e => fail (error e)
  | ask q next => ask (question q) fun a => (next (answer q a)).rephrase question answer error

/-- How surroundings in some state answer a question, or refuse to. -/
abbrev Answerer (Q : Type) (A : Q → Type) (ε σ : Type) := (q : Q) → σ → Except ε (A q) × σ

/-- The outcome of a program and the state it leaves. The first refusal is the outcome. -/
def run (answer : Answerer Q A ε σ) : Dialogue Q A ε α → σ → Except ε α × σ
  | done a, s => (.ok a, s)
  | fail e, s => (.error e, s)
  | ask q next, s =>
    match answer q s with
    | (.ok a, s) => (next a).run answer s
    | (.error e, s) => (.error e, s)

/-- The questions put, the refused one included. -/
def asked (answer : Answerer Q A ε σ) : Dialogue Q A ε α → σ → List Q
  | done _, _ => []
  | fail _, _ => []
  | ask q next, s =>
    q :: match answer q s with
      | (.ok a, s) => (next a).asked answer s
      | (.error _, _) => []

/-- Refuses question number `n`, counted from 0, and leaves the others to `answer`. -/
def interrupted (answer : Answerer Q A ε σ) (n : Nat) (error : ε) : Answerer Q A ε (Nat × σ) :=
  fun q (count, s) =>
    if count = n then (.error error, (count + 1, s))
    else
      let (a, s) := answer q s
      (a, (count + 1, s))

theorem bind_assoc {γ : Type} (d : Dialogue Q A ε α) (f : α → Dialogue Q A ε β)
    (g : β → Dialogue Q A ε γ) : (d.bind f).bind g = d.bind fun a => (f a).bind g := by
  induction d with
  | done => rfl
  | fail => rfl
  | ask q next ih => exact congrArg (ask q) (funext ih)

theorem bind_done (d : Dialogue Q A ε α) : d.bind done = d := by
  induction d with
  | done => rfl
  | fail => rfl
  | ask q next ih => exact congrArg (ask q) (funext ih)

end Dialogue

end DriveAccess
