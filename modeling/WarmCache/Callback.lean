/-!
# Refresh callbacks

A callback fetches a new item. It names the source it fetches from and how often it tries again
after an error. A source answers each attempt with an item, an error or a panic, and remembers
how many attempts it has seen, so copies of a callback share what it has used up.

* `withRetries` : an error is retried, an item or a panic ends the call.
* `Callback.callWith` : a call, given what an attempt against the source does.
* `attemptsFrom` : a call against a source given as the sequence of its answers.
-/

namespace WarmCache

/-- What an attempt to fetch an item comes to. -/
inductive Outcome (α : Type) where
  /-- An item was fetched. -/
  | ok (item : α)
  /-- The source reported an error. -/
  | failed (message : String)
  /-- The source panicked. -/
  | panicked (message : String)
deriving DecidableEq, Repr, Inhabited

/-- A handle on a source of items. `retries` lists the numbers of further tries that were
granted, the innermost first. -/
structure Callback where
  source : Nat
  retries : List Nat
deriving DecidableEq, Repr, Inhabited

namespace Callback

/-- The same callback, tried up to `n` more times whenever it fails. -/
def withRetries (c : Callback) (n : Nat) : Callback := { c with retries := c.retries ++ [n] }

end Callback

/-- Makes an attempt, and up to `n` more as long as each one fails. -/
def retrying {m : Type → Type} [Monad m] {α : Type} (attempt : m (Outcome α)) :
    Nat → m (Outcome α)
  | 0 => attempt
  | n + 1 => do
    match ← attempt with
    | .failed _ => retrying attempt n
    | outcome => pure outcome

/-- Makes an attempt under every grant of retries in turn, the first of them innermost. -/
def withRetries {m : Type → Type} [Monad m] {α : Type} (attempt : m (Outcome α)) :
    List Nat → m (Outcome α)
  | [] => attempt
  | n :: rest => withRetries (retrying attempt n) rest

/-- One call of a callback, where `attempt` is an attempt against its source. -/
def Callback.callWith {m : Type → Type} [Monad m] {α : Type} (c : Callback)
    (attempt : m (Outcome α)) : m (Outcome α) :=
  WarmCache.withRetries attempt c.retries

/-- One attempt against a source whose answers are listed by number: the next of them. -/
def nextAnswer {α : Type} (answers : Nat → Outcome α) : StateM Nat (Outcome α) :=
  fun n => (answers n, n + 1)

/-- One call of a callback against a source whose answers are listed by number, of which `n`
were used before. -/
def attemptsFrom {α : Type} (answers : Nat → Outcome α) (retries : List Nat) (n : Nat) :
    Outcome α × Nat :=
  withRetries (nextAnswer answers) retries n

end WarmCache
