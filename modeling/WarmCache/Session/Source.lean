import WarmCache.Session.Command

/-!
# Sources

A source is a script with a count of the attempts it has seen. Callbacks that share a source
share its count.

* `Source.step` : the step of an attempt, by its number.
* `Source.callTimes` : repeated calls of a callback whose steps do nothing but end.
-/

namespace WarmCache

/-- The source behind a callback: its script and how many attempts it has seen. -/
structure Source where
  name : String
  first : Step
  rest : List Step
  cyclic : Bool
  attempts : Nat

namespace Source

/-- The source of a callback to be made. -/
def ofFetcher : Fetcher → Source
  | .mk name first rest cyclic _ => ⟨name, first, rest, cyclic, 0⟩

/-- The step of attempt `n`, counted from zero. Past its end a script begins again or stays at
its last step. -/
def step (s : Source) (n : Nat) : Step :=
  let steps := s.first :: s.rest
  let index := if s.cyclic then n % steps.length else min n s.rest.length
  steps[index]?.getD s.first

/-- What each attempt comes to, by its number. -/
def answers (s : Source) (n : Nat) : Outcome Int := (s.step n).ending.outcome n

/-- What `calls` calls of a callback come to after `n` attempts, each with the number of
attempts seen after it. The gates and commands of the steps are left out. -/
def callTimes (s : Source) (retries : List Nat) : (calls n : Nat) → List (Outcome Int × Nat)
  | 0, _ => []
  | calls + 1, n =>
    let reached := attemptsFrom s.answers retries n
    reached :: s.callTimes retries calls reached.2

end Source

end WarmCache
