import WarmCache.Session.Answer
import WarmCache.Session.Command

/-!
# Work

Work is what a thread has yet to do: it is finished with a result, or it makes a request and
goes on with the reply. A refresh is work, and so is every command; between two requests
anything else may happen to the cache.

Each request is a single step. Work may also come to a gate, where it can be put aside and taken
up later.

* `Work.bind_assoc`, `Work.bind_done` : work can be composed like statements.
* `Work.refresh`, `Work.call`, `Command.work` : a refresh, a call and a command as work.
-/

namespace WarmCache

/-- An attempt that a source has begun: its name, its number counted from zero, its step. -/
structure Attempt where
  name : String
  number : Nat
  step : Step

/-- A single step that work may ask for. -/
inductive Request where
  | act (action : Action)
  /-- The keys that can be refreshed now, with their callbacks. -/
  | snapshot
  /-- Settle what the callback of a snapshot came to. -/
  | settle (key : String) (callback : Callback) (result : Except String Int)
  /-- Count an attempt against a source and begin its next step. -/
  | attempt (source : Nat)
  /-- Note that an attempt is over. -/
  | record (note : TraceRecord)
  /-- The callback of the entry kept in a slot, if there is one. -/
  | heldCallback (slot : String)

/-- What is replied to a request. -/
@[reducible] def Reply : Request → Type
  | .act _ => Answer
  | .snapshot => List (String × Callback)
  | .settle _ _ _ => Settled
  | .attempt _ => Option Attempt
  | .record _ => Unit
  | .heldCallback _ => Option Callback

/-- What a thread has yet to do before it has a result of type `α`. -/
inductive Work (α : Type) where
  | done (result : α)
  | ask (request : Request) (next : Reply request → Work α)
  | gate (name : String) (rest : Work α)

namespace Work

variable {α β γ : Type}

/-- Work that goes on with the result of other work. -/
def bind : Work α → (α → Work β) → Work β
  | done a, f => f a
  | ask q next, f => ask q fun reply => (next reply).bind f
  | gate name rest, f => gate name (rest.bind f)

instance : Monad Work where
  pure := done
  bind := bind

/-- A single request. -/
def request (q : Request) : Work (Reply q) := ask q done

/-- A wait at a gate, if there is one. -/
def passGate : Option String → Work Unit
  | some name => gate name (done ())
  | none => done ()

theorem bind_done (w : Work α) : w.bind done = w := by
  induction w with
  | done a => rfl
  | ask q next ih => simp only [bind, ih]
  | gate name rest ih => simp only [bind, ih]

theorem bind_assoc (w : Work α) (f : α → Work β) (g : β → Work γ) :
    (w.bind f).bind g = w.bind fun a => (f a).bind g := by
  induction w with
  | done a => rfl
  | ask q next ih => simp only [bind, ih]
  | gate name rest ih => simp only [bind, ih]

/-- Refreshes the rest of a snapshot: calls each callback and settles what it comes to. A panic
ends the refresh where it is. -/
def refreshRest (call : Callback → Work (Outcome Int)) :
    List (String × Callback) → Summary → Work (Except String Summary)
  | [], summary => pure (.ok summary)
  | (key, callback) :: rest, summary => do
    match ← call callback with
    | .panicked message => pure (.error message)
    | .failed message =>
      let settled ← request (.settle key callback (.error message))
      refreshRest call rest (summary.count settled)
    | .ok item =>
      let settled ← request (.settle key callback (.ok item))
      refreshRest call rest (summary.count settled)

/-- A refresh: the callbacks present at its beginning, one after the other. -/
def refresh (call : Callback → Work (Outcome Int)) : Work (Except String Summary) := do
  let pairs ← request .snapshot
  refreshRest call pairs .empty

end Work

mutual

/-- A command as work, where `call` calls callbacks. -/
def Command.workWith (call : Callback → Work (Outcome Int)) : Command → Work Answer
  | .act action => Work.request (.act action)
  | .refresh => do return Answer.ofRefresh (← Work.refresh call)
  | .call slot => do
    match ← Work.request (.heldCallback slot) with
    | none => return .nothing
    | some callback => return Answer.ofOutcome (← call callback)
  | .batch commands => do return .batch (← Command.workAllWith call commands)

/-- A list of commands as work. -/
def Command.workAllWith (call : Callback → Work (Outcome Int)) :
    List Command → Work (List Answer)
  | [] => pure []
  | command :: rest => do
    let answer ← command.workWith call
    let answers ← Command.workAllWith call rest
    return answer :: answers

end

namespace Work

/-- One attempt against a source: its next step waits at the step's gate, runs the step's
commands, notes their answers and ends as the step says. -/
def attempt (runAll : List Command → Work (List Answer)) (source : Nat) :
    Work (Outcome Int) := do
  match ← request (.attempt source) with
  | none => return .panicked "there is no such source"
  | some begun =>
    passGate begun.step.gate
    let inner ← runAll begun.step.commands
    request (.record ⟨begun.name, begun.number + 1, inner⟩)
    return begun.step.ending.outcome begun.number

/-- A call of a callback. The commands of a step may call callbacks again, to a depth of
`depth` calls inside one another; a call beyond that panics. -/
def call : Nat → Callback → Work (Outcome Int)
  | 0, _ => pure (.panicked "callbacks are nested too deeply")
  | depth + 1, callback =>
    callback.callWith (attempt (Command.workAllWith (call depth)) callback.source)

/-- How many calls may be under way inside one another. A stack ends somewhere as well, at a depth
that nothing tells; a limit is set here so that all work comes to an end. -/
def maxDepth : Nat := 1000

end Work

/-- A command as work. -/
def Command.work (command : Command) : Work Answer := command.workWith (Work.call Work.maxDepth)

/-- A refresh as work. -/
def Work.wholeRefresh : Work (Except String Summary) := Work.refresh (Work.call Work.maxDepth)

end WarmCache
