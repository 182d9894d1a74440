import WarmCache.Cache
import WarmCache.Text.Quoted
import WarmCache.Tasks.Task

/-!
# Log events

The events that the cache and its background tasks report, each with a level, a text and named
fields. What went on inside a task is told without the task's number, which stands as `#`.

* `Event.fields` : the fields of an event, with task numbers hidden.
-/

namespace WarmCache

/-- How important an event is. -/
inductive Level where
  | debug
  | info
  | warn
  | error
deriving DecidableEq, Repr

namespace Level

/-- The name of a level. -/
def text : Level → String
  | debug => "DEBUG"
  | info => "INFO"
  | warn => "WARN"
  | error => "ERROR"

/-- The verbosity that it takes to hear events of a level. -/
def verbosity : Level → Nat
  | error => 1
  | warn => 2
  | info => 3
  | debug => 4

end Level

/-! ## Task numbers -/

/-- How many digits a text begins with, if ` panicked` follows them. -/
def panickedTaskDigits? (cs : List Char) : Option Nat :=
  let digits := cs.takeWhile Char.isDigit
  if !digits.isEmpty && " panicked".toList.isPrefixOf (cs.drop digits.length) then
    some digits.length
  else none

/-- A text with `#` in place of the number of every task that it says has panicked, from the
character after the next `skip` on. -/
def hideTaskNumbersFrom : (skip : Nat) → List Char → List Char
  | _, [] => []
  | skip + 1, _ :: cs => hideTaskNumbersFrom skip cs
  | 0, c :: cs =>
    if "task ".toList.isPrefixOf (c :: cs) then
      match panickedTaskDigits? (cs.drop 4) with
      | some n => "task #".toList ++ hideTaskNumbersFrom (4 + n) cs
      | none => c :: hideTaskNumbersFrom 0 cs
    else c :: hideTaskNumbersFrom 0 cs

/-- A text with `#` in place of the number of every task that it says has panicked. -/
def hideTaskNumbers (text : String) : String := String.ofList (hideTaskNumbersFrom 0 text.toList)

/-! ## Events -/

/-- Something that was reported. -/
inductive Event where
  /-- A callback failed during a refresh. -/
  | refreshFailed (key message : String)
  /-- A background task began. -/
  | begun (kind : TaskKind) (interval : Interval)
  /-- A background task saw its stop signal. -/
  | stopped (kind : TaskKind)
  /-- A refresh cycle came to its end. -/
  | cycleComplete (summary : Summary)
  /-- A refresh cycle was cut short by a panic. -/
  | cyclePanicked (message : String)
  /-- A flush task flushed. -/
  | flushed (count : Nat)
deriving DecidableEq, Repr

/-- The text of a task's end by a panic. -/
def panicText (message : String) : String :=
  "task # panicked with message " ++ quoteInspected message

namespace Event

/-- The level at which an event is reported. -/
def level : Event → Level
  | refreshFailed _ _ => .debug
  | begun _ _ => .info
  | stopped _ => .info
  | cycleComplete _ => .debug
  | cyclePanicked _ => .warn
  | flushed count => if count = 0 then .debug else .info

/-- The text of an event. -/
def text : Event → String
  | refreshFailed _ _ => "refresh callback failed, keeping cached entry"
  | begun .refreshWorker i =>
    "Starting refresh worker with interval of " ++ toString i.span.wholeMillis ++ " ms"
  | begun .flusher i =>
    "Starting flush task with interval of " ++ toString i.span.wholeMillis ++ " ms"
  | stopped .refreshWorker => "Refresh worker stopped"
  | stopped .flusher => "Flush task stopped"
  | cycleComplete _ => "Refresh cycle complete"
  | cyclePanicked _ => "Refresh cycle did not complete"
  | flushed count =>
    if count = 0 then "TTL flush: no expired entries found"
    else "TTL flush: removed " ++ toString count ++ " expired entries"

/-- The named values of an event, by name, before task numbers are hidden. -/
def values : Event → List (String × String)
  | refreshFailed key message => [("error", message), ("key", key)]
  | cycleComplete s =>
    [("discarded", toString s.discarded), ("failed", toString s.failed),
      ("refreshed", toString s.refreshed)]
  | cyclePanicked message => [("error", panicText message)]
  | _ => []

/-- The named values of an event, by name. -/
def fields (e : Event) : List (String × String) :=
  e.values.map fun field => (field.1, hideTaskNumbers field.2)

/-- The fields of an event as a JSON object, by which events with one text are ordered. -/
def fieldsJson (e : Event) : String :=
  jsonObject (e.fields.map fun field => (field.1, quoteJson field.2))

/-- Events are ordered by their text, then by their fields. -/
def comesBefore (a b : Event) : Bool :=
  if a.text = b.text then a.fieldsJson ≤ b.fieldsJson else a.text ≤ b.text

end Event

end WarmCache
