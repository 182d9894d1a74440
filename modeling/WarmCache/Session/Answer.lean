import WarmCache.Log

/-!
# Answers

What a session answers to a move. Instants are shown as they are, or by their distance from the
present where the clock follows real time and no two runs would show the same.
-/

namespace WarmCache

/-- An instant as a session shows it. -/
inductive ShownInstant where
  /-- As it is. -/
  | fixed (t : Instant)
  /-- As the last instant there is. -/
  | latest
  /-- By its distance from the present. -/
  | inMinutes (n : Int)
deriving DecidableEq, Repr

/-- An entry as a session shows it. -/
structure ShownEntry where
  item : Int
  expires : ShownInstant
  refreshable : Bool
  expired : Bool
deriving DecidableEq, Repr

mutual

/-- The answer to a command or a move. -/
inductive Answer where
  | nothing
  | done
  | started
  | flag (b : Bool)
  | number (n : Int)
  | text (s : String)
  | instant (t : ShownInstant)
  | span (d : Span)
  | entry (e : ShownEntry)
  | summary (s : Summary)
  | stats (s : Stats)
  | fetched (item : Int)
  | refused (e : CacheError)
  | callbackFailed (message : String)
  | panicked (message : String)
  | cancelled
  | notFinished
  | cycleBlocked
  /-- How many of the sets went well, and the first that did not. -/
  | manySet (ok : Nat) (firstError : Option (Int × CacheError))
  /-- How many keys were found, the sum of their items, the first and the last. -/
  | manyFound (found : Nat) (sum : Int) (first last : Option Int)
  | calls (counts : List (String × Nat))
  | trace (records : List TraceRecord)
  | logs (events : List Event)
  | batch (answers : List Answer)
  /-- There is nothing of that name, or it cannot do this. -/
  | malformed (what : String)

/-- A note that a source made at the end of an attempt: its name, the number of the attempt
counted from one, and the answers to the commands of the step. -/
inductive TraceRecord where
  | mk (name : String) (number : Nat) (inner : List Answer)

end

namespace TraceRecord

/-- The name of the source. -/
def name : TraceRecord → String
  | mk n _ _ => n

/-- The number of the attempt. -/
def number : TraceRecord → Nat
  | mk _ n _ => n

/-- The answers to the commands of the step. -/
def inner : TraceRecord → List Answer
  | mk _ _ answers => answers

/-- Records are ordered by name, then by number. -/
def comesBefore (a b : TraceRecord) : Bool :=
  if a.name = b.name then a.number ≤ b.number else a.name ≤ b.name

end TraceRecord

namespace Answer

/-- The answer that tells what a refresh came to, which is a summary unless it panicked. -/
def ofRefresh : Except String Summary → Answer
  | .ok s => summary s
  | .error message => panicked message

/-- The answer that tells what a callback came to. -/
def ofOutcome : Outcome Int → Answer
  | .ok item => fetched item
  | .failed message => callbackFailed message
  | .panicked message => panicked message

/-- The answer to a request that may be refused. -/
def ofResult (answer : Answer) : Except CacheError Unit → Answer
  | .ok () => answer
  | .error e => refused e

end Answer

end WarmCache
