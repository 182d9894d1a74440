import WarmCache.Session.Work
import Mathlib.Data.List.Basic

/-!
# Work with a book

A refresh may begin other refreshes in its callbacks, and each of them may end in a panic. To tell
which of them settled what, work is done here with a book: whenever a refresh is over, a line says
what it came to and how it had settled outcomes until then. Nothing else is changed by that.

Results:
1. `erase_command`, `erase_wholeRefresh`: without the book it is the work that a session does.
2. `owes_command`, `owes_wholeRefresh`: whatever is replied on the way, the lines of the book add up
   to what was settled.
-/

namespace WarmCache

namespace Summary

instance : Add Summary :=
  ⟨fun a b => ⟨a.refreshed + b.refreshed, a.failed + b.failed, a.discarded + b.discarded⟩⟩

theorem add_def (a b : Summary) : a + b =
    ⟨a.refreshed + b.refreshed, a.failed + b.failed, a.discarded + b.discarded⟩ := rfl

theorem add_assoc (a b c : Summary) : a + b + c = a + (b + c) := by
  simp only [add_def, Nat.add_assoc]

theorem add_comm (a b : Summary) : a + b = b + a := by
  simp only [add_def, Nat.add_comm]

theorem empty_add (a : Summary) : empty + a = a := by
  simp only [add_def, empty, Nat.zero_add]

theorem add_empty (a : Summary) : a + empty = a := by
  simp only [add_def, empty, Nat.add_zero]

/-- Summaries taken together. -/
def sum (summaries : List Summary) : Summary := summaries.foldr (· + ·) empty

theorem sum_cons (first : Summary) (rest : List Summary) :
    sum (first :: rest) = first + sum rest := rfl

theorem sum_append (first more : List Summary) : sum (first ++ more) = sum first + sum more := by
  induction first with
  | nil => exact (empty_add _).symm
  | cons s rest ih => rw [List.cons_append, sum_cons, sum_cons, ih, add_assoc]

theorem sum_perm {first second : List Summary} (same : first.Perm second) :
    sum first = sum second := by
  induction same with
  | nil => rfl
  | cons s _ ih => rw [sum_cons, sum_cons, ih]
  | swap s s' rest =>
    simp only [sum_cons]
    rw [← add_assoc, ← add_assoc, add_comm s]
  | trans _ _ ih ih' => exact ih.trans ih'

/-- What was settled in all, once a request is replied to. -/
def tell (k : Summary) : (q : Request) → Reply q → Summary
  | .settle _ _ _, settled => k.count settled
  | .act _, _ => k
  | .snapshot, _ => k
  | .attempt _, _ => k
  | .record _, _ => k
  | .heldCallback _, _ => k

theorem add_tell (a b : Summary) (q : Request) (reply : Reply q) :
    (a + b).tell q reply = a + b.tell q reply := by
  cases q with
  | settle => cases reply <;> rfl
  | _ => rfl

end Summary

/-- A refresh that is over: what it came to, and how it had settled outcomes until then. One that
did not panic has told so. -/
structure Finished where
  result : Except String Summary
  settled : Summary
  agrees : ∀ summary, result = .ok summary → summary = settled

namespace Finished

/-- What refreshes have settled, taken together. -/
def total (book : List Finished) : Summary := .sum (book.map settled)

theorem total_append (first more : List Finished) :
    total (first ++ more) = total first + total more := by
  rw [total, List.map_append, Summary.sum_append, total, total]

end Finished

/-- Work that comes to a result and to lines in the book. -/
structure Booked (α : Type) where
  work : Work (α × List Finished)

namespace Booked

variable {α β : Type}

/-- The work without its book. -/
def erase (b : Booked α) : Work α := b.work.bind fun p => .done p.1

/-- The same work, with these lines written before its own. -/
def after (lines : List Finished) (b : Booked α) : Booked α :=
  ⟨b.work.bind fun p => .done (p.1, lines ++ p.2)⟩

/-- Work that goes on with the result of other work, and with its book. -/
def bind (b : Booked α) (f : α → Booked β) : Booked β :=
  ⟨b.work.bind fun p => (after p.2 (f p.1)).work⟩

instance : Monad Booked where
  pure a := ⟨.done (a, [])⟩
  bind := bind

/-- Work that writes nothing into the book. -/
def plain (w : Work α) : Booked α := ⟨w.bind fun a => .done (a, [])⟩

/-- A refresh is over. -/
def close (result : Except String Summary) (settled : Summary)
    (agrees : ∀ summary, result = .ok summary → summary = settled) :
    Booked (Except String Summary) :=
  ⟨.done (result, [⟨result, settled, agrees⟩])⟩

/-! ## Refreshes and commands -/

/-- Refreshes the rest of a snapshot and writes a line at the end. -/
def refreshRest (call : Callback → Booked (Outcome Int)) :
    List (String × Callback) → Summary → Booked (Except String Summary)
  | [], summary => close (.ok summary) summary fun _ eq => (Except.ok.inj eq).symm
  | (key, callback) :: rest, summary => bind (call callback) fun
    | .panicked message => close (.error message) summary nofun
    | .failed message =>
      bind (plain (.request (.settle key callback (.error message)))) fun settled =>
        refreshRest call rest (summary.count settled)
    | .ok item =>
      bind (plain (.request (.settle key callback (.ok item)))) fun settled =>
        refreshRest call rest (summary.count settled)

/-- A refresh with its line in the book. -/
def refresh (call : Callback → Booked (Outcome Int)) : Booked (Except String Summary) :=
  bind (plain (.request .snapshot)) fun pairs => refreshRest call pairs .empty

mutual

/-- A command with the lines of the refreshes that it begins. -/
def workWith (call : Callback → Booked (Outcome Int)) : Command → Booked Answer
  | .act action => plain (.request (.act action))
  | .refresh => bind (refresh call) fun result => pure (.ofRefresh result)
  | .call slot => bind (plain (.request (.heldCallback slot))) fun
    | none => pure .nothing
    | some callback => bind (call callback) fun outcome => pure (.ofOutcome outcome)
  | .batch commands => bind (workAllWith call commands) fun answers => pure (.batch answers)

/-- A list of commands with their lines. -/
def workAllWith (call : Callback → Booked (Outcome Int)) :
    List Command → Booked (List Answer)
  | [] => pure []
  | command :: rest => bind (workWith call command) fun answer =>
      bind (workAllWith call rest) fun answers => pure (answer :: answers)

end

/-- One attempt against a source, with the lines of the refreshes that its commands begin. -/
def attempt (runAll : List Command → Booked (List Answer)) (source : Nat) : Booked (Outcome Int) :=
  bind (plain (.request (.attempt source))) fun
    | none => pure (.panicked "there is no such source")
    | some begun =>
      bind (plain (.passGate begun.step.gate)) fun _ =>
        bind (runAll begun.step.commands) fun inner =>
          bind (plain (.request (.record ⟨begun.name, begun.number + 1, inner⟩))) fun _ =>
            pure (begun.step.ending.outcome begun.number)

/-- A call of a callback with its lines. -/
def call : Nat → Callback → Booked (Outcome Int)
  | 0, _ => pure (.panicked "callbacks are nested too deeply")
  | depth + 1, callback =>
    withRetries (attempt (workAllWith (call depth)) callback.source) callback.retries

/-- A command as work with a book. -/
def command (c : Command) : Booked Answer := workWith (call Work.maxDepth) c

/-- A refresh as work with a book. -/
def wholeRefresh : Booked (Except String Summary) := refresh (call Work.maxDepth)

/-! ## The book changes nothing -/

theorem erase_plain (w : Work α) : (plain w).erase = w := by
  rw [erase, plain, Work.bind_assoc]
  exact w.bind_done

theorem erase_after (lines : List Finished) (b : Booked α) : (after lines b).erase = b.erase := by
  rw [erase, after, Work.bind_assoc]
  rfl

theorem erase_bind (b : Booked α) (f : α → Booked β) :
    (bind b f).erase = b.erase.bind fun a => (f a).erase := by
  rw [erase, bind, erase, Work.bind_assoc, Work.bind_assoc]
  refine congrArg (Work.bind b.work) (funext fun p => ?_)
  exact erase_after p.2 (f p.1)

theorem erase_retrying (b : Booked (Outcome Int)) (n : Nat) :
    (retrying b n).erase = retrying b.erase n := by
  induction n with
  | zero => rfl
  | succ n ih =>
    unfold retrying
    refine (erase_bind b _).trans (congrArg (Work.bind b.erase) (funext fun outcome => ?_))
    cases outcome with
    | failed message => exact ih
    | ok item => rfl
    | panicked message => rfl

theorem erase_withRetries (b : Booked (Outcome Int)) (retries : List Nat) :
    (withRetries b retries).erase = withRetries b.erase retries := by
  induction retries generalizing b with
  | nil => rfl
  | cons n rest ih =>
    refine (ih (retrying b n)).trans ?_
    rw [erase_retrying]
    rfl

section Calls

variable {call : Callback → Booked (Outcome Int)} {call' : Callback → Work (Outcome Int)}

theorem erase_refreshRest (calls : ∀ callback, (call callback).erase = call' callback)
    (pairs : List (String × Callback)) (summary : Summary) :
    (refreshRest call pairs summary).erase = Work.refreshRest call' pairs summary := by
  induction pairs generalizing summary with
  | nil => rfl
  | cons pair rest ih =>
    obtain ⟨key, callback⟩ := pair
    refine (erase_bind _ _).trans ?_
    rw [calls]
    refine congrArg (Work.bind (call' callback)) (funext fun outcome => ?_)
    cases outcome with
    | panicked message => rfl
    | failed message =>
      refine (erase_bind _ _).trans ?_
      rw [erase_plain]
      exact congrArg (Work.bind _) (funext fun settled => ih _)
    | ok item =>
      refine (erase_bind _ _).trans ?_
      rw [erase_plain]
      exact congrArg (Work.bind _) (funext fun settled => ih _)

theorem erase_refresh (calls : ∀ callback, (call callback).erase = call' callback) :
    (refresh call).erase = Work.refresh call' := by
  refine (erase_bind _ _).trans ?_
  rw [erase_plain]
  exact congrArg (Work.bind _) (funext fun pairs => erase_refreshRest calls pairs _)

mutual

theorem erase_workWith (calls : ∀ callback, (call callback).erase = call' callback) :
    ∀ command : Command, (workWith call command).erase = command.workWith call'
  | .act action => by
    simp only [workWith, Command.workWith]
    exact erase_plain _
  | .refresh => by
    simp only [workWith, Command.workWith]
    rw [erase_bind, erase_refresh calls]
    rfl
  | .call slot => by
    simp only [workWith, Command.workWith]
    rw [erase_bind, erase_plain]
    refine congrArg (Work.bind _) (funext fun held => ?_)
    cases held with
    | none => rfl
    | some callback =>
      dsimp only
      rw [erase_bind, calls]
      rfl
  | .batch commands => by
    simp only [workWith, Command.workWith]
    rw [erase_bind, erase_workAllWith calls commands]
    rfl

theorem erase_workAllWith (calls : ∀ callback, (call callback).erase = call' callback) :
    ∀ commands : List Command,
      (workAllWith call commands).erase = Command.workAllWith call' commands
  | [] => by
    simp only [workAllWith, Command.workAllWith]
    rfl
  | command :: rest => by
    simp only [workAllWith, Command.workAllWith]
    rw [erase_bind, erase_workWith calls command]
    refine congrArg (Work.bind _) (funext fun answer => ?_)
    rw [erase_bind, erase_workAllWith calls rest]
    rfl

end

theorem erase_attempt {runAll : List Command → Booked (List Answer)}
    {runAll' : List Command → Work (List Answer)}
    (runs : ∀ commands, (runAll commands).erase = runAll' commands) (source : Nat) :
    (attempt runAll source).erase = Work.attempt runAll' source := by
  refine (erase_bind _ _).trans ?_
  rw [erase_plain]
  refine congrArg (Work.bind _) (funext fun begun => ?_)
  cases begun with
  | none => rfl
  | some begun =>
    refine (erase_bind _ _).trans ?_
    rw [erase_plain]
    refine congrArg (Work.bind _) (funext fun _ => ?_)
    refine (erase_bind _ _).trans ?_
    rw [runs]
    refine congrArg (Work.bind _) (funext fun inner => ?_)
    refine (erase_bind _ _).trans ?_
    rw [erase_plain]
    rfl

end Calls

theorem erase_call (depth : Nat) (callback : Callback) :
    (call depth callback).erase = Work.call depth callback := by
  induction depth generalizing callback with
  | zero => rfl
  | succ depth ih =>
    refine (erase_withRetries _ _).trans ?_
    rw [erase_attempt (erase_workAllWith ih)]
    rfl

theorem erase_command (c : Command) : (command c).erase = c.work :=
  erase_workWith (erase_call _) c

theorem erase_wholeRefresh : wholeRefresh.erase = Work.wholeRefresh :=
  erase_refresh (erase_call _)

/-! ## The book adds up -/

/-- However the requests of work are replied to, the lines that it writes add up to what it settles
from here on, together with `k`. -/
def Owes : Work (α × List Finished) → Summary → Prop
  | .done p, k => Finished.total p.2 = k
  | .ask q next, k => ∀ reply, Owes (next reply) (k.tell q reply)
  | .gate _ rest, k => Owes rest k

theorem owes_after (lines : List Finished) {b : Booked α} {k : Summary} (h : Owes b.work k) :
    Owes (after lines b).work (Finished.total lines + k) := by
  obtain ⟨w⟩ := b
  simp only [after]
  induction w generalizing k with
  | done p => exact (Finished.total_append lines p.2).trans (congrArg _ h)
  | ask q next ih =>
    intro reply
    rw [Summary.add_tell]
    exact ih reply (h reply)
  | gate name rest ih => exact ih h

theorem owes_bind {b : Booked α} {f : α → Booked β} {j k : Summary} (h : Owes b.work j)
    (next : ∀ a, Owes (f a).work k) : Owes (bind b f).work (j + k) := by
  obtain ⟨w⟩ := b
  simp only [bind]
  induction w generalizing j with
  | done p =>
    rw [← show Finished.total p.2 = j from h]
    exact owes_after p.2 (next p.1)
  | ask q more ih =>
    intro reply
    rw [Summary.add_comm, Summary.add_tell, Summary.add_comm]
    exact ih reply (h reply)
  | gate name rest ih => exact ih h

theorem owes_pure (a : α) : Owes (pure a : Booked α).work .empty := rfl

theorem owes_close {result : Except String Summary} {settled : Summary}
    (agrees : ∀ summary, result = .ok summary → summary = settled) :
    Owes (close result settled agrees).work settled :=
  Summary.add_empty settled

/-- What follows a request owes what it settles. -/
theorem owes_bind_request {q : Request} {f : Reply q → Booked β} {k : Summary}
    (next : ∀ reply, Owes (f reply).work (k.tell q reply)) :
    Owes (bind (plain (.request q)) f).work k := by
  intro reply
  have writes := owes_after [] (next reply)
  rw [show Finished.total [] = .empty from rfl, Summary.empty_add] at writes
  exact writes

theorem owes_passGate (gate : Option String) : Owes (plain (.passGate gate)).work .empty := by
  cases gate <;> rfl

/-- What comes first owes nothing. -/
theorem owes_bind_of_empty {b : Booked α} {f : α → Booked β} {k : Summary}
    (h : Owes b.work .empty) (next : ∀ a, Owes (f a).work k) : Owes (bind b f).work k := by
  rw [← Summary.empty_add k]
  exact owes_bind h next

theorem owes_retrying {b : Booked (Outcome Int)} (h : Owes b.work .empty) (n : Nat) :
    Owes (retrying b n).work .empty := by
  induction n with
  | zero => exact h
  | succ n ih =>
    unfold retrying
    refine owes_bind_of_empty h fun outcome => ?_
    cases outcome with
    | failed message => exact ih
    | ok item => exact owes_pure _
    | panicked message => exact owes_pure _

theorem owes_withRetries {b : Booked (Outcome Int)} (h : Owes b.work .empty)
    (retries : List Nat) : Owes (withRetries b retries).work .empty := by
  induction retries generalizing b with
  | nil => exact h
  | cons n rest ih => exact ih (owes_retrying h n)

section Calls

variable {call : Callback → Booked (Outcome Int)}

/-- A refresh that has settled `summary` owes that to its line; what its callbacks settle, they
write down themselves. -/
theorem owes_refreshRest (calls : ∀ callback, Owes (call callback).work .empty)
    (pairs : List (String × Callback)) (summary : Summary) :
    Owes (refreshRest call pairs summary).work summary := by
  induction pairs generalizing summary with
  | nil => exact owes_close _
  | cons pair rest ih =>
    obtain ⟨key, callback⟩ := pair
    refine owes_bind_of_empty (calls callback) fun outcome => ?_
    cases outcome with
    | panicked message => exact owes_close _
    | failed message => exact owes_bind_request fun settled => ih _
    | ok item => exact owes_bind_request fun settled => ih _

theorem owes_refresh (calls : ∀ callback, Owes (call callback).work .empty) :
    Owes (refresh call).work .empty :=
  owes_bind_request fun pairs => owes_refreshRest calls pairs .empty

mutual

theorem owes_workWith (calls : ∀ callback, Owes (call callback).work .empty) :
    ∀ command : Command, Owes (workWith call command).work .empty
  | .act action => by
    simp only [workWith]
    exact fun reply => rfl
  | .refresh => by
    simp only [workWith]
    exact owes_bind_of_empty (owes_refresh calls) fun result => owes_pure _
  | .call slot => by
    simp only [workWith]
    refine owes_bind_request fun held => ?_
    cases held with
    | none => exact owes_pure _
    | some callback => exact owes_bind_of_empty (calls callback) fun outcome => owes_pure _
  | .batch commands => by
    simp only [workWith]
    exact owes_bind_of_empty (owes_workAllWith calls commands) fun answers => owes_pure _

theorem owes_workAllWith (calls : ∀ callback, Owes (call callback).work .empty) :
    ∀ commands : List Command, Owes (workAllWith call commands).work .empty
  | [] => by
    simp only [workAllWith]
    exact owes_pure _
  | command :: rest => by
    simp only [workAllWith]
    exact owes_bind_of_empty (owes_workWith calls command) fun answer =>
      owes_bind_of_empty (owes_workAllWith calls rest) fun answers => owes_pure _

end

theorem owes_attempt {runAll : List Command → Booked (List Answer)}
    (runs : ∀ commands, Owes (runAll commands).work .empty) (source : Nat) :
    Owes (attempt runAll source).work .empty := by
  refine owes_bind_request fun begun => ?_
  cases begun with
  | none => exact owes_pure _
  | some begun =>
    refine owes_bind_of_empty (owes_passGate begun.step.gate) fun _ => ?_
    refine owes_bind_of_empty (runs begun.step.commands) fun inner => ?_
    exact owes_bind_request fun _ => owes_pure _

end Calls

theorem owes_call (depth : Nat) (callback : Callback) :
    Owes (call depth callback).work .empty := by
  induction depth generalizing callback with
  | zero => exact owes_pure _
  | succ depth ih => exact owes_withRetries (owes_attempt (owes_workAllWith ih) _) _

theorem owes_command (c : Command) : Owes (command c).work .empty :=
  owes_workWith (owes_call _) c

theorem owes_wholeRefresh : Owes wholeRefresh.work .empty := owes_refresh (owes_call _)

end Booked

end WarmCache
