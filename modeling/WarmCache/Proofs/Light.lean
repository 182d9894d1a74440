import WarmCache.Proofs.Plain
import WarmCache.Proofs.Sources
import WarmCache.Proofs.Twins

/-!
# Callbacks that leave the cache alone

A callback is light if it returns at once, does not panic and leaves the cache alone: its steps
wait at no gate, none of them ends by a panic, and their commands have nothing to do with the
entries, begin no refresh and start no task. They may do anything else, such as to stop a task or to
call other callbacks. The session itself may also do what its callbacks may not.

Work with light callbacks goes on to its end without a break, so whatever its requests keep one by
one is kept by the whole. `Work.Keeps` says so of one piece of work and is proved piece by piece.

Results:
1. `Command.isLight`: light commands, of a callback or of the session itself.
2. `KeepsLight.answer`: callbacks stay light.
3. `call_returns`: a call of a light callback does not panic.
4. `keeps_work`, `keeps_wholeRefresh`: what single requests keep is kept by commands and refreshes.
-/

namespace WarmCache

/-! ## Light commands -/

mutual

/-- A command brings only light callbacks. If it is a command of a callback and not of the
session's own, it also leaves the cache alone. -/
def Command.isLight (own : Bool) : Command → Bool
  | .act action => action.isLight own
  | .refresh => own
  | .call _ => true
  | .batch commands => Command.areLight own commands

/-- All of these commands are light. -/
def Command.areLight (own : Bool) : List Command → Bool
  | [] => true
  | command :: rest => command.isLight own && Command.areLight own rest

/-- An action brings only light callbacks. Only the session on its own may read or write entries,
begin a refresh in the background or start a task. -/
def Action.isLight (own : Bool) : Action → Bool
  | .set _ _ build => own && Build.areLight build
  | .showValue _ build => Build.areLight build
  | .store _ => own
  | .policy _ => true
  | .note _ => true
  | .channel _ => true
  | .gate (.spawnRefresh _) => own
  | .gate _ => true
  | .task (.start _ _ _ _) => own
  | .task _ => true

/-- The callbacks of a value are light. -/
def Build.areLight : List Build → Bool
  | [] => true
  | setting :: rest => setting.isLight && Build.areLight rest

/-- The callback that a setting brings is light. -/
def Build.isLight : Build → Bool
  | .refresh fetcher => fetcher.isLight
  | .expires _ => true
  | .share _ _ => true

/-- All steps of a callback are light. -/
def Fetcher.isLight : Fetcher → Bool
  | .mk _ first rest _ _ => first.isLight && Step.areLight rest

/-- All of these steps are light. -/
def Step.areLight : List Step → Bool
  | [] => true
  | step :: rest => step.isLight && Step.areLight rest

/-- A step waits at no gate, its commands leave the cache alone, and it does not panic. -/
def Step.isLight : Step → Bool
  | .mk gate commands ending =>
    gate.isNone && Command.areLight false commands && !ending.isPanic

end

mutual

/-- The actions of a command, without those of callbacks. -/
def Command.actions : Command → List Action
  | .act action => [action]
  | .refresh => []
  | .call _ => []
  | .batch commands => Command.actionsOf commands

/-- The actions of all of these commands. -/
def Command.actionsOf : List Command → List Action
  | [] => []
  | command :: rest => command.actions ++ Command.actionsOf rest

end

theorem Step.isLight_iff {step : Step} : step.isLight = true ↔
    step.gate = none ∧ Command.areLight false step.commands = true ∧
      step.ending.isPanic = false := by
  obtain ⟨gate, commands, ending⟩ := step
  simp only [isLight, Bool.and_eq_true, Option.isNone_iff_eq_none, Bool.not_eq_true', and_assoc]
  rfl

theorem Step.areLight_iff {steps : List Step} :
    Step.areLight steps = true ↔ ∀ step ∈ steps, step.isLight = true := by
  induction steps with
  | nil => simp [areLight]
  | cons step rest ih => simp [areLight, ih]

theorem Build.isLight_of_mem {settings : List Build} (light : Build.areLight settings = true) :
    ∀ fetcher ∈ Build.fetchers settings, fetcher.isLight = true := by
  induction settings with
  | nil => exact nofun
  | cons setting rest ih =>
    simp only [areLight, Bool.and_eq_true] at light
    cases setting with
    | refresh fetcher => exact List.forall_mem_cons.2 ⟨light.1, ih light.2⟩
    | expires moment => exact ih light.2
    | share slot retries => exact ih light.2

/-- All steps of a source are light. -/
def Source.isLight (s : Source) : Bool := Step.areLight (s.first :: s.rest)

theorem Source.isLight_ofFetcher (fetcher : Fetcher) :
    (Source.ofFetcher fetcher).isLight = fetcher.isLight := by
  obtain ⟨name, first, rest, cyclic, retries⟩ := fetcher
  simp only [isLight, ofFetcher, Step.areLight, Fetcher.isLight]

theorem Source.isLight_step {s : Source} (light : s.isLight = true) (n : Nat) :
    (s.step n).isLight = true :=
  Step.areLight_iff.1 light _ (s.step_mem n)

/-- A request is an action that is light, or it does not write to the cache. -/
def Request.isLight (own : Bool) : Request → Bool
  | .act action => action.isLight own
  | .settle _ _ _ => own
  | _ => true

theorem Request.isLight_of_mem {own : Bool} {q : Request} (light : q.isLight own = true) :
    ∀ fetcher ∈ q.fetchers, fetcher.isLight = true := by
  cases q with
  | act action =>
    cases action with
    | set key item settings =>
      simp only [isLight, Action.isLight, Bool.and_eq_true] at light
      exact Build.isLight_of_mem light.2
    | showValue item settings =>
      simp only [isLight, Action.isLight] at light
      exact Build.isLight_of_mem light
    | _ => exact nofun
  | _ => exact nofun

namespace Session

/-- All callbacks are light. -/
def KeepsLight (s : Session) : Prop := ∀ source ∈ s.sources, source.isLight = true

theorem KeepsLight.answer {own : Bool} {s : Session} (h : s.KeepsLight) {q : Request}
    (light : q.isLight own = true) : (s.answer q).1.KeepsLight := by
  refine (s.grows_answer q).forall_sources (fun source member _ => h source member) ?_
  intro fetcher brought
  rw [Source.isLight_ofFetcher]
  exact Request.isLight_of_mem light fetcher brought

end Session

/-! ## Work that keeps what its requests keep -/

namespace Work

open Session

/-- Work that no gate holds up and that keeps `P`, and whose result is as `Q` says. -/
def Keeps {α : Type} (P : Session → Prop) (Q : α → Prop) (w : Work α) : Prop :=
  ∀ s, P s → P (s.finish w).1 ∧ Q (s.finish w).2 ∧
    s.advance w = ((s.finish w).1, .finished (s.finish w).2)

variable {α β : Type} {P : Session → Prop}

namespace Keeps

variable {Q Q' : α → Prop} {R : β → Prop} {w : Work α}

theorem done {a : α} (h : Q a) : Keeps P Q (Work.done a) := fun _ holds => ⟨holds, h, rfl⟩

theorem mono (h : Keeps P Q w) (weaker : ∀ a, Q a → Q' a) : Keeps P Q' w :=
  fun s holds => ⟨(h s holds).1, weaker _ (h s holds).2.1, (h s holds).2.2⟩

theorem bind (h : Keeps P Q w) {f : α → Work β} (next : ∀ a, Q a → Keeps P R (f a)) :
    Keeps P R (w.bind f) := by
  intro s holds
  obtain ⟨holds', result, straight⟩ := h s holds
  obtain ⟨holds'', result', straight'⟩ := next _ result _ holds'
  rw [finish_bind, advance_bind straight]
  exact ⟨holds'', result', straight'⟩

theorem request (q : Request) {Q : Reply q → Prop} (keeps : ∀ s, P s → P (s.answer q).1)
    (reply : ∀ s, P s → Q (s.answer q).2) : Keeps P Q (Work.request q) :=
  fun s holds => ⟨keeps s holds, reply s holds, rfl⟩

end Keeps

/-! ## Calls -/

/-- What is kept by everything that a light callback may ask for. -/
structure Lasting (P : Session → Prop) : Prop where
  light : ∀ {s : Session}, P s → s.KeepsLight
  aside : ∀ {s : Session} {q : Request}, q.isLight false = true → P s → P (s.answer q).1

/-- An outcome is no panic, if the source is sure to be there. -/
def Returns (P : Session → Prop) (source : Nat) (outcome : Outcome Int) : Prop :=
  (∀ s, P s → source < s.sources.length) → ∀ message, outcome ≠ .panicked message

theorem keeps_attempt (lasting : Lasting P) {runAll : List Command → Work (List Answer)}
    (run : ∀ commands, Command.areLight false commands = true →
      Keeps P (fun _ => True) (runAll commands)) (source : Nat) :
    Keeps P (Returns P source) (attempt runAll source) := by
  have begins : Keeps P (fun begun : Option Attempt =>
      (∀ a, begun = some a → a.step.isLight = true) ∧
        (begun = none → ¬ ∀ s, P s → source < s.sources.length))
      (Work.request (.attempt source)) := by
    refine .request (.attempt source) (fun s => lasting.aside rfl) fun s holds => ?_
    show (∀ a, (s.beginAttempt source).2 = some a → _) ∧ ((s.beginAttempt source).2 = none → _)
    cases found : s.sources[source]? with
    | none =>
      simp only [beginAttempt, found]
      refine ⟨fun _ begun => (by cases begun), fun _ known => ?_⟩
      exact Nat.not_le_of_lt (known s holds) (List.getElem?_eq_none_iff.1 found)
    | some old =>
      simp only [beginAttempt, found, Option.some.injEq, reduceCtorEq, false_implies, and_true]
      rintro a rfl
      exact Source.isLight_step (lasting.light holds old (List.mem_of_getElem? found)) _
  refine begins.bind fun begun known => ?_
  obtain ⟨light, absent⟩ := known
  cases begun with
  | none => exact .done fun known => absurd known (absent rfl)
  | some begun =>
    obtain ⟨noGate, commands, returns⟩ := Step.isLight_iff.1 (light begun rfl)
    have pass : Keeps P (fun _ => True) (passGate begun.step.gate) := by
      rw [noGate]
      exact .done trivial
    have notes : ∀ inner, Keeps P (fun _ => True)
        (Work.request (.record ⟨begun.name, begun.number + 1, inner⟩)) :=
      fun _ => .request _ (fun _ => lasting.aside rfl) fun _ _ => trivial
    refine pass.bind fun _ _ => (run _ commands).bind fun inner _ => (notes inner).bind fun _ _ =>
      .done fun _ message panics => ?_
    cases ending : begun.step.ending with
    | panicked text =>
      rw [ending] at returns
      cases returns
    | item i => rw [ending] at panics; cases panics
    | counted base => rw [ending] at panics; cases panics
    | failed text => rw [ending] at panics; cases panics

theorem keeps_retrying {Q : Outcome Int → Prop} {w : Work (Outcome Int)} (h : Keeps P Q w)
    (tries : Nat) : Keeps P Q (retrying w tries) := by
  induction tries with
  | zero => exact h
  | succ tries ih =>
    refine h.bind fun outcome result => ?_
    cases outcome with
    | ok item => exact .done result
    | failed message => exact ih
    | panicked message => exact .done result

theorem keeps_withRetries {Q : Outcome Int → Prop} {w : Work (Outcome Int)} (h : Keeps P Q w)
    (retries : List Nat) : Keeps P Q (withRetries w retries) := by
  induction retries generalizing w with
  | nil => exact h
  | cons tries rest ih => exact ih (keeps_retrying h tries)

mutual

/-- A command keeps what its actions and its refreshes keep. -/
theorem keeps_workWith {own : Bool} {call : Callback → Work (Outcome Int)} (lasting : Lasting P)
    (calls : ∀ callback, Keeps P (fun _ => True) (call callback))
    (refreshes : own = true → Keeps P (fun _ => True) (refresh call)) :
    ∀ {command : Command}, command.isLight own = true →
      (∀ action ∈ command.actions, ∀ s, action.isLight own = true → P s →
        P (s.answer (.act action)).1) →
      Keeps P (fun _ => True) (command.workWith call)
  | .act action, light, acts => by
    simp only [Command.isLight] at light
    simp only [Command.actions, List.forall_mem_singleton] at acts
    exact .request (.act action) (fun s => acts s light) fun _ _ => trivial
  | .refresh, light, _ =>
    (refreshes (by simpa only [Command.isLight] using light)).bind fun _ _ => .done trivial
  | .call slot, _, _ => by
    have held : Keeps P (fun _ => True) (Work.request (.heldCallback slot)) :=
      .request (.heldCallback slot) (fun _ => lasting.aside rfl) fun _ _ => trivial
    refine held.bind fun found _ => ?_
    cases found with
    | none => exact .done trivial
    | some callback => exact (calls callback).bind fun _ _ => .done trivial
  | .batch _, light, acts => by
    simp only [Command.isLight] at light
    simp only [Command.actions] at acts
    exact (keeps_workAllWith lasting calls refreshes light acts).bind fun _ _ => .done trivial

theorem keeps_workAllWith {own : Bool} {call : Callback → Work (Outcome Int)}
    (lasting : Lasting P) (calls : ∀ callback, Keeps P (fun _ => True) (call callback))
    (refreshes : own = true → Keeps P (fun _ => True) (refresh call)) :
    ∀ {commands : List Command}, Command.areLight own commands = true →
      (∀ action ∈ Command.actionsOf commands, ∀ s, action.isLight own = true → P s →
        P (s.answer (.act action)).1) →
      Keeps P (fun _ => True) (Command.workAllWith call commands)
  | [], _, _ => .done trivial
  | _ :: _, light, acts => by
    simp only [Command.areLight, Bool.and_eq_true] at light
    simp only [Command.actionsOf, List.forall_mem_append] at acts
    exact (keeps_workWith lasting calls refreshes light.1 acts.1).bind fun _ _ =>
      (keeps_workAllWith lasting calls refreshes light.2 acts.2).bind fun _ _ => .done trivial

end

/-- The commands of a light callback keep whatever single requests of light callbacks keep. -/
theorem keeps_aside {call : Callback → Work (Outcome Int)} (lasting : Lasting P)
    (calls : ∀ callback, Keeps P (fun _ => True) (call callback)) {commands : List Command}
    (light : Command.areLight false commands = true) :
    Keeps P (fun _ => True) (Command.workAllWith call commands) := by
  refine keeps_workAllWith lasting calls ?_ light fun action _ s aside => lasting.aside aside
  exact nofun

/-- So does a call. -/
theorem keeps_call (lasting : Lasting P) (depth : Nat) (callback : Callback) :
    Keeps P (fun _ => True) (call depth callback) := by
  induction depth generalizing callback with
  | zero => exact .done trivial
  | succ depth ih =>
    have attempts := keeps_attempt lasting (fun _ => keeps_aside lasting ih) callback.source
    exact keeps_withRetries (attempts.mono fun _ _ => trivial) callback.retries

/-- A callback whose source is there returns. -/
theorem call_returns {s : Session} (light : s.KeepsLight) {callback : Callback}
    (known : callback.source < s.sources.length) (depth : Nat) (message : String) :
    (s.finish (call (depth + 1) callback)).2 ≠ .panicked message := by
  let P (t : Session) : Prop := t.KeepsLight ∧ callback.source < t.sources.length
  have lasting : Lasting P := ⟨fun h => h.1, fun {t q} own h =>
    ⟨h.1.answer own, Nat.lt_of_lt_of_le h.2 (t.grows_answer q).length_le⟩⟩
  have attempts := keeps_attempt lasting
    (fun _ => keeps_aside lasting (keeps_call lasting depth)) callback.source
  obtain ⟨_, returns, _⟩ := keeps_withRetries attempts callback.retries s ⟨light, known⟩
  exact returns (fun _ h => h.2) message

/-! ## Refreshes and commands -/

/-- What is kept by everything that light callbacks may ask for and by the settlement of their
results, for pairs that are as `fits` says. The pairs of a snapshot are so. -/
structure Enduring (P : Session → Prop) (fits : String × Callback → Prop) : Prop
    extends Lasting P where
  snapshot : ∀ {s : Session}, P s →
    ∀ pair ∈ s.cache.refreshable, pair.2.source < s.sources.length ∧ fits pair
  settles : ∀ {s : Session} {pair : String × Callback} (result : Except String Int), P s →
    pair.2.source < s.sources.length → fits pair → P (s.answer (.settle pair.1 pair.2 result)).1

section Enduring

variable {fits : String × Callback → Prop}

/-- The first pair of a refresh is called and its outcome is settled. -/
theorem finish_refreshRest_light {s : Session} (light : s.KeepsLight) {pair : String × Callback}
    (known : pair.2.source < s.sources.length) (depth : Nat) (rest : List (String × Callback))
    (summary : Summary) :
    let called := s.finish (call (depth + 1) pair.2)
    let settle : Request := .settle pair.1 pair.2 called.2.result
    let settled := called.1.answer settle
    s.finish (refreshRest (call (depth + 1)) (pair :: rest) summary) =
        settled.1.finish (refreshRest (call (depth + 1)) rest (summary.count settled.2)) ∧
      (s.advance (call (depth + 1) pair.2) = (called.1, .finished called.2) →
        s.advance (refreshRest (call (depth + 1)) (pair :: rest) summary) =
          settled.1.advance
            (refreshRest (call (depth + 1)) rest (summary.count settled.2))) := by
  intro called settle settled
  have returns := call_returns light known depth
  have goes := afterCall_eq (call (depth + 1)) pair.1 pair.2 rest summary returns
  rw [refreshRest_cons]
  refine ⟨?_, fun straight => ?_⟩
  · rw [finish_bind, goes]
    rfl
  · rw [advance_bind straight, goes]
    rfl

theorem refreshRest_keeps (enduring : Enduring P fits) (depth : Nat)
    {pairs : List (String × Callback)} {s : Session} (holds : P s)
    (among : ∀ pair ∈ pairs, pair.2.source < s.sources.length ∧ fits pair) (summary : Summary) :
    P (s.finish (refreshRest (call (depth + 1)) pairs summary)).1 ∧
      (∃ told, (s.finish (refreshRest (call (depth + 1)) pairs summary)).2 = .ok told) ∧
      s.advance (refreshRest (call (depth + 1)) pairs summary) =
        ((s.finish (refreshRest (call (depth + 1)) pairs summary)).1,
          .finished (s.finish (refreshRest (call (depth + 1)) pairs summary)).2) := by
  induction pairs generalizing s summary with
  | nil => exact ⟨holds, ⟨summary, rfl⟩, rfl⟩
  | cons pair rest ih =>
    obtain ⟨known, fit⟩ := among pair List.mem_cons_self
    obtain ⟨called, _, straight⟩ := keeps_call enduring.toLasting (depth + 1) pair.2 s holds
    obtain ⟨finish, advance⟩ :=
      finish_refreshRest_light (enduring.light holds) known depth rest summary
    have grown := s.length_sources_le_finish (call (depth + 1) pair.2)
    have settled := enduring.settles (s.finish (call (depth + 1) pair.2)).2.result called
      (Nat.lt_of_lt_of_le known grown) fit
    rw [finish, advance straight]
    refine ih settled (fun other member => ?_) _
    obtain ⟨known', fit'⟩ := among other (List.mem_cons_of_mem _ member)
    refine ⟨?_, fit'⟩
    rw [sources_answer_settle]
    exact Nat.lt_of_lt_of_le known' grown

/-- A refresh keeps what callbacks and the settlement of their results keep, and it returns. -/
theorem keeps_wholeRefresh (enduring : Enduring P fits) :
    Keeps P (fun result => ∃ told, result = .ok told) wholeRefresh := by
  intro s holds
  have quiet : Request.isLight false .snapshot = true := rfl
  have among : ∀ pair ∈ s.cache.refreshable,
      pair.2.source < (s.answer .snapshot).1.sources.length ∧ fits pair := enduring.snapshot holds
  exact refreshRest_keeps enduring 999 (enduring.aside quiet holds) among .empty

/-- So does a command whose actions do. -/
theorem keeps_work (enduring : Enduring P fits) {command : Command}
    (light : command.isLight true = true)
    (acts : ∀ action ∈ command.actions, ∀ s, action.isLight true = true → P s →
      P (s.answer (.act action)).1) : Keeps P (fun _ => True) command.work :=
  keeps_workWith enduring.toLasting (keeps_call enduring.toLasting maxDepth)
    (fun _ => (keeps_wholeRefresh enduring).mono fun _ _ => trivial) light acts

end Enduring

end Work

end WarmCache
