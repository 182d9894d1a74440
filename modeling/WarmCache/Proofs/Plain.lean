import WarmCache.Proofs.Commuting
import WarmCache.Proofs.Quiet
import WarmCache.Proofs.Retries
import WarmCache.Proofs.Rounds

/-!
# Callbacks that keep to themselves

A callback keeps to itself if its steps do nothing but end, and none of them by a panic. It does
not touch the cache, the clock or anything else that callbacks could share; a call of it uses up
some attempts of its source, and what it comes to depends on that source only. Here a refresh of
such callbacks, no two of which share a source, is brought to a fold over what they come to.

Results:
1. `uses_call`: what a call of such a callback comes to, as a run against its source alone.
2. `Books.enterAll_perm`: the results of such callbacks may be settled in any order.
3. `refreshed_plain`: what a refresh makes of a session, for any pairs in any order.
-/

namespace WarmCache

/-! ## Plain steps -/

/-- Whether an attempt that ends so panics. -/
def Ending.isPanic : Ending → Bool
  | .panicked _ => true
  | _ => false

/-- A step does nothing but end, and not by a panic. -/
def Step.isPlain (step : Step) : Bool :=
  step.gate.isNone && step.commands.isEmpty && !step.ending.isPanic

namespace Source

/-- All steps of a source are plain. -/
def isPlain (s : Source) : Bool := (s.first :: s.rest).all Step.isPlain

/-- The source after so many more attempts. -/
def spend (n : Nat) (s : Source) : Source := { s with attempts := s.attempts + n }

theorem spend_spend (m n : Nat) : spend n ∘ spend m = spend (m + n) :=
  funext fun s => congrArg (fun attempts => { s with attempts }) (Nat.add_assoc s.attempts m n)

theorem isPlain_step {s : Source} (plain : s.isPlain = true) (n : Nat) :
    (s.step n).gate = none ∧ (s.step n).commands = [] ∧ (s.step n).ending.isPanic = false := by
  have one := List.all_eq_true.1 plain _ (s.step_mem n)
  simp only [Step.isPlain, Bool.and_eq_true, Option.isNone_iff_eq_none, List.isEmpty_iff,
    Bool.not_eq_true'] at one
  exact ⟨one.1.1, one.1.2, one.2⟩

theorem answers_ne_panicked {s : Source} (plain : s.isPlain = true) (n : Nat) (message : String) :
    s.answers n ≠ .panicked message := by
  have returns := (isPlain_step plain n).2.2
  unfold answers
  cases ending : (s.step n).ending with
  | panicked text =>
    rw [ending] at returns
    cases returns
  | item i => exact nofun
  | counted base => exact nofun
  | failed text => exact nofun

end Source

/-! ## Calls -/

/-- What an attempt has yet to do when it has begun. -/
def Work.begun (runAll : List Command → Work (List Answer)) : Option Attempt → Work (Outcome Int)
  | none => .done (.panicked "there is no such source")
  | some begun => (passGate begun.step.gate).bind fun _ =>
      (runAll begun.step.commands).bind fun inner =>
        .ask (.record ⟨begun.name, begun.number + 1, inner⟩) fun _ =>
          .done (begun.step.ending.outcome begun.number)

theorem Work.attempt_eq (runAll : List Command → Work (List Answer)) (source : Nat) :
    attempt runAll source = .ask (.attempt source) (begun runAll) := by
  refine congrArg (ask (.attempt source)) (funext fun begun => ?_)
  cases begun <;> rfl

/-- What a call has yet to do after an attempt, if it tries again after an error. -/
def Work.ifFailed (again : Work (Outcome Int)) : Outcome Int → Work (Outcome Int)
  | .failed _ => again
  | .ok item => .done (.ok item)
  | .panicked message => .done (.panicked message)

theorem Work.retrying_succ (w : Work (Outcome Int)) (tries : Nat) :
    retrying w (tries + 1) = w.bind (ifFailed (retrying w tries)) := by
  refine congrArg (bind w) (funext fun outcome => ?_)
  cases outcome <;> rfl

namespace Session

/-- A session without what was noted and reported of it. -/
def muted (s : Session) : Session := { s with journal := .empty }

/-- How often sources of this name were called. -/
def timesCalled (s : Session) (name : String) : Nat := (s.journal.calls.find? name).getD 0

/-- Work that asks for no snapshot and comes to no gate, if it is begun in session `s`. -/
def Direct {α : Type} : Work α → Session → Prop
  | .done _, _ => True
  | .ask q next, s => q ≠ .snapshot ∧ Direct (next (s.answer q).2) (s.answer q).1
  | .gate _ _, _ => False

theorem direct_bind {α β : Type} {w : Work α} {f : α → Work β} {s : Session} (h : Direct w s)
    (next : Direct (f (s.finish w).2) (s.finish w).1) : Direct (w.bind f) s := by
  induction w generalizing s with
  | done a => exact next
  | ask q more ih => exact ⟨h.1, ih _ h.2 next⟩
  | gate name rest ih => exact h.elim

/-- From session `s` to session `t` source `i`, which is `source` but for its attempts, was used so
many times. Besides, real time went on. -/
structure Spends (i : Nat) (source : Source) (used : Nat) (s t : Session) : Prop where
  same : t.muted =
    { s.muted with sources := s.sources.modify i (Source.spend used), clock := t.clock }
  steady : s.clock.tick = s.clock → t.clock = s.clock
  calls : ∀ name, t.timesCalled name = s.timesCalled name + if name = source.name then used else 0

namespace Spends

variable {i used used' : Nat} {source : Source} {s t u : Session}

theorem sources (h : Spends i source used s t) :
    t.sources = s.sources.modify i (Source.spend used) :=
  congrArg Session.sources h.same

theorem cache (h : Spends i source used s t) : t.cache = s.cache := by
  have same := congrArg Session.cache h.same
  exact same

theorem trans (h : Spends i source used s t) (h' : Spends i source used' t u) :
    Spends i source (used + used') s u where
  same := by
    rw [h'.same, h.same, h.sources, List.modify_modify_eq, Source.spend_spend]
  steady still := (h'.steady ((h.steady still).symm ▸ still)).trans (h.steady still)
  calls name := by
    rw [h'.calls, h.calls, Nat.add_assoc]
    split <;> rfl

theorem found {n : Nat} (h : Spends i source used s t)
    (before : s.sources[i]? = some { source with attempts := n }) :
    t.sources[i]? = some { source with attempts := n + used } := by
  rw [h.sources, List.getElem?_modify, before]
  exact congrArg some (if_pos rfl)

end Spends

/-- An attempt that has nothing to do. -/
theorem spends_attempt {s : Session} {i n : Nat} {source : Source}
    (found : s.sources[i]? = some { source with attempts := n }) (note : TraceRecord) :
    Spends i source 1 s ((s.answer (.attempt i)).1.answer (.record note)).1 := by
  have begun : s.beginAttempt i =
      ({ s with
          sources := s.sources.set i { source with attempts := n + 1 }
          journal := s.journal.countCall source.name },
        some ⟨source.name, n, source.step n⟩) := by
    simp only [beginAttempt, found]
    rfl
  have answered : s.answer (.attempt i) = ({ (s.beginAttempt i).1 with
      clock := (s.beginAttempt i).1.clock.tick }, (s.beginAttempt i).2) := rfl
  rw [answered, begun]
  refine ⟨?_, fun still => ?_, fun name => ?_⟩
  · have set : s.sources.set i { source with attempts := n + 1 } =
        s.sources.modify i (Source.spend 1) := by
      rw [List.modify_eq_set_getElem?, found]
      rfl
    rw [← set]
    rfl
  · show s.clock.tick.tick = s.clock
    rw [still, still]
  · show ((s.journal.calls.put source.name _).find? name).getD 0 = _
    by_cases same : name = source.name
    · rw [same, Keyed.find?_put_self, if_pos rfl]
      rfl
    · rw [Keyed.find?_put_other _ _ same, if_neg same]
      rfl

/-- Work that uses nothing but source `i`, which is `source` but for its attempts. How often it
does, and what it comes to, is told by `f` from the attempts that the source has seen. -/
def Uses (i : Nat) (source : Source) (w : Work (Outcome Int)) (f : StateM Nat (Outcome Int)) :
    Prop :=
  ∀ (s : Session) (n : Nat), s.sources[i]? = some { source with attempts := n } →
    Direct w s ∧ ∃ used, f n = ((s.finish w).2, n + used) ∧ Spends i source used s (s.finish w).1

theorem uses_attempt {i : Nat} {source : Source} (plain : source.isPlain = true)
    (call : Callback → Work (Outcome Int)) :
    Uses i source (Work.attempt (Command.workAllWith call) i) (nextAnswer source.answers) := by
  intro s n found
  obtain ⟨noGate, noCommands, _⟩ := Source.isPlain_step plain n
  have begun : (s.answer (.attempt i)).2 = some ⟨source.name, n, source.step n⟩ := by
    show (s.beginAttempt i).2 = _
    simp only [beginAttempt, found]
    rfl
  have ends : Work.begun (Command.workAllWith call) (s.answer (.attempt i)).2 =
      .ask (.record ⟨source.name, n + 1, []⟩) fun _ => .done (source.answers n) := by
    simp only [begun, Work.begun, noGate, noCommands, Work.passGate, Command.workAllWith]
    rfl
  have finished : s.finish (Work.attempt (Command.workAllWith call) i) =
      (s.answer (.attempt i)).1.finish
        (Work.begun (Command.workAllWith call) (s.answer (.attempt i)).2) := by
    rw [Work.attempt_eq]
    rfl
  have other : Request.attempt i ≠ .snapshot := by
    intro same
    cases same
  have notes : Direct (.ask (.record ⟨source.name, n + 1, []⟩) fun _ => .done (source.answers n))
      (s.answer (.attempt i)).1 := by
    refine ⟨?_, trivial⟩
    intro same
    cases same
  rw [finished, Work.attempt_eq, ends]
  exact ⟨⟨other, ends ▸ notes⟩, 1, rfl, spends_attempt found _⟩

theorem Uses.retrying {i : Nat} {source : Source} {w : Work (Outcome Int)}
    {f : StateM Nat (Outcome Int)} (h : Uses i source w f) (tries : Nat) :
    Uses i source (retrying w tries) (retrying f tries) := by
  -- on the tries that are left; only after an error is there another attempt, which finds the
  -- source as the last one left it
  induction tries with
  | zero => exact h
  | succ tries ih =>
    intro s n found
    obtain ⟨direct, used, eq, spends⟩ := h s n found
    obtain ⟨direct', used', eq', spends'⟩ := ih _ _ (spends.found found)
    rw [Work.retrying_succ, finish_bind]
    cases outcome : (s.finish w).2 with
    | failed message =>
      rw [outcome] at eq
      refine ⟨direct_bind direct (by rw [outcome]; exact direct'), used + used', ?_,
        spends.trans spends'⟩
      rw [retrying_succ_of_failed eq, eq', Nat.add_assoc]
      rfl
    | ok item =>
      rw [outcome] at eq
      refine ⟨direct_bind direct (by rw [outcome]; trivial), used, ?_, spends⟩
      exact retrying_succ_of_returned eq nofun tries
    | panicked message =>
      rw [outcome] at eq
      refine ⟨direct_bind direct (by rw [outcome]; trivial), used, ?_, spends⟩
      exact retrying_succ_of_returned eq nofun tries

theorem Uses.withRetries {i : Nat} {source : Source} {w : Work (Outcome Int)}
    {f : StateM Nat (Outcome Int)} (h : Uses i source w f) (retries : List Nat) :
    Uses i source (withRetries w retries) (withRetries f retries) := by
  induction retries generalizing w f with
  | nil => exact h
  | cons tries rest ih => exact ih (h.retrying tries)

/-- A call of a callback comes to what it would come to against its source alone. -/
theorem uses_call {i : Nat} {source : Source} (plain : source.isPlain = true) (depth : Nat)
    (retries : List Nat) :
    Uses i source (Work.call (depth + 1) ⟨i, retries⟩) (attemptsFrom source.answers retries) :=
  (uses_attempt plain _).withRetries retries

end Session

theorem retrying_ne_panicked {f : StateM Nat (Outcome Int)}
    (returns : ∀ n message, (f n).1 ≠ .panicked message) (tries n : Nat) (message : String) :
    (retrying f tries n).1 ≠ .panicked message := by
  induction tries generalizing n with
  | zero => exact returns n message
  | succ tries ih =>
    cases reached : f n with
    | mk outcome m =>
      cases outcome with
      | failed text =>
        rw [retrying_succ_of_failed reached]
        exact ih m
      | ok item =>
        rw [retrying_succ_of_returned reached nofun]
        exact nofun
      | panicked text => exact absurd (congrArg Prod.fst reached) (returns n text)

theorem withRetries_ne_panicked {f : StateM Nat (Outcome Int)}
    (returns : ∀ n message, (f n).1 ≠ .panicked message) (retries : List Nat) (n : Nat)
    (message : String) : (withRetries f retries n).1 ≠ .panicked message := by
  induction retries generalizing f with
  | nil => exact returns n message
  | cons tries rest ih => exact ih (retrying_ne_panicked returns tries)

theorem Source.attemptsFrom_ne_panicked {s : Source} (plain : s.isPlain = true)
    (retries : List Nat) (n : Nat) (message : String) :
    (attemptsFrom s.answers retries n).1 ≠ .panicked message :=
  withRetries_ne_panicked (fun n message => s.answers_ne_panicked plain n message) retries n message

/-! ## Refreshes -/

/-- What a refresh has to settle after a call that did not panic. -/
def Outcome.result : Outcome Int → Except String Int
  | .ok item => .ok item
  | .failed message => .error message
  | .panicked message => .error message

/-- What a refresh has yet to do after it has called the callback of a pair. -/
def Work.afterCall (call : Callback → Work (Outcome Int)) (key : String) (callback : Callback)
    (rest : List (String × Callback)) (summary : Summary) :
    Outcome Int → Work (Except String Summary)
  | .panicked message => .done (.error message)
  | .failed message => .ask (.settle key callback (.error message)) fun settled =>
      refreshRest call rest (summary.count settled)
  | .ok item => .ask (.settle key callback (.ok item)) fun settled =>
      refreshRest call rest (summary.count settled)

theorem Work.refreshRest_cons (call : Callback → Work (Outcome Int)) (key : String)
    (callback : Callback) (rest : List (String × Callback)) (summary : Summary) :
    refreshRest call ((key, callback) :: rest) summary =
      (call callback).bind (afterCall call key callback rest summary) := by
  refine congrArg (bind (call callback)) (funext fun outcome => ?_)
  cases outcome <;> rfl

theorem Work.afterCall_eq (call : Callback → Work (Outcome Int)) (key : String)
    (callback : Callback) (rest : List (String × Callback)) (summary : Summary)
    {outcome : Outcome Int} (returns : ∀ message, outcome ≠ .panicked message) :
    afterCall call key callback rest summary outcome =
      .ask (.settle key callback outcome.result) fun settled =>
        refreshRest call rest (summary.count settled) := by
  cases outcome with
  | panicked message => exact absurd rfl (returns message)
  | ok item => rfl
  | failed message => rfl

/-- What the callback of a pair of a snapshot comes to: how often it uses its source, which has
this name, and with what result. -/
structure Fetched where
  key : String
  callback : Callback
  name : String
  used : Nat
  result : Except String Int

/-- Everything that a refresh changes. -/
structure Books where
  cache : Cache Int
  sources : List Source
  timesCalled : String → Nat
  summary : Summary

namespace Books

/-- One more callback has come to a result, which is settled at `now`. -/
def enter (now : Instant) (b : Books) (f : Fetched) : Books where
  cache := (b.cache.settle now f.key f.callback f.result).1
  sources := b.sources.modify f.callback.source (Source.spend f.used)
  timesCalled name := b.timesCalled name + if name = f.name then f.used else 0
  summary := b.summary.count (b.cache.settle now f.key f.callback f.result).2

/-- All of them have, one after the other. -/
def enterAll (now : Instant) (b : Books) (fs : List Fetched) : Books := fs.foldl (enter now) b

theorem count_comm (s : Summary) (a b : Settled) :
    (s.count a).count b = (s.count b).count a := by
  cases a <;> cases b <;> rfl

theorem modify_spend_comm (sources : List Source) (i j m n : Nat) :
    (sources.modify i (Source.spend m)).modify j (Source.spend n) =
      (sources.modify j (Source.spend n)).modify i (Source.spend m) := by
  by_cases same : i = j
  · subst same
    rw [List.modify_modify_eq, List.modify_modify_eq, Source.spend_spend, Source.spend_spend,
      Nat.add_comm]
  · exact List.modify_modify_ne _ _ _ same

/-- Results for two keys may be settled in either order. -/
theorem enter_comm (now : Instant) (b : Books) {f g : Fetched} (ne : f.key ≠ g.key) :
    (b.enter now f).enter now g = (b.enter now g).enter now f := by
  simp only [enter, Cache.settle_settle_snd]
  rw [Books.mk.injEq]
  exact ⟨b.cache.settle_comm now _ _ _ _ ne, modify_spend_comm _ _ _ _ _,
    funext fun name => Nat.add_right_comm _ _ _, count_comm _ _ _⟩

theorem enterAll_perm (now : Instant) (b : Books) {fs gs : List Fetched} (order : fs.Perm gs)
    (apart : (fs.map Fetched.key).Nodup) : b.enterAll now fs = b.enterAll now gs := by
  refine order.foldl_eq' (fun f hf g hg c => ?_) b
  by_cases same : f = g
  · rw [same]
  · refine c.enter_comm now fun key => same ?_
    exact List.inj_on_of_nodup_map apart hf hg key

/-- The books of one refresh are those of another, but for the expiry of the entries; if `exact`
holds, they are the same. -/
structure Like (exact : Prop) (b c : Books) : Prop where
  timeless : { b with cache := b.cache.timeless } = { c with cache := c.cache.timeless }
  same : exact → b = c

theorem Like.refl (exact : Prop) (b : Books) : Like exact b b := ⟨rfl, fun _ => rfl⟩

theorem Like.symm {exact : Prop} {b c : Books} (h : Like exact b c) : Like exact c b :=
  ⟨h.timeless.symm, fun e => (h.same e).symm⟩

theorem Like.trans {exact : Prop} {b c d : Books} (h : Like exact b c) (h' : Like exact c d) :
    Like exact b d :=
  ⟨h.timeless.trans h'.timeless, fun e => (h.same e).trans (h'.same e)⟩

theorem Like.mono {exact exact' : Prop} {b c : Books} (h : Like exact b c)
    (only : exact' → exact) : Like exact' b c :=
  ⟨h.timeless, fun e => h.same (only e)⟩

theorem Like.enter {exact : Prop} {now now' : Instant} {b c : Books} (h : Like exact b c)
    (instant : exact → now = now') (f : Fetched) :
    Like exact (b.enter now f) (c.enter now' f) := by
  have fields := h.timeless
  rw [Books.mk.injEq] at fields
  obtain ⟨cache, sources, calls, summary⟩ := fields
  obtain ⟨entries, settled⟩ := Cache.settle_timeless cache now now' f.key f.callback f.result
  refine ⟨?_, fun e => by rw [h.same e, instant e]⟩
  rw [Books.mk.injEq]
  refine ⟨entries, ?_, ?_, ?_⟩
  · simp only [Books.enter, sources]
  · simp only [Books.enter, calls]
  · simp only [Books.enter, summary, settled]

theorem Like.enterAll {exact : Prop} {now now' : Instant} {b c : Books} (h : Like exact b c)
    (instant : exact → now = now') (fs : List Fetched) :
    Like exact (b.enterAll now fs) (c.enterAll now' fs) := by
  induction fs generalizing b c with
  | nil => exact h
  | cons f rest ih => exact ih (h.enter instant f)

end Books

namespace Session

/-- What a refresh changes of a session. -/
def books (s : Session) (summary : Summary) : Books :=
  ⟨s.cache, s.sources, s.timesCalled, summary⟩

/-- What the callback of a pair comes to, which keeps to itself, if it is called in session `s`. -/
def fetched (s : Session) (pair : String × Callback) : Fetched :=
  match s.sources[pair.2.source]? with
  | none => ⟨pair.1, pair.2, "", 0, .error ""⟩
  | some source =>
    let reached := attemptsFrom source.answers pair.2.retries source.attempts
    ⟨pair.1, pair.2, source.name, reached.2 - source.attempts, reached.1.result⟩

/-- The callbacks of these pairs keep to themselves, and no two of them share a source. -/
structure Fits (s : Session) (pairs : List (String × Callback)) : Prop where
  apart : (pairs.map fun pair => pair.2.source).Nodup
  plain : ∀ pair ∈ pairs, ∃ source, s.sources[pair.2.source]? = some source ∧
    source.isPlain = true

/-- What becomes of session `s` in the rest of a refresh of pairs whose callbacks keep to
themselves, begun with a summary. -/
structure Refreshed (s : Session) (pairs : List (String × Callback)) (summary : Summary)
    (w : Work (Except String Summary)) : Prop where
  direct : Direct w s
  books : ∃ told, (s.finish w).2 = .ok told ∧ Books.Like (s.clock.tick = s.clock)
    ((s.finish w).1.books told) ((s.books summary).enterAll s.now (pairs.map s.fetched))
  frame : (s.finish w).1.muted = { s.muted with
    cache := (s.finish w).1.cache
    sources := (s.finish w).1.sources
    clock := (s.finish w).1.clock }
  steady : s.clock.tick = s.clock → (s.finish w).1.clock = s.clock

/-- To settle a result changes the cache, and nothing else but what is reported. -/
theorem muted_answer_settle (s : Session) (key : String) (callback : Callback)
    (result : Except String Int) :
    (s.answer (.settle key callback result)).1.muted = { s.muted with
      cache := (s.cache.settle s.now key callback result).1
      clock := s.clock.tick } := by
  cases result <;> rfl

theorem sources_answer_settle (s : Session) (key : String) (callback : Callback)
    (result : Except String Int) :
    (s.answer (.settle key callback result)).1.sources = s.sources := by
  cases result <;> rfl

theorem timesCalled_answer_settle (s : Session) (key : String) (callback : Callback)
    (result : Except String Int) :
    (s.answer (.settle key callback result)).1.timesCalled = s.timesCalled := by
  cases result <;> rfl

/-- Session `t` after a call and session `u` after its result was settled are at the same instant
as session `s` before. -/
structure Stays (s t u : Session) : Prop where
  called : t.now = s.now
  settled : u.now = s.now
  clock : u.clock = s.clock

/-- A clock that does not go on by itself does not go on during a call and its settlement. -/
theorem Spends.settled_still {i used : Nat} {source : Source} {s t : Session}
    (h : Spends i source used s t) (key : String) (callback : Callback)
    (result : Except String Int) (still : s.clock.tick = s.clock) :
    Stays s t (t.answer (.settle key callback result)).1 := by
  have muted := t.muted_answer_settle key callback result
  have called := h.steady still
  have clock : (t.answer (.settle key callback result)).1.clock = s.clock := by
    have settled := congrArg Session.clock muted
    refine settled.trans ?_
    rw [called, still]
  have elapsed : t.elapsed = s.elapsed := by
    have same := congrArg Session.elapsed h.same
    exact same
  have elapsed' : (t.answer (.settle key callback result)).1.elapsed = s.elapsed := by
    have same := congrArg Session.elapsed muted
    exact same.trans elapsed
  exact ⟨by rw [now, now, called, elapsed], by rw [now, now, clock, elapsed'], clock⟩

theorem fetched_eq {s : Session} {key : String} {callback : Callback} {source : Source}
    {outcome : Outcome Int} {used : Nat} (found : s.sources[callback.source]? = some source)
    (reached : attemptsFrom source.answers callback.retries source.attempts =
      (outcome, source.attempts + used)) :
    s.fetched (key, callback) = ⟨key, callback, source.name, used, outcome.result⟩ := by
  simp only [fetched, found, reached, Nat.add_sub_cancel_left]

theorem fetched_congr {s t : Session} {pair : String × Callback}
    (same : t.sources[pair.2.source]? = s.sources[pair.2.source]?) :
    t.fetched pair = s.fetched pair := by
  rw [fetched, fetched, same]

/-- The session after one pair: its source was used, and the result is settled. -/
theorem books_answer_settle {s t : Session} (key : String) {callback : Callback} {source : Source}
    {outcome : Outcome Int} {used : Nat} (found : s.sources[callback.source]? = some source)
    (reached : attemptsFrom source.answers callback.retries source.attempts =
      (outcome, source.attempts + used))
    (spends : Spends callback.source source used s t) (summary : Summary) :
    (t.answer (.settle key callback outcome.result)).1.books
        (summary.count (t.answer (.settle key callback outcome.result)).2) =
      (s.books summary).enter t.now (s.fetched (key, callback)) := by
  obtain ⟨cache, settled⟩ := t.answer_settle key callback outcome.result
  rw [fetched_eq found reached, books, cache, settled, sources_answer_settle,
    timesCalled_answer_settle, spends.cache, spends.sources, funext spends.calls]
  rfl

/-- The refresh of a pair and of the others after it. -/
theorem Refreshed.cons {s t : Session} {call : Callback → Work (Outcome Int)} {key : String}
    {callback : Callback} {rest : List (String × Callback)} {summary : Summary} {source : Source}
    {outcome : Outcome Int} {used : Nat} (found : s.sources[callback.source]? = some source)
    (reached : attemptsFrom source.answers callback.retries source.attempts =
      (outcome, source.attempts + used)) (direct : Direct (call callback) s)
    (finished : s.finish (call callback) = (t, outcome))
    (returns : ∀ message, outcome ≠ .panicked message)
    (spends : Spends callback.source source used s t)
    (others : ∀ pair ∈ rest,
      (t.answer (.settle key callback outcome.result)).1.fetched pair = s.fetched pair)
    (h : Refreshed (t.answer (.settle key callback outcome.result)).1 rest
      (summary.count (t.answer (.settle key callback outcome.result)).2)
      (Work.refreshRest call rest
        (summary.count (t.answer (.settle key callback outcome.result)).2))) :
    Refreshed s ((key, callback) :: rest) summary
      (Work.refreshRest call ((key, callback) :: rest) summary) := by
  have goes := Work.afterCall_eq call key callback rest summary returns
  have entered := books_answer_settle key found reached spends summary
  have muted := t.muted_answer_settle key callback outcome.result
  have settles : Direct (.ask (.settle key callback outcome.result) fun settled =>
      Work.refreshRest call rest (summary.count settled)) t := ⟨nofun, h.direct⟩
  have ends : s.finish (Work.refreshRest call ((key, callback) :: rest) summary) =
      (t.answer (.settle key callback outcome.result)).1.finish (Work.refreshRest call rest
        (summary.count (t.answer (.settle key callback outcome.result)).2)) := by
    rw [Work.refreshRest_cons, finish_bind, finished, goes]
    rfl
  have instants := spends.settled_still key callback outcome.result
  generalize t.answer (.settle key callback outcome.result) = settled at *
  obtain ⟨u, settled⟩ := settled
  dsimp only at *
  obtain ⟨told, result, like⟩ := h.books
  rw [← ends] at result like
  have first : Books.Like (s.clock.tick = s.clock) (u.books (summary.count settled))
      ((s.books summary).enter s.now (s.fetched (key, callback))) := by
    rw [entered]
    exact (Books.Like.refl _ _).enter (fun still => (instants still).called) _
  have fetches : rest.map u.fetched = rest.map s.fetched := List.map_congr_left others
  rw [fetches] at like
  have still_u : s.clock.tick = s.clock → u.clock.tick = u.clock := by
    intro still
    rw [(instants still).clock, still]
  refine ⟨?_, ⟨told, result, ?_⟩, ?_, fun still => ?_⟩
  · rw [Work.refreshRest_cons]
    refine direct_bind direct ?_
    rw [finished]
    dsimp only
    rw [goes]
    exact settles
  · exact (like.mono still_u).trans (first.enterAll (fun still => (instants still).settled) _)
  · rw [ends, h.frame, muted, spends.same]
  · rw [ends, h.steady (still_u still), (instants still).clock]

theorem refreshed_plain {s : Session} {pairs : List (String × Callback)} (fits : s.Fits pairs)
    (depth : Nat) (summary : Summary) :
    Refreshed s pairs summary (Work.refreshRest (Work.call (depth + 1)) pairs summary) := by
  -- on the pairs that are left; both the session and the summary move on with every pair
  induction pairs generalizing s summary with
  | nil => exact ⟨trivial, ⟨summary, rfl, .refl _ _⟩, rfl, fun _ => rfl⟩
  | cons pair rest ih =>
    obtain ⟨key, callback⟩ := pair
    obtain ⟨source, found, plain⟩ := fits.plain _ List.mem_cons_self
    obtain ⟨direct, used, reached, spends⟩ :=
      uses_call plain depth callback.retries s source.attempts found
    have returns : ∀ message,
        (s.finish (Work.call (depth + 1) callback)).2 ≠ .panicked message := by
      intro message
      have kept := source.attemptsFrom_ne_panicked plain callback.retries source.attempts message
      rw [reached] at kept
      exact kept
    have apart := List.nodup_cons.1 fits.apart
    have same : ∀ pair ∈ rest, ∀ result,
        ((s.finish (Work.call (depth + 1) callback)).1.answer
          (.settle key callback result)).1.sources[pair.2.source]? =
        s.sources[pair.2.source]? := by
      intro pair member result
      have ne : callback.source ≠ pair.2.source := by
        intro eq
        exact apart.1 (List.mem_map.2 ⟨pair, member, eq.symm⟩)
      rw [sources_answer_settle, spends.sources]
      exact List.getElem?_modify_ne _ _ ne
    have fits' : ((s.finish (Work.call (depth + 1) callback)).1.answer (.settle key callback
        (s.finish (Work.call (depth + 1) callback)).2.result)).1.Fits rest := by
      refine ⟨apart.2, fun pair member => ?_⟩
      rw [same pair member]
      exact fits.plain pair (List.mem_cons_of_mem _ member)
    exact .cons found reached direct rfl returns spends
      (fun pair member => fetched_congr (same pair member _)) (ih fits' _)

end Session

end WarmCache
