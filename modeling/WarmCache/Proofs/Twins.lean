import WarmCache.Proofs.Quiet
import WarmCache.Proofs.Rounds

/-!
# Twin sessions

What callbacks see of the background, the answer to one of their commands, is only noted: it does
not bear on the requests that they make. So work that begins in two sessions which differ in
their tasks, and in nothing else that counts, makes the same requests in both, as long as it is
quiet, and it leaves two sessions that again differ in their tasks only. `Work.Agree` says so of
one piece of work, or of two of them that make the same requests, and is proved piece by piece.

Results:
1. `bare_answer`: a request makes the same of two sessions that differ in their tasks only.
2. `Command.agree_work`, `Work.agree_wholeRefresh`: quiet commands and refreshes do so, and no gate
   holds them up.
-/

namespace WarmCache

/-- A note without the answers in it. -/
def TraceRecord.bare (r : TraceRecord) : TraceRecord := .mk r.name r.number []

/-- The calls of callbacks and the ends of their attempts, without the answers that were noted
and without what was reported. -/
def Journal.bare (j : Journal) : Journal := ⟨j.calls, j.trace.map TraceRecord.bare, []⟩

theorem Journal.bare_bare (j : Journal) : j.bare.bare = j.bare := by
  simp only [bare, List.map_map]
  rfl

theorem Journal.bare_countCall (j : Journal) (name : String) :
    (j.bare.countCall name).bare = (j.countCall name).bare :=
  congrArg (fun k : Journal => { k with calls := (j.countCall name).calls }) j.bare_bare

theorem Journal.bare_note (j : Journal) (record : TraceRecord) :
    (j.bare.note record).bare = (j.note record).bare :=
  congrArg (fun k : Journal => { k with trace := record.bare :: k.trace }) j.bare_bare

theorem Cache.get_claim {α : Type} (c : Cache α) (taken : Bool) (key : String) :
    (c.claim taken).get key = ((c.get key).1.claim taken, (c.get key).2) := by
  unfold get
  split <;> next found =>
    have found' : c.entries.find? key = _ := found
    rw [found']
    rfl

theorem Cache.settle_claim {α : Type} (c : Cache α) (taken : Bool) (now : Instant) (key : String)
    (callback : Callback) (result : Except String α) :
    ((c.claim taken).settle now key callback result).2 = (c.settle now key callback result).2 := by
  cases result with
  | error message => rfl
  | ok item =>
    cases hc : c.entries.contains key with
    | true =>
      have hc' : (c.claim taken).entries.contains key = true := hc
      rw [settle_ok_of_contains hc, settle_ok_of_contains hc']
    | false =>
      have hc' : (c.claim taken).entries.contains key = false := hc
      rw [settle_ok_of_not_contains hc, settle_ok_of_not_contains hc']

namespace Session

/-- A session without its background, and without what is noted or reported of it. -/
def bare (s : Session) : Session :=
  { s with
    cache := s.cache.claim false
    hasRuntime := false
    journal := s.journal.bare
    background := .empty }

/-! ## Requests -/

theorem bare_bare (s : Session) : s.bare.bare = s.bare := by
  simp only [bare, Journal.bare_bare]
  rfl

theorem bare_applyAll (s : Session) (ops : List (CacheOp Int)) (held : Keyed (Entry Int)) :
    ({ s with cache := s.cache.applyAll ops, held } : Session).bare =
      ({ s.bare with cache := s.bare.cache.applyAll ops, held } : Session).bare := by
  have cache : (s.bare.cache.applyAll ops).claim false = (s.cache.applyAll ops).claim false := by
    show ((s.cache.claim false).applyAll ops).claim false = _
    rw [Cache.applyAll_claim]
    rfl
  simp only [bare, Journal.bare_bare] at cache ⊢
  rw [cache]

theorem bare_performStore (s : Session) (action : StoreAction) :
    (s.performStore action).1.bare = (s.bare.performStore action).1.bare := by
  cases action with
  | get key => exact s.bare_applyAll [.get key] s.held
  | getItem key => exact s.bare_applyAll [.get key] s.held
  | delete key => exact s.bare_applyAll [.delete key] s.held
  | flush => exact s.bare_applyAll [.flush s.now] s.held
  | setMany stem first count =>
    simp only [performStore, setMany_fst]
    exact s.bare_applyAll _ s.held
  | getMany stem first count =>
    simp only [performStore, getMany_fst]
    exact s.bare_applyAll _ s.held
  | deleteMany stem first count =>
    simp only [performStore, foldl_delete]
    exact s.bare_applyAll ((numberedKeys stem first count).map fun key => .delete key.1) s.held
  | showEntry key => exact s.bare_applyAll [.get key] s.held
  | showExpiry key => exact s.bare_applyAll [.get key] s.held
  | hold key slot =>
    have same : (s.bare.cache.get key).2 = (s.cache.get key).2 := by
      show ((s.cache.claim false).get key).2 = _
      rw [Cache.get_claim]
    simp only [performStore, get, same]
    split
    · exact s.bare_applyAll [.get key] (s.held.put slot _)
    · exact s.bare_applyAll [.get key] s.held
  | held slot =>
    have same : s.bare.held = s.held := rfl
    simp only [performStore, same]
    split <;> exact s.bare_bare.symm
  | heldExpiredAt slot moment =>
    have same : s.bare.held = s.held := rfl
    simp only [performStore, same]
    split <;> exact s.bare_bare.symm
  | _ => exact s.bare_bare.symm

theorem bare_performPolicy (s : Session) (action : PolicyAction) :
    (s.performPolicy action).1.bare = (s.bare.performPolicy action).1.bare := by
  have same : s.bare.clock = s.clock := rfl
  have moved : ∀ clock,
      ({ s with clock } : Session).bare = ({ s.bare with clock } : Session).bare :=
    fun clock => congrArg (fun t : Session => { t with clock }) s.bare_bare.symm
  cases action with
  | advance d =>
    simp only [performPolicy, same]
    split
    · exact moved _
    · exact s.bare_bare.symm
  | setClock moment =>
    simp only [performPolicy, same]
    split
    · exact moved _
    · exact s.bare_bare.symm
  | _ => exact s.bare_bare.symm

/-- Tasks come and go beside everything else. -/
theorem bare_performTask (s : Session) (action : TaskAction) :
    (s.performTask action).1.bare = s.bare := by
  rcases s.performTask_cases action with ⟨_, eq, _⟩ | ⟨_, _, _, _, _, start, eq, _⟩
  · rw [eq]
    rfl
  · obtain ⟨_, _, _, _, rfl⟩ := startTask_eq_ok_iff.1 start
    rw [eq]
    rfl

theorem bare_performGate (s : Session) (action : GateAction) :
    (s.performGate action).1.bare = s.bare := by
  obtain ⟨_, eq, _⟩ := s.performGate_frame action
  rw [eq]
  rfl

/-- The journal of a session without its background. -/
theorem bare_journal (s : Session) {journal journal' : Journal}
    (same : journal.bare = journal'.bare) :
    ({ s with journal } : Session).bare = ({ s.bare with journal := journal' } : Session).bare := by
  simp only [bare, same]
  rfl

theorem build_bare (s : Session) (item : Int) (settings : List Build) :
    s.bare.build item settings =
      ((s.build item settings).1.bare, (s.build item settings).2) :=
  build_map (f := bare) (fun _ => rfl) (fun _ _ => rfl) (fun _ _ => rfl) (fun _ => rfl) s item
    settings

theorem bare_perform (s : Session) (action : Action) :
    (s.perform action).1.bare = (s.bare.perform action).1.bare := by
  cases action with
  | set key item settings =>
    show (Session.set (s.build item settings).1 key (s.build item settings).2).1.bare =
      (Session.set (s.bare.build item settings).1 key (s.bare.build item settings).2).1.bare
    rw [build_bare]
    exact (s.build item settings).1.bare_applyAll
      [.set (s.build item settings).1.now key (s.build item settings).2] _
  | showValue item settings =>
    show (s.build item settings).1.bare = (s.bare.build item settings).1.bare
    rw [build_bare, bare_bare]
  | store action => exact s.bare_performStore action
  | policy action => exact s.bare_performPolicy action
  | note action =>
    cases action with
    | calls => exact s.bare_bare.symm
    | trace sorted => exact s.bare_journal rfl
    | logs sorted => exact s.bare_journal s.journal.bare_bare.symm
  | channel action =>
    exact congrArg (fun t : Session => { t with stops := (s.stops.perform action).1 })
      s.bare_bare.symm
  | gate action =>
    show (s.performGate action).1.bare = (s.bare.performGate action).1.bare
    rw [bare_performGate, bare_performGate, bare_bare]
  | task action =>
    show (s.performTask action).1.bare = (s.bare.performTask action).1.bare
    rw [bare_performTask, bare_performTask, bare_bare]

theorem bare_settleOutcome (s : Session) (key : String) (callback : Callback)
    (result : Except String Int) :
    (s.settleOutcome key callback result).1.bare =
      (s.bare.settleOutcome key callback result).1.bare := by
  have settled := s.bare_applyAll [.settle s.now key callback result] s.held
  cases result with
  | error message => exact settled
  | ok item => exact settled

theorem bare_beginAttempt (s : Session) (index : Nat) :
    (s.beginAttempt index).1.bare = (s.bare.beginAttempt index).1.bare ∧
      (s.beginAttempt index).2 = (s.bare.beginAttempt index).2 := by
  have same : s.bare.sources = s.sources := rfl
  simp only [beginAttempt, same]
  split
  · exact ⟨s.bare_bare.symm, rfl⟩
  · next source found =>
    let begun : Source := { source with attempts := source.attempts + 1 }
    have counted := bare_journal { s with sources := s.sources.set index begun }
      (s.journal.bare_countCall source.name).symm
    exact ⟨counted, rfl⟩

/-- A request makes the same of two sessions that differ in their tasks only. -/
theorem bare_answer (s : Session) (q : Request) :
    (s.answer q).1.bare = (s.bare.answer q).1.bare := by
  have ticked : ∀ {t t' : Session}, t.bare = t'.bare →
      ({ t with clock := t.clock.tick } : Session).bare =
        ({ t' with clock := t'.clock.tick } : Session).bare :=
    fun same => congrArg (fun u : Session => { u with clock := u.clock.tick }) same
  cases q with
  | act action => exact ticked (s.bare_perform action)
  | snapshot => exact ticked s.bare_bare.symm
  | settle key callback result => exact ticked (s.bare_settleOutcome key callback result)
  | attempt source => exact ticked (s.bare_beginAttempt source).1
  | record note =>
    exact ticked (s.bare_journal (s.journal.bare_note note).symm)
  | heldCallback slot => exact ticked s.bare_bare.symm

/-! ## Twins -/

/-- There is no background task, none can be started, and no background refresh. -/
structure Idle (s : Session) : Prop where
  members : s.background.members = []
  threads : s.background.threads = []
  runtime : s.hasRuntime = false

theorem Idle.answer {own : Bool} {s : Session} (h : s.Idle) {q : Request}
    (quiet : q.isQuiet own = true) : (s.answer q).1.Idle := by
  have minds := s.minds_answer quiet
  refine ⟨?_, minds.threads.trans h.threads, minds.runtime.trans h.runtime⟩
  rcases (s.answered q).tasks with ⟨same, _⟩ | ⟨_, _, _, _, start, _⟩
  · rw [Background.standings, Background.standings, h.members] at same
    exact List.map_eq_nil_iff.1 same
  · obtain ⟨_, _, runtime, _⟩ := startTask_eq_ok_iff.1 start
    rw [h.runtime] at runtime
    cases runtime

/-- Two sessions differ in their background tasks, of which the second has none, and in nothing
else but what was reported and which answers were noted. Time is virtual and callbacks are
quiet. -/
structure Twins (s d : Session) : Prop where
  bare : s.bare = d.bare
  steady : ∀ reading, s.clock ≠ .system reading
  quiet : s.KeepsQuiet
  idle : d.Idle

theorem steady_answer {s : Session} (steady : ∀ reading, s.clock ≠ .system reading) (q : Request) :
    ∀ reading, (s.answer q).1.clock ≠ .system reading := by
  intro reading real
  rcases (s.answered q).clock.2 with same | ⟨_, _, _, manual⟩
  · cases clock : s.clock with
    | system reading => exact steady reading clock
    | manual clock' =>
      rw [clock, real] at same
      cases same
    | running start =>
      rw [clock, real] at same
      cases same
  · cases real.symm.trans manual

namespace Twins

variable {own : Bool} {s d : Session}

theorem answer (h : Twins s d) {q : Request} (quiet : q.isQuiet own = true) :
    Twins (s.answer q).1 (d.answer q).1 := by
  refine ⟨?_, steady_answer h.steady q, quiet_sources_answer h.quiet quiet, h.idle.answer quiet⟩
  rw [bare_answer s, h.bare, ← bare_answer]

/-- It does not matter which answers are noted. -/
theorem record (h : Twins s d) {note note' : TraceRecord} (same : note.bare = note'.bare) :
    Twins (s.answer (.record note)).1 (d.answer (.record note')).1 := by
  have quiet : ∀ note, Request.isQuiet false (.record note) = true := fun _ => rfl
  have one := h.answer (quiet note)
  refine ⟨one.bare.trans ?_, one.steady, one.quiet, h.idle.answer (quiet note')⟩
  have noted : (d.journal.note note).bare = (d.journal.note note').bare := by
    simp only [Journal.note, Journal.bare, List.map_cons, same]
  exact congrArg (fun journal => { (d.answer (.record note)).1.bare with journal }) noted

/-- Replies that steer the work are the same. -/
theorem refreshable (h : Twins s d) : s.cache.refreshable = d.cache.refreshable := by
  show s.bare.cache.refreshable = d.bare.cache.refreshable
  rw [h.bare]

theorem held (h : Twins s d) : s.held = d.held := by
  show s.bare.held = d.bare.held
  rw [h.bare]

theorem settled (h : Twins s d) (key : String) (callback : Callback) (result : Except String Int) :
    (s.settleOutcome key callback result).2 = (d.settleOutcome key callback result).2 := by
  have claimed : ∀ t : Session, (t.settleOutcome key callback result).2 =
      (t.bare.cache.settle t.bare.now key callback result).2 := by
    intro t
    refine Eq.trans ?_ (t.cache.settle_claim false t.now key callback result).symm
    cases result <;> rfl
  rw [claimed, claimed, h.bare]

theorem begun (h : Twins s d) (source : Nat) :
    (s.beginAttempt source).2 = (d.beginAttempt source).2 := by
  rw [(s.bare_beginAttempt source).2, (d.bare_beginAttempt source).2, h.bare]

end Twins

/-- The step of an attempt is quiet. -/
theorem isQuiet_begun {s : Session} (quiet : s.KeepsQuiet) {source : Nat} {begun : Attempt}
    (h : (s.beginAttempt source).2 = some begun) : begun.step.isQuiet = true := by
  unfold beginAttempt at h
  split at h
  · cases h
  · next found =>
    obtain rfl := Option.some.inj h
    exact Source.isQuiet_step (quiet _ (List.mem_of_getElem? found)) _

end Session

/-! ## Work that makes the same requests -/

namespace Work

open Session

variable {α β γ δ : Type} {own : Bool}

/-- Work that begins in `s` and work that begins in its twin `d` end in twins, and with results
that are related by `R`. The former minds the tasks, and no gate holds it up. -/
structure Agrees (own : Bool) (R : α → β → Prop) (w : Work α) (w' : Work β) (s d : Session) :
    Prop where
  twins : Twins (s.finish w).1 (d.finish w').1
  result : R (s.finish w).2 (d.finish w').2
  minds : Minds own s (s.finish w).1
  straight : s.advance w = ((s.finish w).1, .finished (s.finish w).2)

/-- The two agree, whichever twins they begin in. -/
def Agree (own : Bool) (R : α → β → Prop) (w : Work α) (w' : Work β) : Prop :=
  ∀ s d, Twins s d → w.Agrees own R w' s d

/-- Answers to commands are only noted, so they may differ. -/
def Noted {α β : Type} (_ : α) (_ : β) : Prop := True

theorem advance_bind {w : Work α} {f : α → Work β} {s t : Session} {a : α}
    (h : s.advance w = (t, .finished a)) : s.advance (w.bind f) = t.advance (f a) := by
  induction w generalizing s with
  | done b =>
    obtain ⟨rfl, same⟩ := Prod.mk.inj h
    obtain rfl := Progress.finished.inj same
    rfl
  | ask q next ih => exact ih _ h
  | gate name rest ih =>
    unfold advance at h
    split at h
    · next opened =>
      show (if s.background.openGates.contains name then s.advance (rest.bind f)
        else (s, .waiting name (rest.bind f))) = t.advance (f a)
      rw [if_pos opened, ih h]
    · cases h

namespace Agree

variable {R : α → β → Prop} {Q : γ → δ → Prop} {w : Work α} {w' : Work β}

theorem done {a : α} {b : β} (h : R a b) : Agree own R (Work.done a) (Work.done b) :=
  fun s _ twins => ⟨twins, h, .refl own s, rfl⟩

theorem bind (h : Agree own R w w') {f : α → Work γ} {f' : β → Work δ}
    (next : ∀ a b, R a b → Agree own Q (f a) (f' b)) :
    Agree own Q (w.bind f) (w'.bind f') := by
  intro s d twins
  have first := h s d twins
  have second := next _ _ first.result _ _ first.twins
  refine ⟨?_, ?_, ?_, ?_⟩
  · rw [finish_bind, finish_bind]
    exact second.twins
  · rw [finish_bind, finish_bind]
    exact second.result
  · rw [finish_bind]
    exact first.minds.trans second.minds
  · rw [advance_bind first.straight, finish_bind]
    exact second.straight

theorem own_of (h : Agree false R w w') : Agree own R w w' :=
  fun s d twins =>
    ⟨(h s d twins).twins, (h s d twins).result, (h s d twins).minds.own_of own,
      (h s d twins).straight⟩

/-- Requests agree that make twins again and have related replies. -/
theorem request (q q' : Request) {R : Reply q → Reply q' → Prop} (quiet : q.isQuiet own = true)
    (twins : ∀ s d, Twins s d → Twins (s.answer q).1 (d.answer q').1)
    (replies : ∀ s d, Twins s d → R (s.answer q).2 (d.answer q').2) :
    Agree own R (Work.request q) (Work.request q') :=
  fun s d h => ⟨twins s d h, replies s d h, s.minds_answer quiet, rfl⟩

theorem action {action : Action} (quiet : action.isQuiet own = true) :
    Agree own Noted (Work.request (.act action)) (Work.request (.act action)) :=
  request _ _ quiet (fun _ _ h => h.answer (q := .act action) quiet) fun _ _ _ => trivial

theorem record {note note' : TraceRecord} (same : note.bare = note'.bare) :
    Agree own Eq (Work.request (.record note)) (Work.request (.record note')) :=
  request _ _ rfl (fun _ _ h => h.record same) fun _ _ _ => rfl

/-- A request whose reply is the same in twins. -/
theorem steering {q : Request} (quiet : q.isQuiet own = true)
    (replies : ∀ s d, Twins s d → (s.answer q).2 = (d.answer q).2) :
    Agree own Eq (Work.request q) (Work.request q) :=
  request _ _ quiet (fun _ _ h => h.answer quiet) replies

end Agree

/-! ## Calls of callbacks -/

/-- An attempt comes to the same outcome, whatever its commands are answered. -/
theorem agree_attempt {runAll : List Command → Work (List Answer)}
    (run : ∀ commands, Command.areQuiet false commands = true →
      Agree false Noted (runAll commands) (runAll commands)) (source : Nat) :
    Agree false Eq (attempt runAll source) (attempt runAll source) := by
  have quiet : Request.isQuiet false (.attempt source) = true := rfl
  have begins : Agree false (fun a b => a = b ∧ ∀ begun, a = some begun → begun.step.isQuiet = true)
      (Work.request (.attempt source)) (Work.request (.attempt source)) :=
    .request (.attempt source) (.attempt source) quiet (fun _ _ h => h.answer quiet) fun s d h =>
      ⟨h.begun source, fun _ begun => isQuiet_begun h.quiet begun⟩
  refine begins.bind fun a b same => ?_
  obtain ⟨rfl, quiet⟩ := same
  cases a with
  | none => exact .done rfl
  | some begun =>
    obtain ⟨noGate, commands⟩ := Step.isQuiet_iff.1 (quiet begun rfl)
    have pass : Agree false Eq (passGate begun.step.gate) (passGate begun.step.gate) := by
      rw [noGate]
      exact .done rfl
    refine pass.bind fun _ _ _ => (run _ commands).bind fun inner inner' _ => ?_
    have noted : Agree false Eq (Work.request (.record ⟨begun.name, begun.number + 1, inner⟩))
        (Work.request (.record ⟨begun.name, begun.number + 1, inner'⟩)) := .record rfl
    exact noted.bind fun _ _ _ => .done rfl

theorem agree_retrying {w : Work (Outcome Int)} (h : Agree false Eq w w) (n : Nat) :
    Agree false Eq (retrying w n) (retrying w n) := by
  induction n with
  | zero => exact h
  | succ n ih =>
    refine h.bind fun a b same => ?_
    subst same
    cases a with
    | ok item => exact .done rfl
    | failed message => exact ih
    | panicked message => exact .done rfl

theorem agree_withRetries {w : Work (Outcome Int)} (h : Agree false Eq w w) (retries : List Nat) :
    Agree false Eq (withRetries w retries) (withRetries w retries) := by
  induction retries generalizing w with
  | nil => exact h
  | cons n rest ih => exact ih (agree_retrying h n)

theorem agree_refreshRest {call : Callback → Work (Outcome Int)}
    (calls : ∀ callback, Agree false Eq (call callback) (call callback))
    (pairs : List (String × Callback)) (summary : Summary) :
    Agree own Eq (refreshRest call pairs summary) (refreshRest call pairs summary) := by
  have settle : ∀ key callback result, Agree own Eq (Work.request (.settle key callback result))
      (Work.request (.settle key callback result)) := fun key callback result =>
    .steering rfl fun s d h => h.settled key callback result
  induction pairs generalizing summary with
  | nil => exact .done rfl
  | cons pair rest ih =>
    obtain ⟨key, callback⟩ := pair
    refine (calls callback).own_of.bind fun a b same => ?_
    subst same
    cases a with
    | panicked message => exact .done rfl
    | failed message =>
      refine (settle key callback _).bind fun a b same => ?_
      subst same
      exact ih _
    | ok item =>
      refine (settle key callback _).bind fun a b same => ?_
      subst same
      exact ih _

theorem agree_refresh {call : Callback → Work (Outcome Int)}
    (calls : ∀ callback, Agree false Eq (call callback) (call callback)) :
    Agree own Eq (refresh call) (refresh call) := by
  have snapshot : Agree own Eq (Work.request .snapshot) (Work.request .snapshot) :=
    .steering rfl fun s d h => h.refreshable
  refine snapshot.bind fun a b same => ?_
  subst same
  exact agree_refreshRest calls _ _

mutual

theorem agree_workWith {call : Callback → Work (Outcome Int)}
    (calls : ∀ callback, Agree false Eq (call callback) (call callback)) :
    ∀ {command : Command}, command.isQuiet own = true →
      Agree own Noted (command.workWith call) (command.workWith call)
  | .act _, quiet => .action (by simpa only [Command.isQuiet] using quiet)
  | .refresh, _ => (agree_refresh calls).bind fun _ _ _ => .done trivial
  | .call slot, _ => by
    have held : Agree own Eq (Work.request (.heldCallback slot))
        (Work.request (.heldCallback slot)) :=
      .steering rfl fun s d h => congrArg (fun held => (held.find? slot).bind Entry.refresh) h.held
    refine held.bind fun a b same => ?_
    subst same
    cases a with
    | none => exact .done trivial
    | some callback => exact (calls callback).own_of.bind fun _ _ _ => .done trivial
  | .batch _, quiet =>
    (agree_workAllWith calls (by simpa only [Command.isQuiet] using quiet)).bind fun _ _ _ =>
      .done trivial

theorem agree_workAllWith {call : Callback → Work (Outcome Int)}
    (calls : ∀ callback, Agree false Eq (call callback) (call callback)) :
    ∀ {commands : List Command}, Command.areQuiet own commands = true →
      Agree own Noted (Command.workAllWith call commands) (Command.workAllWith call commands)
  | [], _ => .done trivial
  | _ :: _, quiet => by
    simp only [Command.areQuiet, Bool.and_eq_true] at quiet
    exact (agree_workWith calls quiet.1).bind fun _ _ _ =>
      (agree_workAllWith calls quiet.2).bind fun _ _ _ => .done trivial

end

theorem agree_call (depth : Nat) (callback : Callback) :
    Agree false Eq (call depth callback) (call depth callback) := by
  induction depth generalizing callback with
  | zero => exact .done rfl
  | succ depth ih =>
    exact agree_withRetries (agree_attempt (fun _ quiet => agree_workAllWith ih quiet) _) _

/-- A refresh comes to the same in twins. -/
theorem agree_wholeRefresh : Agree false Eq wholeRefresh wholeRefresh :=
  agree_refresh (agree_call maxDepth)

end Work

/-- A quiet command does the same in twins. -/
theorem Command.agree_work {own : Bool} {command : Command} (quiet : command.isQuiet own = true) :
    Work.Agree own Work.Noted command.work command.work :=
  Work.agree_workWith (Work.agree_call Work.maxDepth) quiet

end WarmCache
