import Mathlib.Data.List.Forall2
import WarmCache.Proofs.Happenings
import WarmCache.Proofs.Surplus

/-!
# Sessions that differ in their counts

Of what a session counts, the lookups and the refused sets can be seen in statistics only, and
statistics that a callback reads are only noted. So if two sessions differ in these counts, in
what they noted of them, and in work put aside that has yet to note them, they make the same
requests and give the same answers ever after, but for the counts.

Results:
1. `Work.Near.bind`, `Command.near_work`: every command makes the same requests, whatever
   statistics it is shown.
2. `Session.Near.answer`: a request makes near sessions of near sessions.
3. `Work.Near.finish`, `Work.Near.advance`: so does work.
4. `Session.Near.happen`: so does everything that happens in a session.
-/

namespace WarmCache

section Lists

variable {α β : Type} {R : α → β → Prop} {l : List α} {l' : List β}

theorem forall₂_getElem? (h : List.Forall₂ R l l') (i : Nat) : Option.Rel R l[i]? l'[i]? := by
  induction h generalizing i with
  | nil => exact .none
  | cons related _ ih =>
    cases i with
    | zero => exact .some related
    | succ i => exact ih i

theorem forall₂_set (h : List.Forall₂ R l l') {a : α} {b : β} (related : R a b) (i : Nat) :
    List.Forall₂ R (l.set i a) (l'.set i b) := by
  induction h generalizing i with
  | nil => exact .nil
  | cons one more ih =>
    cases i with
    | zero => exact .cons related more
    | succ i => exact .cons one (ih i)

theorem forall₂_modify (h : List.Forall₂ R l l') {f : α → α} {g : β → β}
    (keeps : ∀ a b, R a b → R (f a) (g b)) (i : Nat) :
    List.Forall₂ R (l.modify i f) (l'.modify i g) := by
  induction h generalizing i with
  | nil => simp only [List.modify_nil, List.Forall₂.nil]
  | cons one more ih =>
    cases i with
    | zero => exact .cons (keeps _ _ one) more
    | succ i => exact .cons one (ih i)

/-- What a property selects is related too, and there is equally much of it. -/
theorem length_filter_of_forall₂ (h : List.Forall₂ R l l') {p : α → Bool} {q : β → Bool}
    (same : ∀ a b, R a b → p a = q b) : (l.filter p).length = (l'.filter q).length :=
  (List.rel_filter (fun a b related => iff_of_eq (congrArg (· = true) (same a b related)))
    h).length_eq

end Lists

/-! ## Answers -/

mutual

/-- Two answers differ at most in how many lookups and refused sets they tell of. -/
inductive Answer.Near : Answer → Answer → Prop
  | same (a : Answer) : Answer.Near a a
  | stats (counters : Counters) (x : Surplus) (size : Nat) :
      Answer.Near (.stats ⟨counters.plus x, size⟩) (.stats ⟨counters, size⟩)
  | trace {records records' : List TraceRecord} :
      List.Forall₂ TraceRecord.Near records records' →
      Answer.Near (.trace records) (.trace records')
  | batch {answers answers' : List Answer} :
      List.Forall₂ Answer.Near answers answers' → Answer.Near (.batch answers) (.batch answers')

/-- Two notes of the same attempt, with such answers. -/
inductive TraceRecord.Near : TraceRecord → TraceRecord → Prop
  | mk (name : String) (number : Nat) {inner inner' : List Answer} :
      List.Forall₂ Answer.Near inner inner' →
      TraceRecord.Near (.mk name number inner) (.mk name number inner')

end

namespace TraceRecord

theorem Near.comesBefore {a a' b b' : TraceRecord} (h : a.Near a') (h' : b.Near b') :
    a.comesBefore b = a'.comesBefore b' := by
  cases h
  cases h'
  rfl

/-- Notes are sorted by what is the same of them. -/
theorem near_mergeSort {records records' : List TraceRecord}
    (h : List.Forall₂ Near records records') :
    List.Forall₂ Near (records.mergeSort TraceRecord.comesBefore)
      (records'.mergeSort TraceRecord.comesBefore) := by
  -- both lists are the two sides of one list of pairs, which is sorted as a whole
  obtain ⟨length, near⟩ := List.forall₂_iff_zip.1 h
  let before (p q : TraceRecord × TraceRecord) : Bool := p.1.comesBefore q.1
  have left : (records.zip records').map Prod.fst = records :=
    List.map_fst_zip (Nat.le_of_eq length)
  have right : (records.zip records').map Prod.snd = records' :=
    List.map_snd_zip (Nat.le_of_eq length.symm)
  have first : ((records.zip records').mergeSort before).map Prod.fst =
      records.mergeSort TraceRecord.comesBefore :=
    (List.map_mergeSort (f := Prod.fst) fun _ _ _ _ => rfl).trans
      (congrArg (·.mergeSort TraceRecord.comesBefore) left)
  have second : ((records.zip records').mergeSort before).map Prod.snd =
      records'.mergeSort TraceRecord.comesBefore :=
    (List.map_mergeSort fun _ hp _ hq => (near hp).comesBefore (near hq)).trans
      (congrArg (·.mergeSort TraceRecord.comesBefore) right)
  rw [← first, ← second, List.forall₂_map_left_iff, List.forall₂_map_right_iff, List.forall₂_same]
  exact fun p member => near (List.mem_mergeSort.1 member)

end TraceRecord

/-! ## Work -/

/-- Two pieces of work make the same requests, as long as they are told the same but for counts,
and they come to results that are related by `R`. What they note may differ in counts. -/
inductive Work.Near {α β : Type} (R : α → β → Prop) : Work α → Work β → Prop
  | done {a : α} {b : β} : R a b → Near R (.done a) (.done b)
  | act {action : Action} {next : Answer → Work α} {next' : Answer → Work β} :
      (∀ answer answer', answer.Near answer' → Near R (next answer) (next' answer')) →
      Near R (.ask (.act action) next) (.ask (.act action) next')
  | record {note note' : TraceRecord} {next : Unit → Work α} {next' : Unit → Work β} :
      note.Near note' → Near R (next ()) (next' ()) →
      Near R (.ask (.record note) next) (.ask (.record note') next')
  | steer {q : Request} {next : Reply q → Work α} {next' : Reply q → Work β} :
      (∀ action, q ≠ .act action) → (∀ note, q ≠ .record note) →
      (∀ reply, Near R (next reply) (next' reply)) → Near R (.ask q next) (.ask q next')
  | gate {name : String} {rest : Work α} {rest' : Work β} :
      Near R rest rest' → Near R (.gate name rest) (.gate name rest')

namespace Work.Near

variable {α β γ δ : Type} {R : α → β → Prop} {Q : γ → δ → Prop} {w : Work α} {w' : Work β}

theorem bind (h : Near R w w') {f : α → Work γ} {f' : β → Work δ}
    (next : ∀ a b, R a b → Near Q (f a) (f' b)) : Near Q (w.bind f) (w'.bind f') := by
  induction h with
  | done related => exact next _ _ related
  | act _ ih => exact .act fun answer answer' near => ih answer answer' near
  | record near _ ih => exact .record near ih
  | steer act record _ ih => exact .steer act record ih
  | gate _ ih => exact .gate ih

theorem action (action : Action) :
    Near Answer.Near (Work.request (.act action)) (Work.request (.act action)) :=
  .act fun _ _ near => .done near

theorem steering {q : Request} (act : ∀ action, q ≠ .act action)
    (record : ∀ note, q ≠ .record note) :
    Near Eq (Work.request q) (Work.request q) :=
  .steer act record fun _ => .done rfl

theorem passGate (gate : Option String) : Near Eq (Work.passGate gate) (Work.passGate gate) := by
  cases gate with
  | none => exact .done rfl
  | some name => exact .gate (.done rfl)

/-- An attempt comes to the same outcome, whatever its commands are answered. -/
theorem attempt {runAll : List Command → Work (List Answer)}
    (runs : ∀ commands, Near (List.Forall₂ Answer.Near) (runAll commands) (runAll commands))
    (source : Nat) : Near Eq (Work.attempt runAll source) (Work.attempt runAll source) := by
  refine (steering (q := .attempt source) nofun nofun).bind fun begun begun' same => ?_
  subst same
  cases begun with
  | none => exact .done rfl
  | some begun =>
    refine (passGate begun.step.gate).bind fun _ _ _ => ?_
    refine (runs begun.step.commands).bind fun inner inner' near => ?_
    exact .record (.mk _ _ near) (.done rfl)

theorem retrying {w : Work (Outcome Int)} (h : Near Eq w w) (n : Nat) :
    Near Eq (WarmCache.retrying w n) (WarmCache.retrying w n) := by
  induction n with
  | zero => exact h
  | succ n ih =>
    refine h.bind fun outcome outcome' same => ?_
    subst same
    cases outcome with
    | ok item => exact .done rfl
    | failed message => exact ih
    | panicked message => exact .done rfl

theorem withRetries {w : Work (Outcome Int)} (h : Near Eq w w) (retries : List Nat) :
    Near Eq (WarmCache.withRetries w retries) (WarmCache.withRetries w retries) := by
  induction retries generalizing w with
  | nil => exact h
  | cons n rest ih => exact ih (h.retrying n)

theorem refreshRest {call : Callback → Work (Outcome Int)}
    (calls : ∀ callback, Near Eq (call callback) (call callback))
    (pairs : List (String × Callback)) (summary : Summary) :
    Near Eq (Work.refreshRest call pairs summary) (Work.refreshRest call pairs summary) := by
  induction pairs generalizing summary with
  | nil => exact .done rfl
  | cons pair rest ih =>
    obtain ⟨key, callback⟩ := pair
    refine (calls callback).bind fun outcome outcome' same => ?_
    subst same
    cases outcome with
    | panicked message => exact .done rfl
    | failed message => exact .steer nofun nofun fun settled => ih _
    | ok item => exact .steer nofun nofun fun settled => ih _

theorem refresh {call : Callback → Work (Outcome Int)}
    (calls : ∀ callback, Near Eq (call callback) (call callback)) :
    Near Eq (Work.refresh call) (Work.refresh call) :=
  .steer nofun nofun fun pairs => refreshRest calls pairs _

mutual

theorem workWith {call : Callback → Work (Outcome Int)}
    (calls : ∀ callback, Near Eq (call callback) (call callback)) :
    ∀ command : Command, Near Answer.Near (command.workWith call) (command.workWith call)
  | .act one => by
    simp only [Command.workWith]
    exact action one
  | .refresh => by
    simp only [Command.workWith]
    refine (refresh calls).bind fun result result' same => ?_
    subst same
    exact .done (.same _)
  | .call slot => by
    simp only [Command.workWith]
    refine (steering (q := .heldCallback slot) nofun nofun).bind fun held held' same => ?_
    subst same
    cases held with
    | none => exact .done (.same _)
    | some callback =>
      refine (calls callback).bind fun outcome outcome' same => ?_
      subst same
      exact .done (.same _)
  | .batch commands => by
    simp only [Command.workWith]
    exact (workAllWith calls commands).bind fun _ _ near => .done (.batch near)

theorem workAllWith {call : Callback → Work (Outcome Int)}
    (calls : ∀ callback, Near Eq (call callback) (call callback)) :
    ∀ commands : List Command, Near (List.Forall₂ Answer.Near)
      (Command.workAllWith call commands) (Command.workAllWith call commands)
  | [] => by
    simp only [Command.workAllWith]
    exact .done .nil
  | command :: rest => by
    simp only [Command.workAllWith]
    refine (workWith calls command).bind fun answer answer' first => ?_
    exact (workAllWith calls rest).bind fun _ _ others => .done (.cons first others)

end

theorem call (depth : Nat) (callback : Callback) :
    Near Eq (Work.call depth callback) (Work.call depth callback) := by
  -- on the depth, as the commands of a step call other callbacks
  induction depth generalizing callback with
  | zero => exact .done rfl
  | succ depth ih => exact (attempt (workAllWith ih) _).withRetries _

theorem wholeRefresh : Near Eq Work.wholeRefresh Work.wholeRefresh :=
  refresh (call Work.maxDepth)

end Work.Near

/-- Every command makes the same requests, whatever statistics it is shown. -/
theorem Command.near_work (command : Command) :
    Work.Near Answer.Near command.work command.work :=
  .workWith (.call Work.maxDepth) command

/-! ## Sessions -/

/-- Two pieces of work have come equally far and have the same before them. -/
inductive Progress.Near {α β : Type} (R : α → β → Prop) : Progress α → Progress β → Prop
  | ready {rest : Work α} {rest' : Work β} : rest.Near R rest' → Near R (.ready rest) (.ready rest')
  | waiting {gate : String} {rest : Work α} {rest' : Work β} :
      rest.Near R rest' → Near R (.waiting gate rest) (.waiting gate rest')
  | finished {a : α} {b : β} : R a b → Near R (.finished a) (.finished b)

/-- Two tasks are the same, and their cycles have come equally far. -/
inductive Member.Near : Member → Member → Prop
  | idle (task : Task) : Near ⟨task, none⟩ ⟨task, none⟩
  | inCycle (task : Task) {cycle cycle' : RefreshProgress} :
      cycle.Near Eq cycle' → Near ⟨task, some cycle⟩ ⟨task, some cycle'⟩

/-- What two sessions keep aside differs at most in counts that were noted or have yet to be. -/
structure Aside.Near (a b : Aside) : Prop where
  trace : List.Forall₂ TraceRecord.Near a.trace b.trace
  threads : List.Forall₂ (Progress.Near Eq) a.threads b.threads
  members : List.Forall₂ Member.Near a.members b.members

/-- Session `s` is ahead of session `t` in its counts, and the two are the same otherwise. -/
structure Session.Near (x : Surplus) (s t : Session) : Prop where
  same : s = t.ahead x s.aside
  aside : s.aside.Near t.aside

namespace Progress.Near

variable {α β : Type} {R : α → β → Prop} {p : Progress α} {p' : Progress β}

theorem letThrough (h : Near R p p') (gate : String) :
    Near R (p.letThrough gate) (p'.letThrough gate) := by
  cases h with
  | ready near => exact .ready near
  | finished related => exact .finished related
  | waiting near =>
    simp only [Progress.letThrough]
    split
    · exact .ready near
    · exact .waiting near

theorem waitsAt (h : Near R p p') (gate : String) : p.waitsAt gate = p'.waitsAt gate := by
  cases h <;> rfl

theorem isWaiting (h : Near R p p') : p.isWaiting = p'.isWaiting := by
  cases h <;> rfl

end Progress.Near

namespace Session

variable {x : Surplus} {s t : Session}

theorem near_ahead {a : Aside} (h : a.Near t.aside) (x : Surplus) : Near x (t.ahead x a) t :=
  ⟨rfl, h⟩

namespace Near

/-- What takes no notice of the difference keeps it. -/
theorem map (h : Near x s t) {f : Session → Session}
    (alike : f (t.ahead x s.aside) = (f t).ahead x s.aside) (aside : (f t).aside = t.aside) :
    Near x (f s) (f t) := by
  rw [h.same, alike]
  exact near_ahead (aside ▸ h.aside) x

theorem cache (h : Near x s t) : s.cache = t.cache.plus x := by rw [h.same]; rfl

theorem now (h : Near x s t) : s.now = t.now := by rw [h.same]; rfl

theorem elapsed (h : Near x s t) : s.elapsed = t.elapsed := by rw [h.same]; rfl

theorem stops (h : Near x s t) : s.stops = t.stops := by rw [h.same]; rfl

theorem openGates (h : Near x s t) : s.background.openGates = t.background.openGates := by
  rw [h.same]
  rfl

theorem tick (h : Near x s t) :
    Near x { s with clock := s.clock.tick } { t with clock := t.clock.tick } :=
  h.map (f := fun u => { u with clock := u.clock.tick }) rfl rfl

/-! ### Actions -/

theorem performStore (h : Near x s t) (action : StoreAction) :
    Near x (s.performStore action).1 (t.performStore action).1 ∧
      (s.performStore action).2.Near (t.performStore action).2 := by
  by_cases stats : action = .stats
  · subst stats
    refine ⟨h, ?_⟩
    rw [h.same]
    exact .stats t.cache.counters x t.cache.size
  · have alike := t.performStore_ahead x s.aside stats
    obtain ⟨held, after⟩ := t.performStore_frame action
    refine ⟨h.map (f := fun u => (u.performStore action).1) (congrArg Prod.fst alike) ?_, ?_⟩
    · rw [after]
      rfl
    · rw [h.same, alike]
      exact .same _

theorem performPolicy (h : Near x s t) (action : PolicyAction) :
    Near x (s.performPolicy action).1 (t.performPolicy action).1 ∧
      (s.performPolicy action).2 = (t.performPolicy action).2 := by
  have alike := t.performPolicy_ahead x s.aside action
  refine ⟨h.map (f := fun u => (u.performPolicy action).1) (congrArg Prod.fst alike) ?_, ?_⟩
  · rcases t.performPolicy_frame action with same | ⟨_, _, _, after⟩
    · rw [same]
    · rw [after]
      rfl
  · rw [h.same, alike]

theorem performNote (h : Near x s t) (action : NoteAction) :
    Near x (s.perform (.note action)).1 (t.perform (.note action)).1 ∧
      (s.perform (.note action)).2.Near (t.perform (.note action)).2 := by
  obtain ⟨same, aside⟩ := h
  generalize s.aside = a at same aside
  subst same
  have trace : List.Forall₂ TraceRecord.Near a.trace.reverse t.journal.trace.reverse :=
    List.rel_reverse aside.trace
  cases action with
  | calls => exact ⟨⟨rfl, aside⟩, .same _⟩
  | logs sorted => exact ⟨⟨rfl, aside⟩, .same _⟩
  | trace sorted =>
    refine ⟨⟨rfl, .nil, aside.threads, aside.members⟩, .trace ?_⟩
    cases sorted with
    | true => exact TraceRecord.near_mergeSort trace
    | false => exact trace

theorem waitingAt {a b : Background} (threads : List.Forall₂ (Progress.Near Eq) a.threads b.threads)
    (members : List.Forall₂ Member.Near a.members b.members) (gate : String) :
    a.waitingAt gate = b.waitingAt gate := by
  refine congrArg₂ (· + ·) (length_filter_of_forall₂ threads fun p p' near => near.waitsAt gate)
    (length_filter_of_forall₂ members fun m m' near => ?_)
  cases near with
  | idle => rfl
  | inCycle task near => exact near.waitsAt gate

theorem threadOf? (h : Near x s t) (name : String) :
    Option.Rel (Progress.Near Eq) (s.threadOf? name) (t.threadOf? name) := by
  obtain ⟨same, aside⟩ := h
  generalize s.aside = a at same aside
  subst same
  show Option.Rel _ ((t.background.threadNames.find? name).bind fun i => a.threads[i]?)
    ((t.background.threadNames.find? name).bind fun i => t.background.threads[i]?)
  cases t.background.threadNames.find? name with
  | none => exact .none
  | some i => exact forall₂_getElem? aside.threads i

theorem released {a b : Aside} (h : a.Near b) (gate : String) :
    Aside.Near ⟨a.trace, a.threads.map fun p => p.letThrough gate,
        a.members.map fun m => { m with cycle := m.cycle.map fun p => p.letThrough gate }⟩
      ⟨b.trace, b.threads.map fun p => p.letThrough gate,
        b.members.map fun m => { m with cycle := m.cycle.map fun p => p.letThrough gate }⟩ where
  trace := h.trace
  threads := List.rel_map (fun _ _ near => near.letThrough gate) h.threads
  members := List.rel_map (fun m m' near => by
    cases near with
    | idle task => exact .idle task
    | inCycle task near => exact .inCycle task (near.letThrough gate)) h.members

theorem performGate (h : Near x s t) (action : GateAction) :
    Near x (s.performGate action).1 (t.performGate action).1 ∧
      (s.performGate action).2 = (t.performGate action).2 := by
  have thread := h.threadOf?
  obtain ⟨same, aside⟩ := h
  generalize s.aside = a at same aside
  subst same
  have counted := fun gate => congrArg (fun n : Nat => Answer.number n)
    (waitingAt (a := (t.ahead x a).background) aside.threads aside.members gate)
  cases action with
  | unlock gate => exact ⟨⟨rfl, released aside gate⟩, counted gate⟩
  | release gate => exact ⟨⟨rfl, released aside gate⟩, counted gate⟩
  | spawnRefresh name =>
    have length := aside.threads.length_eq
    have more : List.Forall₂ (Progress.Near Eq) (a.threads ++ [.ready Work.wholeRefresh])
        (t.background.threads ++ [.ready Work.wholeRefresh]) :=
      List.rel_append aside.threads (.cons (.ready .wholeRefresh) .nil)
    refine ⟨⟨?_, aside.trace, more, aside.members⟩, rfl⟩
    simp only [Session.performGate, ahead, Session.aside, length]
  | isBlocked name =>
    refine ⟨⟨rfl, aside⟩, congrArg Answer.flag ?_⟩
    have one := thread name
    generalize (t.ahead x a).threadOf? name = p at one
    generalize t.threadOf? name = p' at one
    cases one with
    | none => rfl
    | some near => exact near.isWaiting
  | join name =>
    have one := thread name
    simp only [Session.performGate]
    generalize (t.ahead x a).threadOf? name = p at one ⊢
    generalize t.threadOf? name = p' at one ⊢
    cases one with
    | none => exact ⟨⟨rfl, aside⟩, rfl⟩
    | some near =>
      cases near with
      | ready _ => exact ⟨⟨rfl, aside⟩, rfl⟩
      | waiting _ => exact ⟨⟨rfl, aside⟩, rfl⟩
      | finished same => exact ⟨⟨rfl, aside⟩, congrArg Answer.ofRefresh same⟩

theorem memberOf? (h : Near x s t) (name : String) :
    Option.Rel Member.Near (s.memberOf? name) (t.memberOf? name) := by
  obtain ⟨same, aside⟩ := h
  generalize s.aside = a at same aside
  subst same
  show Option.Rel _ ((t.background.taskNames.find? name).bind fun i => a.members[i]?)
    ((t.background.taskNames.find? name).bind fun i => t.background.members[i]?)
  cases t.background.taskNames.find? name with
  | none => exact .none
  | some i => exact forall₂_getElem? aside.members i

/-- A task is started in both sessions, or in neither for the same reason. -/
theorem startTask (h : Near x s t) (kind : TaskKind) (interval : Span) (signal : StopSignal) :
    (∃ e, s.startTask kind interval signal = .error e ∧
      t.startTask kind interval signal = .error e) ∨
    ∃ started started', s.startTask kind interval signal = .ok started ∧
      t.startTask kind interval signal = .ok started' ∧ Near x started started' := by
  obtain ⟨same, aside⟩ := h
  generalize s.aside = a at same aside
  subst same
  have runtime : (t.ahead x a).hasRuntime = t.hasRuntime := rfl
  have running : (t.ahead x a).cache.workerRunning = t.cache.workerRunning := rfl
  simp only [Session.startTask, runtime, running]
  cases Interval.ofSpan? interval with
  | none => exact .inl ⟨_, rfl, rfl⟩
  | some every =>
    dsimp only
    split
    · exact .inl ⟨_, rfl, rfl⟩
    · split
      · exact .inl ⟨_, rfl, rfl⟩
      · have more : List.Forall₂ Member.Near (a.members ++ [⟨.spawn kind every signal, none⟩])
            (t.background.members ++ [⟨.spawn kind every signal, none⟩]) :=
          List.rel_append aside.members (.cons (.idle _) .nil)
        exact .inr ⟨_, _, rfl, rfl, rfl, aside.trace, aside.threads, more⟩

theorem performStart (h : Near x s t) (kind : TaskKind) (name : String) (interval : Span)
    (signal : String) :
    Near x (s.performTask (.start kind name interval signal)).1
        (t.performTask (.start kind name interval signal)).1 ∧
      (s.performTask (.start kind name interval signal)).2 =
        (t.performTask (.start kind name interval signal)).2 := by
  have length : s.background.members.length = t.background.members.length :=
    h.aside.members.length_eq
  simp only [Session.performTask, h.stops]
  cases t.stops.signals.find? signal with
  | none => exact ⟨h, rfl⟩
  | some made =>
    rcases h.startTask kind interval made with ⟨e, eq, eq'⟩ | ⟨u, v, eq, eq', near⟩
    · simp only [eq, eq']
      exact ⟨h, trivial⟩
    · simp only [eq, eq', length]
      let index := t.background.members.length
      exact ⟨near.map (f := fun w => { w with
        background := { w.background with taskNames := w.background.taskNames.put name index } })
        rfl rfl, trivial⟩

theorem performTask (h : Near x s t) (action : TaskAction) :
    Near x (s.performTask action).1 (t.performTask action).1 ∧
      (s.performTask action).2 = (t.performTask action).2 := by
  cases action with
  | start kind name interval signal => exact h.performStart kind name interval signal
  | abort name =>
    obtain ⟨same, aside⟩ := h
    generalize s.aside = a at same aside
    subst same
    have named : (t.ahead x a).background.taskNames = t.background.taskNames := rfl
    simp only [Session.performTask, named]
    cases t.background.taskNames.find? name with
    | none => exact ⟨⟨rfl, aside⟩, rfl⟩
    | some index =>
      refine ⟨⟨rfl, aside.trace, aside.threads, ?_⟩, rfl⟩
      refine forall₂_modify aside.members (fun m m' near => ?_) index
      cases near with
      | idle task => exact .idle _
      | inCycle task near => exact .inCycle _ near
  | hasEnded name =>
    refine ⟨h, congrArg Answer.flag ?_⟩
    have one := h.memberOf? name
    generalize s.memberOf? name = m at one
    generalize t.memberOf? name = m' at one
    cases one with
    | none => rfl
    | some near => cases near <;> rfl
  | join name =>
    have one := h.memberOf? name
    obtain ⟨same, aside⟩ := h
    generalize s.aside = a at same aside
    subst same
    simp only [Session.performTask]
    generalize (t.ahead x a).memberOf? name = m at one ⊢
    generalize t.memberOf? name = m' at one ⊢
    cases one with
    | none => exact ⟨⟨rfl, aside⟩, rfl⟩
    | some near =>
      cases near with
      | idle task =>
        simp only [Option.map_some]
        split
        · split <;> exact ⟨⟨rfl, aside⟩, rfl⟩
        · exact ⟨⟨rfl, aside⟩, rfl⟩
      | inCycle task near =>
        simp only [Option.map_some]
        split
        · split <;> exact ⟨⟨rfl, aside⟩, rfl⟩
        · exact ⟨⟨rfl, aside⟩, rfl⟩

theorem build (h : Near x s t) (item : Int) (settings : List Build) :
    Near x (s.build item settings).1 (t.build item settings).1 ∧
      (s.build item settings).2 = (t.build item settings).2 := by
  have alike := t.build_ahead x s.aside item settings
  obtain ⟨sources, built⟩ := t.build_frame item settings
  refine ⟨h.map (f := fun u => (u.build item settings).1) (congrArg Prod.fst alike) ?_, ?_⟩
  · rw [built]
    rfl
  · rw [h.same, alike]

theorem set (h : Near x s t) (key : String) (value : Value Int) :
    Near x (s.set key value).1 (t.set key value).1 ∧
      (s.set key value).2 = (t.set key value).2 := by
  have alike := t.set_ahead x s.aside key value
  refine ⟨h.map (f := fun u => (u.set key value).1) (congrArg Prod.fst alike) rfl, ?_⟩
  rw [h.same, alike]

theorem perform (h : Near x s t) (action : Action) :
    Near x (s.perform action).1 (t.perform action).1 ∧
      (s.perform action).2.Near (t.perform action).2 := by
  have told : ∀ {a b : Answer}, a = b → a.Near b := fun {a b} same => same ▸ .same a
  cases action with
  | set key item settings =>
    obtain ⟨built, value⟩ := h.build item settings
    obtain ⟨after, result⟩ := built.set key (t.build item settings).2
    have one : ∀ u : Session, u.perform (.set key item settings) =
        (((u.build item settings).1.set key (u.build item settings).2).1,
          .ofResult .done ((u.build item settings).1.set key (u.build item settings).2).2) :=
      fun _ => rfl
    rw [one s, one t, value]
    exact ⟨after, told (congrArg (Answer.ofResult .done) result)⟩
  | showValue item settings =>
    obtain ⟨built, value⟩ := h.build item settings
    exact ⟨built, told (congrArg (fun v : Value Int => Answer.text v.outline.line) value)⟩
  | store action => exact h.performStore action
  | policy action => exact ⟨(h.performPolicy action).1, told (h.performPolicy action).2⟩
  | note action => exact h.performNote action
  | channel action =>
    refine ⟨h.map (f := fun u => { u with stops := (u.stops.perform action).1 }) rfl rfl, ?_⟩
    exact told (congrArg (fun stops : Stops => (stops.perform action).2) h.stops)
  | gate action => exact ⟨(h.performGate action).1, told (h.performGate action).2⟩
  | task action => exact ⟨(h.performTask action).1, told (h.performTask action).2⟩

/-! ### Requests -/

theorem settleOutcome (h : Near x s t) (key : String) (callback : Callback)
    (result : Except String Int) :
    Near x (s.settleOutcome key callback result).1 (t.settleOutcome key callback result).1 ∧
      (s.settleOutcome key callback result).2 = (t.settleOutcome key callback result).2 := by
  have alike : (t.ahead x s.aside).settleOutcome key callback result =
      ((t.settleOutcome key callback result).1.ahead x s.aside,
        (t.settleOutcome key callback result).2) := by
    have same : (t.ahead x s.aside).cache.settle t.now key callback result =
        ((t.cache.settle t.now key callback result).1.plus x,
          (t.cache.settle t.now key callback result).2) :=
      t.cache.settle_plus x t.now key callback result
    cases result with
    | error message => rfl
    | ok item =>
      exact congrArg (fun settled : Cache Int × Settled =>
        ({ t.ahead x s.aside with cache := settled.1 }, settled.2)) same
  refine ⟨h.map (f := fun u => (u.settleOutcome key callback result).1)
    (congrArg Prod.fst alike) ?_,
    ?_⟩
  · cases result <;> rfl
  · rw [h.same, alike]

theorem beginAttempt (h : Near x s t) (source : Nat) :
    Near x (s.beginAttempt source).1 (t.beginAttempt source).1 ∧
      (s.beginAttempt source).2 = (t.beginAttempt source).2 := by
  have alike : (t.ahead x s.aside).beginAttempt source =
      ((t.beginAttempt source).1.ahead x s.aside, (t.beginAttempt source).2) := by
    have same : (t.ahead x s.aside).sources = t.sources := rfl
    simp only [Session.beginAttempt, same]
    split <;> rfl
  refine ⟨h.map (f := fun u => (u.beginAttempt source).1) (congrArg Prod.fst alike) ?_, ?_⟩
  · unfold Session.beginAttempt
    split <;> rfl
  · rw [h.same, alike]

/-- An action makes near sessions of near ones, and is answered the same but for counts. -/
theorem answer_act (h : Near x s t) (action : Action) :
    Near x (s.answer (.act action)).1 (t.answer (.act action)).1 ∧
      (s.answer (.act action)).2.Near (t.answer (.act action)).2 :=
  ⟨(h.perform action).1.tick, (h.perform action).2⟩

theorem answer_record (h : Near x s t) {note note' : TraceRecord} (near : note.Near note') :
    Near x (s.answer (.record note)).1 (t.answer (.record note')).1 := by
  obtain ⟨same, aside⟩ := h
  generalize s.aside = a at same aside
  subst same
  exact ⟨rfl, .cons near aside.trace, aside.threads, aside.members⟩

/-- All other requests make near sessions of near ones, and are answered the same. -/
theorem answer_steer (h : Near x s t) {q : Request} (act : ∀ action, q ≠ .act action)
    (record : ∀ note, q ≠ .record note) :
    Near x (s.answer q).1 (t.answer q).1 ∧ (s.answer q).2 = (t.answer q).2 := by
  cases q with
  | act action => exact absurd rfl (act action)
  | record note => exact absurd rfl (record note)
  | snapshot =>
    refine ⟨h.tick, ?_⟩
    show s.cache.refreshable = t.cache.refreshable
    rw [h.cache]
    rfl
  | settle key callback result =>
    exact ⟨(h.settleOutcome key callback result).1.tick, (h.settleOutcome key callback result).2⟩
  | attempt source => exact ⟨(h.beginAttempt source).1.tick, (h.beginAttempt source).2⟩
  | heldCallback slot =>
    have held : s.held = t.held := by
      rw [h.same]
      rfl
    exact ⟨h.tick, congrArg (fun held => (held.find? slot).bind Entry.refresh) held⟩

end Near

end Session

/-! ## Work that goes on -/

namespace Work.Near

open Session

variable {α β : Type} {R : α → β → Prop} {w : Work α} {w' : Work β} {x : Surplus} {s t : Session}

/-- Work comes to the same end in near sessions. -/
theorem finish (h : Near R w w') (near : Session.Near x s t) :
    Session.Near x (s.finish w).1 (t.finish w').1 ∧ R (s.finish w).2 (t.finish w').2 := by
  induction h generalizing s t with
  | done related => exact ⟨near, related⟩
  | @act action _ _ _ ih =>
    obtain ⟨after, told⟩ := near.answer_act action
    exact ih _ _ told after
  | record noted _ ih => exact ih (near.answer_record noted)
  | @steer q next next' act record _ ih =>
    obtain ⟨after, told⟩ := near.answer_steer act record
    have unfolds : t.finish (.ask q next') = (t.answer q).1.finish (next' (s.answer q).2) := by
      rw [told]
      rfl
    rw [unfolds]
    exact ih _ after
  | gate _ ih => exact ih near

/-- Work comes equally far in near sessions, to the same gate if it is held up. -/
theorem advance (h : Near R w w') (near : Session.Near x s t) :
    Session.Near x (s.advance w).1 (t.advance w').1 ∧
      (s.advance w).2.Near R (t.advance w').2 := by
  induction h generalizing s t with
  | done related => exact ⟨near, .finished related⟩
  | @act action _ _ _ ih =>
    obtain ⟨after, told⟩ := near.answer_act action
    exact ih _ _ told after
  | record noted _ ih => exact ih (near.answer_record noted)
  | @steer q next next' act record _ ih =>
    obtain ⟨after, told⟩ := near.answer_steer act record
    have unfolds : t.advance (.ask q next') = (t.answer q).1.advance (next' (s.answer q).2) := by
      rw [told]
      rfl
    rw [unfolds]
    exact ih _ after
  | @gate name rest rest' more ih =>
    unfold Session.advance
    rw [near.openGates]
    split
    · exact ih near
    · exact ⟨near, .waiting more⟩

end Work.Near

/-! ## The background -/

namespace Member.Near

variable {m m' : Member}

theorem task (h : m.Near m') : m.task = m'.task := by cases h <;> rfl

theorem holdsCache (h : m.Near m') : m.holdsCache = m'.holdsCache := by cases h <;> rfl

theorem withTask (h : m.Near m') (task : Task) :
    Member.Near { m with task } { m' with task } := by
  cases h with
  | idle => exact .idle task
  | inCycle _ near => exact .inCycle task near

end Member.Near

namespace Session.Near

variable {x : Surplus} {s t : Session}

theorem report (h : Near x s t) (event : Event) : Near x (s.report event) (t.report event) :=
  h.map (f := fun u => u.report event) rfl rfl

theorem member? (h : Near x s t) (index : Nat) :
    Option.Rel Member.Near s.background.members[index]? t.background.members[index]? :=
  forall₂_getElem? h.aside.members index

theorem putMember (h : Near x s t) (index : Nat) {m m' : Member} (near : m.Near m') :
    Near x (s.putMember index m) (t.putMember index m') := by
  have held : s.background.members[index]?.any Member.holdsCache =
      t.background.members[index]?.any Member.holdsCache := by
    have one := h.member? index
    generalize s.background.members[index]? = p at one
    generalize t.background.members[index]? = p' at one
    cases one with
    | none => rfl
    | some related => exact related.holdsCache
  obtain ⟨same, aside⟩ := h
  generalize s.aside = a at same aside
  subst same
  have running : (t.ahead x a).cache.workerRunning = t.cache.workerRunning := rfl
  refine ⟨?_, aside.trace, aside.threads, forall₂_set aside.members near index⟩
  unfold Session.putMember
  simp only [held, near.holdsCache, running]
  rfl

theorem tickWork (h : Near x s t) (index : Nat) (task : Task) :
    Near x (s.tickWork index task) (t.tickWork index task) := by
  unfold Session.tickWork
  cases task.kind with
  | refreshWorker => exact h.putMember index (.inCycle task (.ready .wholeRefresh))
  | flusher =>
    exact (h.putMember index (.idle task)).map (f := fun u =>
      { u with cache := (u.cache.flush u.now).1 }.report (.flushed (u.cache.flush u.now).2)) rfl rfl

theorem applyLook (h : Near x s t) (index : Nat) {m m' : Member} (near : m.Near m') (task : Task)
    (step : TaskStep) :
    Near x (s.applyLook index m task step) (t.applyLook index m' task step) := by
  cases step with
  | idle => exact h
  | begun => exact (h.report _).putMember index (near.withTask task)
  | overflowed => exact (h.report _).putMember index (near.withTask task)
  | ticked => exact h.tickWork index task
  | stopped => exact (h.report _).putMember index (near.withTask task)
  | cancelled => exact h.putMember index (near.withTask task)

theorem stepMember (h : Near x s t) (index : Nat) {m m' : Member} (near : m.Near m') :
    Near x (s.stepMember index m) (t.stepMember index m') := by
  have looks : s.look m = t.look m' := by
    rw [look, look, h.elapsed, h.stops, near.task]
  unfold Session.stepMember
  rw [looks]
  exact h.applyLook index near _ _

theorem endCycle (h : Near x s t) (index : Nat) (result : Except String Summary) :
    Near x (s.endCycle index result) (t.endCycle index result) := by
  have one := h.member? index
  unfold Session.endCycle
  generalize s.background.members[index]? = p at one ⊢
  generalize t.background.members[index]? = p' at one ⊢
  cases one with
  | none => exact h
  | @some m m' near =>
    dsimp only
    rw [near.task]
    split
    · exact h.putMember index (near.task ▸ .idle _)
    · cases result with
      | ok summary => exact (h.report _).putMember index (.idle _)
      | error message => exact (h.report _).putMember index (.idle _)

theorem putCycle (h : Near x s t) (index : Nat) {p p' : RefreshProgress} (near : p.Near Eq p') :
    Near x (s.putCycle index p) (t.putCycle index p') := by
  have one := h.member? index
  unfold Session.putCycle
  generalize s.background.members[index]? = m at one ⊢
  generalize t.background.members[index]? = m' at one ⊢
  cases near with
  | ready near =>
    cases one with
    | none => exact h
    | some member => exact h.putMember index (member.task ▸ .inCycle _ (.ready near))
  | waiting near =>
    cases one with
    | none => exact h
    | some member => exact h.putMember index (member.task ▸ .inCycle _ (.waiting near))
  | finished same =>
    subst same
    exact h.endCycle index _

theorem resumeCycle (h : Near x s t) (index : Nat) {rest rest' : Work (Except String Summary)}
    (near : rest.Near Eq rest') :
    Near x (s.resumeCycle index rest) (t.resumeCycle index rest') := by
  obtain ⟨after, progress⟩ := near.advance h
  rw [resumeCycle_eq, resumeCycle_eq]
  exact after.putCycle index progress

theorem putThread (h : Near x s t) (hasRuntime : Bool) (index : Nat) {p p' : RefreshProgress}
    (near : p.Near Eq p') :
    Near x (s.putThread hasRuntime index p) (t.putThread hasRuntime index p') := by
  obtain ⟨same, aside⟩ := h
  generalize s.aside = a at same aside
  subst same
  exact ⟨rfl, aside.trace, forall₂_set aside.threads near index, aside.members⟩

theorem resumeThread (h : Near x s t) (index : Nat) {rest rest' : Work (Except String Summary)}
    (near : rest.Near Eq rest') :
    Near x (s.resumeThread index rest) (t.resumeThread index rest') := by
  have runtime : s.hasRuntime = t.hasRuntime := by
    rw [h.same]
    rfl
  have alone : Near x { s with hasRuntime := false } { t with hasRuntime := false } :=
    h.map (f := fun u => { u with hasRuntime := false }) rfl rfl
  obtain ⟨after, progress⟩ := near.advance alone
  rw [resumeThread_eq, resumeThread_eq, runtime]
  exact after.putThread t.hasRuntime index progress

theorem doPiece (h : Near x s t) (piece : Piece) : Near x (s.doPiece piece) (t.doPiece piece) := by
  cases piece with
  | look index =>
    have one := h.member? index
    unfold Session.doPiece
    dsimp only
    generalize s.background.members[index]? = m at one ⊢
    generalize t.background.members[index]? = m' at one ⊢
    cases one with
    | none => exact h
    | some near => exact h.stepMember index near
  | thread index =>
    have one : Option.Rel (Progress.Near Eq) s.background.threads[index]?
      t.background.threads[index]? := forall₂_getElem? h.aside.threads index
    unfold Session.doPiece
    dsimp only
    generalize s.background.threads[index]? = p at one ⊢
    generalize t.background.threads[index]? = p' at one ⊢
    cases one with
    | none => exact h
    | some near =>
      cases near with
      | ready rest => exact h.resumeThread index rest
      | waiting _ => exact h
      | finished _ => exact h
  | cycle index =>
    have one := h.member? index
    unfold Session.doPiece
    dsimp only
    generalize s.background.members[index]? = m at one ⊢
    generalize t.background.members[index]? = m' at one ⊢
    cases one with
    | none => exact h
    | some near =>
      cases near with
      | idle => exact h
      | inCycle task near =>
        cases near with
        | ready rest => exact h.resumeCycle index rest
        | waiting _ => exact h
        | finished _ => exact h

/-- Whatever happens makes near sessions of near ones, and is answered the same but for counts. -/
theorem happen (h : Near x s t) (happening : Happening) :
    Near x (s.happen happening).1 (t.happen happening).1 ∧
      Option.Rel Answer.Near (s.happen happening).2 (t.happen happening).2 := by
  cases happening with
  | command command =>
    obtain ⟨after, told⟩ := command.near_work.finish h
    exact ⟨after, .some told⟩
  | piece piece => exact ⟨h.doPiece piece, .none⟩
  | time nanos =>
    exact ⟨h.map (f := fun u => { u with elapsed := u.elapsed + nanos }) rfl rfl, .none⟩
  | reading => exact ⟨h.tick, .none⟩

end Session.Near

end WarmCache
