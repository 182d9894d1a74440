import WarmCache.Proofs.Plain

/-!
# What was noted

A session notes the attempts of its callbacks and what is reported, each in the order in which it
came. Nothing but a reading of these notes depends on them. So sessions that differ in nothing
else stay so, whatever is requested of them and whatever is done in their background.

Results:
1. `muted_answer`: a request makes the same of two sessions that differ in their notes.
2. `Alike.answer`, `Alike.reply`: alike sessions stay alike, and reply the same.
3. `Alike.look`, `Alike.endCycle`: the same for background tasks.
-/

namespace WarmCache

namespace Session

/-! ## Actions -/

theorem build_muted (s : Session) (item : Int) (settings : List Build) :
    s.muted.build item settings =
      ((s.build item settings).1.muted, (s.build item settings).2) :=
  build_map (f := muted) (fun _ => rfl) (fun _ _ => rfl) (fun _ _ => rfl) (fun _ => rfl) s item
    settings

theorem foldl_muted {α β : Type} {f : Session × α → β → Session × α}
    (each : ∀ s a b, f (s.muted, a) b = ((f (s, a) b).1.muted, (f (s, a) b).2)) (s : Session)
    (a : α) (keys : List β) :
    keys.foldl f (s.muted, a) = ((keys.foldl f (s, a)).1.muted, (keys.foldl f (s, a)).2) := by
  induction keys generalizing s a with
  | nil => rfl
  | cons key rest ih =>
    rw [List.foldl_cons, List.foldl_cons, each]
    exact ih _ _

theorem setMany_muted (s : Session) (keys : List (String × Int)) :
    s.muted.setMany keys = ((s.setMany keys).1.muted, (s.setMany keys).2) := by
  unfold setMany
  rw [foldl_muted (fun s a key => ?_) s _ keys]
  obtain ⟨ok, firstError⟩ := a
  have same : s.muted.set key.1 (.ofItem key.2) =
      ((s.set key.1 (.ofItem key.2)).1.muted, (s.set key.1 (.ofItem key.2)).2) := rfl
  dsimp only
  rw [same]
  generalize s.set key.1 (.ofItem key.2) = done
  obtain ⟨t, result⟩ := done
  cases result <;> rfl

theorem getMany_muted (s : Session) (keys : List (String × Int)) :
    s.muted.getMany keys = ((s.getMany keys).1.muted, (s.getMany keys).2) := by
  unfold getMany
  rw [foldl_muted (fun s items key => ?_) s _ keys]
  have same : s.muted.get key.1 = ((s.get key.1).1.muted, (s.get key.1).2) := rfl
  dsimp only
  rw [same]
  generalize s.get key.1 = done
  obtain ⟨t, found⟩ := done
  cases found <;> rfl

theorem performStore_muted (s : Session) (action : StoreAction) :
    s.muted.performStore action =
      ((s.performStore action).1.muted, (s.performStore action).2) := by
  cases action with
  | setMany stem first count => exact s.setMany_muted _
  | getMany stem first count => exact s.getMany_muted _
  | hold key slot =>
    have same : s.muted.get key = ((s.get key).1.muted, (s.get key).2) := rfl
    simp only [performStore, same]
    generalize s.get key = done
    obtain ⟨t, found⟩ := done
    cases found <;> rfl
  | held slot =>
    have same : s.muted.held = s.held := rfl
    simp only [performStore, same]
    split <;> rfl
  | heldExpiredAt slot moment =>
    have same : s.muted.held = s.held := rfl
    simp only [performStore, same]
    split <;> rfl
  | _ => rfl

theorem performPolicy_muted (s : Session) (action : PolicyAction) :
    s.muted.performPolicy action =
      ((s.performPolicy action).1.muted, (s.performPolicy action).2) := by
  have same : s.muted.clock = s.clock := rfl
  cases action with
  | advance d =>
    simp only [performPolicy, same]
    split <;> rfl
  | setClock moment =>
    simp only [performPolicy, same]
    split <;> rfl
  | _ => rfl

theorem performGate_muted (s : Session) (action : GateAction) :
    s.muted.performGate action =
      ((s.performGate action).1.muted, (s.performGate action).2) := by
  cases action with
  | join name =>
    have same : s.muted.threadOf? name = s.threadOf? name := rfl
    simp only [performGate, same]
    split <;> rfl
  | _ => rfl

theorem startTask_muted (s : Session) (kind : TaskKind) (interval : Span) (signal : StopSignal) :
    s.muted.startTask kind interval signal = (s.startTask kind interval signal).map muted := by
  unfold startTask
  have runtime : s.muted.hasRuntime = s.hasRuntime := rfl
  have cache : s.muted.cache = s.cache := rfl
  rw [runtime, cache]
  split
  · rfl
  · split
    · rfl
    · split <;> rfl

theorem performTask_muted (s : Session) (action : TaskAction) :
    s.muted.performTask action =
      ((s.performTask action).1.muted, (s.performTask action).2) := by
  cases action with
  | start kind name interval signal =>
    have same : s.muted.stops = s.stops := rfl
    simp only [performTask, same, startTask_muted]
    split
    · rfl
    · next signal _ => cases s.startTask kind interval signal <;> rfl
  | abort name =>
    have same : s.muted.background = s.background := rfl
    simp only [performTask, same]
    split <;> rfl
  | hasEnded name => rfl
  | join name =>
    have same : s.muted.memberOf? name = s.memberOf? name := rfl
    simp only [performTask, same]
    split
    · split <;> rfl
    · rfl

theorem perform_muted (s : Session) {action : Action} (other : ∀ note, action ≠ .note note) :
    s.muted.perform action = ((s.perform action).1.muted, (s.perform action).2) := by
  cases action with
  | set key item settings =>
    simp only [perform, build_muted]
    rfl
  | showValue item settings =>
    simp only [perform, build_muted]
  | store action => exact s.performStore_muted action
  | policy action => exact s.performPolicy_muted action
  | note action => exact absurd rfl (other action)
  | channel action => rfl
  | gate action => exact s.performGate_muted action
  | task action => exact s.performTask_muted action

/-! ## Requests -/

theorem muted_perform (s : Session) (action : Action) :
    (s.perform action).1.muted = (s.muted.perform action).1.muted := by
  by_cases note : ∃ note, action = .note note
  · obtain ⟨note, rfl⟩ := note
    rfl
  · rw [s.perform_muted fun n eq => note ⟨n, eq⟩]
    rfl

theorem muted_beginAttempt (s : Session) (index : Nat) :
    (s.beginAttempt index).1.muted = (s.muted.beginAttempt index).1.muted := by
  have same : s.muted.sources = s.sources := rfl
  simp only [beginAttempt, same]
  split <;> rfl

/-- What is noted and reported does not bear on anything else. -/
theorem muted_answer (s : Session) (q : Request) :
    (s.answer q).1.muted = (s.muted.answer q).1.muted := by
  have ticked : ∀ {t t' : Session}, t.muted = t'.muted →
      ({ t with clock := t.clock.tick } : Session).muted =
        ({ t' with clock := t'.clock.tick } : Session).muted :=
    fun same => congrArg (fun u : Session => { u with clock := u.clock.tick }) same
  cases q with
  | act action => exact ticked (s.muted_perform action)
  | snapshot => rfl
  | settle key callback result => cases result <;> rfl
  | attempt source => exact ticked (s.muted_beginAttempt source)
  | record note => rfl
  | heldCallback slot => rfl

theorem timesCalled_beginAttempt (s : Session) (index : Nat) (name : String) :
    (s.beginAttempt index).1.timesCalled name = s.timesCalled name +
      s.sources[index]?.elim 0 fun source => if name = source.name then 1 else 0 := by
  unfold beginAttempt
  cases s.sources[index]? with
  | none => rfl
  | some source =>
    show ((s.journal.calls.put source.name _).find? name).getD 0 = _
    rw [Option.elim_some]
    by_cases same : name = source.name
    · rw [same, Keyed.find?_put_self, if_pos rfl]
      rfl
    · rw [Keyed.find?_put_other _ _ same, if_neg same]
      rfl

/-- Only attempts count as calls. -/
theorem timesCalled_answer (s : Session) {q : Request} (other : ∀ index, q ≠ .attempt index)
    (name : String) : (s.answer q).1.timesCalled name = s.timesCalled name := by
  have same : ∀ {t : Session}, t.journal.calls = s.journal.calls →
      t.timesCalled name = s.timesCalled name := by
    intro t eq
    rw [timesCalled, timesCalled, eq]
  cases q with
  | act action =>
    refine same (t := (s.perform action).1) ?_
    cases action with
    | set key item settings =>
      obtain ⟨sources, built⟩ := s.build_frame item settings
      show (s.build item settings).1.journal.calls = _
      rw [built]
    | showValue item settings =>
      obtain ⟨sources, built⟩ := s.build_frame item settings
      show (s.build item settings).1.journal.calls = _
      rw [built]
    | store action =>
      obtain ⟨held, eq⟩ := s.performStore_frame action
      rw [perform, eq]
    | policy action =>
      rw [perform]
      rcases s.performPolicy_frame action with eq | ⟨_, _, _, eq⟩
      · rw [eq]
      · rw [eq]
    | note action => cases action <;> rfl
    | channel action => rfl
    | gate action =>
      obtain ⟨_, eq, _⟩ := s.performGate_frame action
      rw [perform, eq]
    | task action =>
      rw [perform]
      rcases s.performTask_cases action with ⟨_, eq, _⟩ | ⟨_, _, _, _, _, start, eq, _⟩
      · rw [eq]
      · obtain ⟨_, _, _, _, rfl⟩ := startTask_eq_ok_iff.1 start
        rw [eq]
  | snapshot => rfl
  | settle key callback result => cases result <;> rfl
  | attempt index => exact absurd rfl (other index)
  | record note => rfl
  | heldCallback slot => rfl

/-- Two sessions differ in nothing but what was noted and reported, and the same callbacks were
called as often in both. -/
structure Alike (s t : Session) : Prop where
  muted : s.muted = t.muted
  calls : ∀ name, s.timesCalled name = t.timesCalled name

namespace Alike

variable {s t : Session}

theorem refl (s : Session) : Alike s s := ⟨rfl, fun _ => rfl⟩

theorem sources (h : Alike s t) : s.sources = t.sources := by
  have same := congrArg Session.sources h.muted
  exact same

theorem answer (h : Alike s t) (q : Request) : Alike (s.answer q).1 (t.answer q).1 := by
  refine ⟨by rw [muted_answer s, h.muted, ← muted_answer], fun name => ?_⟩
  by_cases attempt : ∃ index, q = .attempt index
  · obtain ⟨index, rfl⟩ := attempt
    show (s.beginAttempt index).1.timesCalled name = (t.beginAttempt index).1.timesCalled name
    rw [timesCalled_beginAttempt, timesCalled_beginAttempt, h.calls, h.sources]
  · have other : ∀ index, q ≠ .attempt index := fun index eq => attempt ⟨index, eq⟩
    rw [timesCalled_answer s other, timesCalled_answer t other, h.calls]

/-- It does not matter which answers are noted. -/
theorem record (h : Alike s t) (note note' : TraceRecord) :
    Alike (s.answer (.record note)).1 (t.answer (.record note')).1 :=
  ⟨congrArg (fun u : Session => { u with clock := u.clock.tick }) h.muted, h.calls⟩

/-- Replies are the same, but for what they tell of the notes. -/
theorem reply (h : Alike s t) {q : Request} (other : ∀ note, q ≠ .act (.note note)) :
    (s.answer q).2 = (t.answer q).2 := by
  have told : ∀ u : Session, (u.answer q).2 = (u.muted.answer q).2 := by
    intro u
    cases q with
    | act action =>
      show (u.perform action).2 = (u.muted.perform action).2
      rw [u.perform_muted fun note eq => other note (congrArg _ eq)]
    | snapshot => rfl
    | settle key callback result => cases result <;> rfl
    | attempt index =>
      show (u.beginAttempt index).2 = (u.muted.beginAttempt index).2
      have same : u.muted.sources = u.sources := rfl
      simp only [beginAttempt, same]
      split <;> rfl
    | record note => rfl
    | heldCallback slot => rfl
  rw [told s, told t, h.muted]

/-! ## Background -/

theorem members (h : Alike s t) : s.background.members = t.background.members := by
  have same := congrArg (fun u => u.background.members) h.muted
  exact same

theorem look (h : Alike s t) (index : Nat) :
    Alike (s.doPiece (.look index)) (t.doPiece (.look index)) := by
  have told : ∀ u : Session, (u.doPiece (.look index)).muted =
      (u.muted.doPiece (.look index)).muted ∧
      (u.doPiece (.look index)).timesCalled = u.timesCalled := by
    intro u
    have same : u.muted.background = u.background := rfl
    cases found : u.background.members[index]? with
    | none =>
      simp only [doPiece, same, found]
      exact ⟨rfl, trivial⟩
    | some m =>
      have found' : u.muted.background.members[index]? = some m := found
      have looks : u.muted.look m = u.look m := rfl
      rw [doPiece_look_eq found, doPiece_look_eq found', looks]
      generalize u.look m = looked
      obtain ⟨task, step⟩ := looked
      cases step with
      | ticked =>
        simp only [applyLook, tickWork]
        cases task.kind <;> exact ⟨rfl, rfl⟩
      | idle => exact ⟨rfl, rfl⟩
      | begun => exact ⟨rfl, rfl⟩
      | overflowed => exact ⟨rfl, rfl⟩
      | stopped => exact ⟨rfl, rfl⟩
      | cancelled => exact ⟨rfl, rfl⟩
  refine ⟨by rw [(told s).1, (told t).1, h.muted], fun name => ?_⟩
  rw [(told s).2, (told t).2, h.calls]

theorem endCycle (h : Alike s t) (index : Nat) (result : Except String Summary) :
    Alike (s.endCycle index result) (t.endCycle index result) := by
  have told : ∀ u : Session, (u.endCycle index result).muted =
      (u.muted.endCycle index result).muted ∧
      (u.endCycle index result).timesCalled = u.timesCalled := by
    intro u
    have same : u.muted.background = u.background := rfl
    simp only [Session.endCycle, same]
    split
    · exact ⟨rfl, rfl⟩
    · split
      · exact ⟨rfl, rfl⟩
      · cases result <;> exact ⟨rfl, rfl⟩
  refine ⟨by rw [(told s).1, (told t).1, h.muted], fun name => ?_⟩
  rw [(told s).2, (told t).2, h.calls]

end Alike

end Session

end WarmCache
