import Mathlib.Logic.Relation
import WarmCache.Session.Run
import WarmCache.Proofs.Pieces

/-!
# Reachable sessions

A session goes on in small steps: a request is answered, a background task is looked at, a cycle
comes to a gate or to its end, time passes. Callers, callbacks, background refreshes and cycles
all make their requests one by one, so the sessions between two steps are also those at which
some callback is under way. `Reachable` is the closure of the session of a new cache under these
steps, in any order.

Results:
1. `proceeds_run`, `Reachable.run`, `Reachable.finish`: whatever a session does is made of such
   steps, with time never going back, and so is work of any kind that runs to its end.
2. `Reachable.during`: work passes through reachable sessions only.
3. `Step.cache`: to the entries a step does a run of operations, and nothing else.
-/

namespace WarmCache

namespace Session

/-! ## Steps -/

/-- A cycle of task `index` exists. -/
def HasCycle (s : Session) (index : Nat) : Prop :=
  ∃ m, s.background.members[index]? = some m ∧ m.cycle.isSome = true

/-- One step of a session. -/
inductive Step : Session → Session → Prop
  /-- A caller, a callback, a background refresh or a cycle has a request answered. -/
  | request {s : Session} (q : Request) : Step s (s.answer q).1
  /-- A background task is looked at. -/
  | look {s : Session} (index : Nat) : Step s (s.doPiece (.look index))
  /-- A cycle comes to a gate, or goes on from one. -/
  | cycleMoves {s : Session} {index : Nat} {m : Member} (progress : RefreshProgress) :
      s.background.members[index]? = some m → m.cycle.isSome = true →
      Step s (s.putMember index { m with cycle := some progress })
  /-- A cycle comes to its end, be it by a panic. -/
  | cycleEnds {s : Session} {index : Nat} (result : Except String Summary) :
      s.HasCycle index → Step s (s.endCycle index result)
  /-- Background refreshes come to gates, go on from them or come to their ends. -/
  | threads {s : Session} (threads : List RefreshProgress) :
      Step s { s with background := { s.background with threads } }
  /-- What runs next has something that background tasks could run on, or has not. -/
  | runtime {s : Session} (hasRuntime : Bool) : Step s { s with hasRuntime }
  /-- The session is at another time. -/
  | time {s : Session} (elapsed : Nat) : Step s { s with elapsed }

/-- Any number of steps lead from one session to the other. -/
abbrev Reaches : Session → Session → Prop := Relation.ReflTransGen Step

/-- Any number of steps lead from one session to the other, and no time passes. -/
abbrev AtOnce : Session → Session → Prop :=
  Relation.ReflTransGen fun s t => Step s t ∧ t.elapsed = s.elapsed

/-- Any number of steps lead from one session to the other, and time does not go back. -/
abbrev Proceeds : Session → Session → Prop :=
  Relation.ReflTransGen fun s t => Step s t ∧ s.elapsed ≤ t.elapsed

/-- A session that the session of a new cache can come to. -/
def Reachable (ttl : Span) (limit : Option Nat) (time : TimeSource) (hasRuntime : Bool)
    (s : Session) : Prop :=
  Reaches (ofCache ttl limit time hasRuntime) s

/-- Session `t` is one that work passes through when it is begun in session `s`: the first, the
last, or one between two of its requests. -/
inductive During {α : Type} : Work α → Session → Session → Prop
  | begins {w : Work α} {s : Session} : During w s s
  | asks {q : Request} {next : Reply q → Work α} {s t : Session} :
      During (next (s.answer q).2) (s.answer q).1 t → During (.ask q next) s t
  | passes {name : String} {rest : Work α} {s t : Session} :
      During rest s t → During (.gate name rest) s t

/-! ## Work is made of steps -/

theorem AtOnce.proceeds {s t : Session} (h : AtOnce s t) : Proceeds s t :=
  Relation.ReflTransGen.mono (fun _ _ step => ⟨step.1, Nat.le_of_eq step.2.symm⟩) _ _ h

theorem Proceeds.reaches {s t : Session} (h : Proceeds s t) : Reaches s t :=
  Relation.ReflTransGen.mono (fun _ _ step => step.1) _ _ h

theorem AtOnce.elapsed {s t : Session} (h : AtOnce s t) : t.elapsed = s.elapsed := by
  induction h with
  | refl => rfl
  | tail _ step ih => exact step.2.trans ih

theorem atOnce_answer (s : Session) (q : Request) : AtOnce s (s.answer q).1 :=
  .single ⟨.request q, (s.answered q).clock.1⟩

theorem During.atOnce {α : Type} {w : Work α} {s t : Session} (h : During w s t) :
    AtOnce s t := by
  induction h with
  | begins => exact .refl
  | asks _ ih => exact (atOnce_answer _ _).trans ih
  | passes _ ih => exact ih

theorem During.reaches {α : Type} {w : Work α} {s t : Session} (h : During w s t) :
    Reaches s t :=
  h.atOnce.proceeds.reaches

theorem during_finish {α : Type} (w : Work α) (s : Session) : During w s (s.finish w).1 := by
  induction w generalizing s with
  | done result => exact .begins
  | ask q next ih => exact .asks (ih _ _)
  | gate name rest ih => exact .passes (ih s)

theorem during_advance {α : Type} (w : Work α) (s : Session) : During w s (s.advance w).1 := by
  induction w generalizing s with
  | done result => exact .begins
  | ask q next ih => exact .asks (ih _ _)
  | gate name rest ih =>
    unfold advance
    split
    · exact .passes (ih s)
    · exact .begins

theorem hasCycle_iff_standings {s : Session} {index : Nat} :
    s.HasCycle index ↔
      ∃ standing, s.background.standings[index]? = some standing ∧ standing.inCycle = true := by
  simp only [HasCycle, Background.standings, List.getElem?_map, Option.map_eq_some_iff,
    exists_exists_and_eq_and]
  rfl

/-- No request takes a cycle away. -/
theorem HasCycle.answer {s : Session} {index : Nat} (h : s.HasCycle index) (q : Request) :
    (s.answer q).1.HasCycle index := by
  rw [hasCycle_iff_standings] at h ⊢
  obtain ⟨standing, found, inCycle⟩ := h
  refine ⟨standing, ?_, inCycle⟩
  rcases (s.answered q).tasks with ⟨same, _⟩ | ⟨_, _, _, started, start, same, _⟩
  · rw [same]
    exact found
  · obtain ⟨inside, _⟩ := List.getElem?_eq_some_iff.1 found
    rw [same, (startTask_standings start).1, List.getElem?_append_left inside]
    exact found

theorem HasCycle.during {α : Type} {w : Work α} {s t : Session} {index : Nat}
    (h : s.HasCycle index) (passed : During w s t) : t.HasCycle index := by
  induction passed with
  | begins => exact h
  | asks _ ih => exact ih (h.answer _)
  | passes _ ih => exact ih h

theorem atOnce_endCycle {s : Session} {index : Nat} (h : s.HasCycle index)
    (result : Except String Summary) : AtOnce s (s.endCycle index result) := by
  refine .single ⟨.cycleEnds result h, ?_⟩
  rcases s.endCycle_cases index result with eq | ⟨_, _, _, _, _, _, eq⟩
  · rw [eq]
  · rw [eq]
    rfl

theorem atOnce_resumeCycle {s : Session} {index : Nat} (h : s.HasCycle index)
    (rest : Work (Except String Summary)) : AtOnce s (s.resumeCycle index rest) := by
  -- the member is looked up anew after the work, and its cycle is still there
  have passed := during_advance rest s
  have still := h.during passed
  unfold resumeCycle
  generalize s.advance rest = reached at passed still
  obtain ⟨after, progress⟩ := reached
  obtain ⟨m, found, inCycle⟩ := still
  cases progress with
  | finished result => exact passed.atOnce.trans (atOnce_endCycle ⟨m, found, inCycle⟩ result)
  | ready rest =>
    simp only at found ⊢
    simp only [found]
    exact passed.atOnce.tail ⟨.cycleMoves _ found inCycle, rfl⟩
  | waiting name rest =>
    simp only at found ⊢
    simp only [found]
    exact passed.atOnce.tail ⟨.cycleMoves _ found inCycle, rfl⟩

theorem atOnce_resumeThread (s : Session) (index : Nat) (rest : Work (Except String Summary)) :
    AtOnce s (s.resumeThread index rest) := by
  have passed := (during_advance rest { s with hasRuntime := false }).atOnce
  have back := (passed.head ⟨.runtime false, rfl⟩).tail ⟨.runtime s.hasRuntime, rfl⟩
  exact back.tail ⟨.threads _, rfl⟩

theorem atOnce_look (s : Session) (index : Nat) : AtOnce s (s.doPiece (.look index)) := by
  refine .single ⟨.look index, ?_⟩
  have looked := s.doPiece_look index
  generalize s.doPiece (.look index) = after at looked
  cases looked with
  | idle => rfl
  | passed => rfl

theorem atOnce_doPiece (s : Session) (piece : Piece) : AtOnce s (s.doPiece piece) := by
  cases piece with
  | look index => exact atOnce_look s index
  | thread index =>
    simp only [doPiece]
    split
    · exact atOnce_resumeThread s index _
    · exact .refl
  | cycle index =>
    simp only [doPiece]
    split
    · next rest found =>
      obtain ⟨m, member, cycle⟩ := Option.bind_eq_some_iff.1 found
      exact atOnce_resumeCycle ⟨m, member, by rw [cycle]; rfl⟩ rest
    · exact .refl

theorem atOnce_settle (s : Session) : AtOnce s s.settle := by
  unfold settle
  generalize sparePieces + s.backlog = pieces
  induction pieces generalizing s with
  | zero => exact .refl
  | succ pieces ih =>
    unfold settleWithin step?
    cases s.pieces.head? with
    | none => exact .refl
    | some piece => exact (atOnce_doPiece s piece).trans (ih _)

/-- Time only passes forward, if it is read off as the milliseconds until `t`. -/
theorem proceeds_passMillis (past target t : Nat) (s : Session)
    (reads : s.elapsed = Span.nanosPerMilli * t + past) (ahead : t ≤ target) :
    Proceeds s (passMillis past target t s).1 := by
  have later : ∀ {u : Nat}, t ≤ u → s.elapsed ≤ Span.nanosPerMilli * u + past := by
    intro u le
    rw [reads]
    exact Nat.add_le_add_right (Nat.mul_le_mul_left _ le) past
  fun_induction passMillis past target t s with
  | case1 t s blocked => exact .refl
  | case2 t s free idle => exact .single ⟨.time _, later ahead⟩
  | case3 t s free d due between ih =>
    have settled := atOnce_settle { s with elapsed := Span.nanosPerMilli * d + past }
    have rest := ih settled.elapsed between.2 fun {u} le => by
      rw [settled.elapsed]
      exact Nat.add_le_add_right (Nat.mul_le_mul_left _ le) past
    exact (settled.proceeds.head ⟨.time _, later (Nat.le_of_lt between.1)⟩).trans rest
  | case4 t s free d due beyond => exact .single ⟨.time _, later ahead⟩

theorem proceeds_act (s : Session) (m : Move) : Proceeds s (s.act m).1 := by
  cases m with
  | run command => exact (during_finish command.work s).atOnce.proceeds
  | sleep d =>
    simp only [act, sleep]
    split
    · exact .refl
    · refine proceeds_passMillis _ _ _ s (Nat.div_add_mod _ _).symm ?_
      simp only [wakeTime, Span.millisUp, Span.nanosPerMilli]
      omega
  | jump d => exact .single ⟨.time _, Nat.le_add_right _ _⟩

theorem proceeds_run (s : Session) (moves : List Move) : Proceeds s (s.run moves).1 := by
  induction moves generalizing s with
  | nil => exact .refl
  | cons m rest ih => exact ((proceeds_act s m).trans (atOnce_settle _).proceeds).trans (ih _)

section Reachable

variable {ttl : Span} {limit : Option Nat} {time : TimeSource} {hasRuntime : Bool} {s : Session}

/-- A session under way is reachable, whatever moves it makes. -/
theorem Reachable.run (h : Reachable ttl limit time hasRuntime s) (moves : List Move) :
    Reachable ttl limit time hasRuntime (s.run moves).1 :=
  h.trans (proceeds_run s moves).reaches

/-- Work, whatever callbacks it calls, passes through reachable sessions only. -/
theorem Reachable.during {α : Type} {w : Work α} {t : Session}
    (h : Reachable ttl limit time hasRuntime s) (passed : During w s t) :
    Reachable ttl limit time hasRuntime t :=
  h.trans passed.reaches

/-! ## What a step does to the entries -/

/-- To the entries a step does a run of operations; besides, the claim of a worker may change. -/
theorem Step.cache {s t : Session} (h : Step s t) :
    ∃ ops taken, t.cache = (s.cache.applyAll ops).claim taken := by
  cases h with
  | request q => exact ⟨_, (s.answered q).cache⟩
  | look index =>
    have looked := s.doPiece_look index
    generalize s.doPiece (.look index) = after at looked
    cases looked with
    | idle => exact ⟨[], s.cache.workerRunning, rfl⟩
    | passed => exact ⟨_, _, Cache.applyAll_claim _ _ _⟩
  | cycleMoves => exact ⟨[], _, rfl⟩
  | @cycleEnds index result =>
    rcases s.endCycle_cases index result with eq | ⟨_, _, _, _, _, _, eq⟩
    · rw [eq]
      exact ⟨[], s.cache.workerRunning, rfl⟩
    · rw [eq]
      exact ⟨[], _, rfl⟩
  | threads => exact ⟨[], s.cache.workerRunning, rfl⟩
  | runtime => exact ⟨[], s.cache.workerRunning, rfl⟩
  | time => exact ⟨[], s.cache.workerRunning, rfl⟩

end Reachable

end Session

end WarmCache
