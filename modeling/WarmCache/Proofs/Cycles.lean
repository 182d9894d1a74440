import WarmCache.Proofs.Happenings
import WarmCache.Proofs.Lives
import WarmCache.Proofs.Worker

/-!
# Cycles under way

The refresh cycle of a worker is work of its own, kept beside the task that began it. What
callers, callbacks, other cycles and other tasks do leaves it where it is; at most it is let
through a gate. It goes on by its own requests only, and it is over when none is left.

Results:
1. `beside_answer`: what a request makes of a cycle.
2. `KeepsGates.follow`: a cycle that is not ready to go on waits at a gate that is closed.
3. `cycle_follow`: whatever happens, a cycle under way goes on to its end.
-/

namespace WarmCache

/-- The work that is left. -/
def Progress.left {α : Type} : Progress α → Work α
  | ready rest => rest
  | waiting _ rest => rest
  | finished result => .done result

theorem Progress.left_letThrough {α : Type} (gate : String) (p : Progress α) :
    (p.letThrough gate).left = p.left := by
  cases p with
  | waiting name rest =>
    simp only [letThrough]
    split <;> rfl
  | ready rest => rfl
  | finished result => rfl

namespace Session

/-- The cycle of task `index`, if there is one. -/
def cycle? (s : Session) (index : Nat) : Option RefreshProgress :=
  s.background.members[index]?.bind Member.cycle

/-- The work that is left of the cycle of task `index`. -/
def cycleLeft? (s : Session) (index : Nat) : Option (Work (Except String Summary)) :=
  (s.cycle? index).map Progress.left

theorem cycle?_of_found {s : Session} {index : Nat} {m : Member}
    (found : s.background.members[index]? = some m) : s.cycle? index = m.cycle := by
  rw [cycle?, found, Option.bind_some]

/-! ## Requests -/

/-- What becomes of the cycle of a task when something is done beside it: nothing, or it is let
through a gate, which may be open from then on. -/
inductive Beside (index : Nat) (s t : Session) : Prop
  | same : t.cycle? index = s.cycle? index →
      t.background.openGates = s.background.openGates → Beside index s t
  | passes (gate : String) : t.cycle? index = (s.cycle? index).map (Progress.letThrough gate) →
      (t.background.openGates = s.background.openGates ∨
        t.background.openGates = gate :: s.background.openGates) → Beside index s t

theorem Beside.of_background {index : Nat} {s t : Session} (h : t.background = s.background) :
    Beside index s t :=
  .same (by rw [cycle?, cycle?, h]) (by rw [h])

theorem cycle?_release {s : Session} {index : Nat} (gate : String) (openGates : List String) :
    ({ s with background := { s.background.release gate with openGates } } : Session).cycle? index =
      (s.cycle? index).map (Progress.letThrough gate) := by
  simp only [cycle?, Background.release, List.getElem?_map]
  cases s.background.members[index]? <;> rfl

theorem beside_performGate (s : Session) (action : GateAction) (index : Nat) :
    Beside index s (s.performGate action).1 := by
  cases action with
  | unlock gate => exact .passes gate (cycle?_release gate _) (.inr rfl)
  | release gate => exact .passes gate (cycle?_release gate _) (.inl rfl)
  | spawnRefresh name => exact .same rfl rfl
  | isBlocked name => exact .same rfl rfl
  | join name =>
    simp only [performGate]
    split <;> exact .same rfl rfl

/-- A task that was just started has no cycle. -/
theorem bind_cycle_append {members : List Member} {m : Member} (idle : m.cycle = none)
    (index : Nat) :
    (members ++ [m])[index]?.bind Member.cycle = members[index]?.bind Member.cycle := by
  rcases Nat.lt_or_ge index members.length with inside | outside
  · rw [List.getElem?_append_left inside]
  · rw [List.getElem?_append_right outside, List.getElem?_eq_none outside, Option.bind_none]
    cases added : [m][index - members.length]? with
    | none => rfl
    | some m' =>
      obtain rfl := List.mem_singleton.1 (List.mem_of_getElem? added)
      exact idle

theorem beside_performTask (s : Session) (action : TaskAction) (index : Nat) :
    Beside index s (s.performTask action).1 := by
  cases action with
  | start kind name interval signal =>
    simp only [performTask]
    split
    · exact .same rfl rfl
    · split
      · exact .same rfl rfl
      · next started start =>
        obtain ⟨i, _, _, _, rfl⟩ := startTask_eq_ok_iff.1 start
        exact .same (bind_cycle_append rfl index) rfl
  | abort name =>
    simp only [performTask]
    split
    · refine .same ?_ rfl
      simp only [cycle?, List.getElem?_modify]
      split <;> cases s.background.members[index]? <;> rfl
    · exact .same rfl rfl
  | hasEnded name => exact .same rfl rfl
  | join name =>
    simp only [performTask]
    split
    · split <;> exact .same rfl rfl
    · exact .same rfl rfl

theorem beside_perform (s : Session) (action : Action) (index : Nat) :
    Beside index s (s.perform action).1 := by
  cases action with
  | set key item settings =>
    obtain ⟨sources, built⟩ := s.build_frame item settings
    refine .of_background ?_
    show (s.build item settings).1.background = _
    rw [built]
  | showValue item settings =>
    obtain ⟨sources, built⟩ := s.build_frame item settings
    refine .of_background ?_
    show (s.build item settings).1.background = _
    rw [built]
  | store action =>
    obtain ⟨held, eq⟩ := s.performStore_frame action
    rw [perform, eq]
    exact .same rfl rfl
  | policy action =>
    rw [perform]
    rcases s.performPolicy_frame action with eq | ⟨_, _, _, eq⟩
    · rw [eq]
      exact .same rfl rfl
    · rw [eq]
      exact .same rfl rfl
  | note action => exact .same rfl rfl
  | channel action => exact .same rfl rfl
  | gate action => exact s.beside_performGate action index
  | task action => exact s.beside_performTask action index

/-- What a request makes of a cycle. -/
theorem beside_answer (s : Session) (q : Request) (index : Nat) :
    Beside index s (s.answer q).1 := by
  cases q with
  | act action =>
    cases s.beside_perform action index with
    | same cycle gates => exact .same cycle gates
    | passes gate cycle gates => exact .passes gate cycle gates
  | settle key callback result =>
    obtain ⟨journal, eq⟩ := s.settleOutcome_frame key callback result
    refine .of_background ?_
    show (s.settleOutcome key callback result).1.background = _
    rw [eq]
  | attempt source =>
    obtain ⟨sources, journal, eq⟩ := s.beginAttempt_frame source
    refine .of_background ?_
    show (s.beginAttempt source).1.background = _
    rw [eq]
  | snapshot => exact .same rfl rfl
  | record note => exact .same rfl rfl
  | heldCallback slot => exact .same rfl rfl

theorem Beside.left {index : Nat} {s t : Session} (h : Beside index s t) :
    t.cycleLeft? index = s.cycleLeft? index := by
  cases h with
  | same cycle gates => rw [cycleLeft?, cycle, cycleLeft?]
  | passes gate cycle gates =>
    rw [cycleLeft?, cycle, cycleLeft?, Option.map_map]
    refine congrArg (fun f => (s.cycle? index).map f) (funext fun p => ?_)
    exact Progress.left_letThrough gate p

/-- Work leaves the cycle of every task with the same work to do, even if it is the work of that
cycle itself, which is only put back when it comes to a gate. -/
theorem During.cycleLeft? {α : Type} {w : Work α} {s t : Session} (passed : During w s t)
    (index : Nat) : t.cycleLeft? index = s.cycleLeft? index := by
  induction passed with
  | begins => rfl
  | asks _ ih => exact ih.trans (beside_answer _ _ index).left
  | passes _ ih => exact ih

/-! ## Pieces -/

section Pieces

variable {s : Session} {index other : Nat} {m : Member}

theorem cycle?_putMember_self (found : s.background.members[index]? = some m) (m' : Member) :
    (s.putMember index m').cycle? index = m'.cycle :=
  cycle?_of_found (getElem?_putMember_self found m')

theorem cycle?_putMember_ne (ne : other ≠ index) (m' : Member) :
    (s.putMember other m').cycle? index = s.cycle? index := by
  rw [cycle?, getElem?_putMember_ne ne, cycle?]

theorem kind_look (s : Session) (m : Member) : (s.look m).1.kind = m.task.kind := by
  have looks := Task.looks s.elapsed (s.stops.channel m.task.signal.channel) m.task
  change Task.Looks _ _ m.task (s.look m).1 (s.look m).2 at looks
  generalize (s.look m).1 = task at looks ⊢
  generalize (s.look m).2 = step at looks
  cases looks with
  | ticked => unfold Task.tick; split <;> rfl
  | _ => rfl

/-- A look makes nothing of a cycle, unless the task takes a tick. -/
theorem cycle?_look (found : s.background.members[index]? = some m) :
    (s.doPiece (.look index)).cycle? index =
      if (s.look m).2 = .ticked then
        if m.task.kind = .refreshWorker then some (.ready Work.wholeRefresh) else none
      else m.cycle := by
  have put : ∀ (t : Session) (m' : Member), t.background.members = s.background.members →
      (t.putMember index m').cycle? index = m'.cycle :=
    fun t m' same => cycle?_putMember_self (same ▸ found) m'
  rw [doPiece_look_eq found]
  cases (s.look m).2 with
  | idle => exact cycle?_of_found found
  | begun => exact put _ _ rfl
  | overflowed => exact put _ _ rfl
  | stopped => exact put _ _ rfl
  | cancelled => exact put _ _ rfl
  | ticked =>
    simp only [if_true, applyLook, tickWork, kind_look]
    cases m.task.kind with
    | refreshWorker => exact put _ _ rfl
    | flusher => exact put _ _ rfl

theorem cycle?_look_ne (ne : other ≠ index) :
    (s.doPiece (.look other)).cycle? index = s.cycle? index := by
  rw [cycle?, getElem?_doPiece_look_ne ne, cycle?]

theorem cycle?_endCycle_self (found : s.background.members[index]? = some m)
    (result : Except String Summary) : (s.endCycle index result).cycle? index = none := by
  have reported : (s.reportCycle result).background.members[index]? = some m := by
    cases result with
    | ok summary => exact found
    | error message => exact found
  unfold endCycle
  simp only [found]
  split
  · exact cycle?_putMember_self found _
  · exact cycle?_putMember_self reported _

theorem cycle?_endCycle_ne (ne : other ≠ index) (result : Except String Summary) :
    (s.endCycle other result).cycle? index = s.cycle? index := by
  rw [cycle?, getElem?_endCycle_ne ne, cycle?]

theorem openGates_look : (s.doPiece (.look index)).background.openGates =
    s.background.openGates := by
  have looked := s.doPiece_look index
  generalize s.doPiece (.look index) = after at looked
  cases looked with
  | idle => rfl
  | passed => rfl

theorem openGates_endCycle (result : Except String Summary) :
    (s.endCycle index result).background.openGates = s.background.openGates := by
  rcases s.endCycle_cases index result with eq | ⟨_, _, _, _, _, _, eq⟩
  · rw [eq]
  · rw [eq]
    rfl

end Pieces

/-! ## Gates -/

/-- Work that is put aside waits at a gate that is closed. -/
theorem waits_of_advance {α : Type} (w : Work α) (s : Session) :
    (∃ result, (s.advance w).2 = .finished result) ∨
      ∃ gate rest, (s.advance w).2 = .waiting gate rest ∧
        gate ∉ (s.advance w).1.background.openGates := by
  induction w generalizing s with
  | done result => exact .inl ⟨result, rfl⟩
  | ask q next ih => exact ih _ _
  | gate name rest ih =>
    unfold advance
    split
    · exact ih s
    · next closed =>
      exact .inr ⟨name, rest, rfl, fun opened => closed (List.contains_iff_mem.2 opened)⟩

/-- Every cycle is ready to go on or waits at a gate that is closed. -/
def KeepsGates (s : Session) : Prop :=
  ∀ (index : Nat) (p : RefreshProgress), s.cycle? index = some p →
    (∃ rest, p = .ready rest) ∨
      ∃ gate rest, p = .waiting gate rest ∧ gate ∉ s.background.openGates

namespace KeepsGates

variable {s t : Session}

theorem of_same (h : s.KeepsGates) (cycles : ∀ index, t.cycle? index = s.cycle? index)
    (gates : t.background.openGates = s.background.openGates) : t.KeepsGates := by
  intro index p found
  rw [cycles] at found
  rw [gates]
  exact h index p found

theorem beside (h : s.KeepsGates) (besides : ∀ index, Beside index s t) : t.KeepsGates := by
  intro index p found
  cases besides index with
  | same cycle gates =>
    rw [cycle] at found
    rw [gates]
    exact h index p found
  | passes gate cycle gates =>
    rw [cycle] at found
    obtain ⟨old, there, rfl⟩ := Option.map_eq_some_iff.1 found
    rcases h index old there with ⟨rest, rfl⟩ | ⟨name, rest, rfl, closed⟩
    · exact .inl ⟨rest, rfl⟩
    · by_cases same : name = gate
      · exact .inl ⟨rest, if_pos same⟩
      · refine .inr ⟨name, rest, if_neg same, ?_⟩
        rcases gates with gates | gates
        · rw [gates]
          exact closed
        · rw [gates, List.mem_cons, not_or]
          exact ⟨same, closed⟩

theorem during {α : Type} {w : Work α} (h : s.KeepsGates) (passed : During w s t) :
    t.KeepsGates := by
  induction passed with
  | begins => exact h
  | asks _ ih => exact ih (h.beside fun index => beside_answer _ _ index)
  | passes _ ih => exact ih h

theorem endCycle (h : s.KeepsGates) (index : Nat) (result : Except String Summary) :
    (s.endCycle index result).KeepsGates := by
  intro other p found
  rw [openGates_endCycle]
  by_cases same : index = other
  · subst same
    cases there : s.background.members[index]? with
    | none =>
      unfold Session.endCycle at found
      simp only [there] at found
      exact h index p found
    | some m =>
      rw [cycle?_endCycle_self there] at found
      cases found
  · rw [cycle?_endCycle_ne same] at found
    exact h other p found

theorem putMember {index : Nat} {m m' : Member} (h : s.KeepsGates)
    (found : s.background.members[index]? = some m)
    (cycle : ∀ p, m'.cycle = some p → (∃ rest, p = .ready rest) ∨
      ∃ gate rest, p = .waiting gate rest ∧ gate ∉ s.background.openGates) :
    (s.putMember index m').KeepsGates := by
  intro other p there
  by_cases same : index = other
  · subst same
    rw [cycle?_putMember_self found] at there
    exact cycle p there
  · rw [cycle?_putMember_ne same] at there
    exact h other p there

theorem doPiece (h : s.KeepsGates) (piece : Piece) : (s.doPiece piece).KeepsGates := by
  cases piece with
  | look index =>
    intro other p found
    rw [openGates_look]
    by_cases same : index = other
    · subst same
      cases there : s.background.members[index]? with
      | none =>
        simp only [Session.doPiece, there] at found
        exact h index p found
      | some m =>
        rw [cycle?_look there] at found
        split at found
        · split at found
          · obtain rfl := Option.some.inj found
            exact .inl ⟨_, rfl⟩
          · cases found
        · exact h index p ((cycle?_of_found there).trans found)
    · rw [cycle?_look_ne same] at found
      exact h other p found
  | thread index =>
    simp only [Session.doPiece]
    split
    · next rest _ =>
      have before : ({ s with hasRuntime := false } : Session).KeepsGates := h
      exact (before.during (during_advance rest _)).of_same (fun _ => rfl) rfl
    · exact h
  | cycle index =>
    simp only [Session.doPiece]
    split
    · next rest _ =>
      have reached := h.during (during_advance rest s)
      have stands := waits_of_advance rest s
      unfold resumeCycle
      generalize s.advance rest = advanced at reached stands
      obtain ⟨after, progress⟩ := advanced
      rcases stands with ⟨result, rfl⟩ | ⟨gate, left, rfl, closed⟩
      · exact reached.endCycle index result
      · dsimp only at reached closed ⊢
        split
        · exact reached
        · next m there =>
          refine reached.putMember there fun p found => ?_
          obtain rfl := Option.some.inj found
          exact .inr ⟨gate, left, rfl, closed⟩
    · exact h

theorem happen (h : s.KeepsGates) (happening : Happening) : (s.happen happening).1.KeepsGates := by
  cases happening with
  | command command => exact h.during (during_finish command.work s)
  | piece piece => exact h.doPiece piece
  | time nanos => exact h
  | reading => exact h

theorem follow (h : s.KeepsGates) (hs : List Happening) : (s.follow hs).1.KeepsGates := by
  induction hs generalizing s with
  | nil => exact h
  | cons happening rest ih => exact ih (h.happen happening)

theorem ofCache (ttl : Span) (limit : Option Nat) (time : TimeSource) (hasRuntime : Bool) :
    (Session.ofCache ttl limit time hasRuntime).KeepsGates := nofun

end KeepsGates

/-! ## Cycles go on -/

/-- Work `w`, begun in session `s`, has been carried on until `w'` is left of it in session `t`.
Its own requests are answered one after the other, and between two of them anything may happen. -/
inductive Carries {α : Type} (w : Work α) (s : Session) : Work α → Session → Prop
  | begins : Carries w s w s
  | asks {q : Request} {next : Reply q → Work α} {t : Session} :
      Carries w s (.ask q next) t → Carries w s (next (t.answer q).2) (t.answer q).1
  | passes {gate : String} {rest : Work α} {t : Session} :
      Carries w s (.gate gate rest) t → Carries w s rest t
  | pauses {w' : Work α} {t u : Session} : Carries w s w' t → Reaches t u → Carries w s w' u

namespace Carries

variable {α : Type} {w w' w'' : Work α} {s t u : Session}

theorem trans (h : Carries w s w' t) (h' : Carries w' t w'' u) : Carries w s w'' u := by
  induction h' with
  | begins => exact h
  | asks _ ih => exact ih.asks
  | passes _ ih => exact ih.passes
  | pauses _ reaches ih => exact ih.pauses reaches

theorem advance (w : Work α) (s : Session) :
    Carries w s (s.advance w).2.left (s.advance w).1 := by
  induction w generalizing s with
  | done result => exact .begins
  | ask q next ih => exact (Carries.begins.asks (q := q)).trans (ih _ _)
  | gate name rest ih =>
    unfold Session.advance
    split
    · exact Carries.begins.passes.trans (ih s)
    · exact Carries.begins.passes

end Carries

/-- What becomes of a cycle with work `w` left when something happens: it is carried on, or it
comes to its end. -/
inductive GoesOn (w : Work (Except String Summary)) (s : Session) (index : Nat) : Session → Prop
  | left {w' : Work (Except String Summary)} {t : Session} :
      t.cycleLeft? index = some w' → Carries w s w' t → GoesOn w s index t
  | ends {t : Session} (result : Except String Summary) :
      Carries w s (.done result) t → t.HasCycle index →
      GoesOn w s index (t.endCycle index result)

section GoesOn

variable {ttl : Span} {limit : Option Nat} {time : TimeSource} {hasRuntime : Bool}
  {s : Session} {index : Nat} {w : Work (Except String Summary)}

theorem GoesOn.of_same {t : Session} (left : s.cycleLeft? index = some w)
    (same : t.cycleLeft? index = s.cycleLeft? index) (reaches : Reaches s t) :
    GoesOn w s index t :=
  .left (same.trans left) (Carries.begins.pauses reaches)

/-- A task whose cycle is under way takes no tick. -/
theorem not_ticked_of_cycle (reached : Reachable ttl limit time hasRuntime s) {m : Member}
    (found : s.background.members[index]? = some m) (inCycle : m.cycle.isSome = true) :
    (s.look m).2 ≠ .ticked := by
  intro ticked
  obtain ⟨ticker, waits⟩ := standing_of_ticked ticked
  have sound := reached.claimed.sound _ (List.mem_of_getElem? (getElem?_standings found))
  obtain ⟨_, ⟨_, phase⟩ | ⟨_, phase⟩⟩ := sound inCycle
  · cases waits.symm.trans phase
  · cases waits.symm.trans phase

theorem goesOn_look (reached : Reachable ttl limit time hasRuntime s)
    (left : s.cycleLeft? index = some w) (other : Nat) :
    GoesOn w s index (s.doPiece (.look other)) := by
  refine .of_same left ?_ (atOnce_look s other).proceeds.reaches
  rw [cycleLeft?, cycleLeft?]
  by_cases same : other = index
  · subst same
    obtain ⟨p, there, _⟩ := Option.map_eq_some_iff.1 left
    obtain ⟨m, found, cycle⟩ := Option.bind_eq_some_iff.1 there
    have goes := not_ticked_of_cycle reached found (by rw [cycle]; rfl)
    rw [cycle?_look found, if_neg goes, cycle?_of_found found]
  · rw [cycle?_look_ne same]

theorem goesOn_thread (left : s.cycleLeft? index = some w) (other : Nat) :
    GoesOn w s index (s.doPiece (.thread other)) := by
  refine .of_same left ?_ (atOnce_doPiece s _).proceeds.reaches
  simp only [doPiece]
  split
  · next rest _ =>
    exact (during_advance rest { s with hasRuntime := false }).cycleLeft? index
  · rfl

/-- The cycle itself goes on, to its end or to a gate. -/
theorem goesOn_resumeCycle {rest : Work (Except String Summary)}
    (ready : s.cycle? index = some (.ready rest)) :
    GoesOn rest s index (s.resumeCycle index rest) := by
  obtain ⟨m, found, cycle⟩ := Option.bind_eq_some_iff.1 ready
  have carried := Carries.advance rest s
  have still : (s.advance rest).1.HasCycle index :=
    HasCycle.during ⟨m, found, by rw [cycle]; rfl⟩ (during_advance rest s)
  have stands := waits_of_advance rest s
  unfold resumeCycle
  generalize s.advance rest = advanced at carried still stands
  obtain ⟨after, progress⟩ := advanced
  rcases stands with ⟨result, rfl⟩ | ⟨gate, left, rfl, _⟩
  · exact .ends result carried still
  · obtain ⟨m', there, inCycle⟩ := still
    dsimp only at there carried ⊢
    simp only [there]
    have moved : (after.putMember index
        { m' with cycle := some (.waiting gate left) }).cycleLeft? index = some left := by
      rw [cycleLeft?, cycle?_putMember_self there]
      rfl
    exact .left moved (carried.pauses (.single (.cycleMoves _ there inCycle)))

theorem goesOn_cycle (left : s.cycleLeft? index = some w) (other : Nat) :
    GoesOn w s index (s.doPiece (.cycle other)) := by
  have reaches := (atOnce_doPiece s (.cycle other)).proceeds.reaches
  unfold doPiece at reaches ⊢
  dsimp only at reaches ⊢
  split
  · next rest ready =>
    by_cases same : other = index
    · subst same
      obtain ⟨p, there, rfl⟩ := Option.map_eq_some_iff.1 left
      obtain rfl := Option.some.inj (there.symm.trans ready)
      exact goesOn_resumeCycle ready
    · refine .of_same left ?_ (by rw [ready] at reaches; exact reaches)
      have kept := (during_advance rest s).cycleLeft? index
      rw [← kept, resumeCycle]
      generalize s.advance rest = advanced
      obtain ⟨after, progress⟩ := advanced
      rw [cycleLeft?, cycleLeft?]
      cases progress with
      | finished result =>
        show Option.map _ ((after.endCycle other result).cycle? index) = _
        rw [cycle?_endCycle_ne same]
      | ready rest =>
        dsimp only
        split
        · rfl
        · rw [cycle?_putMember_ne same]
      | waiting gate rest =>
        dsimp only
        split
        · rfl
        · rw [cycle?_putMember_ne same]
  · exact .of_same left rfl .refl

/-- A cycle goes on, whatever happens. -/
theorem goesOn_happen (reached : Reachable ttl limit time hasRuntime s)
    (left : s.cycleLeft? index = some w) (happening : Happening) :
    GoesOn w s index (s.happen happening).1 := by
  cases happening with
  | command command =>
    have passed := during_finish command.work s
    exact .of_same left (passed.cycleLeft? index) passed.reaches
  | piece piece =>
    cases piece with
    | look other => exact goesOn_look reached left other
    | thread other => exact goesOn_thread left other
    | cycle other => exact goesOn_cycle left other
  | time nanos => exact .of_same left rfl (.single (.time _))
  | reading => exact .of_same left rfl (.single (.request .snapshot))

theorem Reachable.happen (reached : Reachable ttl limit time hasRuntime s)
    (happening : Happening) : Reachable ttl limit time hasRuntime (s.happen happening).1 :=
  Relation.ReflTransGen.trans reached (proceeds_happen s happening).reaches

theorem Reachable.follow (reached : Reachable ttl limit time hasRuntime s) (hs : List Happening) :
    Reachable ttl limit time hasRuntime (s.follow hs).1 :=
  Relation.ReflTransGen.trans reached (proceeds_follow s hs).reaches

/-- A cycle under way is carried on, whatever happens, until it comes to its end. -/
theorem cycle_follow (reached : Reachable ttl limit time hasRuntime s)
    (left : s.cycleLeft? index = some w) (hs : List Happening) :
    (∃ w', (s.follow hs).1.cycleLeft? index = some w' ∧ Carries w s w' (s.follow hs).1) ∨
      ∃ first rest t result, hs = first ++ rest ∧ Carries w s (.done result) t ∧
        t.HasCycle index ∧ (s.follow first).1 = t.endCycle index result := by
  induction hs generalizing s w with
  | nil => exact .inl ⟨w, left, .begins⟩
  | cons happening rest ih =>
    have goes := goesOn_happen reached left happening
    have again := reached.happen happening
    have next := follow_cons_fst s happening
    generalize (s.happen happening).1 = t at goes again next
    cases goes with
    | left left' carried =>
      rcases ih again left' with
        ⟨w', still, more⟩ | ⟨first, later, u, result, rfl, more, has, ends⟩
      · rw [next]
        exact .inl ⟨w', still, carried.trans more⟩
      · refine .inr ⟨happening :: first, later, u, result, rfl, carried.trans more, has, ?_⟩
        rw [next]
        exact ends
    | ends result carried has =>
      exact .inr ⟨[happening], rest, _, result, rfl, carried, has, next []⟩

end GoesOn

end Session

end WarmCache
