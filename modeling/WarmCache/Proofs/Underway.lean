import WarmCache.Proofs.Ledger
import WarmCache.Proofs.Replacing

/-!
# Every run has a history

Work in the background is put aside at gates and taken up again, in any order, while callers make
commands. Here each piece of it that is not over is a job of one history: a job is there from the
time at which a refresh is begun until it is over, and the history goes on with it whenever it is
taken up.

Results:
1. `begins_answer`, `begins_look`: refreshes come to be under way as they are begun.
2. `Tells.finish`, `Tells.advance`: the history of a session goes on with work that is done in it.
3. `history_follow`: whatever happens in a session has a history, and its jobs are the refreshes
   under way.
-/

namespace WarmCache

/-- The work that is left, unless there is a result. -/
def Progress.unfinished? {α : Type} : Progress α → Option (Work α)
  | ready rest => some rest
  | waiting _ rest => some rest
  | finished _ => none

theorem Progress.unfinished?_letThrough {α : Type} (gate : String) (p : Progress α) :
    (p.letThrough gate).unfinished? = p.unfinished? := by
  cases p with
  | waiting name rest =>
    simp only [letThrough]
    split <;> rfl
  | ready rest => rfl
  | finished result => rfl

/-- The work that is left of the cycle of a task, if it has one. -/
def Member.unfinished? (m : Member) : Option (Work (Except String Summary)) :=
  m.cycle.bind Progress.unfinished?

theorem filterMap_modify {α β : Type} {f : α → Option β} {g : α → α} (same : ∀ a, f (g a) = f a)
    (l : List α) (index : Nat) : (l.modify index g).filterMap f = l.filterMap f := by
  induction l generalizing index with
  | nil => rw [List.modify_nil]
  | cons head rest ih =>
    cases index with
    | zero => rw [List.modify_zero_cons, List.filterMap_cons, List.filterMap_cons, same]
    | succ index => rw [List.modify_succ_cons, List.filterMap_cons, List.filterMap_cons, ih]

namespace Session

/-- What is left of the cycles of all tasks. -/
def cyclesLeft (s : Session) : List (Work (Except String Summary)) :=
  s.background.members.filterMap Member.unfinished?

/-- What is left of the background refreshes and of the cycles. -/
def underWay (s : Session) : List (Work (Except String Summary)) :=
  s.background.threads.filterMap Progress.unfinished? ++ s.cyclesLeft

/-! ## Refreshes come to be under way -/

/-- What a request makes of the refreshes in the background. -/
inductive Tends (s t : Session) : Prop
  | keeps : t.background.threads = s.background.threads → t.cyclesLeft = s.cyclesLeft → Tends s t
  | letsThrough (gate : String) :
      t.background.threads = s.background.threads.map (Progress.letThrough gate) →
      t.cyclesLeft = s.cyclesLeft → Tends s t
  | spawns : t.background.threads = s.background.threads ++ [.ready Work.wholeRefresh] →
      t.cyclesLeft = s.cyclesLeft → Tends s t

theorem Tends.of_background {s t : Session} (h : t.background = s.background) : Tends s t :=
  .keeps (by rw [h]) (by rw [cyclesLeft, cyclesLeft, h])

theorem cyclesLeft_release (b : Background) (gate : String) :
    (b.release gate).members.filterMap Member.unfinished? =
      b.members.filterMap Member.unfinished? := by
  simp only [Background.release, List.filterMap_map]
  refine List.filterMap_congr fun m _ => ?_
  simp only [Function.comp_apply, Member.unfinished?, Option.bind_map]
  exact congrArg m.cycle.bind (funext fun p => p.unfinished?_letThrough gate)

theorem tends_performGate (s : Session) (action : GateAction) :
    Tends s (s.performGate action).1 := by
  cases action with
  | unlock gate => exact .letsThrough gate rfl (cyclesLeft_release s.background gate)
  | release gate => exact .letsThrough gate rfl (cyclesLeft_release s.background gate)
  | spawnRefresh name => exact .spawns rfl rfl
  | isBlocked name => exact .keeps rfl rfl
  | join name =>
    simp only [performGate]
    split <;> exact .keeps rfl rfl

theorem tends_performTask (s : Session) (action : TaskAction) :
    Tends s (s.performTask action).1 := by
  cases action with
  | start kind name interval signal =>
    simp only [performTask]
    split
    · exact .keeps rfl rfl
    · split
      · exact .keeps rfl rfl
      · next started start =>
        obtain ⟨i, _, _, _, rfl⟩ := startTask_eq_ok_iff.1 start
        exact .keeps rfl (List.filterMap_append.trans (List.append_nil _))
  | abort name =>
    simp only [performTask]
    split
    · -- an abort leaves every cycle as it is
      refine .keeps rfl (filterMap_modify ?_ _ _)
      intro m
      rfl
    · exact .keeps rfl rfl
  | hasEnded name => exact .keeps rfl rfl
  | join name =>
    simp only [performTask]
    split
    · split <;> exact .keeps rfl rfl
    · exact .keeps rfl rfl

theorem tends_perform (s : Session) (action : Action) : Tends s (s.perform action).1 := by
  cases action with
  | set key item settings =>
    obtain ⟨sources, built⟩ := s.build_frame item settings
    refine .of_background ?_
    show (s.build item settings).1.background = _
    rw [built]
  | showValue item settings =>
    obtain ⟨sources, built⟩ := s.build_frame item settings
    refine .of_background ?_
    show (s.build item settings).1.background = _
    rw [built]
  | store action =>
    obtain ⟨held, eq⟩ := s.performStore_frame action
    rw [perform, eq]
    exact .keeps rfl rfl
  | policy action =>
    rw [perform]
    rcases s.performPolicy_frame action with eq | ⟨_, _, _, eq⟩
    · rw [eq]
      exact .keeps rfl rfl
    · rw [eq]
      exact .keeps rfl rfl
  | note action => exact .keeps rfl rfl
  | channel action => exact .keeps rfl rfl
  | gate action => exact s.tends_performGate action
  | task action => exact s.tends_performTask action

theorem tends_answer (s : Session) (q : Request) : Tends s (s.answer q).1 := by
  cases q with
  | act action =>
    cases s.tends_perform action with
    | keeps threads cycles => exact .keeps threads cycles
    | letsThrough gate threads cycles => exact .letsThrough gate threads cycles
    | spawns threads cycles => exact .spawns threads cycles
  | settle key callback result =>
    obtain ⟨journal, eq⟩ := s.settleOutcome_frame key callback result
    refine .of_background ?_
    show (s.settleOutcome key callback result).1.background = _
    rw [eq]
  | attempt source =>
    obtain ⟨sources, journal, eq⟩ := s.beginAttempt_frame source
    refine .of_background ?_
    show (s.beginAttempt source).1.background = _
    rw [eq]
  | snapshot => exact .keeps rfl rfl
  | record note => exact .keeps rfl rfl
  | heldCallback slot => exact .keeps rfl rfl

/-- Some refreshes have begun, and otherwise the same is under way. -/
def Begins (s t : Session) : Prop :=
  ∃ n, t.underWay.Perm (List.replicate n Work.wholeRefresh ++ s.underWay)

theorem Begins.of_eq {s t : Session} (h : t.underWay = s.underWay) : Begins s t :=
  ⟨0, .of_eq h⟩

theorem begins_answer (s : Session) (q : Request) : Begins s (s.answer q).1 := by
  cases s.tends_answer q with
  | keeps threads cycles => exact .of_eq (by rw [underWay, threads, cycles, underWay])
  | letsThrough gate threads cycles =>
    refine .of_eq ?_
    rw [underWay, threads, cycles, List.filterMap_map, underWay]
    refine congrArg (· ++ _) (List.filterMap_congr fun p _ => ?_)
    exact p.unfinished?_letThrough gate
  | spawns threads cycles =>
    refine ⟨1, ?_⟩
    rw [underWay, threads, cycles, List.filterMap_append, List.append_assoc]
    exact List.perm_middle

/-! ## Refreshes that are taken up -/

section TakenUp

variable {s : Session} {index : Nat} {rest : Work (Except String Summary)}

theorem underWay_putMember {m : Member} (found : s.background.members[index]? = some m)
    (m' : Member) :
    (m.unfinished?.toList ++ (s.putMember index m').underWay).Perm
      (m'.unfinished?.toList ++ s.underWay) := by
  have set := filterMap_set_perm Member.unfinished? found m'
  refine (List.perm_append_comm_assoc _ _ _).trans ?_
  exact (set.append_left _).trans (List.perm_append_comm_assoc _ _ _)

theorem underWay_setThread {p : RefreshProgress} (found : s.background.threads[index]? = some p)
    (p' : RefreshProgress) :
    (p.unfinished?.toList ++ ({ s with background := { s.background with
        threads := s.background.threads.set index p' } } : Session).underWay).Perm
      (p'.unfinished?.toList ++ s.underWay) := by
  have set := filterMap_set_perm Progress.unfinished? found p'
  simp only [underWay]
  rw [← List.append_assoc, ← List.append_assoc]
  exact set.append_right _

/-- A background refresh that is ready to go on stays so until it is taken up. -/
theorem thread_answer (ready : s.background.threads[index]? = some (.ready rest)) (q : Request) :
    (s.answer q).1.background.threads[index]? = some (.ready rest) := by
  cases s.tends_answer q with
  | keeps threads => rw [threads, ready]
  | letsThrough gate threads => rw [threads, List.getElem?_map, ready]; rfl
  | spawns threads =>
    obtain ⟨inside, _⟩ := List.getElem?_eq_some_iff.1 ready
    rw [threads, List.getElem?_append_left inside, ready]

theorem thread_during {α : Type} {w : Work α} {t : Session} (passed : During w s t)
    (ready : s.background.threads[index]? = some (.ready rest)) :
    t.background.threads[index]? = some (.ready rest) := by
  induction passed with
  | begins => exact ready
  | asks _ ih => exact ih (thread_answer ready _)
  | passes _ ih => exact ih ready

/-- So does a cycle. -/
theorem cycle_during {α : Type} {w : Work α} {t : Session} (passed : During w s t)
    (ready : s.cycle? index = some (.ready rest)) : t.cycle? index = some (.ready rest) := by
  induction passed with
  | begins => exact ready
  | asks _ ih =>
    refine ih ?_
    cases beside_answer _ _ index with
    | same cycle => rw [cycle, ready]
    | passes gate cycle => rw [cycle, ready]; rfl
  | passes _ ih => exact ih ready

/-- A look begins a cycle if a refresh worker takes a tick. -/
theorem begins_look {ttl : Span} {limit : Option Nat} {time : TimeSource} {hasRuntime : Bool}
    (reached : Reachable ttl limit time hasRuntime s) (index : Nat) :
    Begins s (s.doPiece (.look index)) := by
  cases found : s.background.members[index]? with
  | none =>
    simp only [doPiece, found]
    exact .of_eq rfl
  | some m =>
    have idle := not_ticked_of_cycle reached found
    have put : ∀ (t : Session) (task : Task), t.background = s.background →
        Begins s (t.putMember index { m with task }) := by
      intro t task same
      have moved := underWay_putMember (same ▸ found) { m with task }
      have under : t.underWay = s.underWay := by rw [underWay, underWay, cyclesLeft, same]; rfl
      rw [under] at moved
      exact ⟨0, (List.perm_append_left_iff _).1 moved⟩
    rw [doPiece_look_eq found]
    cases step : (s.look m).2 with
    | idle => exact .of_eq rfl
    | begun => exact put _ _ rfl
    | overflowed => exact put _ _ rfl
    | stopped => exact put _ _ rfl
    | cancelled => exact put _ _ rfl
    | ticked =>
      have free : m.unfinished? = none := by
        cases cycle : m.cycle with
        | none => rw [Member.unfinished?, cycle, Option.bind_none]
        | some p => exact absurd step (idle (by rw [cycle]; rfl))
      simp only [applyLook, tickWork]
      cases (s.look m).1.kind with
      | refreshWorker =>
        have moved := underWay_putMember found ⟨(s.look m).1, some (.ready Work.wholeRefresh)⟩
        rw [free] at moved
        exact ⟨1, moved⟩
      | flusher =>
        have moved := underWay_putMember found ⟨(s.look m).1, none⟩
        rw [free] at moved
        exact ⟨0, moved⟩

theorem underWay_endCycle {m : Member} (found : s.background.members[index]? = some m)
    (result : Except String Summary) :
    (m.unfinished?.toList ++ (s.endCycle index result).underWay).Perm s.underWay := by
  have reported : (s.reportCycle result).background = s.background := by
    cases result <;> rfl
  unfold endCycle
  simp only [found]
  split
  · exact underWay_putMember found _
  · have moved := underWay_putMember (s := s.reportCycle result) (reported ▸ found)
      ⟨m.task.cycleEnded, none⟩
    have under : (s.reportCycle result).underWay = s.underWay := by
      rw [underWay, underWay, cyclesLeft, reported]
      rfl
    rw [under] at moved
    exact moved

end TakenUp

end Session

/-! ## Jobs for what is under way -/

namespace Job

/-- There is a job for each of these refreshes, and no other job. -/
def Cover (jobs : List Job) (works : List (Work (Except String Summary))) : Prop :=
  ∃ bs : List (Booked (Except String Summary) × Summary),
    jobs = bs.map (fun b => ⟨b.1.work, b.2⟩) ∧ (bs.map fun b => b.1.erase).Perm works

namespace Cover

variable {jobs jobs' : List Job} {works works' : List (Work (Except String Summary))}

theorem perm (h : Cover jobs works) (same : works.Perm works') : Cover jobs works' := by
  obtain ⟨bs, eq, erased⟩ := h
  exact ⟨bs, eq, erased.trans same⟩

theorem append (h : Cover jobs works) (h' : Cover jobs' works') :
    Cover (jobs ++ jobs') (works ++ works') := by
  obtain ⟨bs, rfl, erased⟩ := h
  obtain ⟨bs', rfl, erased'⟩ := h'
  refine ⟨bs ++ bs', List.map_append.symm, ?_⟩
  rw [List.map_append]
  exact erased.append erased'

theorem empty : Cover [] [] := ⟨[], rfl, .refl _⟩

theorem one (b : Booked (Except String Summary)) (settled : Summary) :
    Cover [⟨b.work, settled⟩] [b.erase] :=
  ⟨[(b, settled)], rfl, .refl _⟩

theorem refreshes (n : Nat) :
    Cover (List.replicate n .ofRefresh) (List.replicate n Work.wholeRefresh) := by
  refine ⟨List.replicate n (Booked.wholeRefresh, .empty), ?_, ?_⟩
  · rw [List.map_replicate]
    rfl
  · rw [List.map_replicate, Booked.erase_wholeRefresh]

/-- One of the refreshes, with its job. -/
theorem takeUp (h : Cover jobs works) {w : Work (Except String Summary)} (member : w ∈ works) :
    ∃ b settled jobs' rest, Booked.erase b = w ∧ jobs.Perm (⟨b.work, settled⟩ :: jobs') ∧
      works.Perm (w :: rest) ∧ Cover jobs' rest := by
  obtain ⟨bs, rfl, erased⟩ := h
  obtain ⟨b, there, rfl⟩ := List.mem_map.1 (erased.mem_iff.2 member)
  obtain ⟨before, after, rfl⟩ := List.append_of_mem there
  have front : (before ++ b :: after).Perm (b :: (before ++ after)) := List.perm_middle
  exact ⟨b.1, b.2, _, _, rfl, front.map _, erased.symm.trans (front.map _),
    before ++ after, rfl, .refl _⟩

theorem eq_nil (h : Cover jobs []) : jobs = [] := by
  obtain ⟨bs, rfl, erased⟩ := h
  rw [List.map_eq_nil_iff.1 erased.eq_nil]
  rfl

end Cover

end Job

namespace Session

theorem History.refreshes {start t : Session} {effects : List Effect} {book : List Finished}
    {jobs : List Job} (h : History start effects book jobs t) (n : Nat) :
    History start effects book (List.replicate n .ofRefresh ++ jobs) t := by
  induction n with
  | zero => exact h
  | succ n ih => exact ih.refresh

/-- Session `s` has a history from `start` on. Jobs `front` are about to go on; of the others there
is one for each refresh under way, but for those that `front` does instead, `taken`. -/
def Tells (start : Session) (taken : List (Work (Except String Summary))) (front : List Job)
    (s : Session) : Prop :=
  ∃ effects book jobs works, History start effects book (front ++ jobs) s ∧
    Job.Cover jobs works ∧ (taken ++ works).Perm s.underWay

section Tells

variable {start s t : Session} {taken : List (Work (Except String Summary))} {front : List Job}

/-- Refreshes that begin are jobs from then on. -/
theorem Tells.begins {effects : List Effect} {book : List Finished} {jobs : List Job}
    {works : List (Work (Except String Summary))} (h : History start effects book (front ++ jobs) t)
    (cover : Job.Cover jobs works) (same : (taken ++ works).Perm s.underWay) (begins : Begins s t) :
    Tells start taken front t := by
  obtain ⟨n, under⟩ := begins
  refine ⟨effects, book, _, _, (h.refreshes n).turns (List.perm_append_comm_assoc _ _ _),
    (Job.Cover.refreshes n).append cover, ?_⟩
  refine (List.perm_append_comm_assoc _ _ _).trans ?_
  exact (same.append_left _).trans under.symm

/-- What goes on beside requests and looks leaves the jobs as they are. -/
theorem Tells.shifts (h : Tells start taken front s) (shift : Shift s t)
    (under : t.underWay = s.underWay) : Tells start taken front t := by
  obtain ⟨effects, book, jobs, works, told, cover, same⟩ := h
  exact ⟨effects, book, jobs, works, told.shifts shift, cover, under ▸ same⟩

/-- The history goes on with the work of its first job, one request at a time. -/
theorem Tells.asks {α : Type} {q : Request} {next : Reply q → Work (α × List Finished)}
    {settled : Summary} (h : Tells start taken [⟨.ask q next, settled⟩] s) :
    Tells start taken [⟨next (s.answer q).2, settled.tell q (s.answer q).2⟩] (s.answer q).1 := by
  obtain ⟨effects, book, jobs, works, told, cover, same⟩ := h
  exact .begins told.asks cover same (s.begins_answer q)

theorem Tells.passes {α : Type} {gate : String} {rest : Work (α × List Finished)}
    {settled : Summary} (h : Tells start taken [⟨.gate gate rest, settled⟩] s) :
    Tells start taken [⟨rest, settled⟩] s := by
  obtain ⟨effects, book, jobs, works, told, cover, same⟩ := h
  exact ⟨effects, book, jobs, works, told.passes, cover, same⟩

theorem Tells.closes {α : Type} {p : α × List Finished} {settled : Summary}
    (h : Tells start taken [⟨.done p, settled⟩] s) : Tells start taken [] s := by
  obtain ⟨effects, book, jobs, works, told, cover, same⟩ := h
  exact ⟨effects, _, jobs, works, told.closes, cover, same⟩

theorem Tells.finish {α : Type} {b : Booked α} {settled : Summary}
    (h : Tells start taken [⟨b.work, settled⟩] s) : Tells start taken [] (s.finish b.erase).1 := by
  obtain ⟨w⟩ := b
  induction w generalizing s settled with
  | done p => exact h.closes
  | ask q next ih => exact ih _ h.asks
  | gate name rest ih => exact ih h.passes

theorem Tells.advance {b : Booked (Except String Summary)} {settled : Summary}
    (h : Tells start taken [⟨b.work, settled⟩] s) :
    ∃ front, Job.Cover front (s.advance b.erase).2.unfinished?.toList ∧
      Tells start taken front (s.advance b.erase).1 := by
  obtain ⟨w⟩ := b
  induction w generalizing s settled with
  | done p => exact ⟨[], .empty, h.closes⟩
  | ask q next ih => exact ih _ h.asks
  | gate name rest ih =>
    have erased : Booked.erase ⟨.gate name rest⟩ = .gate name (Booked.erase ⟨rest⟩) := rfl
    rw [erased]
    unfold Session.advance
    split
    · exact ih h.passes
    · exact ⟨_, .one ⟨rest⟩ settled, h.passes⟩

/-- One of the refreshes under way is taken up. -/
theorem Tells.takeUp (h : Tells start [] [] s) {w : Work (Except String Summary)}
    (member : w ∈ s.underWay) :
    ∃ b settled, Booked.erase b = w ∧ Tells start [w] [⟨b.work, settled⟩] s := by
  obtain ⟨effects, book, jobs, works, told, cover, same⟩ := h
  obtain ⟨b, settled, jobs', rest, eq, order, split, others⟩ :=
    cover.takeUp (same.mem_iff.2 member)
  exact ⟨b, settled, eq, effects, book, jobs', rest, told.turns order, others,
    split.symm.trans same⟩

/-- What is left of it is put aside again. -/
theorem Tells.putAside {left : List (Work (Except String Summary))} (h : Tells start taken front s)
    (cover : Job.Cover front left) (shift : Shift s t)
    (moved : (taken ++ t.underWay).Perm (left ++ s.underWay)) : Tells start [] [] t := by
  obtain ⟨effects, book, jobs, works, told, others, same⟩ := h
  refine ⟨effects, book, _, _, told.shifts shift, cover.append others, ?_⟩
  have all : (taken ++ t.underWay).Perm (taken ++ (left ++ works)) :=
    (moved.trans (same.symm.append_left _)).trans (List.perm_append_comm_assoc _ _ _)
  exact ((List.perm_append_left_iff _).1 all).symm

end Tells

/-! ## Whatever happens -/

section Happen

variable {start s : Session}

theorem Tells.resumeThread (h : Tells start [] [] s) {index : Nat}
    {rest : Work (Except String Summary)}
    (ready : s.background.threads[index]? = some (.ready rest)) :
    Tells start [] [] (s.resumeThread index rest) := by
  have member : rest ∈ s.underWay :=
    List.mem_append_left _ (List.mem_filterMap.2 ⟨_, List.mem_of_getElem? ready, rfl⟩)
  obtain ⟨b, settled, rfl, taken⟩ := h.takeUp member
  have away : Tells start [b.erase] [⟨b.work, settled⟩] { s with hasRuntime := false } :=
    taken.shifts (.runtime false) rfl
  obtain ⟨front, cover, goes⟩ := away.advance
  have still := thread_during (during_advance b.erase { s with hasRuntime := false }) ready
  have back := goes.shifts (.runtime s.hasRuntime) rfl
  exact back.putAside cover (.threads _) (underWay_setThread still _)

theorem Tells.resumeCycle (h : Tells start [] [] s) {index : Nat}
    {rest : Work (Except String Summary)} (ready : s.cycle? index = some (.ready rest)) :
    Tells start [] [] (s.resumeCycle index rest) := by
  obtain ⟨m, found, cycle⟩ := Option.bind_eq_some_iff.1 ready
  have left : m.unfinished? = some rest := by rw [Member.unfinished?, cycle]; rfl
  have member : rest ∈ s.underWay :=
    List.mem_append_right _ (List.mem_filterMap.2 ⟨m, List.mem_of_getElem? found, left⟩)
  obtain ⟨b, settled, rfl, taken⟩ := h.takeUp member
  obtain ⟨front, cover, goes⟩ := taken.advance
  have still := cycle_during (during_advance b.erase s) ready
  unfold Session.resumeCycle
  generalize s.advance b.erase = advanced at cover goes still
  obtain ⟨after, progress⟩ := advanced
  obtain ⟨m', there, cycle'⟩ := Option.bind_eq_some_iff.1 still
  have left' : m'.unfinished? = some b.erase := by rw [Member.unfinished?, cycle']; rfl
  dsimp only at there cover goes ⊢
  cases progress with
  | finished result =>
    have moved := underWay_endCycle there result
    rw [left'] at moved
    exact goes.putAside cover (.cycleEnds index result) moved
  | ready rest =>
    have moved := underWay_putMember there { m' with cycle := some (.ready rest) }
    rw [left'] at moved
    simp only [there]
    exact goes.putAside cover (.cycleMoves _ there) moved
  | waiting gate rest =>
    have moved := underWay_putMember there { m' with cycle := some (.waiting gate rest) }
    rw [left'] at moved
    simp only [there]
    exact goes.putAside cover (.cycleMoves _ there) moved

variable {ttl : Span} {limit : Option Nat} {time : TimeSource} {hasRuntime : Bool}

theorem Tells.doPiece (h : Tells start [] [] s) (reached : Reachable ttl limit time hasRuntime s)
    (piece : Piece) : Tells start [] [] (s.doPiece piece) := by
  cases piece with
  | look index =>
    obtain ⟨effects, book, jobs, works, told, cover, same⟩ := h
    exact .begins (told.looks index) cover same (begins_look reached index)
  | thread index =>
    simp only [Session.doPiece]
    split
    · next ready => exact h.resumeThread ready
    · exact h
  | cycle index =>
    simp only [Session.doPiece]
    split
    · next ready => exact h.resumeCycle ready
    · exact h

theorem Tells.command (h : Tells start [] [] s) (c : Command) :
    Tells start [] [] (s.finish c.work).1 := by
  obtain ⟨effects, book, jobs, works, told, cover, same⟩ := h
  have makes : Tells start [] [.ofCommand c] s :=
    ⟨effects, book, jobs, works, told.command c, cover, same⟩
  rw [← Booked.erase_command]
  exact makes.finish

theorem Tells.happen (h : Tells start [] [] s) (reached : Reachable ttl limit time hasRuntime s)
    (happening : Happening) : Tells start [] [] (s.happen happening).1 := by
  cases happening with
  | command command => exact h.command command
  | piece piece => exact h.doPiece reached piece
  | time nanos => exact h.shifts (.time _) rfl
  | reading => exact h.shifts .reading rfl

theorem Tells.follow (h : Tells start [] [] s) (reached : Reachable ttl limit time hasRuntime s)
    (hs : List Happening) : Tells start [] [] (s.follow hs).1 := by
  induction hs generalizing s with
  | nil => exact h
  | cons happening rest ih => exact ih (h.happen reached happening) (reached.happen happening)

end Happen

/-- Whatever happens in the session of a new cache has a history, and its jobs are the refreshes
under way. -/
theorem history_follow (ttl : Span) (limit : Option Nat) (time : TimeSource) (hasRuntime : Bool)
    (hs : List Happening) :
    ∃ effects book jobs,
      History (ofCache ttl limit time hasRuntime) effects book jobs
        ((ofCache ttl limit time hasRuntime).follow hs).1 ∧
      Job.Cover jobs ((ofCache ttl limit time hasRuntime).follow hs).1.underWay := by
  have begins : Tells (ofCache ttl limit time hasRuntime) [] []
      (ofCache ttl limit time hasRuntime) :=
    ⟨[], [], [], [], .begins, .empty, .refl _⟩
  obtain ⟨effects, book, jobs, works, told, cover, same⟩ :=
    begins.follow (Relation.ReflTransGen.refl : Reachable ttl limit time hasRuntime _) hs
  exact ⟨effects, book, jobs, told, cover.perm same⟩

end Session

end WarmCache
