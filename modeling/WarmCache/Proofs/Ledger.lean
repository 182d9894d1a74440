import WarmCache.Proofs.Booked
import WarmCache.Proofs.Cycles
import WarmCache.Proofs.Effects
import WarmCache.Proofs.Rounds

/-!
# The statistics of a session

The statistics of a cache are told from its history. Commands of callers and callbacks, background
refreshes and the cycles of workers are jobs, any number of which are under way at once; each goes
on by one request at a time. Beside them flush tasks flush. `History` keeps, over every such run,
the effects of all operations on the entries, a line for each refresh that is over, be it by a
panic, and what jobs that are not over have settled.

Results:
1. `settledIn_answer`, `settledIn_look`: outcomes are settled by the requests of refreshes only.
2. `History.conserves`: along every history the counters are those of its effects, the entries are
   what was added and not taken out, and the outcomes settled are those of the refreshes that are
   over and of the jobs that are under way.
-/

namespace WarmCache

/-- Work under way, with its book, and what it has settled so far. -/
structure Job where
  {α : Type}
  left : Work (α × List Finished)
  settled : Summary

namespace Job

/-- A command of a caller. -/
def ofCommand (c : Command) : Job := ⟨(Booked.command c).work, .empty⟩

/-- A background refresh or the cycle of a worker. -/
def ofRefresh : Job := ⟨Booked.wholeRefresh.work, .empty⟩

/-- What jobs have settled so far, taken together. -/
def total (jobs : List Job) : Summary := .sum (jobs.map settled)

theorem total_cons (job : Job) (jobs : List Job) : total (job :: jobs) = job.settled + total jobs :=
  rfl

end Job

namespace Session

/-- What a look of task `index` does to the entries: a flush task that takes a tick flushes. -/
def lookOps (s : Session) (index : Nat) : List (CacheOp Int) :=
  match s.background.members[index]? with
  | some m => if (s.look m).2 = .ticked ∧ m.task.kind = .flusher then [.flush s.now] else []
  | none => []

theorem cache_look (s : Session) (index : Nat) :
    ∃ taken, (s.doPiece (.look index)).cache =
      (s.cache.applyAll (s.lookOps index)).claim taken := by
  unfold lookOps
  cases found : s.background.members[index]? with
  | none =>
    simp only [doPiece, found]
    exact ⟨s.cache.workerRunning, rfl⟩
  | some m =>
    rw [doPiece_look_eq found]
    dsimp only
    cases (s.look m).2 with
    | ticked =>
      simp only [applyLook, tickWork, kind_look, true_and]
      cases m.task.kind with
      | refreshWorker => exact ⟨_, rfl⟩
      | flusher => exact ⟨_, rfl⟩
    | idle => exact ⟨s.cache.workerRunning, rfl⟩
    | begun => exact ⟨_, rfl⟩
    | overflowed => exact ⟨_, rfl⟩
    | stopped => exact ⟨_, rfl⟩
    | cancelled => exact ⟨_, rfl⟩

/-- What goes on in a session beside requests and looks. -/
inductive Shift : Session → Session → Prop
  /-- A cycle comes to a gate, or goes on from one. -/
  | cycleMoves {s : Session} {index : Nat} {m : Member} (progress : RefreshProgress) :
      s.background.members[index]? = some m →
      Shift s (s.putMember index { m with cycle := some progress })
  /-- A cycle comes to its end. -/
  | cycleEnds {s : Session} (index : Nat) (result : Except String Summary) :
      Shift s (s.endCycle index result)
  /-- Background refreshes come to gates, go on from them or come to their ends. -/
  | threads {s : Session} (threads : List RefreshProgress) :
      Shift s { s with background := { s.background with threads } }
  /-- What runs next has something that background tasks could run on, or has not. -/
  | runtime {s : Session} (hasRuntime : Bool) : Shift s { s with hasRuntime }
  /-- The session is at another time. -/
  | time {s : Session} (elapsed : Nat) : Shift s { s with elapsed }
  /-- Real time goes on. -/
  | reading {s : Session} : Shift s { s with clock := s.clock.tick }

theorem Shift.cache {s t : Session} (h : Shift s t) : ∃ taken, t.cache = s.cache.claim taken := by
  cases h with
  | @cycleEnds index result =>
    rcases s.endCycle_cases index result with eq | ⟨_, _, _, _, _, _, eq⟩
    · rw [eq]
      exact ⟨s.cache.workerRunning, rfl⟩
    · rw [eq]
      exact ⟨_, rfl⟩
  | cycleMoves => exact ⟨_, rfl⟩
  | threads => exact ⟨s.cache.workerRunning, rfl⟩
  | runtime => exact ⟨s.cache.workerRunning, rfl⟩
  | time => exact ⟨s.cache.workerRunning, rfl⟩
  | reading => exact ⟨s.cache.workerRunning, rfl⟩

/-- What happened from session `start` to session `t`: the effects of all operations on the
entries, the lines of the refreshes that are over, and the jobs that are under way. -/
inductive History (start : Session) : List Effect → List Finished → List Job → Session → Prop
  | begins : History start [] [] [] start
  /-- A caller makes a command. -/
  | command {effects book jobs t} (c : Command) : History start effects book jobs t →
      History start effects book (.ofCommand c :: jobs) t
  /-- A background refresh or a cycle begins. -/
  | refresh {effects book jobs t} : History start effects book jobs t →
      History start effects book (.ofRefresh :: jobs) t
  /-- A job goes on by a request. -/
  | asks {effects book jobs t} {α : Type} {q : Request}
      {next : Reply q → Work (α × List Finished)} {settled : Summary} :
      History start effects book (⟨.ask q next, settled⟩ :: jobs) t →
      History start (effects ++ t.cache.effects (t.opsOf q)) book
        (⟨next (t.answer q).2, settled.tell q (t.answer q).2⟩ :: jobs) (t.answer q).1
  /-- A job passes a gate. -/
  | passes {effects book jobs t} {α : Type} {gate : String} {rest : Work (α × List Finished)}
      {settled : Summary} : History start effects book (⟨.gate gate rest, settled⟩ :: jobs) t →
      History start effects book (⟨rest, settled⟩ :: jobs) t
  /-- A job is over. -/
  | closes {effects book jobs t} {α : Type} {p : α × List Finished} {settled : Summary} :
      History start effects book (⟨.done p, settled⟩ :: jobs) t →
      History start effects (book ++ p.2) jobs t
  /-- It is the turn of another job. -/
  | turns {effects book jobs jobs' t} : History start effects book jobs t → jobs.Perm jobs' →
      History start effects book jobs' t
  /-- A task is looked at. -/
  | looks {effects book jobs t} (index : Nat) : History start effects book jobs t →
      History start (effects ++ t.cache.effects (t.lookOps index)) book jobs
        (t.doPiece (.look index))
  | shifts {effects book jobs t u} : History start effects book jobs t → Shift t u →
      History start effects book jobs u

/-! ## What one step settles -/

/-- The outcomes settled in a history. -/
def settledIn (effects : List Effect) : Summary :=
  ⟨effects.count (.settled .replaced), effects.count (.settled .failed),
    effects.count (.settled .discarded)⟩

theorem settledIn_append (first more : List Effect) :
    settledIn (first ++ more) = settledIn first + settledIn more := by
  simp only [settledIn, List.count_append, Summary.add_def]

/-- Only what a refresh applies is settled. -/
theorem settledIn_effects {α : Type} (c : Cache α) {ops : List (CacheOp α)}
    (other : ∀ op ∈ ops, ∀ now key callback result, op ≠ .settle now key callback result) :
    settledIn (c.effects ops) = .empty := by
  induction ops generalizing c with
  | nil => rfl
  | cons op rest ih =>
    have later := ih (c.apply op) fun op' member => other op' (List.mem_cons_of_mem _ member)
    have first : settledIn [c.effect op] = .empty := by
      cases op with
      | settle now key callback result => exact absurd rfl (other _ List.mem_cons_self _ _ _ _)
      | set now key value =>
        simp only [Cache.effect]
        split
        · split <;> rfl
        · rfl
      | get key =>
        simp only [Cache.effect]
        split <;> rfl
      | delete key =>
        simp only [Cache.effect]
        split <;> rfl
      | flush now => rfl
    show settledIn ([c.effect op] ++ (c.apply op).effects rest) = .empty
    rw [settledIn_append, first, later]
    rfl

theorem storeOps_ne_settle (s : Session) (action : StoreAction) :
    ∀ op ∈ s.storeOps action, ∀ now key callback result,
      op ≠ .settle now key callback result := by
  intro op member now key callback result eq
  subst eq
  cases action <;> simp [storeOps] at member

/-- A request settles what its reply tells. -/
theorem settledIn_answer (s : Session) (q : Request) :
    settledIn (s.cache.effects (s.opsOf q)) = Summary.empty.tell q (s.answer q).2 := by
  cases q with
  | settle key callback result =>
    have told := (s.answer_settle key callback result).2
    show settledIn [.settled (s.cache.settle s.now key callback result).2] =
      Summary.empty.count (s.answer (.settle key callback result)).2
    rw [told]
    cases (s.cache.settle s.now key callback result).2 <;> rfl
  | act action =>
    refine settledIn_effects _ ?_
    cases action with
    | store action => exact s.storeOps_ne_settle action
    | set key item settings =>
      intro op member now key' callback result eq
      rw [eq] at member
      cases List.mem_singleton.1 member
    | _ => exact nofun
  | snapshot => rfl
  | attempt source => rfl
  | record note => rfl
  | heldCallback slot => rfl

theorem settledIn_look (s : Session) (index : Nat) :
    settledIn (s.cache.effects (s.lookOps index)) = .empty := by
  refine settledIn_effects _ ?_
  intro op member now key callback result eq
  rw [eq, lookOps] at member
  split at member
  · split at member
    · cases List.mem_singleton.1 member
    · cases member
  · cases member

/-! ## Every history -/

/-- What holds of a history: the counters are those of its effects, entries are what was added and
not taken out, and outcomes were settled by refreshes that are over or by jobs under way, each of
which still owes them to its book. -/
structure Conserves (effects : List Effect) (book : List Finished) (jobs : List Job)
    (t : Session) : Prop where
  counters : t.cache.counters = Cache.countersOf effects
  size : t.cache.size + effects.count .deleted + Effect.flushedIn effects = effects.count .inserted
  settled : settledIn effects = Finished.total book + Job.total jobs
  owes : ∀ job ∈ jobs, Booked.Owes job.left job.settled

namespace Conserves

variable {effects : List Effect} {book : List Finished} {jobs : List Job} {t u : Session}

/-- Operations are done, and jobs settle what comes of them. -/
theorem goes_on {jobs' : List Job} (h : Conserves effects book jobs t) (ops : List (CacheOp Int))
    {taken : Bool} (cache : u.cache = (t.cache.applyAll ops).claim taken)
    (settled : Job.total jobs + settledIn (t.cache.effects ops) = Job.total jobs')
    (owes : ∀ job ∈ jobs', Booked.Owes job.left job.settled) :
    Conserves (effects ++ t.cache.effects ops) book jobs' u where
  counters := by
    rw [cache]
    exact Cache.counters_applyAll h.counters ops
  size := by
    have all := t.cache.size_applyAll ops
    have before := h.size
    have same : u.cache.size = (t.cache.applyAll ops).size := by
      rw [cache]
      rfl
    rw [List.count_append, List.count_append, Effect.flushedIn_append]
    omega
  settled := by
    rw [settledIn_append, h.settled, Summary.add_assoc, settled]
  owes := owes

/-- A job goes on without settling anything, and other jobs may be there, or be gone. -/
theorem with_jobs {jobs' : List Job} (h : Conserves effects book jobs t)
    (total : Job.total jobs = Job.total jobs')
    (owes : ∀ job ∈ jobs', Booked.Owes job.left job.settled) :
    Conserves effects book jobs' t where
  counters := h.counters
  size := h.size
  settled := h.settled.trans (congrArg _ total)
  owes := owes

/-- Nothing is done to the entries. -/
theorem of_claim {taken : Bool} (h : Conserves effects book jobs t)
    (cache : u.cache = t.cache.claim taken) : Conserves effects book jobs u where
  counters := by
    rw [cache]
    exact h.counters
  size := by
    rw [cache]
    exact h.size
  settled := h.settled
  owes := h.owes

theorem opens (h : Conserves effects book jobs t) {α : Type} {w : Work (α × List Finished)}
    (owes : Booked.Owes w .empty) : Conserves effects book (⟨w, .empty⟩ :: jobs) t := by
  refine h.with_jobs (Summary.empty_add _).symm fun job member => ?_
  rcases List.mem_cons.1 member with rfl | member
  · exact owes
  · exact h.owes job member

theorem asks {α : Type} {q : Request} {next : Reply q → Work (α × List Finished)}
    {settled : Summary} (h : Conserves effects book (⟨.ask q next, settled⟩ :: jobs) t) :
    Conserves (effects ++ t.cache.effects (t.opsOf q)) book
      (⟨next (t.answer q).2, settled.tell q (t.answer q).2⟩ :: jobs) (t.answer q).1 := by
  obtain ⟨taken, cache⟩ := (t.answered q).cache
  refine h.goes_on (t.opsOf q) cache ?_ fun job member => ?_
  · rw [settledIn_answer, ← Summary.add_tell, Summary.add_empty, Job.total_cons, Job.total_cons,
      Summary.add_comm settled, Summary.add_tell, Summary.add_comm]
  · rcases List.mem_cons.1 member with rfl | member
    · exact h.owes _ List.mem_cons_self (t.answer q).2
    · exact h.owes job (List.mem_cons_of_mem _ member)

theorem passes {α : Type} {gate : String} {rest : Work (α × List Finished)} {settled : Summary}
    (h : Conserves effects book (⟨.gate gate rest, settled⟩ :: jobs) t) :
    Conserves effects book (⟨rest, settled⟩ :: jobs) t := by
  refine h.with_jobs rfl fun job member => ?_
  rcases List.mem_cons.1 member with rfl | member
  · exact h.owes ⟨.gate gate rest, settled⟩ List.mem_cons_self
  · exact h.owes job (List.mem_cons_of_mem _ member)

theorem closes {α : Type} {p : α × List Finished} {settled : Summary}
    (h : Conserves effects book (⟨.done p, settled⟩ :: jobs) t) :
    Conserves effects (book ++ p.2) jobs t where
  counters := h.counters
  size := h.size
  settled := by
    have paid : Finished.total p.2 = settled := h.owes _ List.mem_cons_self
    rw [h.settled, Finished.total_append, paid, Summary.add_assoc, Job.total_cons]
  owes := fun job member => h.owes job (List.mem_cons_of_mem _ member)

theorem looks (h : Conserves effects book jobs t) (index : Nat) :
    Conserves (effects ++ t.cache.effects (t.lookOps index)) book jobs
      (t.doPiece (.look index)) := by
  obtain ⟨taken, cache⟩ := t.cache_look index
  refine h.goes_on (t.lookOps index) cache ?_ h.owes
  rw [settledIn_look, Summary.add_empty]

end Conserves

theorem History.conserves {start t : Session} {effects : List Effect} {book : List Finished}
    {jobs : List Job} (fresh : Conserves [] [] [] start) (h : History start effects book jobs t) :
    Conserves effects book jobs t := by
  induction h with
  | begins => exact fresh
  | command c _ ih => exact ih.opens (Booked.owes_command c)
  | refresh _ ih => exact ih.opens Booked.owes_wholeRefresh
  | asks _ ih => exact ih.asks
  | passes _ ih => exact ih.passes
  | closes _ ih => exact ih.closes
  | turns _ same ih =>
    exact ih.with_jobs (Summary.sum_perm (same.map _)) fun job member =>
      ih.owes job (same.mem_iff.2 member)
  | looks index _ ih => exact ih.looks index
  | shifts _ shift ih =>
    obtain ⟨taken, cache⟩ := shift.cache
    exact ih.of_claim cache

theorem conserves_ofCache (ttl : Span) (limit : Option Nat) (time : TimeSource)
    (hasRuntime : Bool) : Conserves [] [] [] (ofCache ttl limit time hasRuntime) where
  counters := rfl
  size := rfl
  settled := rfl
  owes := by simp

end Session

end WarmCache
