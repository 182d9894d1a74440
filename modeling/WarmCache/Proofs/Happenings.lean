import WarmCache.Proofs.Reachable

/-!
# What happens in a session

A session goes on by four kinds of happenings: a caller makes a command, a piece of background
work is done, time passes, or real time does. Between two moves a session does one piece after
the other until none is left, and takes the first piece each time. Here they may come in any
order, and nothing has to be done before something else happens.

Results:
1. `proceeds_follow`: whatever happens is made of steps, and time does not go back.
2. `run_follows`: to a session that makes its moves such things happen.
-/

namespace WarmCache

/-- Something that happens in a session at one time. -/
inductive Happening where
  /-- A caller makes a command. -/
  | command (command : Command)
  /-- A piece of background work is done, if it can be. -/
  | piece (piece : Piece)
  /-- So many nanoseconds pass. -/
  | time (nanos : Nat)
  /-- A clock that follows real time is on by a reading. -/
  | reading

namespace Session

/-- The session after something has happened, and what it answers to a command. -/
def happen (s : Session) : Happening → Session × Option Answer
  | .command command =>
    let (s, answer) := s.finish command.work
    (s, some answer)
  | .piece piece => (s.doPiece piece, none)
  | .time nanos => ({ s with elapsed := s.elapsed + nanos }, none)
  | .reading => ({ s with clock := s.clock.tick }, none)

/-- The session after all this has happened, one after the other, and its answers. -/
def follow (s : Session) : List Happening → Session × List (Option Answer)
  | [] => (s, [])
  | h :: rest =>
    let (s, answer) := s.happen h
    let (s, answers) := s.follow rest
    (s, answer :: answers)

theorem follow_cons_fst (s : Session) (h : Happening) (rest : List Happening) :
    (s.follow (h :: rest)).1 = ((s.happen h).1.follow rest).1 := rfl

theorem follow_append_fst (s : Session) (first more : List Happening) :
    (s.follow (first ++ more)).1 = ((s.follow first).1.follow more).1 := by
  induction first generalizing s with
  | nil => rfl
  | cons h rest ih => exact ih (s.happen h).1

/-! ## Work that is put back -/

/-- A background refresh is put back as far as it has come. -/
def putThread (t : Session) (hasRuntime : Bool) (index : Nat) (p : RefreshProgress) : Session :=
  { t with
    hasRuntime
    background := { t.background with threads := t.background.threads.set index p } }

/-- A cycle is put back as far as it has come, or it is over. -/
def putCycle (t : Session) (index : Nat) (p : RefreshProgress) : Session :=
  match p with
  | .finished result => t.endCycle index result
  | p =>
    match t.background.members[index]? with
    | none => t
    | some m => t.putMember index { m with cycle := some p }

theorem resumeThread_eq (s : Session) (index : Nat) (rest : Work (Except String Summary)) :
    s.resumeThread index rest =
      (({ s with hasRuntime := false } : Session).advance rest).1.putThread s.hasRuntime index
        (({ s with hasRuntime := false } : Session).advance rest).2 := rfl

theorem resumeCycle_eq (s : Session) (index : Nat) (rest : Work (Except String Summary)) :
    s.resumeCycle index rest = (s.advance rest).1.putCycle index (s.advance rest).2 := by
  unfold resumeCycle
  generalize s.advance rest = advanced
  obtain ⟨t, p⟩ := advanced
  cases p <;> rfl

/-! ## Happenings are steps -/

theorem proceeds_happen (s : Session) (h : Happening) : Proceeds s (s.happen h).1 := by
  cases h with
  | command command => exact (during_finish command.work s).atOnce.proceeds
  | piece piece => exact (atOnce_doPiece s piece).proceeds
  | time nanos => exact .single ⟨.time _, Nat.le_add_right _ _⟩
  | reading => exact .single ⟨.request .snapshot, Nat.le_refl _⟩

theorem proceeds_follow (s : Session) (hs : List Happening) : Proceeds s (s.follow hs).1 := by
  induction hs generalizing s with
  | nil => exact .refl
  | cons h rest ih => exact (proceeds_happen s h).trans (ih _)

/-! ## Moves are happenings -/

theorem settleWithin_follows (pieces : Nat) (s : Session) :
    ∃ done : List Piece, settleWithin pieces s = (s.follow (done.map .piece)).1 := by
  induction pieces generalizing s with
  | zero => exact ⟨[], rfl⟩
  | succ pieces ih =>
    unfold settleWithin step?
    cases s.pieces.head? with
    | none => exact ⟨[], rfl⟩
    | some piece =>
      obtain ⟨done, eq⟩ := ih (s.doPiece piece)
      exact ⟨piece :: done, eq⟩

theorem settle_follows (s : Session) : ∃ hs, s.settle = (s.follow hs).1 := by
  obtain ⟨done, eq⟩ := settleWithin_follows (sparePieces + s.backlog) s
  exact ⟨_, eq⟩

/-- The session is at a later time. -/
theorem follow_time {s : Session} {elapsed : Nat} (later : s.elapsed ≤ elapsed) :
    { s with elapsed } = (s.follow [.time (elapsed - s.elapsed)]).1 := by
  show _ = ({ s with elapsed := s.elapsed + (elapsed - s.elapsed) } : Session)
  rw [Nat.add_sub_cancel' later]

theorem passMillis_follows (past target t : Nat) (s : Session)
    (reads : s.elapsed = Span.nanosPerMilli * t + past) (ahead : t ≤ target) :
    ∃ hs, (passMillis past target t s).1 = (s.follow hs).1 := by
  have later : ∀ {u : Nat}, t ≤ u → s.elapsed ≤ Span.nanosPerMilli * u + past := by
    intro u le
    rw [reads]
    exact Nat.add_le_add_right (Nat.mul_le_mul_left _ le) past
  fun_induction passMillis past target t s with
  | case1 t s blocked => exact ⟨[], rfl⟩
  | case2 t s free idle => exact ⟨_, follow_time (later ahead)⟩
  | case3 t s free d due between ih =>
    have settled := atOnce_settle { s with elapsed := Span.nanosPerMilli * d + past }
    obtain ⟨rest, passes⟩ := ih settled.elapsed between.2 fun {u} le => by
      rw [settled.elapsed]
      exact Nat.add_le_add_right (Nat.mul_le_mul_left _ le) past
    obtain ⟨work, settles⟩ :=
      settle_follows { s with elapsed := Span.nanosPerMilli * d + past }
    refine ⟨[.time (Span.nanosPerMilli * d + past - s.elapsed)] ++ work ++ rest, ?_⟩
    rw [follow_append_fst, follow_append_fst,
      ← follow_time (later (Nat.le_of_lt between.1)), ← settles]
    exact passes
  | case4 t s free d due beyond => exact ⟨_, follow_time (later ahead)⟩

theorem act_follows (s : Session) (m : Move) : ∃ hs, (s.act m).1 = (s.follow hs).1 := by
  cases m with
  | run command => exact ⟨[.command command], rfl⟩
  | sleep d =>
    simp only [act, sleep]
    split
    · exact ⟨[], rfl⟩
    · refine passMillis_follows _ _ _ s (Nat.div_add_mod _ _).symm ?_
      simp only [wakeTime, Span.millisUp, Span.nanosPerMilli]
      omega
  | jump d => exact ⟨[.time d.toNanos], rfl⟩

/-- Whatever moves a session makes, there are happenings that lead to the same session. -/
theorem run_follows (s : Session) (moves : List Move) :
    ∃ hs, (s.run moves).1 = (s.follow hs).1 := by
  induction moves generalizing s with
  | nil => exact ⟨[], rfl⟩
  | cons m rest ih =>
    obtain ⟨acts, acted⟩ := s.act_follows m
    obtain ⟨work, settled⟩ := (s.act m).1.settle_follows
    obtain ⟨more, ran⟩ := ih (s.act m).1.settle
    refine ⟨acts ++ work ++ more, ?_⟩
    rw [follow_append_fst, follow_append_fst, ← acted, ← settled]
    exact ran

end Session

end WarmCache
