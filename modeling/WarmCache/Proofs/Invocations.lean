import WarmCache.Proofs.Requests

/-!
# Invocations

A callback is invoked by an attempt against its source. Work may begin attempts against any number
of sources, in any order and between other requests; here are all of them, each by its source and
its number. The attempts against one source have consecutive numbers, so that how often it was
invoked before and after says which invocations there were in between.

Results:
1. `attemptsAt_perform`: no action of a caller or a callback counts against a source.
2. `invoked_of_source`: the invocations of one source by any work.
-/

namespace WarmCache

namespace Session

/-- How many attempts source number `i` has seen. -/
def attemptsAt (s : Session) (i : Nat) : Nat := s.sources[i]?.elim 0 Source.attempts

/-- The attempt that a request begins, by its source and its number. -/
def begun : (q : Request) → Reply q → List (Nat × Nat)
  | .attempt i, reply => reply.toList.map fun attempt => (i, attempt.number)
  | _, _ => []

/-- The attempts that work begins on the way to its end, in their order. -/
def invoked {α : Type} : Work α → Session → List (Nat × Nat)
  | .done _, _ => []
  | .ask q next, s => begun q (s.answer q).2 ++ invoked (next (s.answer q).2) (s.answer q).1
  | .gate _ rest, s => invoked rest s

/-! ## What counts against a source -/

/-- A source that is made has seen no attempts. -/
theorem attemptsAt_addSource (s : Session) (fetcher : Fetcher) (i : Nat) :
    (s.addSource fetcher).1.attemptsAt i = s.attemptsAt i := by
  obtain ⟨name, first, rest, cyclic, retries⟩ := fetcher
  simp only [attemptsAt, addSource, List.getElem?_append]
  split
  · rfl
  · next beyond =>
    rw [List.getElem?_eq_none (Nat.le_of_not_lt beyond)]
    cases i - s.sources.length <;> rfl

theorem attemptsAt_build (s : Session) (item : Int) (settings : List Build) (i : Nat) :
    (s.build item settings).1.attemptsAt i = s.attemptsAt i := by
  have each : ∀ (s : Session) (value : Value Int) (setting : Build),
      (s.applySetting value setting).1.attemptsAt i = s.attemptsAt i := by
    intro s value setting
    cases setting with
    | expires moment => rfl
    | refresh fetcher => exact s.attemptsAt_addSource fetcher i
    | share slot retries =>
      simp only [applySetting]
      split <;> rfl
  unfold build
  generalize Value.ofItem item = value
  induction settings generalizing s value with
  | nil => rfl
  | cons setting rest ih => exact (ih _ _).trans (each s value setting)

theorem attemptsAt_perform (s : Session) (action : Action) (i : Nat) :
    (s.perform action).1.attemptsAt i = s.attemptsAt i := by
  cases action with
  | set key item settings => exact s.attemptsAt_build item settings i
  | showValue item settings => exact s.attemptsAt_build item settings i
  | store action =>
    obtain ⟨held, eq⟩ := s.performStore_frame action
    rw [perform, eq]
    rfl
  | policy action =>
    rw [perform]
    rcases s.performPolicy_frame action with eq | ⟨before, after, _, eq⟩
    · rw [eq]
    · rw [eq]
      rfl
  | note action => rfl
  | channel action => rfl
  | gate action =>
    obtain ⟨background, eq, _⟩ := s.performGate_frame action
    rw [perform, eq]
    rfl
  | task action =>
    rw [perform]
    rcases s.performTask_cases action with
      ⟨background, eq, _⟩ | ⟨kind, interval, signal, started, background, start, eq, _⟩
    · rw [eq]
      rfl
    · obtain ⟨_, _, _, _, rfl⟩ := startTask_eq_ok_iff.1 start
      rw [eq]
      rfl

/-- A request other than an attempt against source `i` leaves its attempts as they are. -/
theorem attemptsAt_answer {s : Session} {q : Request} {i : Nat} (other : q ≠ .attempt i) :
    (s.answer q).1.attemptsAt i = s.attemptsAt i := by
  cases q with
  | act action => exact s.attemptsAt_perform action i
  | settle key callback result => cases result <;> rfl
  | attempt j =>
    have ne : j ≠ i := fun same => other (congrArg Request.attempt same)
    show (s.beginAttempt j).1.attemptsAt i = s.attemptsAt i
    unfold beginAttempt
    split
    · rfl
    · simp only [attemptsAt, List.getElem?_set_ne ne]
  | snapshot => rfl
  | record note => rfl
  | heldCallback slot => rfl

/-! ## The invocations of one source -/

/-- So many invocations of source `i` led from session `s` to session `t`; these are they. -/
def Numbered (i : Nat) (s t : Session) (invocations : List (Nat × Nat)) : Prop :=
  ∃ used, t.attemptsAt i = s.attemptsAt i + used ∧
    invocations.filter (fun x => x.1 == i) =
      (List.range' (s.attemptsAt i) used).map fun n => (i, n)

namespace Numbered

variable {i : Nat} {s t u : Session} {first more : List (Nat × Nat)}

theorem of_same (same : t.attemptsAt i = s.attemptsAt i)
    (others : ∀ x ∈ first, x.1 ≠ i) : Numbered i s t first := by
  refine ⟨0, same, ?_⟩
  exact List.filter_eq_nil_iff.2 fun x hx eq => others x hx (beq_iff_eq.1 eq)

theorem trans (h : Numbered i s t first) (h' : Numbered i t u more) :
    Numbered i s u (first ++ more) := by
  obtain ⟨used, attempts, numbers⟩ := h
  obtain ⟨used', attempts', numbers'⟩ := h'
  refine ⟨used + used', by omega, ?_⟩
  rw [List.filter_append, numbers, numbers', attempts, ← List.map_append, List.range'_append_1]

end Numbered

theorem numbered_answer (s : Session) (q : Request) (i : Nat) :
    Numbered i s (s.answer q).1 (begun q (s.answer q).2) := by
  by_cases mine : q = .attempt i
  · subst mine
    show Numbered i s _ ((s.beginAttempt i).2.toList.map fun attempt => (i, attempt.number))
    cases found : s.sources[i]? with
    | none =>
      have idle : s.beginAttempt i = (s, none) := by
        simp only [beginAttempt, found]
      refine .of_same ?_ ?_
      · show (s.beginAttempt i).1.attemptsAt i = _
        rw [idle]
      · rw [idle]
        exact nofun
    | some source =>
      have inside := (List.getElem?_eq_some_iff.1 found).1
      refine ⟨1, ?_, ?_⟩
      · show (s.beginAttempt i).1.attemptsAt i = _
        simp only [beginAttempt, found, attemptsAt, List.getElem?_set_self inside]
        rfl
      · simp [beginAttempt, found, attemptsAt]
  · refine .of_same (attemptsAt_answer mine) fun x hx => ?_
    cases q with
    | attempt j =>
      obtain ⟨_, _, rfl⟩ := List.mem_map.1 hx
      exact fun same => mine (congrArg Request.attempt same)
    | act action => cases hx
    | snapshot => cases hx
    | settle key callback result => cases hx
    | record note => cases hx
    | heldCallback slot => cases hx

/-- Whatever work does, the attempts that it begins against one source have the numbers from the
first that the source had not seen to the last that it has. -/
theorem invoked_of_source {α : Type} (w : Work α) (s : Session) (i : Nat) :
    Numbered i s (s.finish w).1 (s.invoked w) := by
  induction w generalizing s with
  | done result => exact .of_same rfl nofun
  | ask q next ih => exact (s.numbered_answer q i).trans (ih _ _)
  | gate name rest ih => exact ih s

end Session

end WarmCache
