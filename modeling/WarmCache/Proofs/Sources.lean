import WarmCache.Proofs.Requests

/-!
# What becomes of sources

A source is made with the callback that fetches from it, and it stays. What its steps are is fixed
when it is made; from then on only the attempts against it are counted.

Results:
1. `grows_answer`: what a request makes of the sources.
2. `length_sources_le_finish`: no work takes a source away.
-/

namespace WarmCache

/-- The callbacks that the settings of a value bring. -/
def Build.fetchers : List Build → List Fetcher
  | [] => []
  | .refresh fetcher :: rest => fetcher :: Build.fetchers rest
  | _ :: rest => Build.fetchers rest

/-- The callbacks that a request brings. -/
def Request.fetchers : Request → List Fetcher
  | .act (.set _ _ build) => Build.fetchers build
  | .act (.showValue _ build) => Build.fetchers build
  | _ => []

namespace Session

/-- The sources of session `s` are still there in session `t`, perhaps with other attempts, and
what is new are the sources of these callbacks. -/
structure Grows (fetchers : List Fetcher) (s t : Session) : Prop where
  kept : ∀ {i : Nat} {source : Source}, s.sources[i]? = some source →
    ∃ attempts, t.sources[i]? = some { source with attempts }
  made : ∀ {i : Nat} {source : Source}, s.sources[i]? = none → t.sources[i]? = some source →
    ∃ fetcher ∈ fetchers, source = .ofFetcher fetcher

namespace Grows

variable {fetchers more : List Fetcher} {s t u : Session}

theorem of_eq (same : t.sources = s.sources) : Grows fetchers s t := by
  refine ⟨fun {i source} found => ⟨source.attempts, same ▸ found⟩, fun absent found => ?_⟩
  rw [same, absent] at found
  cases found

theorem mono (h : Grows fetchers s t) (among : ∀ fetcher ∈ fetchers, fetcher ∈ more) :
    Grows more s t := by
  refine ⟨h.kept, fun absent found => ?_⟩
  obtain ⟨fetcher, member, eq⟩ := h.made absent found
  exact ⟨fetcher, among fetcher member, eq⟩

theorem length_le (h : Grows fetchers s t) : s.sources.length ≤ t.sources.length := by
  refine Nat.le_of_not_lt fun fewer => ?_
  obtain ⟨attempts, there⟩ := h.kept (List.getElem?_eq_getElem fewer)
  rw [List.getElem?_eq_none (Nat.le_refl _)] at there
  cases there

/-- What holds of all sources, however many attempts they have seen, and of those that are new
holds of all sources still. -/
theorem forall_sources (h : Grows fetchers s t) {P : Source → Prop}
    (before : ∀ source ∈ s.sources, ∀ attempts, P { source with attempts })
    (new : ∀ fetcher ∈ fetchers, P (.ofFetcher fetcher)) : ∀ source ∈ t.sources, P source := by
  intro source member
  obtain ⟨i, found⟩ := List.getElem?_of_mem member
  cases was : s.sources[i]? with
  | none =>
    obtain ⟨fetcher, brought, rfl⟩ := h.made was found
    exact new fetcher brought
  | some old =>
    obtain ⟨attempts, there⟩ := h.kept was
    obtain rfl := Option.some.inj (found.symm.trans there)
    exact before old (List.mem_of_getElem? was) attempts

/-- One source behind the others. -/
theorem append (h : Grows fetchers s t) (fetcher : Fetcher)
    (same : u.sources = t.sources ++ [.ofFetcher fetcher]) :
    Grows (fetchers ++ [fetcher]) s u := by
  refine ⟨fun found => ?_, fun {i source} absent found => ?_⟩
  · obtain ⟨attempts, there⟩ := h.kept found
    refine ⟨attempts, ?_⟩
    rw [same, List.getElem?_append_left (List.getElem?_eq_some_iff.1 there).1, there]
  · rw [same] at found
    rcases Nat.lt_or_ge i t.sources.length with inside | outside
    · rw [List.getElem?_append_left inside] at found
      obtain ⟨old, member, eq⟩ := h.made absent found
      exact ⟨old, List.mem_append_left _ member, eq⟩
    · rw [List.getElem?_append_right outside] at found
      have new := List.mem_singleton.1 (List.mem_of_getElem? found)
      exact ⟨fetcher, List.mem_append_right _ (List.mem_singleton_self fetcher), new⟩

end Grows

theorem grows_build (s : Session) (item : Int) (settings : List Build) :
    Grows (Build.fetchers settings) s (s.build item settings).1 := by
  -- on the settings that are left; those before them have led to session `t`
  have each : ∀ (settings : List Build) (fetchers : List Fetcher) (t : Session)
      (value : Value Int), Grows fetchers s t →
      Grows (fetchers ++ Build.fetchers settings) s
        (settings.foldl (fun p setting => p.1.applySetting p.2 setting) (t, value)).1 := by
    intro settings
    induction settings with
    | nil => exact fun fetchers t value h => h.mono fun _ => List.mem_append_left _
    | cons setting rest ih =>
      intro fetchers t value h
      cases setting with
      | expires moment => exact ih fetchers t _ h
      | refresh fetcher =>
        have more := ih (fetchers ++ [fetcher]) (t.addSource fetcher).1
          { value with refresh := some (t.addSource fetcher).2 }
          (h.append fetcher (by obtain ⟨_, _, _, _, _⟩ := fetcher; rfl))
        rw [List.append_assoc] at more
        exact more
      | share slot retries =>
        simp only [List.foldl_cons, applySetting]
        split <;> exact ih fetchers t _ h
  exact each settings [] s (.ofItem item) (.of_eq rfl)

theorem grows_perform (s : Session) (action : Action) :
    Grows (Request.act action).fetchers s (s.perform action).1 := by
  cases action with
  | set key item settings =>
    have built := s.grows_build item settings
    exact ⟨built.kept, built.made⟩
  | showValue item settings => exact s.grows_build item settings
  | store action =>
    obtain ⟨held, eq⟩ := s.performStore_frame action
    rw [perform, eq]
    exact .of_eq rfl
  | policy action =>
    rw [perform]
    rcases s.performPolicy_frame action with eq | ⟨_, _, _, eq⟩
    · rw [eq]
      exact .of_eq rfl
    · rw [eq]
      exact .of_eq rfl
  | note action => exact .of_eq rfl
  | channel action => exact .of_eq rfl
  | gate action =>
    obtain ⟨_, eq, _⟩ := s.performGate_frame action
    rw [perform, eq]
    exact .of_eq rfl
  | task action =>
    rw [perform]
    rcases s.performTask_cases action with ⟨_, eq, _⟩ | ⟨_, _, _, _, _, start, eq, _⟩
    · rw [eq]
      exact .of_eq rfl
    · obtain ⟨_, _, _, _, rfl⟩ := startTask_eq_ok_iff.1 start
      rw [eq]
      exact .of_eq rfl

theorem grows_beginAttempt (s : Session) (index : Nat) : Grows [] s (s.beginAttempt index).1 := by
  cases found : s.sources[index]? with
  | none =>
    simp only [beginAttempt, found]
    exact .of_eq rfl
  | some source =>
    have counted : (s.beginAttempt index).1.sources =
        s.sources.set index { source with attempts := source.attempts + 1 } := by
      simp only [beginAttempt, found]
    refine ⟨fun {i old} there => ?_, fun absent there => ?_⟩
    · rw [counted]
      by_cases same : index = i
      · subst same
        obtain rfl := Option.some.inj (found.symm.trans there)
        exact ⟨_, List.getElem?_set_self (List.getElem?_eq_some_iff.1 found).1⟩
      · exact ⟨old.attempts, (List.getElem?_set_ne same).trans there⟩
    · have outside := List.getElem?_eq_none_iff.1 absent
      rw [counted, List.getElem?_eq_none (by rwa [List.length_set])] at there
      cases there

theorem grows_answer (s : Session) (q : Request) : Grows q.fetchers s (s.answer q).1 := by
  have ticked : ∀ {t : Session}, Grows q.fetchers s t →
      Grows q.fetchers s { t with clock := t.clock.tick } := fun h => ⟨h.kept, h.made⟩
  cases q with
  | act action => exact ticked (s.grows_perform action)
  | settle key callback result =>
    obtain ⟨journal, settled⟩ := s.settleOutcome_frame key callback result
    refine ticked (t := (s.settleOutcome key callback result).1) ?_
    rw [settled]
    exact .of_eq rfl
  | attempt index => exact ticked (s.grows_beginAttempt index)
  | snapshot => exact .of_eq rfl
  | record note => exact .of_eq rfl
  | heldCallback slot => exact .of_eq rfl

/-- Whatever work does, it takes no source away. -/
theorem length_sources_le_finish {α : Type} (s : Session) (w : Work α) :
    s.sources.length ≤ (s.finish w).1.sources.length := by
  induction w generalizing s with
  | done result => exact Nat.le_refl _
  | ask q next ih => exact Nat.le_trans (s.grows_answer q).length_le (ih _ _)
  | gate name rest ih => exact ih s

end Session

end WarmCache
