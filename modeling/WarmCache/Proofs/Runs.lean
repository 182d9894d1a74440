import WarmCache.Proofs.Orders

/-!
# Runs in any order

Here a whole session goes on, and each refresh on the way, be it of a caller, of a callback, on a
thread of its own or in the cycle of a worker, goes through its snapshot in an order of its own.

Results:
1. `happens_happen`, `unfolds_follow`: the order of the table is one of the orders.
2. `InStep.unfolds`: a run comes to the same whatever the orders.
3. `refresh_order_irrelevant`: one refresh and any run.
-/

namespace WarmCache

namespace Session

/-- Something happens in session `s`, and it comes to session `t`. Each refresh on the way goes
through its snapshot in some order; `snaps` are the sessions in which the snapshots are taken. -/
inductive Happens (s : Session) : Happening → List Session → Session → Option Answer → Prop
  | command {command : Command} {snaps : List Session} {t : Session} {answer : Answer} :
      Goes false command.work s snaps t (.finished answer) →
      Happens s (.command command) snaps t (some answer)
  | look (index : Nat) : Happens s (.piece (.look index)) [] (s.doPiece (.look index)) none
  | thread {index : Nat} {rest : Work (Except String Summary)} {snaps : List Session}
      {t : Session} {p : RefreshProgress} : s.background.threads[index]? = some (.ready rest) →
      Goes true rest { s with hasRuntime := false } snaps t p →
      Happens s (.piece (.thread index)) snaps (t.putThread s.hasRuntime index p) none
  | noThread {index : Nat} : (∀ rest, s.background.threads[index]? ≠ some (.ready rest)) →
      Happens s (.piece (.thread index)) [] s none
  | cycle {index : Nat} {rest : Work (Except String Summary)} {snaps : List Session}
      {t : Session} {p : RefreshProgress} : s.cycle? index = some (.ready rest) →
      Goes true rest s snaps t p →
      Happens s (.piece (.cycle index)) snaps (t.putCycle index p) none
  | noCycle {index : Nat} : (∀ rest, s.cycle? index ≠ some (.ready rest)) →
      Happens s (.piece (.cycle index)) [] s none
  | time (nanos : Nat) : Happens s (.time nanos) [] { s with elapsed := s.elapsed + nanos } none
  | reading : Happens s .reading [] { s with clock := s.clock.tick } none

/-- All this happens, one after the other. -/
inductive Unfolds :
    Session → List Happening → List Session → Session → List (Option Answer) → Prop
  | nil {s : Session} : Unfolds s [] [] s []
  | cons {s t u : Session} {h : Happening} {hs : List Happening} {snaps more : List Session}
      {answer : Option Answer} {answers : List (Option Answer)} :
      Happens s h snaps t answer → Unfolds t hs more u answers →
      Unfolds s (h :: hs) (snaps ++ more) u (answer :: answers)

/-- The order of the table is one of the orders. -/
theorem happens_happen (s : Session) (h : Happening) :
    ∃ snaps, Happens s h snaps (s.happen h).1 (s.happen h).2 := by
  cases h with
  | command command =>
    obtain ⟨snaps, goes⟩ := goes_finish command.work s
    exact ⟨snaps, .command goes⟩
  | piece piece =>
    cases piece with
    | look index => exact ⟨[], .look index⟩
    | thread index =>
      simp only [happen, doPiece]
      split
      · next rest ready =>
        obtain ⟨snaps, goes⟩ := goes_advance rest { s with hasRuntime := false }
        rw [resumeThread_eq]
        exact ⟨snaps, .thread ready goes⟩
      · next idle => exact ⟨[], .noThread idle⟩
    | cycle index =>
      simp only [happen, doPiece]
      split
      · next rest ready =>
        obtain ⟨snaps, goes⟩ := goes_advance rest s
        rw [resumeCycle_eq]
        exact ⟨snaps, .cycle ready goes⟩
      · next idle => exact ⟨[], .noCycle idle⟩
  | time nanos => exact ⟨[], .time nanos⟩
  | reading => exact ⟨[], .reading⟩

theorem unfolds_follow (s : Session) (hs : List Happening) :
    ∃ snaps, Unfolds s hs snaps (s.follow hs).1 (s.follow hs).2 := by
  induction hs generalizing s with
  | nil => exact ⟨[], .nil⟩
  | cons h rest ih =>
    obtain ⟨snaps, happens⟩ := s.happens_happen h
    obtain ⟨more, unfolds⟩ := ih (s.happen h).1
    exact ⟨snaps ++ more, .cons happens unfolds⟩

/-! ## Runs proceed -/

section Goes

variable {α : Type} {waits : Bool} {s t : Session} {snaps : List Session} {w : Work α}
  {p : Progress α}

theorem Goes.hasCycle (h : Goes waits w s snaps t p) {index : Nat} (has : s.HasCycle index) :
    t.HasCycle index := by
  induction h with
  | done => exact has
  | asks _ _ ih => exact ih (has.answer _)
  | takes _ _ _ ih => exact ih (has.answer _)
  | passes _ _ ih => exact ih has
  | stops => exact has

/-- All background refreshes and cycles that are not over have yet to begin. -/
def Fresh (s : Session) : Prop := ∀ w ∈ s.underWay, w = Work.wholeRefresh

theorem Fresh.begins (h : s.Fresh) (begins : Begins s t) : t.Fresh := by
  obtain ⟨n, under⟩ := begins
  intro w member
  rcases List.mem_append.1 (under.mem_iff.1 member) with new | old
  · exact (List.mem_replicate.1 new).2
  · exact h w old

theorem Goes.fresh (h : Goes waits w s snaps t p) (fresh : s.Fresh) : t.Fresh := by
  induction h with
  | done => exact fresh
  | asks _ _ ih => exact ih (fresh.begins (begins_answer _ _))
  | takes _ _ _ ih => exact ih (fresh.begins (begins_answer _ _))
  | passes _ _ ih => exact ih fresh
  | stops => exact fresh

end Goes

theorem Fresh.putThread {t : Session} (h : t.Fresh) (hasRuntime : Bool) (index : Nat)
    (result : Except String Summary) :
    (t.putThread hasRuntime index (.finished result)).Fresh := by
  intro w member
  rcases List.mem_append.1 member with thread | cycle
  · obtain ⟨p, there, left⟩ := List.mem_filterMap.1 thread
    rcases List.mem_or_eq_of_mem_set there with old | rfl
    · exact h w (List.mem_append_left _ (List.mem_filterMap.2 ⟨p, old, left⟩))
    · cases left
  · exact h w (List.mem_append_right _ cycle)

theorem Fresh.endCycle {t : Session} (h : t.Fresh) (index : Nat) (result : Except String Summary) :
    (t.endCycle index result).Fresh := by
  rcases t.endCycle_cases index result with eq | ⟨_, task, journal, _, _, _, eq⟩
  · rw [eq]
    exact h
  · rw [eq]
    intro w member
    rcases List.mem_append.1 member with thread | cycle
    · exact h w (List.mem_append_left _ thread)
    · obtain ⟨m, there, left⟩ := List.mem_filterMap.1 cycle
      rcases List.mem_or_eq_of_mem_set there with old | rfl
      · exact h w (List.mem_append_right _ (List.mem_filterMap.2 ⟨m, old, left⟩))
      · cases left

section Happens

variable {s s' t t' : Session} {h : Happening} {snaps snaps' : List Session}
  {answer answer' : Option Answer}

theorem proceeds_putCycle {index : Nat} (has : t.HasCycle index) (p : RefreshProgress) :
    Proceeds t (t.putCycle index p) := by
  obtain ⟨m, found, inCycle⟩ := has
  have moves : ∀ q : RefreshProgress,
      Proceeds t (t.putMember index { m with cycle := some q }) :=
    fun q => .single ⟨.cycleMoves q found inCycle, Nat.le_refl _⟩
  cases p with
  | finished result => exact (atOnce_endCycle ⟨m, found, inCycle⟩ result).proceeds
  | ready rest =>
    simp only [putCycle, found]
    exact moves _
  | waiting gate rest =>
    simp only [putCycle, found]
    exact moves _

theorem Happens.proceeds (happens : Happens s h snaps t answer) : Proceeds s t := by
  cases happens with
  | command goes => exact goes.proceeds
  | look index => exact (atOnce_look s index).proceeds
  | @thread index rest snaps t p _ goes =>
    have away : Proceeds s { s with hasRuntime := false } :=
      .single ⟨.runtime false, Nat.le_refl _⟩
    have back : Proceeds t { t with hasRuntime := s.hasRuntime } :=
      .single ⟨.runtime _, Nat.le_refl _⟩
    have put : Proceeds { t with hasRuntime := s.hasRuntime }
        (t.putThread s.hasRuntime index p) := .single ⟨.threads _, Nat.le_refl _⟩
    exact ((away.trans goes.proceeds).trans back).trans put
  | noThread => exact .refl
  | @cycle index rest snaps t p ready goes =>
    obtain ⟨m, found, cycle⟩ := Option.bind_eq_some_iff.1 ready
    have has : s.HasCycle index := ⟨m, found, by rw [cycle]; rfl⟩
    exact goes.proceeds.trans (proceeds_putCycle (goes.hasCycle has) p)
  | noCycle => exact .refl
  | time nanos => exact .single ⟨.time _, Nat.le_add_right _ _⟩
  | reading => exact .single ⟨.request .snapshot, Nat.le_refl _⟩

end Happens

/-! ## Runs in step -/

section InStep

variable {ttl : Span} {limit : Option Nat} {time : TimeSource} {hasRuntime : Bool}
  {s s' t t' : Session} {snaps snaps' : List Session}

/-- Two sessions that the same has led to, in whatever orders. -/
structure InStep (ttl : Span) (limit : Option Nat) (time : TimeSource) (hasRuntime : Bool)
    (s s' : Session) : Prop where
  reached : Reachable ttl limit time hasRuntime s
  regular : s.Regular
  fresh : s.Fresh
  alike : Alike s s'

theorem Alike.threads (h : Alike s t) : s.background.threads = t.background.threads := by
  have same := congrArg (fun u => u.background.threads) h.muted
  exact same

theorem Alike.cycle? (h : Alike s t) (index : Nat) : s.cycle? index = t.cycle? index := by
  rw [Session.cycle?, Session.cycle?, h.members]

/-- A background refresh or a cycle that is taken up comes to its end. -/
theorem InStep.takesUp {p p' : RefreshProgress} (regular : s.Regular) (alike : Alike s s')
    (goes : Goes true Work.wholeRefresh s snaps t p) (apart : ∀ u ∈ snaps, u.Apart)
    (goes' : Goes true Work.wholeRefresh s' snaps' t' p') :
    ∃ told, p = .finished (.ok told) ∧ p' = .finished (.ok told) ∧ Alike t t' := by
  have first : s ∈ snaps := by
    cases goes with
    | asks other => exact absurd rfl other
    | takes => exact List.mem_cons_self
  obtain ⟨told, eq, eq', same⟩ :=
    refresh_any_order alike regular.accounted.nodup_keys (apart s first) goes goes'
  exact ⟨told, eq, eq', same.alike regular.still⟩

theorem InStep.happens {h : Happening} {answer answer' : Option Answer}
    (step : InStep ttl limit time hasRuntime s s') (happens : Happens s h snaps t answer)
    (apart : ∀ u ∈ snaps, u.Apart) (happens' : Happens s' h snaps' t' answer') :
    InStep ttl limit time hasRuntime t t' ∧ Option.Rel Answer.Alike answer answer' := by
  have proceeds := happens.proceeds
  have reached : Reachable ttl limit time hasRuntime t :=
    Relation.ReflTransGen.trans step.reached proceeds.reaches
  have regular := step.regular.proceeds proceeds
  suffices both : t.Fresh ∧ Alike t t' ∧ Option.Rel Answer.Alike answer answer' from
    ⟨⟨reached, regular, both.1, both.2.1⟩, both.2.2⟩
  cases happens with
  | @command command _ _ _ goes =>
    cases happens' with
    | command goes' =>
      obtain ⟨alike, answers⟩ := command.orderless step.regular step.alike goes apart goes'
      exact ⟨goes.fresh step.fresh, alike, .some answers⟩
  | look index =>
    cases happens' with
    | look _ =>
      exact ⟨step.fresh.begins (begins_look step.reached index), step.alike.look index, .none⟩
  | @thread index rest _ t p ready goes =>
    cases happens' with
    | noThread idle => exact absurd (step.alike.threads ▸ ready) (idle rest)
    | @thread _ rest' _ t' p' ready' goes' =>
      rw [step.alike.threads, ready'] at ready
      obtain rfl := Progress.ready.inj (Option.some.inj ready)
      rw [← step.alike.threads] at ready'
      obtain rfl := step.fresh rest' (List.mem_append_left _
        (List.mem_filterMap.2 ⟨_, List.mem_of_getElem? ready', rfl⟩))
      have away : Alike { s with hasRuntime := false } { s' with hasRuntime := false } :=
        ⟨congrArg (fun u : Session => { u with hasRuntime := false }) step.alike.muted,
          step.alike.calls⟩
      have runtime := congrArg Session.hasRuntime step.alike.muted
      change s.hasRuntime = s'.hasRuntime at runtime
      obtain ⟨told, rfl, rfl, alike⟩ := takesUp
        (s := { s with hasRuntime := false }) ⟨step.regular.still, step.regular.accounted⟩ away
        goes apart goes'
      rw [← runtime]
      refine ⟨(goes.fresh step.fresh).putThread _ _ _, ⟨?_, alike.calls⟩, .none⟩
      exact congrArg (fun u => u.putThread s.hasRuntime index (.finished (.ok told))) alike.muted
  | noThread idle =>
    cases happens' with
    | noThread _ => exact ⟨step.fresh, step.alike, .none⟩
    | @thread _ rest' _ _ _ ready' _ => exact absurd (step.alike.threads ▸ ready') (idle rest')
  | @cycle index rest _ t p ready goes =>
    cases happens' with
    | noCycle idle => exact absurd (step.alike.cycle? index ▸ ready) (idle rest)
    | @cycle _ rest' _ t' p' ready' goes' =>
      rw [step.alike.cycle?, ready'] at ready
      obtain rfl := Progress.ready.inj (Option.some.inj ready)
      rw [← step.alike.cycle?] at ready'
      obtain ⟨m, found, cycle⟩ := Option.bind_eq_some_iff.1 ready'
      obtain rfl := step.fresh rest' (List.mem_append_right _ (List.mem_filterMap.2
        ⟨m, List.mem_of_getElem? found, by rw [Member.unfinished?, cycle]; rfl⟩))
      obtain ⟨told, rfl, rfl, alike⟩ := takesUp step.regular step.alike goes apart goes'
      exact ⟨(goes.fresh step.fresh).endCycle _ _, alike.endCycle index _, .none⟩
  | @noCycle index idle =>
    cases happens' with
    | noCycle _ => exact ⟨step.fresh, step.alike, .none⟩
    | @cycle _ rest' _ _ _ ready' _ => exact absurd (step.alike.cycle? index ▸ ready') (idle rest')
  | time nanos =>
    cases happens' with
    | time _ =>
      exact ⟨step.fresh, ⟨congrArg (fun u : Session => { u with elapsed := u.elapsed + nanos })
        step.alike.muted, step.alike.calls⟩, .none⟩
  | reading =>
    cases happens' with
    | reading => exact ⟨step.fresh, ⟨congrArg (fun u : Session => { u with clock := u.clock.tick })
        step.alike.muted, step.alike.calls⟩, .none⟩

theorem InStep.unfolds {hs : List Happening} {answers answers' : List (Option Answer)}
    (step : InStep ttl limit time hasRuntime s s') (unfolds : Unfolds s hs snaps t answers)
    (apart : ∀ u ∈ snaps, u.Apart) (unfolds' : Unfolds s' hs snaps' t' answers') :
    Alike t t' ∧ List.Forall₂ (Option.Rel Answer.Alike) answers answers' := by
  -- on the first run; the second goes step by step with it
  induction unfolds generalizing s' snaps' answers' with
  | nil =>
    cases unfolds' with
    | nil => exact ⟨step.alike, .nil⟩
  | cons happens _ ih =>
    cases unfolds' with
    | cons happens' rest' =>
      obtain ⟨next, answer⟩ :=
        step.happens happens (fun u member => apart u (List.mem_append_left _ member)) happens'
      obtain ⟨alike, answers⟩ :=
        ih next (fun u member => apart u (List.mem_append_right _ member)) rest'
      exact ⟨alike, .cons answer answers⟩

theorem inStep_ofCache (virtual : time ≠ .system) :
    InStep ttl limit time hasRuntime (ofCache ttl limit time hasRuntime)
      (ofCache ttl limit time hasRuntime) where
  reached := .refl
  regular := by
    refine ⟨?_, Cache.Accounted.new _ _⟩
    cases time with
    | system => exact absurd rfl virtual
    | manual start => rfl
    | manualFromPresent => rfl
    | running start => rfl
  fresh := by
    intro w member
    cases member
  alike := .refl _

end InStep

/-! ## The whole -/

/-- A refresh that goes through its snapshot in this order. -/
def refreshIn (s : Session) (order : List (String × Callback)) :
    Session × Except String Summary :=
  (s.answer .snapshot).1.finish (Work.refreshRest (Work.call Work.maxDepth) order .empty)

theorem Goes.bind {α β : Type} {w : Work α} {f : α → Work β} {s t u : Session}
    {first more : List Session} {a : α} {p : Progress β}
    (h : Goes false w s first t (.finished a)) (next : Goes false (f a) t more u p) :
    Goes false (w.bind f) s (first ++ more) u p := by
  generalize result : Progress.finished a = q at h
  induction h with
  | done =>
    obtain rfl := Progress.finished.inj result
    exact next
  | asks other _ ih => exact .asks other (ih next result)
  | takes order perm _ ih => exact .takes order perm (ih next result)
  | passes opened _ ih => exact .passes opened (ih next result)
  | stops waits => cases waits

/-- A caller's refresh may choose any order. -/
theorem goes_refreshIn {s : Session} (apart : s.Apart) {order : List (String × Callback)}
    (perm : order.Perm s.cache.refreshable) :
    Goes false Command.refresh.work s [s] (s.refreshIn order).1
      (.finished (.ofRefresh (s.refreshIn order).2)) := by
  have direct := (refreshed_plain (apart.fits perm) 999 .empty).direct
  obtain ⟨snaps, goes⟩ := goes_finish
    (Work.refreshRest (Work.call Work.maxDepth) order .empty) (s.answer .snapshot).1
  obtain ⟨rfl, _⟩ := goes.of_direct direct
  have whole : Goes false Work.wholeRefresh s [s] (s.refreshIn order).1
      (.finished (s.refreshIn order).2) := .takes order perm goes
  exact whole.bind (f := fun result => .done (Answer.ofRefresh result)) .done

theorem goes_act (s : Session) (action : Action) :
    Goes false (Command.act action).work s [] (s.answer (.act action)).1
      (.finished (s.answer (.act action)).2) := by
  simp only [Command.work, Command.workWith]
  exact .asks nofun .done

theorem Apart.of_isPlain {s : Session}
    (apart : (s.cache.refreshable.map fun pair => pair.2.source).Nodup)
    (plain : ∀ pair ∈ s.cache.refreshable,
      (s.sources[pair.2.source]?.map Source.isPlain) = some true) : s.Apart where
  apart := apart
  plain pair member := Option.map_eq_some_iff.1 (plain pair member)

/-- The order in which a refresh goes through the entries does not matter, as long as its callbacks
share no state, touch neither the cache nor the clock and do not panic. In any two orders it comes
to the same summary and leaves the same entries, statistics and sources, and every source was
called as often. Only if real time goes on, entries may expire at other instants.

Whatever else is done before, in between and after, be it by callers, by callbacks or in the
background, runs in which each refresh chooses an order of its own stay alike, and so do all
answers. The order of the table is one of the orders. -/
theorem refresh_order_irrelevant :
    (∀ s : Session, s.cache.entries.keys.Nodup → s.Apart → ∀ order order',
      order.Perm s.cache.refreshable → order'.Perm s.cache.refreshable →
      let after := s.refreshIn order
      let after' := s.refreshIn order'
      (∃ told, after.2 = .ok told ∧ after'.2 = .ok told) ∧
        after.1.cache.stats = after'.1.cache.stats ∧ after.1.sources = after'.1.sources ∧
        after.1.cache.entries.mapValues Entry.timeless =
          after'.1.cache.entries.mapValues Entry.timeless ∧
        (s.clock.tick = s.clock → after.1.cache = after'.1.cache) ∧
        SameRefresh (s.clock.tick = s.clock) after.1 after'.1) ∧
    (∀ s : Session, s.finish Work.wholeRefresh = s.refreshIn s.cache.refreshable ∧
      (s.Apart → ∀ order, order.Perm s.cache.refreshable →
        Goes false Command.refresh.work s [s] (s.refreshIn order).1
          (.finished (.ofRefresh (s.refreshIn order).2)))) ∧
    (∀ ttl limit time hasRuntime hs snaps snaps' t t' answers answers', time ≠ .system →
      Unfolds (ofCache ttl limit time hasRuntime) hs snaps t answers → (∀ u ∈ snaps, u.Apart) →
      Unfolds (ofCache ttl limit time hasRuntime) hs snaps' t' answers' →
      t.cache = t'.cache ∧ t.sources = t'.sources ∧ Alike t t' ∧
        List.Forall₂ (Option.Rel Answer.Alike) answers answers') ∧
    ∀ s hs, ∃ snaps, Unfolds s hs snaps (s.follow hs).1 (s.follow hs).2 := by
  refine ⟨fun s keys apart order order' perm perm' => ?_, fun s => ⟨rfl, fun apart order perm =>
    goes_refreshIn apart perm⟩, ?_, unfolds_follow⟩
  · obtain ⟨_, _, told, result, result', same⟩ :=
      refresh_orders (.refl s) keys apart perm perm' 999
    have cache := congrArg Session.cache same.timeless
    refine ⟨⟨told, result, result'⟩, ?_, ?_, congrArg Cache.entries cache, fun still => ?_, same⟩
    · have stats := congrArg Cache.stats cache
      exact ((Cache.stats_timeless _).symm.trans stats).trans (Cache.stats_timeless _)
    · have sources := congrArg Session.sources same.timeless
      exact sources
    · have alike := congrArg Session.cache (same.alike still).muted
      exact alike
  · intro ttl limit time hasRuntime hs snaps snaps' t t' answers answers' virtual unfolds apart
      unfolds'
    obtain ⟨alike, answers⟩ := (inStep_ofCache virtual).unfolds unfolds apart unfolds'
    have cache := congrArg Session.cache alike.muted
    exact ⟨cache, alike.sources, alike, answers⟩

/-- Of two callbacks the first succeeds when it is tried again, and the second fails. A refresh goes
through them in one order, and a later one in the other. -/
theorem refresh_order_irrelevant_retried :
    let fails : WarmCache.Step := .mk none [] (.failed "down")
    let succeeds : WarmCache.Step := .mk none [] (.counted 5)
    let start := ofCache (.ofSecs 60) none (.manual ⟨1000, 0⟩) true
    let one : Action := .set "a" 1 [.refresh (.mk "first" fails [succeeds] false [1])]
    let two : Action := .set "b" 2 [.refresh (.mk "second" fails [] false [])]
    let later : Action := .policy (.advance (.ofSecs 5))
    let s := ((start.answer (.act one)).1.answer (.act two)).1
    let swapped : List (String × Callback) := [("b", ⟨1, []⟩), ("a", ⟨0, [1]⟩)]
    let v := ((s.refreshIn s.cache.refreshable).1.answer (.act later)).1
    let v' := ((s.refreshIn swapped).1.answer (.act later)).1
    let t := (v.refreshIn swapped).1
    let t' := (v'.refreshIn v'.cache.refreshable).1
    let hs : List Happening :=
      [.command (.act one), .command (.act two), .command .refresh, .command (.act later),
        .command .refresh]
    (s.refreshIn s.cache.refreshable).1.cache = (s.refreshIn swapped).1.cache ∧
      (∃ answers answers', Unfolds start hs [s, v] t answers ∧
        Unfolds start hs [s, v'] t' answers' ∧ t.cache = t'.cache) ∧
      t.journal.trace.map TraceRecord.name = ["first", "second", "second", "first", "first"] ∧
      t'.journal.trace.map TraceRecord.name = ["second", "first", "first", "first", "second"] ∧
      t.cache.stats = ⟨⟨0, 0, 2, 2, 0, 0⟩, 2⟩ := by
  intro fails succeeds start one two later s swapped v v' t t' hs
  have refreshable : [s, v, v'].map (fun u => u.cache.refreshable) =
      [[("a", ⟨0, [1]⟩), ("b", ⟨1, []⟩)], [("a", ⟨0, [1]⟩), ("b", ⟨1, []⟩)],
        [("a", ⟨0, [1]⟩), ("b", ⟨1, []⟩)]] := by decide +kernel
  have keys : s.cache.entries.keys = ["a", "b"] := by decide +kernel
  have apart : s.Apart := .of_isPlain (by decide +kernel) (by decide +kernel)
  have apart_v : v.Apart := .of_isPlain (by decide +kernel) (by decide +kernel)
  have apart_v' : v'.Apart := .of_isPlain (by decide +kernel) (by decide +kernel)
  simp only [List.map_cons, List.map_nil, List.cons.injEq, and_true] at refreshable
  obtain ⟨of_s, of_v, of_v'⟩ := refreshable
  obtain ⟨once, _, runs, _⟩ := refresh_order_irrelevant
  have perm : swapped.Perm s.cache.refreshable := of_s ▸ .swap _ _ _
  have perm_v : swapped.Perm v.cache.refreshable := of_v ▸ .swap _ _ _
  obtain ⟨_, _, _, _, same, _⟩ := once s (keys ▸ by decide) apart _ _ (.refl _) perm
  have unfolds : Unfolds start hs [s, v] t _ := .cons (.command (start.goes_act one)) <|
    .cons (.command (goes_act _ two)) <| .cons (.command (goes_refreshIn apart (.refl _))) <|
    .cons (.command (goes_act _ later)) <|
    .cons (.command (goes_refreshIn apart_v perm_v)) .nil
  have unfolds' : Unfolds start hs [s, v'] t' _ := .cons (.command (start.goes_act one)) <|
    .cons (.command (goes_act _ two)) <| .cons (.command (goes_refreshIn apart perm)) <|
    .cons (.command (goes_act _ later)) <|
    .cons (.command (goes_refreshIn apart_v' (.refl _))) .nil
  have aparts : ∀ u ∈ [s, v], u.Apart := by
    intro u member
    rcases List.mem_pair.1 member with rfl | rfl
    · exact apart
    · exact apart_v
  have virtual : TimeSource.manual ⟨1000, 0⟩ ≠ .system := by
    intro same
    cases same
  obtain ⟨cache, _⟩ := runs _ _ _ _ _ _ _ _ _ _ _ virtual unfolds aparts unfolds'
  refine ⟨same rfl, ⟨_, _, unfolds, unfolds', cache⟩, ?_, ?_, ?_⟩ <;> decide +kernel

end Session

end WarmCache
