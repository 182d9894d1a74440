import WarmCache.Proofs.Cycles
import WarmCache.Proofs.Endings
import WarmCache.Proofs.Invocations
import WarmCache.Proofs.Plain
import WarmCache.Proofs.Worker

/-!
# Refreshes that panic

A callback may panic at any point of a refresh. The refresh ends there, and what it has settled by
then stays settled. If the callbacks leave the cache alone, the panic is where the refresh of the
pairs before it would have ended. A refresh worker lives on: its cycle is over, but its task waits
for the tick that was to come anyway, and the cache stays claimed.

Results:
1. `Work.refreshRest_append`, `refreshRest_stops`: a refresh is that of the first pairs, and then
   goes on unless it has panicked.
2. `settledBy_rounds`: what rounds make of a cache that no callback touches.
3. `servesOn_of_reaches`: what becomes of a refresh worker after a cycle.
4. `panic_keeps_settled_pairs`: a panic at any position, of a caller's refresh and of a worker's.
-/

namespace WarmCache

/-! ## Where a refresh stops -/

/-- What is left of a refresh with these pairs, once it has come so far. -/
def Work.goesOn (call : Callback → Work (Outcome Int)) (rest : List (String × Callback)) :
    Except String Summary → Work (Except String Summary)
  | .error message => .done (.error message)
  | .ok summary => refreshRest call rest summary

/-- A refresh goes through its first pairs, and through the others unless it has panicked. -/
theorem Work.refreshRest_append (call : Callback → Work (Outcome Int))
    (first rest : List (String × Callback)) (summary : Summary) :
    refreshRest call (first ++ rest) summary =
      (refreshRest call first summary).bind (goesOn call rest) := by
  induction first generalizing summary with
  | nil => rfl
  | cons pair more ih =>
    obtain ⟨key, callback⟩ := pair
    rw [List.cons_append, refreshRest_cons, refreshRest_cons, bind_assoc]
    refine congrArg (bind (call callback)) (funext fun outcome => ?_)
    cases outcome with
    | panicked message => rfl
    | ok item => exact congrArg (ask _) (funext fun settled => ih (summary.count settled))
    | failed message => exact congrArg (ask _) (funext fun settled => ih (summary.count settled))

theorem eq_take_append_cons_drop {α : Type} {l : List α} {i : Nat} {a : α}
    (found : l[i]? = some a) : l = l.take i ++ a :: l.drop (i + 1) := by
  obtain ⟨inside, rfl⟩ := List.getElem?_eq_some_iff.1 found
  rw [← List.drop_eq_getElem_cons inside, List.take_append_drop]

theorem exists_head_of_map {α β : Type} {l : List α} {f : α → β} {b : β} (h : l.map f = [b]) :
    ∃ a, l[0]? = some a ∧ f a = b := by
  obtain ⟨a, rfl, same⟩ := List.map_eq_singleton_iff.1 h
  exact ⟨a, rfl, same⟩

namespace Round

/-- The callback of the round returned an item. -/
def isFetched (r : Round) : Bool :=
  match r.outcome with
  | .ok _ => true
  | _ => false

/-- The callback of the round returned an error. -/
def isFailed (r : Round) : Bool :=
  match r.outcome with
  | .failed _ => true
  | _ => false

end Round

namespace Session

variable {call : Callback → Work (Outcome Int)}

theorem invoked_bind {α β : Type} (w : Work α) (f : α → Work β) (s : Session) :
    s.invoked (w.bind f) = s.invoked w ++ (s.finish w).1.invoked (f (s.finish w).2) := by
  induction w generalizing s with
  | done result => rfl
  | ask q next ih =>
    show begun q (s.answer q).2 ++ _ = (begun q (s.answer q).2 ++ _) ++ _
    rw [List.append_assoc]
    exact congrArg (begun q (s.answer q).2 ++ ·) (ih _ _)
  | gate name rest ih => exact ih s

/-- Work that comes to its end in the background comes to the same end if no gate holds it up. -/
theorem finish_of_advance {α : Type} {w : Work α} {s t : Session} {result : α}
    (h : s.advance w = (t, .finished result)) : s.finish w = (t, result) := by
  induction w generalizing s with
  | done a =>
    obtain ⟨rfl, same⟩ := Prod.mk.inj h
    obtain rfl := Progress.finished.inj same
    rfl
  | ask q next ih => exact ih _ h
  | gate name rest ih =>
    unfold advance at h
    split at h
    · exact ih h
    · cases (Prod.mk.inj h).2

/-- The rounds of a refresh whose first callback returns. -/
theorem rounds_cons {pair : String × Callback} {rest : List (String × Callback)} {s t : Session}
    {settled : Settled} (applied : (s.roundOf call pair).applied = (t, some settled)) :
    rounds call (pair :: rest) s = s.roundOf call pair :: rounds call rest t := by
  rw [rounds, applied]

/-- A callback that returns has its outcome settled. -/
theorem applied_of_returns {pair : String × Callback} {s : Session}
    (returns : ∀ message, (s.roundOf call pair).outcome ≠ .panicked message) :
    ∃ t settled, (s.roundOf call pair).applied = (t, some settled) := by
  obtain ⟨result, has⟩ := Round.exists_result returns
  rw [Round.applied, has]
  exact ⟨_, _, rfl⟩

/-- A callback that panics is that of the last round. The callbacks before it return, and it is
called where the refresh of their pairs ends. -/
theorem refreshRest_stops {pairs : List (String × Callback)} {s : Session} {i : Nat} {r : Round}
    {message : String} (found : (rounds call pairs s)[i]? = some r)
    (panics : r.outcome = .panicked message) (summary : Summary) :
    pairs[i]? = some r.pair ∧
      rounds call (pairs.take i) s = (rounds call pairs s).take i ∧
      (∀ q ∈ (rounds call pairs s).take i, ∀ text, q.outcome ≠ .panicked text) ∧
      ∃ told, s.finish (Work.refreshRest call (pairs.take i) summary) = (r.called, .ok told) := by
  -- on the pairs that are left; the rounds go on after the first only if its callback returns
  induction pairs generalizing s i summary with
  | nil => cases found
  | cons pair rest ih =>
    cases i with
    | zero =>
      have head : (rounds call (pair :: rest) s)[0]? = some (s.roundOf call pair) := by
        rw [rounds]
        split <;> rfl
      obtain rfl := Option.some.inj (head.symm.trans found)
      rw [List.take_zero, List.take_zero]
      exact ⟨rfl, rfl, fun q member => absurd member List.not_mem_nil, summary, rfl⟩
    | succ i =>
      have returns : ∀ text, (s.roundOf call pair).outcome ≠ .panicked text := by
        intro text outcome
        have none : (s.roundOf call pair).applied = ((s.roundOf call pair).returned, none) := by
          simp only [Round.applied, Round.result?, outcome]
        rw [rounds, none] at found
        cases found
      obtain ⟨t, settled, applied⟩ := applied_of_returns returns
      rw [rounds_cons applied] at found ⊢
      obtain ⟨pairs, first, before, told, stops⟩ := ih found (summary.count settled)
      refine ⟨pairs, ?_, ?_, told, ?_⟩
      · rw [List.take_succ_cons, List.take_succ_cons, rounds_cons applied, first]
      · intro q member
        rw [List.take_succ_cons] at member
        rcases List.mem_cons.1 member with rfl | later
        · exact returns
        · exact before q later
      · rw [List.take_succ_cons, finish_refreshRest_cons applied, stops]

end Session

/-! ## What the rounds before it settle -/

namespace Counters

/-- The counters after so many items and so many errors of callbacks were settled. -/
def recordSettled (c : Counters) (refreshed failed : Nat) : Counters :=
  { c with
    refreshes := c.refreshes + UInt64.ofNat refreshed
    refreshFailures := c.refreshFailures + UInt64.ofNat failed }

theorem recordSettled_zero (c : Counters) : c.recordSettled 0 0 = c := by
  have zero : UInt64.ofNat 0 = 0 := rfl
  simp only [recordSettled, zero, UInt64.add_zero]

theorem recordRefresh_recordSettled (c : Counters) (refreshed failed : Nat) :
    c.recordRefresh.recordSettled refreshed failed = c.recordSettled (refreshed + 1) failed := by
  simp only [recordSettled, recordRefresh, UInt64.ofNat_add, UInt64.ofNat_one, UInt64.add_assoc,
    UInt64.add_comm 1]

theorem recordRefreshFailure_recordSettled (c : Counters) (refreshed failed : Nat) :
    c.recordRefreshFailure.recordSettled refreshed failed =
      c.recordSettled refreshed (failed + 1) := by
  simp only [recordSettled, recordRefreshFailure, UInt64.ofNat_add, UInt64.ofNat_one,
    UInt64.add_assoc, UInt64.add_comm 1]

end Counters

/-- What rounds whose callbacks leave it alone make of cache `c`. -/
structure Cache.SettledBy (c : Cache Int) (rs : List Round) (d : Cache Int) : Prop where
  /-- An item is stamped when its callback has returned. -/
  fetched : ∀ r ∈ rs, ∀ item, r.outcome = .ok item →
    d.entries.find? r.key = some ⟨item, c.expiryFrom r.returned.now, some r.callback⟩
  failed : ∀ r ∈ rs, ∀ message, r.outcome = .failed message →
    d.entries.find? r.key = c.entries.find? r.key
  others : ∀ key, (∀ r ∈ rs, r.key ≠ key) → d.entries.find? key = c.entries.find? key
  keys : d.entries.keys = c.entries.keys
  counters : d.counters =
    c.counters.recordSettled (rs.countP Round.isFetched) (rs.countP Round.isFailed)
  /-- Nothing else changes: not the slots, the limit, the policy or the claim of a worker. -/
  frame : d = { c with entries := d.entries, counters := d.counters }

namespace Cache.SettledBy

variable {c c' d : Cache Int} {r : Round} {rs : List Round}

theorem nil (c : Cache Int) : c.SettledBy [] c :=
  ⟨fun _ member => absurd member List.not_mem_nil, fun _ member => absurd member List.not_mem_nil,
    fun _ _ => rfl, rfl, c.counters.recordSettled_zero.symm, rfl⟩

/-- One more round at the beginning, whose callback returned an error. -/
theorem cons_failed {message : String} (outcome : r.outcome = .failed message)
    (once : ∀ q ∈ rs, q.key ≠ r.key)
    (h : ({ c with counters := c.counters.recordRefreshFailure } : Cache Int).SettledBy rs d) :
    c.SettledBy (r :: rs) d where
  fetched q member item fetched := by
    rcases List.mem_cons.1 member with rfl | later
    · rw [outcome] at fetched
      cases fetched
    · exact h.fetched q later item fetched
  failed q member text failed := by
    rcases List.mem_cons.1 member with rfl | later
    · exact h.others q.key once
    · exact h.failed q later text failed
  others key other := h.others key fun q later => other q (List.mem_cons_of_mem _ later)
  keys := h.keys
  counters := by
    have fetches : ¬ r.isFetched = true := by
      simp only [Round.isFetched, outcome, not_false_eq_true, Bool.false_eq_true]
    have fails : r.isFailed = true := by rw [Round.isFailed, outcome]
    rw [h.counters, List.countP_cons_of_neg fetches, List.countP_cons_of_pos fails]
    exact c.counters.recordRefreshFailure_recordSettled _ _
  frame := h.frame

/-- One more round at the beginning, whose callback returned an item for a key that is there. No
other round is about this key. -/
theorem cons_fetched {item : Int} (outcome : r.outcome = .ok item)
    (present : c.entries.contains r.key = true) (once : ∀ q ∈ rs, q.key ≠ r.key)
    (h : ({ c with
        entries := c.entries.put r.key ⟨item, c.expiryFrom r.returned.now, some r.callback⟩
        counters := c.counters.recordRefresh } : Cache Int).SettledBy rs d) :
    c.SettledBy (r :: rs) d where
  fetched q member other fetched := by
    rcases List.mem_cons.1 member with rfl | later
    · rw [outcome] at fetched
      obtain rfl := Outcome.ok.inj fetched
      rw [h.others q.key once]
      exact Keyed.find?_put_self _ _ _
    · exact h.fetched q later other fetched
  failed q member text failed := by
    rcases List.mem_cons.1 member with rfl | later
    · rw [outcome] at failed
      cases failed
    · rw [h.failed q later text failed]
      exact Keyed.find?_put_other _ _ (once q later)
  others key other := by
    rw [h.others key fun q later => other q (List.mem_cons_of_mem _ later)]
    exact Keyed.find?_put_other _ _ (other r List.mem_cons_self).symm
  keys := h.keys.trans (Keyed.keys_put_of_contains _ _ _ present)
  counters := by
    have fetches : r.isFetched = true := by rw [Round.isFetched, outcome]
    have fails : ¬ r.isFailed = true := by simp only [Round.isFailed, outcome, not_false_eq_true,
      Bool.false_eq_true]
    rw [h.counters, List.countP_cons_of_pos fetches, List.countP_cons_of_neg fails]
    exact c.counters.recordRefresh_recordSettled _ _
  frame := h.frame

/-- One more round at the beginning, about a key that is there and that no other round is about. -/
theorem cons {result : Except String Int} (has : r.result? = some result)
    (present : c.entries.contains r.key = true) (once : ∀ q ∈ rs, q.key ≠ r.key)
    (h : (c.settle r.returned.now r.key r.callback result).1.SettledBy rs d) :
    c.SettledBy (r :: rs) d := by
  unfold Round.result? at has
  cases outcome : r.outcome with
  | panicked message =>
    rw [outcome] at has
    cases has
  | failed message =>
    rw [outcome] at has
    obtain rfl := Option.some.inj has
    exact cons_failed outcome once h
  | ok item =>
    rw [outcome] at has
    obtain rfl := Option.some.inj has
    rw [settle_ok_of_contains present] at h
    exact cons_fetched outcome present once h

end Cache.SettledBy

/-- The outcome of a round about a key that is there counts as refreshed or as failed. -/
theorem Round.count_settled {r : Round} {t : Session} {settled : Settled}
    (applied : r.applied = (t, some settled))
    (present : r.returned.cache.entries.contains r.key = true) (summary : Summary) :
    summary.count settled =
      ⟨summary.refreshed + (if r.isFetched then 1 else 0),
        summary.failed + (if r.isFailed then 1 else 0), summary.discarded⟩ := by
  have returns : ∀ message, r.outcome ≠ .panicked message := by
    intro message outcome
    simp only [Round.applied, result?, outcome, Prod.mk.injEq, reduceCtorEq, and_false] at applied
  obtain ⟨result, has⟩ := exists_result returns
  have how := (applied_of_result has).2
  rw [applied, Option.some.injEq] at how
  unfold result? at has
  cases outcome : r.outcome with
  | panicked message => exact absurd outcome (returns message)
  | failed message =>
    rw [outcome] at has
    obtain rfl := Option.some.inj has
    rw [how, isFetched, isFailed, outcome]
    rfl
  | ok item =>
    rw [outcome] at has
    obtain rfl := Option.some.inj has
    rw [how, Cache.settle_ok_of_contains present, isFetched, isFailed, outcome]
    rfl

namespace Session

variable {call : Callback → Work (Outcome Int)}

/-- A refresh settles its rounds one by one, if no callback touches the cache or panics. -/
theorem settledBy_rounds {pairs : List (String × Callback)} {s : Session}
    (returns : ∀ r ∈ rounds call pairs s, ∀ message, r.outcome ≠ .panicked message)
    (aloof : ∀ r ∈ rounds call pairs s, r.returned.cache = r.called.cache)
    (distinct : (pairs.map Prod.fst).Nodup)
    (present : ∀ pair ∈ pairs, s.cache.entries.contains pair.1 = true) (summary : Summary) :
    s.cache.SettledBy (rounds call pairs s)
        (s.finish (Work.refreshRest call pairs summary)).1.cache ∧
      (s.finish (Work.refreshRest call pairs summary)).2 =
        .ok ⟨summary.refreshed + (rounds call pairs s).countP Round.isFetched,
          summary.failed + (rounds call pairs s).countP Round.isFailed, summary.discarded⟩ := by
  -- on the pairs that are left, of a cache that has settled the others
  induction pairs generalizing s summary with
  | nil => exact ⟨.nil s.cache, rfl⟩
  | cons pair rest ih =>
    have head : s.roundOf call pair ∈ rounds call (pair :: rest) s := by
      rw [rounds]
      split
      · exact List.mem_cons_self
      · exact List.mem_singleton_self _
    obtain ⟨result, has⟩ := Round.exists_result (returns _ head)
    obtain ⟨t, settled, applied⟩ := applied_of_returns (returns _ head)
    have settles : t.cache =
        (s.cache.settle (s.roundOf call pair).returned.now pair.1 pair.2 result).1 := by
      have cache := (Round.applied_of_result has).1
      rw [applied, aloof _ head] at cache
      exact cache
    have there : (s.roundOf call pair).returned.cache.entries.contains pair.1 = true := by
      rw [aloof _ head]
      exact present pair List.mem_cons_self
    have told := Round.count_settled applied there summary
    rw [finish_refreshRest_cons applied]
    rw [rounds_cons applied] at returns aloof ⊢
    rw [List.map_cons, List.nodup_cons] at distinct
    have returns : ∀ q ∈ rounds call rest t, ∀ message, q.outcome ≠ .panicked message :=
      fun q later => returns q (List.mem_cons_of_mem _ later)
    have kept : ∀ p ∈ rest, t.cache.entries.contains p.1 = true := by
      intro p member
      rw [settles, Keyed.contains_iff_mem_keys, Cache.settle_keys, ← Keyed.contains_iff_mem_keys]
      exact present p (List.mem_cons_of_mem _ member)
    have once : ∀ q ∈ rounds call rest t, q.key ≠ pair.1 := by
      intro q later same
      have member := List.mem_map_of_mem (f := Round.pair) later
      rw [(finish_refreshRest returns summary).1] at member
      exact distinct.1 (same ▸ List.mem_map_of_mem (f := Prod.fst) member)
    obtain ⟨more, counted⟩ := ih returns (fun q later => aloof q (List.mem_cons_of_mem _ later))
      distinct.2 kept (summary.count settled)
    rw [settles] at more
    refine ⟨.cons has (present pair List.mem_cons_self) once more, ?_⟩
    rw [counted, told, List.countP_cons, List.countP_cons]
    simp only [Nat.add_assoc, Nat.add_comm]

/-- A refresh that comes to an error has a callback that panics. -/
theorem exists_panic {pairs : List (String × Callback)} {s t : Session} {summary : Summary}
    {message : String}
    (h : s.finish (Work.refreshRest call pairs summary) = (t, .error message)) :
    ∃ (i : Nat) (r : Round), (rounds call pairs s)[i]? = some r ∧
      ∃ text, r.outcome = .panicked text := by
  by_contra none
  have returns : ∀ r ∈ rounds call pairs s, ∀ text, r.outcome ≠ .panicked text := by
    intro r member text outcome
    obtain ⟨i, found⟩ := List.getElem?_of_mem member
    exact none ⟨i, r, found, text, outcome⟩
  obtain ⟨_, t', outcomes, _, _, eq⟩ := finish_refreshRest returns summary
  rw [h] at eq
  cases (Prod.mk.inj eq).2

/-- The panic of a callback is the end of the refresh: what it left is what it comes to. -/
theorem finish_of_panic {pairs : List (String × Callback)} {s : Session} {i : Nat} {r : Round}
    {message : String} (found : (rounds call pairs s)[i]? = some r)
    (panics : r.outcome = .panicked message) (summary : Summary) :
    s.finish (Work.refreshRest call pairs summary) = (r.returned, .error message) ∧
      s.invoked (Work.refreshRest call pairs summary) =
        s.invoked (Work.refreshRest call (pairs.take i) summary) ++
          r.called.invoked (call r.callback) := by
  obtain ⟨pair, _, _, told, stops⟩ := refreshRest_stops found panics summary
  have calls := (rounds_called (List.mem_of_getElem? found)).1
  have split := congrArg (fun pairs => Work.refreshRest call pairs summary)
    (eq_take_append_cons_drop pair)
  simp only [Work.refreshRest_append] at split
  have goes : Work.goesOn call (r.pair :: pairs.drop (i + 1)) (.ok told) =
      (call r.callback).bind
        (Work.afterCall call r.key r.callback (pairs.drop (i + 1)) told) :=
    Work.refreshRest_cons call r.key r.callback _ told
  constructor
  · rw [split, finish_bind, stops, goes, finish_bind, calls, panics]
    rfl
  · rw [split, invoked_bind, stops, goes, invoked_bind, calls, panics]
    exact congrArg (_ ++ ·) (List.append_nil _)

/-- What a refresh of session `s` over `order` comes to if callback number `i`, which is that of
round `r`, panics: it is cut down to the refresh of the pairs before, and nothing is half done. -/
structure StopsAt (call : Callback → Work (Outcome Int)) (order : List (String × Callback))
    (s : Session) (i : Nat) (r : Round) (message : String) : Prop where
  pair : order[i]? = some r.pair
  propagates : (s.answer .snapshot).1.finish (Work.refreshRest call order .empty) =
    (r.returned, .error message)
  /-- The callback was called where the refresh of the pairs before it ends. -/
  called : r.called =
    ((s.answer .snapshot).1.finish (Work.refreshRest call (order.take i) .empty)).1
  /-- The cache is left as that refresh leaves it, for whatever comes later. -/
  leaves : r.returned.cache =
    ((s.answer .snapshot).1.finish (Work.refreshRest call (order.take i) .empty)).1.cache
  firsts : rounds call (order.take i) (s.answer .snapshot).1 =
    (rounds call order (s.answer .snapshot).1).take i
  settled : s.cache.SettledBy ((rounds call order (s.answer .snapshot).1).take i) r.returned.cache
  summary : ((s.answer .snapshot).1.finish (Work.refreshRest call (order.take i) .empty)).2 =
    .ok ⟨((rounds call order (s.answer .snapshot).1).take i).countP Round.isFetched,
      ((rounds call order (s.answer .snapshot).1).take i).countP Round.isFailed, 0⟩
  /-- The entry of the key whose callback panics stays, and so do those of all later keys. -/
  untouched : ∀ j pair, i ≤ j → order[j]? = some pair →
    r.returned.cache.entries.find? pair.1 = s.cache.entries.find? pair.1
  /-- After the callbacks of the first pairs this one is invoked, and none of the later ones. -/
  uninvoked : (s.answer .snapshot).1.invoked (Work.refreshRest call order .empty) =
    (s.answer .snapshot).1.invoked (Work.refreshRest call (order.take i) .empty) ++
      r.called.invoked (call r.callback)
  slots : r.returned.cache.slots = r.returned.cache.entries.length

theorem stopsAt {ttl : Span} {limit : Option Nat} {time : TimeSource} {hasRuntime : Bool}
    {s : Session} (reached : Reachable ttl limit time hasRuntime s)
    {order : List (String × Callback)} (perm : order.Perm s.cache.refreshable) {i : Nat} {r : Round}
    {message : String} (found : (rounds call order (s.answer .snapshot).1)[i]? = some r)
    (panics : r.outcome = .panicked message)
    (aloof : ∀ q ∈ rounds call order (s.answer .snapshot).1, q.returned.cache = q.called.cache) :
    StopsAt call order s i r message := by
  obtain ⟨pair, firsts, returns, told, stops⟩ := refreshRest_stops found panics .empty
  obtain ⟨propagates, uninvoked⟩ := finish_of_panic found panics .empty
  have member := List.mem_of_getElem? found
  have distinct : (order.map Prod.fst).Nodup := by
    rw [(perm.map Prod.fst).nodup_iff]
    exact reached.accounted.nodup_keys.sublist s.cache.keys_refreshable
  have present : ∀ pair ∈ order, s.cache.entries.contains pair.1 = true := by
    intro pair member
    obtain ⟨e, found, _⟩ := (Cache.mem_refreshable_iff_find? reached.accounted.nodup_keys).1
      (perm.mem_iff.1 member)
    rw [Keyed.contains, found]
    rfl
  have prefixed : ((order.take i).map Prod.fst).Sublist (order.map Prod.fst) :=
    (List.take_sublist i order).map Prod.fst
  rw [← firsts] at returns
  have alone : ∀ q ∈ rounds call (order.take i) (s.answer .snapshot).1,
      q.returned.cache = q.called.cache := by
    rw [firsts]
    exact fun q early => aloof q (List.mem_of_mem_take early)
  obtain ⟨settled, counted⟩ := settledBy_rounds returns alone (distinct.sublist prefixed)
    (fun pair early => present pair (List.mem_of_mem_take early)) .empty
  have paired := (finish_refreshRest returns .empty).1
  have leaves : r.returned.cache = r.called.cache := aloof r member
  rw [stops] at settled counted
  rw [firsts] at settled counted
  have after : Reachable ttl limit time hasRuntime r.returned :=
    (reached.tail (.request .snapshot)).trans (rounds_called member).2
  refine ⟨pair, propagates, ?_, ?_, firsts, ?_, ?_, ?_, uninvoked, after.accounted.slots_eq⟩
  · rw [stops]
  · rw [stops, leaves]
  · rw [leaves]
    exact settled
  · rw [stops]
    refine counted.trans ?_
    simp only [Summary.empty, Nat.zero_add]
  · intro j later le at_j
    rw [leaves]
    refine settled.others later.1 fun q early same => ?_
    have first := List.mem_map_of_mem (f := Round.pair) early
    rw [← firsts, paired] at first
    obtain ⟨k, at_k⟩ := List.getElem?_of_mem first
    rw [List.getElem?_take] at at_k
    split at at_k
    · next before =>
      have twice : (order.map Prod.fst)[k]? = (order.map Prod.fst)[j]? := by
        rw [List.getElem?_map, List.getElem?_map, at_k, at_j]
        exact congrArg some same
      obtain ⟨inside, _⟩ := List.getElem?_eq_some_iff.1 at_k
      have one := (List.getElem?_inj (by rwa [List.length_map]) distinct).1 twice
      omega
    · cases at_k

end Session

/-! ## What becomes of a worker -/

/-- The message of the panic that a refresh has ended with. -/
def Progress.panic? : RefreshProgress → Option String
  | .finished (.error message) => some message
  | _ => none

theorem Progress.eq_of_panic? {p : RefreshProgress} {message : String}
    (h : p.panic? = some message) : p = .finished (.error message) := by
  unfold Progress.panic? at h
  split at h
  · rw [Option.some.inj h]
  · cases h

/-- A task that has begun never comes to be as it was before. -/
theorem Member.Steps.begun {now : Nat} {channel : StopChannel} {m m' : Member}
    (h : m.Steps now channel m') (begun : m.task.phase ≠ .fresh) : m'.task.phase ≠ .fresh := by
  cases h with
  | kept kept =>
    rw [kept.phase]
    exact begun
  | looks looks =>
    cases looks with
    | idle => exact begun
    | ticked => unfold Task.tick; dsimp only; split <;> nofun
    | _ => nofun
  | moves => exact begun
  | returns =>
    unfold Task.cycleEnded
    dsimp only
    split
    · exact nofun
    · exact begun
  | outlives => exact begun

namespace Session

/-- Task `index` of session `u`, which came from session `s`, is a refresh worker that serves on:
it ends by its stop signal or by an abort only, keeps the cache claimed until then, and refreshes
at every tick. -/
structure ServesOn (s : Session) (index : Nat) (every : Interval) (u : Session) (m : Member) :
    Prop where
  found : u.background.members[index]? = some m
  kind : m.task.kind = .refreshWorker
  interval : m.task.interval = every
  ends : ∀ how, m.task.phase = .ended how → (how = .stopped ∨ how = .cancelled) ∧
    ∃ r, Reaches s r ∧ Reaches r u ∧ r.GivesCause index every how
  claims : m.task.hasEnded = false → u.cache.workerRunning = true
  refreshes : ∀ ticker, m.task.phase = .waiting ticker → ticker.isDue u.elapsed = true →
    m.task.abortRequested = false →
    m.task.signal.isStopped (u.stops.channel m.task.signal.channel) = false →
    (u.doPiece (.look index)).cycle? index = some (.ready Work.wholeRefresh)

section Worker

variable {ttl : Span} {limit : Option Nat} {time : TimeSource} {hasRuntime : Bool}
variable {s t u : Session} {index : Nat} {m : Member}

/-- A refresh worker that has not ended keeps the cache claimed. -/
theorem claims_of_running (reached : Reachable ttl limit time hasRuntime s)
    (found : s.background.members[index]? = some m) (kind : m.task.kind = .refreshWorker)
    (running : m.task.hasEnded = false) : s.cache.workerRunning = true :=
  (workerRunning_iff reached.claimed).2
    ⟨m, List.mem_of_getElem? found, holds_iff.2 ⟨kind, .inl running⟩⟩

/-- A refresh worker that waits for a tick that is due begins a refresh when it is looked at. -/
theorem refreshes_of_due (found : s.background.members[index]? = some m)
    (kind : m.task.kind = .refreshWorker) {ticker : Ticker} (waits : m.task.phase = .waiting ticker)
    (due : ticker.isDue s.elapsed = true) (kept : m.task.abortRequested = false)
    (goes : m.task.signal.isStopped (s.stops.channel m.task.signal.channel) = false) :
    (s.doPiece (.look index)).cycle? index = some (.ready Work.wholeRefresh) := by
  have ticked : (s.look m).2 = .ticked := by rw [look, Task.look_due waits kept goes due]
  rw [cycle?_look found, if_pos ticked, if_pos kind]

/-- A task that ends after it has begun sees its stop signal or gives way to an abort. -/
theorem end_of_begun {now : Nat} {channel : StopChannel} {task : Task} {how : TaskEnd}
    (cause : task.Cause now channel how) (begun : task.phase ≠ .fresh) :
    how = .stopped ∨ how = .cancelled := by
  cases cause with
  | stopped => exact .inl rfl
  | cancelled => exact .inr rfl
  | uncounted fresh => exact absurd fresh begun

/-- A refresh worker that has begun serves on in every later session. -/
theorem servesOn_of_reaches (reached : Reachable ttl limit time hasRuntime s)
    (found : s.background.members[index]? = some m) (kind : m.task.kind = .refreshWorker)
    (begun : m.task.phase ≠ .fresh) (running : m.task.hasEnded = false) (later : Reaches s u) :
    ∃ m', ServesOn s index m.task.interval u m' := by
  -- along the steps: the task stays in its place, and the step that ends it gives the cause
  have onward : ∃ m', u.background.members[index]? = some m' ∧ m'.task.kind = .refreshWorker ∧
      m'.task.interval = m.task.interval ∧ m'.task.phase ≠ .fresh ∧
      ∀ how, m'.task.phase = .ended how → (how = .stopped ∨ how = .cancelled) ∧
        ∃ r, Reaches s r ∧ Reaches r u ∧ r.GivesCause index m.task.interval how := by
    induction later with
    | refl =>
      refine ⟨m, found, kind, rfl, begun, fun how ended => ?_⟩
      rw [m.task.hasEnded_iff.2 ⟨how, ended⟩] at running
      cases running
    | @tail t u before step ih =>
      obtain ⟨old, there, kind, interval, begun, ends⟩ := ih
      obtain ⟨new, now, life⟩ := step.member there
      refine ⟨new, now, life.kind.trans kind, life.interval.trans interval, life.begun begun,
        fun how ended => ?_⟩
      rcases life.running ended with gone | ⟨running, cause⟩
      · obtain ⟨known, r, earlier, since, given⟩ := ends how gone
        exact ⟨known, r, earlier, since.tail step, given⟩
      · exact ⟨end_of_begun cause begun, t, before, .single step, old, there, running, interval,
          cause⟩
  obtain ⟨m', found, kind, interval, _, ends⟩ := onward
  exact ⟨m', found, kind, interval, ends, claims_of_running (reached.trans later) found kind,
    fun _ => refreshes_of_due found kind⟩

/-- What becomes of the refresh worker with number `index`, whose cycle has `rest` left in session
`s` and panics in session `t`, where the worker is `m`. -/
structure OutlivesPanic (s : Session) (index : Nat) (rest : Work (Except String Summary))
    (t : Session) (m : Member) (message : String) : Prop where
  /-- No gate holds the cycle up any more, so that it does what it would do in the foreground. -/
  finishes : s.finish rest = (t, .error message)
  /-- The panic of a cycle from its beginning is that of one of its callbacks. -/
  panics : rest = Work.wholeRefresh → ∃ (i : Nat) (r : Round),
    (rounds (Work.call Work.maxDepth) s.cache.refreshable (s.answer .snapshot).1)[i]? = some r ∧
      r.outcome = .panicked message ∧ t = r.returned
  /-- The cache is left as it is, and still claimed. -/
  leaves : (s.doPiece (.cycle index)).cache = t.cache
  claims : t.cache.workerRunning = true
  reports : (s.doPiece (.cycle index)).journal.events =
    .cyclePanicked message :: t.journal.events
  /-- The worker waits for the tick that was to come anyway. -/
  waits : ∃ ticker, m.task.phase = .working ticker ∧
    (s.doPiece (.cycle index)).background.members[index]? =
      some ⟨{ m.task with phase := .waiting ticker }, none⟩
  serves : ∀ u, Reaches (s.doPiece (.cycle index)) u →
    ∃ m', ServesOn (s.doPiece (.cycle index)) index m.task.interval u m'

/-- A whole refresh that panics is one whose callback panicked in some round. -/
theorem exists_panicking_round {message : String}
    (h : s.finish Work.wholeRefresh = (t, .error message)) :
    ∃ (i : Nat) (r : Round),
      (rounds (Work.call Work.maxDepth) s.cache.refreshable (s.answer .snapshot).1)[i]? = some r ∧
        r.outcome = .panicked message ∧ t = r.returned := by
  have ended : (s.answer .snapshot).1.finish (Work.refreshRest (Work.call Work.maxDepth)
      s.cache.refreshable .empty) = (t, .error message) := h
  obtain ⟨i, r, at_i, text, outcome⟩ := exists_panic ended
  obtain ⟨here, told⟩ := Prod.mk.inj ((finish_of_panic at_i outcome .empty).1.symm.trans ended)
  obtain rfl := Except.error.inj told
  exact ⟨i, r, at_i, outcome, here.symm⟩

/-- A task with a cycle under way that has not ended is a refresh worker at work. -/
theorem working_of_inCycle (reached : Reachable ttl limit time hasRuntime s)
    (found : s.background.members[index]? = some m) (inCycle : m.cycle.isSome = true)
    (running : m.task.hasEnded = false) :
    m.task.kind = .refreshWorker ∧ ∃ ticker, m.task.phase = .working ticker := by
  obtain ⟨worker, how⟩ := reached.claimed.sound _
    (List.mem_of_getElem? (getElem?_standings found)) inCycle
  refine ⟨worker, ?_⟩
  rcases how with working | ⟨how, ended⟩
  · exact working
  · rw [m.task.hasEnded_iff.2 ⟨how, ended⟩] at running
    cases running

/-- A cycle that panics is reported, and its task waits again. -/
theorem doPiece_cycle_of_panic {rest : Work (Except String Summary)} {message : String}
    {ticker : Ticker} (left : s.cycle? index = some (.ready rest))
    (panics : s.advance rest = (t, .finished (.error message)))
    (found : t.background.members[index]? = some m) (running : m.task.hasEnded = false)
    (kept : m.task.abortRequested = false) (working : m.task.phase = .working ticker) :
    s.doPiece (.cycle index) = (t.report (.cyclePanicked message)).putMember index
      ⟨{ m.task with phase := .waiting ticker }, none⟩ := by
  have resumes : s.doPiece (.cycle index) = s.resumeCycle index rest := by
    unfold cycle? at left
    simp only [doPiece, left]
  have waiting : m.task.cycleEnded = { m.task with phase := .waiting ticker } := by
    simp only [Task.cycleEnded, working]
  rw [resumes, resumeCycle, panics]
  simp only [endCycle, found, running, kept, Bool.or_self, Bool.false_eq_true, if_false,
    reportCycle, waiting]

theorem outlivesPanic (reached : Reachable ttl limit time hasRuntime s)
    {rest : Work (Except String Summary)} {message : String}
    (left : s.cycle? index = some (.ready rest))
    (panics : s.advance rest = (t, .finished (.error message)))
    (found : t.background.members[index]? = some m) (running : m.task.hasEnded = false)
    (kept : m.task.abortRequested = false) : OutlivesPanic s index rest t m message := by
  have finishes := finish_of_advance panics
  obtain ⟨m₀, there, cycle⟩ := Option.bind_eq_some_iff.1 left
  have passed := during_advance rest s
  rw [panics] at passed
  have reachedT : Reachable ttl limit time hasRuntime t := reached.during passed
  have inCycle : m.cycle.isSome = true := by
    have has : s.HasCycle index := ⟨m₀, there, by rw [cycle]; rfl⟩
    obtain ⟨m', found', inCycle⟩ := has.during passed
    obtain rfl := Option.some.inj (found.symm.trans found')
    exact inCycle
  obtain ⟨kind, ticker, working⟩ := working_of_inCycle reachedT found inCycle running
  have claims := claims_of_running reachedT found kind running
  have ends := doPiece_cycle_of_panic left panics found running kept working
  have holds : Member.holdsCache ⟨{ m.task with phase := .waiting ticker }, none⟩ = true := by
    simp only [Member.holdsCache, Task.hasEnded, kind, beq_self_eq_true, Bool.not_false,
      Bool.true_or, Bool.and_self]
  have after := reached.trans (atOnce_doPiece s (.cycle index)).proceeds.reaches
  have reported : (t.report (.cyclePanicked message)).background.members[index]? = some m := found
  have put := getElem?_putMember_self reported ⟨{ m.task with phase := .waiting ticker }, none⟩
  refine ⟨finishes, ?_, ?_, claims, ?_, ⟨ticker, working, ?_⟩, fun u later => ?_⟩
  · rintro rfl
    exact exists_panicking_round finishes
  · rw [ends]
    simp only [putMember, holds, Bool.not_true, Bool.and_false, Bool.false_eq_true, if_false]
    rfl
  · rw [ends]
    rfl
  · rw [ends]
    exact put
  · rw [← ends] at put
    have begun : Phase.waiting ticker ≠ .fresh := by
      intro fresh
      cases fresh
    have serves := servesOn_of_reaches after put kind begun rfl later
    exact serves

/-- The callback of a snapshot at any position may panic, in whatever order the refresh goes through
the snapshot. If no callback touches the cache, the panic is that of the whole refresh, and the
cache is left as by a refresh of the pairs before: their items, their errors and the counters are
settled, the entry of the key whose callback panics and those of all later keys are as they were,
no later callback is invoked, and the slots are those of the entries. If the refresh is a cycle of
a worker, its task waits for its next tick, the cache stays claimed, and the worker serves on. -/
theorem panic_keeps_settled_pairs (reached : Reachable ttl limit time hasRuntime s) :
    (∀ (call : Callback → Work (Outcome Int)) (order : List (String × Callback)) (i : Nat)
      (r : Round) (message : String), order.Perm s.cache.refreshable →
      (rounds call order (s.answer .snapshot).1)[i]? = some r → r.outcome = .panicked message →
      (∀ q ∈ rounds call order (s.answer .snapshot).1, q.returned.cache = q.called.cache) →
      StopsAt call order s i r message) ∧
    (∀ (index : Nat) (rest : Work (Except String Summary)) (t : Session) (m : Member)
      (message : String), s.cycle? index = some (.ready rest) →
      s.advance rest = (t, .finished (.error message)) →
      t.background.members[index]? = some m → m.task.hasEnded = false →
      m.task.abortRequested = false → OutlivesPanic s index rest t m message) :=
  ⟨fun _ _ _ _ _ perm found panics aloof => stopsAt reached perm found panics aloof,
    fun _ _ _ _ _ left panics found running kept =>
      outlivesPanic reached left panics found running kept⟩

/-- A refresh from the last pair to the first, whose second callback panics; and a worker whose
cycle panics at the second pair and that takes its next tick. -/
theorem panic_keeps_settled_pairs_middle :
    let fetcher (ending : Ending) : Fetcher := .mk "source" (.mk none [] ending) [] false []
    let base := ((ofCache (.ofSecs 60) (some 3) (.running ⟨⟨1000, 0⟩, by decide⟩) true).run
      [.run (.act (.set "a" 1 [.refresh (fetcher (.item 5))])),
        .run (.act (.set "b" 2 [.refresh (fetcher (.panicked "boom"))])),
        .run (.act (.set "c" 3 [.refresh (fetcher (.item 7))])),
        .run (.act (.channel (.create "stop"))),
        .run (.act (.task (.start .refreshWorker "worker" (.ofSecs 1) "stop")))]).1
    let due := (base.follow [.time 1000000000]).1
    let s := due.doPiece (.look 0)
    let call : Callback → Work (Outcome Int) := fun callback =>
      if callback.source = 1 then .done (.panicked "boom") else .done (.ok 9)
    let stopped := (s.answer .snapshot).1.finish
      (Work.refreshRest call s.cache.refreshable.reverse .empty)
    let after := s.doPiece (.cycle 0)
    let next := (after.follow [.time 1000000000]).1
    (stopped.2 = .error "boom" ∧
      stopped.1.cache.entries.find? "c" = some ⟨9, ⟨1061, 0⟩, some ⟨2, []⟩⟩ ∧
      stopped.1.cache.entries.find? "b" = s.cache.entries.find? "b" ∧
      stopped.1.cache.entries.find? "a" = s.cache.entries.find? "a") ∧
    after.cache.entries.find? "a" = some ⟨5, ⟨1061, 0⟩, some ⟨0, []⟩⟩ ∧
    after.cache.entries.find? "c" = some ⟨3, ⟨1060, 0⟩, some ⟨2, []⟩⟩ ∧
    after.cache.workerRunning = true ∧
    (next.doPiece (.look 0)).cycle? 0 = some (.ready Work.wholeRefresh) := by
  intro fetcher base due s call stopped after next
  have before : Reachable (.ofSecs 60) (some 3) (.running ⟨⟨1000, 0⟩, by decide⟩) true due :=
    Reachable.follow (Reachable.run .refl _) _
  have reached : Reachable (.ofSecs 60) (some 3) (.running ⟨⟨1000, 0⟩, by decide⟩) true s :=
    before.tail (.look 0)
  obtain ⟨stops, outlives⟩ := panic_keeps_settled_pairs reached
  have outcomes : (rounds call s.cache.refreshable.reverse (s.answer .snapshot).1).map
      Round.outcome = [.ok 9, .panicked "boom"] := by decide +kernel
  have aloof : ∀ q ∈ rounds call s.cache.refreshable.reverse (s.answer .snapshot).1,
      q.returned.cache = q.called.cache := by
    intro q member
    have calls := (rounds_called member).1
    simp only [call] at calls
    split at calls <;> rw [← (Prod.mk.inj calls).1]
  obtain ⟨r, found, panics⟩ : ∃ r, (rounds call s.cache.refreshable.reverse
      (s.answer .snapshot).1)[1]? = some r ∧ r.outcome = .panicked "boom" := by
    rw [← Option.map_eq_some_iff, ← List.getElem?_map, outcomes]
    rfl
  have stop := stops call _ 1 r "boom" s.cache.refreshable.reverse_perm found panics aloof
  have ended : stopped = (r.returned, .error "boom") := stop.propagates
  have b : (s.cache.refreshable.reverse)[1]? = some ("b", ⟨1, []⟩) := by decide +kernel
  have a : (s.cache.refreshable.reverse)[2]? = some ("a", ⟨0, []⟩) := by decide +kernel
  refine ⟨⟨congrArg Prod.snd ended, by decide +kernel, ?_, ?_⟩, by decide +kernel,
    by decide +kernel, ?_⟩
  · rw [ended]
    exact stop.untouched 1 _ (Nat.le_refl _) b
  · rw [ended]
    exact stop.untouched 2 _ (by decide) a
  · have left : s.cycle? 0 = some (.ready Work.wholeRefresh) := by
      have looked : due.background.members.map (fun m => ((due.look m).2, m.task.kind)) =
          [(.ticked, .refreshWorker)] := by decide +kernel
      obtain ⟨m, found, same⟩ := exists_head_of_map looked
      obtain ⟨ticked, worker⟩ := Prod.mk.inj same
      refine (cycle?_look found).trans ?_
      rw [if_pos ticked, if_pos worker]
    have panics : (s.advance Work.wholeRefresh).2 = .finished (.error "boom") :=
      Progress.eq_of_panic? (by decide +kernel)
    have task : (s.advance Work.wholeRefresh).1.background.members.map
        (fun m => (m.task.hasEnded, m.task.abortRequested)) = [(false, false)] := by decide +kernel
    obtain ⟨m, found, same⟩ := exists_head_of_map task
    obtain ⟨running, kept⟩ := Prod.mk.inj same
    have ended : s.advance Work.wholeRefresh =
        ((s.advance Work.wholeRefresh).1, .finished (.error "boom")) := by rw [← panics]
    have outlived := outlives 0 Work.wholeRefresh _ m "boom" left ended found running kept
    have goes := proceeds_follow after [.time 1000000000]
    obtain ⟨m', serves⟩ := outlived.serves next goes.reaches
    have waits : next.background.members.map (fun m => (m.task.phase, m.task.abortRequested,
          m.task.signal.isStopped (next.stops.channel m.task.signal.channel))) =
        [(.waiting ⟨2000000000, 1000000000, .skip, by decide⟩, false, false)] := by decide +kernel
    obtain ⟨m'', found', same'⟩ := exists_head_of_map waits
    obtain rfl : m' = m'' := Option.some.inj (serves.found.symm.trans found')
    simp only [Prod.mk.injEq] at same'
    obtain ⟨waiting, kept', goes'⟩ := same'
    refine ⟨?_, serves.refreshes _ waiting (by decide +kernel) kept' goes'⟩
    rw [outlived.leaves]
    exact outlived.claims

end Worker

end Session

end WarmCache
