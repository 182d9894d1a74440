import WarmCache.Proofs.Nearness
import WarmCache.Proofs.Runs

/-!
# Calls that leave no trace

A lookup changes nothing but a count, nor does a set that is refused, and a delete of a key that
is absent changes nothing at all. So such calls can be left out of a run, any of them and any
number, and nothing else that is done in it comes out differently.

Results:
1. `Traceless.call_fst`: what such a call makes of the cache.
2. `command_occurs`: commands of callers are made of such calls.
3. `Thins.near`: a run, and the same run without some of these calls, from near sessions.
4. `left_out_calls_leave_no_trace`: what follows for the runs of a new cache.
-/

namespace WarmCache

/-! ## Runs -/

/-- Something that comes next in a run. A call on the cache may be given a value that was made at
any time before. -/
inductive Occasion where
  /-- A caller makes a value, and callbacks for it. -/
  | make (item : Int) (settings : List Build)
  | call (call : CacheCall Int)
  /-- A caller refreshes, and the refresh goes through its snapshot in this order. -/
  | refresh (order : List (String × Callback))
  /-- A caller makes any command, a piece of background work is done, or time passes. -/
  | happening (h : Happening)

/-- What comes of it, as far as a caller sees it. -/
inductive Response where
  | value (v : Value Int)
  | reply (r : CacheReply Int)
  | summary (result : Except String Summary)
  | answer (a : Option Answer)

/-- Two responses are the same, but for the counts that answers tell of. -/
inductive Response.Near : Response → Response → Prop
  | same (r : Response) : Near r r
  | answer {a b : Option Answer} : Option.Rel Answer.Near a b → Near (.answer a) (.answer b)

namespace Session

/-- The session after something has come next, and what came of it. -/
def occur (s : Session) : Occasion → Session × Response
  | .make item settings => ((s.build item settings).1, .value (s.build item settings).2)
  | .call call =>
    ({ s with cache := (s.cache.call s.now call).1 }, .reply (s.cache.call s.now call).2)
  | .refresh order => ((s.refreshIn order).1, .summary (s.refreshIn order).2)
  | .happening h => ((s.happen h).1, .answer (s.happen h).2)

/-- The session after a run, and what came of it. -/
def occurAll (s : Session) : List Occasion → Session × List Response
  | [] => (s, [])
  | o :: rest => (((s.occur o).1.occurAll rest).1, (s.occur o).2 :: ((s.occur o).1.occurAll rest).2)

/-- In session `s` this call leaves no trace but in the counts, to which it adds `x`. -/
inductive Traceless (s : Session) : CacheCall Int → Surplus → Prop
  | hit {call : CacheCall Int} {key : String} : call = .get key ∨ call = .getItem key →
      s.cache.entries.contains key = true → Traceless s call ⟨1, 0, 0⟩
  | miss {call : CacheCall Int} {key : String} : call = .get key ∨ call = .getItem key →
      s.cache.entries.contains key = false → Traceless s call ⟨0, 1, 0⟩
  | refused {key : String} {value : Value Int} {limit : Nat} :
      (s.cache.call s.now (.set key value)).2 = .refused (.capacityExceeded limit) →
      Traceless s (.set key value) ⟨0, 0, 1⟩
  | absent {key : String} : s.cache.entries.contains key = false →
      Traceless s (.delete key) .zero

/-- From session `s` the run `full` is made, and `thin` is left of it when some calls that leave no
trace are left out. What came of all that is left was `told`, and the calls that are left out had
added `x` to the counts. -/
inductive Thins :
    Session → (full thin : List Occasion) → (told : List Response) → (x : Surplus) → Prop
  | nil {s : Session} : Thins s [] [] [] .zero
  | keep {s : Session} {o : Occasion} {full thin : List Occasion} {told : List Response}
      {x : Surplus} : Thins (s.occur o).1 full thin told x →
      Thins s (o :: full) (o :: thin) ((s.occur o).2 :: told) x
  | leave {s : Session} {call : CacheCall Int} {full thin : List Occasion} {told : List Response}
      {x y : Surplus} : Traceless s call y → Thins (s.occur (.call call)).1 full thin told x →
      Thins s (.call call :: full) thin told (y.add x)

/-! ## Commands of callers -/

/-- The commands of callers are calls, with the readings of the clock that they bring. -/
theorem command_occurs (s : Session) :
    (∀ key, (s.happen (.command (.act (.store (.get key))))).1 =
      (s.occurAll [.call (.get key), .happening .reading]).1) ∧
    (∀ key, (s.happen (.command (.act (.store (.getItem key))))).1 =
      (s.occurAll [.call (.getItem key), .happening .reading]).1) ∧
    (∀ key, (s.happen (.command (.act (.store (.delete key))))).1 =
      (s.occurAll [.call (.delete key), .happening .reading]).1) ∧
    (∀ key item settings, (s.happen (.command (.act (.set key item settings)))).1 =
      (s.occurAll [.make item settings, .call (.set key (s.build item settings).2),
        .happening .reading]).1) ∧
    (s.happen (.command .refresh)).1 = (s.occurAll [.refresh s.cache.refreshable]).1 := by
  refine ⟨fun key => rfl, fun key => rfl, fun key => rfl, fun key item settings => ?_, ?_⟩
  · simp only [occurAll, occur, Cache.call_fst]
    rfl
  · show (s.finish (Work.wholeRefresh.bind fun result => .done (Answer.ofRefresh result))).1 = _
    rw [finish_bind]
    rfl

/-! ## One call -/

section Traceless

variable {s t : Session} {call : CacheCall Int} {x y : Surplus}

/-- A set of a new key is refused if as many slots are taken as the limit allows. -/
theorem Traceless.of_full {key : String} {value : Value Int} {limit : Nat}
    (free : s.cache.entries.contains key = false) (limited : s.cache.limit = some limit)
    (full : (limit : Int) ≤ s.cache.slots) : Traceless s (.set key value) ⟨0, 0, 1⟩ := by
  have reply : (s.cache.call s.now (.set key value)).2 = .refused (.capacityExceeded limit) := by
    rw [Cache.call, Cache.set_of_full free limited full]
  exact .refused reply

/-- A call that leaves no trace makes a cache that is ahead, and the same otherwise. -/
theorem Traceless.call_fst (h : Traceless s call y) :
    (s.cache.call s.now call).1 = s.cache.plus y := by
  have lookup : ∀ {key : String}, call = .get key ∨ call = .getItem key →
      (s.cache.call s.now call).1 = (s.cache.get key).1 := by
    rintro key (rfl | rfl) <;> rfl
  cases h with
  | hit is present =>
    obtain ⟨e, found⟩ := Option.isSome_iff_exists.1 present
    simp only [lookup is, Cache.get, found, Cache.plus, Counters.recordHit_eq_plus]
  | miss is absent =>
    have none := Option.not_isSome_iff_eq_none.1 (Bool.eq_false_iff.1 absent)
    simp only [lookup is, Cache.get, none, Cache.plus, Counters.recordMiss_eq_plus]
  | @refused key value limit refused =>
    simp only [Cache.call] at refused ⊢
    rcases s.cache.set_cases key with present | ⟨free, room⟩ | ⟨free, limit, hl, full⟩
    · rw [Cache.set_of_contains present] at refused
      cases refused
    · rw [Cache.set_of_hasRoom free room] at refused
      cases refused
    · rw [Cache.set_of_full free hl full, Cache.plus, ← Counters.recordRejected_eq_plus]
  | @absent key absent =>
    simp only [Cache.call, Cache.delete_of_not_contains absent, Cache.plus_zero]

namespace Near

/-- A call that leaves no trace is made in one session only. -/
theorem leave (h : Near x s t) (traceless : Traceless s call y) :
    Near (x.add y) (s.occur (.call call)).1 t := by
  refine ⟨?_, h.aside⟩
  have cache : (s.cache.call s.now call).1 = t.cache.plus (x.add y) := by
    rw [traceless.call_fst, h.cache, Cache.plus_plus]
  show ({ s with cache := (s.cache.call s.now call).1 } : Session) = _
  rw [cache]
  exact congrArg (fun u : Session => { u with cache := t.cache.plus (x.add y) }) h.same

theorem refreshIn (h : Near x s t) (order : List (String × Callback)) :
    Near x (s.refreshIn order).1 (t.refreshIn order).1 ∧
      (s.refreshIn order).2 = (t.refreshIn order).2 :=
  (Work.Near.refreshRest (Work.Near.call Work.maxDepth) order .empty).finish
    (h.answer_steer (q := .snapshot) nofun nofun).1

/-- What comes next in both sessions keeps them near, and comes out the same but for counts. -/
theorem occur (h : Near x s t) (o : Occasion) :
    Near x (s.occur o).1 (t.occur o).1 ∧ (s.occur o).2.Near (t.occur o).2 := by
  have told : ∀ {a b : Response}, a = b → a.Near b := fun {a b} same => same ▸ .same a
  cases o with
  | make item settings =>
    obtain ⟨built, value⟩ := h.build item settings
    exact ⟨built, told (congrArg Response.value value)⟩
  | call call =>
    have alike : (t.ahead x s.aside).cache.call t.now call =
        ((t.cache.call t.now call).1.plus x, (t.cache.call t.now call).2) :=
      t.cache.call_plus x t.now call
    refine ⟨h.map (f := fun u => { u with cache := (u.cache.call u.now call).1 })
      (congrArg (fun cache => { t.ahead x s.aside with cache }) (congrArg Prod.fst alike)) rfl, ?_⟩
    refine told (congrArg Response.reply ?_)
    rw [h.now, h.cache, Cache.call_plus]
  | refresh order =>
    obtain ⟨after, result⟩ := h.refreshIn order
    exact ⟨after, told (congrArg Response.summary result)⟩
  | happening happening =>
    obtain ⟨after, answer⟩ := h.happen happening
    exact ⟨after, .answer answer⟩

end Near

/-! ## Runs with calls left out -/

variable {z : Surplus} {full thin : List Occasion} {told : List Response}

/-- A run stays near the one that is left of it, and further and further ahead. -/
theorem Thins.near (h : Thins s full thin told x) (near : Near z s t) :
    Near (z.add x) (s.occurAll full).1 (t.occurAll thin).1 ∧
      List.Forall₂ Response.Near told (t.occurAll thin).2 := by
  induction h generalizing t z with
  | nil => exact ⟨near, .nil⟩
  | keep _ ih =>
    obtain ⟨after, same⟩ := near.occur _
    obtain ⟨last, others⟩ := ih after
    exact ⟨last, .cons same others⟩
  | @leave s call full thin told x y traceless _ ih =>
    obtain ⟨last, others⟩ := ih (near.leave traceless)
    rw [Surplus.add_assoc] at last
    exact ⟨last, others⟩

end Traceless

/-- A new session has nothing aside. -/
theorem near_ofCache (ttl : Span) (limit : Option Nat) (time : TimeSource) (hasRuntime : Bool) :
    Near .zero (ofCache ttl limit time hasRuntime) (ofCache ttl limit time hasRuntime) :=
  ⟨rfl, .nil, .nil, .nil⟩

/-- Out of any run on a new cache, with any limit, any lookups, any sets that were refused for want
of room and any deletes of absent keys may be left out. What comes of everything else is the same:
every reply to a call, every summary of a refresh and every answer, but for the counts that it may
tell of. The same cache is left, with the same entries and as many slots taken, but for the counts
of lookups and refused sets: they are lower by as many as were left out of either kind. The clock,
the callbacks with their attempts, what is in the background and what was reported are the same
too. Every beginning of a run is a run, so this holds at any point of it. -/
theorem left_out_calls_leave_no_trace {ttl : Span} {limit : Option Nat} {time : TimeSource}
    {hasRuntime : Bool} {full thin : List Occasion} {told : List Response} {x : Surplus}
    (thins : Thins (ofCache ttl limit time hasRuntime) full thin told x) :
    let s := (ofCache ttl limit time hasRuntime).occurAll full
    let t := (ofCache ttl limit time hasRuntime).occurAll thin
    List.Forall₂ Response.Near told t.2 ∧
      s.1.cache.entries = t.1.cache.entries ∧ s.1.cache.slots = t.1.cache.slots ∧
      s.1.cache.counters.hits = t.1.cache.counters.hits + UInt64.ofNat x.hits ∧
      s.1.cache.counters.misses = t.1.cache.counters.misses + UInt64.ofNat x.misses ∧
      s.1.cache.counters.rejected = t.1.cache.counters.rejected + UInt64.ofNat x.rejected ∧
      s.1.cache = t.1.cache.plus x ∧ Near x s.1 t.1 := by
  intro s t
  obtain ⟨near, same⟩ := thins.near (near_ofCache ttl limit time hasRuntime)
  rw [Surplus.zero_add] at near
  have cache : s.1.cache = t.1.cache.plus x := near.cache
  refine ⟨same, ?_, ?_, ?_, ?_, ?_, cache, near⟩ <;> rw [cache] <;> rfl

/-- A cache with room for one key. Four calls are left out; the refresh between the others reads the
statistics and has a set refused itself. -/
theorem left_out_calls_leave_no_trace_full :
    let fetcher : Fetcher :=
      .mk "source" (.mk none [.act (.store .stats), .act (.set "b" 9 [])] (.item 5)) [] false []
    let first : List Occasion :=
      [.make 1 [.refresh fetcher], .call (.set "a" ⟨1, none, some ⟨0, []⟩⟩)]
    let out : List Occasion := [.call (.set "b" ⟨2, none, none⟩), .call (.get "a"),
      .call (.getItem "c"), .call (.delete "c")]
    let rest : List Occasion := [.refresh [("a", ⟨0, []⟩)], .call (.get "a"),
      .happening (.command (.act (.note (.trace true)))), .call .size]
    let new := ofCache (.ofSecs 60) (some 1) (.running ⟨⟨1000, 0⟩, by decide⟩) false
    let s := new.occurAll (first ++ out ++ rest)
    let t := new.occurAll (first ++ rest)
    s.1.cache.counters = ⟨2, 1, 1, 0, 0, 2⟩ ∧ t.1.cache.counters = ⟨1, 0, 1, 0, 0, 1⟩ ∧
      ∃ told, Thins new (first ++ out ++ rest) (first ++ rest) told ⟨1, 1, 1⟩ ∧
        List.Forall₂ Response.Near told t.2 ∧ Near ⟨1, 1, 1⟩ s.1 t.1 := by
  intro fetcher first out rest new s t
  let one := (new.occurAll first).1
  have refused : Traceless one (.set "b" ⟨2, none, none⟩) ⟨0, 0, 1⟩ :=
    .of_full (by decide +kernel) (show one.cache.limit = some 1 by decide +kernel)
      (by decide +kernel)
  let two := (one.occur (.call (.set "b" ⟨2, none, none⟩))).1
  have hit : Traceless two (.get "a") ⟨1, 0, 0⟩ := .hit (.inl rfl) (by decide +kernel)
  let three := (two.occur (.call (.get "a"))).1
  have miss : Traceless three (.getItem "c") ⟨0, 1, 0⟩ := .miss (.inr rfl) (by decide +kernel)
  let four := (three.occur (.call (.getItem "c"))).1
  have absent : Traceless four (.delete "c") .zero := .absent (by decide +kernel)
  have thins : ∃ told, Thins new (first ++ out ++ rest) (first ++ rest) told ⟨1, 1, 1⟩ :=
    ⟨_, .keep <| .keep <| .leave refused <| .leave hit <| .leave miss <| .leave absent <|
      .keep <| .keep <| .keep <| .keep .nil⟩
  obtain ⟨told, thins⟩ := thins
  obtain ⟨same, _, _, _, _, _, _, near⟩ := left_out_calls_leave_no_trace thins
  exact ⟨by decide +kernel, by decide +kernel, told, thins, same, near⟩

end Session

end WarmCache
