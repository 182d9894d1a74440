import WarmCache.Proofs.NamedCalls
import WarmCache.Proofs.Shares

/-!
# Keys are independent of one another

Where there is no limit, a key takes nothing from another. Bulk operations go over all keys at
once, but what they do to one of them they would do without the others. So a caller that only
looks at one key cannot tell whether anything was done with the others: its answers, the
invocations of its callbacks and its entry are those of a run in which every set, get and delete
of another key was left out.

Results:
1. `Takes.divided`: a turn leaves the callbacks with their keys.
2. `Takes.other`, `Takes.same`: a turn that names another key, and one that is taken in two
   sessions.
3. `Plays.independent`: a run and the one without the operations on other keys.
4. `keys_independent`: this, and that calls on different keys may be made in either order.
-/

namespace WarmCache

/-! ## Turns -/

/-- What a caller does next. Its callbacks have been made beforehand. -/
inductive Turn where
  | call (call : CacheCall Int)
  | refresh
  | policy (action : PolicyAction)
  /-- It lets time pass. -/
  | wait (nanos : Nat)

namespace Turn

/-- The key that a turn names. -/
def key? : Turn → Option String
  | call c => c.key?
  | _ => none

/-- A turn names this key, or it names none. -/
def concerns (key : String) (turn : Turn) : Bool := turn.key?.all fun k => k == key

/-- What a turn is told concerns this key or the clock. -/
def tellsOf (key : String) : Turn → Bool
  | call c => c.key? == some key
  | policy _ => true
  | _ => false

/-- The command that a turn is, unless it sets a key or lets time pass. -/
def command? : Turn → Option Command
  | call (.get key) => some (.act (.store (.get key)))
  | call (.getItem key) => some (.act (.store (.getItem key)))
  | call (.delete key) => some (.act (.store (.delete key)))
  | call .flush => some (.act (.store .flush))
  | call .size => some (.act (.store .size))
  | call .isEmpty => some (.act (.store .isEmpty))
  | call (.set _ _) => none
  | refresh => some .refresh
  | policy action => some (.act (.policy action))
  | wait _ => none

/-- A callback that a turn stores belongs to the key under which it does. -/
def Suits (owner : Nat → Option String) : Turn → Prop
  | call (.set key value) => ∀ callback, value.refresh = some callback →
      owner callback.source = some key
  | _ => True

end Turn

/-- What a caller is told at its turn. -/
inductive Told where
  | reply (r : CacheReply Int)
  | refreshed (result : Except String Summary)
  | answer (a : Answer)
  | nothing

/-- A turn that was taken, what was told, and the attempts that it began, each by its source and
its number. -/
structure Taken where
  turn : Turn
  told : Told
  invoked : List (Nat × Nat)

namespace Session

/-- A turn is taken in session `s`, and it comes to session `t`. A refresh goes through its
snapshot in any order. -/
inductive Takes (s : Session) : Taken → Session → Prop
  | call (call : CacheCall Int) :
      Takes s ⟨.call call, .reply (s.cache.call s.now call).2, []⟩
        { s with cache := (s.cache.call s.now call).1 }
  | refresh {order : List (String × Callback)} : order.Perm s.cache.refreshable →
      Takes s ⟨.refresh, .refreshed (s.refreshIn order).2, s.invokedIn order⟩
        (s.refreshIn order).1
  | policy (action : PolicyAction) :
      Takes s ⟨.policy action, .answer (s.performPolicy action).2, []⟩ (s.performPolicy action).1
  | wait (nanos : Nat) :
      Takes s ⟨.wait nanos, .nothing, []⟩ { s with elapsed := s.elapsed + nanos }

/-- All these turns are taken, one after the other. -/
inductive Plays : Session → List Taken → Session → Prop
  | nil {s : Session} : Plays s [] s
  | cons {s t u : Session} {taken : Taken} {rest : List Taken} :
      Takes s taken t → Plays t rest u → Plays s (taken :: rest) u

theorem exists_takes (s : Session) (turn : Turn) :
    ∃ taken t, Takes s taken t ∧ taken.turn = turn := by
  cases turn with
  | call call => exact ⟨_, _, .call call, rfl⟩
  | refresh => exact ⟨_, _, .refresh (.refl _), rfl⟩
  | policy action => exact ⟨_, _, .policy action, rfl⟩
  | wait nanos => exact ⟨_, _, .wait nanos, rfl⟩

theorem exists_plays (s : Session) (turns : List Turn) :
    ∃ taken t, Plays s taken t ∧ taken.map Taken.turn = turns := by
  induction turns generalizing s with
  | nil => exact ⟨[], s, .nil, rfl⟩
  | cons turn rest ih =>
    obtain ⟨one, t, takes, rfl⟩ := s.exists_takes turn
    obtain ⟨others, u, plays, rfl⟩ := ih t
    exact ⟨one :: others, u, .cons takes plays, rfl⟩

/-- A session that sets a key builds the value first, which may make sources. Then it takes the
turn. -/
theorem takes_set {s : Session} (still : s.clock.tick = s.clock) (key : String) (item : Int)
    (settings : List Build) :
    ∃ taken, taken.turn = .call (.set key (s.build item settings).2) ∧
      Takes (s.build item settings).1 taken
        (s.finish (Command.act (.set key item settings)).work).1 := by
  obtain ⟨sources, built⟩ := s.build_frame item settings
  have answered : (s.finish (Command.act (.set key item settings)).work).1 =
      { (s.build item settings).1 with
        cache := ((s.build item settings).1.cache.set (s.build item settings).1.now key
          (s.build item settings).2).1
        clock := (s.build item settings).1.clock.tick } := rfl
  have clock : (s.build item settings).1.clock.tick = (s.build item settings).1.clock := by
    rw [built]
    exact still
  have takes := Takes.call (s := (s.build item settings).1) (.set key (s.build item settings).2)
  rw [Cache.call_fst] at takes
  rw [answered, clock]
  exact ⟨_, rfl, takes⟩

/-- All other turns that a session takes are commands of their own. -/
theorem takes_command {s : Session} (still : s.clock.tick = s.clock) {turn : Turn}
    {command : Command} (is : turn.command? = some command) :
    ∃ taken, taken.turn = turn ∧ Takes s taken (s.finish command.work).1 := by
  have stays : ∀ t : Session, t.clock = s.clock → { t with clock := t.clock.tick } = t := by
    intro t same
    rw [same, still, ← same]
  cases turn with
  | call call =>
    have after : (s.finish command.work).1 = { s with cache := (s.cache.call s.now call).1 } := by
      rw [← stays { s with cache := (s.cache.call s.now call).1 } rfl]
      cases call with
      | set key value => cases is
      | _ =>
        obtain rfl := Option.some.inj is
        rfl
    rw [after]
    exact ⟨_, rfl, .call call⟩
  | refresh =>
    obtain rfl := Option.some.inj is
    have after : (s.finish Command.refresh.work).1 = (s.refreshIn s.cache.refreshable).1 := by
      show (s.finish (Work.wholeRefresh.bind fun result => .done (Answer.ofRefresh result))).1 = _
      rw [finish_bind]
      rfl
    rw [after]
    exact ⟨_, rfl, .refresh (.refl _)⟩
  | policy action =>
    obtain rfl := Option.some.inj is
    have after : (s.finish (Command.act (.policy action)).work).1 =
        { (s.performPolicy action).1 with clock := (s.performPolicy action).1.clock.tick } := rfl
    have ticks : { (s.performPolicy action).1 with
        clock := (s.performPolicy action).1.clock.tick } = (s.performPolicy action).1 := by
      rcases s.performPolicy_frame action with eq | ⟨_, _, _, eq⟩
      · rw [eq]
        exact stays s rfl
      · rw [eq]
        rfl
    rw [after, ticks]
    exact ⟨_, rfl, .policy action⟩
  | wait nanos => cases is

/-- Two sessions are the same as far as one key goes. -/
structure SameFor (owner : Nat → Option String) (key : String) (s t : Session) : Prop where
  share : s.share owner key = t.share owner key
  clock : s.clock = t.clock
  elapsed : s.elapsed = t.elapsed
  relative : s.relative = t.relative

section Same

variable {owner : Nat → Option String} {key : String} {s s' t t' : Session}
  {taken taken' : Taken}

namespace SameFor

theorem refl (owner : Nat → Option String) (key : String) (s : Session) :
    SameFor owner key s s := ⟨rfl, rfl, rfl, rfl⟩

theorem symm (h : SameFor owner key s t) : SameFor owner key t s :=
  ⟨h.share.symm, h.clock.symm, h.elapsed.symm, h.relative.symm⟩

theorem trans {u : Session} (h : SameFor owner key s t) (h' : SameFor owner key t u) :
    SameFor owner key s u :=
  ⟨h.share.trans h'.share, h.clock.trans h'.clock, h.elapsed.trans h'.elapsed,
    h.relative.trans h'.relative⟩

theorem entry (h : SameFor owner key s t) :
    s.cache.entries.find? key = t.cache.entries.find? key := by
  have same := congrArg Share.entry h.share
  exact same

theorem policy (h : SameFor owner key s t) : s.cache.policy = t.cache.policy := by
  have same := congrArg Share.policy h.share
  exact same

theorem now (h : SameFor owner key s t) : s.now = t.now := by
  rw [Session.now, Session.now, h.clock, h.elapsed]

theorem nextReading (h : SameFor owner key s t) : s.nextReading = t.nextReading := by
  rw [Session.nextReading, Session.nextReading, h.clock, h.elapsed]

theorem shown (h : SameFor owner key s t) (instant : Instant) :
    s.shown instant = t.shown instant := by
  rw [Session.shown, Session.shown, h.relative, h.nextReading]

theorem instantOf (h : SameFor owner key s t) (moment : Moment) :
    s.instantOf moment = t.instantOf moment := by
  cases moment with
  | fixed t => rfl
  | inSecs n => exact congrArg (fun now : Instant => now.shiftSecs n) h.now

theorem withClock (h : SameFor owner key s t) (clock : Clock) :
    SameFor owner key { s with clock } { t with clock } :=
  ⟨h.share, rfl, h.elapsed, h.relative⟩

/-- What is told of the clock and of the lifetime of entries does not depend on keys. -/
theorem performPolicy (h : SameFor owner key s t) (action : PolicyAction) :
    SameFor owner key (s.performPolicy action).1 (t.performPolicy action).1 ∧
      (s.performPolicy action).2 = (t.performPolicy action).2 := by
  cases action with
  | now => exact ⟨h, congrArg Answer.instant (by rw [h.now, h.shown])⟩
  | expiryTime =>
    refine ⟨h, congrArg Answer.instant ?_⟩
    rw [Cache.expiryFrom, Cache.expiryFrom, h.policy, h.now, h.shown]
  | ttl => exact ⟨h, congrArg (fun policy : ExpiryPolicy => Answer.span policy.ttl) h.policy⟩
  | isExpired expires =>
    refine ⟨h, congrArg Answer.flag ?_⟩
    rw [h.instantOf, h.nextReading]
  | showPolicy layout =>
    exact ⟨h, congrArg (fun policy : ExpiryPolicy => layOut layout policy.outline) h.policy⟩
  | advance d =>
    cases clock : t.clock with
    | manual c =>
      have moved := h.withClock (.manual (c.advance d))
      simp only [Session.performPolicy, h.clock.trans clock, clock]
      exact ⟨moved, congrArg Answer.instant (by rw [moved.now, moved.shown])⟩
    | running start =>
      simp only [Session.performPolicy, h.clock.trans clock, clock]
      exact ⟨h, trivial⟩
    | system reading =>
      simp only [Session.performPolicy, h.clock.trans clock, clock]
      exact ⟨h, trivial⟩
  | setClock moment =>
    cases clock : t.clock with
    | manual c =>
      have moved := h.withClock (.manual (.showing (t.instantOf moment)))
      simp only [Session.performPolicy, h.clock.trans clock, clock, h.instantOf]
      exact ⟨moved, congrArg (fun now => Answer.instant (.fixed now)) moved.now⟩
    | running start =>
      simp only [Session.performPolicy, h.clock.trans clock, clock]
      exact ⟨h, trivial⟩
    | system reading =>
      simp only [Session.performPolicy, h.clock.trans clock, clock]
      exact ⟨h, trivial⟩

end SameFor

/-- The share of a key after a call. -/
theorem Divided.share_call (divided : s.Divided owner) (key : String) (call : CacheCall Int) :
    ({ s with cache := (s.cache.call s.now call).1 } : Session).share owner key =
      { s.share owner key with
        entry := call.entryAfter s.cache.policy s.now key (s.cache.entries.find? key) } := by
  have entry := Cache.find?_call divided.unlimited divided.regular.accounted.nodup_keys s.now key
    call
  have policy := (s.cache.call_frame s.now call).2
  simp only [Session.share, Books.share, books, entry, policy]

/-- The callback under a key comes to the same in sessions that are the same as far as the key
goes. -/
theorem SameFor.fetched (h : SameFor owner key s s') {callback : Callback}
    (owns : owner callback.source = some key) :
    s.fetched (key, callback) = s'.fetched (key, callback) := by
  refine fetched_congr ?_
  have same := congrFun (congrArg Share.sources h.share) callback.source
  rw [share_sources owns, share_sources owns] at same
  exact same

/-- What a refresh changes of a session besides keys. -/
theorem Divided.still_refreshIn (divided : s.Divided owner) {order : List (String × Callback)}
    (perm : order.Perm s.cache.refreshable) :
    (s.refreshIn order).1.clock = s.clock ∧ (s.refreshIn order).1.elapsed = s.elapsed ∧
      (s.refreshIn order).1.relative = s.relative := by
  obtain ⟨_, _, muted, _⟩ := divided.refreshed perm
  have clock := congrArg Session.clock muted
  have elapsed := congrArg Session.elapsed muted
  have relative := congrArg Session.relative muted
  exact ⟨clock, elapsed, relative⟩

theorem SameFor.refreshIn (h : SameFor owner key s s') (divided : s.Divided owner)
    (divided' : s'.Divided owner) {order order' : List (String × Callback)}
    (perm : order.Perm s.cache.refreshable) (perm' : order'.Perm s'.cache.refreshable) :
    SameFor owner key (s.refreshIn order).1 (s'.refreshIn order').1 := by
  obtain ⟨clock, elapsed, relative⟩ := divided.still_refreshIn perm
  obtain ⟨clock', elapsed', relative'⟩ := divided'.still_refreshIn perm'
  refine ⟨?_, by rw [clock, clock', h.clock], by rw [elapsed, elapsed', h.elapsed],
    by rw [relative, relative', h.relative]⟩
  rcases divided.share_refreshIn perm key with ⟨none, same⟩ | ⟨callback, stored, after⟩
  · rcases divided'.share_refreshIn perm' key with ⟨_, same'⟩ | ⟨_, stored', _⟩
    · rw [same, same', h.share]
    · rw [← h.share, none] at stored'
      cases stored'
  · rcases divided'.share_refreshIn perm' key with ⟨none', _⟩ | ⟨callback', stored', after'⟩
    · rw [← h.share, stored] at none'
      cases none'
    · rw [← h.share, stored] at stored'
      obtain rfl := Option.some.inj stored'
      rw [after, after', h.share, h.now, h.fetched (divided.owned key callback stored)]

/-- Of the key's callbacks both refreshes invoke the same, and with the same numbers. -/
theorem SameFor.invokedIn (h : SameFor owner key s s') (divided : s.Divided owner)
    (divided' : s'.Divided owner) {order order' : List (String × Callback)}
    (perm : order.Perm s.cache.refreshable) (perm' : order'.Perm s'.cache.refreshable) :
    (s.invokedIn order).filter (fun x => owner x.1 == some key) =
      (s'.invokedIn order').filter (fun x => owner x.1 == some key) := by
  have after := h.refreshIn divided divided' perm perm'
  cases stored : (s.share owner key).callback? with
  | none =>
    have empty : ∀ {u : Session} {order : List (String × Callback)}, u.Divided owner →
        order.Perm u.cache.refreshable → u.share owner key = s.share owner key →
        (u.invokedIn order).filter (fun x => owner x.1 == some key) = [] := by
      intro u order divided perm same
      refine List.filter_eq_nil_iff.2 fun x member owns => ?_
      obtain ⟨callback, found, _⟩ := divided.source_of_invoked perm member (beq_iff_eq.1 owns)
      rw [same, stored] at found
      cases found
    rw [empty divided perm rfl, empty divided' perm' h.share.symm]
  | some callback =>
    have owns := divided.owned key callback stored
    have mine : ∀ {u : Session} {order : List (String × Callback)}, u.Divided owner →
        order.Perm u.cache.refreshable → u.share owner key = s.share owner key →
        (u.invokedIn order).filter (fun x => owner x.1 == some key) =
          (u.invokedIn order).filter fun x => x.1 == callback.source := by
      intro u order divided perm same
      refine List.filter_congr fun x member => Bool.eq_iff_iff.2 ?_
      rw [beq_iff_eq, beq_iff_eq]
      refine ⟨fun owned => ?_, fun eq => eq ▸ owns⟩
      obtain ⟨callback', found, eq⟩ := divided.source_of_invoked perm member owned
      rw [same, stored] at found
      exact (Option.some.inj found) ▸ eq
    obtain ⟨used, attempts, numbers⟩ := divided.numbered order callback.source
    obtain ⟨used', attempts', numbers'⟩ := divided'.numbered order' callback.source
    have first : s.attemptsAt callback.source = s'.attemptsAt callback.source := by
      rw [attemptsAt_eq owns, attemptsAt_eq owns, h.share]
    have last : (s.refreshIn order).1.attemptsAt callback.source =
        (s'.refreshIn order').1.attemptsAt callback.source := by
      rw [attemptsAt_eq owns, attemptsAt_eq owns, after.share]
    have same : used = used' := by omega
    rw [mine divided perm rfl, mine divided' perm' h.share.symm, numbers, numbers', first, same]

/-! ## One turn -/

theorem Takes.divided (h : Takes s taken t) (divided : s.Divided owner)
    (suits : taken.turn.Suits owner) : t.Divided owner := by
  cases h with
  | call call =>
    obtain ⟨limit, _⟩ := s.cache.call_frame s.now call
    refine ⟨⟨divided.regular.still, ?_⟩, limit.trans divided.unlimited, divided.plain,
      fun key callback stored => ?_⟩
    · rw [Cache.call_fst]
      exact divided.regular.accounted.applyAll _
    · have nodup := divided.regular.accounted.nodup_keys
      change ((s.cache.call s.now call).1.entries.find? key).bind Entry.refresh = _ at stored
      rw [Cache.find?_call divided.unlimited nodup] at stored
      cases call with
      | set k value =>
        simp only [CacheCall.entryAfter] at stored
        split at stored
        · next mine => exact mine ▸ suits callback stored
        · exact divided.owned key callback stored
      | delete k =>
        simp only [CacheCall.entryAfter] at stored
        split at stored
        · cases stored
        · exact divided.owned key callback stored
      | flush =>
        simp only [CacheCall.entryAfter] at stored
        obtain ⟨e, kept, refresh⟩ := Option.bind_eq_some_iff.1 stored
        refine divided.owned key callback (Option.bind_eq_some_iff.2 ⟨e, ?_, refresh⟩)
        exact (Option.filter_eq_some_iff.1 kept).1
      | get k => exact divided.owned key callback stored
      | getItem k => exact divided.owned key callback stored
      | size => exact divided.owned key callback stored
      | isEmpty => exact divided.owned key callback stored
  | refresh perm => exact divided.refreshIn perm
  | policy action =>
    rcases s.performPolicy_frame action with eq | ⟨before, after, _, eq⟩
    · rw [eq]
      exact divided
    · rw [eq]
      exact ⟨⟨rfl, divided.regular.accounted⟩, divided.unlimited, divided.plain, divided.owned⟩
  | wait nanos =>
    exact ⟨⟨divided.regular.still, divided.regular.accounted⟩, divided.unlimited, divided.plain,
      divided.owned⟩

/-- A turn that names another key. -/
theorem Takes.other (h : Takes s taken t) (divided : s.Divided owner)
    (other : taken.turn.concerns key = false) :
    SameFor owner key s t ∧ taken.invoked = [] ∧ taken.turn.tellsOf key = false := by
  cases h with
  | call call =>
    obtain ⟨k, names, ne⟩ : ∃ k, call.key? = some k ∧ k ≠ key := by
      cases names : call.key? with
      | none => simp [Turn.concerns, Turn.key?, names] at other
      | some k => exact ⟨k, rfl, by simpa [Turn.concerns, Turn.key?, names] using other⟩
    have after := divided.share_call key call
    rw [CacheCall.entryAfter_other names ne] at after
    refine ⟨⟨after.symm, rfl, rfl, rfl⟩, rfl, ?_⟩
    · simpa [Turn.tellsOf, names] using ne
  | refresh perm => cases other
  | policy action => cases other
  | wait nanos => cases other

/-- A turn that is taken in two sessions. -/
theorem Takes.same (h : Takes s taken t) (h' : Takes s' taken' t') (divided : s.Divided owner)
    (divided' : s'.Divided owner) (same : SameFor owner key s s')
    (turn : taken.turn = taken'.turn) :
    SameFor owner key t t' ∧ (taken.turn.tellsOf key = true → taken.told = taken'.told) ∧
      taken.invoked.filter (fun x => owner x.1 == some key) =
        taken'.invoked.filter (fun x => owner x.1 == some key) := by
  cases h with
  | call call =>
    cases h' with
    | call call' =>
      obtain rfl := Turn.call.inj turn
      refine ⟨⟨?_, same.clock, same.elapsed, same.relative⟩, fun tells => ?_, rfl⟩
      · refine (divided.share_call key call).trans ?_
        rw [same.share, same.policy, same.now, same.entry]
        exact (divided'.share_call key call).symm
      · have names : call.key? = some key := beq_iff_eq.1 tells
        show Told.reply _ = Told.reply _
        rw [Cache.told_call divided.unlimited s.now names,
          Cache.told_call divided'.unlimited s'.now names, same.entry]
    | refresh _ => cases turn
    | policy _ => cases turn
    | wait _ => cases turn
  | refresh perm =>
    cases h' with
    | refresh perm' =>
      refine ⟨same.refreshIn divided divided' perm perm', fun tells => ?_,
        same.invokedIn divided divided' perm perm'⟩
      cases tells
    | call _ => cases turn
    | policy _ => cases turn
    | wait _ => cases turn
  | policy action =>
    cases h' with
    | policy action' =>
      obtain rfl := Turn.policy.inj turn
      obtain ⟨after, told⟩ := same.performPolicy action
      exact ⟨after, fun _ => congrArg Told.answer told, rfl⟩
    | call _ => cases turn
    | refresh _ => cases turn
    | wait _ => cases turn
  | wait nanos =>
    cases h' with
    | wait nanos' =>
      obtain rfl := Turn.wait.inj turn
      refine ⟨⟨same.share, same.clock, congrArg (· + nanos) same.elapsed, same.relative⟩,
        fun _ => rfl, rfl⟩
    | call _ => cases turn
    | refresh _ => cases turn
    | policy _ => cases turn

/-! ## Runs -/

/-- What a run told of one key and of the clock. -/
def toldOf (key : String) (taken : List Taken) : List Told :=
  (taken.filter fun x => x.turn.tellsOf key).map Taken.told

/-- The attempts of a run against the sources of one key. -/
def invokedOf (owner : Nat → Option String) (key : String) (taken : List Taken) :
    List (Nat × Nat) :=
  (taken.flatMap Taken.invoked).filter fun x => owner x.1 == some key

theorem Plays.independent {run run' : List Taken} (plays : Plays s run t)
    (plays' : Plays s' run' t') (divided : s.Divided owner) (divided' : s'.Divided owner)
    (same : SameFor owner key s s') (suits : ∀ taken ∈ run, taken.turn.Suits owner)
    (without : run'.map Taken.turn = (run.map Taken.turn).filter (Turn.concerns key)) :
    SameFor owner key t t' ∧ toldOf key run = toldOf key run' ∧
      invokedOf owner key run = invokedOf owner key run' := by
  induction plays generalizing s' run' with
  | nil =>
    obtain rfl := List.map_eq_nil_iff.1 without
    cases plays' with
    | nil => exact ⟨same, rfl, rfl⟩
  | @cons s t u taken rest takes _ ih =>
    have next := takes.divided divided (suits taken List.mem_cons_self)
    have later : ∀ x ∈ rest, x.turn.Suits owner :=
      fun x hx => suits x (List.mem_cons_of_mem taken hx)
    cases concerns : taken.turn.concerns key with
    | false =>
      obtain ⟨stays, none, silent⟩ := takes.other divided concerns
      rw [List.map_cons, List.filter_cons_of_neg (Bool.eq_false_iff.1 concerns)] at without
      obtain ⟨after, told, invoked⟩ :=
        ih plays' next divided' (stays.symm.trans same) later without
      refine ⟨after, ?_, ?_⟩
      · rw [← told, toldOf, List.filter_cons, if_neg (Bool.eq_false_iff.1 silent)]
        rfl
      · rw [← invoked, invokedOf, List.flatMap_cons, none, List.nil_append]
        rfl
    | true =>
      rw [List.map_cons, List.filter_cons_of_pos concerns] at without
      obtain ⟨taken', rest', rfl, turn, others⟩ := List.map_eq_cons_iff.1 without
      cases plays' with
      | @cons _ t' _ _ _ takes' plays' =>
        obtain ⟨stays, told, invoked⟩ := takes.same takes' divided divided' same turn.symm
        have next' := takes'.divided divided' (turn ▸ suits taken List.mem_cons_self)
        obtain ⟨after, told_rest, invoked_rest⟩ := ih plays' next next' stays later others
        refine ⟨after, ?_, ?_⟩
        · unfold toldOf at told_rest ⊢
          rw [List.filter_cons, List.filter_cons, turn]
          split
          · next tells => rw [List.map_cons, List.map_cons, told tells, told_rest]
          · exact told_rest
        · unfold invokedOf at invoked_rest ⊢
          rw [List.flatMap_cons, List.flatMap_cons, List.filter_append, List.filter_append,
            invoked, invoked_rest]

end Same

/-- In a cache without a limit, whose callbacks keep to themselves and belong to their keys, a run
of any turns, with refreshes in any orders, tells of one key what it tells without the sets, gets
and deletes of all others. The same callbacks of the key are invoked one after the other, and the
same entry is left under it. There is such a run for any turns. And two sets, gets and deletes of
different keys may be made in either order. -/
theorem keys_independent :
    (∀ owner key s t t' run run', s.Divided owner → Plays s run t →
      (∀ taken ∈ run, taken.turn.Suits owner) → Plays s run' t' →
      run'.map Taken.turn = (run.map Taken.turn).filter (Turn.concerns key) →
      toldOf key run = toldOf key run' ∧ invokedOf owner key run = invokedOf owner key run' ∧
        t.cache.entries.find? key = t'.cache.entries.find? key) ∧
    (∀ s turns, ∃ run t, Plays s run t ∧ run.map Taken.turn = turns) ∧
    ∀ (c : Cache Int) (a b : CacheCall Int) (x y : String) (now now' : Instant),
      c.limit = none → c.Accounted → a.key? = some x → b.key? = some y → x ≠ y →
      let ab := (c.call now a).1.call now' b
      let ba := (c.call now' b).1.call now a
      (c.call now a).2 = ba.2 ∧ ab.2 = (c.call now' b).2 ∧
        (∀ key, ab.1.entries.find? key = ba.1.entries.find? key) ∧
        ab.1.slots = ba.1.slots ∧ ab.1.stats = ba.1.stats ∧
        ∀ calls, ab.1.replies calls = ba.1.replies calls := by
  refine ⟨fun owner key s t t' run run' divided plays suits plays' without => ?_, exists_plays,
    fun c a b x y now now' unlimited count names names' ne =>
      Cache.calls_commute unlimited count names names' ne now now'⟩
  obtain ⟨after, told, invoked⟩ :=
    plays.independent plays' divided divided (.refl owner key s) suits without
  exact ⟨told, invoked, after.entry⟩

/-- Two keys with callbacks of their own, of which the other fails. The other is refreshed first,
and then deleted. -/
theorem keys_independent_deleted :
    let up : Source := ⟨"up", .mk none [] (.counted 10), [], false, 0⟩
    let down : Source := ⟨"down", .mk none [] (.failed "down"), [], false, 0⟩
    let s := { ofCache (.ofSecs 60) none (.manual ⟨1000, 0⟩) false with sources := [up, down] }
    let owner : Nat → Option String := fun i =>
      if i = 0 then some "a" else if i = 1 then some "b" else none
    let setA : CacheCall Int := .set "a" ⟨1, none, some ⟨0, []⟩⟩
    let setB : CacheCall Int := .set "b" ⟨2, none, some ⟨1, [1]⟩⟩
    let one := { s with cache := (s.cache.call s.now setA).1 }
    let two := { one with cache := (one.cache.call one.now setB).1 }
    let three := (two.refreshIn [("b", ⟨1, [1]⟩), ("a", ⟨0, []⟩)]).1
    let four := { three with cache := (three.cache.call three.now (.delete "b")).1 }
    let only := (one.refreshIn [("a", ⟨0, []⟩)]).1
    ∃ run run', Plays s run four ∧ Plays s run' only ∧
      run.flatMap Taken.invoked = [(1, 0), (1, 1), (0, 0)] ∧
      run'.flatMap Taken.invoked = [(0, 0)] ∧
      invokedOf owner "a" run = invokedOf owner "a" run' ∧
      four.cache.entries.find? "a" = only.cache.entries.find? "a" ∧
      four.cache.entries.find? "a" = some ⟨11, ⟨1060, 0⟩, some ⟨0, []⟩⟩ := by
  intro up down s owner setA setB one two three four only
  have refreshable : two.cache.refreshable = [("a", ⟨0, []⟩), ("b", ⟨1, [1]⟩)] ∧
      one.cache.refreshable = [("a", ⟨0, []⟩)] := by decide +kernel
  have divided : s.Divided owner := by
    refine ⟨⟨rfl, .new _ _⟩, rfl, fun i key owns => ?_, nofun⟩
    match i with
    | 0 => exact ⟨up, rfl, rfl⟩
    | 1 => exact ⟨down, rfl, rfl⟩
    | i + 2 =>
      have nobody : owner (i + 2) = none := by simp [owner]
      rw [nobody] at owns
      cases owns
  have plays : Plays s _ four := .cons (.call setA) <| .cons (.call setB) <|
    .cons (.refresh (refreshable.1 ▸ .swap _ _ _)) <| .cons (.call (.delete "b")) .nil
  have plays' : Plays s _ only := .cons (.call setA) <|
    .cons (.refresh (refreshable.2 ▸ .refl _)) .nil
  refine ⟨_, _, plays, plays', by decide +kernel, by decide +kernel, ?_⟩
  obtain ⟨runs, _⟩ := keys_independent
  have same := runs owner "a" s four only _ _ divided plays (fun taken member => ?_) plays' rfl
  · exact ⟨same.2.1, same.2.2, by decide +kernel⟩
  · simp only [List.mem_cons, List.not_mem_nil, or_false] at member
    rcases member with rfl | rfl | rfl | rfl
    · rintro _ ⟨⟩
      rfl
    · rintro _ ⟨⟩
      rfl
    · trivial
    · trivial

end Session

end WarmCache
