import WarmCache.Proofs.Happenings
import WarmCache.Proofs.Ledger
import WarmCache.Proofs.Plain
import WarmCache.Proofs.Twins

/-!
# The lifetime of an entry

An entry is written by a set, with the expiry that its value brings or else a lifetime from then
on, or by a refresh, always a lifetime from then on. It is taken out by a delete, or by a flush
that comes when its expiry is past. `Chronicle` keeps, over everything that can happen in a
session, every operation on the entries together with what it came to, and the entry under a key
is read off that list alone.

Results:
1. `Cache.find?_apply_of_stores`, `Cache.find?_apply_iff`: what one operation makes of the entry
   under a key.
2. `Chronicle.lasts`: the entry under a key is the one last written there, unless it was cleared
   since.
3. `afterCall_settles`: the item of a refresh is stamped as soon as its callback has returned.
4. `last_write_determines_entry`: all of it, for every chronicle, and there is one for every run.
-/

namespace WarmCache

/-! ## Deeds -/

/-- An operation on the entries of a cache, together with what it came to. -/
structure Deed (α : Type) where
  op : CacheOp α
  effect : Effect

/-- The reading of the clock that an operation takes. -/
def CacheOp.reading? {α : Type} : CacheOp α → Option Instant
  | .set now _ _ => some now
  | .flush now => some now
  | .settle now _ _ _ => some now
  | _ => none

/-- The key that an operation names. A flush names none. -/
def CacheOp.key? {α : Type} : CacheOp α → Option String
  | .set _ key _ => some key
  | .get key => some key
  | .delete key => some key
  | .flush _ => none
  | .settle _ key _ _ => some key

/-- An operation on this cache, together with what it comes to. -/
def Cache.deed {α : Type} (c : Cache α) (op : CacheOp α) : Deed α := ⟨op, c.effect op⟩

/-- Operations in order, together with what they come to. -/
def Cache.deeds {α : Type} (c : Cache α) : List (CacheOp α) → List (Deed α)
  | [] => []
  | op :: rest => c.deed op :: (c.apply op).deeds rest

namespace Deed

variable {α : Type}

/-- The deed put entry `e` under the key, in a cache where entries live for `ttl`. -/
inductive Stores (ttl : Span) (key : String) : Deed α → Entry α → Prop
  /-- A set that was not refused keeps the expiry that the value brings. -/
  | set {now : Instant} {value : Value α} {effect : Effect} :
      effect = .inserted ∨ effect = .overwritten →
      Stores ttl key ⟨.set now key value, effect⟩
        ⟨value.item, value.expires.getD (now.addUnbounded ttl).capped, value.refresh⟩
  /-- A refresh that found its key drops every expiry there was. -/
  | settle {now : Instant} {callback : Callback} {item : α} :
      Stores ttl key ⟨.settle now key callback (.ok item), .settled .replaced⟩
        ⟨item, (now.addUnbounded ttl).capped, some callback⟩

/-- The deed takes out an entry under the key that expires so: it is a delete of the key, or a
flush strictly after the expiry. -/
inductive Clears (key : String) (expires : Instant) : Deed α → Prop
  | delete {effect : Effect} : Clears key expires ⟨.delete key, effect⟩
  | flush {now : Instant} {effect : Effect} : expires < now →
      Clears key expires ⟨.flush now, effect⟩

theorem Stores.key?_eq {ttl : Span} {key : String} {d : Deed α} {e : Entry α}
    (h : Stores ttl key d e) : d.op.key? = some key := by
  cases h <;> rfl

theorem Clears.key?_eq {key : String} {expires : Instant} {d : Deed α}
    (h : Clears key expires d) : d.op.key? = some key ∨ d.op.key? = none := by
  cases h with
  | delete => exact .inl rfl
  | flush => exact .inr rfl

/-- Entry `e` was the last to be put under the key, and it was not cleared since. -/
def Lasts (ttl : Span) (key : String) (deeds : List (Deed α)) (e : Entry α) : Prop :=
  ∃ before w after, deeds = before ++ w :: after ∧ Stores ttl key w e ∧
    ∀ x ∈ after, (∀ e', ¬ Stores ttl key x e') ∧ ¬ Clears key e.expires x

/-- Of one deed more, the last entry is the one that it puts there, or else the last before it,
unless that is cleared. -/
theorem lasts_concat_iff {ttl : Span} {key : String} (deeds : List (Deed α)) (x : Deed α)
    (e : Entry α) :
    Lasts ttl key (deeds ++ [x]) e ↔
      Stores ttl key x e ∨
        Lasts ttl key deeds e ∧ (∀ e', ¬ Stores ttl key x e') ∧ ¬ Clears key e.expires x := by
  constructor
  · rintro ⟨before, w, after, split, stores, quiet⟩
    rcases List.eq_nil_or_concat after with rfl | ⟨init, last, rfl⟩
    · obtain ⟨_, same⟩ := List.append_inj' split rfl
      obtain rfl := List.singleton_inj.1 same
      exact .inl stores
    · rw [List.concat_eq_append, ← List.cons_append, ← List.append_assoc] at split
      obtain ⟨same, same'⟩ := List.append_inj' split rfl
      obtain rfl := List.singleton_inj.1 same'
      simp only [List.concat_eq_append, List.forall_mem_append, List.forall_mem_singleton] at quiet
      exact .inr ⟨⟨before, w, init, same, stores, quiet.1⟩, quiet.2⟩
  · rintro (stores | ⟨⟨before, w, after, rfl, stores, quiet⟩, kept⟩)
    · exact ⟨deeds, x, [], rfl, stores, fun _ member => by cases member⟩
    · refine ⟨before, w, after ++ [x], by rw [List.append_assoc, List.cons_append], stores, ?_⟩
      simp only [List.forall_mem_append, List.forall_mem_singleton]
      exact ⟨quiet, kept⟩

end Deed

namespace Cache

variable {α : Type} {c : Cache α} {ttl : Span} {key : String}

/-! ## One operation -/

theorem expiryFrom_eq_capped (policy : c.policy = .ofTtl ttl) {now : Instant}
    (first : Instant.earliest.secs ≤ now.secs) :
    c.expiryFrom now = (now.addUnbounded ttl).capped := by
  rw [expiryFrom, policy]
  exact expiryFrom_ofTtl ttl first

theorem find?_apply_of_stores (policy : c.policy = .ofTtl ttl) {op : CacheOp α} {e : Entry α}
    (inRange : ∀ now, op.reading? = some now → Instant.earliest.secs ≤ now.secs)
    (h : Deed.Stores ttl key (c.deed op) e) : (c.apply op).entries.find? key = some e := by
  generalize deed : c.deed op = d at h
  cases h with
  | @set now value effect landed =>
    obtain ⟨rfl, rfl⟩ := Deed.mk.inj deed
    have stamped : Entry.stamp (c.expiryFrom now) value =
        ⟨value.item, value.expires.getD (now.addUnbounded ttl).capped, value.refresh⟩ := by
      rw [Entry.stamp, expiryFrom_eq_capped policy (inRange now rfl)]
    simp only [apply, effect] at landed ⊢
    rcases c.set_cases key with present | ⟨absent, room⟩ | ⟨absent, limit, hl, full⟩
    · rw [set_of_contains present, stamped]
      exact Keyed.find?_put_self _ _ _
    · rw [set_of_hasRoom absent room, stamped]
      exact Keyed.find?_put_self _ _ _
    · rw [set_of_full absent hl full] at landed
      rcases landed with landed | landed <;> cases landed
  | @settle now callback item =>
    obtain ⟨rfl, replaced⟩ := Deed.mk.inj deed
    rw [← expiryFrom_eq_capped policy (inRange now rfl)]
    simp only [apply, effect, Effect.settled.injEq] at replaced ⊢
    cases hc : c.entries.contains key with
    | true =>
      rw [settle_ok_of_contains hc]
      exact Keyed.find?_put_self _ _ _
    | false =>
      rw [settle_ok_of_not_contains hc] at replaced
      cases replaced

/-- An operation that puts no entry under a key leaves the one there alone or takes it out. -/
theorem find?_apply_iff (nodup : c.entries.keys.Nodup) {op : CacheOp α}
    (other : ∀ e, ¬ Deed.Stores ttl key (c.deed op) e) (e : Entry α) :
    (c.apply op).entries.find? key = some e ↔
      c.entries.find? key = some e ∧ ¬ Deed.Clears key e.expires (c.deed op) := by
  cases op with
  | set now k value =>
    have kept : ¬ Deed.Clears key e.expires (c.deed (.set now k value)) := by
      intro clears
      cases clears
    have ne : ∀ {effect}, c.effect (.set now k value) = effect →
        effect = .inserted ∨ effect = .overwritten → key ≠ k := by
      rintro effect eq landed rfl
      exact other _ (.set (eq ▸ landed))
    simp only [kept, not_false_eq_true, and_true]
    rcases c.set_cases k with present | ⟨absent, room⟩ | ⟨absent, limit, hl, full⟩
    · have effect : c.effect (.set now k value) = .overwritten := by
        simp only [Cache.effect, set_of_contains present, present, if_true]
      simp only [apply, set_of_contains present,
        Keyed.find?_put_other _ _ (ne effect (.inr rfl))]
    · have effect : c.effect (.set now k value) = .inserted := by
        simp only [Cache.effect, set_of_hasRoom absent room, absent, Bool.false_eq_true, if_false]
      simp only [apply, set_of_hasRoom absent room,
        Keyed.find?_put_other _ _ (ne effect (.inl rfl))]
    · simp only [apply, set_of_full absent hl full]
  | get k =>
    have kept : ¬ Deed.Clears key e.expires (c.deed (.get k)) := by
      intro clears
      cases clears
    simp only [apply, get_entries, kept, not_false_eq_true, and_true]
  | delete k =>
    simp only [apply]
    by_cases same : k = key
    · subst same
      have cleared : Deed.Clears k e.expires (c.deed (.delete k)) := .delete
      have gone : (c.delete k).entries.find? k = none := by
        rw [Keyed.find?_eq_none_iff, entries_delete nodup]
        intro present
        obtain ⟨pair, left, rfl⟩ := List.mem_map.1 present
        simp at left
      simp only [gone, cleared, not_true_eq_false, and_false, reduceCtorEq]
    · have kept : ¬ Deed.Clears key e.expires (c.deed (.delete k)) := by
        intro clears
        cases clears
        exact same rfl
      simp only [kept, not_false_eq_true, and_true]
      cases hc : c.entries.contains k with
      | true => rw [delete_of_contains hc, Keyed.find?_remove_other _ (Ne.symm same)]
      | false => rw [delete_of_not_contains hc]
  | flush now =>
    have clears : Deed.Clears key e.expires (c.deed (.flush now)) ↔
        e.expires < now :=
      ⟨fun h => by cases h; assumption, .flush⟩
    simp only [apply, flush, Keyed.find?_filter _ _ nodup, Option.filter_eq_some_iff, clears,
      Entry.isExpiredAt, isExpiredAt, Bool.not_eq_true', decide_eq_false_iff_not]
  | settle now k callback result =>
    have kept : ¬ Deed.Clears key e.expires (c.deed (.settle now k callback result)) := by
      intro clears
      cases clears
    simp only [kept, not_false_eq_true, and_true]
    cases result with
    | error message => simp only [apply, settle_failed]
    | ok item =>
      simp only [apply]
      cases hc : c.entries.contains k with
      | false => rw [settle_ok_of_not_contains hc]
      | true =>
        have replaced : c.effect (.settle now k callback (.ok item)) = .settled .replaced := by
          simp only [effect, settle_ok_of_contains hc]
        have ne : key ≠ k := by
          rintro rfl
          refine other ⟨item, (now.addUnbounded ttl).capped, some callback⟩ ?_
          rw [deed, replaced]
          exact .settle
        rw [settle_ok_of_contains hc, Keyed.find?_put_other _ _ ne]

theorem find?_flush (nodup : c.entries.keys.Nodup) {e : Entry α}
    (found : c.entries.find? key = some e) (now : Instant) :
    (c.flush now).1.entries.find? key = if e.expires < now then none else some e := by
  simp only [flush, Keyed.find?_filter _ _ nodup, found, Option.filter_some, Entry.isExpiredAt,
    isExpiredAt]
  by_cases past : e.expires < now
  · simp only [past, decide_true, Bool.not_true, Bool.false_eq_true, if_false, if_true]
  · simp only [past, decide_false, Bool.not_false, if_true, if_false]

/-- An operation on another key leaves the entry alone. -/
theorem find?_apply_other (nodup : c.entries.keys.Nodup) {op : CacheOp α} {k : String}
    (names : op.key? = some k) (ne : k ≠ key) :
    (c.apply op).entries.find? key = c.entries.find? key := by
  have apart : (c.deed op).op.key? ≠ some key := by
    intro same
    exact ne (Option.some.inj (names.symm.trans same))
  have none : ∀ e, ¬ Deed.Stores (.ofSecs 0) key (c.deed op) e :=
    fun e stores => apart stores.key?_eq
  refine Option.ext fun e => (find?_apply_iff nodup none e).trans (and_iff_left fun clears => ?_)
  rcases clears.key?_eq with same | unnamed
  · exact apart same
  · cases unnamed.symm.trans names

theorem op_mem_of_mem_deeds {ops : List (CacheOp α)} {d : Deed α} (h : d ∈ c.deeds ops) :
    d.op ∈ ops := by
  induction ops generalizing c with
  | nil => cases h
  | cons op rest ih =>
    rcases List.mem_cons.1 h with rfl | h
    · exact List.mem_cons_self
    · exact List.mem_cons_of_mem _ (ih h)

/-! ## Operations in order -/

/-- The entry under a key is the last that was put there and not cleared, if it was so before. -/
theorem lasts_applyAll {before : List (Deed α)} (count : c.Accounted)
    (policy : c.policy = .ofTtl ttl)
    (last : ∀ e, c.entries.find? key = some e ↔ Deed.Lasts ttl key before e)
    {ops : List (CacheOp α)}
    (inRange : ∀ op ∈ ops, ∀ now, op.reading? = some now → Instant.earliest.secs ≤ now.secs)
    (e : Entry α) :
    (c.applyAll ops).entries.find? key = some e ↔
      Deed.Lasts ttl key (before ++ c.deeds ops) e := by
  -- on the operations; after each of them the last entry is told by one deed more
  induction ops generalizing c before with
  | nil => simpa [applyAll, deeds] using last e
  | cons op rest ih =>
    have policy' : (c.apply op).policy = .ofTtl ttl := by
      obtain ⟨_, _, _, eq⟩ := c.apply_frame op
      rw [eq]
      exact policy
    have one : ∀ e, (c.apply op).entries.find? key = some e ↔
        Deed.Lasts ttl key (before ++ [c.deed op]) e := by
      intro e
      rw [Deed.lasts_concat_iff, ← last]
      by_cases stores : ∃ e', Deed.Stores ttl key (c.deed op) e'
      · obtain ⟨e', stores⟩ := stores
        have stored := find?_apply_of_stores policy (inRange op List.mem_cons_self) stores
        constructor
        · intro found
          obtain rfl := Option.some.inj (stored.symm.trans found)
          exact .inl stores
        · rintro (stores | ⟨_, none, _⟩)
          · exact find?_apply_of_stores policy (inRange op List.mem_cons_self) stores
          · exact absurd stores (none e')
      · have none := not_exists.1 stores
        rw [find?_apply_iff count.nodup_keys none]
        simp only [none e, none, false_or, not_false_eq_true, implies_true, true_and]
    have all := ih (count.apply op) policy' one fun op' member =>
      inRange op' (List.mem_cons_of_mem _ member)
    rw [List.append_assoc] at all
    exact all

end Cache

/-! ## Clocks outside leap seconds -/

/-- Outside leap seconds a sum stays outside. -/
theorem Instant.add_nanos_lt {t : Instant} {d : Span} (ht : t.nanos < Span.nanosPerSec) :
    (t.add d).nanos < Span.nanosPerSec := by
  unfold Instant.add
  simp only
  split
  · decide
  · rcases addUnbounded_nanos (Nat.lt_of_lt_of_le ht (by decide)) with h | ⟨leap, _⟩
    · exact h
    · exact absurd ht (Nat.not_lt.2 leap)

theorem ManualClock.now_nanos_lt (c : ManualClock) : c.now.nanos < Span.nanosPerSec := by
  unfold now
  simp only
  split
  · simp only [Instant.ofMillis, Span.nanosPerMilli, Span.nanosPerSec]
    omega
  · decide

/-- A clock that does not begin, or stand, in a leap second. -/
def Clock.Ordinary : Clock → Prop
  | manual _ => True
  | running start => start.nanos < Span.nanosPerSec
  | system reading => reading.nanos < Span.nanosPerSec

theorem Clock.Ordinary.tick {c : Clock} (h : c.Ordinary) : c.tick.Ordinary := by
  cases c with
  | manual clock => trivial
  | running start => exact h
  | system reading => exact Instant.add_nanos_lt h

/-- Such a clock is never past the last instant. -/
theorem Clock.Ordinary.not_past {c : Clock} (h : c.Ordinary) (elapsed : Nat) :
    ¬ Instant.latest < c.now elapsed := by
  have second := (c.now_valid elapsed).le_latest
  have within : (c.now elapsed).nanos < Span.nanosPerSec := by
    cases c with
    | manual clock => exact clock.now_nanos_lt
    | running start => exact Instant.add_nanos_lt h
    | system reading => exact h
  simp only [Instant.lt_def, Instant.latest, Span.nanosPerSec] at *
  omega

namespace Session

/-- A session that does not begin in a leap second never reads past the last instant. -/
theorem Reachable.not_past {ttl : Span} {limit : Option Nat} {time : TimeSource}
    {hasRuntime : Bool} {s : Session} (h : Reachable ttl limit time hasRuntime s)
    (ordinary : time.clock.Ordinary) : ¬ Instant.latest < s.now := by
  refine Clock.Ordinary.not_past ?_ s.elapsed
  induction h with
  | refl => exact ordinary
  | tail _ step ih =>
    rcases step.clock with eq | eq | ⟨_, _, _, eq⟩
    · rw [eq]
      exact ih
    · rw [eq]
      exact ih.tick
    · rw [eq]
      trivial

/-! ## Chronicles -/

/-- Everything that was done to the entries from session `start` to session `t`. -/
inductive Chronicle (start : Session) : List (Deed Int) → Session → Prop
  | begins : Chronicle start [] start
  /-- A caller, a callback, a background refresh or a cycle has a request answered. -/
  | asks {deeds t} (q : Request) : Chronicle start deeds t →
      Chronicle start (deeds ++ t.cache.deeds (t.opsOf q)) (t.answer q).1
  /-- A background task is looked at. -/
  | looks {deeds t} (index : Nat) : Chronicle start deeds t →
      Chronicle start (deeds ++ t.cache.deeds (t.lookOps index)) (t.doPiece (.look index))
  /-- Something goes on beside the entries. -/
  | shifts {deeds t u} : Chronicle start deeds t → Step t u → Shift t u → Chronicle start deeds u

theorem Chronicle.reaches {start t : Session} {deeds : List (Deed Int)}
    (h : Chronicle start deeds t) : Reaches start t := by
  induction h with
  | begins => exact .refl
  | asks q _ ih => exact ih.tail (.request q)
  | looks index _ ih => exact ih.tail (.look index)
  | shifts _ step _ ih => exact ih.tail step

/-- Whatever a session comes to, everything that is done to the entries on the way can be kept. -/
theorem Chronicle.extends {start t u : Session} {deeds : List (Deed Int)}
    (h : Chronicle start deeds t) (more : Reaches t u) :
    ∃ deeds', Chronicle start (deeds ++ deeds') u := by
  induction more with
  | refl => exact ⟨[], by simpa using h⟩
  | @tail b c _ step ih =>
    obtain ⟨before, h⟩ := ih
    cases step with
    | request q => exact ⟨_, List.append_assoc .. ▸ h.asks q⟩
    | look index => exact ⟨_, List.append_assoc .. ▸ h.looks index⟩
    | cycleMoves progress found inCycle =>
      exact ⟨before, h.shifts (.cycleMoves progress found inCycle) (.cycleMoves progress found)⟩
    | cycleEnds result hasCycle =>
      exact ⟨before, h.shifts (.cycleEnds result hasCycle) (.cycleEnds _ result)⟩
    | threads threads => exact ⟨before, h.shifts (.threads threads) (.threads threads)⟩
    | runtime hasRuntime => exact ⟨before, h.shifts (.runtime hasRuntime) (.runtime hasRuntime)⟩
    | time elapsed => exact ⟨before, h.shifts (.time elapsed) (.time elapsed)⟩

/-! ## Readings of the clock -/

theorem reading_storeOps {s : Session} {action : StoreAction} {op : CacheOp Int}
    (member : op ∈ s.storeOps action) {now : Instant} (reads : op.reading? = some now) :
    now = s.now := by
  cases action with
  | flush =>
    obtain rfl := List.mem_singleton.1 member
    exact (Option.some.inj reads).symm
  | setMany stem first count =>
    obtain ⟨_, _, rfl⟩ := List.mem_map.1 member
    exact (Option.some.inj reads).symm
  | getMany stem first count =>
    obtain ⟨_, _, rfl⟩ := List.mem_map.1 member
    cases reads
  | deleteMany stem first count =>
    obtain ⟨_, _, rfl⟩ := List.mem_map.1 member
    cases reads
  | get key | getItem key | delete key | showEntry key | showExpiry key | hold key slot =>
    obtain rfl := List.mem_singleton.1 member
    cases reads
  | _ => cases member

/-- Every operation takes the reading that the clock of the session shows. -/
theorem reading_opsOf {s : Session} {q : Request} {op : CacheOp Int} (member : op ∈ s.opsOf q)
    {now : Instant} (reads : op.reading? = some now) : now = s.now := by
  cases q with
  | act action =>
    cases action with
    | set key item settings =>
      obtain rfl := List.mem_singleton.1 member
      exact (Option.some.inj reads).symm
    | store action => exact reading_storeOps member reads
    | _ => cases member
  | settle key callback result =>
    obtain rfl := List.mem_singleton.1 member
    exact (Option.some.inj reads).symm
  | _ => cases member

theorem reading_lookOps {s : Session} {index : Nat} {op : CacheOp Int}
    (member : op ∈ s.lookOps index) {now : Instant} (reads : op.reading? = some now) :
    now = s.now := by
  unfold lookOps at member
  split at member
  · split at member
    · obtain rfl := List.mem_singleton.1 member
      exact (Option.some.inj reads).symm
    · cases member
  · cases member

/-! ## Every chronicle -/

section Chronicle

variable {ttl : Span} {limit : Option Nat} {time : TimeSource} {hasRuntime : Bool} {t : Session}
  {deeds : List (Deed Int)}

/-- The entry under a key is the last that was put there and not cleared. -/
theorem Chronicle.lasts (h : Chronicle (ofCache ttl limit time hasRuntime) deeds t)
    (key : String) (e : Entry Int) :
    t.cache.entries.find? key = some e ↔ Deed.Lasts ttl key deeds e := by
  induction h generalizing e with
  | begins =>
    constructor
    · intro found
      cases found
    · rintro ⟨before, w, after, split, _⟩
      exact absurd split (by simp)
  | @asks deeds t q before ih =>
    have reached : Reachable ttl limit time hasRuntime t := before.reaches
    obtain ⟨taken, cache⟩ := (t.answered q).cache
    rw [cache]
    refine Cache.lasts_applyAll reached.accounted reached.policy_eq ih
      (fun op member now reads => ?_) e
    rw [reading_opsOf member reads]
    exact t.now_valid.earliest_le
  | @looks deeds t index before ih =>
    have reached : Reachable ttl limit time hasRuntime t := before.reaches
    obtain ⟨taken, cache⟩ := t.cache_look index
    rw [cache]
    refine Cache.lasts_applyAll reached.accounted reached.policy_eq ih
      (fun op member now reads => ?_) e
    rw [reading_lookOps member reads]
    exact t.now_valid.earliest_le
  | shifts _ _ shift ih =>
    obtain ⟨taken, cache⟩ := shift.cache
    rw [cache]
    exact ih e

/-- Every reading that was taken is what the clock of some session on the way showed. -/
theorem Chronicle.reading (h : Chronicle (ofCache ttl limit time hasRuntime) deeds t) {d : Deed Int}
    (member : d ∈ deeds) {now : Instant} (reads : d.op.reading? = some now) :
    ∃ s, Reachable ttl limit time hasRuntime s ∧ now = s.now := by
  induction h with
  | begins => cases member
  | @asks _ s q before ih =>
    rcases List.mem_append.1 member with earlier | here
    · exact ih earlier
    · exact ⟨s, before.reaches, reading_opsOf (Cache.op_mem_of_mem_deeds here) reads⟩
  | @looks _ s index before ih =>
    rcases List.mem_append.1 member with earlier | here
    · exact ih earlier
    · exact ⟨s, before.reaches, reading_lookOps (Cache.op_mem_of_mem_deeds here) reads⟩
  | shifts _ _ _ ih => exact ih member

end Chronicle

/-! ## The reading of a refresh -/

/-- When the callback of a pair has returned an item, be it called by the session itself or in the
background, nothing comes before the item is settled at what the clock shows then. -/
theorem afterCall_settles (s : Session) {w : Work (Outcome Int)} {u : Session} {item : Int}
    (call : Callback → Work (Outcome Int)) (key : String) (callback : Callback)
    (rest : List (String × Callback)) (summary : Summary) :
    let settle : Request := .settle key callback (.ok item)
    u.opsOf settle = [.settle u.now key callback (.ok item)] ∧
      (s.finish w = (u, .ok item) →
        s.finish (w.bind (Work.afterCall call key callback rest summary)) =
          (u.answer settle).1.finish
            (Work.refreshRest call rest (summary.count (u.answer settle).2))) ∧
      (s.advance w = (u, .finished (.ok item)) →
        s.advance (w.bind (Work.afterCall call key callback rest summary)) =
          (u.answer settle).1.advance
            (Work.refreshRest call rest (summary.count (u.answer settle).2))) := by
  refine ⟨rfl, fun finished => ?_, fun advanced => ?_⟩
  · rw [finish_bind, finished]
    rfl
  · rw [Work.advance_bind advanced]
    rfl

/-! ## The life of an entry -/

/-- The life of the entry under a key, where entries live for `ttl` and these deeds led to session
`t`. -/
structure EntryLife (ttl : Span) (deeds : List (Deed Int)) (t : Session) (key : String) :
    Prop where
  /-- The entry, and so its expiry, is what the last write that landed put there, unless it was
  cleared since. -/
  last : ∀ e, t.cache.entries.find? key = some e ↔ Deed.Lasts ttl key deeds e
  /-- A lookup returns it, expired or not. -/
  lookup : (t.cache.get key).2 = t.cache.entries.find? key
  /-- A flush takes it out if the clock is strictly past its expiry, and not before. -/
  flush : ∀ e now, t.cache.entries.find? key = some e →
    (t.cache.flush now).1.entries.find? key = if e.expires < now then none else some e
  /-- A refresh whose callback fails does not change it. -/
  failed : ∀ k now callback message,
    (t.cache.settle now k callback (.error message)).1.entries.find? key =
      t.cache.entries.find? key
  /-- An operation on another key does not change it. -/
  others : ∀ op k, CacheOp.key? op = some k → k ≠ key →
    (t.cache.apply op).entries.find? key = t.cache.entries.find? key
  /-- An expiry that a write computes is the earlier of the plain sum and the last instant. -/
  stamps : ∀ d ∈ deeds, ∀ now, d.op.reading? = some now → ¬ Instant.latest < now →
    (now.addUnbounded ttl).capped = .earlier (now.addUnbounded ttl) .latest

/-- The life of every entry in every run, whatever callers, callbacks and background tasks do and
however the clock is moved: its expiry is told by the last write that landed, and it is found
until a delete or a flush past that expiry. A refresh takes its reading when the callback has
returned. -/
theorem last_write_determines_entry (ttl : Span) (limit : Option Nat) (time : TimeSource)
    (hasRuntime : Bool) :
    (∀ moves, ∃ deeds, Chronicle (ofCache ttl limit time hasRuntime) deeds
      ((ofCache ttl limit time hasRuntime).run moves).1) ∧
    (∀ hs, ∃ deeds, Chronicle (ofCache ttl limit time hasRuntime) deeds
      ((ofCache ttl limit time hasRuntime).follow hs).1) ∧
    (∀ deeds t, Chronicle (ofCache ttl limit time hasRuntime) deeds t →
      (∀ u, Reaches t u →
        ∃ more, Chronicle (ofCache ttl limit time hasRuntime) (deeds ++ more) u) ∧
      (∀ key, EntryLife ttl deeds t key) ∧
      (time.clock.Ordinary → ∀ d ∈ deeds, ∀ now, d.op.reading? = some now →
        ¬ Instant.latest < now)) ∧
    ∀ (call : Callback → Work (Outcome Int)) key callback rest summary,
      Work.refreshRest call ((key, callback) :: rest) summary =
        (call callback).bind (Work.afterCall call key callback rest summary) ∧
      ∀ (s u : Session) w item,
        let settle : Request := .settle key callback (.ok item)
        let after := Work.refreshRest call rest (summary.count (u.answer settle).2)
        u.opsOf settle = [.settle u.now key callback (.ok item)] ∧
          (s.finish w = (u, .ok item) →
            s.finish (w.bind (Work.afterCall call key callback rest summary)) =
              (u.answer settle).1.finish after) ∧
          (s.advance w = (u, .finished (.ok item)) →
            s.advance (w.bind (Work.afterCall call key callback rest summary)) =
              (u.answer settle).1.advance after) := by
  have kept : ∀ u, Reaches (ofCache ttl limit time hasRuntime) u →
      ∃ deeds, Chronicle (ofCache ttl limit time hasRuntime) deeds u :=
    fun u more => Chronicle.begins.extends more
  refine ⟨fun moves => kept _ (proceeds_run _ moves).reaches,
    fun hs => kept _ (proceeds_follow _ hs).reaches, fun deeds t h => ⟨fun u => h.extends,
      fun key => ?_, fun ordinary d member now reads => ?_⟩,
    fun call key callback rest summary => ⟨Work.refreshRest_cons call key callback rest summary,
      fun s u w item => s.afterCall_settles call key callback rest summary⟩⟩
  · have reached : Reachable ttl limit time hasRuntime t := h.reaches
    have nodup := reached.accounted.nodup_keys
    refine ⟨h.lasts key, t.cache.get_snd key,
      fun e now found => Cache.find?_flush nodup found now, fun _ _ _ _ => rfl,
      fun op k names ne => Cache.find?_apply_other nodup names ne,
      fun d member now reads kept => ?_⟩
    obtain ⟨s, onTheWay, rfl⟩ := h.reading member reads
    exact Instant.capped_eq_earlier s.now_valid kept
  · obtain ⟨s, onTheWay, rfl⟩ := h.reading member reads
    exact onTheWay.not_past ordinary

/-- A set with an expiry of its own, a refresh whose callback moves the clock on, a clock that is
set back, and a flush: the entry expires a lifetime after the callback returned. -/
theorem last_write_determines_entry_refreshed :
    let fetcher : Fetcher := .mk "source"
      (.mk none [.act (.policy (.advance (.ofSecs 7)))] (.item 5)) [] false []
    let s := ofCache (.ofSecs 60) (some 1) (.manual ⟨1000, 0⟩) false
    let t := (s.run [.run (.act (.set "a" 1 [.expires (.fixed ⟨5000, 0⟩), .refresh fetcher])),
      .run (.act (.set "b" 2 [])), .run .refresh,
      .run (.act (.policy (.setClock (.fixed ⟨500, 0⟩)))), .run (.act (.store .flush))]).1
    let e : Entry Int := ⟨5, ⟨1067, 0⟩, some ⟨0, []⟩⟩
    (∃ deeds, Chronicle s deeds t ∧ Deed.Lasts (.ofSecs 60) "a" deeds e) ∧
      (t.cache.flush ⟨1067, 0⟩).1.entries.find? "a" = some e ∧
      (t.cache.flush ⟨1067, 1⟩).1.entries.find? "a" = none := by
  intro fetcher s t e
  have found : t.cache.entries.find? "a" = some e := by decide +kernel
  obtain ⟨runs, _, every, _⟩ :=
    last_write_determines_entry (.ofSecs 60) (some 1) (.manual ⟨1000, 0⟩) false
  obtain ⟨deeds, chronicle⟩ := runs _
  have life := (every deeds t chronicle).2.1 "a"
  refine ⟨⟨deeds, chronicle, (life.last e).1 found⟩, ?_, ?_⟩
  · exact (life.flush e _ found).trans (if_neg (by decide))
  · exact (life.flush e _ found).trans (if_pos (by decide))

end Session

end WarmCache
