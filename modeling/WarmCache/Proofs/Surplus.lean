import WarmCache.Proofs.FiniteMap
import WarmCache.Proofs.Requests

/-!
# Surplus counts

Lookups and refused sets are counted, and these counts steer nothing: no operation of a cache asks
for them. So a cache that has counted more of them than another, and is the same otherwise, stays
so. A session may besides have other notes and other work put aside; what it does at once, it does
as if it had not.

Results:
1. `Cache.call_plus`: a call is answered alike and leaves the surplus as it is.
2. `Session.performStore_ahead`, `Session.performPolicy_ahead`: so is an action of a session,
   unless it reads what differs.
-/

namespace WarmCache

/-- By how many lookups that found their key, lookups that did not, and refused sets one cache is
ahead of another. -/
structure Surplus where
  hits : Nat
  misses : Nat
  rejected : Nat
deriving DecidableEq, Repr

namespace Surplus

/-- Not ahead at all. -/
def zero : Surplus := ⟨0, 0, 0⟩

/-- Both surpluses together. -/
def add (x y : Surplus) : Surplus :=
  ⟨x.hits + y.hits, x.misses + y.misses, x.rejected + y.rejected⟩

theorem zero_add (x : Surplus) : Surplus.zero.add x = x := by
  simp only [add, zero, Nat.zero_add]

theorem add_assoc (x y z : Surplus) : (x.add y).add z = x.add (y.add z) := by
  simp only [add, Nat.add_assoc]

end Surplus

namespace Counters

/-- The counters of a cache that is ahead. -/
def plus (c : Counters) (x : Surplus) : Counters :=
  { c with
    hits := c.hits + UInt64.ofNat x.hits
    misses := c.misses + UInt64.ofNat x.misses
    rejected := c.rejected + UInt64.ofNat x.rejected }

variable (c : Counters) (x : Surplus)

theorem plus_zero : c.plus .zero = c := by
  have zero : UInt64.ofNat 0 = 0 := rfl
  simp only [plus, Surplus.zero, zero, UInt64.add_zero]

theorem plus_plus (y : Surplus) : (c.plus x).plus y = c.plus (x.add y) := by
  simp only [plus, Surplus.add, UInt64.ofNat_add, UInt64.add_assoc]

theorem recordHit_plus : (c.plus x).recordHit = c.recordHit.plus x := by
  simp only [plus, recordHit, UInt64.add_assoc, UInt64.add_comm 1]

theorem recordMiss_plus : (c.plus x).recordMiss = c.recordMiss.plus x := by
  simp only [plus, recordMiss, UInt64.add_assoc, UInt64.add_comm 1]

theorem recordRejected_plus : (c.plus x).recordRejected = c.recordRejected.plus x := by
  simp only [plus, recordRejected, UInt64.add_assoc, UInt64.add_comm 1]

theorem recordHit_eq_plus : c.recordHit = c.plus ⟨1, 0, 0⟩ := by
  have zero : UInt64.ofNat 0 = 0 := rfl
  simp only [plus, recordHit, zero, UInt64.add_zero]
  rfl

theorem recordMiss_eq_plus : c.recordMiss = c.plus ⟨0, 1, 0⟩ := by
  have zero : UInt64.ofNat 0 = 0 := rfl
  simp only [plus, recordMiss, zero, UInt64.add_zero]
  rfl

theorem recordRejected_eq_plus : c.recordRejected = c.plus ⟨0, 0, 1⟩ := by
  have zero : UInt64.ofNat 0 = 0 := rfl
  simp only [plus, recordRejected, zero, UInt64.add_zero]
  rfl

end Counters

namespace Cache

variable {α : Type}

/-- A cache that is ahead. -/
def plus (c : Cache α) (x : Surplus) : Cache α := { c with counters := c.counters.plus x }

variable (c : Cache α) (x : Surplus)

theorem plus_zero : c.plus .zero = c := by
  rw [plus, Counters.plus_zero]

theorem plus_plus (y : Surplus) : (c.plus x).plus y = c.plus (x.add y) := by
  rw [plus, plus, plus, Counters.plus_plus]

theorem get_plus (key : String) : (c.plus x).get key = ((c.get key).1.plus x, (c.get key).2) := by
  have same : (c.plus x).entries = c.entries := rfl
  unfold get
  rw [same]
  cases c.entries.find? key with
  | none =>
    exact congrArg (fun counters => ({ c with counters }, none)) (c.counters.recordMiss_plus x)
  | some e =>
    exact congrArg (fun counters => ({ c with counters }, some e)) (c.counters.recordHit_plus x)

theorem set_plus (now : Instant) (key : String) (value : Value α) :
    (c.plus x).set now key value =
      ((c.set now key value).1.plus x, (c.set now key value).2) := by
  rcases c.set_cases key with present | ⟨free, room⟩ | ⟨free, limit, hl, full⟩
  · have present' : (c.plus x).entries.contains key = true := present
    rw [set_of_contains present, set_of_contains present']
    rfl
  · have free' : (c.plus x).entries.contains key = false := free
    have room' : (c.plus x).HasRoom := room
    rw [set_of_hasRoom free room, set_of_hasRoom free' room']
    rfl
  · have free' : (c.plus x).entries.contains key = false := free
    have hl' : (c.plus x).limit = some limit := hl
    have full' : (limit : Int) ≤ (c.plus x).slots := full
    rw [set_of_full free hl full, set_of_full free' hl' full']
    exact congrArg (fun counters => ({ c with counters }, _)) (c.counters.recordRejected_plus x)

theorem delete_plus (key : String) : (c.plus x).delete key = (c.delete key).plus x := by
  cases present : c.entries.contains key with
  | true =>
    have present' : (c.plus x).entries.contains key = true := present
    rw [delete_of_contains present, delete_of_contains present']
    rfl
  | false =>
    have present' : (c.plus x).entries.contains key = false := present
    rw [delete_of_not_contains present, delete_of_not_contains present']

theorem settle_plus (now : Instant) (key : String) (callback : Callback)
    (result : Except String α) : (c.plus x).settle now key callback result =
      ((c.settle now key callback result).1.plus x, (c.settle now key callback result).2) := by
  cases result with
  | error message => rfl
  | ok item =>
    cases present : c.entries.contains key with
    | true =>
      have present' : (c.plus x).entries.contains key = true := present
      rw [settle_ok_of_contains present, settle_ok_of_contains present']
      rfl
    | false =>
      have present' : (c.plus x).entries.contains key = false := present
      rw [settle_ok_of_not_contains present, settle_ok_of_not_contains present']

/-- A call is answered as by a cache that is not ahead. -/
theorem call_plus (now : Instant) (call : CacheCall α) :
    (c.plus x).call now call = ((c.call now call).1.plus x, (c.call now call).2) := by
  cases call with
  | set key value =>
    simp only [Cache.call, set_plus]
    generalize c.set now key value = written
    obtain ⟨after, result⟩ := written
    cases result <;> rfl
  | get key => simp only [Cache.call, get_plus]
  | getItem key => simp only [Cache.call, getItem, get_plus]
  | delete key => simp only [Cache.call, delete_plus]
  | flush => rfl
  | size => rfl
  | isEmpty => rfl

end Cache

/-- What a session keeps aside: the notes, and the work that it has in the background. -/
structure Aside where
  trace : List TraceRecord
  threads : List RefreshProgress
  members : List Member

namespace Session

/-- What a session keeps aside. -/
def aside (s : Session) : Aside :=
  ⟨s.journal.trace, s.background.threads, s.background.members⟩

/-- A session whose cache is ahead, and which keeps something else aside. -/
def ahead (x : Surplus) (a : Aside) (s : Session) : Session :=
  { s with
    cache := s.cache.plus x
    journal := { s.journal with trace := a.trace }
    background := { s.background with threads := a.threads, members := a.members } }

variable (x : Surplus) (a : Aside) (s : Session)

theorem build_ahead (item : Int) (settings : List Build) :
    (s.ahead x a).build item settings =
      ((s.build item settings).1.ahead x a, (s.build item settings).2) :=
  build_map (f := ahead x a) (fun _ => rfl) (fun _ _ => rfl) (fun _ _ => rfl) (fun _ => rfl) s item
    settings

theorem get_ahead (key : String) :
    (s.ahead x a).get key = ((s.get key).1.ahead x a, (s.get key).2) := by
  have same : (s.ahead x a).cache.get key =
      ((s.cache.get key).1.plus x, (s.cache.get key).2) := s.cache.get_plus x key
  simp only [Session.get, same]
  rfl

theorem set_ahead (key : String) (value : Value Int) :
    (s.ahead x a).set key value = ((s.set key value).1.ahead x a, (s.set key value).2) := by
  have same : (s.ahead x a).cache.set (s.ahead x a).now key value =
      ((s.cache.set s.now key value).1.plus x, (s.cache.set s.now key value).2) :=
    s.cache.set_plus x s.now key value
  simp only [Session.set, same]
  rfl

/-- A loop over keys each of whose rounds takes no notice of what is different. -/
theorem foldl_ahead {β γ : Type} {f : Session × β → γ → Session × β}
    (each : ∀ s b c, f (ahead x a s, b) c = ((f (s, b) c).1.ahead x a, (f (s, b) c).2)) (b : β)
    (keys : List γ) :
    keys.foldl f (s.ahead x a, b) =
      ((keys.foldl f (s, b)).1.ahead x a, (keys.foldl f (s, b)).2) := by
  induction keys generalizing s b with
  | nil => rfl
  | cons key rest ih =>
    rw [List.foldl_cons, List.foldl_cons, each]
    exact ih _ _

theorem setMany_ahead (keys : List (String × Int)) :
    (s.ahead x a).setMany keys = ((s.setMany keys).1.ahead x a, (s.setMany keys).2) := by
  unfold setMany
  rw [foldl_ahead x a s (fun s b key => ?_) _ keys]
  obtain ⟨ok, firstError⟩ := b
  dsimp only
  rw [set_ahead]
  generalize s.set key.1 (.ofItem key.2) = done
  obtain ⟨t, result⟩ := done
  cases result <;> rfl

theorem getMany_ahead (keys : List (String × Int)) :
    (s.ahead x a).getMany keys = ((s.getMany keys).1.ahead x a, (s.getMany keys).2) := by
  unfold getMany
  rw [foldl_ahead x a s (fun s items key => ?_) _ keys]
  dsimp only
  rw [get_ahead]
  generalize s.get key.1 = done
  obtain ⟨t, found⟩ := done
  cases found <;> rfl

theorem performStore_ahead {action : StoreAction} (other : action ≠ .stats) :
    (s.ahead x a).performStore action =
      ((s.performStore action).1.ahead x a, (s.performStore action).2) := by
  cases action with
  | get key => simp only [performStore, get_ahead]; rfl
  | getItem key =>
    have same : (s.ahead x a).cache.get key =
        ((s.cache.get key).1.plus x, (s.cache.get key).2) := s.cache.get_plus x key
    simp only [performStore, Cache.getItem, same]
    rfl
  | delete key =>
    exact congrArg (fun cache => ({ s.ahead x a with cache }, Answer.nothing))
      (s.cache.delete_plus x key)
  | flush => rfl
  | setMany stem first count => exact s.setMany_ahead x a _
  | getMany stem first count => exact s.getMany_ahead x a _
  | deleteMany stem first count =>
    have each : ∀ (keys : List (String × Int)) (c : Cache Int),
        keys.foldl (fun c key => c.delete key.1) (c.plus x) =
          (keys.foldl (fun c key => c.delete key.1) c).plus x := by
      intro keys c
      exact List.foldl_hom (Cache.plus · x) fun c key => c.delete_plus x key.1
    exact congrArg (fun cache => ({ s.ahead x a with cache }, Answer.nothing)) (each _ _)
  | size => rfl
  | isEmpty => rfl
  | limit => rfl
  | workerRunning => rfl
  | stats => exact absurd rfl other
  | showCache layout => rfl
  | showEntry key => simp only [performStore, get_ahead]
  | showExpiry key => simp only [performStore, get_ahead]
  | hold key slot =>
    simp only [performStore, get_ahead]
    generalize s.get key = done
    obtain ⟨t, found⟩ := done
    cases found <;> rfl
  | held slot =>
    have same : (s.ahead x a).held = s.held := rfl
    simp only [performStore, same]
    split <;> rfl
  | heldExpiredAt slot moment =>
    have same : (s.ahead x a).held = s.held := rfl
    simp only [performStore, same]
    split <;> rfl

theorem performPolicy_ahead (action : PolicyAction) :
    (s.ahead x a).performPolicy action =
      ((s.performPolicy action).1.ahead x a, (s.performPolicy action).2) := by
  have same : (s.ahead x a).clock = s.clock := rfl
  cases action with
  | advance d =>
    simp only [performPolicy, same]
    split <;> rfl
  | setClock moment =>
    simp only [performPolicy, same]
    split <;> rfl
  | _ => rfl

end Session

end WarmCache
