import Mathlib.Data.Finset.Card
import WarmCache.Proofs.Reachable

/-!
# Slots and keys in every session

Whatever callers, callbacks and background tasks do, in whatever order, and wherever a callback
panics, a slot is taken for every key and for nothing else.

Results:
1. `Reachable.accounted`: the count of slots is right in every reachable session.
2. `Reachable.limit_eq`, `Reachable.policy_eq`: the limit and the lifetime are those that the
   cache was made with.
3. `slots_count_keys`: the count is the number of keys and within the limit at every point of any
   work, and no delete and no turn of a flush gives back a slot that was not taken.
-/

namespace WarmCache

namespace Session

variable {ttl : Span} {limit : Option Nat} {time : TimeSource} {hasRuntime : Bool}

/-- A property of caches that operations and claims keep holds in every reachable session, if it
holds of a new cache. -/
theorem Reachable.cache_induction {P : Cache Int → Prop} {s : Session}
    (h : Reachable ttl limit time hasRuntime s) (new : P (.new (.ofTtl ttl) limit))
    (ops : ∀ c ops, P c → P (c.applyAll ops)) (claims : ∀ c taken, P c → P (c.claim taken)) :
    P s.cache := by
  induction h with
  | refl => exact new
  | tail _ step ih =>
    obtain ⟨done, taken, eq⟩ := step.cache
    rw [eq]
    exact claims _ taken (ops _ done ih)

theorem Reachable.accounted {s : Session} (h : Reachable ttl limit time hasRuntime s) :
    s.cache.Accounted :=
  h.cache_induction (.new _ _) (fun _ ops hc => hc.applyAll ops) fun _ taken hc => hc.claim taken

theorem Reachable.limit_eq {s : Session} (h : Reachable ttl limit time hasRuntime s) :
    s.cache.limit = limit := by
  refine h.cache_induction (P := fun c => c.limit = limit) rfl (fun c ops hc => ?_) fun _ _ hc => hc
  obtain ⟨_, _, _, eq⟩ := c.applyAll_frame ops
  rw [eq]
  exact hc

theorem Reachable.policy_eq {s : Session} (h : Reachable ttl limit time hasRuntime s) :
    s.cache.policy = .ofTtl ttl := by
  refine h.cache_induction (P := fun c => c.policy = .ofTtl ttl) rfl (fun c ops hc => ?_)
    fun _ _ hc => hc
  obtain ⟨_, _, _, eq⟩ := c.applyAll_frame ops
  rw [eq]
  exact hc

/-- At every point of any work, with any callbacks under way, the count of slots is the number of
distinct keys and keeps the limit. A key that is there leaves a slot to give back, and in a flush,
in whatever order it comes to the entries, there is one to give back at every turn. -/
theorem slots_count_keys {α : Type} {w : Work α} {s t : Session}
    (h : Reachable ttl limit time hasRuntime s) (passed : During w s t) :
    t.cache.entries.keys.Nodup ∧
      t.cache.slots = t.cache.entries.keys.toFinset.card ∧
      (∀ l : Nat, limit = some l → t.cache.slots ≤ l) ∧
      (∀ key, t.cache.entries.contains key = true →
        (t.cache.delete key).slots = t.cache.slots - 1 ∧ 0 ≤ t.cache.slots - 1) ∧
      ∀ now order, order.Perm t.cache.entries →
        (t.cache.flush now).1 =
          { t.cache.flushOver now order with
            counters := t.cache.counters.recordFlushed (t.cache.flush now).2 } ∧
        ∀ seen, seen <+: order →
          0 ≤ (t.cache.flushOver now seen).slots ∧
          (t.cache.flushOver now seen).slots =
            (t.cache.flushOver now seen).entries.keys.toFinset.card := by
  have reached := h.during passed
  have count := reached.accounted
  have card : ∀ {c : Cache Int}, c.Accounted → c.slots = c.entries.keys.toFinset.card := by
    intro c hc
    rw [List.toFinset_card_of_nodup hc.nodup_keys, Keyed.length_keys, hc.slots_eq]
  refine ⟨count.nodup_keys, card count, fun l hl => ?_, fun key present => ?_,
    fun now order perm => ⟨Cache.flush_eq_flushOver count now perm, fun seen _ => ?_⟩⟩
  · exact count.slots_le l (reached.limit_eq.trans hl)
  · rw [Cache.delete_of_contains present]
    exact ⟨rfl, count.slots_pos present⟩
  · have turn := count.flushOver now seen
    refine ⟨?_, card turn⟩
    rw [card turn]
    exact Int.natCast_nonneg _

/-- A refresh of a full cache whose callback deletes its own key, sets another, which takes the
slot that has become free, and panics. -/
theorem slots_count_keys_panic :
    let s := ((ofCache (.ofSecs 60) (some 1) (.manual ⟨0, 0⟩) false).run
      [.run (.act (.set "a" 1 [.refresh (.mk "source" (.mk none [] (.item 5)) [] false [])]))]).1
    let w := Work.refresh fun _ => do
      let _ ← Work.request (.act (.store (.delete "a")))
      let _ ← Work.request (.act (.set "b" 2 []))
      let _ ← Work.request (.act (.set "c" 3 []))
      return .panicked "gone"
    let t := (s.finish w).1
    t.cache.entries.keys = ["b"] ∧ t.cache.slots = t.cache.entries.keys.toFinset.card ∧
      t.cache.slots ≤ 1 ∧ 0 ≤ t.cache.slots - 1 := by
  intro s w t
  have reached : Reachable (.ofSecs 60) (some 1) (.manual ⟨0, 0⟩) false s :=
    Reachable.run .refl _
  have keys : t.cache.entries.keys = ["b"] := by decide +kernel
  obtain ⟨_, card, bound, room, _⟩ := slots_count_keys reached (during_finish w s)
  refine ⟨keys, card, bound 1 rfl, (room "b" ?_).2⟩
  rw [Keyed.contains_iff_mem_keys, keys]
  exact List.mem_singleton_self "b"

end Session

end WarmCache
